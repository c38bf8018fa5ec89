import Pipework.Proofs.Isolation.Asking
import Pipework.Session

/-! # Runs side by side do not interfere

In a session that only starts runs, pulls at them and drops them, and in which the user is asked
nothing, each run gives what it gives in a session of its own, and the pipes stay as they are. The
registry and the files are in the setting, which nothing can change.
-/

namespace Pipework

variable {known : Pipe → Prop} {setting : Setting} {budget : Nat} {name : String}

/-- The run that a command names, if it does nothing but to start the run, to go on with it or to
drop it. -/
def Command.run? : Command → Option String
  | .start run _ _ _ => some run
  | .next run _ => some run
  | .take run _ => some run
  | .stream run => some run
  | .drop run => some run
  | .compile .. => none
  | .collect _ => none
  | .dropPipe _ => none
  | .sleep _ => none

/-- Whether that is the run which a command names. -/
def Command.names (run : String) (command : Command) : Bool :=
  command.run? == some run

namespace Session

/-- What a command does with the run that it names. -/
inductive Change where
  | stay
  | keep (delivery : Delivery) (run : PipeRun)
  | drop

/-- A run that is kept is one of a pipe. -/
def Change.Fits (known : Pipe → Prop) : Change → Prop
  | .stay => True
  | .keep _ run => ∃ mode, run.stage.Alone known mode
  | .drop => True

/-- The session after a change of one of its runs. -/
def after (session : Session) (name : String) : Change → Session
  | .stay => session
  | .keep delivery run => session.keep name delivery run
  | .drop => session.without name

/-- The pipes of a session are known, and its runs are runs of such pipes. -/
structure Fits (known : Pipe → Prop) (session : Session) : Prop where
  pipes : ∀ name pipe, session.pipes.get? name = some pipe → known pipe
  runs : ∀ name delivery run, session.runs.get? name = some (delivery, run) →
    ∃ mode, run.stage.Alone known mode

/-- Two sessions have the same pipes and the same run of a name. -/
structure Agrees (name : String) (session twin : Session) : Prop where
  pipes : twin.pipes = session.pipes
  limit : twin.limit = session.limit
  run : twin.runs.get? name = session.runs.get? name

variable {session twin next last : Session} {other : String} {change : Change}

@[simp]
theorem after_pipes : (session.after name change).pipes = session.pipes := by
  cases change <;> rfl

@[simp]
theorem after_limit : (session.after name change).limit = session.limit := by
  cases change <;> rfl

/-- A change of one run leaves the others as they are. -/
theorem after_other (h : other ≠ name) :
    (session.after name change).runs.get? other = session.runs.get? other := by
  cases change with
  | stay => rfl
  | keep delivery run => exact Dict.get?_insert_of_ne _ _ h
  | drop => exact (Dict.get?_erase ..).trans (if_neg h)

theorem Fits.after (h : session.Fits known) (name : String) (hchange : change.Fits known) :
    (session.after name change).Fits known := by
  refine ⟨by simpa using h.pipes, fun other delivery run hrun => ?_⟩
  by_cases hother : other = name
  · subst hother
    cases change with
    | stay => exact h.runs other delivery run hrun
    | keep kept changed =>
        cases (Dict.get?_insert_self ..).symm.trans hrun
        exact hchange
    | drop => simp [Session.after, Session.without, Dict.get?_erase] at hrun
  · exact h.runs other delivery run ((after_other hother).symm.trans hrun)

namespace Agrees

theorem refl (name : String) (session : Session) : Agrees name session session :=
  ⟨rfl, rfl, rfl⟩

theorem after (h : Agrees name session twin) (change : Change) :
    Agrees name (session.after name change) (twin.after name change) := by
  refine ⟨by simpa using h.pipes, by simpa using h.limit, ?_⟩
  cases change with
  | stay => exact h.run
  | keep delivery run => simp [Session.after, Session.keep]
  | drop => simp [Session.after, Session.without, Dict.get?_erase]

/-- A change of another run does not matter. -/
theorem after_other (h : Agrees name session twin) (hname : name ≠ other) (change : Change) :
    Agrees name (session.after other change) twin := by
  refine ⟨by simpa using h.pipes, by simpa using h.limit, ?_⟩
  rw [Session.after_other hname]
  exact h.run

end Agrees

/-- What comes of starting a run. -/
def started (mode : Mode) : Except PipeError PipeRun.Started → Reply × Change
  | .error error => (.failed error, .stay)
  | .ok (.description description) => (.described description, .stay)
  | .ok (.running run) => (.started run.output, .keep (if mode = .async then .async else .sync) run)

/-- A command does to the run that it names what depends on nothing else in the session. -/
def Acts (known : Pipe → Prop) (name : String) (session : Session)
    (does : Session → Nat → Run (Reply × Session)) : Prop :=
  ∃ act : Nat → Run (Reply × Change), Run.Secluded (fun outcome => outcome.2.Fits known) act ∧
    ∀ twin, Agrees name session twin → ∀ budget,
      does twin budget = (fun outcome => (outcome.1, twin.after name outcome.2)) <$> act budget

namespace Acts

variable {does : Session → Nat → Run (Reply × Session)}

theorem of_pure (reply : Reply) (change : Change) (hchange : change.Fits known)
    (h : ∀ twin, Agrees name session twin → ∀ budget,
      does twin budget = pure (reply, twin.after name change)) : Acts known name session does :=
  ⟨fun _ => pure (reply, change), .pure hchange, h⟩

theorem of_map {α : Type} {post : α → Prop} {act : Nat → Run α} (outcome : α → Reply × Change)
    (hact : Run.Secluded post act) (hfits : ∀ result, post result → (outcome result).2.Fits known)
    (h : ∀ twin, Agrees name session twin → ∀ budget, does twin budget =
      act budget >>= fun result => pure ((outcome result).1, twin.after name (outcome result).2)) :
    Acts known name session does := by
  refine ⟨_, hact.map outcome hfits, fun twin htwin budget => ?_⟩
  rw [h twin htwin budget]
  simp only [map_eq_pure_bind, bind_assoc, pure_bind]

end Acts

/-- What is done with a run that may have to wait is done with nothing else. -/
theorem withAsync_acts {α : Type} {post : Mode → α → Prop} (act : PipeRun → Nat → Run α)
    (outcome : α → Reply × Change) (hfits : session.Fits known)
    (hact : ∀ mode run, run.stage.Alone known mode → Run.Secluded (post mode) (act run))
    (houtcome : ∀ mode result, post mode result → (outcome result).2.Fits known) :
    Acts known name session fun twin budget => twin.withAsync name fun run =>
      act run budget >>= fun result =>
        pure ((outcome result).1, twin.after name (outcome result).2) := by
  have hother (hheld : ∀ delivery run, session.runs.get? name = some (delivery, run) →
      delivery ≠ .async) :
      Acts known name session fun twin budget => twin.withAsync name fun run =>
        act run budget >>= fun result =>
          pure ((outcome result).1, twin.after name (outcome result).2) := by
    refine .of_pure .impossible .drop trivial fun twin htwin budget => ?_
    simp only [withAsync, htwin.run]
    split
    next run hrun => exact absurd rfl (hheld .async run hrun)
    next => rfl
  cases hrun : session.runs.get? name with
  | none => exact hother (by simp [hrun])
  | some held =>
      obtain ⟨delivery, run⟩ := held
      cases delivery with
      | async =>
          obtain ⟨mode, halone⟩ := hfits.runs name .async run hrun
          refine .of_map outcome (hact mode run halone) (houtcome mode) fun twin htwin budget => ?_
          simp only [withAsync, htwin.run, hrun]
      | sync => exact hother (by simp [hrun])
      | stream => exact hother (by simp [hrun])

/-- The case for each command. -/
theorem step_acts (hcloses : setting.registry.Closes known) (hfits : session.Fits known)
    {command : Command} (hname : command.run? = some name) :
    Acts known name session fun twin budget => twin.step setting budget command := by
  cases command with
  | compile | collect | dropPipe | sleep => cases hname
  | start run pipe mode context =>
      cases hname
      cases hpipe : session.pipes.get? pipe with
      | none =>
          refine .of_pure .impossible .stay trivial fun twin htwin _ => ?_
          simp only [step, startRun, htwin.pipes, hpipe]
          rfl
      | some found =>
          have hstarted := PipeRun.ofContext_secluded hcloses mode session.limit context
            (hfits.pipes pipe found hpipe)
          refine .of_map (started mode) hstarted (fun outcome houtcome => ?_)
            fun twin htwin budget => ?_
          · rcases outcome with error | description | run
            · trivial
            · trivial
            · exact ⟨mode, houtcome run rfl⟩
          · simp only [step, startRun, htwin.pipes, htwin.limit, hpipe]
            refine congrArg _ (funext fun outcome => ?_)
            rcases outcome with error | description | run <;> rfl
  | next run count =>
      cases hname
      cases hrun : session.runs.get? name with
      | none =>
          refine .of_pure .impossible .stay trivial fun twin htwin _ => ?_
          simp only [step, htwin.run, hrun]
          rfl
      | some held =>
          obtain ⟨delivery, run⟩ := held
          obtain ⟨mode, halone⟩ := hfits.runs name delivery run hrun
          refine .of_map (fun result => (.answers result.1, .keep delivery result.2))
            (PipeRun.pull_secluded hcloses count halone)
            (fun result hresult => ⟨mode, hresult⟩) fun twin htwin budget => ?_
          simp only [step, htwin.run, hrun]
          rfl
  | take run count =>
      cases hname
      exact withAsync_acts (fun run budget => run.take setting budget count)
        (fun result => (recordsReply result.1, .keep .async result.2)) hfits
        (fun mode run halone => PipeRun.take_secluded hcloses count halone)
        fun mode result hresult => ⟨mode, hresult⟩
  | stream run =>
      cases hname
      exact withAsync_acts (fun run _ => pure run)
        (fun run => (.streaming, .keep .stream run.stream)) hfits
        (fun mode run halone => .pure halone) fun mode run halone => ⟨mode, halone⟩
  | drop run =>
      cases hname
      refine .of_pure (.dropped (session.runs.contains name)) .drop trivial
        fun twin htwin _ => ?_
      simp only [step, Dict.contains, htwin.run]
      rfl

/-- What a command comes to in one session it comes to, unless the user is asked something, in every
world and in every session that agrees on the run that it names. -/
theorem step_repeats (hcloses : setting.registry.Closes known) (hfits : session.Fits known)
    {command : Command} (hname : command.run? = some name) (htwin : Agrees name session twin)
    {reply : Reply} {world later : World}
    (h : (twin.step setting budget command).run world = some ((reply, next), later)) :
    ∃ change : Change, change.Fits known ∧ next = twin.after name change ∧
      world.Repeats later fun elsewhere behind => ∀ other, Agrees name session other →
        ∃ least, ∀ more, least ≤ more → (other.step setting more command).run elsewhere =
          some ((reply, other.after name change), behind) := by
  obtain ⟨act, hact, hdoes⟩ := step_acts hcloses hfits hname
  dsimp only at hdoes
  rw [hdoes twin htwin, map_eq_pure_bind] at h
  obtain ⟨⟨reply, change⟩, middle, hrun, hpure⟩ := run_bind_eq_some_iff.mp h
  cases hpure
  obtain ⟨hchange, hrepeats⟩ := hact hrun
  refine ⟨change, hchange, rfl, hrepeats.imp ?_⟩
  rintro elsewhere behind ⟨least, hagain⟩ other hother
  refine ⟨least, fun more hmore => ?_⟩
  rw [hdoes other hother, map_eq_pure_bind]
  exact run_bind_eq_some_iff.mpr ⟨(reply, change), behind, hagain more hmore, rfl⟩

/-- Carries out commands one after the other and gives each with its reply. -/
def carryOut (setting : Setting) (budget : Nat) :
    Session → List Command → Run (List (Command × Reply) × Session)
  | session, [] => return ([], session)
  | session, command :: rest => do
      let (reply, session) ← session.step setting budget command
      let (exchanges, session) ← carryOut setting budget session rest
      return ((command, reply) :: exchanges, session)

theorem run_carryOut_cons {command : Command} {rest : List Command} {world later : World}
    {exchanges : List (Command × Reply)} :
    (session.carryOut setting budget (command :: rest)).run world =
        some ((exchanges, last), later) ↔
      ∃ reply next middle replies,
        (session.step setting budget command).run world = some ((reply, next), middle) ∧
        (next.carryOut setting budget rest).run middle = some ((replies, last), later) ∧
        exchanges = (command, reply) :: replies := by
  rw [carryOut]
  constructor
  · intro h
    obtain ⟨⟨reply, next⟩, middle, hstep, h⟩ := run_bind_eq_some_iff.mp h
    obtain ⟨⟨replies, reached⟩, behind, hrest, hpure⟩ := run_bind_eq_some_iff.mp h
    cases hpure
    exact ⟨reply, next, middle, replies, hstep, hrest, rfl⟩
  · rintro ⟨reply, next, middle, replies, hstep, hrest, rfl⟩
    refine run_bind_eq_some_iff.mpr ⟨(reply, next), middle, hstep, ?_⟩
    exact run_bind_eq_some_iff.mpr ⟨(replies, last), later, hrest, rfl⟩

/-- From some budget on the commands come to these replies. -/
def Comes (setting : Setting) (session : Session) (commands : List Command)
    (exchanges : List (Command × Reply)) (world later : World) : Prop :=
  ∃ last least, ∀ budget, least ≤ budget →
    (session.carryOut setting budget commands).run world = some ((exchanges, last), later)

/-- The commands come to these replies without asking the user anything or letting time pass. -/
def Quiet (setting : Setting) (session : Session) (commands : List Command)
    (exchanges : List (Command × Reply)) (world : World) : Prop :=
  ∃ later, world.Went [] later ∧ session.Comes setting commands exchanges world later

namespace Comes

variable {command : Command} {rest : List Command} {reply : Reply}
  {exchanges : List (Command × Reply)} {world middle later : World}

theorem nil : session.Comes setting [] [] world world :=
  ⟨session, 0, fun _ _ => rfl⟩

theorem cons (hstep : ∃ least, ∀ budget, least ≤ budget →
      (session.step setting budget command).run world = some ((reply, next), middle))
    (hrest : next.Comes setting rest exchanges middle later) :
    session.Comes setting (command :: rest) ((command, reply) :: exchanges) world later := by
  obtain ⟨first, hfirst⟩ := hstep
  obtain ⟨last, others, hothers⟩ := hrest
  refine ⟨last, max first others, fun budget hbudget => run_carryOut_cons.mpr ?_⟩
  exact ⟨reply, next, middle, exchanges, hfirst budget (le_of_max_le_left hbudget),
    hothers budget (le_of_max_le_right hbudget), rfl⟩

end Comes

section Closed

variable (hcloses : setting.registry.Closes known) {commands : List Command} {world later : World}
  {exchanges : List (Command × Reply)}

include hcloses

/-- The commands that name one run come to the same in a session of their own. The induction is on
the commands: those that name other runs leave the two sessions agreed. -/
theorem alone_of_carryOut (name : String) (hcommands : ∀ command ∈ commands, command.run?.isSome = true)
    (hfits : session.Fits known) (htwin : Agrees name session twin)
    (h : (session.carryOut setting budget commands).run world = some ((exchanges, last), later)) :
    last.pipes = session.pipes ∧ world.Repeats later
      (twin.Comes setting (commands.filter (Command.names name))
        (exchanges.filter fun exchange => exchange.1.names name)) := by
  induction commands generalizing session twin world exchanges with
  | nil =>
      cases h
      exact ⟨rfl, .of_eq fun _ => .nil⟩
  | cons command rest ih =>
      obtain ⟨reply, next, middle, replies, hstep, hrest, rfl⟩ := run_carryOut_cons.mp h
      obtain ⟨hcommand, hothers⟩ := List.forall_mem_cons.mp hcommands
      obtain ⟨run, hrun⟩ := Option.isSome_iff_exists.mp hcommand
      obtain ⟨change, hchange, rfl, hrepeats⟩ :=
        step_repeats hcloses hfits hrun (.refl run session) hstep
      have hnext := hfits.after run hchange
      by_cases hname : name = run
      · subst hname
        obtain ⟨hpipes, hgoesOn⟩ := ih hothers hnext (htwin.after change) hrest
        have hnames : command.names name = true := beq_iff_eq.mpr hrun
        simp only [List.filter_cons, hnames, if_true]
        refine ⟨hpipes.trans after_pipes, (hrepeats.trans hgoesOn).imp ?_⟩
        rintro elsewhere behind ⟨between, hagain, hcomes⟩
        exact .cons (hagain twin htwin) hcomes
      · obtain ⟨hpipes, hgoesOn⟩ := ih hothers hnext (htwin.after_other hname change) hrest
        have hnames : command.names name = false := by simp [Command.names, hrun, Ne.symm hname]
        simp only [List.filter_cons, hnames, Bool.false_eq_true, if_false]
        exact ⟨hpipes.trans after_pipes, hrepeats.skip hgoesOn⟩

/-- If the commands that name one run come to something in a session of their own, for each run, then
they all come to something side by side. The induction is on the commands: each is carried out in
the session of the run that it names. -/
theorem quiet_of_alone (hcommands : ∀ command ∈ commands, command.run?.isSome = true)
    (hfits : session.Fits known) (world : World)
    (halone : ∀ name, ∃ twin : Session, twin.Fits known ∧ Agrees name session twin ∧
      ∃ elsewhere exchanges, twin.Quiet setting (commands.filter (Command.names name)) exchanges
        elsewhere) :
    ∃ exchanges, session.Quiet setting commands exchanges world := by
  induction commands generalizing session world with
  | nil => exact ⟨[], world, .rfl, .nil⟩
  | cons command rest ih =>
      obtain ⟨hcommand, hothers⟩ := List.forall_mem_cons.mp hcommands
      obtain ⟨run, hrun⟩ := Option.isSome_iff_exists.mp hcommand
      obtain ⟨twin, htwinfits, htwin, elsewhere, exchanges, behind, hwent, last, least, hcomes⟩ :=
        halone run
      have hnames : command.names run = true := beq_iff_eq.mpr hrun
      rw [List.filter_cons_of_pos hnames] at hcomes
      obtain ⟨reply, next, middle, replies, hstep, hrest, -⟩ :=
        run_carryOut_cons.mp (hcomes least (Nat.le_refl least))
      obtain ⟨change, hchange, rfl, asked, hasked, hagain⟩ :=
        step_repeats hcloses hfits hrun htwin hstep
      have hfiltered (command : Command) (h : command ∈ rest.filter (Command.names run)) :
          command.run?.isSome = true := hothers command (List.mem_of_mem_filter h)
      obtain ⟨-, more, hmore, hgoesOn⟩ := alone_of_carryOut hcloses run hfiltered
        (htwinfits.after run hchange) (.refl run _) hrest
      simp only [List.filter_filter, Bool.and_self] at hgoesOn
      -- Nobody is asked anything, neither in this step nor later.
      have hnobody : asked ++ more = [] :=
        (hasked.trans hmore).eq_nil_iff.mpr (hwent.eq_nil_iff.mp rfl)
      obtain ⟨hnone, hnobody⟩ := List.append_eq_nil_iff.mp hnobody
      obtain ⟨between, hbetween, hsteps⟩ := hagain hnone world
      have htwins (name : String) : ∃ twin : Session, twin.Fits known ∧
          Agrees name (session.after run change) twin ∧ ∃ elsewhere exchanges,
            twin.Quiet setting (rest.filter (Command.names name)) exchanges elsewhere := by
        by_cases hname : name = run
        · subst hname
          exact ⟨twin.after name change, htwinfits.after name hchange, htwin.after change, middle, _,
            hgoesOn hnobody middle⟩
        · obtain ⟨other, hother, hagrees, elsewhere, exchanges, hquiet⟩ := halone name
          have hnames : command.names name = false := by simp [Command.names, hrun, Ne.symm hname]
          simp only [List.filter_cons, hnames, Bool.false_eq_true, if_false] at hquiet
          exact ⟨other, hother, hagrees.after_other hname change, elsewhere, exchanges, hquiet⟩
      obtain ⟨given, final, hfinal, hcomesOn⟩ := ih hothers (hfits.after run hchange) between htwins
      exact ⟨(command, reply) :: given, final, hbetween.trans hfinal,
        .cons (hsteps session (.refl run session)) hcomesOn⟩

/-- Runs of pipes whose modules are built in, or pipes of the same kind, do not interfere. However
the commands on the runs are interleaved, if the user is asked nothing then each run replies as it
does if nobody names another run, in whatever world, and the pipes stay as they are. Conversely, if
each run on its own replies without asking the user anything, so do all of them side by side. -/
theorem runs_isolated (hfits : session.Fits known)
    (hcommands : ∀ command ∈ commands, command.run?.isSome = true) (world : World) :
    (∀ budget exchanges last later,
      (session.carryOut setting budget commands).run world = some ((exchanges, last), later) →
      later.questions = world.questions → last.pipes = session.pipes ∧
        ∀ name elsewhere, session.Quiet setting (commands.filter (Command.names name))
          (exchanges.filter fun exchange => exchange.1.names name) elsewhere) ∧
    ((∀ name, ∃ elsewhere exchanges,
      session.Quiet setting (commands.filter (Command.names name)) exchanges elsewhere) →
        ∃ exchanges, session.Quiet setting commands exchanges world) := by
  constructor
  · intro budget exchanges last later hrun hnobody
    have halone (name : String) :=
      alone_of_carryOut hcloses name hcommands hfits (.refl name session) hrun
    refine ⟨(halone "").1, fun name elsewhere => ?_⟩
    obtain ⟨-, asked, hasked, hrepeats⟩ := halone name
    exact hrepeats (hasked.eq_nil_iff.mpr hnobody) elsewhere
  · intro halone
    exact quiet_of_alone hcloses hcommands hfits world fun name =>
      ⟨session, hfits, .refl name session, halone name⟩

end Closed

section Newsroom

open PipeRun (noFiles newsLooped newsLoopedSteps newsLoopedRun)

variable {world : World} {diagram : Diagram} {dependents : List (ModuleId × List ModuleId)}
  {order : List ModuleId} {counts : Plan.Counts}

theorem run_start_newsLooped (session : Session) (name : String) (mode : Mode) (world : World)
    (hpipe : session.pipes.get? "news" =
      some ⟨diagram, dependents, order, newsLoopedSteps, counts⟩)
    (hlimit : session.limit = some 5) :
    ∃ later, (session.step noFiles 10 (.start name "news" mode .testing)).run world =
        some ((.started ⟨"out"⟩, session.keep name (if mode = .async then .async else .sync)
          (newsLoopedRun mode (some 5) false)), later) ∧
      later.clock = world.clock ∧ later.questions = world.questions := by
  rw [step, startRun, hpipe, hlimit]
  exact ⟨_, rfl, rfl, rfl⟩

theorem run_next_newsLooped (session : Session) (name : String) (delivery : Delivery) (mode : Mode)
    (hrun : session.runs.get? name = some (delivery, newsLoopedRun mode (some 5) false))
    (hclock : world.clock = 0) :
    ∃ later, (session.step noFiles 10 (.next name 1)).run world =
        some ((.answers [some (.error (.notProduced ⟨"source"⟩ 0 (.file .notFound)))],
          session.keep name delivery (newsLoopedRun mode (some 5) true)), later) ∧
      later.clock = 0 ∧ later.questions = world.questions := by
  obtain ⟨clock, alarm, lines, questions, events, probes, reads⟩ := world
  obtain rfl : clock = 0 := hclock
  simp only [step, hrun]
  cases mode <;> exact ⟨_, rfl, rfl, rfl⟩

/-- A session with one pipe. -/
def newsroom (pipe : Pipe) : Session :=
  { start (some 5) with pipes := .single "news" pipe }

/-- Two runs of the pipe, of which the first is dropped before the second has ended. -/
def sideBySide : List Command :=
  [.start "morning" "news" .sync .testing, .next "morning" 1, .start "evening" "news" .async .testing,
    .next "evening" 1, .drop "morning", .next "evening" 1]

theorem run_carryOut_sideBySide : ∃ exchanges last later,
    ((newsroom ⟨diagram, dependents, order, newsLoopedSteps, counts⟩).carryOut noFiles 10
      sideBySide).run {} = some ((exchanges, last), later) ∧
    exchanges.map Prod.snd =
      [.started ⟨"out"⟩, .answers [some (.error (.notProduced ⟨"source"⟩ 0 (.file .notFound)))],
        .started ⟨"out"⟩, .answers [some (.error (.notProduced ⟨"source"⟩ 0 (.file .notFound)))],
        .dropped true, .answers [none]] ∧
    later.questions = [] := by
  let opened := newsroom ⟨diagram, dependents, order, newsLoopedSteps, counts⟩
  let early := opened.keep "morning" .sync (newsLoopedRun .sync (some 5) false)
  let late := early.keep "morning" .sync (newsLoopedRun .sync (some 5) true)
  let both := late.keep "evening" .async (newsLoopedRun .async (some 5) false)
  let after := both.keep "evening" .async (newsLoopedRun .async (some 5) true)
  obtain ⟨first, hfirst, hclock, hasked⟩ :=
    run_start_newsLooped opened "morning" .sync {} rfl rfl
  obtain ⟨second, hsecond, hpassed, hquiet⟩ :=
    run_next_newsLooped early "morning" .sync .sync rfl hclock
  obtain ⟨third, hthird, hclock', hasked'⟩ :=
    run_start_newsLooped late "evening" .async second rfl rfl
  obtain ⟨fourth, hfourth, hpassed', hquiet'⟩ :=
    run_next_newsLooped both "evening" .async .async rfl (hclock'.trans hpassed)
  have hdrop : (after.step noFiles 10 (.drop "morning")).run fourth =
      some ((.dropped true, after.without "morning"), fourth) := rfl
  obtain ⟨last, later, hlast, hnobody⟩ : ∃ last later,
      ((after.without "morning").step noFiles 10 (.next "evening" 1)).run fourth =
        some ((.answers [none], last), later) ∧ later.questions = fourth.questions :=
    ⟨_, _, rfl, rfl⟩
  refine ⟨_, last, later, run_carryOut_cons.mpr ⟨_, _, _, _, hfirst,
    run_carryOut_cons.mpr ⟨_, _, _, _, hsecond, run_carryOut_cons.mpr ⟨_, _, _, _, hthird,
    run_carryOut_cons.mpr ⟨_, _, _, _, hfourth, run_carryOut_cons.mpr ⟨_, _, _, _, hdrop,
    run_carryOut_cons.mpr ⟨_, _, _, _, hlast, rfl, rfl⟩, rfl⟩, rfl⟩, rfl⟩, rfl⟩, rfl⟩, rfl, ?_⟩
  rw [hnobody, hquiet', hasked', hquiet, hasked]

/-- The pipe reads a file which is not there. -/
theorem runs_isolated_of_newsroom : ∃ pipe, Pipe.compile newsLooped "news" = .ok pipe ∧
    noFiles.registry.Closes (fun _ => True) ∧ (newsroom pipe).Fits (fun _ => True) ∧
    (∀ command ∈ sideBySide, command.run?.isSome = true) ∧
    ∃ exchanges last later,
      ((newsroom pipe).carryOut noFiles 10 sideBySide).run {} = some ((exchanges, last), later) ∧
      exchanges.map Prod.snd =
        [.started ⟨"out"⟩, .answers [some (.error (.notProduced ⟨"source"⟩ 0 (.file .notFound)))],
          .started ⟨"out"⟩, .answers [some (.error (.notProduced ⟨"source"⟩ 0 (.file .notFound)))],
          .dropped true, .answers [none]] ∧
      last.pipes = (newsroom pipe).pipes ∧
      (newsroom pipe).Quiet noFiles
        [.start "evening" "news" .async .testing, .next "evening" 1, .next "evening" 1]
        (exchanges.filter fun exchange => exchange.1.names "evening") {} := by
  obtain ⟨diagram, dependents, order, counts, hpipe⟩ := PipeRun.compile_newsLooped
  have hcloses : noFiles.registry.Closes fun _ => True := Registry.closes_standard
  have hfits (pipe : Pipe) : (newsroom pipe).Fits fun _ => True := ⟨fun _ _ _ => trivial, nofun⟩
  have hcommands : ∀ command ∈ sideBySide, command.run?.isSome = true := by decide
  obtain ⟨exchanges, last, later, hrun, hreplies, hnobody⟩ := run_carryOut_sideBySide
  obtain ⟨hisolated, -⟩ := runs_isolated hcloses (hfits _) hcommands {}
  obtain ⟨hpipes, hquiet⟩ := hisolated 10 exchanges last later hrun hnobody
  exact ⟨_, hpipe, hcloses, hfits _, hcommands, exchanges, last, later, hrun, hreplies, hpipes,
    hquiet "evening" {}⟩

end Newsroom

end Session

end Pipework
