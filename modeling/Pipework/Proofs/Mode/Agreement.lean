import Pipework.Proofs.Assembly.Factories
import Pipework.Proofs.Mode.Running

/-! # The modes agree

Running a pipe gives the same answers whether or not its stages may have to wait. Where they never
wait the run does not remember its end, but a stage that has ended gives nothing else any more.
-/

namespace Pipework

variable {known : Pipe → Prop} {mode : Mode} {setting : Setting}

/-- With the built-in types alone, whatever pipes there are. -/
theorem Registry.closes_standard : Registry.standard.Closes known := by
  intro pipe _ step _ factory hfactory
  obtain ⟨builtin, -, rfl⟩ := Registry.get_standard hfactory
  trivial

namespace Scene.Awaits

variable {before after : Scene} {poll : Poll}

theorem ended (h : Awaits setting before .ended after) (world : World) :
    Gives setting { after with world } .ended { after with world } := by
  generalize hpoll : Poll.ended = poll at h
  induction h with
  | ready h _ =>
      subst hpoll
      exact h.ended world
  | again _ _ _ ih => exact ih hpoll

/-- A stage that never waits gives at once what it gives. -/
theorem of_sync (hcloses : setting.registry.Closes known) {bound : Nat} {twin : Scene}
    (h : Awaits setting before poll after) (htwin : before.Twin known .sync mode bound twin) :
    Gives setting before poll after := by
  cases h with
  | ready h _ => exact h
  | again h _ _ => exact absurd rfl (h.awaits hcloses htwin).1

theorem deterministic (h : Awaits setting before poll after) {given : Poll} {last : Scene}
    (hgives : Gives setting before given last) (hready : given ≠ .pending) :
    poll = given ∧ after = last := by
  cases h with
  | ready h _ => exact h.deterministic hgives
  | again h _ _ =>
      obtain ⟨rfl, -⟩ := h.deterministic hgives
      exact absurd rfl hready

end Scene.Awaits

namespace PipeRun

variable {run next last : PipeRun} {world middle later : World} {answer : Option Answer}
  {answers : List (Option Answer)}

/-- The stage of the run has ended. -/
def Dry (setting : Setting) (run : PipeRun) : Prop :=
  ∀ world, Scene.Gives setting ⟨run.stage, [], world⟩ .ended ⟨run.stage, [], world⟩

/-- The run has given the end. -/
def Over (setting : Setting) (run : PipeRun) : Prop :=
  run.finished = true ∨ run.Dry setting

theorem Plain.dry (hcloses : setting.registry.Closes known) (hrun : run.Plain known mode)
    {after : Scene} (h : Scene.Awaits setting ⟨run.stage, [], world⟩ .ended after) (later : World) :
    Scene.Gives setting ⟨after.stage, [], later⟩ .ended ⟨after.stage, [], later⟩ := by
  have hended := h.ended later
  rw [(hrun.of_awaits hcloses h).1] at hended
  exact hended

theorem Gives.over (hcloses : setting.registry.Closes known) (hrun : run.Plain known mode)
    (h : Gives setting run world none next later) : next.Over setting := by
  cases h with
  | finished hfinished => exact .inl hfinished
  | ended _ h => exact .inr fun world => hrun.dry hcloses h world

/-- A run that has given the end gives nothing else. -/
theorem Over.gives (hover : run.Over setting)
    (h : Gives setting run world answer next later) : answer = none := by
  cases h with
  | finished => rfl
  | ended => rfl
  | answer hopen h =>
      rcases hover with hfinished | hdry
      · cases hopen.symm.trans hfinished
      · obtain ⟨hanswer, -⟩ := h.deterministic (hdry world.fresh) nofun
        cases hanswer

theorem Over.pulls (hcloses : setting.registry.Closes known) (hrun : run.Plain known mode)
    (hover : run.Over setting) (h : Pulls setting run world answers last later) :
    ∀ answer ∈ answers, answer = none := by
  induction h with
  | nil => nofun
  | cons h _ ih =>
      obtain rfl := hover.gives h
      intro answer hanswer
      rcases List.mem_cons.mp hanswer with rfl | hrest
      · rfl
      · exact ih (h.plain hcloses hrun) (h.over hcloses hrun) answer hrest

/-- After the end every pull gives the end. -/
theorem Pulls.ended (hcloses : setting.registry.Closes known) (hrun : run.Plain known mode)
    (h : Pulls setting run world answers last later) {before after : List (Option Answer)}
    (hsplit : answers = before ++ none :: after) : ∀ answer ∈ after, answer = none := by
  induction h generalizing before with
  | nil => simp at hsplit
  | cons h hrest ih =>
      cases before with
      | nil =>
          obtain ⟨rfl, rfl⟩ := List.cons.inj hsplit
          exact (h.over hcloses hrun).pulls hcloses (h.plain hcloses hrun) hrest
      | cons first before =>
          obtain ⟨rfl, hrestSplit⟩ := List.cons.inj hsplit
          exact ih (h.plain hcloses hrun) hrestSplit

/-- Runs of one pipe in the two modes: the stages are twins, and once the second run remembers its
end the stage of the first has ended. -/
structure Twin (known : Pipe → Prop) (setting : Setting) (first second : PipeRun) : Prop where
  limit : first.limit = none ∧ second.limit = none
  unfinished : first.finished = false
  unfused : first.fused = false
  stage : first.stage.Twin known .sync .async 0 second.stage
  dry : second.finished = true → first.Dry setting

namespace Twin

variable {first second : PipeRun} {twin : World}

theorem scene (h : Twin known setting first second) (halike : world.Alike twin) :
    Scene.Twin known .sync .async 0 ⟨first.stage, [], world.fresh⟩
      ⟨second.stage, [], twin.fresh⟩ :=
  ⟨Nat.zero_le _, h.stage, .nil, halike.lines, halike.questions, halike.reads⟩

theorem plain (h : Twin known setting first second) : first.Plain known .sync :=
  ⟨h.limit.1, fun _ => ⟨Nat.zero_le _, h.stage.left, .nil, .rfl⟩⟩

theorem gives (hcloses : setting.registry.Closes known) (h : Twin known setting first second)
    (halike : world.Alike twin) (hgives : Gives setting first world answer next later) :
    ∃ last after, Gives setting second twin answer last after ∧ Twin known setting next last ∧
      later.Alike after := by
  have hscene := h.scene halike
  cases hgives with
  | finished hfinished => cases h.unfinished.symm.trans hfinished
  | ended _ hawaits =>
      have hgives := hawaits.of_sync hcloses hscene
      cases hfinished : second.finished with
      | true =>
          obtain ⟨-, rfl⟩ := hgives.deterministic (h.dry hfinished world.fresh)
          exact ⟨second, twin, .finished hfinished, ⟨h.limit, h.unfused, h.unfused, h.stage, h.dry⟩,
            halike.lines, halike.questions, halike.reads⟩
      | false =>
          obtain ⟨-, behind, hbehind, hsame⟩ := hgives.awaits hcloses hscene
          exact ⟨_, _, .ended hfinished hbehind, ⟨h.limit, h.unfused, h.unfused, hsame.stage,
            fun _ => h.plain.dry hcloses hawaits⟩, hsame.world⟩
  | answer _ hawaits =>
      have hgives := hawaits.of_sync hcloses hscene
      cases hfinished : second.finished with
      | true =>
          obtain ⟨hanswer, -⟩ := hgives.deterministic (h.dry hfinished world.fresh)
          cases hanswer
      | false =>
          obtain ⟨-, behind, hbehind, hsame⟩ := hgives.awaits hcloses hscene
          refine ⟨_, _, .answer hfinished hbehind,
            ⟨h.limit, h.unfinished, h.unfused, hsame.stage, fun hlast => ?_⟩, hsame.world⟩
          cases hfinished.symm.trans hlast

theorem gives_async (hcloses : setting.registry.Closes known) (h : Twin known setting first second)
    (halike : world.Alike twin) (hgives : Gives setting second twin answer next later) :
    ∃ last before, Gives setting first world answer last before ∧ Twin known setting last next ∧
      before.Alike later := by
  have hscene := (h.scene halike).symm
  cases hgives with
  | finished hfinished =>
      have hdry := h.dry hfinished world.fresh
      exact ⟨_, _, .ended h.unfinished (.ready hdry nofun),
        ⟨h.limit, h.unfused, h.unfused, h.stage, h.dry⟩,
        halike.lines, halike.questions, halike.reads⟩
  | ended hopen hawaits =>
      obtain ⟨behind, hbehind, hsame⟩ := hawaits.gives hcloses hscene
      have hfirst : Scene.Awaits setting _ _ behind := .ready hbehind hawaits.ne_pending
      exact ⟨_, _, .ended h.unfinished hfirst, ⟨h.limit, h.unfused, h.unfused, hsame.symm.stage,
        fun _ => h.plain.dry hcloses hfirst⟩, hsame.symm.world⟩
  | answer hopen hawaits =>
      obtain ⟨behind, hbehind, hsame⟩ := hawaits.gives hcloses hscene
      have hfirst : Scene.Awaits setting _ _ behind := .ready hbehind hawaits.ne_pending
      refine ⟨_, _, .answer h.unfinished hfirst,
        ⟨h.limit, h.unfinished, h.unfused, hsame.symm.stage, fun hlast => ?_⟩, hsame.symm.world⟩
      cases hopen.symm.trans hlast

theorem pulls (hcloses : setting.registry.Closes known) (h : Twin known setting first second)
    (halike : world.Alike twin) (hpulls : Pulls setting first world answers last later) :
    ∃ final after, Pulls setting second twin answers final after ∧ later.Alike after := by
  induction hpulls generalizing second twin with
  | nil => exact ⟨_, _, .nil second twin, halike⟩
  | cons hgives _ ih =>
      obtain ⟨next, middle, hnext, htwin, hmiddle⟩ := h.gives hcloses halike hgives
      obtain ⟨final, after, hrest, hafter⟩ := ih htwin hmiddle
      exact ⟨final, after, .cons hnext hrest, hafter⟩

theorem pulls_async (hcloses : setting.registry.Closes known) (h : Twin known setting first second)
    (halike : world.Alike twin) (hpulls : Pulls setting second twin answers last later) :
    ∃ final before, Pulls setting first world answers final before ∧ before.Alike later := by
  induction hpulls generalizing first world with
  | nil => exact ⟨_, _, .nil first world, halike⟩
  | cons hgives _ ih =>
      obtain ⟨next, middle, hnext, htwin, hmiddle⟩ := h.gives_async hcloses halike hgives
      obtain ⟨final, before, hrest, hbefore⟩ := ih htwin hmiddle
      exact ⟨final, before, .cons hnext hrest, hbefore⟩

end Twin

/-- Runs a pipe and pulls a number of times, also after the end: the error of assembling the pipe,
or the answers. -/
def outcome (setting : Setting) (mode : Mode) (budget : Nat) (context : RunContext) (pipe : Pipe)
    (count : Nat) : Run (Except PipeError (List (Option Answer))) := do
  match ← ofContext setting mode none context pipe with
  | .error error => return .error error
  | .ok (.description _) => return .ok []
  | .ok (.running run) => do
      let (answers, _) ← run.pullMany setting budget count
      return .ok answers

/-- What running a pipe comes to within some budget. -/
def Comes (setting : Setting) (context : RunContext) (pipe : Pipe) (count : Nat) (world : World)
    (mode : Mode) (result : Except PipeError (List (Option Answer))) (later : World) : Prop :=
  ∃ budget, (outcome setting mode budget context pipe count).run world = some (result, later)

section Outcome

variable {context : RunContext} {pipe : Pipe} {count : Nat} {other : Mode}
  {result : Except PipeError (List (Option Answer))}

/-- The runs of one output in two modes before anybody pulls. -/
def Starts (known : Pipe → Prop) (mode other : Mode) (first second : PipeRun) : Prop :=
  ∃ output stage twin, first = .start mode none output stage ∧
    second = .start other none output twin ∧ stage.Twin known mode other 0 twin

theorem ofPipe_follows (hcloses : setting.registry.Closes known) (hpipe : known pipe)
    (mode other : Mode) :
    (ofPipe setting mode none context pipe).run.Follows (Agree (Starts known mode other))
      (ofPipe setting other none context pipe).run := by
  have hworkshop := setting.workshop_twin hcloses mode other context
  refine (hworkshop.output hpipe).run_bind fun stage twin htwin => ?_
  exact .pure (.ok ⟨_, stage, twin, rfl, rfl, htwin⟩)

theorem ofContext_follows (hcloses : setting.registry.Closes known) (hpipe : known pipe)
    (hcontext : context.onlyDescribes = false) (mode other : Mode) :
    (ofContext setting mode none context pipe).Follows
      (Agree fun started twin => ∃ first second, started = .running first ∧
        twin = .running second ∧ Starts known mode other first second)
      (ofContext setting other none context pipe) := by
  unfold ofContext PipeDescription.ofRun?
  rw [hcontext]
  refine (Run.Follows.report _ _).bind fun _ _ _ => ?_
  refine (ofPipe_follows hcloses hpipe mode other).bind fun outcome twin houtcome => ?_
  exact .pure (houtcome.map fun first second h => ⟨first, second, rfl, rfl, h⟩)

theorem Starts.plain {first second : PipeRun} (h : Starts known mode other first second) :
    first.Plain known mode := by
  obtain ⟨output, stage, twin, rfl, -, htwin⟩ := h
  refine ⟨?_, fun world => ⟨Nat.zero_le _, htwin.left, .nil, .rfl⟩⟩
  rw [start]
  split <;> rfl

theorem Starts.symm {first second : PipeRun} (h : Starts known mode other first second) :
    Starts known other mode second first := by
  obtain ⟨output, stage, twin, rfl, rfl, htwin⟩ := h
  exact ⟨output, twin, stage, rfl, rfl, htwin.symm⟩

theorem Starts.twin {first second : PipeRun} (h : Starts known .sync .async first second) :
    first.Twin known setting second := by
  obtain ⟨output, stage, twin, rfl, rfl, htwin⟩ := h
  exact ⟨⟨rfl, rfl⟩, rfl, rfl, htwin, nofun⟩

theorem plain_of_ofContext (hcloses : setting.registry.Closes known) (hpipe : known pipe)
    (hcontext : context.onlyDescribes = false)
    (h : (ofContext setting mode none context pipe).run world = some (.ok (.running run), later)) :
    run.Plain known mode := by
  obtain ⟨_, _, -, hagree, -⟩ := ofContext_follows hcloses hpipe hcontext mode mode .rfl h
  cases hagree with
  | ok hstarted =>
      obtain ⟨first, second, hfirst, -, hstarts⟩ := hstarted
      cases hfirst
      exact hstarts.plain

/-- Running a pipe comes to the error of assembling it or to what the pulls come to. -/
theorem comes_iff (hcloses : setting.registry.Closes known) (hpipe : known pipe)
    (hcontext : context.onlyDescribes = false) (mode : Mode) :
    Comes setting context pipe count world mode result later ↔
      (∃ error, (ofContext setting mode none context pipe).run world = some (.error error, later) ∧
        result = .error error) ∨
      ∃ run middle last answers,
        (ofContext setting mode none context pipe).run world = some (.ok (.running run), middle) ∧
          Pulls setting run middle answers last later ∧ answers.length = count ∧
            result = .ok answers := by
  constructor
  · rintro ⟨budget, h⟩
    obtain ⟨started, middle, hstart, h⟩ := run_bind_eq_some_iff.mp h
    obtain ⟨_, _, -, hagree, -⟩ := ofContext_follows hcloses hpipe hcontext mode mode .rfl hstart
    cases hagree with
    | error error =>
        cases h
        exact .inl ⟨error, hstart, rfl⟩
    | ok hstarted =>
        obtain ⟨run, _, rfl, -, hstarts⟩ := hstarted
        obtain ⟨⟨answers, last⟩, reached, hpulls, hpure⟩ := run_bind_eq_some_iff.mp h
        cases hpure
        obtain ⟨hlength, hpulls⟩ := pulls_of_pullMany hcloses hstarts.plain count hpulls
        exact .inr ⟨run, middle, last, answers, hstart, hpulls, hlength, rfl⟩
  · rintro (⟨error, hstart, rfl⟩ | ⟨run, middle, last, answers, hstart, hpulls, rfl, rfl⟩)
    · exact ⟨0, run_bind_eq_some_iff.mpr ⟨_, _, hstart, rfl⟩⟩
    · have hplain := plain_of_ofContext hcloses hpipe hcontext hstart
      obtain ⟨budget, hmany⟩ := pullMany_of_pulls hcloses hplain hpulls
      refine ⟨budget, run_bind_eq_some_iff.mpr ⟨_, _, hstart, ?_⟩⟩
      exact run_bind_eq_some_iff.mpr ⟨_, _, hmany budget (Nat.le_refl _), rfl⟩

/-- From some budget on a larger one changes nothing. -/
theorem Comes.settles (hcloses : setting.registry.Closes known) (hpipe : known pipe)
    (hcontext : context.onlyDescribes = false)
    (h : Comes setting context pipe count world mode result later) :
    ∃ least, ∀ budget, least ≤ budget →
      (outcome setting mode budget context pipe count).run world = some (result, later) := by
  rcases (comes_iff hcloses hpipe hcontext mode).mp h with
    ⟨error, hrun, rfl⟩ | ⟨run, middle, last, answers, hrun, hpulls, rfl, rfl⟩
  · exact ⟨0, fun budget _ => run_bind_eq_some_iff.mpr ⟨_, _, hrun, rfl⟩⟩
  · have hplain := plain_of_ofContext hcloses hpipe hcontext hrun
    obtain ⟨least, hmany⟩ := pullMany_of_pulls hcloses hplain hpulls
    refine ⟨least, fun budget hbudget => run_bind_eq_some_iff.mpr ⟨_, _, hrun, ?_⟩⟩
    exact run_bind_eq_some_iff.mpr ⟨_, _, hmany budget hbudget, rfl⟩

end Outcome

/-- What the two modes have to do with each other. -/
structure Agreement (setting : Setting) (context : RunContext) (pipe : Pipe) (count : Nat)
    (world : World) : Prop where
  /-- What a run in one mode comes to a run in the other comes to as well; the user has then been
  asked the same, and the same files have been read. -/
  same : ∀ mode other result later, Comes setting context pipe count world mode result later →
    ∃ after, Comes setting context pipe count world other result after ∧ later.Alike after
  /-- A run comes to one thing, whatever its budget. -/
  unique : ∀ mode result later given after,
    Comes setting context pipe count world mode result later →
      Comes setting context pipe count world mode given after → given = result ∧ after = later
  length : ∀ mode answers later,
    Comes setting context pipe count world mode (.ok answers) later → answers.length = count
  /-- After the end every pull gives the end. -/
  ended : ∀ mode answers later,
    Comes setting context pipe count world mode (.ok answers) later →
      ∀ before after, answers = before ++ none :: after → ∀ answer ∈ after, answer = none

section Agreement

variable {context : RunContext} {pipe : Pipe} {count : Nat}
  {result : Except PipeError (List (Option Answer))}

theorem Comes.async (hcloses : setting.registry.Closes known) (hpipe : known pipe)
    (hcontext : context.onlyDescribes = false)
    (h : Comes setting context pipe count world .sync result later) :
    ∃ after, Comes setting context pipe count world .async result after ∧ later.Alike after := by
  have hfollows := ofContext_follows hcloses hpipe hcontext .sync .async
  rcases (comes_iff hcloses hpipe hcontext .sync).mp h with
    ⟨error, hstart, rfl⟩ | ⟨run, middle, last, answers, hstart, hpulls, hlength, rfl⟩
  · obtain ⟨_, after, hother, hagree, halike⟩ := hfollows .rfl hstart
    cases hagree
    exact ⟨after, (comes_iff hcloses hpipe hcontext .async).mpr (.inl ⟨error, hother, rfl⟩), halike⟩
  · obtain ⟨_, between, hother, hagree, halike⟩ := hfollows .rfl hstart
    cases hagree with
    | ok hstarted =>
        obtain ⟨_, twin, ⟨⟩, rfl, hstarts⟩ := hstarted
        obtain ⟨final, after, htwin, hafter⟩ := hstarts.twin.pulls hcloses halike hpulls
        exact ⟨after, (comes_iff hcloses hpipe hcontext .async).mpr
          (.inr ⟨twin, between, final, answers, hother, htwin, hlength, rfl⟩), hafter⟩

theorem Comes.sync (hcloses : setting.registry.Closes known) (hpipe : known pipe)
    (hcontext : context.onlyDescribes = false)
    (h : Comes setting context pipe count world .async result later) :
    ∃ after, Comes setting context pipe count world .sync result after ∧ later.Alike after := by
  have hfollows := ofContext_follows hcloses hpipe hcontext .async .sync
  rcases (comes_iff hcloses hpipe hcontext .async).mp h with
    ⟨error, hstart, rfl⟩ | ⟨run, middle, last, answers, hstart, hpulls, hlength, rfl⟩
  · obtain ⟨_, after, hother, hagree, halike⟩ := hfollows .rfl hstart
    cases hagree
    exact ⟨after, (comes_iff hcloses hpipe hcontext .sync).mpr (.inl ⟨error, hother, rfl⟩), halike⟩
  · obtain ⟨_, between, hother, hagree, halike⟩ := hfollows .rfl hstart
    cases hagree with
    | ok hstarted =>
        obtain ⟨_, twin, ⟨⟩, rfl, hstarts⟩ := hstarted
        obtain ⟨final, after, htwin, hafter⟩ :=
          hstarts.symm.twin.pulls_async hcloses halike.symm hpulls
        exact ⟨after, (comes_iff hcloses hpipe hcontext .sync).mpr
          (.inr ⟨twin, between, final, answers, hother, htwin, hlength, rfl⟩), hafter.symm⟩

/-- A pipe whose modules have built-in types, or the types of pipes of the same kind, comes to the
same error or the same answers in both modes, however often it is pulled at. -/
theorem modes_agree (hcloses : setting.registry.Closes known) (hpipe : known pipe)
    (hcontext : context.onlyDescribes = false) (count : Nat) (world : World) :
    Agreement setting context pipe count world where
  same mode other result later h := by
    cases mode <;> cases other
    · exact ⟨later, h, .rfl⟩
    · exact h.async hcloses hpipe hcontext
    · exact h.sync hcloses hpipe hcontext
    · exact ⟨later, h, .rfl⟩
  unique mode result later given after h hgiven := by
    obtain ⟨least, hrun⟩ := h.settles hcloses hpipe hcontext
    obtain ⟨other, hother⟩ := hgiven.settles hcloses hpipe hcontext
    have heq := (hother (max least other) (Nat.le_max_right ..)).symm.trans
      (hrun (max least other) (Nat.le_max_left ..))
    cases heq
    exact ⟨rfl, rfl⟩
  length mode answers later h := by
    rcases (comes_iff hcloses hpipe hcontext mode).mp h with
      ⟨error, -, ⟨⟩⟩ | ⟨run, middle, last, _, -, -, hlength, ⟨⟩⟩
    exact hlength
  ended mode answers later h before after hsplit := by
    rcases (comes_iff hcloses hpipe hcontext mode).mp h with
      ⟨error, -, ⟨⟩⟩ | ⟨run, middle, last, _, hstart, hpulls, -, ⟨⟩⟩
    exact hpulls.ended hcloses (plain_of_ofContext hcloses hpipe hcontext hstart) hsplit

/-- There are no files. -/
def noFiles : Setting :=
  ⟨fun _ => .error .notFound, default, .standard⟩

/-- A pipe that reads a file. What it gets goes to a loop, whose records are the output, and to a
stage that nobody asks. -/
def newsLooped : Value :=
  .object ⟨[
    ("modules", .list [
      .object ⟨[("conf", .object ⟨[("URL", .text "news.json")]⟩), ("id", .text "source"),
        ("type", .text "fetch")]⟩,
      Diagram.plainModule "both" "split",
      Diagram.loopModule "each" (Diagram.plainModule "body" "output"),
      Diagram.plainModule "stray" "count", Diagram.plainModule "out" "output"]),
    ("wires", .list [Diagram.plainWire "first" "source" "both",
      Diagram.plainWire "second" "both" "each", Diagram.plainWire "third" "both" "stray",
      Diagram.plainWire "fourth" "each" "out"])]⟩

/-- The steps of that pipe. -/
def newsLoopedSteps : List Plan.Step := [
  ⟨⟨"source"⟩, "fetch", false, .sentinel, [], none, none,
    .ofValue (.object ⟨[("URL", .text "news.json")]⟩), 1⟩,
  ⟨⟨"both"⟩, "split", false, .module ⟨"source"⟩, [], none, some 2, .empty, 2⟩,
  ⟨⟨"body"⟩, "output", true, .record, [], none, none, .empty, 1⟩,
  ⟨⟨"each"⟩, "loop", false, .module ⟨"both"⟩, [], some ⟨"body"⟩, none,
    .ofValue (Diagram.loopConf (Diagram.plainModule "body" "output")), 1⟩,
  ⟨⟨"stray"⟩, "count", false, .module ⟨"both"⟩, [], none, none, .empty, 0⟩,
  ⟨⟨"out"⟩, "output", false, .module ⟨"each"⟩, [], none, none, .empty, 1⟩]

theorem compile_newsLooped : ∃ diagram dependents order counts,
    Pipe.compile newsLooped "news" =
      .ok ⟨diagram, dependents, order, newsLoopedSteps, counts⟩ := by
  have hsteps : (Pipe.compile newsLooped "news").map (fun pipe => pipe.plan.steps) =
      .ok newsLoopedSteps := by
    cbv
  obtain ⟨⟨diagram, dependents, order, steps, counts⟩, hpipe, rfl⟩ := map_eq_ok_iff.mp hsteps
  exact ⟨diagram, dependents, order, counts, hpipe⟩

/-- The stage that the output of that pipe is, before or after the file has been read. -/
def newsLoopedStage (mode : Mode) (read : Bool) : Stage :=
  let conf : Conf := .ofValue (.object ⟨[("URL", .text "news.json")]⟩)
  let source : Stage := .tagged ⟨"source"⟩ read.toNat
    (.batches (.fetch conf mode) ⟨.sentinel, [], none, read⟩)
  let body : Embed Factory := ⟨⟨"body"⟩, .builtin .output, .testing, .empty, none⟩
  .closed
    [.fork ⟨⟨"both"⟩, source, [some [], some []], [read && mode == .async, false], 2, false⟩]
    (.tagged ⟨"out"⟩ read.toNat (.tagged ⟨"each"⟩ read.toNat
      (.batches (.loop (.assign "loop" .all) body mode) (.start (.branch 0 0)))))

/-- A run of that pipe, before or after the error of reading the file. -/
def newsLoopedRun (mode : Mode) (limit : Option Nat) (read : Bool) : PipeRun :=
  { start mode limit ⟨"out"⟩ (newsLoopedStage mode read) with produced := read.toNat }

/-- Assembling that pipe takes no time. -/
theorem ofPipe_newsLooped (mode : Mode) (limit : Option Nat) (world : World) (diagram : Diagram)
    (dependents : List (ModuleId × List ModuleId)) (order : List ModuleId) (counts : Plan.Counts) :
    ∃ later, (ofPipe noFiles mode limit .testing
        ⟨diagram, dependents, order, newsLoopedSteps, counts⟩).run.run world =
      some (.ok (newsLoopedRun mode limit false), later) ∧ later.clock = world.clock :=
  ⟨_, rfl, rfl⟩

theorem modes_agree_of_newsLooped : ∃ pipe, Pipe.compile newsLooped "news" = .ok pipe ∧
    noFiles.registry.Closes (fun _ => True) ∧ RunContext.testing.onlyDescribes = false ∧
    (∃ later, Comes noFiles .testing pipe 3 {} .async
      (.ok [some (.error ((PipeError.file .notFound).whileProducing ⟨"source"⟩ 0)), none, none])
        later) ∧
    Agreement noFiles .testing pipe 3 {} := by
  obtain ⟨diagram, dependents, order, counts, hpipe⟩ := compile_newsLooped
  have hcloses : noFiles.registry.Closes fun _ => True := Registry.closes_standard
  obtain ⟨middle, hstart⟩ : ∃ middle, (ofContext noFiles .async none .testing
      ⟨diagram, dependents, order, newsLoopedSteps, counts⟩).run {} =
        some (.ok (.running (newsLoopedRun .async none false)), middle) :=
    ⟨_, rfl⟩
  obtain ⟨last, later, hpulls⟩ : ∃ last later,
      (pullMany noFiles 10 3 (newsLoopedRun .async none false)).run middle =
        some (([some (.error ((PipeError.file .notFound).whileProducing ⟨"source"⟩ 0)), none, none],
          last), later) :=
    ⟨_, _, rfl⟩
  refine ⟨_, hpipe, hcloses, rfl, ⟨later, 10, ?_⟩, modes_agree hcloses trivial rfl 3 {}⟩
  exact run_bind_eq_some_iff.mpr ⟨_, middle, hstart,
    run_bind_eq_some_iff.mpr ⟨_, later, hpulls, rfl⟩⟩

end Agreement

end PipeRun

end Pipework
