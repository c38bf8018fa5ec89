import Pipework.Proofs.Attribution.Runs
import Pipework.Proofs.Timeout.Stages

/-! # Timeouts take nothing

A run whose records may take only so long gives what the same run gives without a limit, with
timeouts put between the answers. The invariant of a run that has timed out any number of times is
`PipeRun.Trails`: whatever awaiting its stage comes to, awaiting the stage of the run without a limit
comes to as well, from the world in which that one was left.
-/

namespace Pipework

/-- Awaiting a stage in a world comes to nothing that awaiting the other one would not come to. -/
def Stage.Trails (setting : Setting) (stage : Stage) (world : World) (free : Stage) (start : World) :
    Prop :=
  ∀ awaited next later, stage.Awaits setting world awaited next later →
    free.Awaits setting start awaited next later

namespace PipeRun

/-- The pulls of a run with a limit: those of the same run without one, and timeouts between them. A
timeout bears the id of the output and the number of answers before it. After the end there is
nothing but the end. -/
inductive Delays (output : ModuleId) :
    Nat → List (Option Answer) → List (Option Answer) → Prop
  | nil (produced : Nat) : Delays output produced [] []
  | late {produced : Nat} {pulled given : List (Option Answer)}
      (h : Delays output produced pulled given) :
      Delays output produced (some (.error (.timeout output produced)) :: pulled) given
  | answer {produced : Nat} {pulled given : List (Option Answer)} (answer : Answer)
      (h : Delays output (produced + 1) pulled given) :
      Delays output produced (some answer :: pulled) (some answer :: given)
  | ended (produced count : Nat) :
      Delays output produced (List.replicate (count + 1) none) (List.replicate (count + 1) none)

variable {setting : Setting} {budget : Nat} {stage next : Stage} {world later : World}
  {awaited : Awaited}

/-- Waiting until a deadline comes to what waiting comes to, or leaves a stage that has lost nothing.
The induction is on how often the stage may be asked. -/
theorem awaits_of_await_until (hstage : stage.Resumable setting) (deadline : Option Nat)
    (asks : Nat)
    (h : (Awaited.await (askOutput setting budget) deadline asks stage).run world =
      some ((awaited, next), later)) :
    next.Resumable setting ∧
      (awaited ≠ .late → stage.Awaits setting world awaited next later) ∧
      (awaited = .late → ∀ result last behind, next.Awaits setting later result last behind →
        stage.Awaits setting world result last behind) := by
  induction asks generalizing stage world with
  | zero => cases h
  | succ asks ih =>
      obtain ⟨poll, reached, middle, hask, hsettled⟩ := run_await_succ.mp h
      have hasks : stage.Asks setting world.fresh poll reached middle := ⟨budget, hask⟩
      have hreached := hstage.keeps rfl hasks
      cases poll with
      | ended =>
          obtain ⟨rfl, rfl, rfl⟩ := hsettled
          exact ⟨hreached, fun _ => .ready hasks (by simp), by simp⟩
      | answer answer =>
          obtain ⟨rfl, rfl, rfl⟩ := hsettled
          exact ⟨hreached, fun _ => .ready hasks (by simp), by simp⟩
      | pending =>
          rw [Settled] at hsettled
          split at hsettled
          -- The deadline has passed; the stage is kept, and whoever awaits it later resumes it.
          · obtain ⟨rfl, rfl, rfl⟩ := hsettled
            refine ⟨hreached, fun hlate => absurd rfl hlate, fun _ result last behind hrest => ?_⟩
            exact .resume hstage hasks le_rfl (fun _ _ => le_max_left _ _) (hrest.congr rfl)
          · obtain ⟨woken, hwait, hrest⟩ := hsettled
            obtain ⟨time, htime, rfl⟩ := run_waitFor.mp hwait
            -- The deadline may come before the alarm, but the clock does not move beyond the alarm.
            have halarm : ∀ wake ∈ middle.alarm, max middle.clock time ≤ max middle.clock wake := by
              intro wake hwake
              exact max_le_max_left _ (Awaited.le_of_earlier? htime hwake)
            have hresume {result : Awaited} {last : Stage} {behind : World}
                (hrest : reached.Awaits setting { middle with clock := max middle.clock time } result
                  last behind) : stage.Awaits setting world result last behind :=
              .resume hstage hasks (le_max_left _ _) halarm (hrest.congr rfl)
            obtain ⟨hnext, hready, hlate⟩ := ih hreached hrest
            exact ⟨hnext, fun hne => hresume (hready hne),
              fun heq result last behind hrest => hresume (hlate heq result last behind hrest)⟩

/-- A run that has ended gives nothing but the end. -/
theorem run_pullMany_finished {run : PipeRun} (hfinished : run.finished = true) (count : Nat) :
    (pullMany setting budget count run).run world =
      some ((List.replicate count none, run), world) := by
  induction count with
  | zero => rfl
  | succ count ih =>
      refine run_bind_eq_some_iff.mpr ⟨(none, run), world, run_next_finished hfinished, ?_⟩
      exact run_bind_eq_some_iff.mpr ⟨_, _, ih, rfl⟩

/-- The run without a limit, with a stage of its own. -/
def unlimited (run : PipeRun) (stage : Stage) : PipeRun :=
  { run with stage, limit := none }

/-- What the pulls of a run with a limit have to do with those of the same run without one. The
induction is on how often it is pulled at. -/
theorem pullMany_delays {run last : PipeRun} {free : Stage} {start : World}
    {pulled : List (Option Answer)} (count : Nat)
    (h : (pullMany setting budget count run).run world = some ((pulled, last), later))
    (hopen : run.finished = false) (hfused : run.fused = true)
    (hstage : run.stage.Resumable setting)
    (htrails : run.stage.Trails setting world free start) :
    ∃ given, Delays run.output run.produced pulled given ∧
      (∃ least final behind, ∀ more, least ≤ more →
        (pullMany setting more given.length (run.unlimited free)).run start =
          some ((given, final), behind)) ∧
      last.produced = run.produced + given.countP Option.isSome ∧
      (last.finished = true ↔ none ∈ pulled) := by
  induction count generalizing run world free start pulled with
  | zero =>
      cases h
      exact ⟨[], .nil _, ⟨0, _, _, fun _ _ => rfl⟩, rfl, by simp [hopen]⟩
  | succ count ih =>
      obtain ⟨⟨answer, reached⟩, middle, hnext, h⟩ := run_bind_eq_some_iff.mp h
      obtain ⟨⟨rest, final⟩, behind, hrest, hpure⟩ := run_bind_eq_some_iff.mp h
      cases hpure
      obtain ⟨awaited, stage, hawait, hresult⟩ := (run_next hopen).mp hnext
      obtain ⟨hresumable, hready, hlate⟩ := awaits_of_await_until hstage _ budget hawait
      have hfresh : (run.unlimited free).finished = false := hopen
      cases awaited with
      | late =>
          cases hresult
          -- The free run stays where it is, and the run with the limit goes on trailing it.
          have hbehind : stage.Trails setting middle free start :=
            fun result last later hawaits => htrails _ _ _ (hlate rfl _ _ _ hawaits)
          obtain ⟨given, hdelays, hgiven, hproduced, hfinished⟩ :=
            ih hrest hopen hfused hresumable hbehind
          exact ⟨given, .late hdelays, hgiven, hproduced, by simp [hfinished]⟩
      | answer answer =>
          have hfree : (run.unlimited free).stage.Awaits setting start (.answer answer) stage middle :=
            htrails _ _ _ (hready nofun)
          obtain ⟨first, hfirst⟩ := next_of_awaits hfresh rfl hfree
          cases hresult
          -- Both runs have given the answer and go on with the same stage in the same world.
          obtain ⟨given, hdelays, ⟨least, last, after, hgiven⟩, hproduced, hfinished⟩ :=
            ih hrest hopen hfused hresumable fun _ _ _ => id
          refine ⟨some answer :: given, .answer answer hdelays, ⟨max first least, last, after, ?_⟩,
            ?_, by simp [hfinished]⟩
          · intro more hmore
            refine run_bind_eq_some_iff.mpr ⟨_, _, hfirst more (le_of_max_le_left hmore), ?_⟩
            exact run_bind_eq_some_iff.mpr ⟨_, _, hgiven more (le_of_max_le_right hmore), rfl⟩
          · rw [hproduced, List.countP_cons_of_pos rfl]
            dsimp only
            omega
      | ended =>
          have hfree : (run.unlimited free).stage.Awaits setting start .ended stage middle :=
            htrails _ _ _ (hready nofun)
          obtain ⟨first, hfirst⟩ := next_of_awaits hfresh rfl hfree
          have hgiven : ∃ least final behind, ∀ more, least ≤ more →
              (pullMany setting more (List.replicate (count + 1) (none : Option Answer)).length
                (run.unlimited free)).run start =
                  some ((List.replicate (count + 1) none, final), behind) := by
            refine ⟨first, ((run.unlimited free).settle stage .ended).2, middle, fun more hmore => ?_⟩
            rw [List.length_replicate]
            refine run_bind_eq_some_iff.mpr ⟨_, _, hfirst more hmore, ?_⟩
            exact run_bind_eq_some_iff.mpr ⟨_, _, run_pullMany_finished hfused count, rfl⟩
          cases hresult
          have hfinished : ({ run with stage, finished := run.fused } : PipeRun).finished = true :=
            hfused
          cases (run_pullMany_finished hfinished count).symm.trans hrest
          exact ⟨_, .ended _ count, hgiven, by simp, by simp [hfused]⟩

/-- However short the time for a record is, and however often an asynchronous run of a resumable stage
is pulled at, its pulls are those of the run without a limit, with timeouts put between them. A
timeout does not count and does not end the run; a run that has ended stays so without asking its
stage. -/
theorem timeouts_take_nothing {stage : Stage} (hstage : stage.Resumable setting) (output : ModuleId)
    (limit count : Nat) {pulled : List (Option Answer)} {last : PipeRun}
    (h : (pullMany setting budget count (.start .async (some limit) output stage)).run world =
      some ((pulled, last), later)) :
    ∃ given, Delays output 0 pulled given ∧
      (∃ least final behind, ∀ more, least ≤ more →
        (pullMany setting more given.length (.start .async none output stage)).run world =
          some ((given, final), behind)) ∧
      last.produced = given.countP Option.isSome ∧
      (last.finished = true ↔ none ∈ pulled) ∧
      (last.finished = true → ∀ budget world,
        (last.next setting budget).run world = some ((none, last), world)) := by
  obtain ⟨given, hdelays, hgiven, hproduced, hfinished⟩ :=
    pullMany_delays count h rfl rfl hstage fun _ _ _ => id
  refine ⟨given, hdelays, hgiven, ?_, hfinished, fun hlast _ _ => run_next_finished hlast⟩
  rw [hproduced]
  exact Nat.zero_add _

/-- A stage that takes its time before its record and before its end. -/
def slow : Script where
  entries := [.delay 3, .answer (.ok Record.sentinel), .delay 3]
  until? := none

theorem timeouts_take_nothing_of_slow :
    (Stage.scripted slow).Resumable noFiles ∧
      ∃ pulled last later, (pullMany noFiles 2 4 (.start .async (some 2) ⟨"out"⟩ (.scripted slow))).run
          {} = some ((pulled, last), later) ∧
        pulled = [some (.error (.timeout ⟨"out"⟩ 0)), some (.ok Record.sentinel),
          some (.error (.timeout ⟨"out"⟩ 1)), none] ∧
        ∃ given, Delays ⟨"out"⟩ 0 pulled given ∧
          (∃ least final behind, ∀ more, least ≤ more →
            (pullMany noFiles more given.length (.start .async none ⟨"out"⟩ (.scripted slow))).run {} =
              some ((given, final), behind)) ∧
          last.produced = given.countP Option.isSome ∧
          (last.finished = true ↔ none ∈ pulled) ∧
          (last.finished = true → ∀ budget world,
            (last.next noFiles budget).run world = some ((none, last), world)) := by
  have hsteady : slow.Steady := by simp [Script.Steady, slow]
  have hstage : (Stage.scripted slow).Resumable noFiles := Stage.resumable_scripted hsteady
  have hpulls : ((pullMany noFiles 2 4 (.start .async (some 2) ⟨"out"⟩ (.scripted slow))).run
      {}).map (fun result => result.1.1) =
        some [some (.error (.timeout ⟨"out"⟩ 0)), some (.ok Record.sentinel),
          some (.error (.timeout ⟨"out"⟩ 1)), none] := by cbv
  obtain ⟨⟨⟨pulled, last⟩, later⟩, hrun, hpulled⟩ := Option.map_eq_some_iff.mp hpulls
  exact ⟨hstage, pulled, last, later, hrun, hpulled, timeouts_take_nothing hstage _ 2 4 hrun⟩

/-- The stages of pipes are resumable, so a limit takes nothing from a pipe either: assembled without
the limit, in the same world, the pipe gives what it gives with it, but for the timeouts. -/
theorem ofPipe_delays {known : Pipe → Prop} {context : RunContext} {pipe : Pipe}
    (hcloses : setting.registry.Closes known) (hpipe : known pipe) {limit count : Nat}
    {run last : PipeRun} {middle : World} {pulled : List (Option Answer)}
    (hrun : (ofPipe setting .async (some limit) context pipe).run.run world =
      some (.ok run, middle))
    (h : (pullMany setting budget count run).run middle = some ((pulled, last), later)) :
    ∃ free given,
      (ofPipe setting .async none context pipe).run.run world = some (.ok free, middle) ∧
      Delays run.output 0 pulled given ∧
      (∃ least final behind, ∀ more, least ≤ more →
        (pullMany setting more given.length free).run middle = some ((given, final), behind)) ∧
      last.produced = given.countP Option.isSome ∧ (last.finished = true ↔ none ∈ pulled) := by
  obtain ⟨stage, houtput, hstart⟩ := run_ofPipe_eq_ok.mp hrun
  obtain ⟨_, hsame, halone, -⟩ := alone_of_ofPipe hcloses hpipe hrun
  cases hstart
  cases hsame
  have hstage : stage.Resumable setting := Stage.resumable_of_alone hcloses halone
  obtain ⟨given, hdelays, hgiven, hproduced, hfinished⟩ :=
    pullMany_delays count h rfl rfl hstage fun _ _ _ => id
  refine ⟨_, given, run_ofPipe_eq_ok.mpr ⟨stage, houtput, rfl⟩, hdelays, hgiven, ?_, hfinished⟩
  rw [hproduced]
  exact Nat.zero_add _

end PipeRun

end Pipework
