import Pipework.Proofs.Stage.Monotone
import Pipework.PipeRun

/-! # Asking until there is something

What asking a stage on its own comes to, and what it comes to in the end if it is asked again whenever
its alarm goes off. Neither depends on a budget: within every budget from some budget on awaiting the
stage comes to just that.
-/

namespace Pipework

/-- The world in which a stage is asked: nobody waits to be woken. -/
def World.fresh (world : World) : World :=
  { world with alarm := none }

@[simp]
theorem World.fresh_fresh (world : World) : world.fresh.fresh = world.fresh :=
  rfl

theorem World.fresh_eq {world : World} (h : world.alarm = none) : world.fresh = world := by
  unfold fresh
  rw [← h]

/-- The same world at a time, with an alarm. -/
def World.at (world : World) (time : Nat) (alarm : Option Nat) : World :=
  { world with clock := time, alarm }

@[simp]
theorem World.at_at (world : World) (time later : Nat) (first second : Option Nat) :
    (world.at time first).at later second = world.at later second :=
  rfl

theorem World.eq_at {world : World} (h : world.alarm = none) : world = world.at world.clock none := by
  unfold World.at
  rw [← h]

/-- Whoever wants to be woken sets the alarm and changes nothing else. -/
theorem Run.run_wakeAt (time : Nat) (world : World) :
    ∃ wake, (Run.wakeAt time).run world = some ((), { world with alarm := some wake }) :=
  ⟨_, rfl⟩

/-- What waiting comes to if asking comes to this in the end. -/
def Poll.awaited : Poll → Awaited
  | .pending => .late
  | .ended => .ended
  | .answer given => .answer given

namespace Awaited

@[simp]
theorem earlier?_none (time : Option Nat) : earlier? time none = time := by
  cases time <;> rfl

theorem le_of_earlier? {alarm deadline : Option Nat} {time wake : Nat}
    (h : earlier? alarm deadline = some time) (hwake : wake ∈ alarm) : time ≤ wake := by
  obtain rfl := Option.mem_def.mp hwake
  cases deadline with
  | none =>
      cases h
      exact le_rfl
  | some deadline =>
      cases h
      exact min_le_left wake deadline

end Awaited

variable {setting : Setting} {budget : Nat} {stage next : Stage} {world later : World} {poll : Poll}

namespace Stage

/-- What asking a stage on its own comes to, and what it leaves. -/
def Asks (setting : Setting) (stage : Stage) (world : World) (poll : Poll) (next : Stage)
    (later : World) : Prop :=
  ∃ budget, (PipeRun.askOutput setting budget stage).run world = some ((poll, next), later)

/-- What a stage comes to if it is asked until it does not have to wait. -/
inductive Awaits (setting : Setting) : Stage → World → Awaited → Stage → World → Prop
  | ready {stage next : Stage} {world later : World} {poll : Poll}
      (h : stage.Asks setting world.fresh poll next later) (hready : poll ≠ .pending) :
      Awaits setting stage world poll.awaited next later
  | again {stage waiting next : Stage} {world middle later : World} {awaited : Awaited} {time : Nat}
      (h : stage.Asks setting world.fresh .pending waiting middle)
      (halarm : middle.alarm = some time)
      (hrest : Awaits setting waiting (middle.at (max middle.clock time) none) awaited next later) :
      Awaits setting stage world awaited next later

end Stage

namespace PipeRun

/-- More budget changes nothing. -/
theorem askOutput_mono {more : Nat} (hle : budget ≤ more)
    (h : (askOutput setting budget stage).run world = some ((poll, next), later)) :
    (askOutput setting more stage).run world = some ((poll, next), later) := by
  induction hle with
  | refl => exact h
  | step _ ih =>
      obtain ⟨answered, middle, hpoll, hpure⟩ := run_bind_eq_some_iff.mp ih
      exact run_bind_eq_some_iff.mpr
        ⟨answered, middle, Stage.poll_below setting _ stage _ _ _ hpoll, hpure⟩

/-- The clock moves on to the time at which somebody wants to be woken, and not beyond the deadline. -/
theorem run_waitFor {deadline : Option Nat} :
    (Awaited.waitFor deadline).run world = some ((), later) ↔
      ∃ time, Awaited.earlier? world.alarm deadline = some time ∧
        later = { world with clock := max world.clock time } := by
  have hrun : (Awaited.waitFor deadline).run world =
      (Awaited.earlier? world.alarm deadline).map fun time =>
        ((), { world with clock := max world.clock time }) := by
    obtain ⟨clock, alarm⟩ := world
    cases alarm <;> cases deadline <;> rfl
  rw [hrun, Option.map_eq_some_iff]
  simp only [Prod.mk.injEq, true_and, eq_comm]

/-- How awaiting comes out once the stage has been asked. -/
def Settled (setting : Setting) (budget : Nat) (deadline : Option Nat) (asks : Nat) (reached : Stage)
    (middle : World) (awaited : Awaited) (next : Stage) (later : World) : Poll → Prop
  | .answer given => awaited = .answer given ∧ next = reached ∧ later = middle
  | .ended => awaited = .ended ∧ next = reached ∧ later = middle
  | .pending =>
      if deadline.any fun time => time ≤ middle.clock then
        awaited = .late ∧ next = reached ∧ later = middle
      else ∃ woken, (Awaited.waitFor deadline).run middle = some ((), woken) ∧
        (Awaited.await (askOutput setting budget) deadline asks reached).run woken =
          some ((awaited, next), later)

theorem run_await_succ {deadline : Option Nat} {asks : Nat} {awaited : Awaited} :
    (Awaited.await (askOutput setting budget) deadline (asks + 1) stage).run world =
        some ((awaited, next), later) ↔
      ∃ poll reached middle,
        (askOutput setting budget stage).run world.fresh = some ((poll, reached), middle) ∧
          Settled setting budget deadline asks reached middle awaited next later poll := by
  rw [Awaited.await]
  constructor
  · intro h
    obtain ⟨_, _, hmodify, h⟩ := run_bind_eq_some_iff.mp h
    cases hmodify
    obtain ⟨⟨poll, reached⟩, middle, hask, h⟩ := run_bind_eq_some_iff.mp h
    refine ⟨poll, reached, middle, hask, ?_⟩
    cases poll with
    | answer given =>
        cases h
        exact ⟨rfl, rfl, rfl⟩
    | ended =>
        cases h
        exact ⟨rfl, rfl, rfl⟩
    | pending =>
        obtain ⟨_, _, hget, h⟩ := run_bind_eq_some_iff.mp h
        cases hget
        rw [Settled]
        dsimp only at h
        split at h
        next hover =>
          cases h
          rw [if_pos hover]
          exact ⟨rfl, rfl, rfl⟩
        next hopen =>
          rw [if_neg hopen]
          obtain ⟨_, woken, hwait, hrest⟩ := run_bind_eq_some_iff.mp h
          exact ⟨woken, hwait, hrest⟩
  · rintro ⟨poll, reached, middle, hask, hsettled⟩
    refine run_bind_eq_some_iff.mpr ⟨(), world.fresh, rfl, ?_⟩
    refine run_bind_eq_some_iff.mpr ⟨(poll, reached), middle, hask, ?_⟩
    cases poll with
    | answer given =>
        obtain ⟨rfl, rfl, rfl⟩ := hsettled
        rfl
    | ended =>
        obtain ⟨rfl, rfl, rfl⟩ := hsettled
        rfl
    | pending =>
        refine run_bind_eq_some_iff.mpr ⟨middle, middle, rfl, ?_⟩
        rw [Settled] at hsettled
        split at hsettled
        next hover =>
          obtain ⟨rfl, rfl, rfl⟩ := hsettled
          dsimp only
          rw [if_pos hover]
          rfl
        next hopen =>
          obtain ⟨woken, hwait, hrest⟩ := hsettled
          dsimp only
          rw [if_neg hopen]
          exact run_bind_eq_some_iff.mpr ⟨(), woken, hwait, hrest⟩

/-- What a stage comes to in the end it comes to as well within every budget from some budget on. -/
theorem await_of_awaits {awaited : Awaited} (h : stage.Awaits setting world awaited next later) :
    ∃ least, ∀ budget asks other, least ≤ budget → least ≤ asks → other.fresh = world.fresh →
      (Awaited.await (askOutput setting budget) none asks stage).run other =
        some ((awaited, next), later) := by
  induction h with
  | @ready stage next world later poll h hready =>
      obtain ⟨least, hask⟩ := h
      refine ⟨least + 1, fun budget asks other hbudget hasks hother => ?_⟩
      obtain ⟨asks, rfl⟩ := Nat.exists_eq_add_of_le' hasks
      rw [← Nat.add_assoc]
      refine run_await_succ.mpr ⟨poll, next, later, ?_, ?_⟩
      · rw [hother]
        exact askOutput_mono (by omega) hask
      · cases poll with
        | pending => exact absurd rfl hready
        | ended => exact ⟨rfl, rfl, rfl⟩
        | answer answer => exact ⟨rfl, rfl, rfl⟩
  | @again stage waiting next world middle later awaited time h halarm _ ih =>
      obtain ⟨least, hask⟩ := h
      obtain ⟨rest, hrest⟩ := ih
      -- The sum is enough for asking now and leaves enough for all that is asked later.
      refine ⟨least + rest + 1, fun budget asks other hbudget hasks hother => ?_⟩
      obtain ⟨asks, rfl⟩ := Nat.exists_eq_add_of_le' hasks
      rw [← Nat.add_assoc]
      refine run_await_succ.mpr ⟨.pending, waiting, middle, ?_, ?_⟩
      · rw [hother]
        exact askOutput_mono (by omega) hask
      · rw [Settled, Option.any_none, if_neg Bool.false_ne_true]
        have hwait := run_waitFor.mpr ⟨time, (Awaited.earlier?_none _).trans halarm, rfl⟩
        exact ⟨_, hwait, hrest budget _ _ (by omega) (by omega) rfl⟩

/-- What a pull comes to once the stage has been awaited, and what it leaves. -/
def settle (run : PipeRun) (stage : Stage) : Awaited → Option Answer × PipeRun
  | .answer answer => (some answer, { run with stage, produced := run.produced + 1 })
  | .ended => (none, { run with stage, finished := run.fused })
  | .late => (some (.error (.timeout run.output run.produced)), { run with stage })

@[simp]
theorem settle_stage (run : PipeRun) (stage : Stage) (awaited : Awaited) :
    (run.settle stage awaited).2.stage = stage := by
  cases awaited <;> rfl

@[simp]
theorem settle_limit (run : PipeRun) (stage : Stage) (awaited : Awaited) :
    (run.settle stage awaited).2.limit = run.limit := by
  cases awaited <;> rfl

@[simp]
theorem settle_output (run : PipeRun) (stage : Stage) (awaited : Awaited) :
    (run.settle stage awaited).2.output = run.output := by
  cases awaited <;> rfl

/-- A run that has not ended awaits its stage once for a pull. -/
theorem run_next {run : PipeRun} (hopen : run.finished = false) {result : Option Answer × PipeRun} :
    (run.next setting budget).run world = some (result, later) ↔
      ∃ awaited stage, (Awaited.await (askOutput setting budget)
          (run.limit.map fun limit => world.clock + limit) budget run.stage).run world =
            some ((awaited, stage), later) ∧ result = run.settle stage awaited := by
  rw [PipeRun.next, if_neg (Bool.eq_false_iff.mp hopen)]
  constructor
  · intro h
    obtain ⟨_, _, hget, h⟩ := run_bind_eq_some_iff.mp h
    cases hget
    obtain ⟨⟨awaited, stage⟩, middle, hawait, hpure⟩ := run_bind_eq_some_iff.mp h
    cases awaited <;> cases hpure <;> exact ⟨_, stage, hawait, rfl⟩
  · rintro ⟨awaited, stage, hawait, rfl⟩
    refine run_bind_eq_some_iff.mpr ⟨world, world, rfl, ?_⟩
    refine run_bind_eq_some_iff.mpr ⟨(awaited, stage), later, hawait, ?_⟩
    cases awaited <;> rfl

/-- Where there is no limit a pull comes to what awaiting the stage comes to. -/
theorem next_of_awaits {run : PipeRun} (hopen : run.finished = false) (hlimit : run.limit = none)
    {awaited : Awaited} (h : run.stage.Awaits setting world awaited next later) :
    ∃ least, ∀ budget, least ≤ budget →
      (run.next setting budget).run world = some (run.settle next awaited, later) := by
  obtain ⟨least, hawait⟩ := await_of_awaits h
  refine ⟨least, fun budget hbudget => (run_next hopen).mpr ⟨awaited, next, ?_, rfl⟩⟩
  rw [hlimit]
  exact hawait budget budget world hbudget hbudget rfl

theorem run_next_finished {run : PipeRun} (hfinished : run.finished = true) :
    (run.next setting budget).run world = some ((none, run), world) := by
  rw [PipeRun.next, if_pos hfinished]
  rfl

end PipeRun

namespace Stage

theorem Asks.deterministic {other : Stage} {behind : World} {given : Poll}
    (h : stage.Asks setting world poll next later)
    (hother : stage.Asks setting world given other behind) :
    poll = given ∧ next = other ∧ later = behind := by
  obtain ⟨budget, hrun⟩ := h
  obtain ⟨more, hmore⟩ := hother
  have hfirst := PipeRun.askOutput_mono (Nat.le_max_left budget more) hrun
  have hsecond := PipeRun.askOutput_mono (Nat.le_max_right budget more) hmore
  cases hfirst.symm.trans hsecond
  exact ⟨rfl, rfl, rfl⟩

/-- When it is that somebody wants to be woken does not count before the stage is asked. -/
theorem Awaits.congr {other : World} {awaited : Awaited}
    (h : stage.Awaits setting world awaited next later)
    (hworld : world.fresh = other.fresh) : stage.Awaits setting other awaited next later := by
  cases h with
  | ready h hready => exact .ready (hworld ▸ h) hready
  | again h halarm hrest => exact .again (hworld ▸ h) halarm hrest

end Stage

end Pipework
