import Pipework.Proofs.Attribution.Runs
import Pipework.Proofs.Isolation.Building
import Pipework.Proofs.Timeout.Stages

/-! # Asking is secluded

What a stage of a pipe gives it gives in every world, unless the user is asked something. So it is
with the pulls at a run, whose limit for a record counts from the time of the pull, while the clock
stands still: the stages of pipes only wait to let others go first.
-/

namespace Pipework

variable {known : Pipe → Prop} {mode : Mode} {setting : Setting}

theorem Stage.Moves.repeats {stage next : Stage} {world later : World}
    (h : stage.Moves setting world next later) :
    world.Repeats later fun other after => stage.Moves setting other next after := by
  cases h with
  | load hfetch => exact ((Job.fetch_hermetic ..).repeats hfetch).imp fun _ _ => .load
  | refuse hbuild => exact ((Embed.instantiate_hermetic ..).repeats hbuild).imp fun _ _ => .refuse
  | enter hbuild => exact ((Embed.instantiate_hermetic ..).repeats hbuild).imp fun _ _ => .enter

/-- What a stage gives it gives in every world. -/
theorem Scene.Gives.repeats {before after : Scene} {poll : Poll}
    (h : Gives setting before poll after) :
    before.world.Repeats after.world fun other later =>
      Gives setting { before with world := other } poll { after with world := later } := by
  induction h with
  | ready hready => exact .of_eq fun _ => .ready hready
  | dry hdry => exact .of_eq fun _ => .dry hdry
  | wait hwait hwake =>
      cases hwake
      refine ⟨[], .of_eq rfl rfl, fun _ other => ?_⟩
      obtain ⟨wake, hother⟩ := Run.run_wakeAt other.clock other
      exact ⟨{ other with alarm := some wake }, .of_eq rfl rfl, .wait hwait hother⟩
  | move hmove _ ih =>
      refine (hmove.repeats.trans ih).imp ?_
      rintro other later ⟨between, hbetween, hrest⟩
      exact .move hbetween hrest
  | stop _ hreact ih => exact ih.imp fun other later hask => .stop hask hreact
  | go _ hreact _ ih ihrest =>
      refine (ih.trans ihrest).imp ?_
      rintro other later ⟨between, hask, hrest⟩
      exact .go hask hreact hrest
  | closed _ ih => exact ih.imp fun other later hask => .closed hask
  | buffered hrefers hjunction hbuffer =>
      exact .of_eq fun _ => .buffered hrefers hjunction hbuffer
  | shared hrefers hjunction hempty hdry _ ih =>
      exact ih.imp fun other later hask => .shared hrefers hjunction hempty hdry hask

namespace PipeRun

variable {budget : Nat} {stage next : Stage} {world later : World} {poll : Poll}

theorem askOutput_of_gives (h : Scene.Gives setting ⟨stage, [], world⟩ poll ⟨next, [], later⟩) :
    ∃ least, ∀ budget, least ≤ budget →
      (askOutput setting budget stage).run world = some ((poll, next), later) := by
  obtain ⟨least, hcomes⟩ := h.settles.poll
  exact ⟨least, fun budget hbudget => run_askOutput.mpr ⟨[], hcomes budget hbudget⟩⟩

/-- A stage whose alarm is due is asked again at once. -/
theorem run_waitFor_of_due {deadline : Option Nat} {time : Nat} (halarm : world.alarm = some time)
    (hdue : time ≤ world.clock) {woken : World} :
    (Awaited.waitFor deadline).run world = some ((), woken) ↔ woken = world := by
  rw [run_waitFor]
  constructor
  · rintro ⟨wake, hwake, rfl⟩
    have hle : wake ≤ world.clock := (Awaited.le_of_earlier? hwake halarm).trans hdue
    rw [Nat.max_eq_left hle]
  · rintro rfl
    obtain ⟨wake, hwake⟩ : ∃ wake, Awaited.earlier? woken.alarm deadline = some wake := by
      rw [halarm]
      cases deadline with
      | none => exact ⟨time, rfl⟩
      | some deadline => exact ⟨min time deadline, rfl⟩
    have hle : wake ≤ woken.clock := (Awaited.le_of_earlier? hwake halarm).trans hdue
    exact ⟨wake, hwake, by rw [Nat.max_eq_left hle]⟩

/-- The time until which a stage is awaited. -/
def deadline (limit : Option Nat) (world : World) : Option Nat :=
  limit.map fun limit => world.clock + limit

/-- While the clock stands still the time is up at once or never. -/
theorem any_deadline (limit : Option Nat) (world : World) :
    ((deadline limit world).any fun time => time ≤ world.clock) =
      limit.any fun limit => limit = 0 := by
  cases limit with
  | none => rfl
  | some limit =>
      simp only [deadline, Option.map_some, Option.any_some]
      rw [decide_eq_decide]
      omega

/-- A stage that is asked from some budget on is awaited from some budget on. -/
theorem await_settles {deadline : Option Nat} {reached : Stage} {middle : World} {awaited : Awaited}
    (hask : ∃ least, ∀ budget, least ≤ budget →
      (askOutput setting budget stage).run world.fresh = some ((poll, reached), middle))
    (hsettled : ∃ least, ∀ budget asks, least ≤ budget → least ≤ asks →
      Settled setting budget deadline asks reached middle awaited next later poll) :
    ∃ least, ∀ budget asks, least ≤ budget → least ≤ asks →
      (Awaited.await (askOutput setting budget) deadline asks stage).run world =
        some ((awaited, next), later) := by
  obtain ⟨first, hfirst⟩ := hask
  obtain ⟨rest, hrest⟩ := hsettled
  refine ⟨first + rest + 1, fun budget asks hbudget hasks => ?_⟩
  obtain ⟨asks, rfl⟩ := Nat.exists_eq_add_of_le' hasks
  rw [← Nat.add_assoc]
  exact run_await_succ.mpr
    ⟨poll, reached, middle, hfirst budget (by omega), hrest budget _ (by omega) (by omega)⟩

/-- Awaiting a stage comes to the same in every world, unless the user is asked something. The
induction is on how often the stage may be asked. -/
theorem await_repeats (hcloses : setting.registry.Closes known) (limit : Option Nat) (asks : Nat)
    (halone : stage.Alone known mode) {awaited : Awaited}
    (h : (Awaited.await (askOutput setting budget) (deadline limit world) asks stage).run world =
      some ((awaited, next), later)) :
    next.Alone known mode ∧ world.Repeats later fun other after => ∃ least, ∀ more asks,
      least ≤ more → least ≤ asks →
        (Awaited.await (askOutput setting more) (deadline limit other) asks stage).run other =
          some ((awaited, next), after) := by
  induction asks generalizing stage world with
  | zero => cases h
  | succ asks ih =>
      obtain ⟨poll, reached, middle, hask, hsettled⟩ := run_await_succ.mp h
      obtain ⟨hgives, hreached⟩ := gives_of_askOutput hcloses halone hask
      have hfresh : world.Repeats world.fresh fun other after => after = other.fresh :=
        ⟨[], .of_eq rfl rfl, fun _ other => ⟨other.fresh, .of_eq rfl rfl, rfl⟩⟩
      have hgiven := (hfresh.trans hgives.repeats).went
      have hclock : middle.clock = world.clock := hgiven.clock
      cases poll with
      | answer given =>
          obtain ⟨rfl, rfl, rfl⟩ := hsettled
          refine ⟨hreached, hgiven.imp ?_⟩
          rintro other after ⟨-, _, rfl, hthere⟩
          exact await_settles (askOutput_of_gives hthere) ⟨0, fun _ _ _ _ => ⟨rfl, rfl, rfl⟩⟩
      | ended =>
          obtain ⟨rfl, rfl, rfl⟩ := hsettled
          refine ⟨hreached, hgiven.imp ?_⟩
          rintro other after ⟨-, _, rfl, hthere⟩
          exact await_settles (askOutput_of_gives hthere) ⟨0, fun _ _ _ _ => ⟨rfl, rfl, rfl⟩⟩
      | pending =>
          rw [Settled, hclock, any_deadline] at hsettled
          split at hsettled
          next hover =>
            obtain ⟨rfl, rfl, rfl⟩ := hsettled
            refine ⟨hreached, hgiven.imp ?_⟩
            rintro other after ⟨hstill, _, rfl, hthere⟩
            refine await_settles (askOutput_of_gives hthere) ⟨0, fun _ _ _ _ => ?_⟩
            rw [Settled, ← hstill, any_deadline, if_pos hover]
            exact ⟨rfl, rfl, rfl⟩
          next hopen =>
            obtain ⟨woken, hwait, hrest⟩ := hsettled
            obtain ⟨time, halarm, hdue⟩ := hgives.wakes
            obtain rfl := (run_waitFor_of_due halarm hdue).mp hwait
            rw [deadline, ← hclock] at hrest
            obtain ⟨hnext, hrepeats⟩ := ih hreached hrest
            refine ⟨hnext, (hgiven.trans hrepeats).imp ?_⟩
            rintro other after ⟨between, ⟨hstill, _, rfl, hthere⟩, least, hagain⟩
            obtain ⟨alarm, hset, hsoon⟩ := hthere.wakes
            refine await_settles (askOutput_of_gives hthere)
              ⟨least, fun more asks hmore hasks => ?_⟩
            rw [Settled, ← hstill, any_deadline, if_neg hopen]
            refine ⟨between, (run_waitFor_of_due hset hsoon).mpr rfl, ?_⟩
            rw [deadline, hstill]
            exact hagain more asks hmore hasks

/-- A pull at a run is secluded. -/
theorem next_secluded (hcloses : setting.registry.Closes known) {run : PipeRun}
    (halone : run.stage.Alone known mode) :
    Run.Secluded (fun result => result.2.stage.Alone known mode)
      fun budget => run.next setting budget := by
  intro budget world result later h
  cases hfinished : run.finished with
  | true =>
      rw [run_next_finished hfinished] at h
      cases h
      exact ⟨halone, .of_eq fun _ => ⟨0, fun _ _ => run_next_finished hfinished⟩⟩
  | false =>
      obtain ⟨awaited, next, hawait, rfl⟩ := (run_next hfinished).mp h
      obtain ⟨hnext, hrepeats⟩ := await_repeats hcloses run.limit budget halone hawait
      dsimp only
      rw [settle_stage]
      refine ⟨hnext, hrepeats.imp ?_⟩
      rintro other after ⟨least, hagain⟩
      exact ⟨least, fun more hmore =>
        (run_next hfinished).mpr ⟨awaited, next, hagain more more hmore hmore, rfl⟩⟩

/-- So are pulls in a row. -/
theorem pull_secluded (hcloses : setting.registry.Closes known) (count : Nat) {run : PipeRun}
    (halone : run.stage.Alone known mode) :
    Run.Secluded (fun result => result.2.stage.Alone known mode)
      fun budget => run.pull setting budget count := by
  induction count generalizing run with
  | zero => exact .pure halone
  | succ count ih =>
      refine (next_secluded hcloses halone).bind ?_
      rintro ⟨answer, next⟩ hnext
      cases answer with
      | none => exact .pure hnext
      | some answer => exact (ih hnext).bind fun rest hrest => .pure hrest

theorem take_secluded (hcloses : setting.registry.Closes known) (count : Nat) {run : PipeRun}
    (halone : run.stage.Alone known mode) :
    Run.Secluded (fun result => result.2.stage.Alone known mode)
      fun budget => run.take setting budget count := by
  induction count generalizing run with
  | zero => exact .pure halone
  | succ count ih =>
      refine (next_secluded hcloses halone).bind ?_
      rintro ⟨answer, next⟩ hnext
      cases answer with
      | none => exact .pure hnext
      | some answer =>
          cases answer with
          | error error => exact .pure hnext
          | ok record => exact (ih hnext).bind fun rest hrest => .pure hrest

/-- So is the start of a run, and the run is one of a pipe. -/
theorem ofContext_secluded (hcloses : setting.registry.Closes known) (mode : Mode)
    (limit : Option Nat) (context : RunContext) {pipe : Pipe} (hpipe : known pipe) :
    Run.Secluded (fun outcome => ∀ run, outcome = .ok (.running run) → run.stage.Alone known mode)
      fun _ => ofContext setting mode limit context pipe := by
  intro budget world outcome later h
  have hrepeats := (ofContext_hermetic setting mode limit context pipe).repeats h
  refine ⟨?_, hrepeats.imp fun _ _ hagain => ⟨0, fun _ _ => hagain⟩⟩
  rintro run rfl
  unfold ofContext at h
  split at h
  · cases h
  · obtain ⟨_, _, hreport, h⟩ := run_bind_eq_some_iff.mp h
    obtain ⟨started, middle, hstart, h⟩ := run_bind_eq_some_iff.mp h
    cases started with
    | error error => cases h
    | ok started =>
        cases h
        obtain ⟨stage, rfl, halone, -⟩ := alone_of_ofPipe hcloses hpipe hstart
        exact halone

end PipeRun

end Pipework
