import Pipework.Proofs.Stage.Budget

/-! # From some budget on

What a stage gives it comes to within every budget from some budget on. The records that a stage
takes for itself need a larger budget with every record, and so do those that the work under way
collects; so each rule of `Scene.Gives` says how much larger.
-/

namespace Pipework

variable {setting : Setting}

namespace Scene

variable {ask next : Stage → Flow (Poll × Stage)} {hole : Hole} {inner : Stage} {now : DateTime}
  {junctions : List (Junction Stage)} {world : World} {out : Poll} {after : Scene}

/-- A stage with a hole comes to what it makes of what it asks. -/
theorem comes_react :
    Flow.Comes (ask inner >>= fun asked => (hole.react now asked.1 asked.2).proceed next) junctions
        world (out, after.stage) after.junctions after.world ↔
      ∃ poll asked, Scene.Comes ask ⟨inner, junctions, world⟩ poll asked ∧
        ((∃ stage, hole.react now poll asked.stage = .stop out stage ∧
            after = ⟨stage, asked.junctions, asked.world⟩) ∨
          ∃ stage, hole.react now poll asked.stage = .go stage ∧
            Scene.Comes next ⟨stage, asked.junctions, asked.world⟩ out after) := by
  rw [Flow.comes_bind]
  constructor
  · rintro ⟨⟨poll, stage⟩, middle, between, hask, hrest⟩
    refine ⟨poll, ⟨stage, middle, between⟩, hask, ?_⟩
    dsimp only at hrest ⊢
    cases hreact : hole.react now poll stage with
    | stop given last =>
        rw [hreact] at hrest
        obtain ⟨hout, rfl, rfl⟩ := Flow.comes_pure.mp hrest
        obtain ⟨rfl, rfl⟩ := Prod.mk.inj hout
        exact .inl ⟨_, rfl, rfl⟩
    | go last =>
        rw [hreact] at hrest
        exact .inr ⟨last, rfl, hrest⟩
  · rintro ⟨poll, asked, hask, ⟨stage, hreact, rfl⟩ | ⟨stage, hreact, hrest⟩⟩
    · refine ⟨_, _, _, hask, ?_⟩
      rw [hreact]
      exact Flow.comes_pure.mpr ⟨rfl, rfl, rfl⟩
    · refine ⟨_, _, _, hask, ?_⟩
      rw [hreact]
      exact hrest

section Job

variable {depth count gathers first : Nat} {task : Task} {input : Stage} {last : Bool}
  {later : World}

/-- Work that does not wait is a step and what comes after it. -/
theorem comes_of_moves {stage next : Stage} (hmoves : stage.Moves setting world next later)
    (h : Scene.Comes (Stage.pollJob setting depth count gathers first) ⟨next, junctions, later⟩ out
      after) :
    Scene.Comes (Stage.pollJob setting depth count gathers first) ⟨stage, junctions, world⟩ out
      after := by
  cases hmoves with
  | load hfetch =>
      rw [Scene.Comes, Stage.pollJob_none] at h
      simp only [Scene.Comes, Stage.pollJob, Job.work, Flow.comes_bind, Flow.comes_lift]
      exact ⟨_, _, _, ⟨_, _, _, ⟨rfl, hfetch⟩, Flow.comes_pure.mpr ⟨rfl, rfl, rfl⟩⟩, h⟩
  | refuse hbuild =>
      rw [Scene.Comes, Stage.pollJob_none] at h
      simp only [Scene.Comes, Stage.pollJob, Job.work, Flow.comes_bind, Flow.comes_lift]
      exact ⟨_, _, _, ⟨_, _, _, ⟨rfl, hbuild⟩, Flow.comes_pure.mpr ⟨rfl, rfl, rfl⟩⟩, h⟩
  | enter hbuild =>
      obtain ⟨progress, middle, between, hgather, hrest⟩ := Flow.comes_bind.mp h
      simp only [Scene.Comes, Stage.pollJob, Job.work, Flow.comes_bind, Flow.comes_lift]
      exact ⟨_, _, _, ⟨_, _, _, ⟨rfl, hbuild⟩, hgather⟩, hrest⟩

theorem comes_of_waits {stage next : Stage} (hwaits : stage.Waits next)
    (hwake : (Run.wakeAt world.clock).run world = some ((), later)) :
    Scene.Comes (Stage.pollJob setting depth count gathers first) ⟨stage, junctions, world⟩ .pending
      ⟨next, junctions, later⟩ := by
  cases hwaits
  simp only [Scene.Comes, Stage.pollJob, Job.work, Flow.comes_bind, Flow.comes_lift]
  exact ⟨_, _, _, ⟨_, _, _, ⟨rfl, rfl⟩, _, _, _, ⟨rfl, hwake⟩, Flow.comes_pure.mpr ⟨rfl, rfl, rfl⟩⟩,
    Flow.comes_pure.mpr ⟨rfl, rfl, rfl⟩⟩

end Job

/-- From some budgets on, asking the stage of a scene comes to this. -/
def Settles (setting : Setting) (before : Scene) (poll : Poll) (after : Scene) : Prop :=
  ∃ least, ∀ depth count gathers first, least ≤ depth → least ≤ count → least ≤ gathers →
    least ≤ first →
      Scene.Comes (Stage.pollJob setting depth count gathers first) before poll after

namespace Settles

variable {before asked : Scene} {given : Poll}

theorem move {stage next : Stage} {later : World} (hmoves : stage.Moves setting world next later)
    (h : Settles setting ⟨next, junctions, later⟩ out after) :
    Settles setting ⟨stage, junctions, world⟩ out after := by
  obtain ⟨least, h⟩ := h
  exact ⟨least, fun depth count gathers first hdepth hcount hgathers hfirst =>
    comes_of_moves hmoves (h depth count gathers first hdepth hcount hgathers hfirst)⟩

theorem wait {stage next : Stage} {later : World} (hwaits : stage.Waits next)
    (hwake : (Run.wakeAt world.clock).run world = some ((), later)) :
    Settles setting ⟨stage, junctions, world⟩ .pending ⟨next, junctions, later⟩ :=
  ⟨0, fun _ _ _ _ _ _ _ _ => comes_of_waits hwaits hwake⟩

theorem pollSteps (h : Settles setting before given after) :
    ∃ least, ∀ depth count gathers, least ≤ depth → least ≤ count → least ≤ gathers →
      Scene.Comes (Stage.pollSteps setting depth count gathers) before given after := by
  obtain ⟨least, h⟩ := h
  obtain ⟨stage, junctions, world⟩ := before
  refine ⟨least + 1, fun depth count gathers hdepth hcount hgathers => ?_⟩
  obtain ⟨count, rfl⟩ := Nat.exists_eq_add_of_le' hcount
  rcases Stage.pollJob_or setting stage with hsame | hjob
  · rw [Scene.Comes, ← hsame depth (count + (least + 1)) gathers gathers]
    exact h _ _ _ _ (by omega) (by omega) (by omega) (by omega)
  · rw [Scene.Comes, ← Nat.add_assoc, hjob]
    exact h _ _ _ _ (by omega) (by omega) (by omega) (by omega)

theorem poll (h : Settles setting before given after) :
    ∃ least, ∀ budget, least ≤ budget →
      Scene.Comes (Stage.poll setting budget) before given after := by
  obtain ⟨least, h⟩ := h.pollSteps
  refine ⟨least + 1, fun budget hbudget => ?_⟩
  obtain ⟨budget, rfl⟩ := Nat.exists_eq_add_of_le' hbudget
  rw [Scene.Comes, ← Nat.add_assoc, Stage.poll_succ]
  exact h _ _ _ (Nat.le_add_left ..) (Nat.le_add_left ..) (Nat.le_add_left ..)

theorem deterministic {other : Poll} {last : Scene} (h : Settles setting before given after)
    (hother : Settles setting before other last) : given = other ∧ after = last := by
  obtain ⟨least, hcomes⟩ := h.poll
  obtain ⟨most, hotherComes⟩ := hother.poll
  have hfirst := hcomes (max least most) (Nat.le_max_left ..)
  have hsecond := hotherComes (max least most) (Nat.le_max_right ..)
  obtain ⟨stage, junctions, world⟩ := after
  obtain ⟨stage', junctions', world'⟩ := last
  cases hfirst.symm.trans hsecond
  exact ⟨rfl, rfl⟩

theorem stop (h : Settles setting ⟨inner, junctions, world⟩ given asked) {next : Stage}
    (hreact : hole.react setting.now given asked.stage = .stop out next) :
    Settles setting ⟨hole.fill inner, junctions, world⟩ out
      ⟨next, asked.junctions, asked.world⟩ := by
  obtain ⟨least, h⟩ := h.poll
  refine ⟨least + 1, fun depth count gathers first hdepth hcount hgathers hfirst => ?_⟩
  obtain ⟨count, rfl⟩ := Nat.exists_eq_add_of_le' hcount
  obtain ⟨first, rfl⟩ := Nat.exists_eq_add_of_le' hfirst
  rw [Scene.Comes, ← Nat.add_assoc, ← Nat.add_assoc, Stage.pollJob_fill]
  exact comes_react.mpr ⟨given, asked, h depth (by omega), .inl ⟨next, hreact, rfl⟩⟩

theorem go (h : Settles setting ⟨inner, junctions, world⟩ given asked) {next : Stage}
    (hreact : hole.react setting.now given asked.stage = .go next)
    (hrest : Settles setting ⟨next, asked.junctions, asked.world⟩ out after) :
    Settles setting ⟨hole.fill inner, junctions, world⟩ out after := by
  obtain ⟨least, h⟩ := h.poll
  obtain ⟨steps, hsteps⟩ := hrest.pollSteps
  obtain ⟨jobs, hjobs⟩ := hrest
  refine ⟨least + steps + jobs + 1, fun depth count gathers first hdepth hcount hgathers hfirst => ?_⟩
  obtain ⟨count, rfl⟩ := Nat.exists_eq_add_of_le' hcount
  obtain ⟨first, rfl⟩ := Nat.exists_eq_add_of_le' hfirst
  rw [Scene.Comes, ← Nat.add_assoc count, ← Nat.add_assoc first, Stage.pollJob_fill]
  refine comes_react.mpr ⟨given, asked, h depth (by omega), .inr ⟨next, hreact, ?_⟩⟩
  -- Collecting goes on within the work on one record, everything else with the next step.
  cases hole with
  | collect =>
      exact hjobs depth _ gathers _ (by omega) (by omega) (by omega) (by omega)
  | tagged | mapped | tally | input =>
      exact hsteps depth _ gathers (by omega) (by omega) (by omega)

theorem ready {stage next : Stage} {answer : Answer} (hready : stage.ready? = some (answer, next)) :
    Settles setting ⟨stage, junctions, world⟩ (.answer answer) ⟨next, junctions, world⟩ := by
  refine ⟨1, fun depth count gathers first _ hcount _ _ => ?_⟩
  obtain ⟨count, rfl⟩ := Nat.exists_eq_add_of_le' hcount
  cases stage with
  | sentinel | constant =>
      cases hready
      exact Flow.comes_pure.mpr ⟨rfl, rfl, rfl⟩
  | once record? =>
      cases record? with
      | none => cases hready
      | some record =>
          cases hready
          exact Flow.comes_pure.mpr ⟨rfl, rfl, rfl⟩
  | batches task state =>
      obtain ⟨input, queue, job, last⟩ := state
      cases queue with
      | nil => cases hready
      | cons answer rest =>
          cases hready
          exact Flow.comes_pure.mpr ⟨rfl, rfl, rfl⟩
  | _ => cases hready

/-- Some budget for the stages inside of the stage suffices. -/
theorem of_depth {stage : Stage} (hsteps : ∀ depth count gathers first,
      Stage.pollJob setting depth count gathers first stage =
        Stage.poll setting (depth + 1) stage)
    (h : ∃ least, ∀ depth, least ≤ depth →
      Scene.Comes (Stage.poll setting (depth + 1)) ⟨stage, junctions, world⟩ given after) :
    Settles setting ⟨stage, junctions, world⟩ given after := by
  obtain ⟨least, h⟩ := h
  refine ⟨least, fun depth count gathers first hdepth _ _ _ => ?_⟩
  rw [Scene.Comes, hsteps]
  exact h depth hdepth

theorem consumer {stage : Stage} {place index : Nat} {junction held : Junction Stage}
    {middle : List (Junction Stage)} {behind : World} (hrefers : stage.Refers place index)
    (hjunction : junctions[place]? = some junction)
    (h : ∃ least, ∀ depth, least ≤ depth →
      Flow.Comes (junction.poll (Stage.poll setting depth) index) junctions world (given, held)
        middle behind) :
    Settles setting ⟨stage, junctions, world⟩ given ⟨stage, middle.set place held, behind⟩ := by
  refine of_depth (fun _ _ _ _ => by cases hrefers <;> rfl) ?_
  obtain ⟨least, h⟩ := h
  exact ⟨least, fun depth hdepth => (Stage.comes_consumer hrefers hjunction).mpr
    ⟨held, middle, h depth hdepth, rfl, rfl⟩⟩

theorem dry {stage : Stage} (hdry : stage.Dry junctions) :
    Settles setting ⟨stage, junctions, world⟩ .ended ⟨stage, junctions, world⟩ := by
  cases hdry with
  | once => exact ⟨0, fun _ _ _ _ _ _ _ _ => Flow.comes_pure.mpr ⟨rfl, rfl, rfl⟩⟩
  | tally | batches =>
      refine ⟨1, fun depth count gathers first _ hcount _ _ => ?_⟩
      obtain ⟨count, rfl⟩ := Nat.exists_eq_add_of_le' hcount
      exact Flow.comes_pure.mpr ⟨rfl, rfl, rfl⟩
  | @consumer _ place index junction hrefers hjunction hempty hended =>
      have hsettles : Settles setting ⟨stage, junctions, world⟩ .ended
          ⟨stage, junctions.set place junction, world⟩ := by
        refine consumer hrefers hjunction ⟨0, fun depth _ => ?_⟩
        rw [Junction.poll_dry hempty hended]
        exact Flow.comes_pure.mpr ⟨rfl, rfl, rfl⟩
      obtain ⟨hplace, hat⟩ := List.getElem?_eq_some_iff.mp hjunction
      rw [← hat, List.set_getElem_self] at hsettles
      exact hsettles

end Settles

/-- What a stage gives it comes to within every budget from some budget on. -/
theorem Gives.settles {before after : Scene} {poll : Poll} (h : Gives setting before poll after) :
    Settles setting before poll after := by
  induction h with
  | ready hready => exact .ready hready
  | dry hdry => exact .dry hdry
  | wait hwaits hwake => exact .wait hwaits hwake
  | move hmoves _ ih => exact .move hmoves ih
  | stop _ hreact ih => exact ih.stop hreact
  | go _ hreact _ ih ihrest => exact ih.go hreact ihrest
  | closed _ ih =>
      obtain ⟨least, h⟩ := ih.poll
      refine .of_depth (fun _ _ _ _ => rfl) ⟨least, fun depth hdepth => ?_⟩
      simp only [Scene.Comes, Stage.poll, Flow.comes_bind, Flow.comes_lift]
      exact ⟨_, _, _, ⟨rfl, h depth hdepth⟩, Flow.comes_pure.mpr ⟨rfl, rfl, rfl⟩⟩
  | buffered hrefers hjunction hbuffer =>
      refine .consumer hrefers hjunction ⟨0, fun depth _ => ?_⟩
      rw [Junction.poll_buffered hbuffer]
      exact Flow.comes_pure.mpr ⟨rfl, rfl, rfl⟩
  | shared hrefers hjunction hempty hdry _ ih =>
      obtain ⟨least, h⟩ := ih.poll
      refine .consumer hrefers hjunction ⟨least, fun depth hdepth => ?_⟩
      rw [Junction.poll_shared hempty hdry]
      exact Flow.comes_bind.mpr ⟨_, _, _, h depth hdepth, Flow.comes_pure.mpr ⟨rfl, rfl, rfl⟩⟩

end Scene

end Pipework
