import Pipework.Proofs.Outcome
import Pipework.World

/-! # Computations that depend on nothing around them

A secluded computation that asks the user nothing comes to the same in every world, whatever its
clock says and whatever has been read, reported and counted there. Computations are taken with
their budgets: elsewhere they come to it from some budget on.
-/

namespace Pipework

variable {α β : Type}

/-- Since then the clock has stood still and the user has been asked some questions. -/
structure World.Went (before : World) (asked : List String) (after : World) : Prop where
  clock : after.clock = before.clock
  questions : after.questions = before.questions ++ asked

namespace World.Went

variable {before middle after : World} {asked more : List String}

theorem of_eq (hclock : after.clock = before.clock) (hquestions : after.questions = before.questions) :
    before.Went [] after :=
  ⟨hclock, hquestions.trans (List.append_nil _).symm⟩

theorem rfl : before.Went [] before :=
  .of_eq (Eq.refl _) (Eq.refl _)

theorem trans (h : before.Went asked middle) (hnext : middle.Went more after) :
    before.Went (asked ++ more) after := by
  refine ⟨hnext.clock.trans h.clock, ?_⟩
  rw [hnext.questions, h.questions, List.append_assoc]

/-- Nobody has been asked anything exactly if the questions are the same. -/
theorem eq_nil_iff (h : before.Went asked after) :
    asked = [] ↔ after.questions = before.questions := by
  rw [h.questions, List.append_right_eq_self]

end World.Went

/-- What has led from one world to the other leads, if the user is asked nothing meanwhile, from
every other world somewhere. -/
def World.Repeats (before after : World) (leads : World → World → Prop) : Prop :=
  ∃ asked, before.Went asked after ∧
    (asked = [] → ∀ other, ∃ later, other.Went [] later ∧ leads other later)

namespace World.Repeats

variable {before middle after : World} {leads goesOn : World → World → Prop}

theorem of_eq (h : ∀ world, leads world world) : before.Repeats before leads :=
  ⟨[], .rfl, fun _ other => ⟨other, .rfl, h other⟩⟩

theorem trans (h : before.Repeats middle leads) (hnext : middle.Repeats after goesOn) :
    before.Repeats after fun first last => ∃ between, leads first between ∧ goesOn between last := by
  obtain ⟨asked, hasked, hfirst⟩ := h
  obtain ⟨more, hmore, hlast⟩ := hnext
  refine ⟨asked ++ more, hasked.trans hmore, fun hnobody other => ?_⟩
  obtain ⟨hnone, hnobody⟩ := List.append_eq_nil_iff.mp hnobody
  obtain ⟨between, hbetween, hleads⟩ := hfirst hnone other
  obtain ⟨later, hlater, hgoesOn⟩ := hlast hnobody between
  exact ⟨later, hbetween.trans hlater, between, hleads, hgoesOn⟩

/-- What comes before something does not matter to it. -/
theorem skip (h : before.Repeats middle leads) (hnext : middle.Repeats after goesOn) :
    before.Repeats after goesOn := by
  obtain ⟨asked, hasked, -⟩ := h
  obtain ⟨more, hmore, hlast⟩ := hnext
  refine ⟨asked ++ more, hasked.trans hmore, fun hnobody other => ?_⟩
  exact hlast (List.append_eq_nil_iff.mp hnobody).2 other

theorem imp (h : before.Repeats after leads)
    (hwider : ∀ first last, leads first last → goesOn first last) :
    before.Repeats after goesOn := by
  obtain ⟨asked, hasked, hrepeats⟩ := h
  refine ⟨asked, hasked, fun hnobody other => ?_⟩
  obtain ⟨later, hlater, hleads⟩ := hrepeats hnobody other
  exact ⟨later, hlater, hwider other later hleads⟩

/-- Everywhere the clock has stood still. -/
theorem went (h : before.Repeats after leads) :
    before.Repeats after fun first last => first.clock = last.clock ∧ leads first last := by
  obtain ⟨asked, hasked, hrepeats⟩ := h
  refine ⟨asked, hasked, fun hnobody other => ?_⟩
  obtain ⟨later, hlater, hleads⟩ := hrepeats hnobody other
  exact ⟨later, hlater, hlater.clock.symm, hleads⟩

theorem clock (h : before.Repeats after leads) : after.clock = before.clock := by
  obtain ⟨asked, hasked, -⟩ := h
  exact hasked.clock

end World.Repeats

/-- What the computation comes to is as the predicate says. If the user is asked nothing meanwhile,
it comes to the same in every other world, from some budget on. -/
def Run.Secluded (post : α → Prop) (computation : Nat → Run α) : Prop :=
  ∀ ⦃budget world result later⦄, (computation budget).run world = some (result, later) →
    post result ∧ world.Repeats later fun other after => ∃ least, ∀ more, least ≤ more →
      (computation more).run other = some (result, after)

namespace Run.Secluded

variable {mid : α → Prop} {post : β → Prop}

theorem pure {value : α} (h : mid value) : Secluded mid fun _ => (Pure.pure value : Run α) := by
  intro budget world result later hrun
  cases hrun
  exact ⟨h, .of_eq fun _ => ⟨0, fun _ _ => rfl⟩⟩

theorem bind {first : Nat → Run α} {next : α → Nat → Run β} (h : Secluded mid first)
    (hnext : ∀ value, mid value → Secluded post (next value)) :
    Secluded post fun budget => first budget >>= fun value => next value budget := by
  intro budget world result later hrun
  obtain ⟨value, middle, hfirst, hrest⟩ := run_bind_eq_some_iff.mp hrun
  obtain ⟨hmid, hrepeats⟩ := h hfirst
  obtain ⟨hpost, hgoesOn⟩ := hnext value hmid hrest
  refine ⟨hpost, (hrepeats.trans hgoesOn).imp ?_⟩
  rintro other after ⟨between, ⟨least, hruns⟩, ⟨rest, hrests⟩⟩
  refine ⟨max least rest, fun budget hbudget => ?_⟩
  exact run_bind_eq_some_iff.mpr ⟨value, between, hruns budget (le_of_max_le_left hbudget),
    hrests budget (le_of_max_le_right hbudget)⟩

/-- What is made of a result. -/
theorem map {computation : Nat → Run α} (h : Secluded mid computation) (change : α → β)
    (hchange : ∀ value, mid value → post (change value)) :
    Secluded post fun budget => change <$> computation budget := by
  simp only [map_eq_pure_bind]
  exact h.bind fun value hvalue => pure (hchange value hvalue)

end Run.Secluded

/-- A computation without a budget is secluded. -/
abbrev Run.Hermetic (computation : Run α) : Prop :=
  Run.Secluded (fun _ => True) fun _ => computation

namespace Run.Hermetic

theorem pure (value : α) : Hermetic (Pure.pure value) :=
  Secluded.pure trivial

theorem bind {first : Run α} {next : α → Run β} (h : Hermetic first)
    (hnext : ∀ value, Hermetic (next value)) : Hermetic (first >>= next) :=
  Secluded.bind h fun value _ => hnext value

theorem repeats {computation : Run α} (h : Hermetic computation) {world later : World}
    {result : α} (hrun : computation.run world = some (result, later)) :
    world.Repeats later fun other after => computation.run other = some (result, after) := by
  refine (@h 0 _ _ _ hrun).2.imp ?_
  rintro other after ⟨least, hruns⟩
  exact hruns least (Nat.le_refl least)

/-- A change of the world that leaves its clock and the questions alone. -/
theorem of_change {computation : Run Unit} {change : World → World}
    (hrun : ∀ world, computation.run world = some ((), change world))
    (hwent : ∀ world : World, world.Went [] (change world)) : Hermetic computation := by
  intro budget world result later h
  cases (hrun world).symm.trans h
  exact ⟨trivial, [], hwent world, fun _ other =>
    ⟨change other, hwent other, 0, fun _ _ => hrun other⟩⟩

theorem report (event : Event) : Hermetic (Run.report event) :=
  of_change (fun _ => rfl) fun _ => .of_eq rfl rfl

theorem count (id : ModuleId) (change : ProbeCount → ProbeCount) :
    Hermetic (Run.count id change) :=
  of_change (fun _ => rfl) fun _ => .of_eq rfl rfl

theorem readFile (setting : Setting) (path : String) :
    Hermetic (Run.readFile setting path) := by
  unfold Run.readFile
  exact bind (of_change (fun _ => rfl) fun _ => .of_eq rfl rfl) fun _ => pure _

/-- The user is asked, so that nothing need be said about other worlds. -/
theorem ask (question : String) : Hermetic (Run.ask question) := by
  intro budget world result later h
  cases h
  exact ⟨trivial, [question], ⟨rfl, rfl⟩, nofun⟩

end Run.Hermetic

end Pipework
