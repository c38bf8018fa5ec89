import Pipework.Proofs.Stage.Settling

/-! # The end of a stage

A stage gives one thing, whatever the budget, and once it has ended it only ever gives the end.
-/

namespace Pipework

namespace Scene.Gives

variable {setting : Setting} {before after last : Scene} {poll given : Poll}

theorem deterministic (h : Gives setting before poll after)
    (hother : Gives setting before given last) : poll = given ∧ after = last :=
  h.settles.deterministic hother.settles

theorem length_eq (h : Gives setting before poll after) :
    after.junctions.length = before.junctions.length := by
  induction h with
  | ready | dry | wait | closed => rfl
  | move _ _ ih => exact ih
  | stop _ _ ih => exact ih
  | go _ _ _ ih ihrest => exact ihrest.trans ih
  | buffered => exact List.length_set
  | shared _ _ _ _ _ ih => rw [List.length_set, ih]

/-- What has ended stays as it is and only gives the end. -/
theorem ended (h : Gives setting before .ended after) (world : World) :
    Gives setting { after with world } .ended { after with world } := by
  generalize hpoll : Poll.ended = poll at h
  induction h with
  | ready => cases hpoll
  | dry hdry => exact .dry hdry
  | wait => cases hpoll
  | move _ _ ih => exact ih hpoll
  | @stop hole _ _ _ _ asked _ _ _ hreact ih =>
      subst hpoll
      rcases Hole.react_ended asked.junctions hreact with ⟨rfl, rfl⟩ | hdry
      · exact .stop (ih rfl) hreact
      · exact .dry hdry
  | go _ _ _ _ ihrest => exact ihrest hpoll
  | closed _ ih => exact .closed (ih hpoll)
  | buffered => cases hpoll
  | shared hrefers hjunction hempty _ hask _ =>
      subst hpoll
      have hplace := (List.getElem?_eq_some_iff.mp hjunction).1
      refine .dry (.consumer hrefers (List.getElem?_set_self (hask.length_eq ▸ hplace)) ?_ ?_)
      · rw [Junction.waitingFor_settle_ended]
        exact hempty
      · exact Junction.dry_settle_ended ..

end Scene.Gives

end Pipework
