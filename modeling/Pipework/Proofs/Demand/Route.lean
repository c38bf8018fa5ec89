import Pipework.Proofs.Demand.Polling

/-! # The way answers take

A stage leads from another one if all it does when it is asked is to ask that one once and to pass
its answer on: to its consumers if it is shared, as the answer of a module, or transformed. So
whoever asks at the end of such a way asks at its beginning exactly once.
-/

namespace Pipework

/-- What is done to an answer on its way. -/
inductive Passage where
  /-- Errors are attributed to a module, by the position of the answer. -/
  | tag (id : ModuleId)
  | map (transform : Transform)

namespace Passage

/-- What becomes of the answer at a position. -/
def alter (now : DateTime) (index : Nat) : Passage → Answer → Answer
  | tag id, answer => answer.mapError fun error => error.whileProducing id index
  | map transform, answer => answer.bind fun record => transform.apply now record

/-- What becomes of the answer at a position on the whole way, whose end comes first. -/
def alterAll (now : DateTime) (passages : List Passage) (index : Nat) (answer : Answer) : Answer :=
  passages.foldr (fun passage => passage.alter now index) answer

end Passage

/-- A stage in the scope of junctions leads from an own stage, in the scope of those below. Each
module on the way has given so many answers, and nothing is kept for the consumers on the way. -/
inductive Stage.Leads (count : Nat) (below : List (Junction Stage)) (own : Stage) :
    List Passage → List (Junction Stage) → Stage → Prop
  | here : Leads count below own [] below own
  | behind {passages : List Passage} {junctions : List (Junction Stage)} {stage : Stage}
      (junction : Junction Stage) (h : Leads count below own passages junctions stage) :
      Leads count below own passages (junctions ++ [junction]) stage
  | tagged {passages : List Passage} {junctions : List (Junction Stage)} {inner : Stage}
      (id : ModuleId) (h : Leads count below own passages junctions inner) :
      Leads count below own (.tag id :: passages) junctions (.tagged id count inner)
  | mapped {passages : List Passage} {junctions : List (Junction Stage)} {inner : Stage}
      (transform : Transform) (h : Leads count below own passages junctions inner) :
      Leads count below own (.map transform :: passages) junctions (.mapped transform inner)
  | shared {passages : List Passage} {junctions : List (Junction Stage)} {stage : Stage}
      {index : Nat} {junction : Junction Stage} (hrefers : stage.Refers junctions.length index)
      (hempty : junction.waitingFor index = []) (hdry : junction.dry = false)
      (h : Leads count below own passages junctions junction.upstream) :
      Leads count below own passages (junctions ++ [junction]) stage

namespace Junction

variable {junction : Junction Stage} {index : Nat}

/-- The last of junctions whose consumers can tell no difference. -/
theorem slackens_concat {front after : List (Junction Stage)}
    (h : List.Forall₂ Slackens (front ++ [junction]) after) :
    ∃ first next, List.Forall₂ Slackens front first ∧ junction.Slackens next ∧
      after = first ++ [next] := by
  have hfront := List.forall₂_take front.length h
  have hlast := List.forall₂_drop front.length h
  rw [List.take_left] at hfront
  rw [List.drop_left] at hlast
  obtain ⟨next, _, hnext, hnil, heq⟩ := List.forall₂_cons_left_iff.mp hlast
  cases hnil
  exact ⟨_, next, hfront, hnext, by rw [← heq, List.take_append_drop]⟩

/-- An answer is kept for the other consumers only. -/
theorem waitingFor_settle_answer (asked : Stage) (answer : Answer) :
    (junction.settle index asked (.answer answer)).waitingFor index =
      junction.waitingFor index := by
  cases junction with
  | tap held => rfl
  | fork held =>
      cases answer with
      | error error => rfl
      | ok record =>
          simp only [settle, Fork.settle, Fork.rouse, Fork.spread, waitingFor, Fork.buffer?,
            List.getElem?_mapIdx]
          cases held.buffers[index]? <;> simp

theorem dry_settle_answer (asked : Stage) (answer : Answer) :
    (junction.settle index asked (.answer answer)).dry = junction.dry := by
  cases junction with
  | tap held => rfl
  | fork held => cases answer <;> rfl

end Junction

namespace Stage.Leads

variable {count : Nat} {below : List (Junction Stage)} {own stage : Stage}
  {passages : List Passage} {junctions : List (Junction Stage)}

theorem append (h : Leads count below own passages junctions stage)
    (more : List (Junction Stage)) :
    Leads count below own passages (junctions ++ more) stage := by
  induction more generalizing junctions with
  | nil => exact (List.append_nil junctions).symm ▸ h
  | cons junction more ih =>
      rw [List.append_cons]
      exact ih (.behind junction h)

/-- Consumers that can tell no difference are led to the same stage. -/
theorem slackens {after : List (Junction Stage)}
    (h : Leads count below own passages junctions stage)
    (hslackens : List.Forall₂ Junction.Slackens junctions after) :
    ∃ under, List.Forall₂ Junction.Slackens below under ∧
      Leads count under own passages after stage := by
  induction h generalizing after with
  | here => exact ⟨after, hslackens, .here⟩
  | behind junction _ ih =>
      obtain ⟨first, next, hfront, -, rfl⟩ := Junction.slackens_concat hslackens
      obtain ⟨under, hunder, hleads⟩ := ih hfront
      exact ⟨under, hunder, .behind next hleads⟩
  | tagged id _ ih =>
      obtain ⟨under, hunder, hleads⟩ := ih hslackens
      exact ⟨under, hunder, .tagged id hleads⟩
  | mapped transform _ ih =>
      obtain ⟨under, hunder, hleads⟩ := ih hslackens
      exact ⟨under, hunder, .mapped transform hleads⟩
  | shared hrefers hempty hdry _ ih =>
      obtain ⟨first, next, hfront, hnext, rfl⟩ := Junction.slackens_concat hslackens
      obtain ⟨under, hunder, hleads⟩ := ih hfront
      refine ⟨under, hunder, .shared (hfront.length_eq ▸ hrefers) (hnext.empty _ hempty)
        (hnext.dry_eq.trans hdry) ?_⟩
      rw [hnext.upstream_eq]
      exact hleads

end Stage.Leads

open Pipework.Flow (Comes)

namespace Stage

variable {setting : Setting} {budget count : Nat} {stage inner next : Stage}
  {junctions later : List (Junction Stage)} {world after : World} {out : Poll}

theorem comes_tagged {id : ModuleId} :
    Comes (poll setting (budget + 1) (.tagged id count inner)) junctions world (out, next) later
        after ↔
      ∃ given asked, Comes (poll setting budget inner) junctions world (given, asked) later after ∧
        out = given.mapAnswer ((Passage.tag id).alter setting.now count) ∧
        next = .tagged id (match given with | .answer _ => count + 1 | _ => count) asked := by
  rw [poll, Flow.comes_bind]
  constructor
  · rintro ⟨⟨given, asked⟩, _, _, hask, hpure⟩
    cases given <;> (obtain ⟨hout, rfl, rfl⟩ := Flow.comes_pure.mp hpure; cases hout) <;>
      exact ⟨_, asked, hask, rfl, rfl⟩
  · rintro ⟨given, asked, hask, rfl, rfl⟩
    refine ⟨(given, asked), later, after, hask, ?_⟩
    cases given <;> exact Flow.comes_pure.mpr ⟨rfl, rfl, rfl⟩

theorem comes_mapped {transform : Transform} :
    Comes (poll setting (budget + 1) (.mapped transform inner)) junctions world (out, next) later
        after ↔
      ∃ given asked, Comes (poll setting budget inner) junctions world (given, asked) later after ∧
        out = (given.mapAnswer fun answer =>
          answer.bind fun record => transform.apply setting.now record) ∧
        next = .mapped transform asked := by
  rw [poll, Flow.comes_bind]
  constructor
  · rintro ⟨⟨given, asked⟩, _, _, hask, hpure⟩
    obtain ⟨hout, rfl, rfl⟩ := Flow.comes_pure.mp hpure
    cases hout
    exact ⟨given, asked, hask, rfl, rfl⟩
  · rintro ⟨given, asked, hask, rfl, rfl⟩
    exact ⟨(given, asked), later, after, hask, Flow.comes_pure.mpr ⟨rfl, rfl, rfl⟩⟩

/-- A consumer for whom nothing is kept asks the upstream of its junction. -/
theorem comes_shared {index : Nat} {junction : Junction Stage} {back : List (Junction Stage)}
    (hrefers : stage.Refers junctions.length index) (hempty : junction.waitingFor index = [])
    (hdry : junction.dry = false) :
    Comes (poll setting (budget + 1) stage) (junctions ++ [junction] ++ back) world (out, next)
        later after ↔
      ∃ asked middle, Comes (poll setting budget junction.upstream)
          (junctions ++ ([junction] ++ back)) world (out, asked) middle after ∧
        next = stage ∧ later = middle.set junctions.length (junction.settle index asked out) := by
  have hjunction : (junctions ++ ([junction] ++ back))[junctions.length]? = some junction := by
    rw [List.getElem?_append_right le_rfl, Nat.sub_self]
    rfl
  rw [List.append_assoc]
  have hconsumer : Comes (poll setting (budget + 1) stage) (junctions ++ ([junction] ++ back)) world
      (out, next) later after ↔ _ := @comes_consumer _ _ _ _ _ _ _ _ _ ⟨next, later, after⟩ hrefers
        hjunction
  rw [hconsumer]
  rw [Junction.poll_shared hempty hdry]
  simp only [Flow.comes_bind]
  constructor
  · rintro ⟨held, middle, ⟨⟨given, asked⟩, _, _, hask, hpure⟩, hnext, hlater⟩
    obtain ⟨hheld, rfl, rfl⟩ := Flow.comes_pure.mp hpure
    cases hheld
    exact ⟨asked, _, hask, hnext, hlater⟩
  · rintro ⟨asked, middle, hask, hnext, hlater⟩
    exact ⟨_, middle, ⟨(out, asked), middle, after, hask, Flow.comes_pure.mpr ⟨rfl, rfl, rfl⟩⟩,
      hnext, hlater⟩

namespace Leads

variable {below : List (Junction Stage)} {own : Stage} {passages : List Passage}

/-- Asking a stage is to ask once the stage that it leads from. The answer is what has become of the
answer of that one, and it leads from what is left of that one. -/
theorem inward (h : Leads count below own passages junctions stage)
    (hbelow : Junction.Prompts false below) (hown : own.Prompt false below.length)
    {back : List (Junction Stage)}
    (hcomes : Comes (poll setting budget stage) (junctions ++ back) world (out, next) later after) :
    ∃ less given left under front,
      Comes (poll setting less own) below world (given, left) under after ∧
      out = given.mapAnswer (Passage.alterAll setting.now passages count) ∧
      later = front ++ back ∧ front.length = junctions.length ∧
      ∀ answer, given = .answer answer → Leads (count + 1) under left passages front next := by
  induction h generalizing budget back out next later after with
  | here =>
      obtain ⟨-, under, hunder, -, rfl, hasked⟩ :=
        (poll_confined setting budget hown).inward rfl hbelow hcomes
      refine ⟨budget, out, next, under, under, hasked, ?_, rfl, hunder, fun _ _ => .here⟩
      cases out <;> rfl
  | behind junction _ ih =>
      rw [List.append_assoc] at hcomes
      obtain ⟨less, given, left, under, front, hasked, hout, rfl, hfront, hleads⟩ := ih hcomes
      refine ⟨less, given, left, under, front ++ [junction], hasked, hout,
        (List.append_assoc ..).symm, by simp [hfront], ?_⟩
      exact fun answer hanswer => .behind junction (hleads answer hanswer)
  | tagged id _ ih =>
      cases budget with
      | zero => exact absurd hcomes Flow.not_comes_failure
      | succ budget =>
          obtain ⟨_, asked, hask, rfl, rfl⟩ := comes_tagged.mp hcomes
          obtain ⟨less, given, left, under, front, hasked, rfl, rfl, hfront, hleads⟩ := ih hask
          refine ⟨less, given, left, under, front, hasked, by cases given <;> rfl, rfl, hfront, ?_⟩
          rintro answer rfl
          exact .tagged id (hleads answer rfl)
  | mapped transform _ ih =>
      cases budget with
      | zero => exact absurd hcomes Flow.not_comes_failure
      | succ budget =>
          obtain ⟨_, asked, hask, rfl, rfl⟩ := comes_mapped.mp hcomes
          obtain ⟨less, given, left, under, front, hasked, rfl, rfl, hfront, hleads⟩ := ih hask
          refine ⟨less, given, left, under, front, hasked, by cases given <;> rfl, rfl, hfront, ?_⟩
          exact fun answer hanswer => .mapped transform (hleads answer hanswer)
  | @shared _ junctions stage index junction hrefers hempty hdry _ ih =>
      cases budget with
      | zero => exact absurd hcomes Flow.not_comes_failure
      | succ budget =>
          obtain ⟨asked, _, hask, rfl, rfl⟩ := (comes_shared hrefers hempty hdry).mp hcomes
          obtain ⟨less, given, left, under, front, hasked, hout, rfl, hfront, hleads⟩ := ih hask
          refine ⟨less, given, left, under, front ++ [junction.settle index asked out], hasked,
            hout, ?_, by simp [hfront], ?_⟩
          · rw [← hfront, List.append_assoc, List.set_append_right _ _ le_rfl, Nat.sub_self]
            rfl
          · rintro answer rfl
            subst hout
            refine .shared (hfront.symm ▸ hrefers) ?_ ?_ ?_
            · exact (Junction.waitingFor_settle_answer ..).trans hempty
            · exact (Junction.dry_settle_answer ..).trans hdry
            · rw [Junction.upstream_settle]
              exact hleads answer rfl

/-- Whatever asking the stage comes to that another one leads from, asking that other one comes to
what becomes of it. -/
theorem outward (h : Leads count below own passages junctions stage)
    (hbelow : Junction.Prompts false below) (hown : own.Prompt false below.length)
    {less : Nat} {given : Poll} {left : Stage} {under : List (Junction Stage)}
    (hcomes : Comes (poll setting less own) below world (given, left) under after)
    (back : List (Junction Stage)) :
    ∃ budget next later, Comes (poll setting budget stage) (junctions ++ back) world
      (given.mapAnswer (Passage.alterAll setting.now passages count), next) later after := by
  induction h generalizing back with
  | here =>
      refine ⟨less, left, under ++ back, ?_⟩
      have hwider : Comes (poll setting less own) (below ++ back) world (given, left)
          (under ++ back) after := (poll_confined setting less hown).outward rfl hbelow hcomes
      cases given <;> exact hwider
  | behind junction _ ih =>
      rw [List.append_assoc]
      exact ih ([junction] ++ back)
  | tagged id _ ih =>
      obtain ⟨budget, next, later, hask⟩ := ih back
      exact ⟨budget + 1, _, later, comes_tagged.mpr
        ⟨_, next, hask, by cases given <;> rfl, rfl⟩⟩
  | mapped transform _ ih =>
      obtain ⟨budget, next, later, hask⟩ := ih back
      exact ⟨budget + 1, _, later, comes_mapped.mpr
        ⟨_, next, hask, by cases given <;> rfl, rfl⟩⟩
  | @shared _ _ _ _ junction hrefers hempty hdry _ ih =>
      obtain ⟨budget, next, later, hask⟩ := ih ([junction] ++ back)
      exact ⟨budget + 1, _, _, (comes_shared hrefers hempty hdry).mpr
        ⟨next, later, hask, rfl, rfl⟩⟩

end Leads

end Stage

end Pipework
