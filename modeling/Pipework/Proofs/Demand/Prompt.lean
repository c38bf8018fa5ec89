import Pipework.Proofs.Stage.Junction

/-! # Stages that never wait

A pipe that is executed without waiting is made of prompt stages: none of their tasks, jobs, scripts
and pairings is one of those that wait, and they refer only to junctions before a bound, whose
upstreams are prompt in their turn. A prompt stage is fresh if nothing has been asked of any part of
it. All kinds of stages are covered, fixtures too.
-/

namespace Pipework

/-- The records of a task are worked on at once. -/
def Task.IsPrompt : Task → Prop
  | .fetch _ mode => mode = .sync
  | .loop _ _ mode => mode = .sync

/-- The job goes on without waiting, as long as the stage that it collects from does. -/
def Job.IsPrompt {σ : Type} : Job σ → Prop
  | .load _ _ waits => waits = false
  | .instantiate _ _ mode _ => mode = .sync
  | .collect .. => True

/-- Nothing waits for any of the consumers, and the upstream has not ended. -/
structure Junction.Idle {σ : Type} (junction : Junction σ) : Prop where
  empty : ∀ index, junction.waitingFor index = []
  undried : junction.dry = false

/-- A stage that never waits and refers to no junction from a bound on. If it is fresh, nothing has
been asked of it and of what it consists of. -/
inductive Stage.Prompt (fresh : Bool) : Nat → Stage → Prop
  | sentinel {bound : Nat} : Prompt fresh bound .sentinel
  | constant {bound : Nat} (record : Record) : Prompt fresh bound (.constant record)
  | once {bound : Nat} {record? : Option Record} (hfresh : fresh = true → record?.isSome = true) :
      Prompt fresh bound (.once record?)
  | scripted {bound : Nat} {script : Script}
      (hanswers : ∀ entry ∈ script.entries, entry.isAnswer = true) :
      Prompt fresh bound (.scripted script)
  | tagged {bound index : Nat} {inner : Stage} (id : ModuleId) (hfresh : fresh = true → index = 0)
      (hinner : Prompt fresh bound inner) : Prompt fresh bound (.tagged id index inner)
  | mapped {bound : Nat} {inner : Stage} (transform : Transform)
      (hinner : Prompt fresh bound inner) : Prompt fresh bound (.mapped transform inner)
  | batches {bound : Nat} {task : Task} {state : Batches Stage (Job Stage)}
      (htask : task.IsPrompt) (hfresh : fresh = true → state = .start state.input)
      (hinput : Prompt fresh bound state.input)
      (hjob : ∀ job, state.job = some job → job.IsPrompt)
      (hcollect : ∀ rule item stage found, state.job = some (.collect rule item stage found) →
        Prompt fresh 0 stage) : Prompt fresh bound (.batches task state)
  | tally {bound : Nat} {state : Tally Stage} (hfresh : fresh = true → state = .start state.input)
      (hinput : Prompt fresh bound state.input) : Prompt fresh bound (.tally state)
  | pairing {bound : Nat} {state : Pairing Stage} (hmode : state.mode = .sync)
      (hmain : state.main.fresh = state.main) (hother : state.other.fresh = state.other)
      (hinput : ∀ input, state.main.input = some input → Prompt fresh bound input)
      (hpartner : ∀ input, state.other.input = some input → Prompt fresh bound input) :
      Prompt fresh bound (.pairing state)
  | sampling {bound : Nat} {state : Sampling Stage}
      (hinputs : ∀ name input, (name, some input) ∈ state.inputs → Prompt fresh bound input) :
      Prompt fresh bound (.sampling state)
  | probe {bound : Nat} {inner : Stage} (id : ModuleId) (hinner : Prompt fresh bound inner) :
      Prompt fresh bound (.probe id inner)
  | branch {bound place : Nat} (index : Nat) (hplace : place < bound) :
      Prompt fresh bound (.branch place index)
  | tap {bound place : Nat} (hplace : place < bound) : Prompt fresh bound (.tap place)
  | closed {bound : Nat} {junctions : List (Junction Stage)} {out : Stage}
      (hidle : fresh = true → ∀ junction ∈ junctions, junction.Idle)
      (hupstream : ∀ place junction, junctions[place]? = some junction →
        Prompt fresh place junction.upstream)
      (hout : Prompt fresh junctions.length out) : Prompt fresh bound (.closed junctions out)

namespace Stage.Prompt

variable {fresh : Bool} {bound : Nat} {stage : Stage}

/-- A stage that may refer to less may refer to more. -/
theorem mono {narrow : Nat} (h : stage.Prompt fresh narrow) (hle : narrow ≤ bound) :
    stage.Prompt fresh bound := by
  induction h generalizing bound with
  | sentinel => exact .sentinel
  | constant record => exact .constant record
  | once hfresh => exact .once hfresh
  | scripted hanswers => exact .scripted hanswers
  | tagged id hfresh _ ih => exact .tagged id hfresh (ih hle)
  | mapped transform _ ih => exact .mapped transform (ih hle)
  | batches htask hfresh _ hjob hcollect ih _ =>
      exact .batches htask hfresh (ih hle) hjob hcollect
  | tally hfresh _ ih => exact .tally hfresh (ih hle)
  | pairing hmode hmain hother _ _ ih ihpartner =>
      exact .pairing hmode hmain hother (fun input hinput => ih input hinput hle)
        fun input hinput => ihpartner input hinput hle
  | sampling _ ih => exact .sampling fun name input hinput => ih name input hinput hle
  | probe id _ ih => exact .probe id (ih hle)
  | branch index hplace => exact .branch index (hplace.trans_le hle)
  | tap hplace => exact .tap (hplace.trans_le hle)
  | closed hidle hupstream hout => exact .closed hidle hupstream hout

/-- What has not been asked may as well have been asked. -/
theorem aged (h : stage.Prompt fresh bound) : stage.Prompt false bound := by
  induction h with
  | sentinel => exact .sentinel
  | constant record => exact .constant record
  | once => exact .once nofun
  | scripted hanswers => exact .scripted hanswers
  | tagged id _ _ ih => exact .tagged id nofun ih
  | mapped transform _ ih => exact .mapped transform ih
  | batches htask _ _ hjob _ ih ihcollect => exact .batches htask nofun ih hjob ihcollect
  | tally _ _ ih => exact .tally nofun ih
  | pairing hmode hmain hother _ _ ih ihpartner => exact .pairing hmode hmain hother ih ihpartner
  | sampling _ ih => exact .sampling ih
  | probe id _ ih => exact .probe id ih
  | branch index hplace => exact .branch index hplace
  | tap hplace => exact .tap hplace
  | closed _ _ _ ih ihout => exact .closed nofun ih ihout

end Stage.Prompt

/-- The upstreams of the junctions are prompt, and each refers to earlier junctions only. -/
def Junction.Prompts (fresh : Bool) (junctions : List (Junction Stage)) : Prop :=
  ∀ (place : Nat) (junction : Junction Stage), junctions[place]? = some junction →
    junction.upstream.Prompt fresh place

namespace Junction.Prompts

variable {fresh : Bool} {junctions : List (Junction Stage)} {junction : Junction Stage}

theorem nil : Prompts fresh [] :=
  nofun

theorem aged (h : Prompts fresh junctions) : Prompts false junctions :=
  fun place junction hjunction => (h place junction hjunction).aged

/-- One more junction behind the others. -/
theorem concat (h : Prompts fresh junctions)
    (hjunction : junction.upstream.Prompt fresh junctions.length) :
    Prompts fresh (junctions ++ [junction]) := by
  intro place held hheld
  rw [List.getElem?_append] at hheld
  split at hheld
  · exact h place held hheld
  next hplace =>
    rw [List.getElem?_singleton] at hheld
    split at hheld
    next heq =>
      cases hheld
      exact hjunction.mono (Nat.le_of_not_lt hplace)
    · cases hheld

/-- Another junction at a place. -/
theorem set (h : Prompts fresh junctions) {place : Nat}
    (hjunction : junction.upstream.Prompt fresh place) :
    Prompts fresh (junctions.set place junction) := by
  intro other held hheld
  rcases eq_or_ne place other with rfl | hne
  · rw [List.getElem?_set_self'] at hheld
    obtain ⟨_, -, rfl⟩ := Option.map_eq_some_iff.mp hheld
    exact hjunction
  · rw [List.getElem?_set_ne hne] at hheld
    exact h other held hheld

theorem take (h : Prompts fresh junctions) (size : Nat) : Prompts fresh (junctions.take size) := by
  intro place junction hjunction
  rw [List.getElem?_take] at hjunction
  split at hjunction
  · exact h place junction hjunction
  · cases hjunction

/-- What is done to junctions may leave their upstreams as they are. -/
theorem map (h : Prompts fresh junctions) {change : Junction Stage → Junction Stage}
    (hchange : ∀ junction, (change junction).upstream = junction.upstream) :
    Prompts fresh (junctions.map change) := by
  intro place junction hjunction
  rw [List.getElem?_map] at hjunction
  obtain ⟨held, hheld, rfl⟩ := Option.map_eq_some_iff.mp hjunction
  rw [hchange]
  exact h place held hheld

/-- Junctions in front of a bound and those from it on. -/
theorem of_take_drop {front : List (Junction Stage)} (hfront : Prompts fresh front)
    (h : Prompts fresh junctions) :
    Prompts fresh (front ++ junctions.drop front.length) := by
  intro place junction hjunction
  rw [List.getElem?_append] at hjunction
  split at hjunction
  · exact hfront place junction hjunction
  next hplace =>
    rw [List.getElem?_drop, Nat.add_sub_cancel' (Nat.le_of_not_lt hplace)] at hjunction
    exact h place junction hjunction

end Junction.Prompts

end Pipework
