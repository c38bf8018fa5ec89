import Mathlib.Data.Seq.Basic
import Pipework.Proofs.Answers.Batching

/-! # Rows of batches

What is to come of a sequence of answers, finite or without end, if a batch is made of each record.
The answers are taken up to the first record with the key of the sentinel. Of each record taken comes
its batch, and of each error the error. The function that makes the batches may have a state: it is
called on the records in their order, once on each.
-/

namespace Pipework

open Stream' (Seq)

/-- What is made of a record: the records of a batch, or the error for which there is none. -/
abbrev Batch := Except PipeError (List Record)

namespace Answer

/-- Whether there is a record with the key of the sentinel among answers. -/
def hasKey (answers : List Answer) : Bool :=
  answers.any isKeyed

variable {answers more : List Answer}

theorem throughKey_append_of_hasKey (h : hasKey answers = true) :
    throughKey (answers ++ more) = throughKey answers := by
  induction answers with
  | nil => cases h
  | cons answer rest ih =>
      cases hkeyed : isKeyed answer with
      | true => simp [throughKey, hkeyed]
      | false =>
          have hrest : hasKey rest = true := by simpa [hasKey, hkeyed] using h
          simp [throughKey, hkeyed, ih hrest]

theorem throughKey_append_of_not_hasKey (h : hasKey answers = false) :
    throughKey (answers ++ more) = answers ++ throughKey more := by
  induction answers with
  | nil => rfl
  | cons answer rest ih =>
      obtain ⟨hkeyed, hrest⟩ : isKeyed answer = false ∧ hasKey rest = false := by
        simpa [hasKey] using h
      simp [throughKey, hkeyed, ih hrest]

theorem throughKey_of_not_hasKey (h : hasKey answers = false) : throughKey answers = answers := by
  have hall : throughKey (answers ++ []) = answers ++ throughKey [] :=
    throughKey_append_of_not_hasKey h
  rwa [throughKey, List.append_nil] at hall

@[simp]
theorem throughKey_singleton (answer : Answer) : throughKey [answer] = [answer] := by
  simp [throughKey]

theorem hasKey_append : hasKey (answers ++ more) = (hasKey answers || hasKey more) :=
  List.any_append

/-- The answers that are taken of a sequence while it gives so many. -/
def taken (items : Seq Answer) (count : ℕ) : List Answer :=
  throughKey (items.take count)

/-- Whether a sequence has ended after so many answers, or has given a record with the key. -/
def Over (items : Seq Answer) (count : ℕ) : Prop :=
  items.get? count = none ∨ hasKey (items.take count) = true

/-- Whether so many answers of a sequence are taken: it is not over before. -/
def Takes (items : Seq Answer) (count : ℕ) : Prop :=
  ∀ earlier < count, ¬ Over items earlier

variable {items : Seq Answer} {count : ℕ}

theorem take_succ (items : Seq Answer) (count : ℕ) :
    items.take (count + 1) = items.take count ++ (items.get? count).toList := by
  induction count generalizing items with
  | zero => cases items <;> simp
  | succ count ih =>
      cases items with
      | nil => simp
      | cons answer rest =>
          rw [Seq.take_succ_cons, ih, Seq.take_succ_cons, Seq.get?_cons_succ, List.cons_append]

@[simp]
theorem taken_zero (items : Seq Answer) : taken items 0 = [] := by
  simp [taken, throughKey]

theorem taken_succ_of_over (h : Over items count) :
    taken items (count + 1) = taken items count := by
  unfold taken
  rw [take_succ]
  rcases h with hnone | hkey
  · rw [hnone, Option.toList_none, List.append_nil]
  · exact throughKey_append_of_hasKey hkey

theorem over_succ (h : Over items count) : Over items (count + 1) := by
  rcases h with hnone | hkey
  · exact .inl (items.le_stable (Nat.le_succ count) hnone)
  · right
    rw [take_succ, hasKey_append, hkey, Bool.true_or]

theorem over_of_le {later : ℕ} (h : Over items count) (hle : count ≤ later) : Over items later := by
  induction hle with
  | refl => exact h
  | step _ ih => exact over_succ ih

theorem exists_of_not_over (h : ¬ Over items count) : ∃ answer, items.get? count = some answer :=
  Option.ne_none_iff_exists'.mp fun hnone => h (.inl hnone)

theorem hasKey_take_of_not_over (h : ¬ Over items count) : hasKey (items.take count) = false :=
  Bool.eq_false_iff.mpr fun hkey => h (.inr hkey)

theorem taken_succ_of_not_over (h : ¬ Over items count) {answer : Answer}
    (hanswer : items.get? count = some answer) :
    taken items (count + 1) = taken items count ++ [answer] := by
  have hkey := hasKey_take_of_not_over h
  unfold taken
  rw [take_succ, hanswer, Option.toList_some, throughKey_append_of_not_hasKey hkey,
    throughKey_singleton, throughKey_of_not_hasKey hkey]

theorem hasKey_take_succ (h : ¬ Over items count) {answer : Answer}
    (hanswer : items.get? count = some answer) :
    hasKey (items.take (count + 1)) = isKeyed answer := by
  rw [take_succ, hanswer, hasKey_append, hasKey_take_of_not_over h]
  simp [hasKey]

theorem Takes.succ (h : Takes items count) (hover : ¬ Over items count) :
    Takes items (count + 1) := by
  intro earlier hlt
  rcases Nat.lt_succ_iff_lt_or_eq.mp hlt with hlt | rfl
  · exact h earlier hlt
  · exact hover

end Answer

namespace Batches

variable {σ : Type}

/-- The batches that are made of records, one behind the other, and errors in their places. -/
def row (make : Record → StateM σ Batch) : List Answer → StateM σ (List Answer)
  | [] => return []
  | .error error :: rest => return .error error :: (← row make rest)
  | .ok item :: rest => do
      let batch ← make item
      return answersOf batch ++ (← row make rest)

theorem row_append (make : Record → StateM σ Batch) (answers more : List Answer) :
    row make (answers ++ more) = do
      let first ← row make answers
      return first ++ (← row make more) := by
  induction answers with
  | nil => simp [row]
  | cons answer rest ih =>
      cases answer with
      | error error => simp only [row, ih, bind_assoc, pure_bind, List.cons_append]
      | ok item => simp only [row, ih, bind_assoc, pure_bind, List.cons_append, List.append_assoc]

variable (make : Record → StateM σ Batch) (items : Seq Answer) (state : σ)

/-- What has come of a sequence after so many of its answers. -/
def due (count : ℕ) : List Answer :=
  ((row make (Answer.taken items count)).run state).1

/-- The state of the function that makes the batches after so many answers of a sequence. -/
def stateAfter (count : ℕ) : σ :=
  ((row make (Answer.taken items count)).run state).2

variable {make items state} {count : ℕ}

theorem due_zero : due make items state 0 = [] := by
  rw [due, Answer.taken_zero]
  rfl

theorem stateAfter_zero : stateAfter make items state 0 = state := by
  rw [stateAfter, Answer.taken_zero]
  rfl

theorem due_succ_of_over (h : Answer.Over items count) :
    due make items state (count + 1) = due make items state count := by
  rw [due, Answer.taken_succ_of_over h, due]

section Succ

variable (h : ¬ Answer.Over items count)
include h

theorem due_succ_of_error {error : PipeError} (hanswer : items.get? count = some (.error error)) :
    due make items state (count + 1) = due make items state count ++ [.error error] := by
  simp only [due, Answer.taken_succ_of_not_over h hanswer, row_append]
  rfl

theorem stateAfter_succ_of_error {error : PipeError}
    (hanswer : items.get? count = some (.error error)) :
    stateAfter make items state (count + 1) = stateAfter make items state count := by
  simp only [stateAfter, Answer.taken_succ_of_not_over h hanswer, row_append]
  rfl

variable {item : Record} (hanswer : items.get? count = some (.ok item))
include hanswer

theorem due_succ_of_ok : due make items state (count + 1) = due make items state count ++
    answersOf ((make item).run (stateAfter make items state count)).1 := by
  simp only [due, stateAfter, Answer.taken_succ_of_not_over h hanswer, row_append]
  exact congrArg _ (List.append_nil _)

theorem stateAfter_succ_of_ok : stateAfter make items state (count + 1) =
    ((make item).run (stateAfter make items state count)).2 := by
  simp only [stateAfter, Answer.taken_succ_of_not_over h hanswer, row_append]
  rfl

end Succ

/-- What has come stays when more is taken. -/
theorem due_grows_succ : due make items state count <+: due make items state (count + 1) := by
  by_cases hover : Answer.Over items count
  · rw [due_succ_of_over hover]
  obtain ⟨answer, hanswer⟩ := Answer.exists_of_not_over hover
  cases answer with
  | error error =>
      rw [due_succ_of_error hover hanswer]
      exact List.prefix_append ..
  | ok item =>
      rw [due_succ_of_ok hover hanswer]
      exact List.prefix_append ..

theorem due_grows {later : ℕ} (hle : count ≤ later) :
    due make items state count <+: due make items state later := by
  induction hle with
  | refl => exact List.prefix_rfl
  | step _ ih => exact ih.trans due_grows_succ

theorem due_eq_of_over (h : Answer.Over items count) {later : ℕ} (hle : count ≤ later) :
    due make items state later = due make items state count := by
  induction hle with
  | refl => rfl
  | step hle ih => rw [due_succ_of_over (Answer.over_of_le h hle), ih]

/-- When a sequence is over all that is to come of it has come. -/
theorem length_due_le_of_over {answers : List Answer} (hdue : due make items state count = answers)
    (h : Answer.Over items count) (other : ℕ) :
    (due make items state other).length ≤ answers.length := by
  rw [← hdue]
  rcases Nat.le_total other count with hle | hle
  · exact (due_grows hle).length_le
  · rw [due_eq_of_over h hle]

end Batches

end Pipework
