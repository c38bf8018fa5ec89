import Pipework.Proofs.Answers.Supply

/-! # What tallies come to

A tally gives one answer and ends: the first error of its input, or the number of its records. But a
record with the key of the sentinel counts as the end of the input, wherever it comes from.
-/

namespace Pipework

namespace Answer

/-- Whether the answer is a record with the key of the sentinel. -/
def isKeyed : Answer → Bool
  | .ok record => record.isSentinel
  | .error _ => false

/-- The answers before the first record with the key of the sentinel. -/
def beforeKey (answers : List Answer) : List Answer :=
  answers.takeWhile fun answer => !isKeyed answer

variable {answers : List Answer} {record : Record} {error : PipeError}

@[simp]
theorem beforeKey_nil : beforeKey [] = [] :=
  rfl

@[simp]
theorem beforeKey_error :
    beforeKey (.error error :: answers) = .error error :: beforeKey answers :=
  rfl

theorem beforeKey_keyed (h : record.isSentinel = true) : beforeKey (.ok record :: answers) = [] := by
  simp [beforeKey, isKeyed, h]

theorem beforeKey_plain (h : record.isSentinel = false) :
    beforeKey (.ok record :: answers) = .ok record :: beforeKey answers := by
  simp [beforeKey, isKeyed, h]

@[simp]
theorem beforeKey_records (records : List Record) : beforeKey (records.map .ok) =
    (records.takeWhile fun record => !record.isSentinel).map .ok :=
  List.takeWhile_map ..

/-- What comes before the key is the beginning of the answers. -/
theorem exists_append (answers : List Answer) : ∃ rest, answers = beforeKey answers ++ rest :=
  ⟨_, List.takeWhile_append_dropWhile.symm⟩

/-- Answers are all records, or else there is a first error. -/
theorem records_or_error (answers : List Answer) :
    (∃ records : List Record, answers = records.map .ok) ∨
      ∃ (records : List Record) (error : PipeError) (rest : List Answer),
        answers = records.map .ok ++ .error error :: rest := by
  induction answers with
  | nil => exact .inl ⟨[], rfl⟩
  | cons answer answers ih =>
      cases answer with
      | error error => exact .inr ⟨[], error, answers, rfl⟩
      | ok record =>
          rcases ih with ⟨records, rfl⟩ | ⟨records, error, rest, rfl⟩
          · exact .inl ⟨record :: records, rfl⟩
          · exact .inr ⟨record :: records, error, rest, rfl⟩

end Answer

open Answer (beforeKey)

namespace Tally

/-- The first error among answers, or else what their number comes to, counted on from a number. -/
def verdict (count : Nat) : List Answer → Answer
  | [] => .ok (record count)
  | .error error :: _ => .error error
  | .ok _ :: rest => verdict (count + 1) rest

variable {count : Nat} {answers rest : List Answer} {records : List Record}

theorem record_injective : Function.Injective record := by
  intro first second h
  have hvalue : (record first).get? numberKey = (record second).get? numberKey := by rw [h]
  simpa [record, Dict.get?_single] using hvalue

@[simp]
theorem verdict_append : verdict count (records.map .ok ++ rest) =
    verdict (count + records.length) rest := by
  induction records generalizing count with
  | nil => rfl
  | cons record records ih =>
      rw [List.length_cons, Nat.add_comm records.length, ← Nat.add_assoc]
      exact ih

@[simp]
theorem verdict_records : verdict count (records.map .ok) = .ok (record (count + records.length)) := by
  have happend := @verdict_append count [] records
  rwa [List.append_nil] at happend

/-- Among answers whose number counts there is no error. -/
theorem verdict_eq_ok {number : Nat} (h : verdict count answers = .ok (record number)) :
    number = count + answers.length := by
  rcases Answer.records_or_error answers with ⟨records, rfl⟩ | ⟨records, error, rest, rfl⟩
  · rw [verdict_records, Except.ok.injEq] at h
    rw [List.length_map]
    exact (record_injective h).symm
  · rw [verdict_append] at h
    cases h

/-- A record with the key makes a difference exactly if no error comes before it. -/
theorem verdict_beforeKey (answers : List Answer) :
    verdict 0 (beforeKey answers) = verdict 0 answers ↔
      beforeKey answers = answers ∨ ∃ error, .error error ∈ beforeKey answers := by
  obtain ⟨rest, hsplit⟩ := Answer.exists_append answers
  rcases Answer.records_or_error (beforeKey answers) with
    ⟨records, hbefore⟩ | ⟨records, error, more, hbefore⟩
  · rw [hbefore] at hsplit ⊢
    subst hsplit
    constructor
    · intro h
      rw [verdict_records] at h
      have hlength := verdict_eq_ok h.symm
      rw [List.length_append, List.length_map] at hlength
      obtain rfl : rest = [] := List.eq_nil_of_length_eq_zero (by omega)
      exact .inl (List.append_nil _).symm
    · rintro (hall | ⟨error, herror⟩)
      · rw [← hall]
      · simp at herror
  · refine iff_of_true ?_ (.inr ⟨error, by simp [hbefore]⟩)
    rw [hbefore] at hsplit ⊢
    rw [hsplit, List.append_assoc, verdict_append, verdict_append]
    rfl

end Tally

namespace Scene.Supplies

variable {setting : Setting} {input after : Scene} {answers : List Answer}

/-- A tally that is asked gives its verdict. The induction is on the answers of its input: each record
is counted and the input asked again. -/
theorem tally_attains (h : Supplies setting input answers after) (count : Nat) :
    ∃ source counted junctions world,
      Attains setting ⟨.tally ⟨input.stage, count, false⟩, input.junctions, input.world⟩
        (.answer (Tally.verdict count (beforeKey answers)))
        ⟨.tally ⟨source, counted, true⟩, junctions, world⟩ := by
  induction h generalizing count with
  | ended h => exact ⟨_, count, _, _, h.stop (.tally count) rfl⟩
  | @answer _ _ _ answer answers h _ ih =>
      cases answer with
      | error error => exact ⟨_, count, _, _, h.stop (.tally count) rfl⟩
      | ok item =>
          cases hkeyed : item.isSentinel with
          | true =>
              rw [Answer.beforeKey_keyed hkeyed]
              exact ⟨_, count, _, _, h.stop (.tally count) (if_pos hkeyed)⟩
          | false =>
              obtain ⟨source, counted, junctions, world, hrest⟩ := ih (count + 1)
              rw [Answer.beforeKey_plain hkeyed]
              exact ⟨source, counted, junctions, world, h.go (.tally count)
                (if_neg (Bool.eq_false_iff.mp hkeyed)) hrest⟩

/-- A tally supplies one answer. -/
theorem tally (h : Supplies setting input answers after) (count : Nat) : ∃ done,
    Supplies setting ⟨.tally ⟨input.stage, count, false⟩, input.junctions, input.world⟩
      [Tally.verdict count (beforeKey answers)] done := by
  obtain ⟨source, counted, junctions, world, hattains⟩ := h.tally_attains count
  exact ⟨_, .answer hattains (.ended (.ready (.dry (.tally ..)) nofun))⟩

end Scene.Supplies

end Pipework
