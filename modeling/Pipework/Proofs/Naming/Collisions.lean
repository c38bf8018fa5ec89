import Pipework.Builtin

/-! # Names that collide

Normalizing a name forgets which separators it had and whether the underscore in front of a digit was
its own. Two names become one identifier exactly if they differ in nothing else. Types are listed
under their names behind `pipe`, but those of registered pipes under their normalized names, so that
two types may be listed under one name.
-/

namespace Pipework

namespace Ident

/-- A name with an underscore for each of its separators. -/
def plainName (name : String) : String :=
  String.ofList (name.toList.map plain)

@[simp]
theorem toList_plainName (name : String) : (plainName name).toList = name.toList.map plain :=
  String.toList_ofList

/-- A name that starts with a digit, and the same name behind an underscore. -/
inductive Guards : List Char → List Char → Prop
  | intro {digit : Char} {rest : List Char} (h : Decimal.isDigit digit = true) :
      Guards (digit :: rest) ('_' :: digit :: rest)

/-- What guarding does to a name: nothing, or it puts an underscore in front of a digit. -/
theorem guardDigit_cases (chars : List Char) :
    guardDigit chars = chars ∨ Guards chars (guardDigit chars) := by
  cases chars with
  | nil => exact .inl rfl
  | cons first rest =>
      rw [guardDigit]
      split
      next hdigit => exact .inr (.intro hdigit)
      next => exact .inl rfl

theorem Guards.guardDigit_eq {first second : List Char} (h : Guards first second) :
    guardDigit first = second ∧ guardDigit second = second := by
  cases h with
  | intro hdigit => exact ⟨if_pos hdigit, rfl⟩

theorem guardDigit_eq_iff {first second : List Char} :
    guardDigit first = guardDigit second ↔
      first = second ∨ Guards first second ∨ Guards second first := by
  constructor
  · intro h
    rcases guardDigit_cases first with hfirst | hfirst
    · rcases guardDigit_cases second with hsecond | hsecond
      · exact .inl (hfirst.symm.trans (h.trans hsecond))
      · rw [← h, hfirst] at hsecond
        exact .inr (.inr hsecond)
    · rw [h] at hfirst
      rcases guardDigit_cases second with hsecond | hsecond
      · rw [hsecond] at hfirst
        exact .inr (.inl hfirst)
      · -- Both have lost nothing but the underscore in front of them.
        generalize guardDigit second = guarded at hfirst hsecond
        cases hfirst
        cases hsecond
        exact .inl rfl
  · rintro (rfl | h | h)
    · rfl
    · obtain ⟨hfirst, hsecond⟩ := h.guardDigit_eq
      rw [hfirst, hsecond]
    · obtain ⟨hsecond, hfirst⟩ := h.guardDigit_eq
      rw [hfirst, hsecond]

/-- Two names that normalizing does not tell apart: they differ at most in their separators, or in
nothing else but an underscore in front of a digit. -/
def Collide (first second : String) : Prop :=
  plainName first = plainName second ∨
    Guards (plainName first).toList (plainName second).toList ∨
      Guards (plainName second).toList (plainName first).toList

theorem normalize_eq (name : String) :
    normalize name = String.ofList (guardDigit (plainName name).toList) := by
  rw [toList_plainName]
  rfl

theorem normalize_eq_iff {first second : String} :
    normalize first = normalize second ↔ Collide first second := by
  rw [normalize_eq, normalize_eq, String.ofList_inj, guardDigit_eq_iff, String.toList_inj]
  rfl

instance (first second : String) : Decidable (Collide first second) :=
  decidable_of_iff _ normalize_eq_iff

end Ident

namespace TypeName

open Ident

/-- A type name is that of a registered pipe, or it does not start like one. -/
theorem pipe_or_plain (type : String) : (∃ name, type = ofPipe name) ∨
    pipeStem.toList.isPrefixOf type.toList = false ∧ callName type = "pipe" ++ type := by
  cases hstem : pipeStem.toList.isPrefixOf type.toList with
  | false =>
      refine .inr ⟨rfl, ?_⟩
      rw [callName, hstem]
      rfl
  | true =>
      obtain ⟨rest, hrest⟩ := List.isPrefixOf_iff_prefix.mp hstem
      refine .inl ⟨String.ofList rest, String.toList_injective ?_⟩
      rw [ofPipe, String.toList_append, String.toList_ofList, hrest]

theorem isPrefixOf_ofPipe (name : String) :
    pipeStem.toList.isPrefixOf (ofPipe name).toList = true := by
  rw [ofPipe, String.toList_append]
  exact List.isPrefixOf_iff_prefix.mpr (List.prefix_append ..)

/-- A registered pipe is listed under its name without separators. -/
theorem callName_ofPipe (name : String) : callName (ofPipe name) = "pipe_" ++ plainName name := by
  apply String.toList_injective
  rw [callName, if_pos (isPrefixOf_ofPipe name), normalize, String.toList_ofList, ofPipe,
    String.toList_append, List.map_append, String.toList_append, toList_plainName]
  rfl

/-- Two type names under which the same name is listed. Of two different ones both are those of
registered pipes, whose names differ in separators only, or one is, and the other is what becomes of
its name behind an underscore. -/
inductive Alike : String → String → Prop
  | refl (type : String) : Alike type type
  | pipes {first second : String} (h : plainName first = plainName second) :
      Alike (ofPipe first) (ofPipe second)
  | pipeFirst (name : String) : Alike (ofPipe name) ("_" ++ plainName name)
  | pipeSecond (name : String) : Alike ("_" ++ plainName name) (ofPipe name)

theorem callName_underscore (name : String) : callName ("_" ++ name) = "pipe" ++ ("_" ++ name) := by
  have hplain : pipeStem.toList.isPrefixOf ("_" ++ name).toList = false := by
    rw [String.toList_append]
    rfl
  rw [callName, hplain]
  rfl

theorem append_underscore (name : String) : "pipe" ++ ("_" ++ name) = "pipe_" ++ name := by
  rw [← String.append_assoc]
  rfl

theorem callName_eq_iff {first second : String} :
    callName first = callName second ↔ Alike first second := by
  constructor
  · intro h
    rcases pipe_or_plain first with ⟨name, rfl⟩ | ⟨-, hfirst⟩
    · rw [callName_ofPipe] at h
      rcases pipe_or_plain second with ⟨other, rfl⟩ | ⟨-, hsecond⟩
      · rw [callName_ofPipe] at h
        exact .pipes ((String.append_right_inj _).mp h)
      · rw [hsecond, ← append_underscore] at h
        rw [← (String.append_right_inj _).mp h]
        exact .pipeFirst name
    · rw [hfirst] at h
      rcases pipe_or_plain second with ⟨other, rfl⟩ | ⟨-, hsecond⟩
      · rw [callName_ofPipe, ← append_underscore] at h
        rw [(String.append_right_inj _).mp h]
        exact .pipeSecond other
      · rw [hsecond] at h
        rw [(String.append_right_inj _).mp h]
        exact .refl second
  · intro h
    cases h with
    | refl => rfl
    | pipes h => rw [callName_ofPipe, callName_ofPipe, h]
    | pipeFirst name => rw [callName_ofPipe, callName_underscore, append_underscore]
    | pipeSecond name => rw [callName_ofPipe, callName_underscore, append_underscore]

/-- A built-in type is alike no other type. -/
theorem Alike.eq_builtin {type : Builtin} {other : String} (h : Alike type.name other) :
    other = type.name := by
  have hplain : ∀ type : Builtin, pipeStem.toList.isPrefixOf type.name.toList = false ∧
      type.name.toList.head? ≠ some '_' := by
    intro type
    cases type <;> decide
  obtain ⟨hstem, hhead⟩ := hplain type
  generalize type.name = name at h hstem hhead
  cases h with
  | refl => rfl
  | pipes => cases (isPrefixOf_ofPipe _).symm.trans hstem
  | pipeFirst => cases (isPrefixOf_ofPipe _).symm.trans hstem
  | pipeSecond =>
      rw [String.toList_append] at hhead
      exact absurd rfl hhead

end TypeName

end Pipework
