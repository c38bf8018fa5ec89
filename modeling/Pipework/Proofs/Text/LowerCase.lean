import Mathlib
import Pipework.Text.LetterCase

/-! # Trimming and lower case of plain texts

Trimming leaves a text alone whose ends are not blank, and lower case treats the characters of
ASCII one by one. Punctuation marks are neutral: putting one in the place of another can be done
before a text is trimmed and brought to lower case or after that.
-/

namespace Pipework.Text

open LetterCase

/-! ## Trimming -/

/-- There is no blank at either end. -/
def IsTrimmed (chars : List Char) : Prop :=
  (∀ c ∈ chars.head?, isBlank c = false) ∧ ∀ c ∈ chars.getLast?, isBlank c = false

theorem trimStart_eq_self {chars : List Char} (h : ∀ c ∈ chars.head?, isBlank c = false) :
    trimStart chars = chars := by
  cases chars with
  | nil => rfl
  | cons c rest => rw [trimStart, List.dropWhile_cons_of_neg (by simp [h c rfl])]

theorem trimChars_eq_self {chars : List Char} (h : IsTrimmed chars) : trimChars chars = chars := by
  rw [trimChars, trimStart_eq_self h.1, trimStart_eq_self, List.reverse_reverse]
  rw [List.head?_reverse]
  exact h.2

theorem trim_eq_self {text : String} (h : IsTrimmed text.toList) : trim text = text := by
  rw [trim, trimChars_eq_self h, String.ofList_toList]

/-- The visible characters of ASCII are not blank. -/
theorem isBlank_of_visible {c : Char} (hleast : 33 ≤ c.toNat) (hgreatest : c.toNat ≤ 126) :
    isBlank c = false := by
  have hblank : ∀ code < 127, 33 ≤ code → inRanges blankRanges code = false := by decide
  exact hblank c.toNat (Nat.lt_succ_of_le hgreatest) hleast

/-! ## Lower case of ASCII -/

/-- The lower case of the characters of ASCII. -/
theorem mapCode_ascii : ∀ code < 128,
    Char.ofNat (mapCode lowerRuns code) = (Char.ofNat code).toLower := by
  decide +kernel

theorem lowerFrom_ascii (before : List Char) {chars : List Char}
    (h : ∀ c ∈ chars, c.toNat < 128) : lowerFrom before chars = chars.map Char.toLower := by
  induction chars generalizing before with
  | nil => rfl
  | cons c rest ih =>
      have hascii : c.toNat < 128 := h c List.mem_cons_self
      have hdot : c.toNat ≠ 0x130 := by omega
      have hsigma : c.toNat ≠ sigma := by
        unfold sigma
        omega
      have hlower : lowerChar before c rest = [c.toLower] := by
        simp only [lowerChar, if_neg hdot, if_neg hsigma]
        rw [mapCode_ascii _ hascii, Char.ofNat_toNat]
      rw [lowerFrom, hlower, ih _ fun other hother => h other (List.mem_cons_of_mem c hother)]
      rfl

theorem toLower_ascii {text : String} (h : ∀ c ∈ text.toList, c.toNat < 128) :
    toLower text = String.ofList (text.toList.map Char.toLower) :=
  congrArg String.ofList (lowerFrom_ascii [] h)

/-- Digits and most of the punctuation stand before the letters. -/
theorem toLower_eq_self {c : Char} (h : c.toNat < 65) : c.toLower = c := by
  have hlower : ∀ code < 65, (Char.ofNat code).toLower = Char.ofNat code := by decide
  have hself := hlower c.toNat h
  rwa [Char.ofNat_toNat] at hself

/-! ## Exchanging marks -/

/-- A character of ASCII that is neither blank nor a letter. -/
structure IsMark (mark : Char) : Prop where
  not_blank : isBlank mark = false
  not_ignorable : inRanges ignorableRanges mark.toNat = false
  not_cased : inRanges casedRanges mark.toNat = false
  unchanged : mapCode lowerRuns mark.toNat = mark.toNat
  /-- The small letters have greater codes. -/
  code : 0 < mark.toNat ∧ mark.toNat < 97

theorem isMark_slash : IsMark '/' where
  not_blank := by decide
  not_ignorable := by decide +kernel
  not_cased := by decide +kernel
  unchanged := by decide +kernel
  code := by decide

theorem isMark_dash : IsMark '-' where
  not_blank := by decide
  not_ignorable := by decide +kernel
  not_cased := by decide +kernel
  unchanged := by decide +kernel
  code := by decide

/-- Nothing is mapped below the small letters of ASCII. -/
theorem lowerRuns_ge : ∀ run ∈ lowerRuns, 97 ≤ (run.first : Int) + run.offset := by
  decide +kernel

theorem mapCode_lower (code : Nat) :
    mapCode lowerRuns code = code ∨ 97 ≤ mapCode lowerRuns code := by
  unfold mapCode
  dsimp only
  split
  next run hfound =>
    have hge := lowerRuns_ge run (List.mem_of_find?_eq_some hfound)
    have hrange := List.find?_some hfound
    simp only [Bool.and_eq_true, decide_eq_true_eq] at hrange
    right
    omega
  · exact .inl rfl

theorem toNat_ofNat_eq (code : Nat) :
    (Char.ofNat code).toNat = code ∨ (Char.ofNat code).toNat = 0 := by
  unfold Char.ofNat
  split
  · exact .inl rfl
  · exact .inr rfl

namespace IsMark

variable {mark : Char}

theorem lowerChar (h : IsMark mark) (before after : List Char) :
    lowerChar before mark after = [mark] := by
  have hcode := h.code
  have hdot : mark.toNat ≠ 0x130 := by omega
  have hsigma : mark.toNat ≠ sigma := by
    unfold sigma
    omega
  simp only [LetterCase.lowerChar, if_neg hdot, if_neg hsigma]
  rw [h.unchanged, Char.ofNat_toNat]

/-- No other character becomes a mark. -/
theorem eq_of_mem_lowerChar (h : IsMark mark) {before after : List Char} {c : Char}
    (hmem : mark ∈ LetterCase.lowerChar before c after) : c = mark := by
  have hcode := h.code
  simp only [LetterCase.lowerChar] at hmem
  split at hmem
  · simp only [List.mem_cons, List.not_mem_nil, or_false] at hmem
    rcases hmem with rfl | rfl <;> exact absurd hcode (by decide)
  split at hmem
  · split at hmem <;> obtain rfl := List.mem_singleton.mp hmem <;> exact absurd hcode (by decide)
  · obtain rfl := List.mem_singleton.mp hmem
    have hread := toNat_ofNat_eq (mapCode lowerRuns c.toNat)
    have hmapped := mapCode_lower c.toNat
    have heq : mapCode lowerRuns c.toNat = c.toNat := by omega
    rw [heq, Char.ofNat_toNat]

end IsMark

/-- Puts one character in the place of another. -/
def exchange (old new : Char) (chars : List Char) : List Char :=
  chars.map fun c => if c = old then new else c

section Exchange

variable {old new : Char}

theorem exchange_cons_self (rest : List Char) :
    exchange old new (old :: rest) = new :: exchange old new rest := by
  rw [exchange, List.map_cons, if_pos rfl]
  rfl

theorem exchange_cons_of_ne {c : Char} (h : c ≠ old) (rest : List Char) :
    exchange old new (c :: rest) = c :: exchange old new rest := by
  rw [exchange, List.map_cons, if_neg h]
  rfl

theorem exchange_append (first second : List Char) :
    exchange old new (first ++ second) = exchange old new first ++ exchange old new second :=
  List.map_append

theorem exchange_reverse (chars : List Char) :
    (exchange old new chars).reverse = exchange old new chars.reverse :=
  List.map_reverse.symm

theorem exchange_eq_self {chars : List Char} (h : old ∉ chars) : exchange old new chars = chars := by
  induction chars with
  | nil => rfl
  | cons c rest ih =>
      obtain ⟨hne, hrest⟩ := not_or.mp (mt List.mem_cons.mpr h)
      rw [exchange_cons_of_ne (Ne.symm hne), ih hrest]

theorem isBlank_exchange (hold : IsMark old) (hnew : IsMark new) (c : Char) :
    isBlank (if c = old then new else c) = isBlank c := by
  split
  next heq => rw [heq, hold.not_blank, hnew.not_blank]
  · rfl

theorem trimStart_exchange (hold : IsMark old) (hnew : IsMark new) (chars : List Char) :
    trimStart (exchange old new chars) = exchange old new (trimStart chars) := by
  rw [trimStart, exchange, List.dropWhile_map]
  congr 2
  exact funext (isBlank_exchange hold hnew)

/-- The marks at the ends of a text are trimmed alike. -/
theorem trimChars_exchange (hold : IsMark old) (hnew : IsMark new) (chars : List Char) :
    trimChars (exchange old new chars) = exchange old new (trimChars chars) := by
  rw [trimChars, trimChars, trimStart_exchange hold hnew, exchange_reverse,
    trimStart_exchange hold hnew, exchange_reverse]

theorem casedFirst_cons (c : Char) (rest : List Char) : casedFirst (c :: rest) =
    if inRanges ignorableRanges c.toNat = true then casedFirst rest
    else inRanges casedRanges c.toNat := by
  simp only [casedFirst, List.dropWhile_cons]
  by_cases hignored : inRanges ignorableRanges c.toNat = true
  · rw [if_pos hignored, if_pos hignored]
  · rw [if_neg hignored, if_neg hignored]

theorem IsMark.casedFirst {mark : Char} (h : IsMark mark) (rest : List Char) :
    casedFirst (mark :: rest) = false := by
  rw [casedFirst_cons, h.not_ignorable, h.not_cased]
  rfl

theorem casedFirst_exchange (hold : IsMark old) (hnew : IsMark new) (chars : List Char) :
    casedFirst (exchange old new chars) = casedFirst chars := by
  induction chars with
  | nil => rfl
  | cons c rest ih =>
      by_cases hmark : c = old
      · rw [hmark, exchange_cons_self, hnew.casedFirst, hold.casedFirst]
      · rw [exchange_cons_of_ne hmark, casedFirst_cons, casedFirst_cons, ih]

/-- The marks of a text are brought to lower case alike. -/
theorem lowerFrom_exchange (hold : IsMark old) (hnew : IsMark new) (before chars : List Char) :
    lowerFrom (exchange old new before) (exchange old new chars) =
      exchange old new (lowerFrom before chars) := by
  induction chars generalizing before with
  | nil => rfl
  | cons c rest ih =>
      by_cases hmark : c = old
      · subst hmark
        have hrest := ih (c :: before)
        rw [exchange_cons_self] at hrest
        rw [exchange_cons_self, lowerFrom, lowerFrom, hnew.lowerChar, hold.lowerChar, hrest]
        exact (exchange_cons_self _).symm
      · have hrest := ih (c :: before)
        rw [exchange_cons_of_ne hmark] at hrest
        -- Only the letter sigma looks at what is around it, and only at what has a case.
        have hchar : lowerChar (exchange old new before) c (exchange old new rest) =
            exchange old new (lowerChar before c rest) := by
          rw [exchange_eq_self fun hmem => hmark (hold.eq_of_mem_lowerChar hmem)]
          simp only [lowerChar, casedFirst_exchange hold hnew]
        rw [exchange_cons_of_ne hmark, lowerFrom, lowerFrom, exchange_append, hchar, hrest]

end Exchange

end Pipework.Text
