import Pipework.Record

/-! # Dotted paths

A path is the names of keys joined by dots. A record that has the whole path for a key gives what it
holds there. Any other record is descended by the keys one after the other, through objects only; the
keys are the pieces of the path between its dots, of which some may be empty.
-/

namespace Pipework

namespace Text

theorem cutFrom_eq_splitOnPPrepend (mark : Char) (read text : List Char) :
    cutFrom mark read text = List.splitOnPPrepend (· == mark) text read := by
  fun_induction cutFrom mark read text with
  | case1 read => rw [List.splitOnPPrepend_nil]
  | case2 read rest ih =>
      rw [List.splitOnPPrepend_cons_pos (p := (· == mark)) (beq_self_eq_true mark), ih]
      rfl
  | case3 read c rest hmark ih =>
      rw [List.splitOnPPrepend_cons_neg (p := (· == mark)) (beq_eq_false_iff_ne.mpr hmark), ih]

theorem pieces_eq_splitOn (mark : Char) (text : String) :
    pieces mark text = (text.toList.splitOn mark).map String.ofList :=
  congrArg (List.map String.ofList) (cutFrom_eq_splitOnPPrepend mark [] text.toList)

/-- Texts without the mark are the pieces of what they are joined to by it. -/
theorem pieces_intercalate {mark : Char} {texts : List String} (hne : texts ≠ [])
    (hfree : ∀ text ∈ texts, mark ∉ text.toList) :
    pieces mark ((String.singleton mark).intercalate texts) = texts := by
  have hsplit : ([mark].intercalate (texts.map String.toList)).splitOn mark =
      texts.map String.toList := by
    refine List.splitOn_intercalate mark ?_ (by simpa using hne)
    simpa using hfree
  rw [pieces_eq_splitOn, String.toList_intercalate, String.toList_singleton, hsplit, List.map_map]
  simp

end Text

/-- The keys lead from a value to another through objects, one inside of the other. -/
inductive Value.Leads : Value → List String → Value → Prop
  | here (value : Value) : Leads value [] value
  | inside {fields : Dict Value} {key : String} {rest : List String} {next value : Value}
      (hfield : fields.get? key = some next) (hrest : Leads next rest value) :
      Leads (.object fields) (key :: rest) value

namespace Value

variable {start next value : Value} {key : String} {rest keys : List String}

theorem field?_eq_some_iff :
    start.field? key = some next ↔ ∃ fields, start = .object fields ∧ fields.get? key = some next := by
  cases start <;> simp [field?, asObject?]

theorem leads_nil_iff : Leads start [] value ↔ start = value := by
  constructor
  · rintro ⟨⟩
    rfl
  · rintro rfl
    exact .here start

theorem leads_cons_iff : Leads start (key :: rest) value ↔
    ∃ next, start.field? key = some next ∧ Leads next rest value := by
  constructor
  · rintro (_ | ⟨hfield, hrest⟩)
    exact ⟨_, field?_eq_some_iff.mpr ⟨_, rfl, hfield⟩, hrest⟩
  · rintro ⟨next, hfield, hrest⟩
    obtain ⟨fields, rfl, hfield⟩ := field?_eq_some_iff.mp hfield
    exact .inside hfield hrest

end Value

namespace Record

open Value (Leads)

theorem descend?_eq_some_iff {keys : List String} {start value : Value} :
    descend? start keys = some value ↔ Leads start keys value := by
  induction keys generalizing start with
  | nil => rw [descend?, Option.some_inj, Value.leads_nil_iff]
  | cons key rest ih => simp only [descend?, Option.bind_eq_some_iff, Value.leads_cons_iff, ih]

variable {record : Record} {path : String} {keys : List String}

theorem lookup?_of_get?_eq_some {value : Value} (h : record.get? path = some value) :
    record.lookup? path = some value := by
  rw [lookup?, h]

theorem lookup?_eq_some_iff_of_get?_eq_none (h : record.get? path = none) {value : Value} :
    record.lookup? path = some value ↔ Leads (.object record) (Text.pieces '.' path) value := by
  rw [lookup?, h, descend?_eq_some_iff]

/-- A path that is itself a key leads to what is filed under it. Any other leads where its keys lead
through nested objects, and nowhere if they lead nowhere. -/
theorem lookup_joined (record : Record) (hne : keys ≠ []) (hfree : ∀ key ∈ keys, '.' ∉ key.toList) :
    let path := ".".intercalate keys
    (∀ value, record.get? path = some value → record.lookup? path = some value) ∧
      (record.get? path = none → ∀ value,
        record.lookup? path = some value ↔ Leads (.object record) keys value) := by
  intro path
  have hpieces : Text.pieces '.' path = keys := Text.pieces_intercalate hne hfree
  refine ⟨fun value hkey => lookup?_of_get?_eq_some hkey, fun hnone value => ?_⟩
  rw [lookup?_eq_some_iff_of_get?_eq_none hnone, hpieces]

/-- A record with a key that has a dot in it, and with an empty key inside of it. -/
def shadowing : Record :=
  .ofList [("a", .object (.ofList [("", .object (.single "b" (.int 1))), ("b", .int 3)])),
    ("a.b", .int 2)]

/-- The key with the dot hides what its parts lead to, and the empty key is a part like any other. -/
theorem lookup_joined_of_shadowing :
    (∀ key ∈ ["a", "b"], '.' ∉ key.toList) ∧ Leads (.object shadowing) ["a", "b"] (.int 3) ∧
      shadowing.lookup? (".".intercalate ["a", "b"]) = some (.int 2) ∧
      (∀ key ∈ ["a", "", "b"], '.' ∉ key.toList) ∧
      shadowing.lookup? (".".intercalate ["a", "", "b"]) = some (.int 1) := by
  have hplain : ∀ key ∈ ["a", "b"], '.' ∉ key.toList := by decide
  have hempty : ∀ key ∈ ["a", "", "b"], '.' ∉ key.toList := by decide
  refine ⟨hplain, .inside rfl (.inside rfl (.here _)), ?_, hempty, ?_⟩
  · exact (lookup_joined shadowing (by decide) hplain).1 _ rfl
  · exact ((lookup_joined shadowing (by decide) hempty).2 rfl _).mpr
      (.inside rfl (.inside rfl (.inside rfl (.here _))))

end Record

end Pipework
