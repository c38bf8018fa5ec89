import Pipework.Conf

/-! # Text fields

Every value has a text, so a text field never fails: it holds the text of what the record has under
its subkey, or else the text of its literal value, or else the empty text. A field without a subkey
holds the same text for all records.
-/

namespace Pipework.Conf

variable {conf : Conf} {name : String} {item : Option Record}

/-- The text that a field holds for a record, or for none. -/
def heldText (conf : Conf) (name : String) (item : Option Record) : String :=
  (((conf.bound? name item).or (conf.given? name)).map Value.plainText).getD ""

theorem text_eq (conf : Conf) (name : String) (item : Option Record) :
    conf.text (.text name) item = .ok (conf.heldText name item) := by
  unfold text valueOf heldText
  dsimp only [ConfField.text]
  cases conf.bound? name item with
  | some value => rfl
  | none =>
      cases conf.given? name with
      | some value => rfl
      | none => rfl

theorem nonemptyText_eq (conf : Conf) (name : String) (item : Option Record) :
    conf.nonemptyText (.text name) item =
      if (conf.heldText name item).isEmpty then .error (.badField name .missing)
      else .ok (conf.heldText name item) := by
  rw [nonemptyText, text_eq]
  rfl

theorem heldText_none : conf.heldText name none = ((conf.given? name).map Value.plainText).getD "" := by
  have hbound : conf.bound? name none = none := by
    unfold bound?
    cases conf.subkey? name <;> rfl
  rw [heldText, hbound, Option.none_or]

/-- Without a subkey the record does not matter. -/
theorem heldText_of_subkey? (h : conf.subkey? name = none) :
    conf.heldText name item = conf.heldText name none := by
  have hbound : conf.bound? name item = none := by
    rw [bound?, h]
    rfl
  rw [heldText_none, heldText, hbound, Option.none_or]

end Pipework.Conf
