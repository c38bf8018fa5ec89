import Pipework.Conf.Conversion

/-!
# Module configuration

A module's configuration has a descriptor for each field: a plain value, or an object with a
`value` and perhaps a `subkey`, which binds the field to the record at hand. What a field holds is
decided in this order: the value that the record has under the subkey, the literal value, the
default of the field, the zero of its kind. `Conf.valueOf` applies the rule and converts the result.
-/

namespace Pipework

/-- What a module expects of a field. -/
structure ConfField where
  name : String
  kind : FieldType
  default? : Option String

namespace ConfField

/-- A text field, empty by default. -/
def text (name : String) : ConfField := ⟨name, .text, none⟩

/-- The same field with a default. -/
def orElse (spec : ConfField) (text : String) : ConfField :=
  { spec with default? := some text }

/-- What the field holds when nothing is configured. -/
def usualValue (spec : ConfField) : Except PipeError Value :=
  match spec.default? with
  | some text => spec.kind.convert spec.name (.text text)
  | none => .ok spec.kind.zero

end ConfField

/-- The descriptors of a module's fields. -/
structure Conf where
  fields : Dict Value
deriving Inhabited

namespace Conf

/-- A configuration without fields. -/
def empty : Conf := ⟨.empty⟩

/-- The configuration in a description; anything but an object is an empty one. -/
def ofValue (value : Value) : Conf :=
  ⟨value.asObject?.getD .empty⟩

/-- The configuration as an object. -/
def toValue (conf : Conf) : Value :=
  .object conf.fields

/-- The descriptor of a field. -/
def descriptor? (conf : Conf) (name : String) : Option Value :=
  conf.fields.get? name

/-- The literal value in a descriptor: that of an object's `value`, or the descriptor itself. Null
is no value. -/
def givenIn? : Value → Option Value
  | .object descriptor => (descriptor.get? "value").filter fun value => !value.isNull
  | .null => none
  | plain => some plain

/-- The literal value of a field. -/
def given? (conf : Conf) (name : String) : Option Value :=
  (conf.descriptor? name).bind givenIn?

/-- The key that binds a field to records. -/
def subkey? (conf : Conf) (name : String) : Option String :=
  (conf.descriptor? name).bind fun descriptor => (descriptor.field? "subkey").bind Value.asText?

/-- What a record has for a field that is bound to it. -/
def bound? (conf : Conf) (name : String) (item : Option Record) : Option Value :=
  (conf.subkey? name).bind fun key => item.bind fun record => record.lookup? key

/-- The value of a field, for a record or for none. -/
def valueOf (conf : Conf) (spec : ConfField) (item : Option Record) : Except PipeError Value :=
  match conf.bound? spec.name item with
  | some value => spec.kind.convert spec.name value
  | none =>
      match conf.given? spec.name with
      | some value => spec.kind.convert spec.name value
      | none => spec.usualValue

/-- The text of a field. -/
def text (conf : Conf) (spec : ConfField) (item : Option Record) : Except PipeError String :=
  (conf.valueOf spec item).map Value.plainText

/-- The number of a field, zero if the field holds none. -/
def number (conf : Conf) (spec : ConfField) (item : Option Record) : Except PipeError Float :=
  (conf.valueOf spec item).map fun value => value.asFloat?.getD 0.0

/-- The integer of a field, zero if the field holds none. -/
def integer (conf : Conf) (spec : ConfField) (item : Option Record) : Except PipeError Int :=
  (conf.valueOf spec item).map fun value => value.asInt64?.getD 0

/-- The flag of a field, false if the field holds none. -/
def flag (conf : Conf) (spec : ConfField) (item : Option Record) : Except PipeError Bool :=
  (conf.valueOf spec item).map fun value => value.asBool?.getD false

/-- The text of a field that must not be empty. -/
def nonemptyText (conf : Conf) (spec : ConfField) (item : Option Record) :
    Except PipeError String :=
  match conf.text spec item with
  | .error error => .error error
  | .ok text => if text.isEmpty then .error (.badField spec.name .missing) else .ok text

end Conf

end Pipework
