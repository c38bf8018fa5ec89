import Pipework.Error
import Pipework.Record
import Pipework.Text.LetterCase

/-!
# Conversion to a kind of field

Configurations come from forms, so a number may be written as a text and a flag as a number. Each
kind says which values it reads and what it makes of them; the values it does not read are errors.
A number in a text that is no finite double becomes null.
-/

namespace Pipework.FieldType

/-- The nearest integer of 64 bits with a sign. -/
def clampInt64 (number : Int) : Int :=
  max Value.minInt64 (min Value.maxInt64 number)

/-- The whole part of a floating-point number, clamped to 64 bits; a NaN counts as zero. -/
def truncate (number : Float) : Int :=
  number.toModel.toInt64.toInt

/-- The number of a trimmed text. -/
def readNumber? (text : String) : Option Value :=
  if Text.allBlank text then some (zero number)
  else (Decimal.readFloat? (Text.trimChars text.toList)).map Value.ofFloat

/-- The integer of a trimmed text. A text that is no integer of 64 bits is read as a number whose
whole part counts. -/
def readInteger? (text : String) : Option Value :=
  if Text.allBlank text then some (zero integer)
  else
    let trimmed := Text.trimChars text.toList
    match Decimal.readInt64? trimmed with
    | some whole => some (.int whole)
    | none => (Decimal.readFloat? trimmed).map fun number => .int (truncate number)

/-- The flag of a trimmed text; the case of ASCII letters does not matter. -/
def readBool? (text : String) : Option Value :=
  let word := Text.toAsciiLower (Text.trim text)
  if ["", "0", "false", "no"].contains word then some (.bool false)
  else if ["1", "true", "yes"].contains word then some (.bool true)
  else none

/-- A value read as a number. -/
def toNumber? : Value → Option Value
  | .int whole => some (.ofFloat (Float.ofInt whole))
  | .float held => some (.float held)
  | .bool flag => some (.float (if flag then .one else .zero))
  | .text held => readNumber? held
  | _ => none

/-- A value read as an integer. -/
def toInteger? : Value → Option Value
  | .int whole => some (.int (clampInt64 whole))
  | .float held => some (.int (truncate held.toFloat))
  | .bool flag => some (.int (if flag then 1 else 0))
  | .text held => readInteger? held
  | _ => none

/-- A value read as a flag. -/
def toBool? : Value → Option Value
  | .bool flag => some (.bool flag)
  | .int whole => some (.bool (whole != 0))
  | .float held => some (.bool (held.toFloat != 0.0))
  | .null => some (zero bool)
  | .text held => readBool? held
  | _ => none

/-- A value read as a kind. Every value can be read as a text. -/
def read? (kind : FieldType) (value : Value) : Option Value :=
  match kind with
  | number => toNumber? value
  | integer => toInteger? value
  | text => some (.text value.plainText)
  | bool => toBool? value

/-- A field's value as its kind has it. -/
def convert (kind : FieldType) (field : String) (value : Value) : Except PipeError Value :=
  match kind.read? value with
  | some held => .ok held
  | none => .error (.badField field (.unreadable value kind))

end Pipework.FieldType
