import Pipework.Dict

/-!
# JSON values

The values that descriptions, configurations and records are made of. A number without a fraction
or an exponent stays an integer and is never equal to a floating-point number; a floating-point
number is always finite, because the format has no spelling for the others.
-/

namespace Pipework

/-- A finite 64-bit floating-point number. -/
structure Double where
  toFloat : Float
  isFinite : toFloat.isFinite = true

namespace Double

/-- Positive zero. -/
def zero : Double := ⟨0.0, by decide⟩

/-- One. -/
def one : Double := ⟨1.0, by decide⟩

instance : Inhabited Double := ⟨zero⟩

/-- The number itself unless it is a NaN or an infinity. -/
def ofFloat? (x : Float) : Option Double :=
  if h : x.isFinite = true then some ⟨x, h⟩ else none

@[simp]
theorem ofFloat?_toFloat (x : Double) : ofFloat? x.toFloat = some x := by
  simp [ofFloat?, x.isFinite]

end Double

/-- A JSON value. An object's entries are kept in the order of their keys. -/
inductive Value where
  | null
  | bool (flag : Bool)
  | int (number : Int)
  | float (number : Double)
  | text (text : String)
  | list (items : List Value)
  | object (fields : Dict Value)
deriving Inhabited

namespace Value

/-- A number as a value; a NaN and the infinities become null. -/
def ofFloat (x : Float) : Value :=
  match Double.ofFloat? x with
  | some number => .float number
  | none => .null

/-- A text or null. -/
def ofText? : Option String → Value
  | some held => .text held
  | none => .null

/-- Whether the value is null. -/
def isNull : Value → Bool
  | .null => true
  | _ => false

/-- The flag of a boolean. -/
def asBool? : Value → Option Bool
  | .bool flag => some flag
  | _ => none

/-- The characters of a text. -/
def asText? : Value → Option String
  | .text held => some held
  | _ => none

/-- The items of a list. -/
def asList? : Value → Option (List Value)
  | .list items => some items
  | _ => none

/-- The fields of an object. -/
def asObject? : Value → Option (Dict Value)
  | .object fields => some fields
  | _ => none

/-- What an object holds under a key; nothing for any other kind of value. -/
def field? (value : Value) (key : String) : Option Value :=
  value.asObject?.bind fun fields => fields.get? key

/-- The least signed 64-bit integer. -/
def minInt64 : Int := -9223372036854775808

/-- The greatest signed 64-bit integer. -/
def maxInt64 : Int := 9223372036854775807

/-- An integer that fits in 64 bits with a sign. -/
def asInt64? : Value → Option Int
  | .int number => if minInt64 ≤ number ∧ number ≤ maxInt64 then some number else none
  | _ => none

/-- A number of either kind as a floating-point number, rounded to the nearest. -/
def asFloat? : Value → Option Float
  | .int number => some (Float.ofInt number)
  | .float number => some number.toFloat
  | _ => none

@[simp]
theorem ofFloat_toFloat (number : Double) : ofFloat number.toFloat = .float number := by
  simp [ofFloat]

/-- What is filed in an object is smaller than the object. -/
theorem sizeOf_lt_of_mem_entries {fields : Dict Value} {key : String} {value : Value}
    (h : (key, value) ∈ fields.entries) : sizeOf value < sizeOf fields := by
  obtain ⟨entries⟩ := fields
  have hmem := List.sizeOf_lt_of_mem h
  simp only [Dict.mk.sizeOf_spec, Prod.mk.sizeOf_spec] at hmem ⊢
  omega

theorem sizeOf_lt_of_get? {fields : Dict Value} {key : String} {value : Value}
    (h : fields.get? key = some value) : sizeOf value < sizeOf fields :=
  sizeOf_lt_of_mem_entries (Dict.mem_entries_of_get? h)

/-- A field of a value is smaller than the value. -/
theorem sizeOf_lt_of_field? {value field : Value} {key : String}
    (h : value.field? key = some field) : sizeOf field < sizeOf value := by
  cases value <;> simp [field?, asObject?] at h
  have := sizeOf_lt_of_get? h
  simp only [object.sizeOf_spec]
  omega

end Value

end Pipework
