import Pipework.Json.Value

/-!
# Kinds of configuration fields
-/

namespace Pipework

/-- What a configuration field holds. -/
inductive FieldType where
  | number
  | integer
  | text
  | bool
deriving DecidableEq, Inhabited

namespace FieldType

/-- The kind's name in messages. -/
def noun : FieldType → String
  | number => "number"
  | integer => "integer"
  | text => "text"
  | bool => "bool"

/-- The value of a field that has neither a value nor a default. -/
def zero : FieldType → Value
  | number => .float .zero
  | integer => .int 0
  | text => .text ""
  | bool => .bool false

end FieldType

end Pipework
