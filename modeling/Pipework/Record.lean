import Pipework.Json.Printer
import Pipework.Text.Pieces

/-!
# Records

Records are what flows between stages: JSON objects. `Record.lookup?` follows a dotted path, where
a key that has the dots in its name goes first. The sentinel's record is known by one key.
-/

namespace Pipework

/-- A record is an object. -/
abbrev Record := Dict Value

namespace Value

/-- A value as the text of a field: a text is itself, null is empty, and anything else is its
compact text. -/
def plainText : Value → String
  | .text held => held
  | .null => ""
  | other => other.compact

end Value

namespace Record

/-- The key that the sentinel's record has. -/
def sentinelKey : String := "forever"

/-- Whether a record counts as the sentinel's: it has the sentinel's key. -/
def isSentinel (record : Record) : Bool :=
  record.contains sentinelKey

/-- The record that the sentinel gives. -/
def sentinel : Record :=
  Dict.single sentinelKey (.bool true)

/-- Goes from an object to the value under a key, and from there on by the other keys. -/
def descend? (value : Value) : List String → Option Value
  | [] => some value
  | key :: rest => (value.field? key).bind fun next => descend? next rest

/-- What a path leads to. -/
def lookup? (record : Record) (path : String) : Option Value :=
  match record.get? path with
  | some value => some value
  | none => descend? (.object record) (Text.pieces '.' path)

end Record

end Pipework
