import Pipework.Decimal.Shortest

/-!
# JSON texts

A value has a compact text, without any space, and an indented one with an entry or an item to a
line. Both list an object's entries as they are kept.
-/

namespace Pipework

/-- An integer in decimal digits. -/
def intText : Int → String
  | .ofNat number => number.repr
  | .negSucc number => "-" ++ (number + 1).repr

namespace Json

/-- Two hexadecimal digits of a control character. -/
def hexPair (code : Nat) : List Char :=
  [Nat.digitChar (code / 16), Nat.digitChar (code % 16)]

/-- A character inside a JSON string. Only quotation marks, backslashes and control characters are
escaped. -/
def escapeChar (c : Char) : List Char :=
  if c = '"' ∨ c = '\\' then ['\\', c]
  else if c = '\x08' then ['\\', 'b']
  else if c = '\x0c' then ['\\', 'f']
  else if c = '\n' then ['\\', 'n']
  else if c = '\r' then ['\\', 'r']
  else if c = '\t' then ['\\', 't']
  else if c.toNat < 32 then ['\\', 'u', '0', '0'] ++ hexPair c.toNat
  else [c]

/-- A text as a JSON string. -/
def quote (text : String) : String :=
  String.ofList (['"'] ++ text.toList.flatMap escapeChar ++ ['"'])

/-- Parts between two brackets, separated by commas. -/
def bracket (opening closing : Char) (parts : List String) : String :=
  opening.toString ++ ",".intercalate parts ++ closing.toString

/-- A new line at some depth. -/
def newLine (depth : Nat) : String :=
  String.ofList ('\n' :: List.replicate (2 * depth) ' ')

/-- Parts between two brackets, each on a line of its own; brackets without parts stay together. -/
def bracketLines (depth : Nat) (opening closing : Char) (parts : List String) : String :=
  if parts = [] then opening.toString ++ closing.toString
  else
    opening.toString ++ ",".intercalate (parts.map (newLine (depth + 1) ++ ·)) ++ newLine depth
      ++ closing.toString

end Json

namespace Value

mutual

/-- The text of a value without spaces. -/
def compact : Value → String
  | .null => "null"
  | .bool flag => if flag then "true" else "false"
  | .int number => intText number
  | .float number => number.text
  | .text held => Json.quote held
  | .list items => Json.bracket '[' ']' (compactItems items)
  | .object ⟨entries⟩ => Json.bracket '\x7b' '\x7d' (compactEntries entries)

/-- The compact texts of a list's items. -/
def compactItems : List Value → List String
  | [] => []
  | item :: rest => item.compact :: compactItems rest

/-- The compact texts of an object's entries. -/
def compactEntries : List (String × Value) → List String
  | [] => []
  | (key, value) :: rest => (Json.quote key ++ ":" ++ value.compact) :: compactEntries rest

end

mutual

/-- The text of a value that starts at some depth, indented by two spaces for each level. -/
def indented (depth : Nat) : Value → String
  | .list items => Json.bracketLines depth '[' ']' (indentedItems (depth + 1) items)
  | .object ⟨entries⟩ =>
      Json.bracketLines depth '\x7b' '\x7d' (indentedEntries (depth + 1) entries)
  | scalar => scalar.compact

/-- The indented texts of a list's items. -/
def indentedItems (depth : Nat) : List Value → List String
  | [] => []
  | item :: rest => item.indented depth :: indentedItems depth rest

/-- The indented texts of an object's entries. -/
def indentedEntries (depth : Nat) : List (String × Value) → List String
  | [] => []
  | (key, value) :: rest =>
      (Json.quote key ++ ": " ++ value.indented depth) :: indentedEntries depth rest

end

end Value

end Pipework
