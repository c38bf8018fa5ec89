import Pipework.Text.Blank
import Pipework.Text.Printable.Table

/-!
# Quoted texts

Texts between quotation marks as messages show them: what could not be seen, or would merge with the
character in front of it, is spelled out.
-/

namespace Pipework.Text

namespace Quoted

/-- Whether a character would not show as itself. -/
def isHidden (c : Char) : Bool :=
  inRanges Printable.hiddenRanges c.toNat || inRanges Printable.extendRanges c.toNat

/-- A character's code point in lower-case hexadecimal digits between braces. -/
def codePoint (c : Char) : List Char :=
  ['\\', 'u', '\x7b'] ++ Nat.toDigits 16 c.toNat ++ ['\x7d']

/-- A character inside a quoted text. -/
def escape (c : Char) : List Char :=
  if c = '\x00' then ['\\', '0']
  else if c = '\t' then ['\\', 't']
  else if c = '\r' then ['\\', 'r']
  else if c = '\n' then ['\\', 'n']
  else if c = '"' ∨ c = '\\' then ['\\', c]
  else if isHidden c then codePoint c
  else [c]

end Quoted

/-- A text between quotation marks. -/
def quote (text : String) : String :=
  String.ofList (['"'] ++ text.toList.flatMap Quoted.escape ++ ['"'])

end Pipework.Text
