import Pipework.Text.Blank
import Pipework.Text.LetterCase.Table

/-!
# Upper and lower case

Full case conversion of texts, independent of any language. A character may become several, and a
capital sigma at the end of a word becomes the final form.
-/

namespace Pipework.Text

namespace LetterCase

/-- Where a code point goes in a list of runs; it stays if no run has it. -/
def mapCode (runs : List Run) (code : Nat) : Nat :=
  let hit := runs.find? fun run =>
    run.first ≤ code && code ≤ run.last && (code - run.first) % run.step == 0
  match hit with
  | some run => ((code : Int) + run.offset).toNat
  | none => code

/-- The capital sigma. -/
def sigma : Nat := 0x3A3

/-- Whether the first character that matters has a case. -/
def casedFirst (chars : List Char) : Bool :=
  match chars.dropWhile fun c => inRanges ignorableRanges c.toNat with
  | c :: _ => inRanges casedRanges c.toNat
  | [] => false

/-- The lower case of a character between the characters before it, nearest first, and after it. -/
def lowerChar (before : List Char) (c : Char) (after : List Char) : List Char :=
  let code := c.toNat
  if code = 0x130 then ['i', Char.ofNat 0x307]
  else if code = sigma then
    if casedFirst before && !casedFirst after then [Char.ofNat 0x3C2] else [Char.ofNat 0x3C3]
  else [Char.ofNat (mapCode lowerRuns code)]

/-- The lower case of the characters after those already passed. -/
def lowerFrom (before : List Char) : List Char → List Char
  | [] => []
  | c :: after => lowerChar before c after ++ lowerFrom (c :: before) after

/-- The upper case of a character. -/
def upperChar (c : Char) : List Char :=
  match longUppers.lookup c.toNat with
  | some codes => codes.map Char.ofNat
  | none => [Char.ofNat (mapCode upperRuns c.toNat)]

end LetterCase

/-- A text in lower case. -/
def toLower (text : String) : String :=
  String.ofList (LetterCase.lowerFrom [] text.toList)

/-- A text in upper case. -/
def toUpper (text : String) : String :=
  String.ofList (text.toList.flatMap LetterCase.upperChar)

/-- A text with its ASCII letters in lower case and all other characters as they are. -/
def toAsciiLower (text : String) : String :=
  String.ofList (text.toList.map Char.toLower)

end Pipework.Text
