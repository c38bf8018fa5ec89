import Pipework.Json.Reader

/-!
# Texts in TOML

A text stands in double quotes, where a backslash starts an escape, or in single quotes, where every
character stands for itself. In three quotes of either kind it may go over several lines.
-/

namespace Pipework.Toml

/-- Reads something at the beginning of a text and gives what is left. -/
abbrev Reader (α : Type) := List Char → Option (α × List Char)

/-- Whether a character is white space within a line. -/
def isBlank (c : Char) : Bool :=
  c == ' ' || c == '\t'

/-- Whether a character may stand in a comment: any but control characters. -/
def isVisible (c : Char) : Bool :=
  c == '\t' || (' ' ≤ c && c != '\x7f')

/-- Whether a character stands for itself in single quotes. -/
def isLiteral (c : Char) : Bool :=
  isVisible c && c != '\x27'

/-- Whether a character stands for itself in double quotes. -/
def isBasic (c : Char) : Bool :=
  isVisible c && c != '"' && c != '\\'

/-- What a single character behind a backslash stands for. -/
def unescape? : Char → Option Char
  | 'b' => some '\x08'
  | 't' => some '\t'
  | 'n' => some '\n'
  | 'f' => some '\x0c'
  | 'r' => some '\r'
  | '"' => some '"'
  | '\\' => some '\\'
  | _ => none

/-- The number that hexadecimal digits stand for. -/
def hexNumber? : List Char → Option Nat
  | [] => some 0
  | digits@(_ :: _) =>
      digits.foldl (fun number? c => do
        let number ← number?
        return 16 * number + (← Json.hexValue? c)) (some 0)

/-- The character with a code point. -/
def ofCodePoint? (digits : List Char) : Option Char := do
  let code ← hexNumber? digits
  if code.isValidChar then some (Char.ofNat code) else none

/-- Puts a character in front of what is read. -/
def prepend (c : Char) (read : Option (List Char × List Char)) : Option (List Char × List Char) :=
  read.map fun (text, rest) => (c :: text, rest)

/-- Reads behind a double quote up to the next. -/
def basicTail : Reader (List Char)
  | '"' :: rest => some ([], rest)
  | '\\' :: 'u' :: a :: b :: c :: d :: rest =>
      (ofCodePoint? [a, b, c, d]).bind fun read => prepend read (basicTail rest)
  | '\\' :: 'U' :: a :: b :: c :: d :: e :: f :: g :: h :: rest =>
      (ofCodePoint? [a, b, c, d, e, f, g, h]).bind fun read => prepend read (basicTail rest)
  | '\\' :: c :: rest => (unescape? c).bind fun read => prepend read (basicTail rest)
  | c :: rest => if isBasic c then prepend c (basicTail rest) else none
  | [] => none

/-- Reads behind a single quote up to the next. -/
def literalTail : Reader (List Char)
  | '\x27' :: rest => some ([], rest)
  | c :: rest => if isLiteral c then prepend c (literalTail rest) else none
  | [] => none

/-- Whether nothing but white space stands before the end of the line. -/
def endsLine (text : List Char) : Bool :=
  match text.dropWhile isBlank with
  | '\n' :: _ | '\r' :: '\n' :: _ => true
  | _ => false

/-- Reads behind three double quotes up to the next three; two more before them belong to the text.
Behind a backslash at the end of a line white space is skipped. -/
def basicLines (skips : Bool) : Reader (List Char)
  | '"' :: '"' :: '"' :: '"' :: '"' :: rest => some (['"', '"'], rest)
  | '"' :: '"' :: '"' :: '"' :: rest => some (['"'], rest)
  | '"' :: '"' :: '"' :: rest => some ([], rest)
  | '"' :: rest => prepend '"' (basicLines false rest)
  | '\r' :: '\n' :: rest =>
      if skips then basicLines true rest else prepend '\n' (basicLines false rest)
  | '\\' :: 'u' :: a :: b :: c :: d :: rest =>
      (ofCodePoint? [a, b, c, d]).bind fun read => prepend read (basicLines false rest)
  | '\\' :: 'U' :: a :: b :: c :: d :: e :: f :: g :: h :: rest =>
      (ofCodePoint? [a, b, c, d, e, f, g, h]).bind fun read => prepend read (basicLines false rest)
  | '\\' :: c :: rest =>
      match unescape? c with
      | some read => prepend read (basicLines false rest)
      | none =>
          if c = '\n' ∨ endsLine (c :: rest) then basicLines true rest else none
  | c :: rest =>
      if skips ∧ (isBlank c ∨ c = '\n') then basicLines true rest
      else if isBasic c ∨ c = '\n' then prepend c (basicLines false rest)
      else none
  | [] => none

/-- Reads behind three single quotes up to the next three; two more before them belong to the
text. -/
def literalLines : Reader (List Char)
  | '\x27' :: '\x27' :: '\x27' :: '\x27' :: '\x27' :: rest => some (['\x27', '\x27'], rest)
  | '\x27' :: '\x27' :: '\x27' :: '\x27' :: rest => some (['\x27'], rest)
  | '\x27' :: '\x27' :: '\x27' :: rest => some ([], rest)
  | '\r' :: '\n' :: rest => prepend '\n' (literalLines rest)
  | c :: rest =>
      if isVisible c ∨ c = '\n' then prepend c (literalLines rest) else none
  | [] => none

/-- The rest of a text that may start with the end of a line, which does not count. -/
def skipLineEnd : List Char → List Char
  | '\n' :: rest => rest
  | '\r' :: '\n' :: rest => rest
  | rest => rest

/-- Reads a text within a line. -/
def readLine? : Reader (List Char)
  | '"' :: rest => basicTail rest
  | '\x27' :: rest => literalTail rest
  | _ => none

/-- Reads a text. -/
def readText? : Reader (List Char)
  | '"' :: '"' :: '"' :: rest => basicLines false (skipLineEnd rest)
  | '\x27' :: '\x27' :: '\x27' :: rest => literalLines (skipLineEnd rest)
  | rest => readLine? rest

/-- Whether a character may stand in a key without quotes. -/
def isBare (c : Char) : Bool :=
  c.isAlphanum || c == '_' || c == '-'

/-- How a text is written: in which quotes. -/
inductive Style where
  | basic
  | literal
  | basicLines
  | literalLines
deriving DecidableEq

/-- The length of the longest run of a character, behind a run of a given length. -/
def longestRun (c : Char) (run : Nat) : List Char → Nat
  | [] => run
  | head :: rest =>
      if head = c then longestRun c (run + 1) rest else max run (longestRun c 0 rest)

/-- How a text is written with the fewest escapes. -/
def styleOf (text : List Char) : Style :=
  let doubles := longestRun '"' 0 text
  let singles := longestRun '\x27' 0 text
  let lines := text.contains '\n'
  let escapes := text.contains '\\'
  let hidden := text.any fun c => !isVisible c && c != '\n'
  if !hidden ∧ !escapes ∧ doubles = 0 ∧ !lines then .basic
  else if !hidden ∧ singles = 0 ∧ !lines then .literal
  else if !hidden ∧ !escapes ∧ doubles ≤ 2 then .basicLines
  else if !hidden ∧ singles ≤ 2 then .literalLines
  else if lines then .basicLines
  else .basic

/-- The digits of a code point, four of them. -/
def fourDigits (code : Nat) : List Char :=
  let digits := (Nat.toDigits 16 code).map Char.toUpper
  List.replicate (4 - digits.length) '0' ++ digits

/-- A character between double quotes. -/
def escapeChar (lines : Bool) (c : Char) : List Char :=
  match c with
  | '\x08' => ['\\', 'b']
  | '\t' => ['\\', 't']
  | '\n' => if lines then ['\n'] else ['\\', 'n']
  | '\x0c' => ['\\', 'f']
  | '\r' => ['\\', 'r']
  | '\\' => ['\\', '\\']
  | c => if isVisible c then [c] else '\\' :: 'u' :: fourDigits c.toNat

/-- Escapes a text between double quotes, where so many of them may follow one another. -/
def escape (lines : Bool) (allowed run : Nat) : List Char → List Char
  | [] => []
  | '"' :: rest =>
      if run < allowed then '"' :: escape lines allowed (run + 1) rest
      else '\\' :: '"' :: escape lines allowed 0 rest
  | c :: rest => escapeChar lines c ++ escape lines allowed 0 rest

/-- The mark in front of the first line of a text with several lines. -/
def lineMark (text : List Char) : List Char :=
  if text.contains '\n' then ['\n'] else []

/-- A text in quotes. -/
def quote (text : String) : String :=
  let chars := text.toList
  let three (c : Char) := List.replicate 3 c
  String.ofList (match styleOf chars with
    | .basic => '"' :: escape false 0 0 chars ++ ['"']
    | .literal => '\x27' :: chars ++ ['\x27']
    | .basicLines => three '"' ++ lineMark chars ++ escape true 2 0 chars ++ three '"'
    | .literalLines => three '\x27' ++ lineMark chars ++ chars ++ three '\x27')

/-- A key, in quotes if it has to be. -/
def quoteKey (key : String) : String :=
  if !key.isEmpty ∧ key.toList.all isBare then key
  else
    let chars := key.toList
    String.ofList (match styleOf chars with
      | .literal => '\x27' :: chars ++ ['\x27']
      | _ => '"' :: escape false 0 0 chars ++ ['"'])

end Pipework.Toml
