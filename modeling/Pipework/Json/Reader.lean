import Pipework.Decimal.Reading

/-!
# Reading JSON texts

A text is cut into tokens, and the tokens are fed to a machine that keeps a stack of the lists and
objects that are still open. Both work from left to right and look at each character and each token
once. A text is refused as a whole or read as a whole: `Value.read?`.
-/

namespace Pipework.Json

/-- A token. Numbers, strings and the three words stand for values. -/
inductive Token where
  | openList
  | closeList
  | openObject
  | closeObject
  | comma
  | colon
  | scalar (value : Value)

/-- Where the scanner stands. Characters already read of a word or a string are kept in reverse. -/
inductive Scanner where
  /-- Outside of any word and string. -/
  | between
  /-- In a number or a bare word. -/
  | word (read : List Char)
  /-- In a string. -/
  | string (read : List Char)
  /-- After a backslash in a string. -/
  | escape (read : List Char)
  /-- In a code unit, with `left` digits to come. A leading surrogate may stand before it. -/
  | unit (read : List Char) (lead : Option Nat) (left : Nat) (code : Nat)
  /-- After a leading surrogate; the backslash of the next unit has been seen or not. -/
  | pair (read : List Char) (lead : Nat) (backslash : Bool)

/-- The characters that numbers and bare words are made of. -/
def isWordChar (c : Char) : Bool :=
  c.isAlphanum || c == '+' || c == '-' || c == '.'

/-- What a bare word or a number stands for. -/
def readWord? (word : List Char) : Option Value :=
  if word = "null".toList then some .null
  else if word = "true".toList then some (.bool true)
  else if word = "false".toList then some (.bool false)
  else Decimal.readStrict? word

/-- The value of a hexadecimal digit. -/
def hexValue? (c : Char) : Option Nat :=
  if Decimal.isDigit c then some (Decimal.digitValue c)
  else if 'a' ≤ c ∧ c ≤ 'f' then some (c.toNat - 'a'.toNat + 10)
  else if 'A' ≤ c ∧ c ≤ 'F' then some (c.toNat - 'A'.toNat + 10)
  else none

/-- The character that a letter after a backslash stands for. -/
def unescape? (c : Char) : Option Char :=
  match c with
  | '"' => some '"'
  | '\\' => some '\\'
  | '/' => some '/'
  | 'b' => some '\x08'
  | 'f' => some '\x0c'
  | 'n' => some '\n'
  | 'r' => some '\r'
  | 't' => some '\t'
  | _ => none

/-- After the last digit of a code unit. A trailing surrogate needs a leading one before it, and a
leading one needs a trailing one behind it. -/
def finishUnit? (read : List Char) (lead : Option Nat) (code : Nat) : Option Scanner :=
  match lead with
  | none =>
      if 0xDC00 ≤ code ∧ code ≤ 0xDFFF then none
      else if 0xD800 ≤ code ∧ code ≤ 0xDBFF then some (.pair read code false)
      else some (.string (Char.ofNat code :: read))
  | some high =>
      if 0xDC00 ≤ code ∧ code ≤ 0xDFFF then
        let point := 0x10000 + (high - 0xD800) * 0x400 + (code - 0xDC00)
        some (.string (Char.ofNat point :: read))
      else none

/-- The tokens of a character outside of words and strings, and where it leads. -/
def scanBetween? (c : Char) : Option (Scanner × List Token) :=
  match c with
  | '[' => some (.between, [.openList])
  | ']' => some (.between, [.closeList])
  | '\x7b' => some (.between, [.openObject])
  | '\x7d' => some (.between, [.closeObject])
  | ',' => some (.between, [.comma])
  | ':' => some (.between, [.colon])
  | '"' => some (.string [], [])
  | ' ' => some (.between, [])
  | '\t' => some (.between, [])
  | '\n' => some (.between, [])
  | '\r' => some (.between, [])
  | _ => if isWordChar c then some (.word [c], []) else none

namespace Scanner

/-- Takes one character. Control characters in a string must be escaped. -/
def step? (scanner : Scanner) (c : Char) : Option (Scanner × List Token) :=
  match scanner with
  | .between => scanBetween? c
  | .word read =>
      if isWordChar c then some (.word (c :: read), [])
      else do
        let value ← readWord? read.reverse
        let (next, tokens) ← scanBetween? c
        return (next, .scalar value :: tokens)
  | .string read =>
      if c = '"' then some (.between, [.scalar (.text (String.ofList read.reverse))])
      else if c = '\\' then some (.escape read, [])
      else if c.toNat < 32 then none
      else some (.string (c :: read), [])
  | .escape read =>
      if c = 'u' then some (.unit read none 4 0, [])
      else (unescape? c).map fun plain => (.string (plain :: read), [])
  | .unit read lead left code => do
      let code := 16 * code + (← hexValue? c)
      if left ≤ 1 then return (← finishUnit? read lead code, [])
      else return (.unit read lead (left - 1) code, [])
  | .pair read lead backslash =>
      if backslash then
        if c = 'u' then some (.unit read (some lead) 4 0, []) else none
      else if c = '\\' then some (.pair read lead true, []) else none

end Scanner

/-- The tokens already found, latest first, and those of the characters that follow. A text may end
between tokens or after a word. -/
def scan? (scanner : Scanner) (found : List Token) : List Char → Option (List Token)
  | [] =>
      match scanner with
      | .between => some found.reverse
      | .word read => (readWord? read.reverse).map fun value => (.scalar value :: found).reverse
      | _ => none
  | c :: rest =>
      match scanner.step? c with
      | none => none
      | some (next, tokens) => scan? next (tokens.reverse ++ found) rest

/-- A list or an object that is still open. The items of a list are kept in reverse, an object
also has the key that was read last. -/
inductive Frame where
  | list (items : List Value)
  | object (fields : Dict Value) (key : String)

/-- What may come next. -/
inductive Expect where
  /-- A value. -/
  | value
  /-- A value or the end of a list. -/
  | firstItem
  /-- A key. -/
  | key
  /-- A key or the end of an object. -/
  | firstKey
  /-- The colon behind a key. -/
  | colon
  /-- A comma or the end of the innermost list or object. -/
  | separator
  /-- Nothing: the whole value has been read. -/
  | nothing (value : Value)

/-- The machine that puts tokens together. -/
structure Machine where
  stack : List Frame
  expect : Expect

namespace Machine

/-- The machine before the first token. -/
def start : Machine := ⟨[], .value⟩

/-- How many lists and objects may be open at a time. -/
def maxDepth : Nat := 127

/-- Hands a complete value to the innermost open list or object. -/
def complete (stack : List Frame) (value : Value) : Machine :=
  match stack with
  | [] => ⟨[], .nothing value⟩
  | .list items :: rest => ⟨.list (value :: items) :: rest, .separator⟩
  | .object fields key :: rest => ⟨.object (fields.insert key value) key :: rest, .separator⟩

/-- Opens a list or an object. -/
def push? (stack : List Frame) (frame : Frame) (expect : Expect) : Option Machine :=
  if stack.length < maxDepth then some ⟨frame :: stack, expect⟩ else none

/-- A token where a value may stand. -/
def takeValue? (stack : List Frame) : Token → Option Machine
  | .scalar value => some (complete stack value)
  | .openList => push? stack (.list []) .firstItem
  | .openObject => push? stack (.object .empty "") .firstKey
  | _ => none

/-- A token where a key may stand. -/
def takeKey? (fields : Dict Value) (rest : List Frame) : Token → Option Machine
  | .scalar (.text key) => some ⟨.object fields key :: rest, .colon⟩
  | _ => none

/-- Takes one token. Of two values under one key in an object the later one stays. -/
def step? (machine : Machine) (token : Token) : Option Machine :=
  match machine.expect, machine.stack, token with
  | .value, stack, token => takeValue? stack token
  | .firstItem, .list items :: rest, .closeList => some (complete rest (.list items.reverse))
  | .firstItem, stack, token => takeValue? stack token
  | .firstKey, .object fields _ :: rest, .closeObject => some (complete rest (.object fields))
  | .firstKey, .object fields _ :: rest, token => takeKey? fields rest token
  | .key, .object fields _ :: rest, token => takeKey? fields rest token
  | .colon, stack, .colon => some ⟨stack, .value⟩
  | .separator, .list items :: rest, .comma => some ⟨.list items :: rest, .value⟩
  | .separator, .list items :: rest, .closeList => some (complete rest (.list items.reverse))
  | .separator, .object fields key :: rest, .comma => some ⟨.object fields key :: rest, .key⟩
  | .separator, .object fields _ :: rest, .closeObject => some (complete rest (.object fields))
  | _, _, _ => none

/-- The value that the tokens make up, if they make up one and nothing else. -/
def run? (machine : Machine) : List Token → Option Value
  | [] =>
      match machine.expect with
      | .nothing value => some value
      | _ => none
  | token :: rest => (machine.step? token).bind fun next => next.run? rest

end Machine

end Pipework.Json

namespace Pipework.Value

/-- The value that a JSON text stands for. -/
def read? (text : String) : Option Value :=
  (Json.scan? .between [] text.toList).bind Json.Machine.start.run?

end Pipework.Value
