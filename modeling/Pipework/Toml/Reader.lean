import Pipework.Toml.Scalar
import Pipework.Toml.Table

/-!
# Reading TOML

A document is a list of lines: headers of tables, keys with their values, and comments. Lists may
go over several lines, tables in braces may not.
-/

namespace Pipework.Toml

/-- The rest of a text behind white space within the line. -/
def skipBlanks (text : List Char) : List Char :=
  text.dropWhile isBlank

/-- The rest of a text behind the end of a line. At the end of the text there is one too. -/
def lineEnd? : List Char → Option (List Char)
  | [] => some []
  | '\n' :: rest => some rest
  | '\r' :: '\n' :: rest => some rest
  | _ => none

/-- The rest of a text behind a comment, if there is one. -/
def skipComment : List Char → List Char
  | '#' :: rest => rest.dropWhile isVisible
  | rest => rest

/-- The rest of a text behind what may stand at the end of a line. -/
def restOfLine? (text : List Char) : Option (List Char) :=
  lineEnd? (skipComment (skipBlanks text))

/-- The rest of a text behind white space, comments and ends of lines. -/
def skipLines : Nat → List Char → List Char
  | 0, text => text
  | steps + 1, text =>
      let next := skipComment (skipBlanks text)
      match next with
      | '\n' :: rest => skipLines steps rest
      | '\r' :: '\n' :: rest => skipLines steps rest
      | rest => rest

/-- Reads one key. -/
def readKey? : Reader String := fun text =>
  match text with
  | '"' :: _ | '\x27' :: _ => (readLine? text).map fun (key, rest) => (String.ofList key, rest)
  | _ =>
      let key := text.takeWhile isBare
      if key.isEmpty then none else some (String.ofList key, text.dropWhile isBare)

/-- How deep lists and tables in braces may be nested, and how many keys a path may have. -/
def maxDepth : Nat := 79

/-- Reads at most so many keys with dots between them. -/
def readKeys? : Nat → Reader (List String)
  | 0, _ => none
  | steps + 1, text => do
      let (key, rest) ← readKey? (skipBlanks text)
      match skipBlanks rest with
      | '.' :: rest =>
          let (path, rest) ← readKeys? steps rest
          return (key :: path, rest)
      | rest => return ([key], rest)

/-- Reads a path of keys. -/
def readPath? : Reader (List String) :=
  readKeys? maxDepth

mutual

/-- Reads a value. -/
def readValue? (depth : Nat) : Nat → Reader Value
  | 0, _ => none
  | steps + 1, text =>
      match text, depth with
      | '[' :: rest, inner + 1 => do
          let (items, rest) ← readItems? inner steps rest
          return (.list items, rest)
      | '{' :: rest, inner + 1 => do
          let rest := skipBlanks rest
          match rest with
          | '}' :: rest => return (.object .empty, rest)
          | _ => do
              let (entries, rest) ← readEntries? inner steps [] rest
              return ((Node.table .own entries).toValue, rest)
      | '[' :: _, 0 => none
      | '{' :: _, 0 => none
      | '"' :: _, _ => (readText? text).map fun (text, rest) => (.text (String.ofList text), rest)
      | '\x27' :: _, _ =>
          (readText? text).map fun (text, rest) => (.text (String.ofList text), rest)
      | _, _ => readWord? text

/-- Reads the items of a list up to its end. -/
def readItems? (depth : Nat) : Nat → Reader (List Value)
  | 0, _ => none
  | steps + 1, text =>
      let text := skipLines text.length text
      match text with
      | ']' :: rest => some ([], rest)
      | _ => do
          let (item, rest) ← readValue? depth steps text
          match skipLines rest.length rest with
          | ',' :: rest => do
              let (items, rest) ← readItems? depth steps rest
              return (item :: items, rest)
          | ']' :: rest => return ([item], rest)
          | _ => none

/-- Reads the entries of a table in braces up to its end. -/
def readEntries? (depth : Nat) : Nat → Entries → Reader Entries
  | 0, _, _ => none
  | steps + 1, entries, text => do
      let (path, rest) ← readPath? text
      let (value, rest) ← readValue? depth steps (skipBlanks (← after? '=' rest))
      let key ← path.getLast?
      let entries ← insertValue? path.dropLast key (.leaf value) entries
      match skipBlanks rest with
      | ',' :: rest => readEntries? depth steps entries rest
      | '}' :: rest => return (entries, rest)
      | _ => none

end

/-- Reads a key and its value into a document. -/
def readEntry? (document : Document) (text : List Char) : Option (Document × List Char) := do
  let (path, rest) ← readPath? text
  let value := skipBlanks (← after? '=' rest)
  let (value, rest) ← readValue? maxDepth (value.length + 1) value
  let key ← path.getLast?
  return (← document.insert? path.dropLast key value, ← restOfLine? rest)

/-- Reads the header of a table. -/
def readHeader? (document : Document) (text : List Char) : Option (Document × List Char) := do
  match text with
  | '[' :: rest =>
      let (path, rest) ← readPath? rest
      return (← document.start? path true, ← restOfLine? (← after? ']' (← after? ']' rest)))
  | rest =>
      let (path, rest) ← readPath? rest
      return (← document.start? path false, ← restOfLine? (← after? ']' rest))

/-- Reads the lines of a document, within a number of steps. -/
def readLines? : Nat → Document → List Char → Option Document
  | 0, _, _ => none
  | steps + 1, document, text =>
      match skipBlanks text with
      | [] => some document
      | '[' :: rest => do
          let (document, rest) ← readHeader? document rest
          readLines? steps document rest
      | c :: rest => do
          if c = '#' ∨ c = '\n' ∨ c = '\r' then
            readLines? steps document (← restOfLine? (c :: rest))
          else do
            let (document, rest) ← readEntry? document (c :: rest)
            readLines? steps document rest

/-- The rest of a text behind a byte order mark. -/
def skipMark : List Char → List Char
  | '\uFEFF' :: rest => rest
  | text => text

/-- Reads a document as a table. -/
def read? (text : String) : Option Value := do
  let text := skipMark text.toList
  let document ← readLines? (text.length + 1) .empty text
  let root ← document.finish?
  return (Node.table .own root).toValue

end Pipework.Toml
