/-!
# Pieces of a text

Cutting a text at a mark: at every one or at the first one only. Joined by the mark again, the
pieces are the text.
-/

namespace Pipework.Text

/-- Cuts at every mark, with the characters read so far in reverse. There is always one piece more
than there are marks. -/
def cutFrom (mark : Char) (read : List Char) : List Char → List (List Char)
  | [] => [read.reverse]
  | c :: rest =>
      if c = mark then read.reverse :: cutFrom mark [] rest else cutFrom mark (c :: read) rest

/-- The pieces of a text between the marks. -/
def pieces (mark : Char) (text : String) : List String :=
  (cutFrom mark [] text.toList).map String.ofList

/-- What stands before the first mark and what stands behind it, if there is a mark. -/
def cutOnce? (mark : Char) (text : List Char) : Option (List Char × List Char) :=
  match text.dropWhile fun c => c != mark with
  | _ :: rest => some (text.takeWhile fun c => c != mark, rest)
  | [] => none

/-- What stands behind a beginning, if the text has that beginning. -/
def afterStem? (stem text : String) : Option String :=
  if stem.toList.isPrefixOf text.toList then
    some (String.ofList (text.toList.drop stem.toList.length))
  else none

/-- Whether a text has the characters of another one, next to each other. -/
def occurs (part : List Char) : List Char → Bool
  | [] => part.isEmpty
  | c :: rest => part.isPrefixOf (c :: rest) || occurs part rest

end Pipework.Text
