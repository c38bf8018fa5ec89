import Pipework.Error
import Pipework.Text.Pieces

/-!
# File trees

Files and directories below a working directory, named by paths relative to it. A path is followed
name by name; every name but the last must be that of a directory. Nothing outside the working
directory is known but that its parent is a directory.
-/

namespace Pipework

/-- The names that lead from the working directory to a place below it. -/
abbrev Location := List String

namespace FileTree

/-- What stands at a place of the tree. -/
inductive Node where
  /-- A file with its text, if what it holds is a text. -/
  | file (text? : Option String)
  | directory
deriving DecidableEq, Inhabited

end FileTree

/-- Files and directories by their places. The working directory itself is not listed. -/
structure FileTree where
  nodes : List (Location × FileTree.Node)
deriving Inhabited

namespace FileTree

/-- A working directory with nothing in it. -/
def empty : FileTree := ⟨[]⟩

/-- What stands at a place. -/
def node? (tree : FileTree) (place : Location) : Option Node :=
  if place = [] then some .directory else tree.nodes.lookup place

/-- Goes on from a directory to one of its names. Outside of the working directory no name leads
anywhere. -/
def step (tree : FileTree) (here : Option Location) (name : String) :
    Except FileError (Option Location) :=
  let stays := name = "" ∨ name = "."
  match here with
  | none => if stays ∨ name = ".." then .ok none else .error .notFound
  | some place =>
      match tree.node? place with
      | none => .error .notFound
      | some (.file _) => .error .notDirectory
      | some .directory =>
          if stays then .ok here
          else if name = ".." then .ok (if place = [] then none else some place.dropLast)
          else
            match tree.node? (place ++ [name]) with
            | some _ => .ok (some (place ++ [name]))
            | none => .error .notFound

/-- Where a path starts: in the working directory, unless it is absolute. -/
def start (path : String) : Option Location :=
  if path.toList.head? = some '/' then none else some []

/-- The place that a path leads to. -/
def follow (tree : FileTree) (path : String) : Except FileError (Option Location) :=
  if path.isEmpty then .error .notFound
  else (Text.pieces '/' path).foldlM tree.step (start path)

/-- What a path leads to. -/
def find (tree : FileTree) (path : String) : Except FileError Node := do
  match ← tree.follow path with
  | none => return .directory
  | some place =>
      match tree.node? place with
      | some node => return node
      | none => .error .notFound

/-- The text of a file. -/
def read (tree : FileTree) (path : String) : Except FileError String := do
  match ← tree.find path with
  | .directory => .error .isDirectory
  | .file none => .error .invalidText
  | .file (some text) => return text

/-- Puts something at a place, instead of what stood there. -/
def put (tree : FileTree) (place : Location) (node : Node) : FileTree :=
  ⟨(place, node) :: tree.nodes.filter fun entry => entry.1 != place⟩

/-- The directory that names lead to. -/
def enter (tree : FileTree) (top : Option Location) (names : List String) :
    Except FileError (Option Location) :=
  (names ++ ["."]).foldlM tree.step top

/-- Makes one directory in a directory that is there. -/
def makeDirectory (tree : FileTree) (top : Option Location) (names : List String) :
    Except FileError FileTree :=
  match names.getLast? with
  | none => .error .exists
  | some name => do
      match ← tree.enter top names.dropLast with
      | none => .error (if name = ".." then .exists else .notFound)
      | some place =>
          if name = ".." ∨ (tree.node? (place ++ [name])).isSome then .error .exists
          else return tree.put (place ++ [name]) .directory

/-- Makes one directory unless it is there. -/
def ensureDirectory (tree : FileTree) (top : Option Location) (names : List String) :
    Except FileError FileTree :=
  match tree.makeDirectory top names, tree.enter top names with
  | .error .exists, .ok _ => .ok tree
  | made, _ => made

/-- Makes a directory, and before it those above it if one of them is missing. The names come in
reverse. -/
def makeUpward (tree : FileTree) (top : Option Location) :
    List String → FileTree × Except FileError Unit
  | [] => (tree, .ok ())
  | name :: above =>
      let ensure (tree : FileTree) : FileTree × Except FileError Unit :=
        match tree.ensureDirectory top (name :: above).reverse with
        | .ok made => (made, .ok ())
        | .error error => (tree, .error error)
      match ensure tree with
      | (_, .error .notFound) =>
          match makeUpward tree top above with
          | (tree, .ok ()) => ensure tree
          | failed => failed
      | done => done

/-- The names of a path. Slashes next to each other are one. -/
def names (path : String) : List String :=
  (Text.pieces '/' path).filter fun name => name != ""

/-- The names of a path that lead somewhere. -/
def moves (path : String) : List String :=
  (names path).filter fun name => name != "."

/-- Makes the directories that a path needs above its last name. -/
def makeParents (tree : FileTree) (path : String) : FileTree × Except FileError Unit :=
  tree.makeUpward (start path) (moves path).dropLast.reverse

/-- Whether a path ends in a slash. -/
def endsInSlash (path : String) : Bool :=
  path.toList.getLast? == some '/'

/-- Writes a file into a directory that is there. A path that can only be that of a directory is
refused. -/
def write (tree : FileTree) (path text : String) : Except FileError FileTree :=
  match (names path).getLast? with
  | none => .error (if path.isEmpty then .notFound else .isDirectory)
  | some name => do
      let here ← tree.enter (start path) (names path).dropLast
      if name = "." ∨ name = ".." ∨ endsInSlash path then .error .isDirectory
      else
        match here with
        | none => .error .notFound
        | some place =>
            if tree.node? (place ++ [name]) = some .directory then .error .isDirectory
            else return tree.put (place ++ [name]) (.file (some text))

/-- Adds a file, or a directory if the path ends in a slash, and the directories above it. -/
def add (tree : FileTree) (path : String) (text? : Option String) : FileTree :=
  let parents := (tree.makeParents path).1
  if endsInSlash path then (parents.makeUpward (start path) (moves path).reverse).1
  else parents.put (moves path) (.file text?)

end FileTree

end Pipework
