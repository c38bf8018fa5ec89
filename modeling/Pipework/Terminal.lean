/-!
# Terminals

A wire ends at a terminal of a module, known by its name. One name is the default input, every name
with a certain beginning is an output, and on the receiving side all others are named inputs.
-/

namespace Pipework

/-- A terminal's name, as the description has it. -/
structure Terminal where
  name : String
deriving DecidableEq, Inhabited

namespace Terminal

/-- The name of the default input. -/
def inputName : String := "_INPUT"

/-- The beginning of the name of every output. -/
def outputStem : String := "_OUTPUT"

/-- Whether it is the default input. -/
def isMain (terminal : Terminal) : Bool :=
  terminal.name == inputName

/-- Whether it is an output, the first one or a further one. -/
def isOutput (terminal : Terminal) : Bool :=
  outputStem.toList.isPrefixOf terminal.name.toList

end Terminal

end Pipework
