import Pipework.Ident

/-!
# Module types

A description names the type of a module by a text. Some types are built in, a type whose name
starts with `pipe:` is a registered pipe, and others may be registered under any name.
-/

namespace Pipework

/-- The types that are built in. -/
inductive Builtin where
  | output
  | split
  | loop
  | count
  | fetch
  | textInput
  | numberInput
  | urlInput
  | privateInput
  | dateBuilder
  | exchangeRate
deriving DecidableEq, Inhabited

namespace Builtin

/-- Every built-in type, in the order in which they are registered. -/
def all : List Builtin :=
  [output, split, loop, count, fetch, textInput, numberInput, urlInput, privateInput, dateBuilder,
    exchangeRate]

/-- The name of a type in descriptions. -/
def name : Builtin → String
  | output => "output"
  | split => "split"
  | loop => "loop"
  | count => "count"
  | fetch => "fetch"
  | textInput => "textinput"
  | numberInput => "numberinput"
  | urlInput => "urlinput"
  | privateInput => "privateinput"
  | dateBuilder => "datebuilder"
  | exchangeRate => "exchangerate"

/-- The type with a name. -/
def ofName? (name : String) : Option Builtin :=
  all.find? fun type => type.name == name

/-- No two built-in types have one name. -/
theorem name_injective {first second : Builtin} (h : first.name = second.name) :
    first = second := by
  revert h
  cases first <;> cases second <;> decide

end Builtin

namespace TypeName

/-- The type of modules that own an embedded module. -/
def loop : String := Builtin.loop.name

/-- The type of modules with several branches. -/
def split : String := Builtin.split.name

/-- The beginning of the type names of registered pipes. -/
def pipeStem : String := "pipe:"

/-- The type name of a registered pipe. -/
def ofPipe (name : String) : String :=
  pipeStem ++ name

/-- The name of a type in call forms and lists of dependencies. The type of a registered pipe is
normalized, any other is put behind `pipe`. -/
def callName (type : String) : String :=
  if pipeStem.toList.isPrefixOf type.toList then normalize type else "pipe" ++ type

end TypeName

end Pipework
