import Pipework.Pipe.Basic
import Pipework.Registry

/-!
# Factories

What builds the modules of a type: a built-in type, a fixture for trying out pipes, or a compiled
pipe that runs as a module of other pipes.
-/

namespace Pipework

/-- Types of modules for trying out pipes. -/
inductive Fixture where
  /-- Gives the answers in its configuration. -/
  | emit
  /-- Sets a field of each record. -/
  | mutate
  /-- Puts the records of two inputs together. -/
  | merge
  /-- Asks its inputs in the order that its configuration gives. -/
  | pull
  /-- Passes its input on and counts how often it is built and asked. -/
  | probe
deriving DecidableEq, Inhabited

namespace Fixture

/-- Every fixture. -/
def all : List Fixture :=
  [emit, mutate, merge, pull, probe]

/-- The name of a fixture's type. -/
def name : Fixture → String
  | emit => "emit"
  | mutate => "mutate"
  | merge => "merge"
  | pull => "pull"
  | probe => "probe"

/-- The fixture with a name. -/
def ofName? (name : String) : Option Fixture :=
  all.find? fun fixture => fixture.name == name

end Fixture

/-- What builds the modules of one type. -/
inductive Factory where
  | builtin (type : Builtin)
  | fixture (fixture : Fixture)
  | pipe (inner : Pipe)
deriving Inhabited

namespace Registry

/-- The built-in types. -/
def builtins : List (String × Factory) :=
  Builtin.all.map fun type => (type.name, .builtin type)

/-- The fixtures. -/
def fixtures : List (String × Factory) :=
  Fixture.all.map fun fixture => (fixture.name, .fixture fixture)

/-- Registers the built-in types. -/
def addBuiltins (registry : Registry Factory) : Registry Factory × Except PipeError Unit :=
  registry.registerAll builtins

/-- Registers a compiled pipe under its name. -/
def addPipe (registry : Registry Factory) (name : String) (inner : Pipe) :
    Except PipeError (Registry Factory) :=
  registry.register (TypeName.ofPipe name) (.pipe inner)

/-- The registry of the built-in types. -/
def standard : Registry Factory :=
  (empty.addBuiltins).1

end Registry

end Pipework
