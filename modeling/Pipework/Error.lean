import Pipework.Conf.FieldType
import Pipework.Ident
import Pipework.Json.Printer

/-!
# Errors

What can go wrong between a description and a record, by cause. The wording of a cause is in its
`message` and nowhere else. Two constructors attribute an error to a module, `construction` and
`production`; both leave an error alone that has been attributed before.
-/

namespace Pipework

/-- What is wrong at a place of a description. -/
inductive Defect where
  | descriptionNotObject
  | moduleNotObject
  | wireNotObject
  | missingField
  | notText
  | emptyText
  | missingWireEnd
  | idCollision (raw existing : String)
  | loopWithoutEmbed
  | unknownParent
  | unknownModule
  | wiredTwice (input : String) (module : ModuleId)
  | noEmbedReference
  | embedNotBound
  | recordOutsideLoop
  | notAssembled
  | uncountable
  | other (text : String)
deriving DecidableEq, Inhabited

namespace Defect

/-- The wording of a defect. -/
def message : Defect → String
  | descriptionNotObject => "description must be an object"
  | moduleNotObject => "module must be an object"
  | wireNotObject => "wire must be an object"
  | missingField => "missing field"
  | notText => "must be a string"
  | emptyText => "must not be empty"
  | missingWireEnd => "missing endpoint"
  | idCollision raw existing =>
      "module id '" ++ raw ++ "' collides with '" ++ existing ++ "' after normalization"
  | loopWithoutEmbed => "loop without embedded module"
  | unknownParent => "unknown parent loop"
  | unknownModule => "module vanished during compile"
  | wiredTwice input module =>
      "input '" ++ input ++ "' of module '" ++ module.name ++ "' is wired twice"
  | noEmbedReference => "loop references no embedded module"
  | embedNotBound => "embedded module not bound"
  | recordOutsideLoop => "runtime input outside a loop"
  | notAssembled => "stage referenced before it was assembled"
  | uncountable => "dependencies cannot be counted"
  | other text => text

end Defect

/-- What is wrong with a configuration field. -/
inductive FieldDefect where
  | unreadable (value : Value) (kind : FieldType)
  | missing
  | unsupportedSource (url : String)
  | unknownPart (text : String)
  | noEmbed
  | other (text : String)
deriving Inhabited

namespace FieldDefect

/-- The wording of a defect. -/
def message : FieldDefect → String
  | unreadable value kind => "cannot read " ++ value.compact ++ " as " ++ kind.noun
  | missing => "missing required value"
  | unsupportedSource url =>
      "unsupported source '" ++ url ++ "', only local files can be fetched"
  | unknownPart text => "expected 'all' or 'first', got '" ++ text ++ "'"
  | noEmbed => "loop has no embedded module"
  | other text => text

end FieldDefect

/-- Why a module could not make a record. -/
inductive ModuleFault where
  | unrecognizedDate (text : String)
  | dateOutOfRange (text : String)
  | unknownCurrency (currency : String)
  /-- A consumer was to be attached to a fan-out that is gone. -/
  | sourceDropped
  | other (text : String)
deriving DecidableEq, Inhabited

namespace ModuleFault

/-- The wording of a fault. -/
def message : ModuleFault → String
  | unrecognizedDate text => "Unrecognized date string: " ++ text
  | dateOutOfRange text => "Date out of range: " ++ text
  | unknownCurrency currency => "no exchange rate for USD/" ++ currency
  | sourceDropped => "source dropped"
  | other text => text

end ModuleFault

/-- Why a file could not be read or written. -/
inductive FileError where
  | notFound
  | isDirectory
  | notDirectory
  | exists
  | invalidText
deriving DecidableEq, Inhabited

namespace FileError

/-- The wording of a file error, with the number of the system's error. -/
def message : FileError → String
  | notFound => "No such file or directory (os error 2)"
  | isDirectory => "Is a directory (os error 21)"
  | notDirectory => "Not a directory (os error 20)"
  | .exists => "File exists (os error 17)"
  | invalidText => "stream did not contain valid UTF-8"

end FileError

/-- An error of compiling, assembling or running a pipe. -/
inductive PipeError where
  | malformed (path : String) (defect : Defect)
  | cyclic (nodes : List ModuleId)
  | looseWire (wire : WireId) (module : ModuleId)
  | unknownType (type : String)
  | duplicateType (type : String)
  | notBuilt (module : ModuleId) (source : PipeError)
  | notProduced (module : ModuleId) (index : Nat) (source : PipeError)
  | noBranchLeft (module : ModuleId) (branches : Nat)
  | badField (field : String) (defect : FieldDefect)
  | module (fault : ModuleFault)
  | timeout (module : ModuleId) (index : Nat)
  | emptyPipe
  | stageTaken (module : ModuleId)
  | file (error : FileError)
  | json
deriving Inhabited

namespace PipeError

/-- The wording of an error. An attribution shows its source behind it. -/
def message : PipeError → String
  | malformed path defect => "Malformed graph at " ++ path ++ ": " ++ defect.message
  | cyclic nodes =>
      "Cycle detected in pipeline graph, unresolved modules: "
        ++ ", ".intercalate (nodes.map ModuleId.name)
  | looseWire wire id =>
      "Wire " ++ wire.name ++ " references unknown module " ++ id.name
  | unknownType type => "No stage constructor registered for module type '" ++ type ++ "'"
  | duplicateType type =>
      "Stage constructor for module type '" ++ type ++ "' is already registered"
  | notBuilt id source =>
      "Failed to construct stage for module " ++ id.name ++ ": " ++ source.message
  | notProduced id index source =>
      "Module " ++ id.name ++ " failed producing record #" ++ index.repr ++ ": "
        ++ source.message
  | noBranchLeft id branches =>
      "Split " ++ id.name ++ " has " ++ branches.repr ++ " outputs, tried to activate another"
  | badField field defect =>
      "Invalid configuration field '" ++ field ++ "': " ++ defect.message
  | .module fault => fault.message
  | timeout id index =>
      "Module " ++ id.name ++ " timed out producing record #" ++ index.repr
  | emptyPipe => "Pipeline has no executable modules"
  | stageTaken id => "Stage for module " ++ id.name ++ " was already consumed"
  | file error => "IO error: " ++ error.message
  | json => "JSON error: "

/-- Attributes a failed construction to a module, unless it has been attributed already. -/
def whileBuilding (id : ModuleId) : PipeError → PipeError
  | notBuilt inner source => notBuilt inner source
  | other => notBuilt id other

/-- Attributes a failed record to a module and a position, unless a stage before has done so or
the record timed out. -/
def whileProducing (id : ModuleId) (index : Nat) : PipeError → PipeError
  | notProduced inner position source => notProduced inner position source
  | timeout inner position => timeout inner position
  | other => notProduced id index other

/-- The module that an error names as its place. -/
def attributed? : PipeError → Option ModuleId
  | looseWire _ id => some id
  | notBuilt id _ => some id
  | notProduced id _ _ => some id
  | noBranchLeft id _ => some id
  | timeout id _ => some id
  | stageTaken id => some id
  | _ => none

end PipeError

/-- An error of the program around the pipes. -/
inductive AppError where
  | config (text : String)
  | file (error : FileError)
  | serialization (text : String)
  | pipeline (error : PipeError)
  | inContext (context : String) (source : AppError)
deriving Inhabited

namespace AppError

/-- The wording of an error; an error of a pipe is worded as it is there. -/
def message : AppError → String
  | config text => "Configuration error: " ++ text
  | file error => "IO error: " ++ error.message
  | serialization text => "Serialization error: " ++ text
  | pipeline error => error.message
  | inContext context source => context ++ ": " ++ source.message

end AppError

end Pipework
