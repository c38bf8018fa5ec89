import Pipework.Error
import Pipework.Builtin
import Pipework.Text.Quoted

/-!
# Registries

A registry knows how modules of each type are built. A type is registered once: a second
registration is refused and leaves the first in place.
-/

namespace Pipework

/-- What builds the modules of each registered type. -/
structure Registry (φ : Type) where
  factories : Dict φ

namespace Registry

variable {φ : Type}

/-- A registry without types. -/
def empty : Registry φ := ⟨.empty⟩

instance : Inhabited (Registry φ) := ⟨empty⟩

/-- Whether a type is registered. -/
def contains (registry : Registry φ) (type : String) : Bool :=
  registry.factories.contains type

/-- What builds the modules of a type. -/
def get (registry : Registry φ) (type : String) : Except PipeError φ :=
  match registry.factories.get? type with
  | some factory => .ok factory
  | none => .error (.unknownType type)

/-- Registers a type. -/
def register (registry : Registry φ) (type : String) (factory : φ) :
    Except PipeError (Registry φ) :=
  if registry.contains type then .error (.duplicateType type)
  else .ok ⟨registry.factories.insert type factory⟩

/-- Registers types one after the other up to the first that is refused. The types before it stay
registered. -/
def registerAll (registry : Registry φ) :
    List (String × φ) → Registry φ × Except PipeError Unit
  | [] => (registry, .ok ())
  | (type, factory) :: rest =>
      match registry.register type factory with
      | .error error => (registry, .error error)
      | .ok next => next.registerAll rest

/-- The registered types, in increasing order. -/
def types (registry : Registry φ) : List String :=
  registry.factories.keys

/-- The registry as shown to programmers. -/
def debugText (registry : Registry φ) : String :=
  "StageRegistry \x7b module_types: ["
    ++ ", ".intercalate (registry.types.map Text.quote) ++ "] \x7d"

end Registry

end Pipework
