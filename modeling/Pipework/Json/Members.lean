import Pipework.Json.Value

/-!
# Members of a structured value

A value of a type with named members is written as an object, where members may be missing and
others are ignored, or as a list, which fills the members in the order of their declaration.
-/

namespace Pipework.Value

/-- The members of a value under their names. In a `closed` format a list must not be longer than
there are members. -/
def members? (names : List String) (closed : Bool) : Value → Option (Dict Value)
  | .object fields => some fields
  | .list items =>
      if closed ∧ names.length < items.length then none else some ⟨names.zip items⟩
  | _ => none

/-- A member read by a function that may refuse it; a missing member has a default. -/
def member? {α : Type} (members : Dict Value) (name : String) (missing : α)
    (read : Value → Option α) : Option α :=
  match members.get? name with
  | some value => read value
  | none => some missing

end Pipework.Value
