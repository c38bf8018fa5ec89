import Pipework.Decimal.Reading

/-!
# Identifiers

Descriptions may name modules and wires with any characters. Before anything is looked up a name is
normalized to the form of an identifier. Normalizing forgets which separator a name had, so two
different names may become one identifier.
-/

namespace Pipework

namespace Ident

/-- The characters that identifiers cannot have. -/
def isSeparator (c : Char) : Bool :=
  c == '-' || c == ':' || c == '/'

/-- An underscore for a separator and any other character itself. -/
def plain (c : Char) : Char :=
  if isSeparator c then '_' else c

/-- An underscore in front of a name that starts with an ASCII digit. -/
def guardDigit : List Char → List Char
  | [] => []
  | c :: rest => if Decimal.isDigit c then '_' :: c :: rest else c :: rest

end Ident

/-- The identifier of a name. -/
def normalize (raw : String) : String :=
  String.ofList (Ident.guardDigit (raw.toList.map Ident.plain))

/-- The normalized id of a module, embedded or not. -/
structure ModuleId where
  name : String
deriving DecidableEq, Inhabited

namespace ModuleId

/-- The id that a description's name stands for. -/
def ofRaw (raw : String) : ModuleId := ⟨normalize raw⟩

/-- The id with the name of its type. -/
def debugText (id : ModuleId) : String :=
  "ModuleId(" ++ id.name ++ ")"

end ModuleId

/-- The normalized id of a wire. -/
structure WireId where
  name : String
deriving DecidableEq, Inhabited

namespace WireId

/-- The id that a description's name stands for. -/
def ofRaw (raw : String) : WireId := ⟨normalize raw⟩

/-- The id with the name of its type. -/
def debugText (id : WireId) : String :=
  "WireId(" ++ id.name ++ ")"

end WireId

end Pipework
