import Pipework.Conf

/-!
# Loop rules

A loop runs its embedded module for each input record. What becomes of the records that this gives
is the loop's rule: they take the place of the input record, or they are filed in it; and it may be
all of them or the first one.
-/

namespace Pipework

/-- Which of the records of an embedded module count. -/
inductive Extent where
  | all
  | first
deriving DecidableEq, Inhabited

namespace Extent

/-- The extent that a field names. -/
def ofConf (conf : Conf) (spec : ConfField) : Except PipeError Extent := do
  let text ← conf.text spec none
  if text = "all" then return .all
  else if text = "first" then return .first
  else .error (.badField spec.name (.unknownPart text))

end Extent

/-- What a loop makes of an input record and the records for it. -/
inductive LoopRule where
  /-- They are filed in the input record under a key. -/
  | assign (key : String) (part : Extent)
  /-- They take the place of the input record. -/
  | emit (part : Extent)
deriving DecidableEq, Inhabited

namespace LoopRule

/-- The field that names the rule. -/
def modeField : ConfField := (ConfField.text "mode").orElse "assign"

/-- The field with the key under which records are filed. -/
def keyField : ConfField := (ConfField.text "assign_to").orElse "loop"

/-- The field that names the part to be filed. -/
def assignField : ConfField := (ConfField.text "assign_part").orElse "all"

/-- The field that names the part to be given. -/
def emitField : ConfField := (ConfField.text "emit_part").orElse "all"

/-- The rule that a configuration asks for. The case of ASCII letters does not matter in the rule's
name, and any other name than that of giving is that of filing. -/
def ofConf (conf : Conf) : Except PipeError LoopRule := do
  let name ← conf.text modeField none
  if Text.toAsciiLower name = "emit" then return .emit (← Extent.ofConf conf emitField)
  else
    let key ← conf.text keyField none
    return .assign key (← Extent.ofConf conf assignField)

/-- The records that a loop gives for an input record. -/
def apply (item : Record) (results : List Record) : LoopRule → List Record
  | .emit .all => results
  | .emit .first => results.take 1
  | .assign key .all => [item.insert key (.list (results.map .object))]
  | .assign key .first => [item.insert key ((results.head?.map .object).getD .null)]

end LoopRule

end Pipework
