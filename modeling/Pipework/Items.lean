import Pipework.Record

/-!
# Items of a document

A fetched document holds records: the items of a list, or of an object's list `items`. Any other
document is a single item. An item that is no object becomes the content of a record.
-/

namespace Pipework.Items

/-- The key under which a document lists its items. -/
def itemsKey : String := "items"

/-- The key under which a record has an item that is no object. -/
def valueKey : String := "content"

/-- The items of a document. -/
def split : Value → List Value
  | .list items => items
  | .object fields =>
      match fields.get? itemsKey with
      | some (.list items) => items
      | _ => [.object fields]
  | scalar => [scalar]

/-- An item as a record. -/
def toRecord : Value → Record
  | .object fields => fields
  | other => Dict.single valueKey other

/-- The records of a document. -/
def ofDocument (document : Value) : List Record :=
  (split document).map toRecord

end Pipework.Items
