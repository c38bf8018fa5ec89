import Pipework.Conf
import Pipework.Items
import Pipework.Json.Reader

/-!
# Fetched sources

A fetch module reads the records of a JSON file for each of its input records. The file is named by
a path or by an URL of the `file` scheme; other schemes are refused. A source that is the same for
all records is checked before the first of them.
-/

namespace Pipework.Fetch

/-- The field that names the source. -/
def urlField : ConfField := .text "URL"

/-- The scheme of local files. -/
def localStem : String := "file://"

/-- The path that an URL stands for. -/
def localPath (url : String) : Except PipeError String :=
  match Text.afterStem? localStem url with
  | some path => .ok path
  | none =>
      if Text.occurs "://".toList url.toList then
        .error (.badField urlField.name (.unsupportedSource url))
      else .ok url

/-- Whether records may name the source. -/
def isBound (conf : Conf) : Bool :=
  ((conf.descriptor? urlField.name).bind fun descriptor => descriptor.field? "subkey").isSome

/-- The path of the source for a record, or for none. -/
def path (conf : Conf) (item : Option Record) : Except PipeError String := do
  localPath (← conf.nonemptyText urlField item)

/-- Refuses a configuration that cannot name a source, unless records may name it. -/
def checkConf (conf : Conf) : Except PipeError Unit :=
  if isBound conf then .ok () else (path conf none).map fun _ => ()

/-- The records in what was read of a source. -/
def records : Except FileError String → Except PipeError (List Record)
  | .error error => .error (.file error)
  | .ok text =>
      match Value.read? text with
      | some document => .ok (Items.ofDocument document)
      | none => .error .json

end Pipework.Fetch
