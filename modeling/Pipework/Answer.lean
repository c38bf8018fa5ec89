import Pipework.Error
import Pipework.Record

/-!
# Answers

A stage answers with records and errors, one at a time, until it ends. Asking a stage that has to
wait may come to nothing yet; it is asked again later and has lost nothing.
-/

namespace Pipework

/-- What a stage produces: a record, or the error that took its place. -/
abbrev Answer := Except PipeError Record

/-- What asking a stage once comes to. -/
inductive Poll where
  /-- There is nothing yet. -/
  | pending
  /-- There will be nothing more. -/
  | ended
  | answer (answer : Answer)
deriving Inhabited

namespace Poll

/-- Whether the stage did not have to wait. -/
def isReady : Poll → Bool
  | pending => false
  | _ => true

/-- Changes the answer, if there is one. -/
def mapAnswer (change : Answer → Answer) : Poll → Poll
  | answer given => answer (change given)
  | other => other

end Poll

/-- How a pipe is executed. -/
inductive Mode where
  /-- Asking a stage comes to an answer or to the end at once. -/
  | sync
  /-- Stages may have to wait. -/
  | async
deriving DecidableEq, Inhabited

end Pipework
