import Pipework.Event
import Pipework.Pipe.Basic

/-!
# Warnings about descriptions

The parts of a description that are without effect in the compiled pipe.
-/

namespace Pipework.Pipe

/-- The warning about the wires into a module that cannot have inputs of its own. -/
def wiresIgnored? (pipe : Pipe) (step : Plan.Step) : Option Event :=
  let count := pipe.diagram.wires.countP fun wire => wire.feedsByName step.id
  if step.embedded ∧ count ≠ 0 then some (.wiresIgnored count step.id) else none

/-- The warnings about a pipe: first the modules that are not executed, then the wires that are
not used, in the order of the steps. -/
def warnings (pipe : Pipe) : List Event :=
  (pipe.pruned.map fun module => .pruned module.type module.id)
    ++ pipe.plan.steps.filterMap pipe.wiresIgnored?

end Pipework.Pipe
