import Pipework.Diagram.Basic

/-!
# Plans

A plan has a step for every module that is executed. A step says where the module's inputs come
from, which module it embeds and how many consumers its stage has; its call form shows the module
as a call of its type with these arguments.
-/

namespace Pipework

/-- Where a module's default input comes from. -/
inductive Feed where
  /-- The sentinel, which gives one record forever. -/
  | sentinel
  /-- The stage of another module. -/
  | module (id : ModuleId)
  /-- The record at hand of the loop that owns the module. -/
  | record
deriving DecidableEq, Inhabited

namespace Feed

/-- The source in call forms. -/
def text : Feed → String
  | sentinel => Record.sentinelKey
  | module id => id.name
  | record => Terminal.inputName

end Feed

/-- One module of a plan, with its arguments. -/
structure Plan.Step where
  id : ModuleId
  type : String
  embedded : Bool
  input : Feed
  /-- The named inputs: the normalized name of the terminal and the module it is fed by. -/
  inputs : List (String × ModuleId)
  /-- The module that a loop runs for each record. -/
  embed : Option ModuleId
  /-- The number of branches of a split. -/
  branches : Option Nat
  conf : Conf
  /-- How many times the module's stage is taken. -/
  consumers : Nat
deriving Inhabited

namespace Plan.Step

/-- The keyword arguments of a step: its configuration, its named inputs, what it embeds and how
often it splits. -/
def keywords (step : Plan.Step) : List (String × String) :=
  [("conf", step.conf.toValue.compact)]
    ++ step.inputs.map (fun input => (input.1, input.2.name))
    ++ (step.embed.map fun embed => ("embed", embed.name)).toList
    ++ (step.branches.map fun branches => ("splits", branches.repr)).toList

/-- The step as a call. -/
def callForm (step : Plan.Step) : String :=
  step.id.name ++ " = " ++ TypeName.callName step.type ++ "("
    ++ ", ".intercalate
      (["context", step.input.text] ++ step.keywords.map fun word => word.1 ++ "=" ++ word.2)
    ++ ")"

end Plan.Step

/-- How many modules a description and its plan have. -/
structure Plan.Counts where
  total : Nat
  active : Nat
  pruned : Nat
  embedded : Nat
deriving DecidableEq, Inhabited

/-- The steps of the executed modules, each after those that it needs. -/
structure Plan where
  steps : List Plan.Step
  counts : Plan.Counts
deriving Inhabited

namespace Plan

/-- The step whose stage is the output of the pipe. -/
def last? (plan : Plan) : Option Plan.Step :=
  plan.steps.getLast?

end Plan

end Pipework
