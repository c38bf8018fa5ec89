import Pipework.Answer
import Pipework.Terminal

/-!
# Sampling

A stage that asks its inputs in a given order and reports what each of them gave. An input that has
ended is not asked again, and an input may be given up.
-/

namespace Pipework

/-- The entries that are left and the inputs by name. An input that has ended is listed without a
stage. -/
structure Sampling (ι : Type) where
  script : List String
  inputs : List (String × Option ι)

namespace Sampling

variable {ι : Type}

/-- The beginning of an entry that gives up an input. -/
def dropStem : String := "drop:"

/-- The report on an input. -/
def report (name : String) (key : String) (value : Value) : Answer :=
  .ok (.ofList [("from", .text name), (key, value)])

/-- Files what is left of an input. -/
def keep (inputs : List (String × Option ι)) (name : String) (input : Option ι) :
    List (String × Option ι) :=
  inputs.map fun entry => if entry.1 = name then (name, input) else entry

/-- Asks for the report on the next entry. -/
def poll {m : Type → Type} [Monad m] (ask : ι → m (Poll × ι)) (sampling : Sampling ι) :
    m (Poll × Sampling ι) :=
  match sampling.script with
  | [] => pure (.ended, sampling)
  | entry :: rest =>
      let done : Sampling ι := { sampling with script := rest }
      match Text.afterStem? dropStem entry with
      | some name =>
          pure (.answer (.ok (.ofList [("dropped", .text name),
              ("found", .bool (sampling.inputs.lookup name).isSome)])),
            { done with inputs := sampling.inputs.filter fun input => input.1 != name })
      | none =>
          match sampling.inputs.lookup entry with
          | none => pure (.answer (report entry "missing" (.bool true)), done)
          | some none => pure (.answer (report entry "end" (.bool true)), done)
          | some (some input) => do
              let (poll, input) ← ask input
              match poll with
              | .pending =>
                  return (.pending,
                    { sampling with inputs := keep sampling.inputs entry (some input) })
              | .ended =>
                  return (.answer (report entry "end" (.bool true)),
                    { done with inputs := keep sampling.inputs entry none })
              | .answer (.ok record) =>
                  return (.answer (report entry "got" (.object record)),
                    { done with inputs := keep sampling.inputs entry (some input) })
              | .answer (.error error) =>
                  return (.answer (.error error),
                    { done with inputs := keep sampling.inputs entry (some input) })

end Sampling

end Pipework
