import Pipework.Event
import Pipework.Stage.Basic

/-!
# Surroundings of a run

A run reads files, asks the user, reports events and waits for the clock. What does not change
meanwhile is its setting; everything else is the state of its world. A run within a budget of steps
gives nothing when the budget does not suffice.
-/

namespace Pipework

/-- What stays the same during a run. -/
structure Setting where
  /-- The texts of files, by their paths. -/
  read : String → Except FileError String
  /-- The local time that dates are read relative to. -/
  now : DateTime
  registry : Registry Factory

namespace Setting

/-- How deep pipes may be nested in one another: no deeper than there are types, unless a pipe is
nested in itself. -/
def depth (setting : Setting) : Nat :=
  setting.registry.factories.entries.length + 1

end Setting

/-- How often a probe was built and how many answers it passed on, ends included. -/
structure ProbeCount where
  builds : Nat
  pulls : Nat
deriving DecidableEq, Inhabited

/-- What a run leaves behind and what is left for it. -/
structure World where
  /-- The milliseconds that have passed. -/
  clock : Nat := 0
  /-- The earliest time at which a stage that waits may go on. -/
  alarm : Option Nat := none
  /-- The lines that the user has still to give. -/
  lines : List String := []
  /-- What the user has been asked. -/
  questions : List String := []
  events : List Event := []
  /-- The counts of the probes, by the ids of their modules. -/
  probes : Dict ProbeCount := .empty
  /-- The paths of the files that have been read. -/
  reads : List String := []
deriving Inhabited

/-- A computation in a world, perhaps without a result for want of steps. -/
abbrev Run := StateT World Option

namespace Run

/-- Reports an event. -/
def report (event : Event) : Run Unit :=
  modify fun world => { world with events := world.events ++ [event] }

/-- Reads a file. -/
def readFile (setting : Setting) (path : String) : Run (Except FileError String) := do
  modify fun world => { world with reads := world.reads ++ [path] }
  return setting.read path

/-- Asks the user and gives the line of the answer, empty at the end of the input. -/
def ask (question : String) : Run String := do
  let world ← get
  set { world with questions := world.questions ++ [question], lines := world.lines.tail }
  return world.lines.head?.getD ""

/-- Sees to it that what waits is asked again at a time. -/
def wakeAt (time : Nat) : Run Unit :=
  modify fun world =>
    { world with alarm := some (match world.alarm with
        | some earlier => min earlier time
        | none => time) }

/-- Changes the count of a probe. -/
def count (id : ModuleId) (change : ProbeCount → ProbeCount) : Run Unit :=
  modify fun world =>
    let before := (world.probes.get? id.name).getD default
    { world with probes := world.probes.insert id.name (change before) }

end Run

/-- A computation that may change the junctions in scope. -/
abbrev Flow := StateT (List (Junction Stage)) Run

end Pipework
