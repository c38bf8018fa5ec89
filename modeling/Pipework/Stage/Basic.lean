import Pipework.RunContext
import Pipework.Factory
import Pipework.Fetch
import Pipework.Fanout.Tap
import Pipework.Fanout.Fork
import Pipework.LoopRule
import Pipework.Stage.Batches
import Pipework.Stage.Pairing
import Pipework.Stage.Sampling
import Pipework.Stage.Script
import Pipework.Stage.Tally
import Pipework.Transform

/-!
# Stages

A stage is the running form of a module: what it has still to give. Stages with one consumer stand
inside of it. A stage with several consumers is a junction; its consumers refer to it by its place
in the list of the pipe's junctions, and its upstream refers to earlier junctions only.
-/

namespace Pipework

/-- A module that a loop runs, bound to everything but its input. -/
structure Embed (φ : Type) where
  id : ModuleId
  factory : φ
  context : RunContext
  conf : Conf
  /-- The module that the embedded module embeds in its turn. -/
  nested : Option (Embed φ)

/-- A stage with several consumers. -/
inductive Junction (σ : Type) where
  | fork (fork : Fork σ)
  | tap (tap : Tap σ)

/-- What is done for one input record of a stage that gives batches. -/
inductive Job (σ : Type) where
  /-- Reads a source, perhaps after waiting once. -/
  | load (conf : Conf) (item : Record) (waits : Bool)
  /-- Builds the embedded module of a loop. -/
  | instantiate (rule : LoopRule) (embed : Embed Factory) (mode : Mode) (item : Record)
  /-- Collects what the embedded module gives. -/
  | collect (rule : LoopRule) (item : Record) (stage : σ) (found : List Record)

/-- What a stage that gives batches does for each record. -/
inductive Task where
  | fetch (conf : Conf) (mode : Mode)
  | loop (rule : LoopRule) (embed : Embed Factory) (mode : Mode)

namespace Task

/-- The work on a record from its beginning. Reading a source suspends the stage once where stages
may have to wait; a path that is refused is refused before that. -/
def begin {σ : Type} (item : Record) : Task → Job σ
  | .fetch conf mode => .load conf item (mode == .async && (Fetch.path conf (some item)).isOk)
  | .loop rule embed mode => .instantiate rule embed mode item

end Task

/-- The running form of a module. -/
inductive Stage where
  /-- The sentinel: its record, without end. -/
  | sentinel
  /-- One record, without end. -/
  | constant (record : Record)
  /-- At most one record. -/
  | once (record? : Option Record)
  | scripted (script : Script)
  /-- Attributes errors to a module, by their position among its answers. -/
  | tagged (id : ModuleId) (index : Nat) (inner : Stage)
  | mapped (transform : Transform) (inner : Stage)
  | batches (task : Task) (state : Batches Stage (Job Stage))
  | tally (state : Tally Stage)
  | pairing (state : Pairing Stage)
  | sampling (state : Sampling Stage)
  /-- Passes its input on and counts the answers. -/
  | probe (id : ModuleId) (inner : Stage)
  /-- A branch of the split at a place of the junctions. -/
  | branch (junction : Nat) (index : Nat)
  /-- A consumer of the shared stage at a place of the junctions. -/
  | tap (junction : Nat)
  /-- A stage with junctions of its own. -/
  | closed (junctions : List (Junction Stage)) (out : Stage)

instance : Inhabited Stage := ⟨.sentinel⟩

/-- What a module is built from. -/
structure Arguments (φ : Type) where
  id : ModuleId
  context : RunContext
  input : Stage
  conf : Conf
  inputs : List (String × Stage)
  embed : Option (Embed φ)
  branches : Option Nat

/-- What building a module gives. -/
inductive Built where
  | single (stage : Stage)
  /-- A split with a number of branches. -/
  | fork (branches : Nat) (upstream : Stage)

end Pipework
