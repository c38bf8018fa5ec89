import Pipework.Proofs.Mode.Following

/-! # Stages of pipes that run as modules

Modules of a pipe that runs as a module are built in contexts that differ in their flags at most.
Stages are akin if they are the same but for such contexts, which the loops among them hand on to
what they embed.
-/

namespace Pipework

/-- Contexts of pipes that run as modules and have the same inputs. -/
structure RunContext.Akin (first second : RunContext) : Prop where
  left : first.submodule = true
  right : second.submodule = true
  inputs : first.inputs = second.inputs

/-- Embedded modules that differ in such contexts only. -/
inductive Embed.Akin : Embed Factory → Embed Factory → Prop
  | intro {first second : Embed Factory} (hid : first.id = second.id)
      (hfactory : first.factory = second.factory) (hcontext : first.context.Akin second.context)
      (hconf : first.conf = second.conf) (hnested : Option.Rel Akin first.nested second.nested) :
      Akin first second

inductive Task.Akin : Task → Task → Prop
  | fetch (conf : Conf) (mode : Mode) : Akin (.fetch conf mode) (.fetch conf mode)
  | loop (rule : LoopRule) (mode : Mode) {embed other : Embed Factory} (h : embed.Akin other) :
      Akin (.loop rule embed mode) (.loop rule other mode)

section Lifting

variable {ι ω : Type} (related : ι → ι → Prop)

inductive Job.Lifts : Job ι → Job ι → Prop
  | load (conf : Conf) (item : Record) (waits : Bool) :
      Lifts (.load conf item waits) (.load conf item waits)
  | instantiate (rule : LoopRule) (mode : Mode) (item : Record) {embed other : Embed Factory}
      (h : embed.Akin other) :
      Lifts (.instantiate rule embed mode item) (.instantiate rule other mode item)
  | collect (rule : LoopRule) (item : Record) (found : List Record) {first second : ι}
      (h : related first second) :
      Lifts (.collect rule item first found) (.collect rule item second found)

inductive Batches.Lifts (works : ω → ω → Prop) : Batches ι ω → Batches ι ω → Prop
  | intro (queue : List Answer) (last : Bool) {first second : ι} {job other : Option ω}
      (hinput : related first second) (hjob : Option.Rel works job other) :
      Lifts works ⟨first, queue, job, last⟩ ⟨second, queue, other, last⟩

inductive Tally.Lifts : Tally ι → Tally ι → Prop
  | intro (count : Nat) (done : Bool) {first second : ι} (hinput : related first second) :
      Lifts ⟨first, count, done⟩ ⟨second, count, done⟩

inductive Pairing.Side.Lifts : Pairing.Side ι → Pairing.Side ι → Prop
  | intro (held : Option Answer) (ended : Bool) {first second : Option ι}
      (hinput : Option.Rel related first second) :
      Lifts ⟨first, held, ended⟩ ⟨second, held, ended⟩

inductive Pairing.Lifts : Pairing ι → Pairing ι → Prop
  | intro (mode : Mode) {main other first second : Pairing.Side ι}
      (hmain : main.Lifts related first) (hother : other.Lifts related second) :
      Lifts ⟨main, other, mode⟩ ⟨first, second, mode⟩

/-- The same name, with an input or without. -/
inductive Sampling.Named : String × Option ι → String × Option ι → Prop
  | intro (name : String) {first second : Option ι} (hinput : Option.Rel related first second) :
      Named (name, first) (name, second)

inductive Sampling.Lifts : Sampling ι → Sampling ι → Prop
  | intro (script : List String) {first second : List (String × Option ι)}
      (hinputs : List.Forall₂ (Sampling.Named related) first second) :
      Lifts ⟨script, first⟩ ⟨script, second⟩

/-- Junctions that differ in their upstreams only. -/
inductive Junction.Lifts : Junction ι → Junction ι → Prop
  | fork (fork : Fork ι) {upstream : ι} (h : related fork.upstream upstream) :
      Lifts (.fork fork) (.fork { fork with upstream })
  | tap (tap : Tap ι) {upstream : ι} (h : related tap.upstream upstream) :
      Lifts (.tap tap) (.tap { tap with upstream })

end Lifting

/-- Stages that differ in such contexts only. -/
inductive Stage.Akin : Stage → Stage → Prop
  | sentinel : Akin .sentinel .sentinel
  | constant (record : Record) : Akin (.constant record) (.constant record)
  | once (record? : Option Record) : Akin (.once record?) (.once record?)
  | scripted (script : Script) : Akin (.scripted script) (.scripted script)
  | tagged (id : ModuleId) (index : Nat) {first second : Stage} (h : Akin first second) :
      Akin (.tagged id index first) (.tagged id index second)
  | mapped (transform : Transform) {first second : Stage} (h : Akin first second) :
      Akin (.mapped transform first) (.mapped transform second)
  | batches {task other : Task} (htask : task.Akin other)
      {first second : Batches Stage (Job Stage)} (h : first.Lifts Akin (Job.Lifts Akin) second) :
      Akin (.batches task first) (.batches other second)
  | tally {first second : Tally Stage} (h : first.Lifts Akin second) :
      Akin (.tally first) (.tally second)
  | pairing {first second : Pairing Stage} (h : first.Lifts Akin second) :
      Akin (.pairing first) (.pairing second)
  | sampling {first second : Sampling Stage} (h : first.Lifts Akin second) :
      Akin (.sampling first) (.sampling second)
  | probe (id : ModuleId) {first second : Stage} (h : Akin first second) :
      Akin (.probe id first) (.probe id second)
  | branch (junction index : Nat) : Akin (.branch junction index) (.branch junction index)
  | tap (junction : Nat) : Akin (.tap junction) (.tap junction)
  | closed {here there : List (Junction Stage)} {first second : Stage}
      (hjunctions : List.Forall₂ (Junction.Lifts Akin) here there) (hout : Akin first second) :
      Akin (.closed here first) (.closed there second)

/-- Such stages with junctions of their own. -/
inductive Stage.SealedAkin : Stage → Stage → Prop
  | intro {here there : List (Junction Stage)} {first second : Stage}
      (hjunctions : List.Forall₂ (Junction.Lifts Akin) here there) (hout : first.Akin second) :
      SealedAkin (.closed here first) (.closed there second)

theorem Stage.SealedAkin.akin {first second : Stage} (h : first.SealedAkin second) :
    first.Akin second := by
  obtain ⟨hjunctions, hout⟩ := h
  exact .closed hjunctions hout

end Pipework
