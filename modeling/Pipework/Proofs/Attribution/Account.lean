import Pipework.Proofs.Attribution.Bare
import Pipework.Proofs.Attribution.Chronicle

/-! # What the notes of a run account for

An error is attributed if it bears the id of a module and a position, and the notes say that the own
stage of that module returned its bare source as the answer at that position. A stage is accounted for
if every tag in it counts what the notes say its module has returned, and all errors that it holds back
are attributed or still to be. Notes of other parts of a run change nothing of this.
-/

namespace Pipework

/-- What asking once adds to the answers. -/
def Poll.answers : Poll → List Answer
  | .answer given => [given]
  | _ => []

/-- The stage has just been built as the module with an id. -/
inductive Stage.MadeFor (setting : Setting) (id : ModuleId) : Stage → Prop
  | intro {mode : Mode} {depth : Nat} {factory : Factory} {args : Arguments Factory} {built : Built}
      {world later : World} {stage : Stage} (hid : args.id = id)
      (hbuild : (Factory.build setting mode depth factory args).run world = some (.ok built, later))
      (hsingle : built.single? id = .ok stage) : MadeFor setting id stage

/-- What the stage that was built as a module with an id has become, and what it has returned. -/
inductive Stage.Lived (setting : Setting) (id : ModuleId) : List Answer → Stage → Prop
  | made {stage : Stage} (h : stage.MadeFor setting id) : Lived setting id [] stage
  | asked {past : List Answer} {before after : Scene} {poll : Poll}
      (h : Lived setting id past before.stage) (hgives : Scene.Gives setting before poll after) :
      Lived setting id (past ++ poll.answers) after.stage

/-- The error names the module whose own stage returned its source, and the number of answers which
that very stage had returned before. -/
inductive PipeError.Attributed (setting : Setting) (log : List Note) : PipeError → Prop
  | intro {id : ModuleId} {address : Address} {source : PipeError} {before after : List Note}
      {stage : Stage} (hbare : source.IsBare)
      (hlog : log = before ++ .returned address id (.error source) :: after)
      (hlived : stage.Lived setting id (Note.past before address ++ [.error source])) :
      Attributed setting log (.notProduced id (Note.past before address).length source)

/-- The stage at an address is accounted for by the notes. Of a sealed stage nothing but attributed
errors can come; the own stage of a module may also return bare ones. -/
inductive Stage.Accounted (setting : Setting) (log : List Note) : Bool → Address → Stage → Prop
  | sentinel (sealed : Bool) (here : Address) : Accounted setting log sealed here .sentinel
  | constant (sealed : Bool) (here : Address) (record : Record) :
      Accounted setting log sealed here (.constant record)
  | once (sealed : Bool) (here : Address) (record? : Option Record) :
      Accounted setting log sealed here (.once record?)
  | tagged (sealed : Bool) {here : Address} {id : ModuleId} {inner : Stage}
      (hlived : inner.Lived setting id (Note.past log here))
      (hinner : Accounted setting log false (.inner :: here) inner) :
      Accounted setting log sealed here (.tagged id (Note.past log here).length inner)
  | mapped {here : Address} {inner : Stage} (transform : Transform)
      (hinner : Accounted setting log true (.inner :: here) inner) :
      Accounted setting log false here (.mapped transform inner)
  | tally {here : Address} {input : Stage} (count : Nat) (done : Bool)
      (hinput : Accounted setting log true (.inner :: here) input) :
      Accounted setting log false here (.tally ⟨input, count, done⟩)
  | batches {here : Address} {task : Task} {input : Stage} {queue : List Answer}
      {job : Option (Job Stage)} (last : Bool)
      (hinput : Accounted setting log true (.inner :: here) input)
      (hqueue : ∀ error, .error error ∈ queue → error.Attributed setting log ∨ error.IsBare)
      (hjob : ∀ rule item stage found, job = some (.collect rule item stage found) →
        Accounted setting log true (.body :: here) stage) :
      Accounted setting log false here (.batches task ⟨input, queue, job, last⟩)
  | branch (sealed : Bool) (here : Address) (place index : Nat) :
      Accounted setting log sealed here (.branch place index)
  | tap (sealed : Bool) (here : Address) (place : Nat) : Accounted setting log sealed here (.tap place)
  | closed {sealed : Bool} {here : Address} {junctions : List (Junction Stage)} {out : Stage}
      (hupstream : ∀ place junction, junctions[place]? = some junction →
        Accounted setting log true (.upstream place :: here) junction.upstream)
      (hout : Accounted setting log sealed (.inner :: here) out) :
      Accounted setting log sealed here (.closed junctions out)

/-- What asking came to, if it is an error, is attributed or, of the own stage of a module, bare. -/
def Poll.Accounted (setting : Setting) (log : List Note) (sealed : Bool) (poll : Poll) : Prop :=
  ∀ error, poll = .answer (.error error) →
    error.Attributed setting log ∨ sealed = false ∧ error.IsBare

/-- The stage of the scene is accounted for, and so are the upstreams of the junctions up to a
bound. -/
structure Scene.Accounted (setting : Setting) (log : List Note) (sealed : Bool)
    (here scope : Address) (bound : Nat) (scene : Scene) : Prop where
  stage : scene.stage.Accounted setting log sealed here
  junctions : ∀ place < bound, ∀ junction, scene.junctions[place]? = some junction →
    junction.upstream.Accounted setting log true (.upstream place :: scope)

/-- A stage that has just been built is accounted for wherever nothing has been returned yet. -/
def Stage.Fresh (setting : Setting) (sealed : Bool) (stage : Stage) : Prop :=
  ∀ log here, (∀ place, here <:+ place → Note.past log place = []) →
    stage.Accounted setting log sealed here

variable {setting : Setting} {log notes : List Note} {sealed : Bool} {here scope : Address}

namespace PipeError

/-- Notes are never taken back. -/
theorem Attributed.append {error : PipeError} (h : error.Attributed setting log)
    (notes : List Note) : error.Attributed setting (log ++ notes) := by
  cases h with
  | @intro id address source before after stage hbare hlog hlived =>
      have hmore : log ++ notes =
          before ++ .returned address id (.error source) :: (after ++ notes) := by
        rw [hlog, List.append_assoc, List.cons_append]
      exact .intro hbare hmore hlived

/-- Nobody attributes an error again. -/
theorem Attributed.whileProducing {error : PipeError} (h : error.Attributed setting log)
    (id : ModuleId) (index : Nat) : error.whileProducing id index = error := by
  cases h
  rfl

end PipeError

namespace Stage.Accounted

variable {stage : Stage}

/-- An own stage may as well be sealed. -/
theorem opened (h : stage.Accounted setting log sealed here) :
    stage.Accounted setting log false here := by
  induction h with
  | sentinel => exact .sentinel ..
  | constant => exact .constant ..
  | once => exact .once ..
  | tagged _ hlived hinner => exact .tagged _ hlived hinner
  | mapped transform hinner => exact .mapped transform hinner
  | tally count done hinput => exact .tally count done hinput
  | batches last hinput hqueue hjob => exact .batches last hinput hqueue hjob
  | branch => exact .branch ..
  | tap => exact .tap ..
  | closed hupstream _ _ ih => exact .closed hupstream ih

/-- Notes on other parts of a run change nothing. -/
theorem frame (h : stage.Accounted setting log sealed here) (hspares : Note.Spares notes here) :
    stage.Accounted setting (log ++ notes) sealed here := by
  induction h with
  | sentinel => exact .sentinel ..
  | constant => exact .constant ..
  | once => exact .once ..
  | @tagged sealed here id inner hlived _ ih =>
      have hpast : Note.past (log ++ notes) here = Note.past log here :=
        hspares.past List.suffix_rfl
      rw [← hpast]
      exact .tagged sealed (hpast ▸ hlived) (ih (hspares.mono (List.suffix_cons ..)))
  | mapped transform _ ih => exact .mapped transform (ih (hspares.mono (List.suffix_cons ..)))
  | tally count done _ ih => exact .tally count done (ih (hspares.mono (List.suffix_cons ..)))
  | batches last _ hqueue _ ih ihjob =>
      refine .batches last (ih (hspares.mono (List.suffix_cons ..))) ?_ ?_
      · exact fun error herror => (hqueue error herror).imp_left fun h => h.append notes
      · exact fun rule item stage found hjob =>
          ihjob rule item stage found hjob (hspares.mono (List.suffix_cons ..))
  | branch => exact .branch ..
  | tap => exact .tap ..
  | closed _ _ ihupstream ihout =>
      exact .closed
        (fun place junction hjunction =>
          ihupstream place junction hjunction (hspares.mono (List.suffix_cons ..)))
        (ihout (hspares.mono (List.suffix_cons ..)))

end Stage.Accounted

end Pipework
