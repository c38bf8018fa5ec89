import Pipework.Proofs.Attribution.Building

/-! # Tags count what the modules return

Whatever comes of asking a stage is accounted for if the stage is, once the notes of what was asked
meanwhile have been added. This is shown for one step of each kind, then by induction on what is asked:
the notes of a stage concern what it can touch only, so the other parts of a run stay accounted for.
-/

namespace Pipework

variable {setting : Setting} {log notes : List Note} {sealed : Bool} {here scope : Address}
  {bound : Nat} {known : Pipe → Prop} {mode : Mode}

namespace Note

variable {region : Address}

theorem spares_returned {address : Address} (h : ¬ region <:+ address) (id : ModuleId)
    (answer : Answer) : Spares [returned address id answer] region := by
  intro note hnote place hplace htouches
  cases List.mem_singleton.mp hnote
  exact h (htouches ▸ hplace)

theorem spares_cleared {address : Address} (h : address.Apart region) :
    Spares [cleared address] region := by
  intro note hnote place hplace htouches
  cases List.mem_singleton.mp hnote
  exact h place htouches hplace

/-- What is noted of a stage below does not count for a stage itself. -/
theorem past_of_reaches {turn : Turn} {narrow : Nat}
    (h : ∀ note ∈ notes, Address.Reaches (turn :: here) scope narrow note.address)
    (hscope : ∀ junction < narrow, Address.Apart (.upstream junction :: scope) here) :
    past (log ++ notes) here = past log here := by
  refine past_append_of_not_touches fun note hnote htouches => ?_
  rcases h note hnote with hbelow | ⟨junction, hjunction, hbelow⟩
  · exact Address.not_cons_suffix turn here (hbelow.trans htouches.suffix)
  · exact hscope junction hjunction here (hbelow.trans htouches.suffix) List.suffix_rfl

end Note

namespace Poll.Accounted

variable {poll : Poll}

theorem of_ne (h : ∀ error, poll ≠ .answer (.error error)) : poll.Accounted setting log sealed :=
  fun error herror => absurd herror (h error)

theorem of_error {error : PipeError}
    (h : error.Attributed setting log ∨ sealed = false ∧ error.IsBare) :
    (Poll.answer (.error error)).Accounted setting log sealed := by
  rintro _ ⟨⟩
  exact h

theorem error {error : PipeError} (h : (Poll.answer (.error error)).Accounted setting log sealed) :
    error.Attributed setting log ∨ sealed = false ∧ error.IsBare :=
  h error rfl

/-- What comes of a sealed stage are attributed errors only. -/
theorem attributed (h : poll.Accounted setting log true) {error : PipeError}
    (herror : poll = .answer (.error error)) : error.Attributed setting log :=
  (h error herror).resolve_right fun hopen => Bool.noConfusion hopen.1

theorem of_sealed (h : poll.Accounted setting log true) : poll.Accounted setting log sealed :=
  fun _ herror => .inl (h.attributed herror)

/-- A transformation passes errors on and adds bare ones. -/
theorem transformed (h : poll.Accounted setting log true) (transform : Transform) :
    (poll.mapAnswer fun answer => answer.bind fun record =>
      transform.apply setting.now record).Accounted setting log false := by
  rcases poll with _ | _ | (error | record)
  · exact .of_ne nofun
  · exact .of_ne nofun
  · exact h.of_sealed
  · intro error herror
    injection herror with hfailed
    exact .inr ⟨rfl, (transform.apply_failsBare setting.now record).bare error hfailed⟩

end Poll.Accounted

theorem Batches.error_mem_answersOf {batch : Except PipeError (List Record)} {error : PipeError}
    (h : .error error ∈ Batches.answersOf batch) : batch = .error error := by
  cases batch with
  | error held =>
      cases List.mem_singleton.mp h
      rfl
  | ok records =>
      obtain ⟨record, -, hrecord⟩ := List.mem_map.mp h
      cases hrecord

theorem Task.begin_ne_collect (task : Task) (record : Record) (rule : LoopRule) (item : Record)
    (stage : Stage) (found : List Record) : task.begin record ≠ .collect rule item stage found := by
  cases task <;> nofun

namespace Stage.Accounted

variable {stage next : Stage}

theorem of_refers {place index : Nat} (hrefers : stage.Refers place index) :
    stage.Accounted setting log sealed here := by
  cases hrefers with
  | branch => exact .branch ..
  | tap => exact .tap ..

theorem ready (h : stage.Accounted setting log sealed here) {answer : Answer}
    (hready : stage.ready? = some (answer, next)) :
    next.Accounted setting log sealed here ∧ (Poll.answer answer).Accounted setting log sealed := by
  cases h with
  | sentinel =>
      cases hready
      exact ⟨.sentinel .., .of_ne nofun⟩
  | constant =>
      cases hready
      exact ⟨.constant .., .of_ne nofun⟩
  | once _ _ record? =>
      cases record? with
      | none => cases hready
      | some record =>
          cases hready
          exact ⟨.once .., .of_ne nofun⟩
  | @batches _ _ _ queue _ last hinput hqueue hjob =>
      cases queue with
      | nil => cases hready
      | cons held rest =>
          cases hready
          refine ⟨.batches last hinput ?_ hjob, fun error herror => ?_⟩
          · exact fun error herror => hqueue error (List.mem_cons_of_mem _ herror)
          · cases herror
            exact (hqueue error List.mem_cons_self).imp_right fun hbare => ⟨rfl, hbare⟩
  | tagged | mapped | tally | branch | tap | closed => cases hready

theorem waits (h : stage.Accounted setting log sealed here) (hwaits : stage.Waits next) :
    next.Accounted setting log sealed here := by
  cases hwaits with
  | load =>
      cases h with
      | batches _ hinput hqueue _ =>
          refine .batches _ hinput hqueue ?_
          rintro _ _ _ _ ⟨⟩

/-- The work on a record is done with another stage for each record: what was noted of the one for
the last record does not count for it. -/
theorem moves (hcloses : setting.registry.Closes known) (h : stage.Accounted setting log sealed here)
    (hplain : stage.Twin known mode mode bound stage) {world later : World}
    (hmoves : stage.Moves setting world next later) :
    next.Accounted setting (log ++ [.cleared (.body :: here)]) sealed here := by
  have hspares : Note.Spares [.cleared (.body :: here)] (.inner :: here) :=
    Note.spares_cleared (Address.apart_of_ne (by decide) here)
  cases hmoves with
  | load hfetch =>
      cases h with
      | batches _ hinput =>
          refine .batches _ (hinput.frame hspares) (fun error herror => .inr ?_) nofun
          exact (Job.fetch_failsBare hfetch).bare error (Batches.error_mem_answersOf herror)
  | refuse hbuild =>
      cases h with
      | batches _ hinput =>
          refine .batches _ (hinput.frame hspares) (fun error herror => .inr ?_) nofun
          cases Batches.error_mem_answersOf herror
          exact (Embed.instantiate_failsBare hbuild).bare _ rfl
  | enter hbuild =>
      cases h with
      | batches _ hinput =>
          cases hplain with
          | instantiate _ _ _ _ _ hembed =>
              refine .batches _ (hinput.frame hspares) nofun ?_
              rintro _ _ _ _ ⟨⟩
              -- Its address has just been cleared, so that its tags may start at nothing.
              exact Embed.instantiate_fresh hcloses hembed hbuild _ _ fun place hplace =>
                Note.past_append_cleared hplace

end Stage.Accounted

/-- The stage that is asked is sealed, unless it is the own stage of a module. -/
def Hole.seals : Hole → Bool
  | .tagged .. => false
  | _ => true

/-- The rest of a stage with a hole is accounted for, given the stage that it asks. -/
inductive Hole.Accounted (setting : Setting) (log : List Note) :
    Bool → Address → Hole → Stage → Prop
  | tagged (sealed : Bool) {here : Address} {id : ModuleId} {inner : Stage}
      (hlived : inner.Lived setting id (Note.past log here)) :
      Accounted setting log sealed here (.tagged id (Note.past log here).length) inner
  | mapped {here : Address} {inner : Stage} (transform : Transform) :
      Accounted setting log false here (.mapped transform) inner
  | tally {here : Address} {inner : Stage} (count : Nat) :
      Accounted setting log false here (.tally count) inner
  | input {here : Address} {inner : Stage} (task : Task) :
      Accounted setting log false here (.input task) inner
  | collect {here : Address} {inner source : Stage} (task : Task) (last : Bool) (rule : LoopRule)
      (item : Record) (found : List Record)
      (hsource : source.Accounted setting log true (.inner :: here)) :
      Accounted setting log false here (.collect task source last rule item found) inner

/-- What becomes of a stage is accounted for. -/
structure Reaction.Accounted (setting : Setting) (log : List Note) (sealed : Bool) (here : Address)
    (reaction : Reaction) : Prop where
  stage : reaction.stage.Accounted setting log sealed here
  stop : ∀ out next, reaction = .stop out next → out.Accounted setting log sealed

namespace Reaction.Accounted

variable {out : Poll} {next : Stage}

theorem of_stop (hnext : next.Accounted setting log sealed here)
    (hout : out.Accounted setting log sealed) :
    (Reaction.stop out next).Accounted setting log sealed here := by
  refine ⟨hnext, ?_⟩
  rintro _ _ ⟨⟩
  exact hout

theorem of_go (hnext : next.Accounted setting log sealed here) :
    (Reaction.go next).Accounted setting log sealed here :=
  ⟨hnext, nofun⟩

end Reaction.Accounted

namespace Hole

variable {hole : Hole} {inner asked : Stage} {poll : Poll}

/-- The junctions that a stage with a hole may ask stand apart from what it asks. -/
theorem apart_below (hole : Hole)
    (hapart : ∀ place < bound, Address.Apart (.upstream place :: scope) here) (place : Nat)
    (hplace : place < hole.scope bound) :
    Address.Apart (.upstream place :: scope) (hole.turn :: here) :=
  (hapart place (hplace.trans_le (hole.scope_le bound))).cons hole.turn

/-- A stage with a hole is accounted for only if what it asks is, and the rest of it. -/
theorem accounted_of_fill (h : (hole.fill inner).Accounted setting log sealed here) :
    hole.Accounted setting log sealed here inner ∧
      inner.Accounted setting log hole.seals (hole.turn :: here) := by
  cases hole with
  | tagged id index =>
      cases h with
      | tagged _ hlived hinner => exact ⟨.tagged sealed hlived, hinner⟩
  | mapped transform =>
      cases h with
      | mapped _ hinner => exact ⟨.mapped transform, hinner⟩
  | tally count =>
      cases h with
      | tally _ _ hinner => exact ⟨.tally count, hinner⟩
  | input task =>
      cases h with
      | batches _ hinner => exact ⟨.input task, hinner⟩
  | collect task source last rule item found =>
      cases h with
      | batches _ hsource _ hjob =>
          exact ⟨.collect task last rule item found hsource, hjob rule item inner found rfl⟩

namespace Accounted

/-- What is noted while the stage that is asked gives its answer changes nothing of the rest. -/
theorem frame (h : hole.Accounted setting log sealed here inner)
    (hreach : ∀ note ∈ notes,
      Address.Reaches (hole.turn :: here) scope (hole.scope bound) note.address)
    (hapart : ∀ place < bound, Address.Apart (.upstream place :: scope) here) :
    hole.Accounted setting (log ++ notes) sealed here inner := by
  cases h with
  | tagged _ hlived =>
      have hpast : Note.past (log ++ notes) here = Note.past log here :=
        Note.past_of_reaches hreach hapart
      rw [← hpast]
      exact .tagged sealed (hpast ▸ hlived)
  | mapped transform => exact .mapped transform
  | tally count => exact .tally count
  | input task => exact .input task
  | collect task last rule item found hsource =>
      have hapart : Address.Apart (.body :: here) (.inner :: here) :=
        Address.apart_of_ne (by decide) here
      exact .collect task last rule item found
        (hsource.frame (Address.spares_of_reaches hreach hapart nofun))

section React

variable {junctions within : List (Junction Stage)} {world later : World}

/-- The tag of a module attributes the bare errors of its own stage and counts all its answers. -/
theorem react_tagged {id : ModuleId} {index : Nat} {answer : Answer}
    (h : (Hole.tagged id index).Accounted setting log sealed here inner)
    (hgives : Scene.Gives setting ⟨inner, junctions, world⟩ (.answer answer) ⟨asked, within, later⟩)
    (hasked : asked.Accounted setting log false (.inner :: here))
    (hanswer : (Poll.answer answer).Accounted setting log false) :
    (Reaction.stop (.answer (answer.mapError fun error => error.whileProducing id index))
      (.tagged id (index + 1) asked)).Accounted setting
        (log ++ [.returned here id answer]) sealed here := by
  cases h with
  | tagged _ hlived =>
      have hnow : asked.Lived setting id (Note.past log here ++ [answer]) := .asked hlived hgives
      have hpast : Note.past (log ++ [.returned here id answer]) here = Note.past log here ++ [answer] :=
        Note.past_append_returned log here id answer
      refine .of_stop ?_ ?_
      -- The tag has counted one answer more, and one more has been noted.
      · have hlength : (Note.past log here).length + 1 =
            (Note.past (log ++ [.returned here id answer]) here).length := by
          rw [hpast, List.length_append, List.length_singleton]
        rw [hlength]
        refine .tagged sealed (hpast ▸ hnow) (hasked.frame ?_)
        exact Note.spares_returned (Address.not_cons_suffix .inner here) id answer
      · cases answer with
        | ok record => exact .of_ne nofun
        | error error =>
            refine .of_error (.inl ?_)
            -- Either another tag has come before this one, or the error is the stage's own.
            rcases hanswer.error with hattributed | ⟨-, hbare⟩
            · change (error.whileProducing id _).Attributed _ _
              rw [hattributed.whileProducing]
              exact hattributed.append _
            · change (error.whileProducing id _).Attributed _ _
              rw [PipeError.whileProducing_of_isBare hbare]
              exact .intro hbare rfl hnow

theorem react_tally {count : Nat} (hasked : asked.Accounted setting log true (.inner :: here))
    (hpoll : poll.Accounted setting log true) :
    (reactTally count asked poll).Accounted setting log false here := by
  rcases poll with _ | _ | (error | item)
  · exact .of_stop (.tally count false hasked) (.of_ne nofun)
  · exact .of_stop (.tally count true hasked) (.of_ne nofun)
  · exact .of_stop (.tally count true hasked) hpoll.of_sealed
  · simp only [reactTally]
    split
    · exact .of_stop (.tally count true hasked) (.of_ne nofun)
    · exact .of_go (.tally (count + 1) false hasked)

theorem react_input {task : Task} (hasked : asked.Accounted setting log true (.inner :: here))
    (hpoll : poll.Accounted setting log true) :
    (reactInput task asked poll).Accounted setting log false here := by
  rcases poll with _ | _ | (error | record)
  · exact .of_stop (.batches false hasked nofun nofun) (.of_ne nofun)
  · exact .of_stop (.batches true hasked nofun nofun) (.of_ne nofun)
  · exact .of_stop (.batches false hasked nofun nofun) hpoll.of_sealed
  · refine .of_go (.batches _ hasked nofun fun rule item stage found hjob => ?_)
    exact absurd (Option.some.inj hjob) (task.begin_ne_collect record rule item stage found)

theorem react_collect {task : Task} {source : Stage} {last : Bool} {rule : LoopRule} {item : Record}
    {found : List Record} (hsource : source.Accounted setting log true (.inner :: here))
    (hasked : asked.Accounted setting log true (.body :: here))
    (hpoll : poll.Accounted setting log true) :
    (reactCollect task source last rule item found asked poll).Accounted setting log false here := by
  have hcollect : ∀ found : List Record, Stage.Accounted setting log false here
      (.batches task ⟨source, [], some (.collect rule item asked found), last⟩) := by
    refine fun found => .batches last hsource nofun ?_
    rintro _ _ _ _ ⟨⟩
    exact hasked
  rcases poll with _ | _ | (error | record)
  · exact .of_stop (hcollect found) (.of_ne nofun)
  · refine .of_go (.batches last hsource (fun error herror => ?_) nofun)
    cases Batches.error_mem_answersOf herror
  · refine .of_go (.batches last hsource (fun held herror => .inl ?_) nofun)
    cases Batches.error_mem_answersOf herror
    exact hpoll.attributed rfl
  · exact .of_go (hcollect _)

/-- Whoever asks passes attributed errors on as they are; only a transformation of records adds bare
ones, which are for its module to attribute. -/
theorem react (h : hole.Accounted setting log sealed here inner)
    (hgives : Scene.Gives setting ⟨inner, junctions, world⟩ poll ⟨asked, within, later⟩)
    (hasked : asked.Accounted setting log hole.seals (hole.turn :: here))
    (hpoll : poll.Accounted setting log hole.seals) :
    (hole.react setting.now poll asked).Accounted setting (log ++ hole.notes here poll) sealed
      here := by
  have hsilent : hole.notes here poll = [] → log ++ hole.notes here poll = log :=
    fun hnotes => by rw [hnotes, List.append_nil]
  cases h with
  | tagged _ hlived =>
      have hnow := Stage.Lived.asked hlived hgives
      cases poll with
      | answer answer => exact (Accounted.tagged sealed hlived).react_tagged hgives hasked hpoll
      | pending | ended =>
          have hsame := List.append_nil (Note.past log here)
          rw [hsilent rfl]
          exact .of_stop (.tagged sealed (hsame ▸ hnow) hasked) (.of_ne nofun)
  | mapped transform =>
      rw [hsilent rfl]
      exact .of_stop (.mapped transform hasked) (hpoll.transformed transform)
  | tally count =>
      rw [hsilent rfl]
      exact react_tally hasked hpoll
  | input task =>
      rw [hsilent rfl]
      exact react_input hasked hpoll
  | collect task last rule item found hsource =>
      rw [hsilent rfl]
      exact react_collect hsource hasked hpoll

end React

end Accounted

end Hole

namespace Scene

variable {before after asked : Scene} {poll : Poll} {stage asks next : Stage}
  {junctions : List (Junction Stage)} {world : World}

namespace Accounted

theorem inner {hole : Hole}
    (h : Scene.Accounted setting log sealed here scope bound ⟨hole.fill asks, junctions, world⟩) :
    Scene.Accounted setting log hole.seals (hole.turn :: here) scope (hole.scope bound)
      ⟨asks, junctions, world⟩ :=
  ⟨(Hole.accounted_of_fill h.stage).2, fun place hplace =>
    h.junctions place (hplace.trans_le (hole.scope_le bound))⟩

theorem out {within : List (Junction Stage)}
    (h : Scene.Accounted setting log sealed here scope bound ⟨.closed within stage, junctions, world⟩) :
    Scene.Accounted setting log sealed (.inner :: here) here within.length
      ⟨stage, within, world⟩ := by
  cases h.stage with
  | closed hupstream hout => exact ⟨hout, fun place _ => hupstream place⟩

theorem upstream {place : Nat} {junction : Junction Stage}
    (h : Scene.Accounted setting log sealed here scope bound ⟨stage, junctions, world⟩)
    (hplace : place < bound) (hjunction : junctions[place]? = some junction) :
    Scene.Accounted setting log true (.upstream place :: scope) scope place
      ⟨junction.upstream, junctions, world⟩ :=
  ⟨h.junctions place hplace junction hjunction, fun other hother =>
    h.junctions other (hother.trans hplace)⟩

/-- What stands beyond what has been asked is as it was. -/
theorem beyond {narrow : Nat} (h : before.Accounted setting log sealed here scope bound)
    (hkeeps : Keeps narrow before after) {place : Nat} (hnarrow : narrow ≤ place)
    (hplace : place < bound) (hspares : Note.Spares notes (.upstream place :: scope))
    {junction : Junction Stage} (hjunction : after.junctions[place]? = some junction) :
    junction.upstream.Accounted setting (log ++ notes) true (.upstream place :: scope) := by
  rw [hkeeps.beyond place hnarrow] at hjunction
  exact (h.junctions place hplace junction hjunction).frame hspares

/-- A stage and what it becomes, where the junctions are not touched. -/
theorem replace (h : Scene.Accounted setting log sealed here scope bound ⟨stage, junctions, world⟩)
    (hspares : ∀ place < bound, Note.Spares notes (.upstream place :: scope))
    (hnext : next.Accounted setting (log ++ notes) sealed here) (later : World) :
    Scene.Accounted setting (log ++ notes) sealed here scope bound ⟨next, junctions, later⟩ :=
  ⟨hnext, fun place hplace junction hjunction =>
    (h.junctions place hplace junction hjunction).frame (hspares place hplace)⟩

/-- A consumer and the junctions, once the consumer has taken what waited for it. -/
theorem served {place index : Nat} {junction : Junction Stage}
    (h : Scene.Accounted setting log sealed here scope bound ⟨stage, junctions, world⟩)
    (hrefers : stage.Refers place index) (hjunction : junctions[place]? = some junction)
    (rest : List Record) :
    Scene.Accounted setting log sealed here scope bound
      ⟨stage, junctions.set place (junction.serve index rest), world⟩ := by
  refine ⟨.of_refers hrefers, fun other hother held hheld => ?_⟩
  rcases eq_or_ne place other with rfl | hne
  · obtain ⟨_, rfl⟩ := List.getElem?_eq_some_iff.mp hheld
    rw [List.getElem_set_self, Junction.upstream_serve]
    exact h.junctions place hother junction hjunction
  · rw [List.getElem?_set_ne hne] at hheld
    exact h.junctions other hother held hheld

/-- A consumer and the junctions, once the upstream at a place has been asked. -/
theorem settled {place index : Nat} {junction : Junction Stage}
    (h : Scene.Accounted setting log sealed here scope bound ⟨stage, junctions, world⟩)
    (hrefers : stage.Refers place index) (hplace : place < bound)
    (hkeeps : Keeps place ⟨junction.upstream, junctions, world⟩ asked)
    (hreach : ∀ note ∈ notes,
      Address.Reaches (.upstream place :: scope) scope place note.address)
    (hasked : asked.Accounted setting (log ++ notes) true (.upstream place :: scope) scope place) :
    Scene.Accounted setting (log ++ notes) sealed here scope bound
      ⟨stage, asked.junctions.set place (junction.settle index asked.stage poll), asked.world⟩ := by
  refine ⟨.of_refers hrefers, fun other hother held hheld => ?_⟩
  rcases Nat.lt_trichotomy other place with hbefore | rfl | hbeyond
  · rw [List.getElem?_set_ne hbefore.ne'] at hheld
    exact hasked.junctions other hbefore held hheld
  · obtain ⟨_, rfl⟩ := List.getElem?_eq_some_iff.mp hheld
    rw [List.getElem_set_self, Junction.upstream_settle]
    exact hasked.stage
  · rw [List.getElem?_set_ne hbeyond.ne] at hheld
    have hspares : Note.Spares notes (.upstream other :: scope) := by
      refine Address.spares_of_reaches hreach (Address.apart_upstream hbeyond.ne scope) ?_
      exact fun earlier hearlier => Address.apart_upstream (hearlier.trans hbeyond).ne scope
    exact h.beyond (hkeeps.congr rfl rfl) hbeyond.le hother hspares hheld

/-- What becomes of a stage with a hole, once what it asks has been asked. -/
theorem reacted {hole : Hole}
    (hapart : ∀ place < bound, Address.Apart (.upstream place :: scope) here)
    (h : Scene.Accounted setting log sealed here scope bound ⟨hole.fill asks, junctions, world⟩)
    (hgives : Gives setting ⟨asks, junctions, world⟩ poll asked)
    (hkeeps : Keeps (hole.scope bound) ⟨asks, junctions, world⟩ asked)
    (hreach : ∀ note ∈ notes,
      Address.Reaches (hole.turn :: here) scope (hole.scope bound) note.address)
    (hasked : asked.Accounted setting (log ++ notes) hole.seals (hole.turn :: here) scope
      (hole.scope bound))
    (hpoll : poll.Accounted setting (log ++ notes) hole.seals) :
    (hole.react setting.now poll asked.stage).Accounted setting
        (log ++ (notes ++ hole.notes here poll)) sealed here ∧
      Scene.Accounted setting (log ++ (notes ++ hole.notes here poll)) sealed here scope bound
        ⟨(hole.react setting.now poll asked.stage).stage, asked.junctions, asked.world⟩ := by
  obtain ⟨hhole, -⟩ := Hole.accounted_of_fill h.stage
  have hreaction := (hhole.frame hreach hapart).react hgives hasked.stage hpoll
  rw [List.append_assoc] at hreaction
  refine ⟨hreaction, hreaction.stage, fun place hplace junction hjunction => ?_⟩
  have hown : Note.Spares (hole.notes here poll) (.upstream place :: scope) := by
    intro note hnote other hother htouches
    have haddress := Hole.address_of_mem_notes hnote
    exact hapart place hplace other hother (haddress ▸ htouches.suffix)
  rw [← List.append_assoc]
  refine Stage.Accounted.frame ?_ hown
  -- What was asked has left some junctions accounted for, and could not touch the others.
  rcases Nat.lt_or_ge place (hole.scope bound) with hnarrow | hnarrow
  · exact hasked.junctions place hnarrow junction hjunction
  · refine h.beyond (hkeeps.congr rfl rfl) hnarrow hplace ?_ hjunction
    refine Address.spares_of_reaches hreach ((hapart place hplace).cons _).symm ?_
    exact fun other hother => Address.apart_upstream (hother.trans_le hnarrow).ne scope

end Accounted

/-- Asking a stage keeps all tags true, and what comes of a sealed stage is attributed. The induction is
on what is asked meanwhile; junctions that a stage may not ask stay as they are. -/
theorem Tells.accounted (hcloses : setting.registry.Closes known)
    (h : Tells setting here scope before poll after notes) (hplain : before.Plain known mode bound)
    (hapart : ∀ place < bound, Address.Apart (.upstream place :: scope) here)
    (hbefore : before.Accounted setting log sealed here scope bound) :
    after.Accounted setting (log ++ notes) sealed here scope bound ∧
      poll.Accounted setting (log ++ notes) sealed := by
  induction h generalizing bound log sealed with
  | ready hready =>
      obtain ⟨hnext, hanswer⟩ := hbefore.stage.ready hready
      rw [List.append_nil]
      exact ⟨⟨hnext, hbefore.junctions⟩, hanswer⟩
  | dry =>
      rw [List.append_nil]
      exact ⟨hbefore, .of_ne nofun⟩
  | wait hwait =>
      rw [List.append_nil]
      exact ⟨⟨hbefore.stage.waits hwait, hbefore.junctions⟩, .of_ne nofun⟩
  | move hmove _ ih =>
      have hnext := hbefore.stage.moves hcloses hplain.stage hmove
      rw [List.append_cons]
      refine ih (hplain.moved hcloses hmove) hapart (hbefore.replace ?_ hnext _)
      exact fun place hplace => Note.spares_cleared ((hapart place hplace).cons .body).symm
  | @stop _ _ hole _ _ _ _ _ _ _ _ hask hreact ih =>
      obtain ⟨-, hkeeps⟩ := hask.gives.keeps hcloses hplain.inner
      obtain ⟨hasked, hpoll⟩ := ih hplain.inner (hole.apart_below hapart) hbefore.inner
      have hreach := hask.reaches hcloses hplain.inner
      obtain ⟨hreaction, hnext⟩ := Accounted.reacted hapart hbefore hask.gives hkeeps hreach hasked hpoll
      rw [hreact] at hreaction hnext
      exact ⟨hnext, hreaction.stop _ _ rfl⟩
  | @go _ _ hole _ _ _ _ _ _ _ _ _ _ hask hreact _ ih ihrest =>
      obtain ⟨hplainAsked, hkeeps⟩ := hask.gives.keeps hcloses hplain.inner
      obtain ⟨hasked, hpoll⟩ := ih hplain.inner (hole.apart_below hapart) hbefore.inner
      have hreach := hask.reaches hcloses hplain.inner
      obtain ⟨-, hnext⟩ := Accounted.reacted hapart hbefore hask.gives hkeeps hreach hasked hpoll
      rw [hreact] at hnext
      rw [← List.append_assoc]
      exact ihrest (hplain.reacted hplainAsked hkeeps (congrArg Reaction.stage hreact)) hapart hnext
  | @closed here scope within junctions stage world poll asked notes hask ih =>
      obtain ⟨-, hkeeps⟩ := hask.gives.keeps hcloses hplain.out
      have hreach := hask.reaches hcloses hplain.out
      -- Its own junctions are the only ones in scope inside of it; those around it are not touched.
      have hinside : ∀ place < within.length, Address.Apart (.upstream place :: here) (.inner :: here) :=
        fun place _ => Address.apart_of_ne (by simp) here
      obtain ⟨hasked, hpoll⟩ := ih hplain.out hinside hbefore.out
      refine ⟨hbefore.replace (fun place hplace => ?_) ?_ _, hpoll⟩
      · have houtside := hapart place hplace
        exact Address.spares_of_reaches hreach (houtside.cons _).symm fun other _ =>
          (houtside.cons (.upstream other)).symm
      · refine .closed (fun place junction hjunction => ?_) hasked.stage
        obtain ⟨hplace, -⟩ := List.getElem?_eq_some_iff.mp hjunction
        exact hasked.junctions place (hkeeps.length ▸ hplace) junction hjunction
  | buffered hrefers hjunction =>
      rw [List.append_nil]
      exact ⟨hbefore.served hrefers hjunction _, .of_ne nofun⟩
  | @shared _ scope _ _ _ place _ _ _ _ _ hrefers hjunction _ _ hask ih =>
      obtain ⟨hplace, hupstream⟩ := hplain.upstream hrefers hjunction
      obtain ⟨-, hkeeps⟩ := hask.gives.keeps hcloses hupstream
      have hreach := hask.reaches hcloses hupstream
      -- An upstream refers to earlier junctions only, which bounds what it may touch.
      have hearlier : ∀ other < place,
          Address.Apart (.upstream other :: scope) (.upstream place :: scope) :=
        fun other hother => Address.apart_upstream hother.ne scope
      obtain ⟨hasked, hpoll⟩ := ih hupstream hearlier (hbefore.upstream hplace hjunction)
      exact ⟨hbefore.settled hrefers hplace hkeeps hreach hasked, hpoll.of_sealed⟩

end Scene

end Pipework
