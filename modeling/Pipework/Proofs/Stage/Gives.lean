import Pipework.Proofs.Stage.Junction
import Pipework.Stage.Poll

/-! # What asking a stage comes to

Asking a stage within a budget computes what `Scene.Gives` says without one. Most stages ask one
other stage and react to what that gives: `Hole` is such a stage without the one that it asks. What
stages do apart from that is to give what they have, to wait, to work on a record and to share an
upstream. Fixtures are left out.
-/

namespace Pipework

/-- A stage, the junctions in its scope and the world around it. -/
structure Scene where
  stage : Stage
  junctions : List (Junction Stage)
  world : World

/-- A stage without the stage that it asks. -/
inductive Hole where
  | tagged (id : ModuleId) (index : Nat)
  | mapped (transform : Transform)
  | tally (count : Nat)
  /-- Batches that ask for the next record. -/
  | input (task : Task)
  /-- Batches that ask the embedded module of a loop. -/
  | collect (task : Task) (source : Stage) (last : Bool) (rule : LoopRule) (item : Record)
      (found : List Record)

/-- What becomes of a stage once the stage that it asks has been asked. -/
inductive Reaction where
  /-- That is what asking it comes to. -/
  | stop (poll : Poll) (stage : Stage)
  /-- It has more to do. -/
  | go (stage : Stage)

namespace Hole

/-- The whole stage. -/
def fill : Hole → Stage → Stage
  | tagged id index, inner => .tagged id index inner
  | mapped transform, inner => .mapped transform inner
  | tally count, inner => .tally ⟨inner, count, false⟩
  | input task, inner => .batches task ⟨inner, [], none, false⟩
  | collect task source last rule item found, inner =>
      .batches task ⟨source, [], some (.collect rule item inner found), last⟩

/-- What a tally makes of its input. -/
def reactTally (count : Nat) (inner : Stage) : Poll → Reaction
  | .pending => .stop .pending (.tally ⟨inner, count, false⟩)
  | .ended => .stop (.answer (.ok (Tally.record count))) (.tally ⟨inner, count, true⟩)
  | .answer (.error error) => .stop (.answer (.error error)) (.tally ⟨inner, count, true⟩)
  | .answer (.ok item) =>
      if item.isSentinel then
        .stop (.answer (.ok (Tally.record count))) (.tally ⟨inner, count, true⟩)
      else .go (.tally ⟨inner, count + 1, false⟩)

/-- What batches make of their input. -/
def reactInput (task : Task) (inner : Stage) : Poll → Reaction
  | .pending => .stop .pending (.batches task ⟨inner, [], none, false⟩)
  | .ended => .stop .ended (.batches task ⟨inner, [], none, true⟩)
  | .answer (.error error) =>
      .stop (.answer (.error error)) (.batches task ⟨inner, [], none, false⟩)
  | .answer (.ok record) =>
      .go (.batches task ⟨inner, [], some (task.begin record), record.isSentinel⟩)

/-- What batches make of the embedded module of a loop. -/
def reactCollect (task : Task) (source : Stage) (last : Bool) (rule : LoopRule) (item : Record)
    (found : List Record) (inner : Stage) : Poll → Reaction
  | .pending =>
      .stop .pending (.batches task ⟨source, [], some (.collect rule item inner found), last⟩)
  | .ended =>
      .go (.batches task ⟨source, Batches.answersOf (.ok (rule.apply item found)), none, last⟩)
  | .answer (.error error) =>
      .go (.batches task ⟨source, Batches.answersOf (.error error), none, last⟩)
  | .answer (.ok record) => .go
      (.batches task ⟨source, [], some (.collect rule item inner (found ++ [record])), last⟩)

/-- What becomes of the whole stage. -/
def react (now : DateTime) : Hole → Poll → Stage → Reaction
  | tagged id index, .answer answer, inner =>
      .stop (.answer (answer.mapError fun error => error.whileProducing id index))
        (.tagged id (index + 1) inner)
  | tagged id index, other, inner => .stop other (.tagged id index inner)
  | mapped transform, poll, inner => .stop
      (poll.mapAnswer fun answer => answer.bind fun record => transform.apply now record)
      (.mapped transform inner)
  | tally count, poll, inner => reactTally count inner poll
  | input task, poll, inner => reactInput task inner poll
  | collect task source last rule item found, poll, inner =>
      reactCollect task source last rule item found inner poll

/-- Whoever asks a stage that has to wait has to wait too, and has lost nothing. -/
@[simp]
theorem react_pending (now : DateTime) (hole : Hole) (inner : Stage) :
    hole.react now .pending inner = .stop .pending (hole.fill inner) := by
  cases hole <;> rfl

/-- Nobody else has to wait. -/
theorem react_ne_pending {now : DateTime} {hole : Hole} {poll : Poll} {inner next : Stage}
    (h : hole.react now poll inner = .stop .pending next) : poll = .pending := by
  cases poll with
  | pending => rfl
  | ended => cases hole <;> cases h
  | answer answer =>
      cases hole with
      | tagged id index => cases h
      | mapped transform => cases h
      | tally count =>
          cases answer with
          | error error => cases h
          | ok item =>
              simp only [react, reactTally] at h
              split at h <;> cases h
      | input task => cases answer <;> cases h
      | collect task source last rule item found => cases answer <;> cases h

end Hole

namespace Stage

/-- The answer that a stage has without asking, and what is left then. -/
def ready? : Stage → Option (Answer × Stage)
  | .sentinel => some (.ok Record.sentinel, .sentinel)
  | .constant record => some (.ok record, .constant record)
  | .once (some record) => some (.ok record, .once none)
  | .batches task ⟨input, answer :: rest, job, last⟩ =>
      some (answer, .batches task ⟨input, rest, job, last⟩)
  | _ => none

/-- A stage is a consumer of the junction at a place, with a number among its consumers. -/
inductive Refers : Stage → Nat → Nat → Prop
  | branch (place index : Nat) : Refers (.branch place index) place index
  | tap (place : Nat) : Refers (.tap place) place 0

theorem Refers.unique {stage : Stage} {place index other number : Nat}
    (h : stage.Refers place index) (hother : stage.Refers other number) :
    place = other ∧ index = number := by
  cases h <;> cases hother <;> exact ⟨rfl, rfl⟩

/-- A stage has ended and knows it. -/
inductive Dry (junctions : List (Junction Stage)) : Stage → Prop
  | once : Dry junctions (.once none)
  | tally (input : Stage) (count : Nat) : Dry junctions (.tally ⟨input, count, true⟩)
  | batches (task : Task) (input : Stage) : Dry junctions (.batches task ⟨input, [], none, true⟩)
  | consumer {stage : Stage} {place index : Nat} {junction : Junction Stage}
      (hrefers : stage.Refers place index) (hjunction : junctions[place]? = some junction)
      (hempty : junction.waitingFor index = []) (hdry : junction.dry = true) : Dry junctions stage

/-- The work on a record waits, and then does not wait any more. -/
inductive Waits : Stage → Stage → Prop
  | load (task : Task) (input : Stage) (last : Bool) (conf : Conf) (item : Record) :
      Waits (.batches task ⟨input, [], some (.load conf item true), last⟩)
        (.batches task ⟨input, [], some (.load conf item false), last⟩)

/-- The work on a record goes one step on. -/
inductive Moves (setting : Setting) : Stage → World → Stage → World → Prop
  | load {task : Task} {input : Stage} {last : Bool} {conf : Conf} {item : Record}
      {batch : Except PipeError (List Record)} {world later : World}
      (hfetch : (Job.fetch setting conf item).run world = some (batch, later)) :
      Moves setting (.batches task ⟨input, [], some (.load conf item false), last⟩) world
        (.batches task ⟨input, Batches.answersOf batch, none, last⟩) later
  | refuse {task : Task} {input : Stage} {last : Bool} {rule : LoopRule} {embed : Embed Factory}
      {mode : Mode} {item : Record} {error : PipeError} {world later : World}
      (hbuild : (embed.instantiate setting mode item).run world = some (.error error, later)) :
      Moves setting (.batches task ⟨input, [], some (.instantiate rule embed mode item), last⟩) world
        (.batches task ⟨input, Batches.answersOf (.error error), none, last⟩) later
  | enter {task : Task} {input : Stage} {last : Bool} {rule : LoopRule} {embed : Embed Factory}
      {mode : Mode} {item : Record} {stage : Stage} {world later : World}
      (hbuild : (embed.instantiate setting mode item).run world = some (.ok stage, later)) :
      Moves setting (.batches task ⟨input, [], some (.instantiate rule embed mode item), last⟩) world
        (.batches task ⟨input, [], some (.collect rule item stage []), last⟩) later

end Stage

/-- What asking a stage comes to, and what it leaves. -/
inductive Scene.Gives (setting : Setting) : Scene → Poll → Scene → Prop
  | ready {stage next : Stage} {junctions : List (Junction Stage)} {world : World} {answer : Answer}
      (hready : stage.ready? = some (answer, next)) :
      Gives setting ⟨stage, junctions, world⟩ (.answer answer) ⟨next, junctions, world⟩
  | dry {stage : Stage} {junctions : List (Junction Stage)} {world : World}
      (hdry : stage.Dry junctions) :
      Gives setting ⟨stage, junctions, world⟩ .ended ⟨stage, junctions, world⟩
  | wait {stage next : Stage} {junctions : List (Junction Stage)} {world later : World}
      (hwait : stage.Waits next) (hwake : (Run.wakeAt world.clock).run world = some ((), later)) :
      Gives setting ⟨stage, junctions, world⟩ .pending ⟨next, junctions, later⟩
  | move {stage next : Stage} {junctions : List (Junction Stage)} {world later : World} {poll : Poll}
      {after : Scene} (hmove : stage.Moves setting world next later)
      (hrest : Gives setting ⟨next, junctions, later⟩ poll after) :
      Gives setting ⟨stage, junctions, world⟩ poll after
  | stop {hole : Hole} {inner next : Stage} {junctions : List (Junction Stage)} {world : World}
      {asked : Scene} {poll out : Poll}
      (hask : Gives setting ⟨inner, junctions, world⟩ poll asked)
      (hreact : hole.react setting.now poll asked.stage = .stop out next) :
      Gives setting ⟨hole.fill inner, junctions, world⟩ out ⟨next, asked.junctions, asked.world⟩
  | go {hole : Hole} {inner next : Stage} {junctions : List (Junction Stage)} {world : World}
      {asked after : Scene} {poll out : Poll}
      (hask : Gives setting ⟨inner, junctions, world⟩ poll asked)
      (hreact : hole.react setting.now poll asked.stage = .go next)
      (hrest : Gives setting ⟨next, asked.junctions, asked.world⟩ out after) :
      Gives setting ⟨hole.fill inner, junctions, world⟩ out after
  | closed {inner junctions : List (Junction Stage)} {stage : Stage} {world : World} {poll : Poll}
      {asked : Scene} (hask : Gives setting ⟨stage, inner, world⟩ poll asked) :
      Gives setting ⟨.closed inner stage, junctions, world⟩ poll
        ⟨.closed asked.junctions asked.stage, junctions, asked.world⟩
  | buffered {stage : Stage} {junctions : List (Junction Stage)} {world : World}
      {place index : Nat} {junction : Junction Stage} {record : Record} {rest : List Record}
      (hrefers : stage.Refers place index) (hjunction : junctions[place]? = some junction)
      (hbuffer : junction.waitingFor index = record :: rest) :
      Gives setting ⟨stage, junctions, world⟩ (.answer (.ok record))
        ⟨stage, junctions.set place (junction.serve index rest), world⟩
  | shared {stage : Stage} {junctions : List (Junction Stage)} {world : World}
      {place index : Nat} {junction : Junction Stage} {poll : Poll} {asked : Scene}
      (hrefers : stage.Refers place index) (hjunction : junctions[place]? = some junction)
      (hempty : junction.waitingFor index = []) (hdry : junction.dry = false)
      (hask : Gives setting ⟨junction.upstream, junctions, world⟩ poll asked) :
      Gives setting ⟨stage, junctions, world⟩ poll
        ⟨stage, asked.junctions.set place (junction.settle index asked.stage poll), asked.world⟩

namespace Hole

@[simp]
theorem ready?_fill (hole : Hole) (inner : Stage) : (hole.fill inner).ready? = none := by
  cases hole <;> rfl

theorem not_dry_fill {junctions : List (Junction Stage)} {hole : Hole} {inner : Stage} :
    ¬ (hole.fill inner).Dry junctions := by
  intro h
  cases hole <;> cases h <;> rename_i hrefers <;> cases hrefers

theorem not_refers_fill {hole : Hole} {inner : Stage} {place index : Nat} :
    ¬ (hole.fill inner).Refers place index := by
  intro h
  cases hole <;> cases h

theorem not_waits_fill {hole : Hole} {inner next : Stage} : ¬ (hole.fill inner).Waits next := by
  intro h
  cases hole <;> cases h

theorem not_moves_fill {setting : Setting} {hole : Hole} {inner next : Stage}
    {world later : World} : ¬ (hole.fill inner).Moves setting world next later := by
  intro h
  cases hole <;> cases h

/-- A stage with a hole ends with what it asks, and is as it was or knows it. -/
theorem react_ended {now : DateTime} {hole : Hole} {poll : Poll} {inner next : Stage}
    (junctions : List (Junction Stage)) (h : hole.react now poll inner = .stop .ended next) :
    poll = .ended ∧ next = hole.fill inner ∨ next.Dry junctions := by
  rcases poll with _ | _ | (error | item)
  · rw [react_pending] at h
    cases h
  · cases hole <;> cases h
    · exact .inl ⟨rfl, rfl⟩
    · exact .inl ⟨rfl, rfl⟩
    · exact .inr (.batches _ _)
  · cases hole <;> cases h
  · cases hole
    case tally count =>
      simp only [react, reactTally] at h
      split at h <;> cases h
    all_goals cases h

theorem fill_inj {first second : Hole} {inner other : Stage}
    (h : first.fill inner = second.fill other) : first = second ∧ inner = other := by
  cases first <;> cases second <;> cases h <;> exact ⟨rfl, rfl⟩

end Hole

namespace Scene.Gives

variable {setting : Setting} {junctions : List (Junction Stage)} {world : World} {out : Poll}
  {after : Scene}

/-- A hole with a stage in it asks that stage first. -/
theorem of_fill {hole : Hole} {inner : Stage}
    (h : Gives setting ⟨hole.fill inner, junctions, world⟩ out after) :
    ∃ poll asked, Gives setting ⟨inner, junctions, world⟩ poll asked ∧
      ((∃ next, hole.react setting.now poll asked.stage = .stop out next ∧
          after = ⟨next, asked.junctions, asked.world⟩) ∨
        ∃ next, hole.react setting.now poll asked.stage = .go next ∧
          Gives setting ⟨next, asked.junctions, asked.world⟩ out after) := by
  generalize hscene : (⟨hole.fill inner, junctions, world⟩ : Scene) = scene at h
  cases h with
  | ready hready =>
      cases hscene
      rw [Hole.ready?_fill] at hready
      cases hready
  | dry hdry =>
      cases hscene
      exact absurd hdry Hole.not_dry_fill
  | wait hwait hwake =>
      cases hscene
      exact absurd hwait Hole.not_waits_fill
  | move hmove hrest =>
      cases hscene
      exact absurd hmove Hole.not_moves_fill
  | stop hask hreact =>
      obtain ⟨hstage, rfl, rfl⟩ := Scene.mk.inj hscene
      obtain ⟨rfl, rfl⟩ := Hole.fill_inj hstage
      exact ⟨_, _, hask, .inl ⟨_, hreact, rfl⟩⟩
  | go hask hreact hrest =>
      obtain ⟨hstage, rfl, rfl⟩ := Scene.mk.inj hscene
      obtain ⟨rfl, rfl⟩ := Hole.fill_inj hstage
      exact ⟨_, _, hask, .inr ⟨_, hreact, hrest⟩⟩
  | closed hask => cases hole <;> cases hscene
  | buffered hrefers hjunction hbuffer =>
      cases hscene
      exact absurd hrefers Hole.not_refers_fill
  | shared hrefers hjunction hempty hdry hask =>
      cases hscene
      exact absurd hrefers Hole.not_refers_fill

theorem of_closed {inner : List (Junction Stage)} {stage : Stage}
    (h : Gives setting ⟨.closed inner stage, junctions, world⟩ out after) :
    ∃ asked, Gives setting ⟨stage, inner, world⟩ out asked ∧
      after = ⟨.closed asked.junctions asked.stage, junctions, asked.world⟩ := by
  generalize hscene : (⟨.closed inner stage, junctions, world⟩ : Scene) = scene at h
  cases h with
  | ready hready =>
      cases hscene
      cases hready
  | dry hdry =>
      cases hscene
      cases hdry with
      | consumer hrefers => cases hrefers
  | wait hwait hwake =>
      cases hscene
      cases hwait
  | move hmove hrest =>
      cases hscene
      cases hmove
  | @stop hole => cases hole <;> cases hscene
  | @go hole => cases hole <;> cases hscene
  | closed hask =>
      cases hscene
      exact ⟨_, hask, rfl⟩
  | buffered hrefers =>
      cases hscene
      cases hrefers
  | shared hrefers =>
      cases hscene
      cases hrefers

/-- A consumer for whom nothing waits asks the upstream. -/
theorem of_refers {stage : Stage} {place index : Nat} {junction : Junction Stage}
    (hrefers : stage.Refers place index) (hjunction : junctions[place]? = some junction)
    (hempty : junction.waitingFor index = []) (hdry : junction.dry = false)
    (h : Gives setting ⟨stage, junctions, world⟩ out after) :
    ∃ asked, Gives setting ⟨junction.upstream, junctions, world⟩ out asked ∧
      after = ⟨stage, asked.junctions.set place (junction.settle index asked.stage out),
        asked.world⟩ := by
  generalize hscene : (⟨stage, junctions, world⟩ : Scene) = scene at h
  cases h with
  | ready hready =>
      cases hscene
      cases hrefers <;> cases hready
  | dry hend =>
      cases hscene
      cases hend with
      | once => cases hrefers
      | tally => cases hrefers
      | batches => cases hrefers
      | consumer hother hfound _ hended =>
          obtain ⟨rfl, rfl⟩ := hrefers.unique hother
          cases hjunction.symm.trans hfound
          cases hdry.symm.trans hended
  | wait hwait hwake =>
      cases hscene
      cases hrefers <;> cases hwait
  | move hmove hrest =>
      cases hscene
      cases hrefers <;> cases hmove
  | stop hask hreact =>
      cases hscene
      exact absurd hrefers Hole.not_refers_fill
  | go hask hreact hrest =>
      cases hscene
      exact absurd hrefers Hole.not_refers_fill
  | closed hask =>
      cases hscene
      cases hrefers
  | buffered hother hfound hbuffer =>
      cases hscene
      obtain ⟨rfl, rfl⟩ := hrefers.unique hother
      cases hjunction.symm.trans hfound
      cases hempty.symm.trans hbuffer
  | shared hother hfound _ _ hask =>
      cases hscene
      obtain ⟨rfl, rfl⟩ := hrefers.unique hother
      cases hjunction.symm.trans hfound
      exact ⟨_, hask, rfl⟩

end Scene.Gives

end Pipework
