import Pipework.Proofs.Mode.Scope

/-! # What the modules of a run have returned

The stages of a run stand at addresses. `Scene.Tells` is `Scene.Gives` with notes: each answer that
the own stage of a module returns is noted with its address, before anybody attributes or passes it
on. A loop clears the address of its body for every record. What a stage has returned so far is read
off the notes, without regard to what the stage keeps of it.
-/

namespace Pipework

/-- A turn on the way to a stage. -/
inductive Turn where
  /-- To the stage that is asked for input, or to the one that stands before the junctions. -/
  | inner
  /-- To the module that a loop runs for a record. -/
  | body
  /-- To the upstream of the junction at a place. -/
  | upstream (place : Nat)
deriving DecidableEq

/-- The turns that lead to a stage, the last one first. -/
abbrev Address := List Turn

/-- What is noted of a run. -/
inductive Note where
  /-- The own stage of a module has returned an answer. -/
  | returned (address : Address) (id : ModuleId) (answer : Answer)
  /-- Whatever stood there is gone, and nothing has been returned there yet. -/
  | cleared (address : Address)

namespace Note

def address : Note → Address
  | returned address _ _ => address
  | cleared address => address

/-- What the stage at an address has returned once this is noted too. -/
def extend (place : Address) (past : List Answer) : Note → List Answer
  | returned address _ answer => if address = place then past ++ [answer] else past
  | cleared address => if address <:+ place then [] else past

/-- What the stage at an address has returned so far. -/
def past (log : List Note) (place : Address) : List Answer :=
  log.foldl (extend place) []

/-- The note is about the stage at an address. -/
def Touches (place : Address) : Note → Prop
  | returned address _ _ => address = place
  | cleared address => address <:+ place

variable {log notes : List Note} {place : Address}

theorem Touches.suffix {note : Note} (h : note.Touches place) : note.address <:+ place := by
  cases note with
  | returned address id answer => exact h ▸ List.suffix_rfl
  | cleared address => exact h

theorem extend_of_not_touches {note : Note} {past : List Answer} (h : ¬ note.Touches place) :
    note.extend place past = past := by
  cases note <;> exact if_neg h

theorem past_append_of_not_touches (h : ∀ note ∈ notes, ¬ note.Touches place) :
    past (log ++ notes) place = past log place := by
  induction notes generalizing log with
  | nil => rw [List.append_nil]
  | cons note rest ih =>
      rw [List.append_cons, ih fun other hother => h other (List.mem_cons_of_mem _ hother), past,
        List.foldl_append]
      exact extend_of_not_touches (h note List.mem_cons_self)

theorem past_append_returned (log : List Note) (place : Address) (id : ModuleId) (answer : Answer) :
    past (log ++ [returned place id answer]) place = past log place ++ [answer] := by
  rw [past, List.foldl_append]
  exact if_pos rfl

theorem past_append_cleared {address : Address} (h : address <:+ place) :
    past (log ++ [cleared address]) place = [] := by
  rw [past, List.foldl_append]
  exact if_pos h

/-- None of the notes is about a stage in a region. -/
def Spares (notes : List Note) (region : Address) : Prop :=
  ∀ note ∈ notes, ∀ place, region <:+ place → ¬ note.Touches place

theorem Spares.mono {region narrow : Address} (h : Spares notes region) (hnarrow : region <:+ narrow) :
    Spares notes narrow :=
  fun note hnote place hplace => h note hnote place (hnarrow.trans hplace)

theorem Spares.past {region : Address} (h : Spares notes region) (hplace : region <:+ place) :
    Note.past (log ++ notes) place = Note.past log place :=
  past_append_of_not_touches fun note hnote => h note hnote place hplace

end Note

namespace Address

/-- Nothing stands in both regions. -/
def Apart (first second : Address) : Prop :=
  ∀ place : Address, first <:+ place → ¬ second <:+ place

variable {first second here scope : Address}

theorem Apart.symm (h : Apart first second) : Apart second first :=
  fun place hsecond hfirst => h place hfirst hsecond

theorem Apart.mono {narrow : Address} (h : Apart first second) (hnarrow : second <:+ narrow) :
    Apart first narrow :=
  fun place hfirst hplace => h place hfirst (hnarrow.trans hplace)

theorem Apart.cons (h : Apart first second) (turn : Turn) : Apart first (turn :: second) :=
  h.mono (List.suffix_cons turn second)

/-- Ways that part at a turn do not meet again. -/
theorem apart_of_ne {turn other : Turn} (h : turn ≠ other) (here : Address) :
    Apart (turn :: here) (other :: here) := by
  intro place hfirst hsecond
  have hsuffix := List.suffix_of_suffix_length_le hfirst hsecond (le_refl _)
  exact h (List.cons.inj (hsuffix.eq_of_length rfl)).1

/-- The upstreams of different junctions have nothing in common. -/
theorem apart_upstream {place other : Nat} (h : place ≠ other) (scope : Address) :
    Apart (.upstream place :: scope) (.upstream other :: scope) :=
  apart_of_ne (fun hturn => h (Turn.upstream.inj hturn)) scope

theorem not_cons_suffix (turn : Turn) (here : Address) : ¬ turn :: here <:+ here := by
  intro h
  exact absurd h.length_le (by simp)

/-- What asking the stage at an address may touch: what stands below it, and the upstreams of the
junctions in its scope up to a bound. -/
def Reaches (here scope : Address) (bound : Nat) (place : Address) : Prop :=
  here <:+ place ∨ ∃ junction < bound, .upstream junction :: scope <:+ place

theorem Reaches.of_cons {turn : Turn} {narrow bound : Nat} {place : Address}
    (h : Reaches (turn :: here) scope narrow place) (hnarrow : narrow ≤ bound) :
    Reaches here scope bound place := by
  rcases h with hbelow | ⟨junction, hjunction, hbelow⟩
  · exact .inl ((List.suffix_cons turn here).trans hbelow)
  · exact .inr ⟨junction, hjunction.trans_le hnarrow, hbelow⟩

/-- What asking a stage may touch is apart from a region. -/
theorem spares_of_reaches {notes : List Note} {bound : Nat} {region : Address}
    (h : ∀ note ∈ notes, Reaches here scope bound note.address) (hhere : Apart here region)
    (hscope : ∀ junction < bound, Apart (.upstream junction :: scope) region) :
    Note.Spares notes region := by
  intro note hnote place hplace htouches
  rcases h note hnote with hbelow | ⟨junction, hjunction, hbelow⟩
  · exact hhere place (hbelow.trans htouches.suffix) hplace
  · exact hscope junction hjunction place (hbelow.trans htouches.suffix) hplace

end Address

/-- The turn to the stage that a stage with a hole asks. -/
def Hole.turn : Hole → Turn
  | .collect .. => .body
  | _ => .inner

/-- What is noted of the answer that a stage with a hole gets. -/
def Hole.notes (here : Address) : Hole → Poll → List Note
  | .tagged id _, .answer answer => [.returned here id answer]
  | _, _ => []

theorem Hole.address_of_mem_notes {hole : Hole} {here : Address} {poll : Poll} {note : Note}
    (h : note ∈ hole.notes here poll) : note.address = here := by
  cases hole <;> cases poll <;> simp_all [notes, Note.address]

/-- `Scene.Gives` for a stage at an address, in the scope of junctions at another one, with what is
noted meanwhile. -/
inductive Scene.Tells (setting : Setting) : Address → Address → Scene → Poll → Scene → List Note → Prop
  | ready {here scope : Address} {stage next : Stage} {junctions : List (Junction Stage)}
      {world : World} {answer : Answer} (hready : stage.ready? = some (answer, next)) :
      Tells setting here scope ⟨stage, junctions, world⟩ (.answer answer) ⟨next, junctions, world⟩ []
  | dry {here scope : Address} {stage : Stage} {junctions : List (Junction Stage)} {world : World}
      (hdry : stage.Dry junctions) :
      Tells setting here scope ⟨stage, junctions, world⟩ .ended ⟨stage, junctions, world⟩ []
  | wait {here scope : Address} {stage next : Stage} {junctions : List (Junction Stage)}
      {world later : World} (hwait : stage.Waits next)
      (hwake : (Run.wakeAt world.clock).run world = some ((), later)) :
      Tells setting here scope ⟨stage, junctions, world⟩ .pending ⟨next, junctions, later⟩ []
  | move {here scope : Address} {stage next : Stage} {junctions : List (Junction Stage)}
      {world later : World} {poll : Poll} {after : Scene} {notes : List Note}
      (hmove : stage.Moves setting world next later)
      (hrest : Tells setting here scope ⟨next, junctions, later⟩ poll after notes) :
      Tells setting here scope ⟨stage, junctions, world⟩ poll after
        (.cleared (.body :: here) :: notes)
  | stop {here scope : Address} {hole : Hole} {inner next : Stage}
      {junctions : List (Junction Stage)} {world : World} {asked : Scene} {poll out : Poll}
      {notes : List Note}
      (hask : Tells setting (hole.turn :: here) scope ⟨inner, junctions, world⟩ poll asked notes)
      (hreact : hole.react setting.now poll asked.stage = .stop out next) :
      Tells setting here scope ⟨hole.fill inner, junctions, world⟩ out
        ⟨next, asked.junctions, asked.world⟩ (notes ++ hole.notes here poll)
  | go {here scope : Address} {hole : Hole} {inner next : Stage}
      {junctions : List (Junction Stage)} {world : World} {asked after : Scene} {poll out : Poll}
      {notes rest : List Note}
      (hask : Tells setting (hole.turn :: here) scope ⟨inner, junctions, world⟩ poll asked notes)
      (hreact : hole.react setting.now poll asked.stage = .go next)
      (hrest : Tells setting here scope ⟨next, asked.junctions, asked.world⟩ out after rest) :
      Tells setting here scope ⟨hole.fill inner, junctions, world⟩ out after
        (notes ++ hole.notes here poll ++ rest)
  | closed {here scope : Address} {inner junctions : List (Junction Stage)} {stage : Stage}
      {world : World} {poll : Poll} {asked : Scene} {notes : List Note}
      (hask : Tells setting (.inner :: here) here ⟨stage, inner, world⟩ poll asked notes) :
      Tells setting here scope ⟨.closed inner stage, junctions, world⟩ poll
        ⟨.closed asked.junctions asked.stage, junctions, asked.world⟩ notes
  | buffered {here scope : Address} {stage : Stage} {junctions : List (Junction Stage)}
      {world : World} {place index : Nat} {junction : Junction Stage} {record : Record}
      {rest : List Record} (hrefers : stage.Refers place index)
      (hjunction : junctions[place]? = some junction)
      (hbuffer : junction.waitingFor index = record :: rest) :
      Tells setting here scope ⟨stage, junctions, world⟩ (.answer (.ok record))
        ⟨stage, junctions.set place (junction.serve index rest), world⟩ []
  | shared {here scope : Address} {stage : Stage} {junctions : List (Junction Stage)}
      {world : World} {place index : Nat} {junction : Junction Stage} {poll : Poll} {asked : Scene}
      {notes : List Note} (hrefers : stage.Refers place index)
      (hjunction : junctions[place]? = some junction) (hempty : junction.waitingFor index = [])
      (hdry : junction.dry = false)
      (hask : Tells setting (.upstream place :: scope) scope ⟨junction.upstream, junctions, world⟩
        poll asked notes) :
      Tells setting here scope ⟨stage, junctions, world⟩ poll
        ⟨stage, asked.junctions.set place (junction.settle index asked.stage poll), asked.world⟩
        notes

namespace Scene

variable {setting : Setting} {before after : Scene} {poll : Poll} {here scope : Address}
  {notes : List Note}

/-- The notes change nothing. -/
theorem Tells.gives (h : Tells setting here scope before poll after notes) :
    Gives setting before poll after := by
  induction h with
  | ready hready => exact .ready hready
  | dry hdry => exact .dry hdry
  | wait hwait hwake => exact .wait hwait hwake
  | move hmove _ ih => exact .move hmove ih
  | stop _ hreact ih => exact .stop ih hreact
  | go _ hreact _ ih ihrest => exact .go ih hreact ihrest
  | closed _ ih => exact .closed ih
  | buffered hrefers hjunction hbuffer => exact .buffered hrefers hjunction hbuffer
  | shared hrefers hjunction hempty hdry _ ih => exact .shared hrefers hjunction hempty hdry ih

/-- Wherever a stage stands, notes can be taken. -/
theorem Gives.tells (h : Gives setting before poll after) (here scope : Address) :
    ∃ notes, Tells setting here scope before poll after notes := by
  induction h generalizing here scope with
  | ready hready => exact ⟨_, .ready hready⟩
  | dry hdry => exact ⟨_, .dry hdry⟩
  | wait hwait hwake => exact ⟨_, .wait hwait hwake⟩
  | move hmove _ ih =>
      obtain ⟨notes, hrest⟩ := ih here scope
      exact ⟨_, .move hmove hrest⟩
  | stop _ hreact ih =>
      obtain ⟨notes, hask⟩ := ih _ scope
      exact ⟨_, .stop hask hreact⟩
  | go _ hreact _ ih ihrest =>
      obtain ⟨notes, hask⟩ := ih _ scope
      obtain ⟨rest, hrest⟩ := ihrest here scope
      exact ⟨_, .go hask hreact hrest⟩
  | closed _ ih =>
      obtain ⟨notes, hask⟩ := ih (.inner :: here) here
      exact ⟨_, .closed hask⟩
  | buffered hrefers hjunction hbuffer => exact ⟨_, .buffered hrefers hjunction hbuffer⟩
  | shared hrefers hjunction hempty hdry _ ih =>
      obtain ⟨notes, hask⟩ := ih _ scope
      exact ⟨_, .shared hrefers hjunction hempty hdry hask⟩

variable {known : Pipe → Prop} {mode : Mode} {bound : Nat}

/-- Nothing is noted of what a stage does not touch. -/
theorem Tells.reaches (hcloses : setting.registry.Closes known)
    (h : Tells setting here scope before poll after notes) (hplain : before.Plain known mode bound) :
    ∀ note ∈ notes, Address.Reaches here scope bound note.address := by
  induction h generalizing bound with
  | ready | dry | wait | buffered => exact fun note hnote => absurd hnote List.not_mem_nil
  | @move here scope _ _ _ _ _ _ _ _ hmove _ ih =>
      intro note hnote
      rcases List.mem_cons.mp hnote with rfl | hrest
      · exact .inl (List.suffix_cons Turn.body here)
      · exact ih (hplain.moved hcloses hmove) note hrest
  | @stop here scope hole _ _ _ _ _ _ _ _ _ _ ih =>
      intro note hnote
      rcases List.mem_append.mp hnote with hinner | hown
      · exact (ih hplain.inner note hinner).of_cons (hole.scope_le bound)
      · exact .inl (Hole.address_of_mem_notes hown ▸ List.suffix_rfl)
  | @go here scope hole _ _ _ _ _ _ _ _ _ _ hask hreact _ ih ihrest =>
      obtain ⟨hasked, hkeeps⟩ := hask.gives.keeps hcloses hplain.inner
      have hnext := hplain.reacted hasked hkeeps (congrArg Reaction.stage hreact)
      intro note hnote
      rcases List.mem_append.mp hnote with hfirst | hrest
      · rcases List.mem_append.mp hfirst with hinner | hown
        · exact (ih hplain.inner note hinner).of_cons (hole.scope_le bound)
        · exact .inl (Hole.address_of_mem_notes hown ▸ List.suffix_rfl)
      · exact ihrest hnext note hrest
  | @closed here _ _ _ _ _ _ _ _ _ ih =>
      intro note hnote
      -- The junctions in the scope of what is asked stand below the stage themselves.
      rcases ih hplain.out note hnote with hbelow | ⟨junction, _, hbelow⟩
      · exact .inl ((List.suffix_cons .inner here).trans hbelow)
      · exact .inl ((List.suffix_cons (.upstream junction) here).trans hbelow)
  | shared hrefers hjunction _ _ _ ih =>
      obtain ⟨hplace, hupstream⟩ := hplain.upstream hrefers hjunction
      intro note hnote
      rcases ih hupstream note hnote with hbelow | ⟨other, hother, hbelow⟩
      · exact .inr ⟨_, hplace, hbelow⟩
      · exact .inr ⟨other, hother.trans hplace, hbelow⟩

end Scene

end Pipework
