import Pipework.Proofs.Mode.Building

/-! # What a stage can touch

The stages of pipes refer to earlier junctions only. So asking one of them leaves the junctions from
its bound on as they are, comes to the same whatever they are, and what it leaves is again made as
the stages of pipes are.
-/

namespace Pipework

variable {known : Pipe → Prop} {mode other : Mode} {bound : Nat} {setting : Setting}

/-- Work that may wait does not wait any more or is about to. -/
theorem Stage.load_waits (task : Task) (input : Stage) (last : Bool) (conf : Conf) (item : Record)
    (waits : Bool) :
    (.batches task ⟨input, [], some (.load conf item waits), last⟩ : Stage) =
        .batches task ⟨input, [], some (.load conf item false), last⟩ ∨
      Stage.Waits (.batches task ⟨input, [], some (.load conf item waits), last⟩)
        (.batches task ⟨input, [], some (.load conf item false), last⟩) := by
  cases waits with
  | false => exact .inl rfl
  | true => exact .inr (.load ..)

namespace Stage.Twin

variable {first second next : Stage}

theorem ready (h : first.Twin known mode other bound second) {answer : Answer}
    (hready : first.ready? = some (answer, next)) :
    ∃ twin, second.ready? = some (answer, twin) ∧ next.Twin known mode other bound twin := by
  cases h with
  | sentinel =>
      cases hready
      exact ⟨_, rfl, .sentinel⟩
  | constant record =>
      cases hready
      exact ⟨_, rfl, .constant record⟩
  | once record? =>
      cases record? with
      | none => cases hready
      | some record =>
          cases hready
          exact ⟨_, rfl, .once none⟩
  | batches queue last htask hinput =>
      cases queue with
      | nil => cases hready
      | cons answer rest =>
          cases hready
          exact ⟨_, rfl, .batches rest last htask hinput⟩
  | tagged | mapped | tally | load | instantiate | collect | branch | tap | closed => cases hready

theorem refers (h : first.Twin known mode other bound second) {place index : Nat}
    (hrefers : first.Refers place index) : second = first ∧ place < bound := by
  cases hrefers with
  | branch =>
      cases h with
      | branch _ hplace => exact ⟨rfl, hplace⟩
  | tap =>
      cases h with
      | tap hplace => exact ⟨rfl, hplace⟩

theorem dry (h : first.Twin known mode other bound second) {left right : List (Junction Stage)}
    (hjunctions : Junction.Twins known mode other left right) (hdry : first.Dry left) :
    second.Dry right := by
  cases hdry with
  | once =>
      cases h
      exact .once
  | tally =>
      cases h
      exact .tally _ _
  | batches =>
      cases h
      exact .batches _ _
  | consumer hrefers hjunction hempty hended =>
      obtain ⟨twin, htwin, houtline, -⟩ := hjunctions.getElem? hjunction
      obtain ⟨rfl, -⟩ := h.refers hrefers
      exact .consumer hrefers htwin (Junction.waitingFor_eq houtline _ ▸ hempty)
        (Junction.dry_eq houtline ▸ hended)

/-- A twin waits as well, or it does not have to. -/
theorem waits (h : first.Twin known mode other bound second) (hwaits : first.Waits next) :
    ∃ twin, (second = twin ∨ second.Waits twin) ∧ next.Twin known mode other bound twin := by
  cases hwaits with
  | load =>
      cases h with
      | load _ _ _ htask hinput =>
          refine ⟨_, load_waits .., .load _ _ _ htask hinput ?_ ?_⟩
          · rintro ⟨⟩
          · rintro ⟨⟩

theorem sync_not_waits (h : first.Twin known mode .sync bound second) : ¬ second.Waits next := by
  intro hwaits
  cases hwaits
  cases h with
  | load _ _ _ _ _ _ hlingers => cases hlingers rfl

end Stage.Twin

theorem Job.fetch_follows (setting : Setting) (conf : Conf) (item : Record) :
    (Job.fetch setting conf item).Follows (fun batch twin => batch = twin)
      (Job.fetch setting conf item) := by
  unfold Job.fetch
  split
  · exact .pure rfl
  · refine (Run.Follows.readFile setting _).bind ?_
    rintro text _ rfl
    exact .pure rfl

section Closed

variable (hcloses : setting.registry.Closes known)

include hcloses

/-- A twin goes the same step on, wherever the world is alike, once it has waited. -/
theorem Stage.Twin.moves {first second next : Stage} {world later : World}
    (h : first.Twin known mode other bound second)
    (hmoves : first.Moves setting world next later) :
    ∃ base, (second = base ∨ second.Waits base) ∧
      ∀ twin, world.Alike twin → ∃ after behind, base.Moves setting twin after behind ∧
        next.Twin known mode other bound after ∧ later.Alike behind := by
  cases hmoves with
  | load hfetch =>
      cases h with
      | load _ _ _ htask hinput =>
          refine ⟨_, load_waits .., fun twin halike => ?_⟩
          obtain ⟨batch, behind, htwin, rfl, hlater⟩ := Job.fetch_follows setting _ _ halike hfetch
          exact ⟨_, behind, .load htwin, .batches _ _ htask hinput, hlater⟩
  | refuse hbuild =>
      cases h with
      | instantiate _ _ _ htask hinput hembed =>
          refine ⟨_, .inl rfl, fun twin halike => ?_⟩
          obtain ⟨outcome, behind, htwin, hagree, hlater⟩ :=
            Embed.instantiate_follows hcloses mode other hembed _ halike hbuild
          cases hagree
          exact ⟨_, behind, .refuse htwin, .batches _ _ htask hinput, hlater⟩
  | enter hbuild =>
      cases h with
      | instantiate _ _ _ htask hinput hembed =>
          refine ⟨_, .inl rfl, fun twin halike => ?_⟩
          obtain ⟨outcome, behind, htwin, hagree, hlater⟩ :=
            Embed.instantiate_follows hcloses mode other hembed _ halike hbuild
          cases hagree with
          | ok hstage =>
              exact ⟨_, behind, .enter htwin, .collect _ _ [] _ htask hinput hstage, hlater⟩

end Closed

namespace Scene

/-- The stages of the scene are such as pipes are made of in a mode. -/
def Plain (known : Pipe → Prop) (mode : Mode) (bound : Nat) (scene : Scene) : Prop :=
  scene.Twin known mode mode bound scene

/-- The junctions from a bound on are as they were. -/
structure Keeps (bound : Nat) (before after : Scene) : Prop where
  length : after.junctions.length = before.junctions.length
  beyond : ∀ place, bound ≤ place → after.junctions[place]? = before.junctions[place]?

theorem Keeps.of_eq {before after : Scene} (h : after.junctions = before.junctions) :
    before.Keeps bound after :=
  ⟨by rw [h], fun _ _ => by rw [h]⟩

theorem Keeps.mono {narrow : Nat} {before after : Scene} (h : Keeps narrow before after)
    (hnarrow : narrow ≤ bound) : Keeps bound before after :=
  ⟨h.length, fun place hplace => h.beyond place (hnarrow.trans hplace)⟩

/-- Nothing counts but the junctions. -/
theorem Keeps.congr {before after first last : Scene} (h : before.Keeps bound after)
    (hfirst : first.junctions = before.junctions) (hlast : last.junctions = after.junctions) :
    first.Keeps bound last := by
  refine ⟨?_, fun place hplace => ?_⟩
  · rw [hfirst, hlast, h.length]
  · rw [hfirst, hlast, h.beyond place hplace]

theorem Keeps.trans {before middle after : Scene} (h : before.Keeps bound middle)
    (hrest : middle.Keeps bound after) : before.Keeps bound after :=
  ⟨hrest.length.trans h.length,
    fun place hplace => (hrest.beyond place hplace).trans (h.beyond place hplace)⟩

/-- Another junction before the bound. -/
theorem Keeps.put {before after : Scene} (h : before.Keeps bound after) {place : Nat}
    (hplace : place < bound) (junction : Junction Stage) :
    before.Keeps bound { after with junctions := after.junctions.set place junction } where
  length := List.length_set.trans h.length
  beyond at_ hat := (List.getElem?_set_ne (hplace.trans_le hat).ne).trans (h.beyond at_ hat)

/-- The scene with another junction at a place. -/
def put (scene : Scene) (place : Nat) (junction : Junction Stage) : Scene :=
  { scene with junctions := scene.junctions.set place junction }

section Twin

variable {stage : Stage} {junctions : List (Junction Stage)} {world : World} {twin : Scene}

/-- Stages with a hole are twins only if what they ask are. -/
theorem Twin.inner {hole : Hole} {inner : Stage}
    (h : Twin known mode other bound ⟨hole.fill inner, junctions, world⟩ twin) :
    ∃ like asked, twin.stage = Hole.fill like asked ∧ hole.Twin known mode other bound like ∧
      Twin known mode other (hole.scope bound) ⟨inner, junctions, world⟩
        ⟨asked, twin.junctions, twin.world⟩ := by
  obtain ⟨like, asked, hfill, hlike, hinner⟩ := Hole.Twin.of_fill h.stage
  exact ⟨like, asked, hfill, hlike,
    (hole.scope_le bound).trans h.within, hinner, h.junctions, h.world⟩

variable {hole like : Hole} {asked behind : Scene} {now : DateTime} {poll given : Poll} {next : Stage}

theorem Twin.react_stop (h : asked.Twin known mode other (hole.scope bound) behind)
    (hlike : hole.Twin known mode other bound like) (hwithin : bound ≤ asked.junctions.length)
    (hreact : hole.react now poll asked.stage = .stop given next) :
    ∃ last, like.react now poll behind.stage = .stop given last ∧
      Twin known mode other bound ⟨next, asked.junctions, asked.world⟩
        ⟨last, behind.junctions, behind.world⟩ := by
  have hnext := hlike.react now poll h.stage
  rw [hreact] at hnext
  generalize like.react now poll behind.stage = reaction at hnext
  cases hnext with
  | stop _ hnext => exact ⟨_, rfl, hwithin, hnext, h.junctions, h.world⟩

theorem Twin.react_go (h : asked.Twin known mode other (hole.scope bound) behind)
    (hlike : hole.Twin known mode other bound like) (hwithin : bound ≤ asked.junctions.length)
    (hreact : hole.react now poll asked.stage = .go next) :
    ∃ last, like.react now poll behind.stage = .go last ∧
      Twin known mode other bound ⟨next, asked.junctions, asked.world⟩
        ⟨last, behind.junctions, behind.world⟩ := by
  have hnext := hlike.react now poll h.stage
  rw [hreact] at hnext
  generalize like.react now poll behind.stage = reaction at hnext
  cases hnext with
  | go hnext => exact ⟨_, rfl, hwithin, hnext, h.junctions, h.world⟩

/-- What stages with junctions of their own ask. -/
theorem Twin.out {inner : List (Junction Stage)}
    (h : Twin known mode other bound ⟨.closed inner stage, junctions, world⟩ twin) :
    ∃ within out, twin.stage = .closed within out ∧
      Twin known mode other inner.length ⟨stage, inner, world⟩ ⟨out, within, twin.world⟩ := by
  obtain ⟨twinStage, twinJunctions, twinWorld⟩ := twin
  cases h.stage with
  | closed houtline hupstream hout =>
      exact ⟨_, _, rfl, Nat.le_refl _, hout, ⟨houtline, hupstream⟩, h.world⟩

theorem Twin.closed {left right : List (Junction Stage)} {size : Nat}
    (h : asked.Twin known mode other size behind) (hsize : asked.junctions.length = size)
    (hwithin : bound ≤ left.length) (hjunctions : Junction.Twins known mode other left right) :
    Twin known mode other bound ⟨.closed asked.junctions asked.stage, left, asked.world⟩
      ⟨.closed behind.junctions behind.stage, right, behind.world⟩ :=
  ⟨hwithin, .closed h.junctions.outline h.junctions.upstream (hsize ▸ h.stage), hjunctions, h.world⟩

/-- What consumers ask refers to earlier junctions only. -/
theorem Twin.upstream {place index : Nat} {junction : Junction Stage}
    (h : Twin known mode other bound ⟨stage, junctions, world⟩ twin)
    (hrefers : stage.Refers place index) (hjunction : junctions[place]? = some junction) :
    place < bound ∧ ∃ like, twin.stage = stage ∧ twin.junctions[place]? = some like ∧
      junction.outline = like.outline ∧
      Twin known mode other place ⟨junction.upstream, junctions, world⟩
        ⟨like.upstream, twin.junctions, twin.world⟩ := by
  obtain ⟨hstage, hplace⟩ := h.stage.refers hrefers
  obtain ⟨like, hlike, houtline, hupstream⟩ := h.junctions.getElem? hjunction
  exact ⟨hplace, like, hstage, hlike, houtline,
    hplace.le.trans h.within, hupstream, h.junctions, h.world⟩

section Consumer

variable {place size index : Nat} {consumer : Stage} {junction held : Junction Stage}
  (h : asked.Twin known mode other size behind) (hwithin : bound ≤ asked.junctions.length)
  (hstage : stage.Twin known mode other bound consumer) (houtline : junction.outline = held.outline)

include h hwithin hstage houtline

/-- A consumer and its twin, once their junctions have been replaced by twins. -/
theorem Twin.set (hupstream : junction.upstream.Twin known mode other place held.upstream) :
    Twin known mode other bound ⟨stage, asked.junctions.set place junction, asked.world⟩
      ⟨consumer, behind.junctions.set place held, behind.world⟩ where
  within := by
    rw [List.length_set]
    exact hwithin
  stage := hstage
  junctions := h.junctions.set houtline hupstream
  world := h.world

theorem Twin.serve (hupstream : junction.upstream.Twin known mode other place held.upstream)
    (rest : List Record) :
    Twin known mode other bound
      ⟨stage, asked.junctions.set place (junction.serve index rest), asked.world⟩
      ⟨consumer, behind.junctions.set place (held.serve index rest), behind.world⟩ := by
  refine h.set hwithin hstage (Junction.outline_serve_eq houtline index rest) ?_
  rw [Junction.upstream_serve, Junction.upstream_serve]
  exact hupstream

end Consumer

/-- A consumer and its twin, once the upstreams of their junctions have been asked. -/
theorem Twin.settle {place index : Nat} {consumer : Stage} {junction held : Junction Stage}
    (h : asked.Twin known mode other place behind) (hwithin : bound ≤ asked.junctions.length)
    (hstage : stage.Twin known mode other bound consumer)
    (houtline : junction.outline = held.outline) (poll : Poll) :
    Twin known mode other bound
      ⟨stage, asked.junctions.set place (junction.settle index asked.stage poll), asked.world⟩
      ⟨consumer, behind.junctions.set place (held.settle index behind.stage poll),
        behind.world⟩ := by
  refine h.set hwithin hstage (Junction.outline_settle_eq houtline index _ _ poll) ?_
  rw [Junction.upstream_settle, Junction.upstream_settle]
  exact h.stage

end Twin

namespace Plain

variable {stage : Stage} {junctions : List (Junction Stage)} {world : World}

theorem inner {hole : Hole} {inner : Stage}
    (h : Plain known mode bound ⟨hole.fill inner, junctions, world⟩) :
    Plain known mode (hole.scope bound) ⟨inner, junctions, world⟩ := by
  obtain ⟨like, asked, -, -, hinner⟩ := Twin.inner h
  exact hinner.left

/-- What is left of a stage with a hole. -/
theorem reacted {hole : Hole} {inner next : Stage} {asked : Scene} {now : DateTime} {poll : Poll}
    (h : Plain known mode bound ⟨hole.fill inner, junctions, world⟩)
    (hasked : asked.Plain known mode (hole.scope bound))
    (hkeeps : Keeps (hole.scope bound) ⟨inner, junctions, world⟩ asked)
    (hreact : (hole.react now poll asked.stage).stage = next) :
    Plain known mode bound ⟨next, asked.junctions, asked.world⟩ := by
  obtain ⟨like, _, -, hlike, -⟩ := Twin.inner h
  subst hreact
  exact ⟨hkeeps.length ▸ h.within, (hlike.react now poll hasked.stage).stage.left,
    hasked.junctions, .rfl⟩

theorem out {inner : List (Junction Stage)}
    (h : Plain known mode bound ⟨.closed inner stage, junctions, world⟩) :
    Plain known mode inner.length ⟨stage, inner, world⟩ := by
  obtain ⟨within, out, -, hout⟩ := Twin.out h
  exact hout.left

theorem upstream {place index : Nat} {junction : Junction Stage}
    (h : Plain known mode bound ⟨stage, junctions, world⟩) (hrefers : stage.Refers place index)
    (hjunction : junctions[place]? = some junction) :
    place < bound ∧ Plain known mode place ⟨junction.upstream, junctions, world⟩ := by
  obtain ⟨hplace, like, -, -, -, hupstream⟩ := Twin.upstream h hrefers hjunction
  exact ⟨hplace, hupstream.left⟩

/-- The world is no part of it. -/
theorem elsewhere (h : Plain known mode bound ⟨stage, junctions, world⟩) (later : World) :
    Plain known mode bound ⟨stage, junctions, later⟩ :=
  ⟨h.within, h.stage, h.junctions, .rfl⟩

theorem moved {next : Stage} {later : World} (hcloses : setting.registry.Closes known)
    (h : Plain known mode bound ⟨stage, junctions, world⟩)
    (hmoves : stage.Moves setting world next later) :
    Plain known mode bound ⟨next, junctions, later⟩ := by
  obtain ⟨base, -, hbase⟩ := h.stage.moves hcloses hmoves
  obtain ⟨twin, behind, -, hnext, -⟩ := hbase world .rfl
  exact ⟨h.within, hnext.left, h.junctions, .rfl⟩

end Plain

end Scene

section Closed

variable (hcloses : setting.registry.Closes known)

include hcloses

/-- What a stage refers to before it is asked bounds what it touches and what it refers to
afterwards. -/
theorem Scene.Gives.keeps {before after : Scene} {poll : Poll}
    (h : Gives setting before poll after) (hplain : before.Plain known mode bound) :
    after.Plain known mode bound ∧ before.Keeps bound after := by
  induction h generalizing bound with
  | ready hready =>
      obtain ⟨twin, -, hnext⟩ := hplain.stage.ready hready
      exact ⟨⟨hplain.within, hnext.left, hplain.junctions, .rfl⟩, .of_eq rfl⟩
  | dry => exact ⟨hplain, .of_eq rfl⟩
  | wait hwait =>
      obtain ⟨twin, -, hnext⟩ := hplain.stage.waits hwait
      exact ⟨⟨hplain.within, hnext.left, hplain.junctions, .rfl⟩, Keeps.of_eq rfl⟩
  | move hmove _ ih =>
      obtain ⟨hafter, hkeeps⟩ := ih (hplain.moved hcloses hmove)
      exact ⟨hafter, hkeeps.congr rfl rfl⟩
  | @stop hole _ _ _ _ _ _ _ _ hreact ih =>
      obtain ⟨hasked, hkeeps⟩ := ih hplain.inner
      have hnext := hplain.reacted hasked hkeeps (congrArg Reaction.stage hreact)
      exact ⟨hnext, (hkeeps.mono (hole.scope_le bound)).congr rfl rfl⟩
  | @go hole _ _ _ _ _ _ _ _ _ hreact _ ih ihrest =>
      obtain ⟨hasked, hkeeps⟩ := ih hplain.inner
      have hnext := hplain.reacted hasked hkeeps (congrArg Reaction.stage hreact)
      obtain ⟨hafter, hrest⟩ := ihrest hnext
      have hbefore := hkeeps.mono (hole.scope_le bound)
      exact ⟨hafter, (hbefore.trans (hrest.congr rfl rfl)).congr rfl rfl⟩
  | closed _ ih =>
      obtain ⟨hasked, hkeeps⟩ := ih hplain.out
      exact ⟨hasked.closed hkeeps.length hplain.within hplain.junctions, .of_eq rfl⟩
  | buffered hrefers hjunction =>
      obtain ⟨hplace, hupstream⟩ := hplain.upstream hrefers hjunction
      refine ⟨hplain.serve hplain.within hplain.stage rfl hupstream.stage _, ?_⟩
      exact ((Keeps.of_eq rfl).put hplace _).congr rfl rfl
  | shared hrefers hjunction _ _ _ ih =>
      obtain ⟨hplace, hupstream⟩ := hplain.upstream hrefers hjunction
      obtain ⟨hasked, hkeeps⟩ := ih hupstream
      refine ⟨hasked.settle (hkeeps.length ▸ hplain.within) hplain.stage rfl _, ?_⟩
      exact ((hkeeps.mono hplace.le).put hplace _).congr rfl rfl

/-- Whatever stands at a place that a stage cannot refer to, asking it comes to the same. -/
theorem Scene.Gives.frame {before after : Scene} {poll : Poll} (h : Gives setting before poll after)
    (hplain : before.Plain known mode bound) {place : Nat} (hplace : bound ≤ place)
    (junction : Junction Stage) :
    Gives setting (before.put place junction) poll (after.put place junction) := by
  induction h generalizing bound with
  | ready hready => exact .ready hready
  | dry hdry =>
      refine .dry ?_
      cases hdry with
      | once => exact .once
      | tally => exact .tally _ _
      | batches => exact .batches _ _
      | consumer hrefers hjunction hempty hended =>
          obtain ⟨-, hbound⟩ := hplain.stage.refers hrefers
          refine .consumer hrefers ?_ hempty hended
          rw [List.getElem?_set_ne (hbound.trans_le hplace).ne']
          exact hjunction
  | wait hwait hwake => exact .wait hwait hwake
  | move hmove _ ih => exact .move hmove (ih (hplain.moved hcloses hmove) hplace)
  | @stop hole _ _ _ _ _ _ _ _ hreact ih =>
      exact .stop (ih hplain.inner ((hole.scope_le bound).trans hplace)) hreact
  | @go hole _ _ _ _ _ _ _ _ hask hreact _ ih ihrest =>
      obtain ⟨hasked, hkeeps⟩ := hask.keeps hcloses hplain.inner
      have hnext := hplain.reacted hasked hkeeps (congrArg Reaction.stage hreact)
      exact .go (ih hplain.inner ((hole.scope_le bound).trans hplace)) hreact
        (ihrest hnext hplace)
  | closed hask => exact .closed hask
  | buffered hrefers hjunction hbuffer =>
      obtain ⟨-, hbound⟩ := hplain.stage.refers hrefers
      have hne := (hbound.trans_le hplace).ne
      rw [put, put, List.set_comm _ _ hne]
      exact .buffered hrefers ((List.getElem?_set_ne hne.symm).trans hjunction) hbuffer
  | shared hrefers hjunction hempty hdry _ ih =>
      obtain ⟨hbound, hupstream⟩ := hplain.upstream hrefers hjunction
      have hne := (hbound.trans_le hplace).ne
      rw [put, put, List.set_comm _ _ hne]
      exact .shared hrefers ((List.getElem?_set_ne hne.symm).trans hjunction) hempty hdry
        (ih hupstream (hbound.le.trans hplace))

end Closed

end Pipework
