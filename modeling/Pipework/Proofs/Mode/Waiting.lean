import Pipework.Proofs.Mode.Scope

/-! # Waiting as long as it takes

A stage that has to wait is woken at the time that it waits for and asked again, until it has an
answer or has ended. Whatever asks a stage that waits waits with it. So where a stage that never
waits gives something, its twin gives the same, after waiting as often as it has to.
-/

namespace Pipework

/-- The scene once the clock has reached a time. -/
def Scene.wake (scene : Scene) (time : Nat) : Scene :=
  { scene with world := { scene.world with clock := max scene.world.clock time, alarm := none } }

/-- What asking a stage comes to if it is asked until it does not have to wait. -/
inductive Scene.Awaits (setting : Setting) : Scene → Poll → Scene → Prop
  | ready {before after : Scene} {poll : Poll} (h : Gives setting before poll after)
      (hready : poll ≠ .pending) : Awaits setting before poll after
  | again {before waiting after : Scene} {poll : Poll} {time : Nat}
      (h : Gives setting before .pending waiting) (halarm : waiting.world.alarm = some time)
      (hrest : Awaits setting (waiting.wake time) poll after) : Awaits setting before poll after

variable {known : Pipe → Prop} {mode other : Mode} {bound : Nat} {setting : Setting}

namespace Scene.Awaits

variable {before after asked : Scene} {poll out : Poll} {hole : Hole} {stage next : Stage}
  {junctions : List (Junction Stage)} {world later : World}

theorem stop (h : Awaits setting before poll asked)
    (hreact : hole.react setting.now poll asked.stage = .stop out next) :
    Awaits setting ⟨hole.fill before.stage, before.junctions, before.world⟩ out
      ⟨next, asked.junctions, asked.world⟩ := by
  induction h with
  | ready h hready =>
      refine .ready (.stop h hreact) ?_
      rintro rfl
      exact hready (Hole.react_ne_pending hreact)
  | again h halarm _ ih => exact .again (.stop h (Hole.react_pending ..)) halarm (ih hreact)

theorem go (h : Awaits setting before poll asked)
    (hreact : hole.react setting.now poll asked.stage = .go next)
    (hrest : Awaits setting ⟨next, asked.junctions, asked.world⟩ out after) :
    Awaits setting ⟨hole.fill before.stage, before.junctions, before.world⟩ out after := by
  induction h with
  | ready h _ =>
      cases hrest with
      | ready hlast hready => exact .ready (.go h hreact hlast) hready
      | again hnext halarm hrest => exact .again (.go h hreact hnext) halarm hrest
  | again h halarm _ ih => exact .again (.stop h (Hole.react_pending ..)) halarm (ih hreact hrest)

theorem closed (h : Awaits setting before poll after) :
    Awaits setting ⟨.closed before.junctions before.stage, junctions, before.world⟩ poll
      ⟨.closed after.junctions after.stage, junctions, after.world⟩ := by
  induction h with
  | ready h hready => exact .ready (.closed h) hready
  | again h halarm _ ih => exact .again (.closed h) halarm ih

theorem move (hmoves : stage.Moves setting world next later)
    (h : Awaits setting ⟨next, junctions, later⟩ poll after) :
    Awaits setting ⟨stage, junctions, world⟩ poll after := by
  cases h with
  | ready h hready => exact .ready (.move hmoves h) hready
  | again h halarm hrest => exact .again (.move hmoves h) halarm hrest

/-- Work that waits asks to be woken at once and then goes on. -/
theorem wait (hwaits : stage.Waits next) (junctions : List (Junction Stage)) (world : World) :
    ∃ woken, world.Alike woken ∧ ∀ poll after,
      Awaits setting ⟨next, junctions, woken⟩ poll after →
        Awaits setting ⟨stage, junctions, world⟩ poll after := by
  have hgives : Gives setting ⟨stage, junctions, world⟩ .pending ⟨next, junctions, _⟩ :=
    .wait hwaits rfl
  refine ⟨_, ?_, fun poll after h => .again hgives rfl h⟩
  exact ⟨rfl, rfl, rfl⟩

/-- The consumer of a junction waits with its upstream. Meanwhile nothing changes of the junction
but the upstream and who asks to be woken. -/
theorem shared (hcloses : setting.registry.Closes known) (h : Awaits setting before poll after)
    {place index : Nat} (hplain : before.Plain known mode place)
    (hplace : place < before.junctions.length) (hrefers : stage.Refers place index)
    {junction : Junction Stage} (hupstream : junction.upstream = before.stage)
    (hempty : junction.waitingFor index = []) (hdry : junction.dry = false) :
    ∃ held : Junction Stage, held.outline = junction.outline ∧
      Awaits setting ⟨stage, before.junctions.set place junction, before.world⟩ poll
        ⟨stage, after.junctions.set place (held.settle index after.stage poll), after.world⟩ := by
  induction h generalizing junction with
  | ready h hready =>
      have hask := h.frame hcloses hplain (Nat.le_refl place) junction
      rw [put, ← hupstream] at hask
      have hgives := hask.shared hrefers (List.getElem?_set_self hplace) hempty hdry
      rw [put, List.set_set] at hgives
      exact ⟨junction, rfl, .ready hgives hready⟩
  | @again _ waiting _ _ _ h halarm _ ih =>
      obtain ⟨hwaiting, hkeeps⟩ := h.keeps hcloses hplain
      have hask := h.frame hcloses hplain (Nat.le_refl place) junction
      rw [put, ← hupstream] at hask
      have hgives := hask.shared hrefers (List.getElem?_set_self hplace) hempty hdry
      rw [put, List.set_set] at hgives
      have houtline := Junction.outline_settle_pending junction index waiting.stage
      obtain ⟨held, hheld, hrest⟩ := ih
        ⟨hwaiting.within, hwaiting.stage, hwaiting.junctions, .rfl⟩ (hkeeps.length ▸ hplace)
        (Junction.upstream_settle ..) (Junction.waitingFor_eq houtline index ▸ hempty)
        (Junction.dry_eq houtline ▸ hdry)
      exact ⟨held, hheld.trans houtline, .again hgives halarm hrest⟩

end Scene.Awaits

/-- A stage that never waits gives nothing that its twin does not give in the end. -/
theorem Scene.Gives.awaits (hcloses : setting.registry.Closes known) {before after twin : Scene}
    {poll : Poll} (h : Gives setting before poll after)
    (htwin : before.Twin known .sync other bound twin) :
    poll ≠ .pending ∧ ∃ behind, Awaits setting twin poll behind ∧
      after.Twin known .sync other bound behind := by
  induction h generalizing bound twin with
  | ready hready =>
      obtain ⟨stage, hstage, hnext⟩ := htwin.stage.ready hready
      exact ⟨nofun, _, .ready (.ready hstage) nofun,
        htwin.within, hnext, htwin.junctions, htwin.world⟩
  | dry hdry =>
      exact ⟨nofun, _, .ready (.dry (htwin.stage.dry htwin.junctions hdry)) nofun, htwin⟩
  | wait hwaits => exact absurd hwaits htwin.stage.symm.sync_not_waits
  | move hmoves _ ih =>
      obtain ⟨stage, junctions, world⟩ := twin
      obtain ⟨base, hbase, hfollows⟩ := htwin.stage.moves hcloses hmoves
      rcases hbase with rfl | hwaits
      · obtain ⟨next, later, hnext, hstage, hlater⟩ := hfollows world htwin.world
        obtain ⟨hready, behind, hbehind, hafter⟩ :=
          @ih bound ⟨next, junctions, later⟩ ⟨htwin.within, hstage, htwin.junctions, hlater⟩
        exact ⟨hready, behind, .move hnext hbehind, hafter⟩
      -- The twin waits first; nothing but the clock and the alarm has changed when it is woken.
      · obtain ⟨woken, hwoken, hwait⟩ := Awaits.wait hwaits junctions world
        obtain ⟨next, later, hnext, hstage, hlater⟩ :=
          hfollows woken (htwin.world.trans hwoken)
        obtain ⟨hready, behind, hbehind, hafter⟩ :=
          @ih bound ⟨next, junctions, later⟩ ⟨htwin.within, hstage, htwin.junctions, hlater⟩
        exact ⟨hready, behind, hwait _ _ (.move hnext hbehind), hafter⟩
  | stop hask hreact ih =>
      obtain ⟨stage, junctions, world⟩ := twin
      obtain ⟨like, inner, rfl, hlike, hinner⟩ := htwin.inner
      obtain ⟨hready, asked, hasked, hsame⟩ := ih hinner
      obtain ⟨-, hkeeps⟩ := hask.keeps hcloses hinner.left
      obtain ⟨next, hnext, hafter⟩ :=
        hsame.react_stop hlike (hkeeps.length ▸ htwin.within) hreact
      refine ⟨?_, _, .stop hasked hnext, hafter⟩
      rintro rfl
      exact hready (Hole.react_ne_pending hreact)
  | go hask hreact _ ih ihrest =>
      obtain ⟨stage, junctions, world⟩ := twin
      obtain ⟨like, inner, rfl, hlike, hinner⟩ := htwin.inner
      obtain ⟨-, asked, hasked, hsame⟩ := ih hinner
      obtain ⟨-, hkeeps⟩ := hask.keeps hcloses hinner.left
      obtain ⟨next, hnext, hrest⟩ := hsame.react_go hlike (hkeeps.length ▸ htwin.within) hreact
      obtain ⟨hready, behind, hbehind, hafter⟩ := ihrest hrest
      exact ⟨hready, behind, .go hasked hnext hbehind, hafter⟩
  | closed hask ih =>
      obtain ⟨stage, junctions, world⟩ := twin
      obtain ⟨within, out, rfl, hout⟩ := htwin.out
      obtain ⟨hready, asked, hasked, hsame⟩ := ih hout
      obtain ⟨-, hkeeps⟩ := hask.keeps hcloses hout.left
      exact ⟨hready, _, .closed hasked,
        hsame.closed hkeeps.length htwin.within htwin.junctions⟩
  | buffered hrefers hjunction hbuffer =>
      obtain ⟨stage, junctions, world⟩ := twin
      obtain ⟨-, like, rfl, hlike, houtline, hupstream⟩ := htwin.upstream hrefers hjunction
      rw [Junction.waitingFor_eq houtline] at hbuffer
      exact ⟨nofun, _, .ready (.buffered hrefers hlike hbuffer) nofun,
        htwin.serve htwin.within htwin.stage houtline hupstream.stage _⟩
  | shared hrefers hjunction hempty hdry hask ih =>
      obtain ⟨stage, junctions, world⟩ := twin
      obtain ⟨-, like, rfl, hlike, houtline, hupstream⟩ := htwin.upstream hrefers hjunction
      obtain ⟨hready, asked, hasked, hsame⟩ := ih hupstream
      obtain ⟨-, hkeeps⟩ := hask.keeps hcloses hupstream.left
      obtain ⟨hplace, hat⟩ := List.getElem?_eq_some_iff.mp hlike
      obtain ⟨held, hheld, hawaits⟩ := hasked.shared hcloses hupstream.symm.left hplace hrefers rfl
        (Junction.waitingFor_eq houtline _ ▸ hempty) (Junction.dry_eq houtline ▸ hdry)
      subst hat
      rw [List.set_getElem_self] at hawaits
      exact ⟨hready, _, hawaits, hsame.settle (hkeeps.length ▸ htwin.within) htwin.stage
        (houtline.trans hheld.symm) _⟩

end Pipework
