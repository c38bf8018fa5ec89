import Pipework.Proofs.Mode.Waiting

/-! # Waiting loses nothing

Where a stage gives something at once, its twin that never waits gives the same. Where it has to
wait, it leaves the twin of a stage from which the one that never waits goes on to whatever it comes
to.
-/

namespace Pipework

variable {known : Pipe → Prop} {mode : Mode} {bound : Nat} {setting : Setting}

/-- What one scene comes to, the other comes to as well, and it keeps its junctions. -/
structure Scene.Resumes (setting : Setting) (bound : Nat) (before behind : Scene) : Prop where
  keeps : before.Keeps bound behind
  gives : ∀ poll after, Gives setting behind poll after → Gives setting before poll after

namespace Scene.Resumes

variable {before behind : Scene} {stage : Stage} {junctions : List (Junction Stage)}

/-- A stage with a hole goes on from what it asks. -/
theorem fill {hole : Hole} (h : before.Resumes setting (hole.scope bound) behind) :
    Resumes setting bound ⟨hole.fill before.stage, before.junctions, before.world⟩
      ⟨hole.fill behind.stage, behind.junctions, behind.world⟩ where
  keeps := (h.keeps.mono (hole.scope_le bound)).congr rfl rfl
  gives poll after hgives := by
    obtain ⟨given, asked, hask, ⟨next, hreact, rfl⟩ | ⟨next, hreact, hrest⟩⟩ := hgives.of_fill
    · exact .stop (h.gives given asked hask) hreact
    · exact .go (h.gives given asked hask) hreact hrest

theorem closed {size : Nat} (h : before.Resumes setting size behind) :
    Resumes setting bound ⟨.closed before.junctions before.stage, junctions, before.world⟩
      ⟨.closed behind.junctions behind.stage, junctions, behind.world⟩ where
  keeps := .of_eq rfl
  gives poll after hgives := by
    obtain ⟨asked, hask, rfl⟩ := hgives.of_closed
    exact .closed (h.gives poll asked hask)

/-- A consumer goes on from what the upstream of its junction goes on from. -/
theorem shared (hcloses : setting.registry.Closes known) {place index : Nat}
    {junction : Junction Stage} (hrefers : stage.Refers place index)
    (hjunction : junctions[place]? = some junction) (hempty : junction.waitingFor index = [])
    (hdry : junction.dry = false) {world : World} (hplace : place < bound)
    (h : Resumes setting place ⟨junction.upstream, junctions, world⟩ behind)
    (hplain : behind.Plain known mode place) :
    Resumes setting bound ⟨stage, junctions, world⟩
      ⟨stage, behind.junctions.set place (junction.renew behind.stage), behind.world⟩ where
  keeps := ((h.keeps.mono hplace.le).put hplace _).congr rfl rfl
  gives poll after hgives := by
    have hheld : behind.junctions[place]? = some junction :=
      (h.keeps.beyond place (Nat.le_refl place)).trans hjunction
    obtain ⟨hlength, hat⟩ := List.getElem?_eq_some_iff.mp hheld
    have houtline := Junction.outline_renew junction behind.stage
    obtain ⟨asked, hask, rfl⟩ := hgives.of_refers hrefers (List.getElem?_set_self hlength)
      (Junction.waitingFor_eq houtline index ▸ hempty) (Junction.dry_eq houtline ▸ hdry)
    rw [Junction.upstream_renew] at hask
    have hplainPut : Plain known mode place
        ⟨behind.stage, behind.junctions.set place (junction.renew behind.stage), behind.world⟩ := by
      refine hplain.set hplain.within hplain.stage rfl ?_
      rw [Junction.upstream_renew]
      exact hplain.stage
    have hframe := hask.frame hcloses hplainPut (Nat.le_refl place) junction
    rw [put, List.set_set, ← hat, List.set_getElem_self, hat] at hframe
    have hgiven := (h.gives _ _ hframe).shared hrefers hjunction hempty hdry
    rw [put, List.set_set] at hgiven
    rw [Junction.settle_renew]
    exact hgiven

theorem move {next : Stage} {world later : World} (hmoves : stage.Moves setting world next later)
    (h : Resumes setting bound ⟨next, junctions, later⟩ behind) :
    Resumes setting bound ⟨stage, junctions, world⟩ behind where
  keeps := h.keeps.congr rfl rfl
  gives poll after hgives := .move hmoves (h.gives poll after hgives)

theorem go {hole : Hole} {asked : Scene} {poll : Poll} {next : Stage}
    (hask : Gives setting before poll asked) (hkeeps : before.Keeps (hole.scope bound) asked)
    (hreact : hole.react setting.now poll asked.stage = .go next)
    (h : Resumes setting bound ⟨next, asked.junctions, asked.world⟩ behind) :
    Resumes setting bound ⟨hole.fill before.stage, before.junctions, before.world⟩ behind where
  keeps := by
    have hbefore := hkeeps.mono (hole.scope_le bound)
    exact (hbefore.trans (h.keeps.congr rfl rfl)).congr rfl rfl
  gives out after hgives := .go hask hreact (h.gives out after hgives)

end Scene.Resumes

/-- What a stage gives at once its twin gives that never waits; after waiting it is the twin of what
that one goes on from. -/
theorem Scene.Gives.resumes (hcloses : setting.registry.Closes known) {before after twin : Scene}
    {poll : Poll} (h : Gives setting before poll after)
    (htwin : before.Twin known mode .sync bound twin) :
    (poll ≠ .pending → ∃ behind, Gives setting twin poll behind ∧
      after.Twin known mode .sync bound behind) ∧
    (poll = .pending → ∃ behind, twin.Resumes setting bound behind ∧
      after.Twin known mode .sync bound behind) := by
  induction h generalizing bound twin with
  | ready hready =>
      obtain ⟨stage, hstage, hnext⟩ := htwin.stage.ready hready
      exact ⟨fun _ => ⟨_, .ready hstage, htwin.within, hnext, htwin.junctions, htwin.world⟩, nofun⟩
  | dry hdry =>
      exact ⟨fun _ => ⟨_, .dry (htwin.stage.dry htwin.junctions hdry), htwin⟩, nofun⟩
  | wait hwaits hwake =>
      -- The twin has nothing to wait for: it resumes from where it stands.
      refine ⟨fun hready => absurd rfl hready, fun _ => ⟨twin, ⟨.of_eq rfl, fun _ _ h => h⟩, ?_⟩⟩
      obtain ⟨base, rfl | htwinWaits, hnext⟩ := htwin.stage.waits hwaits
      · cases hwake
        exact ⟨htwin.within, hnext, htwin.junctions, htwin.world.lines, htwin.world.questions,
          htwin.world.reads⟩
      · exact absurd htwinWaits htwin.stage.sync_not_waits
  | move hmoves _ ih =>
      obtain ⟨stage, junctions, world⟩ := twin
      obtain ⟨base, rfl | htwinWaits, hfollows⟩ := htwin.stage.moves hcloses hmoves
      · obtain ⟨next, later, hnext, hstage, hlater⟩ := hfollows world htwin.world
        obtain ⟨hgives, hresumes⟩ :=
          @ih bound ⟨next, junctions, later⟩ ⟨htwin.within, hstage, htwin.junctions, hlater⟩
        refine ⟨fun hready => ?_, fun hpending => ?_⟩
        · obtain ⟨behind, hbehind, hafter⟩ := hgives hready
          exact ⟨behind, .move hnext hbehind, hafter⟩
        · obtain ⟨behind, hbehind, hafter⟩ := hresumes hpending
          exact ⟨behind, hbehind.move hnext, hafter⟩
      · exact absurd htwinWaits htwin.stage.sync_not_waits
  | @stop hole _ _ _ _ _ poll _ hask hreact ih =>
      obtain ⟨stage, junctions, world⟩ := twin
      obtain ⟨like, inner, rfl, hlike, hinner⟩ := htwin.inner
      obtain ⟨-, hkeeps⟩ := hask.keeps hcloses hinner.left
      obtain ⟨hgives, hresumes⟩ := ih hinner
      -- Whether the whole stage waits is decided by what it asks.
      by_cases hpoll : poll = .pending
      · subst hpoll
        rw [Hole.react_pending] at hreact
        cases hreact
        obtain ⟨behind, hbehind, hsame⟩ := hresumes rfl
        rw [hlike.scope_eq] at hbehind
        refine ⟨fun hready => absurd rfl hready, fun _ => ⟨_, hbehind.fill, ?_⟩⟩
        exact ⟨hkeeps.length ▸ htwin.within, hlike.fill hsame.stage, hsame.junctions, hsame.world⟩
      · obtain ⟨behind, hbehind, hsame⟩ := hgives hpoll
        obtain ⟨next, hnext, hafter⟩ :=
          hsame.react_stop hlike (hkeeps.length ▸ htwin.within) hreact
        refine ⟨fun _ => ⟨_, .stop hbehind hnext, hafter⟩, ?_⟩
        rintro rfl
        exact absurd (Hole.react_ne_pending hreact) hpoll
  | @go hole _ _ _ _ _ _ poll _ hask hreact _ ih ihrest =>
      obtain ⟨stage, junctions, world⟩ := twin
      obtain ⟨like, inner, rfl, hlike, hinner⟩ := htwin.inner
      obtain ⟨-, hkeeps⟩ := hask.keeps hcloses hinner.left
      have hpoll : poll ≠ .pending := by
        rintro rfl
        rw [Hole.react_pending] at hreact
        cases hreact
      obtain ⟨asked, hasked, hsame⟩ := (ih hinner).1 hpoll
      obtain ⟨-, htwinKeeps⟩ := hasked.keeps hcloses hinner.symm.left
      obtain ⟨next, hnext, hrest⟩ := hsame.react_go hlike (hkeeps.length ▸ htwin.within) hreact
      obtain ⟨hgives, hresumes⟩ := ihrest hrest
      refine ⟨fun hready => ?_, fun hpending => ?_⟩
      · obtain ⟨behind, hbehind, hafter⟩ := hgives hready
        exact ⟨behind, .go hasked hnext hbehind, hafter⟩
      · obtain ⟨behind, hbehind, hafter⟩ := hresumes hpending
        rw [hlike.scope_eq] at htwinKeeps
        exact ⟨behind, .go hasked htwinKeeps hnext hbehind, hafter⟩
  | closed hask ih =>
      obtain ⟨stage, junctions, world⟩ := twin
      obtain ⟨within, out, rfl, hout⟩ := htwin.out
      obtain ⟨-, hkeeps⟩ := hask.keeps hcloses hout.left
      obtain ⟨hgives, hresumes⟩ := ih hout
      refine ⟨fun hready => ?_, fun hpending => ?_⟩
      · obtain ⟨behind, hbehind, hsame⟩ := hgives hready
        exact ⟨_, .closed hbehind, hsame.closed hkeeps.length htwin.within htwin.junctions⟩
      · obtain ⟨behind, hbehind, hsame⟩ := hresumes hpending
        exact ⟨_, hbehind.closed, hsame.closed hkeeps.length htwin.within htwin.junctions⟩
  | buffered hrefers hjunction hbuffer =>
      obtain ⟨stage, junctions, world⟩ := twin
      obtain ⟨-, like, rfl, hlike, houtline, hupstream⟩ := htwin.upstream hrefers hjunction
      rw [Junction.waitingFor_eq houtline] at hbuffer
      exact ⟨fun _ => ⟨_, .buffered hrefers hlike hbuffer,
        htwin.serve htwin.within htwin.stage houtline hupstream.stage _⟩, nofun⟩
  | shared hrefers hjunction hempty hdry hask ih =>
      obtain ⟨stage, junctions, world⟩ := twin
      obtain ⟨hplace, like, rfl, hlike, houtline, hupstream⟩ := htwin.upstream hrefers hjunction
      obtain ⟨-, hkeeps⟩ := hask.keeps hcloses hupstream.left
      rw [Junction.waitingFor_eq houtline] at hempty
      rw [Junction.dry_eq houtline] at hdry
      obtain ⟨hgives, hresumes⟩ := ih hupstream
      refine ⟨fun hready => ?_, fun hpending => ?_⟩
      · obtain ⟨behind, hbehind, hsame⟩ := hgives hready
        exact ⟨_, .shared hrefers hlike hempty hdry hbehind,
          hsame.settle (hkeeps.length ▸ htwin.within) htwin.stage houtline _⟩
      · subst hpending
        obtain ⟨behind, hbehind, hsame⟩ := hresumes rfl
        -- the twin's junction is not asked: it only gets the upstream that the answer comes from
        refine ⟨_, .shared hcloses hrefers hlike hempty hdry hplace hbehind hsame.symm.left,
          hsame.set (hkeeps.length ▸ htwin.within) htwin.stage ?_ ?_⟩
        · rw [Junction.outline_settle_pending, Junction.outline_renew]
          exact houtline
        · rw [Junction.upstream_settle, Junction.upstream_renew]
          exact hsame.stage

/-- What a stage gives in the end, its twin gives that never waits. -/
theorem Scene.Awaits.gives (hcloses : setting.registry.Closes known) {before after twin : Scene}
    {poll : Poll} (h : Awaits setting before poll after)
    (htwin : before.Twin known mode .sync bound twin) :
    ∃ behind, Gives setting twin poll behind ∧ after.Twin known mode .sync bound behind := by
  induction h generalizing twin with
  | ready h hready => exact (h.resumes hcloses htwin).1 hready
  | again h _ _ ih =>
      obtain ⟨behind, hresumes, hwaiting⟩ := (h.resumes hcloses htwin).2 rfl
      obtain ⟨last, hlast, hafter⟩ := ih ⟨hwaiting.within, hwaiting.stage, hwaiting.junctions,
        hwaiting.world.lines, hwaiting.world.questions, hwaiting.world.reads⟩
      exact ⟨last, hresumes.gives _ _ hlast, hafter⟩

end Pipework
