import Pipework.Proofs.Loop.Invoking

/-! # What is at work has worked

A stage that has come to something has done its work first. So a loop over one record that comes to
anything has invoked its embedded module for that record, and the invocation has come to an end.
-/

namespace Pipework

variable {setting : Setting} {known : Pipe → Prop} {mode : Mode} {bound : Nat}

open Scene (Attains Awaits Gives Settles)

theorem Scene.Settles.gives (hcloses : setting.registry.Closes known) {before after : Scene}
    {poll : Poll} (h : Settles setting before poll after) (hplain : before.Plain known mode bound) :
    Gives setting before poll after := by
  obtain ⟨least, hcomes⟩ := h.poll
  exact Sound.poll hcloses least hplain (hcomes least (Nat.le_refl least))

/-- What the stage of a pipe attains it gives in the end. -/
theorem Scene.Attains.awaits (hcloses : setting.registry.Closes known) {before after : Scene}
    {poll : Poll} (h : Attains setting before poll after) (hplain : before.Plain known mode bound) :
    Awaits setting before poll after := by
  induction h with
  | ready h hready => exact .ready (h.gives hcloses hplain) hready
  | again h halarm _ ih =>
      have hgives := h.gives hcloses hplain
      obtain ⟨hwaiting, -⟩ := hgives.keeps hcloses hplain
      exact .again hgives halarm (ih (hwaiting.elsewhere _))

theorem Hole.ne_pending_of_go {now : DateTime} {hole : Hole} {poll : Poll} {inner next : Stage}
    (h : hole.react now poll inner = .go next) : poll ≠ .pending := by
  rintro rfl
  rw [react_pending] at h
  cases h

/-- A hole with a stage in it awaits what that stage comes to first. -/
theorem Scene.Awaits.of_fill {hole : Hole} {inner : Stage} {junctions : List (Junction Stage)}
    {world : World} {out : Poll} {after : Scene}
    (h : Awaits setting ⟨hole.fill inner, junctions, world⟩ out after) :
    ∃ poll asked, Awaits setting ⟨inner, junctions, world⟩ poll asked ∧
      ((∃ next, hole.react setting.now poll asked.stage = .stop out next) ∨
        ∃ next, hole.react setting.now poll asked.stage = .go next ∧
          Awaits setting ⟨next, asked.junctions, asked.world⟩ out after) := by
  generalize hscene : (⟨hole.fill inner, junctions, world⟩ : Scene) = before at h
  induction h generalizing inner junctions world with
  | ready h hready =>
      subst hscene
      obtain ⟨poll, asked, hask, ⟨next, hreact, -⟩ | ⟨next, hreact, hrest⟩⟩ := h.of_fill
      · refine ⟨poll, asked, .ready hask ?_, .inl ⟨next, hreact⟩⟩
        rintro rfl
        rw [Hole.react_pending] at hreact
        cases hreact
        exact hready rfl
      · exact ⟨poll, asked, .ready hask (Hole.ne_pending_of_go hreact),
          .inr ⟨next, hreact, .ready hrest hready⟩⟩
  | again h halarm hrest ih =>
      subst hscene
      obtain ⟨poll, asked, hask, ⟨next, hreact, rfl⟩ | ⟨next, hreact, hgoes⟩⟩ := h.of_fill
      · obtain rfl := Hole.react_ne_pending hreact
        rw [Hole.react_pending] at hreact
        cases hreact
        obtain ⟨poll, reached, hlater, hreacts⟩ := ih rfl
        exact ⟨poll, reached, .again hask halarm hlater, hreacts⟩
      · exact ⟨poll, asked, .ready hask (Hole.ne_pending_of_go hreact),
          .inr ⟨next, hreact, .again hgoes halarm hrest⟩⟩

/-- Collecting goes on from where an embedded module that has to wait is woken. -/
theorem Job.Works.again {rule : LoopRule} {item : Record} {stage source : Stage}
    {found : List Record} {junctions : List (Junction Stage)} {world : World}
    {asked reached : Scene} {time : Nat} {batch : Except PipeError (List Record)}
    (h : Settles setting ⟨stage, junctions, world⟩ .pending asked)
    (halarm : asked.world.alarm = some time)
    (hrest : Job.Works setting (.collect rule item asked.stage found)
      (Scene.wake ⟨source, asked.junctions, asked.world⟩ time) batch reached) :
    Job.Works setting (.collect rule item stage found) ⟨source, junctions, world⟩ batch reached := by
  cases hrest with
  | ended hattains => exact .ended (.again h halarm hattains)
  | failed hattains => exact .failed (.again h halarm hattains)
  | found hattains hgoes => exact .found (.again h halarm hattains) hgoes

/-- Work that has to wait goes on later, and comes to what it comes to then. -/
def Job.Lingers (setting : Setting) (task : Task) (source : Stage) (last : Bool) (job : Job Stage)
    (junctions : List (Junction Stage)) (world : World) (waiting : Scene) : Prop :=
  ∃ rest, waiting.stage = .batches task ⟨source, [], some rest, last⟩ ∧
    ∀ time batch reached, waiting.world.alarm = some time →
      Job.Works setting rest (Scene.wake ⟨source, waiting.junctions, waiting.world⟩ time) batch
          reached →
        Job.Works setting job ⟨source, junctions, world⟩ batch reached

/-- Whatever a stage at work comes to, its work is done or goes on later. The induction is on what
the stage does; only work on a record does anything there. -/
theorem Scene.Gives.works {task : Task} {source : Stage} {last : Bool} {job : Job Stage}
    {junctions : List (Junction Stage)} {world : World} {out : Poll} {after : Scene}
    (h : Gives setting ⟨.batches task ⟨source, [], some job, last⟩, junctions, world⟩ out after) :
    (∃ batch reached, Job.Works setting job ⟨source, junctions, world⟩ batch reached) ∨
      out = .pending ∧ job.Lingers setting task source last junctions world after := by
  generalize hscene :
    (⟨.batches task ⟨source, [], some job, last⟩, junctions, world⟩ : Scene) = before at h
  induction h generalizing job junctions world with
  | ready hready =>
      cases hscene
      cases hready
  | dry hdry =>
      cases hscene
      cases hdry with
      | consumer hrefers => cases hrefers
  | wait hwait hwake =>
      cases hscene
      cases hwait
      exact .inr ⟨rfl, _, rfl, fun time batch reached halarm hrest => .wait hwake halarm hrest⟩
  | move hmove _ ih =>
      cases hscene
      cases hmove with
      | load hfetch => exact .inl ⟨_, _, .load hfetch⟩
      | refuse hbuild => exact .inl ⟨_, _, .refuse hbuild⟩
      | enter hbuild =>
          obtain ⟨batch, reached, hworks⟩ | ⟨hout, rest, hrest, hlater⟩ := ih rfl
          · exact .inl ⟨batch, reached, .enter hbuild hworks⟩
          · exact .inr ⟨hout, rest, hrest, fun time batch reached halarm hworks =>
              .enter hbuild (hlater time batch reached halarm hworks)⟩
  | @stop hole inner _ _ _ asked poll _ hask hreact =>
      cases hole with
      | collect =>
          cases hscene
          rcases poll with _ | _ | (error | record)
          · cases hreact
            exact .inr ⟨rfl, _, rfl, fun time batch reached halarm hrest =>
              Job.Works.again hask.settles halarm hrest⟩
          · cases hreact
          · cases hreact
          · cases hreact
      | _ => cases hscene
  | @go hole inner _ _ _ asked _ poll _ hask hreact _ _ ih =>
      cases hole with
      | collect =>
          cases hscene
          rcases poll with _ | _ | (error | record)
          · cases hreact
          · exact .inl ⟨_, _, .ended (.ready hask.settles nofun)⟩
          · exact .inl ⟨_, _, .failed (.ready hask.settles nofun)⟩
          · cases hreact
            have hattains : Attains setting _ _ asked := .ready hask.settles nofun
            obtain ⟨batch, reached, hworks⟩ | ⟨hout, rest, hrest, hlater⟩ := ih rfl
            · exact .inl ⟨batch, reached, .found hattains hworks⟩
            · exact .inr ⟨hout, rest, hrest, fun time batch reached halarm hworks =>
                .found hattains (hlater time batch reached halarm hworks)⟩
      | _ => cases hscene
  | closed => cases hscene
  | buffered hrefers =>
      cases hscene
      cases hrefers
  | shared hrefers =>
      cases hscene
      cases hrefers

/-- In the end the work is done. -/
theorem Scene.Awaits.works {task : Task} {source : Stage} {last : Bool} {job : Job Stage}
    {junctions : List (Junction Stage)} {world : World} {out : Poll} {after : Scene}
    (h : Awaits setting ⟨.batches task ⟨source, [], some job, last⟩, junctions, world⟩ out after) :
    ∃ batch reached, Job.Works setting job ⟨source, junctions, world⟩ batch reached := by
  generalize hscene :
    (⟨.batches task ⟨source, [], some job, last⟩, junctions, world⟩ : Scene) = before at h
  induction h generalizing job junctions world with
  | ready h hready =>
      subst hscene
      obtain hworks | ⟨hout, -⟩ := h.works
      · exact hworks
      · exact absurd hout hready
  | @again _ waiting _ _ time h halarm _ ih =>
      subst hscene
      obtain hworks | ⟨-, rest, hrest, hlater⟩ := h.works
      · exact hworks
      · obtain ⟨batch, reached, hworks⟩ :=
          @ih rest waiting.junctions (waiting.wake time).world (by rw [← hrest]; rfl)
        exact ⟨batch, reached, hlater time batch reached halarm hworks⟩

/-- The stage of a loop over one record, as it is embedded in another loop. -/
def Stage.looping (id : ModuleId) (rule : LoopRule) (embed : Embed Factory) (mode : Mode)
    (item : Record) : Stage :=
  .tagged id 0 (.batches (.loop rule embed mode) (.start (.once (some item))))

/-- A loop over a record that comes to anything has invoked its embedded module for the record. -/
theorem Scene.Awaits.invokes {id : ModuleId} {rule : LoopRule} {embed : Embed Factory}
    {item : Record} {junctions : List (Junction Stage)} {world : World} {out : Poll} {after : Scene}
    (h : Awaits setting ⟨.looping id rule embed mode item, junctions, world⟩ out after) :
    ∃ outcome reached,
      embed.Invokes setting mode item ⟨.once none, junctions, world⟩ outcome reached := by
  obtain ⟨out, after, h, -⟩ := @of_fill _ (.tagged id 0) _ _ _ _ _ h
  obtain ⟨poll, asked, hask, hreacts⟩ := @of_fill _ (.input (.loop rule embed mode)) _ _ _ _ _ h
  obtain ⟨rfl, rfl⟩ := (Attains.of_awaits hask).deterministic (.once item)
  obtain ⟨next, hreact⟩ | ⟨next, hreact, hrest⟩ := hreacts
  · cases hreact
  · cases hreact
    obtain ⟨batch, reached, hworks⟩ := hrest.works
    exact hworks.invokes

end Pipework
