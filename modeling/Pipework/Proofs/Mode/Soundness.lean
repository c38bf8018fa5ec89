import Pipework.Proofs.Mode.Scope
import Pipework.Proofs.Stage.Settling

/-! # Within a budget

Whatever a budget lets the stage of a pipe come to, the stage gives. The three budgets are used up
one inside of the other: for how deep stages stand inside of stages, for how many records a stage
takes for itself, and for how many the work on one of them collects.
-/

namespace Pipework

variable {known : Pipe → Prop} {mode : Mode} {bound : Nat} {setting : Setting}

namespace Scene

variable {ask next : Stage → Flow (Poll × Stage)} {hole : Hole} {inner : Stage} {now : DateTime}
  {junctions : List (Junction Stage)} {world : World} {out : Poll} {after : Scene}

/-- All that a way of asking comes to for the stages of pipes is given. -/
def Sound (known : Pipe → Prop) (mode : Mode) (setting : Setting)
    (ask : Stage → Flow (Poll × Stage)) : Prop :=
  ∀ ⦃bound : Nat⦄ ⦃before : Scene⦄ ⦃poll : Poll⦄ ⦃after : Scene⦄,
    before.Plain known mode bound → Scene.Comes ask before poll after →
      Gives setting before poll after

section Closed

variable (hcloses : setting.registry.Closes known)

include hcloses

theorem Sound.react (hask : Sound known mode setting ask) (hnext : Sound known mode setting next)
    (hplain : Plain known mode bound ⟨hole.fill inner, junctions, world⟩)
    (h : Flow.Comes (ask inner >>= fun asked =>
        (hole.react setting.now asked.1 asked.2).proceed next) junctions world (out, after.stage)
        after.junctions after.world) :
    Gives setting ⟨hole.fill inner, junctions, world⟩ out after := by
  obtain ⟨poll, asked, hcomes, ⟨stage, hreact, rfl⟩ | ⟨stage, hreact, hrest⟩⟩ := comes_react.mp h
  · exact .stop (hask hplain.inner hcomes) hreact
  · have hgives := hask hplain.inner hcomes
    obtain ⟨hasked, hkeeps⟩ := hgives.keeps hcloses hplain.inner
    exact .go hgives hreact
      (hnext (hplain.reacted hasked hkeeps (congrArg Reaction.stage hreact)) hrest)

end Closed

theorem Sound.consumer {depth place index : Nat} {stage : Stage} {junction : Junction Stage}
    (hask : Sound known mode setting (Stage.poll setting depth))
    (hplain : Plain known mode bound ⟨stage, junctions, world⟩)
    (hrefers : stage.Refers place index) (hjunction : junctions[place]? = some junction)
    (h : Scene.Comes (Stage.poll setting (depth + 1)) ⟨stage, junctions, world⟩ out after) :
    Gives setting ⟨stage, junctions, world⟩ out after := by
  obtain ⟨last, later, behind⟩ := after
  obtain ⟨held, middle, hpoll, rfl, rfl⟩ := (Stage.comes_consumer hrefers hjunction).mp h
  cases hwaiting : junction.waitingFor index with
  | cons record rest =>
      rw [Junction.poll_buffered hwaiting] at hpoll
      obtain ⟨hout, rfl, rfl⟩ := Flow.comes_pure.mp hpoll
      obtain ⟨rfl, rfl⟩ := Prod.mk.inj hout
      exact .buffered hrefers hjunction hwaiting
  | nil =>
      cases hdry : junction.dry with
      | true =>
          rw [Junction.poll_dry hwaiting hdry] at hpoll
          obtain ⟨hout, rfl, rfl⟩ := Flow.comes_pure.mp hpoll
          obtain ⟨rfl, rfl⟩ := Prod.mk.inj hout
          obtain ⟨hplace, rfl⟩ := List.getElem?_eq_some_iff.mp hjunction
          rw [List.set_getElem_self]
          exact .dry (.consumer hrefers hjunction hwaiting hdry)
      | false =>
          rw [Junction.poll_shared hwaiting hdry, Flow.comes_bind] at hpoll
          obtain ⟨⟨poll, asked⟩, reached, between, hupstream, hpure⟩ := hpoll
          obtain ⟨hout, rfl, rfl⟩ := Flow.comes_pure.mp hpure
          obtain ⟨rfl, rfl⟩ := Prod.mk.inj hout
          exact .shared hrefers hjunction hwaiting hdry
            (@hask place ⟨junction.upstream, junctions, world⟩ poll ⟨asked, reached, between⟩
              (hplain.upstream hrefers hjunction).2 hupstream)

section Job

variable {depth count gathers first : Nat} {task : Task} {input : Stage} {last : Bool}
  {later : World}

variable (hcloses : setting.registry.Closes known)
  (hask : Sound known mode setting (Stage.poll setting depth))
  (hsteps : Sound known mode setting (Stage.pollSteps setting depth count gathers))

include hcloses hask

theorem Sound.collect
    (hless : ∀ less < first, Sound known mode setting
      (Stage.pollJob setting depth count gathers less))
    {rule : LoopRule} {item : Record} {found : List Record}
    (hplain : Plain known mode bound
      ⟨.batches task ⟨input, [], some (.collect rule item inner found), last⟩, junctions, world⟩)
    (h : Scene.Comes (Stage.pollJob setting depth count gathers first)
      ⟨.batches task ⟨input, [], some (.collect rule item inner found), last⟩, junctions, world⟩ out
      after) :
    Gives setting
      ⟨.batches task ⟨input, [], some (.collect rule item inner found), last⟩, junctions, world⟩ out
      after := by
  cases first with
  | zero =>
      obtain ⟨progress, middle, between, hgather, -⟩ := Flow.comes_bind.mp h
      exact absurd hgather Flow.not_comes_failure
  | succ first =>
      rw [Scene.Comes, Stage.pollJob_collect] at h
      change Gives setting ⟨(Hole.collect task input last rule item found).fill inner, _, _⟩ out after
      exact hask.react hcloses (hless first (Nat.lt_succ_self first)) hplain h

include hsteps

/-- The induction is on how many records of an embedded module may be collected. -/
theorem Sound.pollJob (first : Nat) :
    Sound known mode setting (Stage.pollJob setting depth count gathers first) := by
  induction first using Nat.strong_induction_on with
  | _ first ih =>
      intro bound before poll after hplain h
      obtain ⟨stage, junctions, world⟩ := before
      cases hplain.stage with
      | sentinel | constant | once | tagged | mapped | tally | branch | tap | closed =>
          exact hsteps hplain h
      | batches =>
          rw [Scene.Comes, Stage.pollJob_none] at h
          exact hsteps hplain h
      | collect => exact Sound.collect hcloses hask ih hplain h
      | @load _ _ _ _ _ waits =>
          simp only [Scene.Comes, Stage.pollJob, Flow.comes_bind] at h
          obtain ⟨progress, _, _, hwork, hrest⟩ := h
          cases waits with
          | true =>
              simp only [Job.work, Flow.comes_bind, Flow.comes_lift] at hwork
              obtain ⟨held, _, _, ⟨rfl, hget⟩, _, _, _, ⟨rfl, hwake⟩, hpure⟩ := hwork
              obtain ⟨rfl, rfl, rfl⟩ := Flow.comes_pure.mp hpure
              obtain ⟨hout, hlater, hbehind⟩ := Flow.comes_pure.mp hrest
              obtain ⟨last, later, behind⟩ := after
              cases hget
              cases hout
              cases hlater
              cases hbehind
              exact .wait (.load ..) hwake
          | false =>
              simp only [Job.work, Flow.comes_bind, Flow.comes_lift] at hwork
              obtain ⟨batch, _, _, ⟨rfl, hfetch⟩, hpure⟩ := hwork
              obtain ⟨rfl, rfl, rfl⟩ := Flow.comes_pure.mp hpure
              exact .move (.load hfetch) (hsteps (hplain.moved hcloses (.load hfetch)) hrest)
      | instantiate =>
          simp only [Scene.Comes, Stage.pollJob, Job.work, Flow.comes_bind, Flow.comes_lift] at h
          obtain ⟨progress, _, _, ⟨outcome, _, _, ⟨rfl, hbuild⟩, hnext⟩, hrest⟩ := h
          cases outcome with
          | error error =>
              obtain ⟨rfl, rfl, rfl⟩ := Flow.comes_pure.mp hnext
              exact .move (.refuse hbuild) (hsteps (hplain.moved hcloses (.refuse hbuild)) hrest)
          | ok stage =>
              refine .move (.enter hbuild) (Sound.collect hcloses hask ih
                (hplain.moved hcloses (.enter hbuild)) ?_)
              exact Flow.comes_bind.mpr ⟨progress, _, _, hnext, hrest⟩

end Job

section Steps

variable {depth gathers : Nat} (hcloses : setting.registry.Closes known)

include hcloses

omit hcloses in
theorem sound_failure : Sound known mode setting fun _ => failure :=
  fun _ _ _ _ _ h => absurd h Flow.not_comes_failure

omit hcloses in
/-- A stage that has to do nothing for it comes to what it is ready to give. -/
theorem comes_pure_iff {given : Stage} {poll : Poll} :
    Flow.Comes (pure (poll, given)) junctions world (out, after.stage) after.junctions after.world ↔
      out = poll ∧ after = ⟨given, junctions, world⟩ := by
  obtain ⟨last, later, behind⟩ := after
  rw [Flow.comes_pure]
  constructor
  · rintro ⟨hout, rfl, rfl⟩
    cases hout
    exact ⟨rfl, rfl⟩
  · rintro ⟨rfl, h⟩
    cases h
    exact ⟨rfl, rfl, rfl⟩

omit hcloses in
theorem not_comes_tally_zero {state : Tally Stage} : ¬ Scene.Comes
    (Stage.pollSteps setting depth 0 gathers) ⟨.tally state, junctions, world⟩ out after := by
  intro h
  obtain ⟨_, _, _, hfail, -⟩ := Flow.comes_bind.mp h
  exact Flow.not_comes_failure hfail

omit hcloses in
theorem not_comes_batches_zero {task : Task} {state : Batches Stage (Job Stage)} :
    ¬ Scene.Comes (Stage.pollSteps setting depth 0 gathers) ⟨.batches task state, junctions, world⟩
      out after := by
  intro h
  obtain ⟨_, _, _, hfail, -⟩ := Flow.comes_bind.mp h
  exact Flow.not_comes_failure hfail

/-- The induction is on how many records a stage may take for itself. -/
theorem Sound.pollSteps (hask : Sound known mode setting (Stage.poll setting depth)) (count : Nat) :
    Sound known mode setting (Stage.pollSteps setting depth count gathers) := by
  induction count using Nat.strong_induction_on with
  | _ count ih =>
      intro bound before out after hplain h
      obtain ⟨stage, junctions, world⟩ := before
      cases hplain.stage with
      | sentinel | constant =>
          obtain ⟨rfl, rfl⟩ := comes_pure_iff.mp h
          exact .ready rfl
      | once record? =>
          cases record? with
          | none =>
              obtain ⟨rfl, rfl⟩ := comes_pure_iff.mp h
              exact .dry .once
          | some record =>
              obtain ⟨rfl, rfl⟩ := comes_pure_iff.mp h
              exact .ready rfl
      | @tagged _ inner _ id index =>
          change Flow.Comes (Stage.poll setting (depth + 1) (.tagged id index inner)) junctions world
            (out, after.stage) after.junctions after.world at h
          -- A tag never asks twice, so that nothing need be known of how it would go on.
          rw [Stage.poll_tagged id index inner fun _ => failure] at h
          exact hask.react hcloses sound_failure hplain h
      | @mapped _ inner _ transform =>
          change Flow.Comes (Stage.poll setting (depth + 1) (.mapped transform inner)) junctions world
            (out, after.stage) after.junctions after.world at h
          rw [Stage.poll_mapped transform inner fun _ => failure] at h
          exact hask.react hcloses sound_failure hplain h
      | @tally _ inner _ tallied done =>
          cases count with
          | zero => exact absurd h not_comes_tally_zero
          | succ count =>
              cases done with
              | true =>
                  obtain ⟨rfl, rfl⟩ := comes_pure_iff.mp h
                  exact .dry (.tally inner tallied)
              | false =>
                  rw [Scene.Comes, Stage.pollSteps_tally] at h
                  change Gives setting ⟨(Hole.tally tallied).fill inner, _, _⟩ out after
                  exact hask.react hcloses (ih count (Nat.lt_succ_self count)) hplain h
      | @batches _ task _ inner _ queue last =>
          cases count with
          | zero => exact absurd h not_comes_batches_zero
          | succ count =>
              cases queue with
              | cons answer rest =>
                  obtain ⟨rfl, rfl⟩ := comes_pure_iff.mp h
                  exact .ready rfl
              | nil =>
                  cases last with
                  | true =>
                      obtain ⟨rfl, rfl⟩ := comes_pure_iff.mp h
                      exact .dry (.batches task inner)
                  | false =>
                      rw [Scene.Comes, Stage.pollSteps_input] at h
                      change Gives setting ⟨(Hole.input task).fill inner, _, _⟩ out after
                      exact hask.react hcloses (ih count (Nat.lt_succ_self count)) hplain h
      | load | instantiate | collect =>
          cases count with
          | zero => exact absurd h not_comes_batches_zero
          | succ count =>
              rw [Scene.Comes, Stage.pollSteps_some] at h
              exact Sound.pollJob hcloses hask (ih count (Nat.lt_succ_self count)) gathers hplain h
      | @branch _ place index hplace =>
          have hlength := hplace.trans_le hplain.within
          exact hask.consumer hplain (.branch place index) (List.getElem?_eq_getElem hlength) h
      | @tap _ place hplace =>
          have hlength := hplace.trans_le hplain.within
          exact hask.consumer hplain (.tap place) (List.getElem?_eq_getElem hlength) h
      | @closed _ inner _ stage =>
          simp only [Scene.Comes, Stage.pollSteps, Stage.poll, Flow.comes_bind, Flow.comes_lift] at h
          obtain ⟨⟨⟨poll, asked⟩, reached⟩, _, behind, ⟨rfl, hcomes⟩, hpure⟩ := h
          obtain ⟨rfl, rfl⟩ := comes_pure_iff.mp hpure
          exact .closed (@hask inner.length ⟨stage, inner, world⟩ out ⟨asked, reached, behind⟩
            hplain.out hcomes)

/-- The induction is on how deep stages may stand inside of stages. -/
theorem Sound.poll (depth : Nat) : Sound known mode setting (Stage.poll setting depth) := by
  induction depth with
  | zero => exact fun _ _ _ _ _ h => absurd h Flow.not_comes_failure
  | succ depth ih =>
      intro bound before out after hplain h
      rw [Scene.Comes, Stage.poll_succ] at h
      exact Sound.pollSteps hcloses ih depth hplain h

end Steps

end Scene

end Pipework
