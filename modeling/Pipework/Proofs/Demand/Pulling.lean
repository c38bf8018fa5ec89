import Pipework.Proofs.Demand.Route
import Pipework.Proofs.Stage.Awaiting

/-! # Pulls in a row

What pulling at a run that never waits comes to, and what that asks of the stage at the beginning of
the way that the answers take: each pull asks it once, up to the first end.
-/

namespace Pipework

open Pipework.Flow (Comes)

variable {setting : Setting} {world later : World} {poll : Poll}

namespace Passage

/-- The answers that have taken a way, from a position on. -/
def alterFrom (now : DateTime) (passages : List Passage) (start : Nat)
    (given : List (Option Answer)) : List (Option Answer) :=
  given.mapIdx fun index answer? => answer?.map (alterAll now passages (start + index))

theorem alterFrom_cons (now : DateTime) (passages : List Passage) (start : Nat)
    (answer? : Option Answer) (given : List (Option Answer)) :
    alterFrom now passages start (answer? :: given) =
      answer?.map (alterAll now passages start) :: alterFrom now passages (start + 1) given := by
  simp only [alterFrom, List.mapIdx_cons, Nat.add_zero, Nat.add_right_comm, Nat.add_assoc]

end Passage

namespace Stage

/-- What asking a stage so many times in a row comes to. It is not asked any more once it has
ended. -/
inductive Pulls (setting : Setting) :
    Nat → Stage → World → List (Option Answer) → Stage → World → Prop
  | enough {stage : Stage} {world : World} : Pulls setting 0 stage world [] stage world
  | ended {count : Nat} {stage next : Stage} {world later : World}
      (h : stage.Asks setting world.fresh .ended next later) :
      Pulls setting (count + 1) stage world [none] next later
  | answer {count : Nat} {stage middle next : Stage} {world between later : World}
      {answer : Answer} {answers : List (Option Answer)}
      (h : stage.Asks setting world.fresh (.answer answer) middle between)
      (hrest : Pulls setting count middle between answers next later) :
      Pulls setting (count + 1) stage world (some answer :: answers) next later

/-- Without an end there are as many answers as pulls. -/
theorem Pulls.length_eq {count : Nat} {stage next : Stage} {answers : List (Option Answer)}
    (h : stage.Pulls setting count world answers next later) (hnone : none ∉ answers) :
    answers.length = count := by
  induction h with
  | enough => rfl
  | ended => exact absurd (by simp) hnone
  | answer _ _ ih => exact congrArg (· + 1) (ih fun hmem => hnone (List.mem_cons_of_mem _ hmem))

/-- A prompt stage answers or ends, and stays prompt. -/
theorem Prompt.asks {stage next : Stage} (h : stage.Prompt false 0)
    (hasks : stage.Asks setting world poll next later) :
    poll ≠ .pending ∧ next.Prompt false 0 := by
  obtain ⟨budget, hrun⟩ := hasks
  obtain ⟨⟨⟨given, reached⟩, junctions⟩, _, hpoll, hpure⟩ := run_bind_eq_some_iff.mp hrun
  cases hpure
  have hcomes : Comes (Stage.poll setting budget stage) ([] ++ []) world (poll, next) junctions
      later := hpoll
  exact ((poll_confined setting budget h).inward rfl .nil hcomes).1

/-- Asking a stage with junctions of its own is to ask what stands in their scope. -/
theorem asks_closed_iff {junctions : List (Junction Stage)} {out next : Stage} :
    (closed junctions out).Asks setting world poll next later ↔
      ∃ budget reached left, Comes (Stage.poll setting budget out) junctions world (poll, reached)
        left later ∧ next = .closed left reached := by
  constructor
  · rintro ⟨budget, hrun⟩
    obtain ⟨⟨⟨given, after⟩, outer⟩, _, hpoll, hpure⟩ := run_bind_eq_some_iff.mp hrun
    cases hpure
    cases budget with
    | zero => cases hpoll
    | succ budget =>
        have hcomes : Comes (Stage.poll setting (budget + 1) (.closed junctions out)) [] world
            (poll, next) outer later := hpoll
        rw [Stage.poll] at hcomes
        obtain ⟨⟨⟨given, reached⟩, left⟩, _, between, hask, hpure⟩ := Flow.comes_bind.mp hcomes
        obtain ⟨hout, -, rfl⟩ := Flow.comes_pure.mp hpure
        cases hout
        exact ⟨budget, reached, left, (Flow.comes_lift.mp hask).2, rfl⟩
  · rintro ⟨budget, reached, left, hask, rfl⟩
    refine ⟨budget + 1, run_bind_eq_some_iff.mpr
      ⟨((poll, .closed left reached), []), later, ?_, rfl⟩⟩
    have hcomes : Comes (Stage.poll setting (budget + 1) (.closed junctions out)) [] world
        (poll, .closed left reached) [] later := by
      rw [Stage.poll]
      exact Flow.comes_bind.mpr ⟨((poll, reached), left), [], later,
        Flow.comes_lift.mpr ⟨rfl, hask⟩, Flow.comes_pure.mpr ⟨rfl, rfl, rfl⟩⟩
    exact hcomes

/-- A stage of its own draws on another one: that one never waits and stands within it, in the scope
of the first of its junctions, and the answers take the way from there. So many have taken it so
far. -/
inductive DrawsOn (count : Nat) (passages : List Passage) : Stage → Stage → Prop
  | closed {junctions below : List (Junction Stage)} {out own : Stage}
      (hbelow : Junction.Prompts false below) (hown : own.Prompt false below.length)
      (hleads : Leads count below own passages junctions out) :
      DrawsOn count passages (.closed junctions out) (.closed below own)

namespace DrawsOn

variable {count times : Nat} {passages : List Passage} {stage source : Stage}

/-- Each time the stage is asked it asks the one that it draws on, once. -/
theorem asks_inward {next : Stage} (h : stage.DrawsOn count passages source)
    (hasks : stage.Asks setting world poll next later) :
    ∃ given rest, source.Asks setting world given rest later ∧
      poll = given.mapAnswer (Passage.alterAll setting.now passages count) ∧
      ∀ answer, given = .answer answer → next.DrawsOn (count + 1) passages rest := by
  cases h with
  | @closed junctions below out own hbelow hown hleads =>
      obtain ⟨budget, reached, left, hask, rfl⟩ := asks_closed_iff.mp hasks
      have hscope : Comes (Stage.poll setting budget out) (junctions ++ []) world (poll, reached)
          left later := (List.append_nil junctions).symm ▸ hask
      obtain ⟨less, given, rest, under, front, hasked, hpoll, rfl, -, hlater⟩ :=
        hleads.inward hbelow hown hscope
      refine ⟨given, .closed under rest, asks_closed_iff.mpr ⟨less, rest, under, hasked, rfl⟩,
        hpoll, ?_⟩
      intro answer hanswer
      obtain ⟨⟨-, hrest⟩, middle, hsize, hkept, hunder, -⟩ :=
        (poll_confined setting less hown).inward rfl hbelow
          ((List.append_nil below).symm ▸ hasked)
      rw [List.append_nil] at hunder
      subst hunder
      rw [List.append_nil]
      exact .closed hkept (hsize.symm ▸ hrest) (hlater answer hanswer)

/-- Whatever asking the stage that it draws on comes to, asking the stage comes to what becomes of
that. -/
theorem asks_outward {given : Poll} {rest : Stage} (h : stage.DrawsOn count passages source)
    (hasks : source.Asks setting world given rest later) :
    ∃ next, stage.Asks setting world
      (given.mapAnswer (Passage.alterAll setting.now passages count)) next later := by
  cases h with
  | @closed junctions below out own hbelow hown hleads =>
      obtain ⟨less, reached, under, hasked, rfl⟩ := asks_closed_iff.mp hasks
      obtain ⟨budget, next, left, hask⟩ := hleads.outward hbelow hown hasked []
      rw [List.append_nil] at hask
      exact ⟨.closed left next, asks_closed_iff.mpr ⟨budget, next, left, hask, rfl⟩⟩

/-- Pulls in a row are as many pulls in a row at the stage that it draws on, and as long as there is
no end the stage draws on what is left of that one. -/
theorem pulls_inward {answers : List (Option Answer)} {next : Stage}
    (h : stage.DrawsOn count passages source)
    (hpulls : stage.Pulls setting times world answers next later) :
    ∃ given rest, source.Pulls setting times world given rest later ∧
      answers = Passage.alterFrom setting.now passages count given ∧
      (none ∉ given → next.DrawsOn (count + given.length) passages rest) := by
  induction hpulls generalizing count source with
  | enough => exact ⟨[], source, .enough, rfl, fun _ => h⟩
  | ended hasks =>
      obtain ⟨given, rest, hasked, hpoll, -⟩ := h.asks_inward hasks
      cases given with
      | ended => exact ⟨[none], rest, .ended hasked, rfl, fun hnone => absurd (by simp) hnone⟩
      | _ => cases hpoll
  | answer hasks _ ih =>
      obtain ⟨given, rest, hasked, hpoll, hdraws⟩ := h.asks_inward hasks
      cases given with
      | answer answer =>
          cases hpoll
          obtain ⟨more, last, hpulls, rfl, hlater⟩ := ih (hdraws answer rfl)
          refine ⟨some answer :: more, last, .answer hasked hpulls,
            by rw [Passage.alterFrom_cons]; rfl, ?_⟩
          intro hnone
          rw [List.length_cons, Nat.add_comm more.length, ← Nat.add_assoc]
          exact hlater fun hmem => hnone (List.mem_cons_of_mem _ hmem)
      | _ => cases hpoll

/-- Pulls in a row at the stage that it draws on are possible as pulls in a row at the stage. -/
theorem pulls_outward {given : List (Option Answer)} {rest : Stage}
    (h : stage.DrawsOn count passages source)
    (hpulls : source.Pulls setting times world given rest later) :
    ∃ next, stage.Pulls setting times world
      (Passage.alterFrom setting.now passages count given) next later := by
  induction hpulls generalizing count stage with
  | enough => exact ⟨stage, .enough⟩
  | ended hasks =>
      obtain ⟨next, hasked⟩ := h.asks_outward hasks
      exact ⟨next, .ended hasked⟩
  | answer hasks _ ih =>
      obtain ⟨next, hasked⟩ := h.asks_outward hasks
      obtain ⟨given, left, hgiven, hpoll, hdraws⟩ := h.asks_inward hasked
      obtain ⟨rfl, rfl, -⟩ := hgiven.deterministic hasks
      obtain ⟨last, hlast⟩ := ih (hdraws _ rfl)
      rw [Passage.alterFrom_cons]
      exact ⟨last, .answer hasked hlast⟩

end DrawsOn

end Stage

namespace PipeRun

variable {run next : PipeRun} {count : Nat} {answers : List (Option Answer)}

/-- A run that never waits: its time is not limited, and its end is not remembered. -/
structure IsPrompt (run : PipeRun) : Prop where
  limit_eq : run.limit = none
  fused_eq : run.fused = false
  finished_eq : run.finished = false
  stage : run.stage.Prompt false 0

theorem next_inward {budget : Nat} {answer? : Option Answer} (hrun : run.IsPrompt)
    (h : (run.next setting budget).run world = some ((answer?, next), later)) :
    next.IsPrompt ∧ match answer? with
      | none => run.stage.Asks setting world.fresh .ended next.stage later
      | some answer => run.stage.Asks setting world.fresh (.answer answer) next.stage later := by
  obtain ⟨awaited, stage, hawait, heq⟩ := (run_next hrun.finished_eq).mp h
  rw [hrun.limit_eq, Option.map_none] at hawait
  cases budget with
  | zero => cases hawait
  | succ budget =>
      obtain ⟨poll, reached, middle, hask, hsettled⟩ := run_await_succ.mp hawait
      have hasks : run.stage.Asks setting world.fresh poll reached middle := ⟨_, hask⟩
      obtain ⟨hready, hstage⟩ := hrun.stage.asks hasks
      cases poll with
      | pending => exact absurd rfl hready
      | ended =>
          obtain ⟨rfl, rfl, rfl⟩ := hsettled
          cases heq
          exact ⟨⟨hrun.limit_eq, hrun.fused_eq, hrun.fused_eq, hstage⟩, hasks⟩
      | answer answer =>
          obtain ⟨rfl, rfl, rfl⟩ := hsettled
          cases heq
          exact ⟨⟨hrun.limit_eq, hrun.fused_eq, hrun.finished_eq, hstage⟩, hasks⟩

/-- Pulling at a run that never waits is to pull at its stage. -/
theorem pull_inward {budget : Nat} (hrun : run.IsPrompt)
    (h : (run.pull setting budget count).run world = some ((answers, next), later)) :
    run.stage.Pulls setting count world answers next.stage later := by
  induction count generalizing run world answers with
  | zero =>
      cases h
      exact .enough
  | succ count ih =>
      obtain ⟨⟨answer?, middle⟩, between, hnext, h⟩ := run_bind_eq_some_iff.mp h
      obtain ⟨hmiddle, hasks⟩ := next_inward hrun hnext
      cases answer? with
      | none =>
          cases h
          exact .ended hasks
      | some answer =>
          obtain ⟨⟨more, last⟩, _, hpull, hpure⟩ := run_bind_eq_some_iff.mp h
          cases hpure
          exact .answer hasks (ih hmiddle hpull)

theorem pull_outward {stage : Stage} (hrun : run.IsPrompt)
    (h : run.stage.Pulls setting count world answers stage later) :
    ∃ next least, next.stage = stage ∧ ∀ budget, least ≤ budget →
      (run.pull setting budget count).run world = some ((answers, next), later) := by
  generalize hstage : run.stage = start at h
  induction h generalizing run with
  | enough => exact ⟨run, 0, hstage, fun _ _ => rfl⟩
  | @ended _ _ last _ _ hasks =>
      subst hstage
      obtain ⟨least, hnext⟩ := next_of_awaits hrun.finished_eq hrun.limit_eq (.ready hasks nofun)
      refine ⟨(run.settle last .ended).2, least, settle_stage .., fun budget hbudget => ?_⟩
      exact run_bind_eq_some_iff.mpr ⟨_, _, hnext budget hbudget, rfl⟩
  | answer hasks _ ih =>
      subst hstage
      obtain ⟨least, hnext⟩ := next_of_awaits hrun.finished_eq hrun.limit_eq (.ready hasks nofun)
      have hmiddle := (next_inward hrun (hnext least le_rfl)).1
      obtain ⟨last, more, hlast, hpull⟩ := ih hmiddle rfl
      refine ⟨last, max least more, hlast, fun budget hbudget => ?_⟩
      refine run_bind_eq_some_iff.mpr ⟨_, _, hnext budget (le_of_max_le_left hbudget), ?_⟩
      exact run_bind_eq_some_iff.mpr ⟨_, _, hpull budget (le_of_max_le_right hbudget), rfl⟩

end PipeRun

end Pipework
