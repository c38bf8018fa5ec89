import Pipework.Proofs.Demand.Building
import Pipework.Proofs.Stage.Budget

/-! # Asking prompt stages

A prompt stage answers or ends whenever it is asked, and stays prompt. It concerns the junctions
before its bound only: whatever there is behind them makes no difference to it and is left as it
was. Fixtures are covered too, so this is shown for the computation within a budget.
-/

namespace Pipework

namespace Flow

variable {α β : Type} {bound : Nat}

/-- In prompt junctions a computation comes to what it would come to without those from a bound on,
leaves these as they are and the others prompt, and its result is as the predicate says. -/
structure Confined (bound : Nat) (post : α → Prop) (computation : Flow α) : Prop where
  inward : ∀ {front back later : List (Junction Stage)} {world after : World} {value : α},
    front.length = bound → Junction.Prompts false front →
    Comes computation (front ++ back) world value later after →
      post value ∧ ∃ middle, middle.length = bound ∧ Junction.Prompts false middle ∧
        later = middle ++ back ∧ Comes computation front world value middle after
  outward : ∀ {front back middle : List (Junction Stage)} {world after : World} {value : α},
    front.length = bound → Junction.Prompts false front →
    Comes computation front world value middle after →
      Comes computation (front ++ back) world value (middle ++ back) after

namespace Confined

variable {mid : α → Prop} {post : β → Prop}

theorem pure {value : α} (h : mid value) : Confined bound mid (Pure.pure value) where
  inward := by
    intro front back later world after result hfront hprompts hcomes
    obtain ⟨rfl, rfl, rfl⟩ := comes_pure.mp hcomes
    exact ⟨h, front, hfront, hprompts, rfl, comes_pure.mpr ⟨rfl, rfl, rfl⟩⟩
  outward := by
    intro front back middle world after result _ _ hcomes
    obtain ⟨rfl, rfl, rfl⟩ := comes_pure.mp hcomes
    exact comes_pure.mpr ⟨rfl, rfl, rfl⟩

theorem failure : Confined bound mid (Alternative.failure : Flow α) where
  inward _ _ hcomes := absurd hcomes not_comes_failure
  outward _ _ hcomes := absurd hcomes not_comes_failure

theorem bind {first : Flow α} {next : α → Flow β} (h : Confined bound mid first)
    (hnext : ∀ value, mid value → Confined bound post (next value)) :
    Confined bound post (first >>= next) where
  inward := by
    intro front back later world after result hfront hprompts hcomes
    obtain ⟨value, reached, between, hfirst, hrest⟩ := comes_bind.mp hcomes
    obtain ⟨hmid, middle, hmiddle, hkept, rfl, hown⟩ := h.inward hfront hprompts hfirst
    obtain ⟨hpost, last, hlast, hleft, rfl, hend⟩ := (hnext value hmid).inward hmiddle hkept hrest
    exact ⟨hpost, last, hlast, hleft, rfl, comes_bind.mpr ⟨value, middle, between, hown, hend⟩⟩
  outward := by
    intro front back last world after result hfront hprompts hcomes
    obtain ⟨value, middle, between, hfirst, hrest⟩ := comes_bind.mp hcomes
    have hwider := List.append_nil front ▸ hfirst
    obtain ⟨hmid, _, hmiddle, hkept, heq, -⟩ := h.inward hfront hprompts hwider
    rw [List.append_nil] at heq
    subst heq
    exact comes_bind.mpr ⟨value, _, between, h.outward hfront hprompts hfirst,
      (hnext value hmid).outward hmiddle hkept hrest⟩

/-- What is done with the world does not concern the junctions. -/
theorem lift {computation : Run α}
    (h : ∀ world value later, computation.run world = some (value, later) → mid value) :
    Confined bound mid (liftM computation) where
  inward := by
    intro front back later world after result hfront hprompts hcomes
    obtain ⟨rfl, hrun⟩ := comes_lift.mp hcomes
    exact ⟨h _ _ _ hrun, front, hfront, hprompts, rfl, comes_lift.mpr ⟨rfl, hrun⟩⟩
  outward := by
    intro front back middle world after result _ _ hcomes
    obtain ⟨rfl, hrun⟩ := comes_lift.mp hcomes
    exact comes_lift.mpr ⟨rfl, hrun⟩

/-- What concerns the first junctions only concerns no more than the junctions before a later
bound. -/
theorem mono {narrow : Nat} {computation : Flow α} (h : Confined narrow mid computation)
    (hle : narrow ≤ bound) : Confined bound mid computation := by
  have hinward : ∀ {front back later : List (Junction Stage)} {world after : World} {value : α},
      front.length = bound → Junction.Prompts false front →
      Comes computation (front ++ back) world value later after →
        mid value ∧ ∃ middle, middle.length = narrow ∧ Junction.Prompts false middle ∧
          later = middle ++ (front.drop narrow ++ back) ∧
          Comes computation (front.take narrow) world value middle after := by
    intro front back later world after value hfront hprompts hcomes
    have hsize : (front.take narrow).length = narrow :=
      List.length_take_of_le (hfront.symm ▸ hle)
    rw [← List.take_append_drop narrow front, List.append_assoc] at hcomes
    exact h.inward hsize (hprompts.take narrow) hcomes
  have houtward : ∀ {front middle : List (Junction Stage)} {world after : World} {value : α}
      (back : List (Junction Stage)), front.length = bound → Junction.Prompts false front →
      Comes computation (front.take narrow) world value middle after →
        Comes computation (front ++ back) world value (middle ++ (front.drop narrow ++ back))
          after := by
    intro front middle world after value back hfront hprompts hcomes
    have hsize : (front.take narrow).length = narrow :=
      List.length_take_of_le (hfront.symm ▸ hle)
    have hwider : Comes computation (front.take narrow ++ (front.drop narrow ++ back)) world value
        (middle ++ (front.drop narrow ++ back)) after :=
      h.outward hsize (hprompts.take narrow) hcomes
    rwa [← List.append_assoc, List.take_append_drop] at hwider
  constructor
  case inward =>
    intro front back later world after value hfront hprompts hcomes
    obtain ⟨hmid, middle, hmiddle, hkept, rfl, hown⟩ := hinward hfront hprompts hcomes
    refine ⟨hmid, middle ++ front.drop narrow, ?_, ?_, by rw [List.append_assoc], ?_⟩
    · rw [List.length_append, List.length_drop, hmiddle, hfront]
      exact Nat.add_sub_cancel' hle
    · exact hmiddle ▸ hkept.of_take_drop hprompts
    · simpa using houtward [] hfront hprompts hown
  case outward =>
    intro front back middle world after value hfront hprompts hcomes
    have hwider := List.append_nil front ▸ hcomes
    obtain ⟨-, own, -, -, rfl, hown⟩ := hinward hfront hprompts hwider
    rw [List.append_nil, List.append_assoc]
    exact houtward back hfront hprompts hown

end Confined

end Flow

open Pipework.Flow (Confined)

/-- Asking has come to an answer or the end, and has left a prompt stage. -/
def Stage.Responds (bound : Nat) (out : Poll × Stage) : Prop :=
  out.1 ≠ .pending ∧ out.2.Prompt false bound

/-- Asking a prompt stage concerns no junctions from its bound on, and comes to something at
once. -/
def Stage.Prompting (ask : Stage → Flow (Poll × Stage)) : Prop :=
  ∀ {bound : Nat} {stage : Stage}, stage.Prompt false bound →
    Confined bound (Stage.Responds bound) (ask stage)

variable {setting : Setting} {ask : Stage → Flow (Poll × Stage)} (hask : Stage.Prompting ask)
  {bound : Nat}

include hask

namespace Junction

theorem poll_confined {junction : Junction Stage} {place : Nat} (index : Nat)
    (hupstream : junction.upstream.Prompt false place) :
    Confined place (fun out => out.1 ≠ .pending ∧ out.2.upstream.Prompt false place)
      (junction.poll ask index) := by
  cases hbuffer : junction.waitingFor index with
  | cons record rest =>
      rw [poll_buffered hbuffer]
      exact .pure ⟨nofun, (upstream_serve junction index rest).symm ▸ hupstream⟩
  | nil =>
      cases hdry : junction.dry with
      | true =>
          rw [poll_dry hbuffer hdry]
          exact .pure ⟨nofun, hupstream⟩
      | false =>
          rw [poll_shared hbuffer hdry]
          refine (hask hupstream).bind fun asked hasked => .pure ⟨hasked.1, ?_⟩
          rw [upstream_settle]
          exact hasked.2

end Junction

namespace Stage

theorem pollBranch_confined {place : Nat} (index : Nat) (hplace : place < bound) :
    Confined bound (fun poll => poll ≠ .pending) (pollBranch ask place index) := by
  have hjunction : ∀ {front : List (Junction Stage)}, front.length = bound →
      Junction.Prompts false front → ∃ junction, front[place]? = some junction ∧
        (∀ back, (front ++ back)[place]? = some junction) ∧
        Confined bound (fun out => out.1 ≠ .pending ∧ out.2.upstream.Prompt false place)
          (junction.poll ask index) := by
    intro front hfront hprompts
    have hfound := List.getElem?_eq_getElem (hfront.symm ▸ hplace : place < front.length)
    refine ⟨_, hfound, fun back => ?_,
      (Junction.poll_confined hask index (hprompts place _ hfound)).mono hplace.le⟩
    exact (List.getElem?_append_left (hfront.symm ▸ hplace)).trans hfound
  constructor
  case inward =>
    intro front back later world after poll hfront hprompts hcomes
    obtain ⟨junction, hfound, hwider, hconfined⟩ := hjunction hfront hprompts
    obtain ⟨held, reached, hpoll, rfl⟩ := (comes_pollBranch (hwider back)).mp hcomes
    obtain ⟨⟨hready, hupstream⟩, middle, hmiddle, hkept, rfl, hown⟩ :=
      hconfined.inward hfront hprompts hpoll
    refine ⟨hready, middle.set place held, List.length_set.trans hmiddle, hkept.set hupstream, ?_,
      (comes_pollBranch hfound).mpr ⟨held, middle, hown, rfl⟩⟩
    exact List.set_append_left _ _ (hmiddle.symm ▸ hplace)
  case outward =>
    intro front back later world after poll hfront hprompts hcomes
    obtain ⟨junction, hfound, hwider, hconfined⟩ := hjunction hfront hprompts
    obtain ⟨held, middle, hpoll, rfl⟩ := (comes_pollBranch hfound).mp hcomes
    have hsame := List.append_nil front ▸ hpoll
    obtain ⟨-, _, hmiddle, -, heq, -⟩ := hconfined.inward hfront hprompts hsame
    rw [List.append_nil] at heq
    subst heq
    refine (comes_pollBranch (hwider back)).mpr
      ⟨held, _, hconfined.outward hfront hprompts hpoll, ?_⟩
    exact (List.set_append_left _ _ (hmiddle.symm ▸ hplace)).symm

end Stage

namespace Tally

theorem poll_confined (budget : Nat) {state : Tally Stage} (h : state.input.Prompt false bound) :
    Confined bound (fun out => out.1 ≠ .pending ∧ out.2.input.Prompt false bound)
      (state.poll ask failure budget) := by
  induction budget generalizing state with
  | zero => exact .failure
  | succ budget ih =>
      rw [poll]
      split
      · exact .pure ⟨by simp, h⟩
      · refine (hask h).bind ?_
        rintro ⟨poll, input⟩ ⟨hready, hinput⟩
        rcases poll with _ | _ | (error | item)
        · exact absurd rfl hready
        · exact .pure ⟨by simp [finish], hinput⟩
        · exact .pure ⟨by simp [finish], hinput⟩
        · dsimp only
          split
          · exact .pure ⟨by simp [finish], hinput⟩
          · exact ih hinput

end Tally

namespace Job

/-- The job never waits, and neither does the stage that it collects from. -/
def Prompt (job : Job Stage) : Prop :=
  job.IsPrompt ∧ ∀ rule item stage found, job = .collect rule item stage found →
    stage.Prompt false 0

theorem gather_confined (rule : LoopRule) (item : Record) (budget : Nat) {stage : Stage}
    (found : List Record) (h : stage.Prompt false 0) :
    Confined bound (fun progress => ∃ batch, progress = .finished batch)
      (gather ask rule item budget stage found) := by
  induction budget generalizing stage found with
  | zero => exact .failure
  | succ budget ih =>
      rw [gather]
      refine ((hask h).mono (Nat.zero_le bound)).bind ?_
      rintro ⟨poll, stage⟩ ⟨hready, hstage⟩
      rcases poll with _ | _ | (error | record)
      · exact absurd rfl hready
      · exact .pure ⟨_, rfl⟩
      · exact .pure ⟨_, rfl⟩
      · exact ih _ hstage

theorem work_confined (budget : Nat) {job : Job Stage} (h : job.Prompt) :
    Confined bound (fun progress => ∃ batch, progress = .finished batch)
      (work setting ask budget job) := by
  obtain ⟨hjob, hcollect⟩ := h
  cases job with
  | load conf item waits =>
      obtain rfl : waits = false := hjob
      have hfetch : Confined bound (fun _ => True) (Job.fetch setting conf item : Flow _) :=
        .lift fun _ _ _ _ => trivial
      exact hfetch.bind fun batch _ => .pure ⟨batch, rfl⟩
  | instantiate rule embed mode item =>
      obtain rfl : mode = .sync := hjob
      have hbuild : Confined bound (fun outcome => ∀ stage, outcome = .ok stage →
          stage.Prompt false 0) (embed.instantiate setting .sync item : Flow _) := by
        refine .lift ?_
        rintro world _ later hrun stage rfl
        exact (Embed.prompt_of_instantiate hrun).aged
      refine hbuild.bind fun outcome houtcome => ?_
      cases outcome with
      | error error => exact .pure ⟨_, rfl⟩
      | ok stage => exact gather_confined hask rule item budget [] (houtcome stage rfl)
  | collect rule item stage found =>
      exact gather_confined hask rule item budget found (hcollect rule item stage found rfl)

end Job

namespace Batches

/-- The input and the job under way never wait. -/
def Prompt (bound : Nat) (state : Batches Stage (Job Stage)) : Prop :=
  state.input.Prompt false bound ∧ ∀ job, state.job = some job → job.Prompt

omit hask in
theorem prompt_begin {task : Task} (htask : task.IsPrompt) (item : Record) :
    (task.begin item : Job Stage).Prompt := by
  cases task with
  | fetch conf mode =>
      obtain rfl : mode = .sync := htask
      exact ⟨rfl, nofun⟩
  | loop rule embed mode => exact ⟨htask, nofun⟩

theorem poll_confined {task : Task} (htask : task.IsPrompt) (gathers budget : Nat)
    {state : Batches Stage (Job Stage)} (h : state.Prompt bound) :
    Confined bound (fun out => out.1 ≠ .pending ∧ out.2.Prompt bound)
      (state.poll ask (fun item => task.begin item) (Job.work setting ask gathers) failure
        budget) := by
  induction budget generalizing state with
  | zero => exact .failure
  | succ budget ih =>
      obtain ⟨hinput, hjob⟩ := h
      rw [poll]
      split
      · exact .pure ⟨by simp, hinput, hjob⟩
      next job _ hsome =>
        refine (Job.work_confined hask gathers (hjob job hsome)).bind ?_
        rintro _ ⟨batch, rfl⟩
        exact ih ⟨hinput, by simp⟩
      · split
        · exact .pure ⟨by simp, hinput, hjob⟩
        · refine (hask hinput).bind ?_
          rintro ⟨poll, input⟩ ⟨hready, hasked⟩
          rcases poll with _ | _ | (error | record)
          · exact absurd rfl hready
          · exact .pure ⟨by simp, hasked, hjob⟩
          · exact .pure ⟨by simp, hasked, hjob⟩
          · refine ih ⟨hasked, ?_⟩
            rintro _ ⟨⟩
            exact prompt_begin htask record

end Batches

namespace Pairing

/-- The input of a side never waits. -/
def Side.Prompt (bound : Nat) (side : Side Stage) : Prop :=
  ∀ input, side.input = some input → input.Prompt false bound

/-- Once a side has been filled, it holds an answer or has ended. -/
theorem Side.fill_confined {side : Side Stage} (hfresh : side.fresh = side)
    (h : side.Prompt bound) :
    Confined bound (fun filled => (filled.held.isSome = true ∨ filled.ended = true) ∧
      filled.Prompt bound) (side.fill ask) := by
  rw [← hfresh] at h ⊢
  unfold fill
  split
  next hdone => simp [fresh, start] at hdone
  · split
    · exact .pure ⟨.inr rfl, h⟩
    next input hinput =>
      refine (hask (h input hinput)).bind ?_
      rintro ⟨poll, asked⟩ ⟨hready, hasked⟩
      have hkept : ∀ other, some asked = some other → other.Prompt false bound := by
        rintro _ ⟨⟩
        exact hasked
      cases poll with
      | pending => exact absurd rfl hready
      | ended => exact .pure ⟨.inr rfl, hkept⟩
      | answer answer => exact .pure ⟨.inl rfl, hkept⟩

omit hask in
/-- Without waiting there is a pair or an end, and nothing is kept of the sides. -/
theorem settle_sync {pairing : Pairing Stage} (hmode : pairing.mode = .sync)
    (h : pairing.main.ended = true ∨ pairing.main.held.isSome = true ∧
      (pairing.other.held.isSome = true ∨ pairing.other.ended = true)) :
    pairing.settle.1 ≠ .pending ∧ pairing.settle.2 =
      { pairing with main := pairing.main.fresh, other := pairing.other.fresh } := by
  have houtcome : pairing.outcome ≠ .pending := by
    unfold outcome
    split
    · nofun
    next hnone =>
      have hended : (pairing.main.ended || pairing.other.ended) = true := by
        rcases h with hended | ⟨hmain, hother | hended⟩
        · rw [hended, Bool.true_or]
        · obtain ⟨first, hfirst⟩ := Option.isSome_iff_exists.mp hmain
          obtain ⟨second, hsecond⟩ := Option.isSome_iff_exists.mp hother
          exact absurd hsecond (hnone first second hfirst)
        · rw [hended, Bool.or_true]
      rw [hended, if_pos rfl]
      nofun
  have hkeeps : pairing.keeps pairing.outcome = false := by
    cases hpoll : pairing.outcome with
    | pending => exact absurd hpoll houtcome
    | ended => simp [keeps, hmode]
    | answer answer => rfl
  unfold settle
  dsimp only
  rw [if_neg (ne_true_of_eq_false hkeeps)]
  exact ⟨houtcome, rfl⟩

theorem poll_confined {pairing : Pairing Stage} (hmode : pairing.mode = .sync)
    (hmain : pairing.main.fresh = pairing.main) (hother : pairing.other.fresh = pairing.other)
    (h : pairing.main.Prompt bound) (hpartner : pairing.other.Prompt bound) :
    Confined bound (fun out => out.1 ≠ .pending ∧
      (Stage.pairing out.2).Prompt false bound) (pairing.poll ask) := by
  unfold poll
  refine (Side.fill_confined hask hmain h).bind ?_
  rintro main ⟨hfilled, hinput⟩
  split
  · refine (Side.fill_confined hask hother hpartner).bind ?_
    rintro other ⟨hdone, hotherInput⟩
    have hsettled := @settle_sync { pairing with main, other } hmode
      (hfilled.symm.imp_right fun hheld => ⟨hheld, hdone⟩)
    refine .pure ⟨hsettled.1, ?_⟩
    rw [hsettled.2]
    exact .pairing hmode rfl rfl hinput hotherInput
  next hheld =>
    have hended : main.ended = true :=
      hfilled.resolve_left fun hsome => hheld (.inr hsome)
    have hsettled := @settle_sync { pairing with main } hmode (.inl hended)
    refine .pure ⟨hsettled.1, ?_⟩
    rw [hsettled.2]
    exact .pairing hmode rfl rfl hinput hpartner

end Pairing

namespace Sampling

/-- The inputs that have not ended never wait. -/
def Prompt (bound : Nat) (inputs : List (String × Option Stage)) : Prop :=
  ∀ name input, (name, some input) ∈ inputs → input.Prompt false bound

omit hask in
theorem prompt_keep {inputs : List (String × Option Stage)} {name : String}
    {input : Option Stage} (h : Prompt bound inputs)
    (hinput : ∀ stage, input = some stage → stage.Prompt false bound) :
    Prompt bound (keep inputs name input) := by
  intro other stage hmem
  obtain ⟨entry, hentry, heq⟩ := List.mem_map.mp hmem
  split at heq
  · exact hinput stage (Prod.mk.inj heq).2
  · subst heq
    exact h other stage hentry

theorem poll_confined {state : Sampling Stage} (h : Prompt bound state.inputs) :
    Confined bound (fun out => out.1 ≠ .pending ∧ Prompt bound out.2.inputs)
      (state.poll ask) := by
  unfold poll
  split
  · exact .pure ⟨nofun, h⟩
  next entry rest _ =>
    dsimp only
    split
    · refine .pure ⟨nofun, fun name input hmem => ?_⟩
      exact h name input (List.mem_filter.mp hmem).1
    · split
      · exact .pure ⟨nofun, h⟩
      · exact .pure ⟨nofun, h⟩
      next input hlookup =>
        have hinput : input.Prompt false bound := by
          obtain ⟨before, after, heq, -⟩ := List.lookup_eq_some_iff.mp hlookup
          exact h entry input (by rw [heq]; simp)
        refine (hask hinput).bind ?_
        rintro ⟨poll, asked⟩ ⟨hready, hasked⟩
        have hkept : ∀ stage, some asked = some stage → stage.Prompt false bound := by
          rintro _ ⟨⟩
          exact hasked
        rcases poll with _ | _ | (error | record)
        · exact absurd rfl hready
        · exact .pure ⟨nofun, prompt_keep h nofun⟩
        · exact .pure ⟨nofun, prompt_keep h hkept⟩
        · exact .pure ⟨nofun, prompt_keep h hkept⟩

end Sampling

omit hask

namespace Stage

/-- A script of answers gives the next one at once. -/
theorem pollScript_confined {script : Script}
    (hanswers : ∀ entry ∈ script.entries, entry.isAnswer = true) :
    Confined bound (fun out => out.1 ≠ .pending ∧ ∀ entry ∈ out.2.entries, entry.isAnswer = true)
      (pollScript script : Flow (Poll × Script)) := by
  refine .lift fun world out later hrun => ?_
  obtain ⟨entries, until?⟩ := script
  cases entries with
  | nil =>
      cases hrun
      exact ⟨nofun, nofun⟩
  | cons entry rest =>
      obtain ⟨hentry, hrest⟩ := List.forall_mem_cons.mp hanswers
      cases entry with
      | answer answer =>
          cases hrun
          exact ⟨nofun, hrest⟩
      | _ => cases hentry

/-- Within every budget a prompt stage responds, or nothing comes of asking it. -/
theorem poll_confined (setting : Setting) (budget : Nat) : Prompting (poll setting budget) := by
  induction budget with
  | zero => exact fun _ => .failure
  | succ budget ih =>
      intro bound stage h
      cases h with
      | sentinel => exact .pure ⟨nofun, .sentinel⟩
      | constant record => exact .pure ⟨nofun, .constant record⟩
      | @once _ record? hfresh =>
          cases record? with
          | none => exact .pure ⟨nofun, .once nofun⟩
          | some record => exact .pure ⟨nofun, .once nofun⟩
      | scripted hanswers =>
          refine (pollScript_confined hanswers).bind ?_
          rintro ⟨poll, script⟩ ⟨hready, hleft⟩
          exact .pure ⟨hready, .scripted hleft⟩
      | tagged id _ hinner =>
          refine (ih hinner).bind ?_
          rintro ⟨poll, inner⟩ ⟨hready, hleft⟩
          cases poll with
          | pending => exact absurd rfl hready
          | ended => exact .pure ⟨nofun, .tagged id nofun hleft⟩
          | answer answer => exact .pure ⟨nofun, .tagged id nofun hleft⟩
      | mapped transform hinner =>
          refine (ih hinner).bind ?_
          rintro ⟨poll, inner⟩ ⟨hready, hleft⟩
          refine .pure ⟨?_, .mapped transform hleft⟩
          cases poll with
          | pending => exact absurd rfl hready
          | ended => nofun
          | answer answer => nofun
      | batches htask _ hinput hjob hcollect =>
          have hstate : Batches.Prompt bound _ := ⟨hinput, fun job hsome => ⟨hjob job hsome,
            fun rule item stage found heq => hcollect rule item stage found (heq ▸ hsome)⟩⟩
          refine (Batches.poll_confined ih htask budget budget hstate).bind ?_
          rintro ⟨poll, state⟩ ⟨hready, hinput, hjob⟩
          refine .pure ⟨hready,
            .batches htask nofun hinput (fun job hsome => (hjob job hsome).1) ?_⟩
          exact fun rule item stage found hsome => (hjob _ hsome).2 rule item stage found rfl
      | tally _ hinput =>
          refine (Tally.poll_confined ih budget hinput).bind ?_
          rintro ⟨poll, state⟩ ⟨hready, hleft⟩
          exact .pure ⟨hready, .tally nofun hleft⟩
      | pairing hmode hmain hother hinput hpartner =>
          refine (Pairing.poll_confined ih hmode hmain hother hinput hpartner).bind ?_
          rintro ⟨poll, state⟩ ⟨hready, hleft⟩
          exact .pure ⟨hready, hleft⟩
      | sampling hinputs =>
          refine (Sampling.poll_confined ih hinputs).bind ?_
          rintro ⟨poll, state⟩ ⟨hready, hleft⟩
          exact .pure ⟨hready, .sampling hleft⟩
      | probe id hinner =>
          refine (ih hinner).bind ?_
          rintro ⟨poll, inner⟩ ⟨hready, hleft⟩
          have hcount : Confined bound (fun _ => True) (countPull id poll : Flow Unit) :=
            .lift fun _ _ _ _ => trivial
          exact hcount.bind fun _ _ => .pure ⟨hready, .probe id hleft⟩
      | branch index hplace =>
          exact (pollBranch_confined ih index hplace).bind fun poll hready =>
            .pure ⟨hready, .branch index hplace⟩
      | tap hplace =>
          exact (pollBranch_confined ih 0 hplace).bind fun poll hready =>
            .pure ⟨hready, .tap hplace⟩
      | @closed _ junctions out _ hupstream hout =>
          have hask : Confined bound (fun reached => reached.1.1 ≠ .pending ∧
              reached.1.2.Prompt false reached.2.length ∧ Junction.Prompts false reached.2)
              ((Stage.poll setting budget out).run junctions : Flow _) := by
            refine .lift ?_
            rintro world ⟨⟨given, next⟩, left⟩ later hrun
            have hcomes : Flow.Comes (poll setting budget out) (junctions ++ []) world (given, next)
                left later := by
              rw [List.append_nil]
              exact hrun
            obtain ⟨hresponds, middle, hmiddle, hkept, rfl, -⟩ :=
              (ih hout).inward rfl hupstream hcomes
            rw [List.append_nil]
            exact ⟨hresponds.1, hmiddle ▸ hresponds.2, hkept⟩
          refine hask.bind ?_
          rintro ⟨⟨given, next⟩, left⟩ ⟨hready, hnext, hkept⟩
          exact .pure ⟨hready, .closed nofun hkept hnext⟩

end Stage

end Pipework
