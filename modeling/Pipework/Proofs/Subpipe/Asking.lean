import Pipework.Proofs.Subpipe.Building
import Pipework.Stage.Poll

/-! # Asking the stages of pipes that run as modules

Stages that are akin give the same when they are asked, and what they leave is akin. The user is not
asked for anything.
-/

namespace Pipework

variable {α β γ δ ι : Type}

/-- Junctions in scope that are akin at each place. -/
abbrev Junction.Level (here there : List (Junction Stage)) : Prop :=
  List.Forall₂ (Junction.Lifts Stage.Akin) here there

/-- With junctions that are akin in scope both come to related results. -/
def Flow.Mirrors (related : α → β → Prop) (first : Flow α) (second : Flow β) : Prop :=
  ∀ ⦃here there : List (Junction Stage)⦄, Junction.Level here there →
    (first.run here).Mirrors World.desk
      (fun result other => related result.1 other.1 ∧ Junction.Level result.2 other.2)
      (second.run there)

namespace Flow.Mirrors

variable {related : α → β → Prop} {next : γ → δ → Prop}

theorem pure {first : α} {second : β} (h : related first second) :
    Flow.Mirrors related (Pure.pure first) (Pure.pure second) :=
  fun _ _ hscope => Run.Mirrors.pure ⟨h, hscope⟩

theorem failure :
    Flow.Mirrors related (Alternative.failure : Flow α) (Alternative.failure : Flow β) :=
  fun _ _ _ => Run.Mirrors.failure

theorem bind {first : Flow α} {second : Flow β} {after : α → Flow γ} {behind : β → Flow δ}
    (h : Flow.Mirrors related first second)
    (hnext : ∀ value other, related value other →
      Flow.Mirrors next (after value) (behind other)) :
    Flow.Mirrors next (first >>= after) (second >>= behind) := by
  intro here there hscope
  rw [StateT.run_bind, StateT.run_bind]
  exact Run.Mirrors.bind (h hscope) fun result other hresult =>
    hnext result.1 other.1 hresult.1 hresult.2

theorem lift {first : Run α} {second : Run β} (h : first.Mirrors World.desk related second) :
    Flow.Mirrors related (first : Flow α) (second : Flow β) := by
  intro here there hscope
  change (first >>= fun value => Pure.pure (value, here)).Mirrors World.desk _
    (second >>= fun value => Pure.pure (value, there))
  exact h.bind fun value other hrelated => .pure ⟨hrelated, hscope⟩

theorem get : Flow.Mirrors Junction.Level (get : Flow (List (Junction Stage))) get :=
  fun _ _ hscope => Run.Mirrors.pure ⟨hscope, hscope⟩

theorem set (place : Nat) {junction other : Junction Stage}
    (h : Junction.Lifts Stage.Akin junction other) :
    Flow.Mirrors (fun _ _ => True)
      (modify fun junctions => junctions.set place junction : Flow Unit)
      (modify fun junctions => junctions.set place other : Flow Unit) :=
  fun _ _ hscope => Run.Mirrors.pure ⟨trivial, forall₂_set hscope place h⟩

end Flow.Mirrors

namespace Run.Mirrors

theorem get :
    (get : Run World).Mirrors World.desk (fun here there => here.clock = there.clock) get :=
  fun _ _ hclock => .some ⟨hclock, hclock, ⟨none, (Awaited.earlier?_none _).symm,
    (Awaited.earlier?_none _).symm⟩, rfl, rfl⟩

theorem wakeAt (time : Nat) :
    (Run.wakeAt time).Mirrors World.desk (fun _ _ => True) (Run.wakeAt time) := by
  have hpasses : (Run.wakeAt time).Passes World.desk (some time) := by
    intro world
    refine ⟨_, rfl, rfl, ?_, rfl⟩
    cases halarm : world.alarm <;> simp [halarm, Awaited.earlier?]
  exact of_passes hpasses hpasses

theorem count (id : ModuleId) (change : ProbeCount → ProbeCount) :
    (Run.count id change).Mirrors World.desk (fun _ _ => True) (Run.count id change) := by
  have hpasses : (Run.count id change).Passes World.desk none :=
    fun _ => ⟨_, rfl, rfl, (Awaited.earlier?_none _).symm, rfl⟩
  exact of_passes hpasses hpasses

theorem readFile (setting : Setting) (path : String) :
    (Run.readFile setting path).Mirrors World.desk (fun text twin => text = twin)
      (Run.readFile setting path) := by
  have hpasses : (modify fun world : World => { world with reads := world.reads ++ [path] } :
      Run Unit).Passes World.desk none :=
    fun _ => ⟨_, rfl, rfl, (Awaited.earlier?_none _).symm, rfl⟩
  unfold Run.readFile
  exact (of_passes hpasses hpasses).bind fun _ _ _ => .pure rfl

end Run.Mirrors

theorem Job.fetch_mirrors (setting : Setting) (conf : Conf) (item : Record) :
    (fetch setting conf item).Mirrors World.desk (fun batch twin => batch = twin)
      (fetch setting conf item) := by
  unfold fetch
  split
  · exact .pure rfl
  · refine (Run.Mirrors.readFile setting _).bind ?_
    rintro text _ rfl
    exact .pure rfl

/-- A pause ends in both worlds at the same time. -/
theorem Stage.pollScript_mirrors (script : Script) :
    (pollScript script).Mirrors World.desk (fun result twin => result = twin)
      (pollScript script) := by
  unfold pollScript
  refine Run.Mirrors.get.bind fun here there hclock => ?_
  rw [hclock]
  dsimp only
  split
  · exact (Run.Mirrors.wakeAt _).bind fun _ _ _ => .pure rfl
  · exact .pure rfl

theorem Stage.countPull_mirrors (id : ModuleId) (poll : Poll) :
    (countPull id poll).Mirrors World.desk (fun _ _ => True) (countPull id poll) := by
  unfold countPull
  split
  · exact .count id _
  · exact .pure trivial

/-- The same poll, and related rests. -/
structure Asked (related : α → β → Prop) (first : Poll × α) (second : Poll × β) : Prop where
  poll : first.1 = second.1
  rest : related first.2 second.2

section Machines

variable {ask other : Stage → Flow (Poll × Stage)}
  (hask : ∀ first second : Stage, first.Akin second →
    Flow.Mirrors (Asked Stage.Akin) (ask first) (other second))

include hask

theorem Tally.poll_mirrors (budget : Nat) {first second : Tally Stage}
    (h : first.Lifts Stage.Akin second) :
    Flow.Mirrors (Asked (Tally.Lifts Stage.Akin)) (first.poll ask failure budget)
      (second.poll other failure budget) := by
  induction budget generalizing first second with
  | zero => exact .failure
  | succ budget ih =>
      obtain ⟨count, done, hinput⟩ := h
      cases done with
      | true => exact .pure ⟨rfl, .intro count true hinput⟩
      | false =>
          rw [Tally.poll, Tally.poll]
          refine (hask _ _ hinput).bind ?_
          rintro ⟨poll, input⟩ ⟨_, rest⟩ ⟨rfl, hrest⟩
          rcases poll with _ | _ | (error | item)
          · exact .pure ⟨rfl, .intro count false hrest⟩
          · exact .pure ⟨rfl, .intro count true hrest⟩
          · exact .pure ⟨rfl, .intro count true hrest⟩
          · dsimp only
            split
            · exact .pure ⟨rfl, .intro count true hrest⟩
            · exact ih (.intro (count + 1) false hrest)

/-- Works that are related are finished alike or leave related works. -/
inductive Progress.Lifts {ω : Type} (works : ω → ω → Prop) : Progress ω → Progress ω → Prop
  | waiting {job work : ω} (h : works job work) : Lifts works (.waiting job) (.waiting work)
  | finished (batch : Except PipeError (List Record)) :
      Lifts works (.finished batch) (.finished batch)

theorem Batches.poll_mirrors {begin start : Record → Job Stage}
    {work labour : Job Stage → Flow (Progress (Job Stage))}
    (hbegin : ∀ record, (begin record).Lifts Stage.Akin (start record))
    (hwork : ∀ job task, Job.Lifts Stage.Akin job task →
      Flow.Mirrors (Progress.Lifts (Job.Lifts Stage.Akin)) (work job) (labour task))
    (budget : Nat) {first second : Batches Stage (Job Stage)}
    (h : first.Lifts Stage.Akin (Job.Lifts Stage.Akin) second) :
    Flow.Mirrors (Asked (Batches.Lifts Stage.Akin (Job.Lifts Stage.Akin)))
      (first.poll ask begin work failure budget)
      (second.poll other start labour failure budget) := by
  induction budget generalizing first second with
  | zero => exact .failure
  | succ budget ih =>
      obtain ⟨queue, last, hinput, hjob⟩ := h
      cases queue with
      | cons answer rest => exact .pure ⟨rfl, .intro rest last hinput hjob⟩
      | nil =>
          rw [Batches.poll, Batches.poll]
          cases hjob with
          | some hjob =>
              refine (hwork _ _ hjob).bind fun progress further hprogress => ?_
              cases hprogress with
              | waiting hjob => exact .pure ⟨rfl, .intro [] last hinput (.some hjob)⟩
              | finished batch => exact ih (.intro (answersOf batch) last hinput .none)
          | none =>
              cases last with
              | true => exact .pure ⟨rfl, .intro [] true hinput .none⟩
              | false =>
                  dsimp only
                  refine (hask _ _ hinput).bind ?_
                  rintro ⟨poll, input⟩ ⟨_, rest⟩ ⟨rfl, hrest⟩
                  rcases poll with _ | _ | (error | record)
                  · exact .pure ⟨rfl, .intro [] false hrest .none⟩
                  · exact .pure ⟨rfl, .intro [] true hrest .none⟩
                  · exact .pure ⟨rfl, .intro [] false hrest .none⟩
                  · exact ih (.intro [] record.isSentinel hrest (.some (hbegin record)))

theorem Pairing.Side.fill_mirrors {first second : Side Stage}
    (h : first.Lifts Stage.Akin second) :
    Flow.Mirrors (Side.Lifts Stage.Akin) (first.fill ask) (second.fill other) := by
  obtain ⟨held, ended, hinput⟩ := h
  unfold fill
  dsimp only
  split
  · exact .pure (.intro held ended hinput)
  · cases hinput with
    | none => exact .pure (.intro held true .none)
    | some hinput =>
        refine (hask _ _ hinput).bind ?_
        rintro ⟨poll, input⟩ ⟨_, rest⟩ ⟨rfl, hrest⟩
        cases poll with
        | pending => exact .pure (.intro held ended (.some hrest))
        | ended => exact .pure (.intro held true (.some hrest))
        | answer answer => exact .pure (.intro (some answer) ended (.some hrest))

omit hask in
theorem Pairing.Lifts.outcome_eq {first second : Pairing Stage}
    (h : first.Lifts Stage.Akin second) : second.outcome = first.outcome := by
  obtain ⟨mode, ⟨held, ended, _⟩, ⟨heldOther, endedOther, _⟩⟩ := h
  rfl

omit hask in
theorem Pairing.settle_akin {first second : Pairing Stage} (h : first.Lifts Stage.Akin second) :
    Asked (Pairing.Lifts Stage.Akin) first.settle second.settle := by
  have hkeeps (poll : Poll) : second.keeps poll = first.keeps poll := by
    obtain ⟨mode, hmain, hother⟩ := h
    rfl
  unfold settle
  rw [h.outcome_eq]
  dsimp only
  rw [hkeeps]
  split
  · exact ⟨rfl, h⟩
  · obtain ⟨mode, ⟨held, ended, hmain⟩, ⟨heldOther, endedOther, hother⟩⟩ := h
    exact ⟨rfl, .intro mode (.intro none false hmain) (.intro none false hother)⟩

theorem Pairing.poll_mirrors {first second : Pairing Stage} (h : first.Lifts Stage.Akin second) :
    Flow.Mirrors (Asked (Pairing.Lifts Stage.Akin)) (first.poll ask) (second.poll other) := by
  obtain ⟨mode, hmain, hother⟩ := h
  refine (Side.fill_mirrors hask hmain).bind ?_
  rintro _ _ ⟨held, ended, hfilled⟩
  dsimp only
  split
  · refine (Side.fill_mirrors hask hother).bind fun side twin hside => ?_
    exact .pure (settle_akin (.intro mode (.intro held ended hfilled) hside))
  · exact .pure (settle_akin (.intro mode (.intro held ended hfilled) hother))

omit hask in
theorem Sampling.keep_akin {first second : List (String × Option Stage)}
    (h : List.Forall₂ (Sampling.Named Stage.Akin) first second) (name : String)
    {input rest : Option Stage} (hinput : Option.Rel Stage.Akin input rest) :
    List.Forall₂ (Sampling.Named Stage.Akin) (keep first name input) (keep second name rest) := by
  refine List.forall₂_map_left_iff.mpr (List.forall₂_map_right_iff.mpr (h.imp ?_))
  rintro _ _ ⟨held, hheld⟩
  dsimp only
  split
  · exact .intro name hinput
  · exact .intro held hheld

omit hask in
theorem Sampling.rel_lookup {first second : List (String × Option Stage)}
    (h : List.Forall₂ (Sampling.Named Stage.Akin) first second) (name : String) :
    Option.Rel (Option.Rel Stage.Akin) (first.lookup name) (second.lookup name) := by
  refine Pipework.rel_lookup (h.imp ?_) name
  rintro _ _ ⟨held, hheld⟩
  exact ⟨rfl, hheld⟩

omit hask in
theorem Sampling.filter_akin {first second : List (String × Option Stage)}
    (h : List.Forall₂ (Sampling.Named Stage.Akin) first second) (name : String) :
    List.Forall₂ (Sampling.Named Stage.Akin) (first.filter fun input => input.1 != name)
      (second.filter fun input => input.1 != name) := by
  induction h with
  | nil => exact .nil
  | cons hhead _ ih =>
      obtain ⟨held, hheld⟩ := hhead
      rw [List.filter_cons, List.filter_cons]
      dsimp only
      split
      · exact .cons (.intro held hheld) ih
      · exact ih

theorem Sampling.poll_mirrors {first second : Sampling Stage} (h : first.Lifts Stage.Akin second) :
    Flow.Mirrors (Asked (Sampling.Lifts Stage.Akin)) (first.poll ask) (second.poll other) := by
  obtain @⟨script, here, there, hinputs⟩ := h
  cases script with
  | nil => exact .pure ⟨rfl, .intro [] hinputs⟩
  | cons entry rest =>
      unfold poll
      dsimp only
      split
      next name _ =>
        refine .pure ⟨?_, .intro rest (filter_akin hinputs name)⟩
        have hlookup := rel_lookup hinputs name
        generalize here.lookup name = found, there.lookup name = twin at hlookup ⊢
        cases hlookup <;> rfl
      next =>
        have hlookup := rel_lookup hinputs entry
        generalize here.lookup entry = found, there.lookup entry = twin at hlookup ⊢
        cases hlookup with
        | none => exact .pure ⟨rfl, .intro rest hinputs⟩
        | some hinput =>
            cases hinput with
            | none => exact .pure ⟨rfl, .intro rest hinputs⟩
            | some hinput =>
                refine (hask _ _ hinput).bind ?_
                rintro ⟨poll, input⟩ ⟨_, left⟩ ⟨rfl, hleft⟩
                have hkept := keep_akin hinputs entry (.some hleft)
                rcases poll with _ | _ | (error | record)
                · exact .pure ⟨rfl, .intro (entry :: rest) hkept⟩
                · exact .pure ⟨rfl, .intro rest (keep_akin hinputs entry .none)⟩
                · exact .pure ⟨rfl, .intro rest hkept⟩
                · exact .pure ⟨rfl, .intro rest hkept⟩

omit hask in
theorem Fork.settle_akin (fork : Fork Stage) (branch : Nat) (poll : Poll) {upstream : Stage}
    (h : fork.upstream.Akin upstream) :
    (fork.settle branch poll).poll = ({ fork with upstream }.settle branch poll).poll ∧
      Junction.Lifts Stage.Akin (.fork (fork.settle branch poll).fork)
        (.fork ({ fork with upstream }.settle branch poll).fork) := by
  cases poll with
  | pending => exact ⟨rfl, .fork { fork with waiting := fork.waiting.set branch true } h⟩
  | ended => exact ⟨rfl, .fork { fork.rouse branch with dry := true } h⟩
  | answer answer =>
      cases answer with
      | error error => exact ⟨rfl, .fork fork h⟩
      | ok record => exact ⟨rfl, .fork ((fork.spread branch record).rouse branch) h⟩

omit hask in
theorem Tap.settle_akin (tap : Tap Stage) (consumer : Nat) (poll : Poll) {upstream : Stage}
    (h : tap.upstream.Akin upstream) :
    (tap.settle consumer poll).poll = ({ tap with upstream }.settle consumer poll).poll ∧
      Junction.Lifts Stage.Akin (.tap (tap.settle consumer poll).tap)
        (.tap ({ tap with upstream }.settle consumer poll).tap) := by
  cases poll with
  | pending =>
      simp only [Tap.settle]
      split
      · exact ⟨rfl, .tap tap h⟩
      · exact ⟨rfl, .tap { tap with waiting := tap.waiting ++ [consumer] } h⟩
  | ended => exact ⟨rfl, .tap { tap with waiting := [], dry := true } h⟩
  | answer answer => exact ⟨rfl, .tap { tap with waiting := [] } h⟩

theorem Fork.poll_mirrors (fork : Fork Stage) {upstream : Stage}
    (h : fork.upstream.Akin upstream) (branch : Nat) :
    Flow.Mirrors (fun outcome twin => outcome.poll = twin.poll ∧
        Junction.Lifts Stage.Akin (.fork outcome.fork) (.fork twin.fork))
      (fork.poll ask branch) ({ fork with upstream }.poll other branch) := by
  have hbuffer : { fork with upstream }.buffer? branch = fork.buffer? branch := rfl
  unfold poll
  rw [hbuffer]
  split
  next record rest _ =>
    exact .pure ⟨rfl, .fork { fork with buffers := fork.buffers.set branch (some rest) } h⟩
  next =>
    dsimp only
    split
    · exact .pure ⟨rfl, .fork fork h⟩
    · refine (hask _ _ h).bind ?_
      rintro ⟨poll, stage⟩ ⟨_, twin⟩ ⟨rfl, hrest⟩
      exact .pure (settle_akin { fork with upstream := stage } branch poll hrest)

theorem Tap.poll_mirrors (tap : Tap Stage) {upstream : Stage} (h : tap.upstream.Akin upstream)
    (consumer : Nat) :
    Flow.Mirrors (fun outcome twin => outcome.poll = twin.poll ∧
        Junction.Lifts Stage.Akin (.tap outcome.tap) (.tap twin.tap))
      (tap.poll ask consumer) ({ tap with upstream }.poll other consumer) := by
  unfold poll
  dsimp only
  split
  · exact .pure ⟨rfl, .tap tap h⟩
  · refine (hask _ _ h).bind ?_
    rintro ⟨poll, stage⟩ ⟨_, twin⟩ ⟨rfl, hrest⟩
    exact .pure (settle_akin { tap with upstream := stage } consumer poll hrest)

theorem Stage.pollBranch_mirrors (junction index : Nat) :
    Flow.Mirrors (fun poll twin => poll = twin) (pollBranch ask junction index)
      (pollBranch other junction index) := by
  unfold pollBranch
  refine Flow.Mirrors.get.bind fun here there hscope => ?_
  have hplace := rel_getElem? hscope junction
  generalize here[junction]? = found, there[junction]? = twin at hplace
  cases hplace with
  | none => exact .pure rfl
  | some hjunction =>
      cases hjunction with
      | fork fork hupstream =>
          refine (Fork.poll_mirrors hask fork hupstream index).bind fun outcome twin hasked => ?_
          exact (Flow.Mirrors.set junction hasked.2).bind fun _ _ _ => .pure hasked.1
      | tap tap hupstream =>
          refine (Tap.poll_mirrors hask tap hupstream index).bind fun outcome twin hasked => ?_
          exact (Flow.Mirrors.set junction hasked.2).bind fun _ _ _ => .pure hasked.1

theorem Job.gather_mirrors (rule : LoopRule) (item : Record) (budget : Nat) {stage twin : Stage}
    (h : stage.Akin twin) (found : List Record) :
    Flow.Mirrors (Progress.Lifts (Job.Lifts Stage.Akin)) (gather ask rule item budget stage found)
      (gather other rule item budget twin found) := by
  induction budget generalizing stage twin found with
  | zero => exact .failure
  | succ budget ih =>
      rw [gather, gather]
      refine (hask _ _ h).bind ?_
      rintro ⟨poll, rest⟩ ⟨_, left⟩ ⟨rfl, hrest⟩
      rcases poll with _ | _ | (error | record)
      · exact .pure (.waiting (.collect rule item found hrest))
      · exact .pure (.finished _)
      · exact .pure (.finished _)
      · exact ih hrest (found ++ [record])

theorem Job.work_mirrors (setting : Setting) (budget : Nat) {job task : Job Stage}
    (h : job.Lifts Stage.Akin task) :
    Flow.Mirrors (Progress.Lifts (Job.Lifts Stage.Akin)) (work setting ask budget job)
      (work setting other budget task) := by
  cases h with
  | load conf item waits =>
      cases waits with
      | true =>
          refine (Flow.Mirrors.lift Run.Mirrors.get).bind fun here there hclock => ?_
          rw [hclock]
          refine (Flow.Mirrors.lift (Run.Mirrors.wakeAt there.clock)).bind fun _ _ _ => ?_
          exact .pure (.waiting (.load conf item false))
      | false =>
          refine (Flow.Mirrors.lift (fetch_mirrors setting conf item)).bind ?_
          rintro batch _ rfl
          exact .pure (.finished batch)
  | instantiate rule mode item hembed =>
      refine (Flow.Mirrors.lift (Embed.instantiate_mirrors setting mode hembed item).desk).bind ?_
      rintro _ _ (error | hstage)
      · exact .pure (.finished _)
      · exact gather_mirrors hask rule item budget hstage []
  | collect rule item found hstage => exact gather_mirrors hask rule item budget hstage found

end Machines

/-- Tasks that are akin begin works that are. -/
theorem Task.begin_lifts {task other : Task} (h : task.Akin other) (record : Record) :
    (task.begin record : Job Stage).Lifts Stage.Akin (other.begin record) := by
  cases h with
  | fetch conf mode => exact .load conf record _
  | loop rule mode hembed => exact .instantiate rule mode record hembed

/-- Stages that are akin give the same, and are akin afterwards. The induction is on the budget. -/
theorem Stage.poll_mirrors (setting : Setting) (budget : Nat) {first second : Stage}
    (h : first.Akin second) :
    Flow.Mirrors (Asked Stage.Akin) (first.poll setting budget) (second.poll setting budget) := by
  induction budget generalizing first second with
  | zero => exact .failure
  | succ budget ih =>
      have hask (inner twin : Stage) (hinner : inner.Akin twin) := ih hinner
      cases h with
      | sentinel => exact .pure ⟨rfl, .sentinel⟩
      | constant record => exact .pure ⟨rfl, .constant record⟩
      | once record? =>
          cases record? with
          | none => exact .pure ⟨rfl, .once none⟩
          | some record => exact .pure ⟨rfl, .once none⟩
      | scripted script =>
          refine (Flow.Mirrors.lift (pollScript_mirrors script)).bind ?_
          rintro ⟨poll, rest⟩ _ rfl
          exact .pure ⟨rfl, .scripted rest⟩
      | tagged id index hinner =>
          refine (ih hinner).bind ?_
          rintro ⟨poll, rest⟩ ⟨_, twin⟩ ⟨rfl, hrest⟩
          cases poll with
          | answer answer => exact .pure ⟨rfl, .tagged id (index + 1) hrest⟩
          | pending => exact .pure ⟨rfl, .tagged id index hrest⟩
          | ended => exact .pure ⟨rfl, .tagged id index hrest⟩
      | mapped transform hinner =>
          refine (ih hinner).bind ?_
          rintro ⟨poll, rest⟩ ⟨_, twin⟩ ⟨rfl, hrest⟩
          exact .pure ⟨rfl, .mapped transform hrest⟩
      | batches htask hstate =>
          refine (Batches.poll_mirrors hask (Task.begin_lifts htask)
            (fun _ _ => Job.work_mirrors hask setting budget) budget hstate).bind ?_
          rintro ⟨poll, rest⟩ ⟨_, twin⟩ ⟨rfl, hrest⟩
          exact .pure ⟨rfl, .batches htask hrest⟩
      | tally hstate =>
          refine (Tally.poll_mirrors hask budget hstate).bind ?_
          rintro ⟨poll, rest⟩ ⟨_, twin⟩ ⟨rfl, hrest⟩
          exact .pure ⟨rfl, .tally hrest⟩
      | pairing hstate =>
          refine (Pairing.poll_mirrors hask hstate).bind ?_
          rintro ⟨poll, rest⟩ ⟨_, twin⟩ ⟨rfl, hrest⟩
          exact .pure ⟨rfl, .pairing hrest⟩
      | sampling hstate =>
          refine (Sampling.poll_mirrors hask hstate).bind ?_
          rintro ⟨poll, rest⟩ ⟨_, twin⟩ ⟨rfl, hrest⟩
          exact .pure ⟨rfl, .sampling hrest⟩
      | probe id hinner =>
          refine (ih hinner).bind ?_
          rintro ⟨poll, rest⟩ ⟨_, twin⟩ ⟨rfl, hrest⟩
          refine (Flow.Mirrors.lift (countPull_mirrors id poll)).bind fun _ _ _ => ?_
          exact .pure ⟨rfl, .probe id hrest⟩
      | branch junction index =>
          refine (pollBranch_mirrors hask junction index).bind ?_
          rintro poll _ rfl
          exact .pure ⟨rfl, .branch junction index⟩
      | tap junction =>
          refine (pollBranch_mirrors hask junction 0).bind ?_
          rintro poll _ rfl
          exact .pure ⟨rfl, .tap junction⟩
      | closed hjunctions hout =>
          refine (Flow.Mirrors.lift (ih hout hjunctions)).bind ?_
          rintro ⟨⟨poll, rest⟩, scope⟩ ⟨⟨_, twin⟩, other⟩ ⟨⟨rfl, hrest⟩, hscope⟩
          exact .pure ⟨rfl, .closed hscope hrest⟩

end Pipework
