import Pipework.Proofs.Batches.Rows

/-! # Stages that wait for their batches

A stage that gives batches, with an input and a batch function that are told by what comes of them:
the answers of the input and the batches of the records. Both may have to wait any number of times
before anything comes; in a stage that cannot wait it is no time at all. A log says what the stage has
asked of them. Pulling asks the stage again for as long as it waits.
-/

namespace Pipework

open Stream' (Seq)

namespace Batching

variable {σ ι ω : Type}

/-- What asking an input comes to that is asked again as long as it waits. -/
inductive Asked (ask : ι → Poll × ι) : ι → Poll → ι → Prop
  | ready {input next : ι} {poll : Poll} (h : ask input = (poll, next)) (hready : poll ≠ .pending) :
      Asked ask input poll next
  | again {input waiting next : ι} {poll : Poll} (h : ask input = (.pending, waiting))
      (hrest : Asked ask waiting poll next) : Asked ask input poll next

/-- The batch that a job comes to if it is gone on with as long as it waits. -/
inductive Worked (resume : ω → StateM σ (Progress ω)) : ω → σ → Batch → σ → Prop
  | finished {job : ω} {state later : σ} {batch : Batch}
      (h : (resume job).run state = (.finished batch, later)) : Worked resume job state batch later
  | again {job waiting : ω} {state middle later : σ} {batch : Batch}
      (h : (resume job).run state = (.waiting waiting, middle))
      (hrest : Worked resume waiting middle batch later) : Worked resume job state batch later

/-- What a stage has asked of its input and of its batch function. -/
structure Log (σ : Type) where
  /-- The state of the batch function. -/
  state : σ
  /-- The records on which the batch function was called. -/
  calls : List Record
  /-- How many answers and ends the input has given. -/
  pulls : ℕ

/-- One answer or end more has been given. -/
def Log.pulled (log : Log σ) : Log σ :=
  { log with pulls := log.pulls + 1 }

/-- A stage and its log. The work on a record begins with a call of the batch function. -/
abbrev Config (σ ι ω : Type) := Batches ι (Record ⊕ ω) × Log σ

end Batching

/-- An input that gives the answers of a sequence, and jobs that come to the batches of a function.
What the input does after its end or behind a record with the key is left open. -/
structure Batching (σ ι ω : Type) (items : Seq Answer) (make : Record → StateM σ Batch) where
  ask : ι → Poll × ι
  /-- The input when it has given so many answers. -/
  source : ℕ → ι
  /-- Begins the work on a record. -/
  call : Record → StateM σ ω
  resume : ω → StateM σ (Progress ω)
  feeds : ∀ count, Answer.Takes items count → Answer.hasKey (items.take count) = false →
    Batching.Asked ask (source count) ((items.get? count).elim .ended .answer) (source (count + 1))
  makes : ∀ item state, Batching.Worked resume ((call item).run state).1 ((call item).run state).2
    ((make item).run state).1 ((make item).run state).2

namespace Batching

variable {σ ι ω : Type} {items : Seq Answer} {make : Record → StateM σ Batch}

/-- An input that waits so many times for each of its answers, and jobs that wait so many times for
their batches. -/
def paced (items : Seq Answer) (make : Record → StateM σ Batch) (waits : ℕ → ℕ)
    (rests : Record → ℕ) : Batching σ (ℕ × ℕ) (Batch × ℕ) items make where
  ask
    | (count, 0) => ((items.get? count).elim .ended .answer, count + 1, waits (count + 1))
    | (count, left + 1) => (.pending, count, left)
  source count := (count, waits count)
  call item := return (← make item, rests item)
  resume
    | (batch, 0) => return .finished batch
    | (batch, left + 1) => return .waiting (batch, left)
  feeds := by
    intro count _ _
    generalize waits count = left
    induction left with
    | zero => exact .ready rfl (by cases items.get? count <;> nofun)
    | succ left ih => exact .again rfl ih
  makes := by
    intro item state
    generalize hmade : (make item).run state = made
    obtain ⟨batch, later⟩ := made
    have hcall : (do return (← make item, rests item) : StateM σ (Batch × ℕ)).run state =
        ((batch, rests item), later) := by
      rw [StateT.run_bind, hmade]
      rfl
    rw [hcall]
    generalize rests item = left
    induction left with
    | zero => exact .finished rfl
    | succ left ih => exact .again rfl ih

/-- Nothing ever has to wait. -/
def sync (items : Seq Answer) (make : Record → StateM σ Batch) :
    Batching σ (ℕ × ℕ) (Batch × ℕ) items make :=
  paced items make (fun _ => 0) (fun _ => 0)

variable (stage : Batching σ ι ω items make)

/-- Asks the input, and notes what it gives. -/
def pull (input : ι) : StateT (Log σ) Option (Poll × ι) := fun log =>
  some (stage.ask input, if (stage.ask input).1.isReady then log.pulled else log)

/-- Goes on with a job. -/
def proceed (job : ω) : StateT (Log σ) Option (Progress (Record ⊕ ω)) := fun log =>
  match (stage.resume job).run log.state with
  | (.waiting job, state) => some (.waiting (.inr job), { log with state })
  | (.finished batch, state) => some (.finished batch, { log with state })

/-- Goes on with the work on a record. It begins with a call, which is noted, and the job that this
gives is gone on with at once. -/
def work : Record ⊕ ω → StateT (Log σ) Option (Progress (Record ⊕ ω))
  | .inl item => fun log =>
      let called := (stage.call item).run log.state
      (stage.proceed called.1).run { log with state := called.2, calls := log.calls ++ [item] }
  | .inr job => stage.proceed job

/-- Asks the stage once, within a number of steps. -/
def poll (steps : ℕ) (config : Config σ ι ω) : Option (Poll × Config σ ι ω) :=
  ((Batches.poll stage.pull .inl stage.work failure steps config.1).run config.2).map fun result =>
    (result.1.1, result.1.2, result.2)

/-- What asking the stage comes to, within a number of steps, if it is asked again as long as it
waits. -/
inductive Pulls : ℕ → Config σ ι ω → Poll → Config σ ι ω → Prop
  | ready {steps : ℕ} {before after : Config σ ι ω} {poll : Poll}
      (h : stage.poll steps before = some (poll, after)) (hready : poll ≠ .pending) :
      Pulls steps before poll after
  | again {steps more : ℕ} {before waiting after : Config σ ι ω} {poll : Poll}
      (h : stage.poll steps before = some (.pending, waiting))
      (hrest : Pulls more waiting poll after) : Pulls (steps + more) before poll after

/-- The stage before anything was asked of it. -/
def start (state : σ) : Config σ ι ω :=
  (.start (stage.source 0), { state, calls := [], pulls := 0 })

/-- Pulled once for each, the stage gives answers one after the other. -/
inductive Gives (state : σ) : List Answer → Config σ ι ω → Prop
  | start : Gives state [] (stage.start state)
  | answer {answers : List Answer} {answer : Answer} {middle after : Config σ ι ω} {steps : ℕ}
      (h : Gives state answers middle) (hpull : stage.Pulls steps middle (.answer answer) after) :
      Gives state (answers ++ [answer]) after

/-- Two configurations come to the same, and the second one comes to it sooner. -/
structure Leads (first second : Config σ ι ω) : Prop where
  sooner : ∀ {steps poll after}, stage.Pulls steps first poll after →
    ∃ fewer < steps, stage.Pulls fewer second poll after
  later : ∀ {steps poll after}, stage.Pulls steps second poll after →
    ∃ more, stage.Pulls more first poll after

/-- What a configuration comes to, and nothing else. -/
def Stops (before : Config σ ι ω) (poll : Poll) (after : Config σ ι ω) : Prop :=
  ∀ given reached, (∃ steps, stage.Pulls steps before given reached) ↔
    given = poll ∧ reached = after

variable {stage} {first second third before after : Config σ ι ω} {given : Poll}

/-- Without a step nothing comes. -/
theorem exists_succ_of_poll {steps : ℕ} (h : stage.poll steps before = some (given, after)) :
    ∃ fewer, steps = fewer + 1 := by
  cases steps with
  | zero => cases h
  | succ fewer => exact ⟨fewer, rfl⟩

namespace Leads

theorem trans (h : stage.Leads first second) (hnext : stage.Leads second third) :
    stage.Leads first third where
  sooner hpull := by
    obtain ⟨middle, hmiddle, hpull⟩ := h.sooner hpull
    obtain ⟨fewer, hfewer, hpull⟩ := hnext.sooner hpull
    exact ⟨fewer, hfewer.trans hmiddle, hpull⟩
  later hpull := by
    obtain ⟨_, hpull⟩ := hnext.later hpull
    exact h.later hpull

/-- A step within one asking. -/
theorem of_go (h : ∀ steps, stage.poll (steps + 1) first = stage.poll steps second) :
    stage.Leads first second where
  sooner := by
    intro steps poll after hpull
    cases hpull with
    | ready hpoll hready =>
        obtain ⟨fewer, rfl⟩ := exists_succ_of_poll hpoll
        exact ⟨fewer, fewer.lt_succ_self, .ready (h fewer ▸ hpoll) hready⟩
    | @again _ more _ _ _ _ hpoll hrest =>
        obtain ⟨fewer, rfl⟩ := exists_succ_of_poll hpoll
        exact ⟨fewer + more, by omega, .again (h fewer ▸ hpoll) hrest⟩
  later := by
    rintro steps poll after (⟨hpoll, hready⟩ | ⟨hpoll, hrest⟩)
    · exact ⟨_, .ready ((h _).trans hpoll) hready⟩
    · exact ⟨_, .again ((h _).trans hpoll) hrest⟩

/-- The stage has to wait. -/
theorem of_wait (h : ∀ steps, stage.poll (steps + 1) first = some (.pending, second)) :
    stage.Leads first second where
  sooner := by
    intro steps poll after hpull
    cases hpull with
    | ready hpoll hready =>
        obtain ⟨fewer, rfl⟩ := exists_succ_of_poll hpoll
        cases (h fewer).symm.trans hpoll
        exact absurd rfl hready
    | @again _ more _ _ _ _ hpoll hrest =>
        obtain ⟨fewer, rfl⟩ := exists_succ_of_poll hpoll
        cases (h fewer).symm.trans hpoll
        exact ⟨more, by omega, hrest⟩
  later hpull := ⟨_, .again (h 0) hpull⟩

end Leads

namespace Stops

theorem of_poll (h : ∀ steps, stage.poll (steps + 1) before = some (given, after))
    (hready : given ≠ .pending) : stage.Stops before given after := by
  intro poll reached
  constructor
  · rintro ⟨steps, ⟨hpoll, _⟩ | ⟨hpoll, _⟩⟩
    · obtain ⟨fewer, rfl⟩ := exists_succ_of_poll hpoll
      cases (h fewer).symm.trans hpoll
      exact ⟨rfl, rfl⟩
    · obtain ⟨fewer, rfl⟩ := exists_succ_of_poll hpoll
      cases (h fewer).symm.trans hpoll
      exact absurd rfl hready
  · rintro ⟨rfl, rfl⟩
    exact ⟨1, .ready (h 0) hready⟩

theorem of_leads (h : stage.Leads first second) (hstops : stage.Stops second given after) :
    stage.Stops first given after := by
  intro poll reached
  rw [← hstops poll reached]
  constructor
  · rintro ⟨_, hpull⟩
    obtain ⟨fewer, _, hpull⟩ := h.sooner hpull
    exact ⟨fewer, hpull⟩
  · rintro ⟨_, hpull⟩
    exact h.later hpull

theorem exists_pulls (h : stage.Stops before given after) :
    ∃ steps poll after, stage.Pulls steps before poll after := by
  obtain ⟨steps, hpull⟩ := (h _ _).mpr ⟨rfl, rfl⟩
  exact ⟨steps, _, _, hpull⟩

end Stops

section Steps

variable (stage) {input next : ι} {log : Log σ} {answer : Answer}

theorem stops_queue (input : ι) (queue : List Answer) (job : Option (Record ⊕ ω)) (last : Bool)
    (log : Log σ) :
    stage.Stops (⟨input, answer :: queue, job, last⟩, log) (.answer answer)
      (⟨input, queue, job, last⟩, log) :=
  .of_poll (fun _ => rfl) nofun

theorem stops_last (input : ι) (log : Log σ) :
    stage.Stops (⟨input, [], none, true⟩, log) .ended (⟨input, [], none, true⟩, log) :=
  .of_poll (fun _ => rfl) nofun

theorem poll_input (input : ι) (log : Log σ) (steps : ℕ) :
    stage.poll (steps + 1) (⟨input, [], none, false⟩, log) =
      match stage.ask input with
      | (.pending, next) => some (.pending, ⟨next, [], none, false⟩, log)
      | (.ended, next) => some (.ended, ⟨next, [], none, true⟩, log.pulled)
      | (.answer (.error error), next) =>
          some (.answer (.error error), ⟨next, [], none, false⟩, log.pulled)
      | (.answer (.ok item), next) =>
          stage.poll steps (⟨next, [], some (.inl item), item.isSentinel⟩, log.pulled) := by
  unfold poll
  rw [Batches.poll]
  simp only [Bool.false_eq_true, if_false, StateT.run_bind]
  have hpull : (stage.pull input).run log =
      some (stage.ask input, if (stage.ask input).1.isReady then log.pulled else log) := rfl
  rw [hpull]
  rcases stage.ask input with ⟨_ | _ | _ | _, next⟩ <;> rfl

theorem poll_job (input : ι) (job : ω) (last : Bool) (log : Log σ) (steps : ℕ) :
    stage.poll (steps + 1) (⟨input, [], some (.inr job), last⟩, log) =
      match (stage.resume job).run log.state with
      | (.waiting job, state) =>
          some (.pending, ⟨input, [], some (.inr job), last⟩, { log with state })
      | (.finished batch, state) =>
          stage.poll steps (⟨input, Batches.answersOf batch, none, last⟩, { log with state }) := by
  unfold poll
  rw [Batches.poll]
  simp only [work, StateT.run_bind]
  have hproceed : (stage.proceed job).run log =
      match (stage.resume job).run log.state with
      | (.waiting job, state) => some (.waiting (.inr job), { log with state })
      | (.finished batch, state) => some (.finished batch, { log with state }) := rfl
  rw [hproceed]
  rcases (stage.resume job).run log.state with ⟨_ | _, state⟩ <;> rfl

/-- Nothing is waited for between the call and the first work on its job. -/
theorem poll_call (input : ι) (item : Record) (last : Bool) (log : Log σ) (steps : ℕ) :
    stage.poll (steps + 1) (⟨input, [], some (.inl item), last⟩, log) =
      stage.poll (steps + 1) (⟨input, [], some (.inr ((stage.call item).run log.state).1), last⟩,
        { log with state := ((stage.call item).run log.state).2, calls := log.calls ++ [item] }) :=
  rfl

variable {stage}

theorem Leads.of_pending (h : stage.ask input = (.pending, next)) (log : Log σ) :
    stage.Leads (⟨input, [], none, false⟩, log) (⟨next, [], none, false⟩, log) :=
  .of_wait fun steps => by rw [poll_input, h]

/-- Waiting for the input comes to nothing else than asking it when there is something. -/
theorem Leads.of_asked {poll : Poll} (h : Asked stage.ask input poll next)
    (hleads : ∀ input, stage.ask input = (poll, next) →
      stage.Leads (⟨input, [], none, false⟩, log) after) :
    stage.Leads (⟨input, [], none, false⟩, log) after := by
  induction h with
  | ready h _ => exact hleads _ h
  | again h _ ih => exact (Leads.of_pending h log).trans (ih hleads)

theorem Stops.of_asked {poll : Poll} (h : Asked stage.ask input poll next)
    (hstops : ∀ input, stage.ask input = (poll, next) →
      stage.Stops (⟨input, [], none, false⟩, log) given after) :
    stage.Stops (⟨input, [], none, false⟩, log) given after := by
  induction h with
  | ready h _ => exact hstops _ h
  | again h _ ih => exact .of_leads (.of_pending h log) (ih hstops)

theorem stops_of_ended (h : Asked stage.ask input .ended next) (log : Log σ) :
    stage.Stops (⟨input, [], none, false⟩, log) .ended (⟨next, [], none, true⟩, log.pulled) :=
  .of_asked h fun _ hask => .of_poll (fun steps => by rw [poll_input, hask]) nofun

theorem stops_of_error {error : PipeError} (h : Asked stage.ask input (.answer (.error error)) next)
    (log : Log σ) :
    stage.Stops (⟨input, [], none, false⟩, log) (.answer (.error error))
      (⟨next, [], none, false⟩, log.pulled) :=
  .of_asked h fun _ hask => .of_poll (fun steps => by rw [poll_input, hask]) nofun

theorem leads_of_ok {item : Record} (h : Asked stage.ask input (.answer (.ok item)) next)
    (log : Log σ) :
    stage.Leads (⟨input, [], none, false⟩, log)
      (⟨next, [], some (.inl item), item.isSentinel⟩, log.pulled) :=
  .of_asked h fun _ hask => .of_go fun steps => by rw [poll_input, hask]

theorem leads_of_worked {job : ω} {state later : σ} {batch : Batch}
    (h : Worked stage.resume job state batch later) (input : ι) (last : Bool) (log : Log σ) :
    stage.Leads (⟨input, [], some (.inr job), last⟩, { log with state })
      (⟨input, Batches.answersOf batch, none, last⟩, { log with state := later }) := by
  induction h with
  | finished h => exact .of_go fun steps => by simp only [poll_job, h]
  | again h _ ih =>
      refine Leads.trans (.of_wait fun steps => ?_) ih
      simp only [poll_job, h]

/-- The work on a record comes to its batch. -/
theorem leads_of_call (input : ι) (item : Record) (last : Bool) (log : Log σ) :
    stage.Leads (⟨input, [], some (.inl item), last⟩, log)
      (⟨input, Batches.answersOf ((make item).run log.state).1, none, last⟩,
        { log with state := ((make item).run log.state).2, calls := log.calls ++ [item] }) := by
  cases stage.makes item log.state with
  | finished h => exact .of_go fun steps => by simp only [poll_call, poll_job, h]
  | again h hrest =>
      refine Leads.trans (.of_wait fun steps => ?_)
        (leads_of_worked hrest input last { log with calls := log.calls ++ [item] })
      simp only [poll_call, poll_job, h]

end Steps

end Batching

end Pipework
