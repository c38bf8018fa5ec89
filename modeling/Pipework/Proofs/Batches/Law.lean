import Pipework.Proofs.Batches.Waiting

/-! # The law of batches

A stage that gives batches gives what comes of its input, one answer after the other, and ends when
all that is to come has come. How often it has to wait makes no difference to that. It takes no more
from the input than it needs for its answers, calls the batch function once on each record that it
takes, and takes nothing behind a record with the key of the sentinel.
-/

namespace Pipework

open Stream' (Seq)

open Answer (Over Takes)

namespace Batching

variable {σ ι ω : Type} {items : Seq Answer} {make : Record → StateM σ Batch}

/-- The log when so many answers of the input have been taken: the batch function has been called
once on each of the records among them. -/
def logAfter (items : Seq Answer) (make : Record → StateM σ Batch) (state : σ) (count : ℕ) : Log σ :=
  { state := Batches.stateAfter make items state count
    calls := (Answer.taken items count).filterMap Except.toOption
    pulls := count }

theorem logAfter_succ_of_error {state : σ} {count : ℕ} (hover : ¬ Over items count)
    {error : PipeError} (hanswer : items.get? count = some (.error error)) :
    logAfter items make state (count + 1) = (logAfter items make state count).pulled := by
  rw [logAfter, Batches.stateAfter_succ_of_error hover hanswer,
    Answer.taken_succ_of_not_over hover hanswer, List.filterMap_append]
  simp [Log.pulled, logAfter, Except.toOption]

theorem logAfter_succ_of_ok {state : σ} {count : ℕ} (hover : ¬ Over items count) {item : Record}
    (hanswer : items.get? count = some (.ok item)) :
    logAfter items make state (count + 1) =
      { (logAfter items make state count).pulled with
        state := ((make item).run (logAfter items make state count).state).2
        calls := (logAfter items make state count).calls ++ [item] } := by
  rw [logAfter, Batches.stateAfter_succ_of_ok hover hanswer,
    Answer.taken_succ_of_not_over hover hanswer, List.filterMap_append]
  simp [Log.pulled, logAfter, Except.toOption]

variable (stage : Batching σ ι ω items make) (state : σ)

/-- The stage when so many answers of its input have been taken and some answers wait. -/
def rest (count : ℕ) (queue : List Answer) : Config σ ι ω :=
  (⟨stage.source count, queue, none, Answer.hasKey (items.take count)⟩,
    logAfter items make state count)

/-- The stage when its input has ended after so many answers. -/
def shut (count : ℕ) : Config σ ι ω :=
  (⟨stage.source (count + 1), [], none, true⟩, (logAfter items make state count).pulled)

variable {stage state} {count : ℕ} {queue : List Answer}

theorem start_eq : stage.start state = stage.rest state 0 [] := by
  simp [start, rest, logAfter, Batches.start, Batches.stateAfter_zero, Answer.hasKey]

theorem rest_eq_of_not_over (hover : ¬ Over items count) : stage.rest state count queue =
    (⟨stage.source count, queue, none, false⟩, logAfter items make state count) := by
  rw [rest, Answer.hasKey_take_of_not_over hover]

theorem stops_of_cons (answer : Answer) : stage.Stops (stage.rest state count (answer :: queue))
    (.answer answer) (stage.rest state count queue) :=
  stops_queue stage _ queue none _ _

theorem stops_of_hasKey (hkey : Answer.hasKey (items.take count) = true) :
    stage.Stops (stage.rest state count []) .ended (stage.rest state count []) := by
  rw [rest, hkey]
  exact stops_last stage _ _

theorem stops_of_none (htakes : Takes items count) (hkey : Answer.hasKey (items.take count) = false)
    (hnone : items.get? count = none) :
    stage.Stops (stage.rest state count []) .ended (stage.shut state count) := by
  have hasked := stage.feeds count htakes hkey
  rw [hnone] at hasked
  rw [rest, hkey]
  exact stops_of_ended hasked _

theorem stops_of_get?_error (htakes : Takes items count) (hover : ¬ Over items count)
    {error : PipeError} (hanswer : items.get? count = some (.error error)) :
    stage.Stops (stage.rest state count []) (.answer (.error error))
      (stage.rest state (count + 1) []) := by
  have hasked := stage.feeds count htakes (Answer.hasKey_take_of_not_over hover)
  rw [hanswer] at hasked
  rw [rest_eq_of_not_over hover, rest, Answer.hasKey_take_succ hover hanswer,
    logAfter_succ_of_error hover hanswer]
  exact stops_of_error hasked _

theorem leads_of_get?_ok (htakes : Takes items count) (hover : ¬ Over items count) {item : Record}
    (hanswer : items.get? count = some (.ok item)) :
    stage.Leads (stage.rest state count []) (stage.rest state (count + 1)
      (Batches.answersOf ((make item).run (Batches.stateAfter make items state count)).1)) := by
  have hasked := stage.feeds count htakes (Answer.hasKey_take_of_not_over hover)
  rw [hanswer] at hasked
  rw [rest_eq_of_not_over hover, rest, Answer.hasKey_take_succ hover hanswer,
    logAfter_succ_of_ok hover hanswer]
  exact (leads_of_ok hasked _).trans (leads_of_call ..)

/-- What pulling a stage comes to of which some answers have been given: the next answer that is to
come, or else the end. -/
inductive Next (stage : Batching σ ι ω items make) (state : σ) (answers : List Answer) :
    Poll → Config σ ι ω → Prop
  | answer {count : ℕ} {answer : Answer} {queue : List Answer} (htakes : Takes items count)
      (hdue : Batches.due make items state count = answers ++ answer :: queue)
      (hfewer : ∀ fewer < count, (Batches.due make items state fewer).length ≤ answers.length) :
      Next stage state answers (.answer answer) (stage.rest state count queue)
  | key {count : ℕ} (htakes : Takes items count) (hkey : Answer.hasKey (items.take count) = true)
      (hdue : Batches.due make items state count = answers) :
      Next stage state answers .ended (stage.rest state count [])
  | ended {count : ℕ} (htakes : Takes items count)
      (hkey : Answer.hasKey (items.take count) = false) (hnone : items.get? count = none)
      (hdue : Batches.due make items state count = answers) :
      Next stage state answers .ended (stage.shut state count)

theorem next_of_over {answers : List Answer} {poll : Poll} {after : Config σ ι ω} {steps : ℕ}
    (hpull : stage.Pulls steps (stage.rest state count []) poll after) (htakes : Takes items count)
    (hover : Over items count) (hdue : Batches.due make items state count = answers) :
    stage.Next state answers poll after := by
  cases hkey : Answer.hasKey (items.take count) with
  | true =>
      obtain ⟨rfl, rfl⟩ := (stops_of_hasKey hkey _ _).mp ⟨steps, hpull⟩
      exact .key htakes hkey hdue
  | false =>
      have hnone : items.get? count = none := hover.resolve_right (Bool.eq_false_iff.mp hkey)
      obtain ⟨rfl, rfl⟩ := (stops_of_none htakes hkey hnone _ _).mp ⟨steps, hpull⟩
      exact .ended htakes hkey hnone hdue

/-- Pulling comes to what is next. The induction is on the steps, since any number of records may
have empty batches. -/
theorem next_of_pulls {answers : List Answer} {poll : Poll} {after : Config σ ι ω} {steps : ℕ}
    (hpull : stage.Pulls steps (stage.rest state count queue) poll after)
    (htakes : Takes items count) (hdue : Batches.due make items state count = answers ++ queue)
    (hfewer : ∀ fewer < count, (Batches.due make items state fewer).length ≤ answers.length) :
    stage.Next state answers poll after := by
  induction steps using Nat.strong_induction_on generalizing count queue with
  | _ steps ih =>
  cases queue with
  | cons answer queue =>
      obtain ⟨rfl, rfl⟩ := (stops_of_cons answer _ _).mp ⟨steps, hpull⟩
      exact .answer htakes hdue hfewer
  | nil =>
      rw [List.append_nil] at hdue
      by_cases hover : Over items count
      · exact next_of_over hpull htakes hover hdue
      · have hnext : ∀ fewer < count + 1,
            (Batches.due make items state fewer).length ≤ answers.length := by
          intro fewer hlt
          rw [← hdue]
          exact (Batches.due_grows (Nat.le_of_lt_succ hlt)).length_le
        obtain ⟨answer, hanswer⟩ := Answer.exists_of_not_over hover
        cases answer with
        | error error =>
            obtain ⟨rfl, rfl⟩ :=
              (stops_of_get?_error htakes hover hanswer _ _).mp ⟨steps, hpull⟩
            refine .answer (htakes.succ hover) ?_ hnext
            rw [Batches.due_succ_of_error hover hanswer, hdue]
        | ok item =>
            obtain ⟨fewer, hlt, hpull⟩ := (leads_of_get?_ok htakes hover hanswer).sooner hpull
            refine ih fewer hlt hpull (htakes.succ hover) ?_ hnext
            rw [Batches.due_succ_of_ok hover hanswer, hdue]

theorem exists_pulls_of_over (htakes : Takes items count) (hover : Over items count) :
    ∃ steps poll after, stage.Pulls steps (stage.rest state count []) poll after := by
  cases hkey : Answer.hasKey (items.take count) with
  | true => exact (stops_of_hasKey hkey).exists_pulls
  | false =>
      exact (stops_of_none htakes hkey
        (hover.resolve_right (Bool.eq_false_iff.mp hkey))).exists_pulls

/-- Pulling comes to something if more is to come or the input is over at some time. The induction is
on how far away that is. -/
theorem exists_pulls {answers : List Answer} (distance : ℕ) (htakes : Takes items count)
    (hdue : Batches.due make items state count = answers ++ queue)
    (hmore : answers.length < (Batches.due make items state (count + distance)).length ∨
      Over items (count + distance)) :
    ∃ steps poll after, stage.Pulls steps (stage.rest state count queue) poll after := by
  induction distance generalizing count queue with
  | zero =>
      cases queue with
      | cons answer queue => exact (stops_of_cons answer).exists_pulls
      | nil =>
          rw [List.append_nil] at hdue
          rw [Nat.add_zero, hdue] at hmore
          exact exists_pulls_of_over htakes (hmore.resolve_left (lt_irrefl _))
  | succ distance ih =>
      cases queue with
      | cons answer queue => exact (stops_of_cons answer).exists_pulls
      | nil =>
          rw [List.append_nil] at hdue
          by_cases hover : Over items count
          · exact exists_pulls_of_over htakes hover
          obtain ⟨answer, hanswer⟩ := Answer.exists_of_not_over hover
          cases answer with
          | error error => exact (stops_of_get?_error htakes hover hanswer).exists_pulls
          | ok item =>
              rw [← Nat.add_assoc, Nat.add_right_comm] at hmore
              obtain ⟨steps, poll, after, hpull⟩ := ih (htakes.succ hover)
                (by rw [Batches.due_succ_of_ok hover hanswer, hdue]) hmore
              obtain ⟨more, hpull⟩ := (leads_of_get?_ok htakes hover hanswer).later hpull
              exact ⟨more, poll, after, hpull⟩

/-- A stage of which some answers have been given has taken as much as was needed for them. -/
inductive Stands (stage : Batching σ ι ω items make) (state : σ) (answers : List Answer) :
    Config σ ι ω → Prop
  | rest {count : ℕ} {queue : List Answer} (htakes : Takes items count)
      (hdue : Batches.due make items state count = answers ++ queue)
      (hfewer : ∀ fewer < count, (Batches.due make items state fewer).length < answers.length) :
      Stands stage state answers (stage.rest state count queue)

namespace Stands

variable {answers : List Answer} {reached after : Config σ ι ω} {steps : ℕ} {poll : Poll}

theorem next (h : stage.Stands state answers reached) (hpull : stage.Pulls steps reached poll after) :
    stage.Next state answers poll after := by
  obtain ⟨htakes, hdue, hfewer⟩ := h
  exact next_of_pulls hpull htakes hdue fun fewer hlt => (hfewer fewer hlt).le

theorem of_gives (h : stage.Gives state answers reached) : stage.Stands state answers reached := by
  induction h with
  | start =>
      rw [start_eq]
      exact .rest (fun _ hlt => absurd hlt (Nat.not_lt_zero _)) Batches.due_zero
        (fun _ hlt => absurd hlt (Nat.not_lt_zero _))
  | answer _ hpull ih =>
      obtain ⟨htakes, hdue, hfewer⟩ := ih.next hpull
      refine .rest htakes (by rw [hdue, List.append_assoc]; rfl) fun fewer hlt => ?_
      rw [List.length_append]
      exact Nat.lt_succ_of_le (hfewer fewer hlt)

theorem exists_next (h : stage.Stands state answers reached) {count : ℕ}
    (hmore : answers.length < (Batches.due make items state count).length ∨ Over items count) :
    ∃ steps poll after, stage.Pulls steps reached poll after ∧ stage.Next state answers poll after := by
  have hpulls : ∃ steps poll after, stage.Pulls steps reached poll after := by
    obtain ⟨htakes, hdue, _⟩ := h
    exact exists_pulls count htakes hdue <|
      hmore.imp (fun hlt => hlt.trans_le (Batches.due_grows (Nat.le_add_left ..)).length_le)
        fun hover => Answer.over_of_le hover (Nat.le_add_left ..)
  obtain ⟨steps, poll, after, hpull⟩ := hpulls
  exact ⟨steps, poll, after, hpull, h.next hpull⟩

end Stands

theorem exists_gives {answers : List Answer} (hbegins : answers <+: Batches.due make items state count) :
    ∃ reached, stage.Gives state answers reached := by
  induction answers using List.reverseRecOn with
  | nil => exact ⟨_, .start⟩
  | append_singleton answers answer ih =>
      obtain ⟨middle, hgives⟩ := ih ((List.prefix_append ..).trans hbegins)
      have hlength := hbegins.length_le
      rw [List.length_append, List.length_singleton] at hlength
      obtain ⟨steps, poll, after, hpull, hnext⟩ := (Stands.of_gives hgives).exists_next (.inl hlength)
      cases hnext with
      | @answer reached other queue _ hdue _ =>
          -- Both are the answer behind those given in all that is to come.
          have hother : answers ++ [other] <+: Batches.due make items state reached :=
            ⟨queue, by rw [hdue, List.append_assoc]; rfl⟩
          have hsame : answers ++ [answer] = answers ++ [other] := by
            refine (List.prefix_of_prefix_length_le
              (hbegins.trans (Batches.due_grows (Nat.le_max_left count reached)))
              (hother.trans (Batches.due_grows (Nat.le_max_right count reached))) ?_).eq_of_length ?_
            <;> simp
          rw [hsame]
          exact ⟨_, .answer hgives hpull⟩
      | key _ hkey hdue =>
          have hle := Batches.length_due_le_of_over hdue (.inr hkey) count
          omega
      | ended _ _ hnone hdue =>
          have hle := Batches.length_due_le_of_over hdue (.inl hnone) count
          omega

/-- The stage gives answers and ends. -/
def EndsAfter (stage : Batching σ ι ω items make) (state : σ) (answers : List Answer) : Prop :=
  ∃ reached steps after, stage.Gives state answers reached ∧ stage.Pulls steps reached .ended after

/-- No more has been taken from the input than is needed for the answers. The batch function has been
called once on each record taken, in order. -/
def Frugal (stage : Batching σ ι ω items make) (state : σ) (answers : List Answer)
    (reached : Config σ ι ω) : Prop :=
  ∃ count, answers <+: Batches.due make items state count ∧
    (∀ fewer < count, ¬ answers <+: Batches.due make items state fewer) ∧
    reached.1.input = stage.source count ∧ reached.2 = logAfter items make state count

/-- The input has been taken up to the first record with the key, and stands right behind it, or else
up to its own end. From then on nothing is asked of it. -/
def Closed (stage : Batching σ ι ω items make) (state : σ) (after : Config σ ι ω) : Prop :=
  (∃ count, Takes items count ∧
    (Answer.hasKey (items.take count) = true ∧ after.1.input = stage.source count ∧
        after.2 = logAfter items make state count ∨
      Answer.hasKey (items.take count) = false ∧ items.get? count = none ∧
        after.2 = (logAfter items make state count).pulled)) ∧
  ∀ {steps poll last}, stage.Pulls steps after poll last → last = after

/-- What a stage that gives batches owes to whoever pulls it. -/
structure Lawful (stage : Batching σ ι ω items make) (state : σ) : Prop where
  /-- It gives what comes of its input, from the beginning and in order, all of it and nothing
  else. -/
  gives : ∀ answers, (∃ reached, stage.Gives state answers reached) ↔
    ∃ count, answers <+: Batches.due make items state count
  /-- It ends when all has come that is to come, and at no other time. -/
  ends : ∀ answers, stage.EndsAfter state answers ↔
    ∃ count, Over items count ∧ answers = Batches.due make items state count
  frugal : ∀ {answers reached}, stage.Gives state answers reached →
    stage.Frugal state answers reached
  closed : ∀ {answers reached steps after}, stage.Gives state answers reached →
    stage.Pulls steps reached .ended after → stage.Closed state after

section Law

variable {answers : List Answer} {reached after : Config σ ι ω} {steps : ℕ}

theorem endsAfter_iff : stage.EndsAfter state answers ↔
    ∃ count, Over items count ∧ answers = Batches.due make items state count := by
  constructor
  · rintro ⟨reached, steps, after, hgives, hpull⟩
    cases (Stands.of_gives hgives).next hpull with
    | key _ hkey hdue => exact ⟨_, .inr hkey, hdue.symm⟩
    | ended _ _ hnone hdue => exact ⟨_, .inl hnone, hdue.symm⟩
  · rintro ⟨count, hover, hdue⟩
    have hbegins : answers <+: Batches.due make items state count := by rw [hdue]
    obtain ⟨reached, hgives⟩ : ∃ reached, stage.Gives state answers reached := exists_gives hbegins
    obtain ⟨steps, poll, after, hpull, hnext⟩ :=
      (Stands.of_gives hgives).exists_next (.inr hover)
    cases hnext with
    | @answer other _ _ _ hmore _ =>
        have hle := Batches.length_due_le_of_over hdue.symm hover other
        rw [hmore, List.length_append, List.length_cons] at hle
        omega
    | key => exact ⟨_, _, _, hgives, hpull⟩
    | ended => exact ⟨_, _, _, hgives, hpull⟩

theorem Stands.frugal (h : stage.Stands state answers reached) :
    stage.Frugal state answers reached := by
  obtain ⟨htakes, hdue, hfewer⟩ := h
  refine ⟨_, ⟨_, hdue.symm⟩, fun fewer hlt hbegins => ?_, rfl, rfl⟩
  exact absurd hbegins.length_le (Nat.not_le_of_lt (hfewer fewer hlt))

theorem Next.closed (h : stage.Next state answers .ended after) : stage.Closed state after := by
  cases h with
  | key htakes hkey _ =>
      exact ⟨⟨_, htakes, .inl ⟨hkey, rfl, rfl⟩⟩,
        fun hpull => ((stops_of_hasKey hkey _ _).mp ⟨_, hpull⟩).2⟩
  | ended htakes hkey hnone _ =>
      exact ⟨⟨_, htakes, .inr ⟨hkey, hnone, rfl⟩⟩,
        fun hpull => ((stops_last stage _ _ _ _).mp ⟨_, hpull⟩).2⟩

theorem gives_iff : (∃ reached, stage.Gives state answers reached) ↔
    ∃ count, answers <+: Batches.due make items state count := by
  constructor
  · rintro ⟨reached, hgives⟩
    obtain ⟨count, hbegins, _⟩ := (Stands.of_gives hgives).frugal
    exact ⟨count, hbegins⟩
  · rintro ⟨count, hbegins⟩
    exact exists_gives hbegins

end Law

/-- A stage that gives batches is lawful, whatever its input and its batch function are and however
often it has to wait for them. So it gives the same answers as a stage that never waits, and ends
after the same. -/
theorem batches_lawful (stage : Batching σ ι ω items make) (state : σ) :
    stage.Lawful state ∧ ∀ answers,
      ((∃ reached, stage.Gives state answers reached) ↔
        ∃ reached, (sync items make).Gives state answers reached) ∧
      (stage.EndsAfter state answers ↔ (sync items make).EndsAfter state answers) where
  left :=
    { gives := fun _ => gives_iff
      ends := fun _ => endsAfter_iff
      frugal := fun hgives => (Stands.of_gives hgives).frugal
      closed := fun hgives hpull => ((Stands.of_gives hgives).next hpull).closed }
  right _ := ⟨gives_iff.trans gives_iff.symm, endsAfter_iff.trans endsAfter_iff.symm⟩

/-- An input without end, in which there is an error and then a record with the key. -/
def endless : Seq Answer :=
  .ofStream fun
    | 1 => .error .emptyPipe
    | 2 => .ok Record.sentinel
    | _ => .ok .empty

/-- A batch function that repeats a record as often as it was called before. -/
def repeating (item : Record) : StateM ℕ Batch := do
  let calls ← getModify (· + 1)
  return .ok (List.replicate calls item)

/-- The first batch is empty, and the records behind the key are left alone, whether there is waiting
or not. -/
theorem batches_lawful_of_endless :
    (paced endless repeating (fun count => count) (fun _ => 2)).EndsAfter 0
        [.error .emptyPipe, .ok Record.sentinel] ∧
      (sync endless repeating).EndsAfter 0 [.error .emptyPipe, .ok Record.sentinel] := by
  obtain ⟨hlawful, hsame⟩ :=
    batches_lawful (paced endless repeating (fun count => count) (fun _ => 2)) 0
  have hends := (hlawful.ends [.error .emptyPipe, .ok Record.sentinel]).mpr ⟨3, .inr rfl, rfl⟩
  exact ⟨hends, (hsame _).2.mp hends⟩

end Batching

end Pipework
