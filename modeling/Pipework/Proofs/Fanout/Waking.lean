import Pipework.Proofs.Fanout.Partition

/-! # Who is woken by a fan-out

An upstream remembers only who asked it last, so consumers that wait rely on one another. A vigil
follows a fan-out and notes who sleeps: whose latest poll had to wait and who has not been woken
since, by the upstream or by another consumer. Whoever takes a record or the end from the upstream
wakes all others that sleep. So does whoever takes an error from a shared stage; an error of a
split wakes nobody.
-/

namespace Pipework

namespace Fork

variable {υ : Type}

/-- Whether a branch asks to be woken. -/
def asks (fork : Fork υ) (branch : Nat) : Bool :=
  fork.waiting[branch]?.getD false

theorem mem_sleepers {fork : Fork υ} {waker branch : Nat} :
    branch ∈ fork.sleepers waker ↔ branch ≠ waker ∧ fork.asks branch = true := by
  simp only [sleepers, asks, List.mem_filter, List.mem_range, Bool.and_eq_true, bne_iff_ne]
  constructor
  · exact And.right
  · rintro ⟨hne, hasks⟩
    refine ⟨?_, hne, hasks⟩
    by_contra hge
    rw [List.getElem?_eq_none (Nat.le_of_not_lt hge)] at hasks
    cases hasks

/-- So many branches have been handed out, and each has a place to ask to be woken. -/
structure Seated (handles : Nat) (fork : Fork υ) : Prop where
  handedOut : fork.handedOut = handles
  le_branches : handles ≤ fork.branches
  waiting : fork.waiting.length = fork.branches

namespace Seated

variable {handles : Nat} {fork next : Fork υ}

theorem start (id : ModuleId) (upstream : υ) (branches : Nat) :
    Seated 0 (Fork.start id upstream branches) where
  handedOut := rfl
  le_branches := Nat.zero_le _
  waiting := by simp [Fork.start, Fork.branches]

/-- The places stay if no operation gives out or takes away one. -/
theorem keep (h : Seated handles fork) (hhanded : next.handedOut = fork.handedOut)
    (hbuffers : next.buffers.length = fork.buffers.length)
    (hwaiting : next.waiting.length = fork.waiting.length) : Seated handles next where
  handedOut := hhanded.trans h.handedOut
  le_branches := h.le_branches.trans_eq hbuffers.symm
  waiting := hwaiting.trans (h.waiting.trans hbuffers.symm)

theorem attach (h : Seated handles fork) {branch : Nat}
    (hattach : fork.attach = .ok (branch, next)) : Seated (handles + 1) next := by
  unfold Fork.attach at hattach
  split at hattach
  next hlt =>
    cases hattach
    exact ⟨congrArg (· + 1) h.handedOut, h.handedOut ▸ hlt, h.waiting⟩
  next => cases hattach

theorem settle (h : Seated handles fork) (branch : Nat) (poll : Poll) :
    Seated handles (fork.settle branch poll).fork := by
  cases poll with
  | pending => exact h.keep rfl rfl List.length_set
  | ended => exact h.keep rfl rfl List.length_mapIdx
  | answer answer =>
      cases answer with
      | error error => exact h
      | ok record => exact h.keep rfl List.length_mapIdx List.length_mapIdx

theorem poll {answers : Nat → Poll} {fork : Fork Nat} (h : Seated handles fork) (branch : Nat) :
    Seated handles (fork.poll (m := Id) (Poll.ofSequence answers) branch : Outcome Nat).fork := by
  have hdraw : Seated handles
      (if fork.dry then ⟨.ended, [], fork⟩
        else { fork with upstream := fork.upstream + 1 }.settle branch
          (answers fork.upstream) : Outcome Nat).fork := by
    split
    · exact h
    · have hfurther : Seated handles { fork with upstream := fork.upstream + 1 } :=
        h.keep rfl rfl rfl
      exact settle hfurther ..
  unfold Fork.poll
  split
  · exact h.keep rfl List.length_set rfl
  · exact hdraw

theorem drop (h : Seated handles fork) (branch : Nat) :
    Seated handles (fork.drop branch).2 := by
  refine h.keep rfl List.length_set ?_
  simp [Fork.drop, rouse]

theorem close (h : Seated handles fork) : Seated handles fork.close :=
  h.keep rfl List.length_mapIdx rfl

end Seated

end Fork

namespace Fanout

namespace Source

variable {υ : Type}

/-- Whether a handle asks to be woken. -/
def waits (handle : Nat) : Source υ → Bool
  | fork held => held.asks handle
  | tap held => held.waiting.contains handle

/-- Whether the source is a split. -/
def isFork : Source υ → Bool
  | fork _ => true
  | tap _ => false

/-- So many handles have been given out, and each has a place to ask to be woken. -/
def Seats (handles : Nat) : Source υ → Prop
  | fork held => held.Seated handles
  | tap _ => True

end Source

/-- How asking on behalf of a handle comes out: what it is told, who is woken by it, and what is
left of the fan-out. -/
inductive Asked (consumers : Consumers Nat) (handle : Nat) :
    Poll → List Nat → Consumers Nat → Prop
  /-- The upstream is left alone. -/
  | told {poll : Poll} {next : Consumers Nat} (hready : poll ≠ .pending)
      (hposition : next.position = consumers.position)
      (hwaits : ∀ other, next.source.waits other = consumers.source.waits other) :
      Asked consumers handle poll [] next
  /-- The upstream has to be waited for. -/
  | waited {next : Consumers Nat} (hself : next.source.waits handle = true)
      (hwaits : ∀ other, consumers.source.waits other = true → next.source.waits other = true) :
      Asked consumers handle .pending [] next
  /-- The upstream has given something, and the others that wait are woken. -/
  | woke {poll : Poll} {woken : List Nat} {next : Consumers Nat} (hready : poll ≠ .pending)
      (hposition : next.position = consumers.position + 1)
      (herror : consumers.source.isFork = true → poll.error? = none)
      (hwoken : ∀ other, other ≠ handle → consumers.source.waits other = true → other ∈ woken) :
      Asked consumers handle poll woken next
  /-- The upstream of a split has given an error. -/
  | missed {error : PipeError} {next : Consumers Nat} (hfork : consumers.source.isFork = true)
      (hposition : next.position = consumers.position + 1)
      (hwaits : ∀ other, next.source.waits other = consumers.source.waits other) :
      Asked consumers handle (.answer (.error error)) [] next

namespace Consumers

variable {consumers : Consumers Nat} {handle : Nat}

/-- Asking the upstream of a split on behalf of a branch. -/
theorem asked_settle_fork {fork : Fork Nat} (hsource : consumers.source = .fork fork)
    (hplace : handle < fork.waiting.length) (poll : Poll) :
    let outcome := { fork with upstream := fork.upstream + 1 }.settle handle poll
    Asked consumers handle outcome.poll outcome.woken
      { consumers with source := .fork outcome.fork } := by
  have hposition : consumers.position = fork.upstream := by simp only [position, hsource]
  have hwoken (other : Nat) (hne : other ≠ handle) (hother : consumers.source.waits other = true) :
      other ∈ fork.sleepers handle := by
    rw [hsource] at hother
    exact Fork.mem_sleepers.mpr ⟨hne, hother⟩
  cases poll with
  | pending =>
      refine .waited ?_ fun other hother => ?_
      · simp [Source.waits, Fork.settle, Fork.asks, hplace]
      · rw [hsource] at hother
        simp only [Source.waits, Fork.settle, Fork.asks, List.getElem?_set] at hother ⊢
        split
        · rfl
        · exact hother
  | ended => exact .woke (by simp [Fork.settle]) (by rw [hposition]; rfl) (fun _ => rfl) hwoken
  | answer answer =>
      cases answer with
      | error error =>
          refine .missed (by rw [hsource]; rfl) (by rw [hposition]; rfl) fun other => ?_
          rw [hsource]
          rfl
      | ok record =>
          exact .woke (by simp [Fork.settle]) (by rw [hposition]; rfl) (fun _ => rfl) hwoken

/-- Asking the upstream of a shared stage on behalf of a consumer. -/
theorem asked_settle_tap {tap : Tap Nat} (hsource : consumers.source = .tap tap) (poll : Poll) :
    let outcome := { tap with upstream := tap.upstream + 1 }.settle handle poll
    Asked consumers handle outcome.poll outcome.woken
      { consumers with source := .tap outcome.tap } := by
  have hposition : consumers.position = tap.upstream := by simp only [position, hsource]
  have hwoken (other : Nat) (_ : other ≠ handle) (hother : consumers.source.waits other = true) :
      other ∈ tap.waiting := by
    rw [hsource] at hother
    simpa [Source.waits] using hother
  have hnofork (hfork : consumers.source.isFork = true) : poll.error? = none := by
    rw [hsource] at hfork
    cases hfork
  cases poll with
  | pending =>
      simp only [Tap.settle]
      by_cases hmem : tap.waiting.contains handle = true
      · simp only [hmem, if_true]
        refine .waited hmem fun other hother => ?_
        rw [hsource] at hother
        exact hother
      · simp only [hmem, Bool.false_eq_true, if_false]
        refine .waited (by simp [Source.waits]) fun other hother => ?_
        rw [hsource] at hother
        simp only [Source.waits, List.contains_iff_mem] at hother ⊢
        exact List.mem_append_left _ hother
  | ended => exact .woke (by simp [Tap.settle]) (by rw [hposition]; rfl) hnofork hwoken
  | answer answer => exact .woke (by simp [Tap.settle]) (by rw [hposition]; rfl) hnofork hwoken

theorem pull_fork (answers : Nat → Poll) {fork : Fork Nat} (hlive : consumers.isLive handle = true)
    (hsource : consumers.source = .fork fork) :
    consumers.pull (m := Id) (Poll.ofSequence answers) handle =
      let outcome : Fork.Outcome Nat := fork.poll (m := Id) (Poll.ofSequence answers) handle
      ⟨.polled outcome.poll, outcome.woken, { consumers with source := .fork outcome.fork }⟩ := by
  simp only [pull, hlive, if_true, hsource]
  rfl

theorem pull_tap (answers : Nat → Poll) {tap : Tap Nat} (hlive : consumers.isLive handle = true)
    (hsource : consumers.source = .tap tap) :
    consumers.pull (m := Id) (Poll.ofSequence answers) handle =
      let outcome : Tap.Outcome Nat := tap.poll (m := Id) (Poll.ofSequence answers) handle
      ⟨.polled outcome.poll, outcome.woken, { consumers with source := .tap outcome.tap }⟩ := by
  simp only [pull, hlive, if_true, hsource]
  rfl

theorem asked_poll_fork (answers : Nat → Poll) {fork : Fork Nat}
    (hsource : consumers.source = .fork fork) (hplace : handle < fork.waiting.length) :
    let outcome : Fork.Outcome Nat := fork.poll (m := Id) (Poll.ofSequence answers) handle
    Asked consumers handle outcome.poll outcome.woken
      { consumers with source := .fork outcome.fork } := by
  have hdraw (hpoll : fork.poll (m := Id) (Poll.ofSequence answers) handle =
      if fork.dry then ⟨.ended, [], fork⟩
      else { fork with upstream := fork.upstream + 1 }.settle handle (answers fork.upstream)) :
      let outcome : Fork.Outcome Nat := fork.poll (m := Id) (Poll.ofSequence answers) handle
      Asked consumers handle outcome.poll outcome.woken
        { consumers with source := .fork outcome.fork } := by
    rw [hpoll]
    split
    · refine .told (by simp) (by simp only [position, hsource]) fun other => ?_
      rw [hsource]
    · exact asked_settle_fork hsource hplace (answers fork.upstream)
  cases hbuffer : fork.buffer? handle with
  | none =>
      apply hdraw
      simp only [Fork.poll, hbuffer]
      rfl
  | some buffer =>
      cases buffer with
      | nil =>
          apply hdraw
          simp only [Fork.poll, hbuffer]
          rfl
      | cons record rest =>
          have hpoll : fork.poll (m := Id) (Poll.ofSequence answers) handle =
              (⟨.ofRecord record, [],
                { fork with buffers := fork.buffers.set handle (some rest) }⟩ :
                Fork.Outcome Nat) := by
            simp only [Fork.poll, hbuffer]
            rfl
          rw [hpoll]
          refine .told (by simp [Poll.ofRecord]) (by simp only [position, hsource]) fun other => ?_
          rw [hsource]
          rfl

theorem asked_poll_tap (answers : Nat → Poll) {tap : Tap Nat}
    (hsource : consumers.source = .tap tap) :
    let outcome : Tap.Outcome Nat := tap.poll (m := Id) (Poll.ofSequence answers) handle
    Asked consumers handle outcome.poll outcome.woken
      { consumers with source := .tap outcome.tap } := by
  have hpoll : tap.poll (m := Id) (Poll.ofSequence answers) handle =
      if tap.dry then ⟨.ended, [], tap⟩
      else { tap with upstream := tap.upstream + 1 }.settle handle (answers tap.upstream) := rfl
  rw [hpoll]
  split
  · refine .told (by simp) (by simp only [position, hsource]) fun other => ?_
    rw [hsource]
  · exact asked_settle_tap hsource (answers tap.upstream)

theorem lt_length_of_isLive (hlive : consumers.isLive handle = true) :
    handle < consumers.handles.length := by
  by_contra hge
  rw [isLive, List.getElem?_eq_none (Nat.le_of_not_lt hge)] at hlive
  cases hlive

/-- A consumer that is there is told something in one of the four ways. -/
theorem pull_asked (answers : Nat → Poll) (hlive : consumers.isLive handle = true)
    (hseats : consumers.source.Seats consumers.handles.length) :
    let result : Result Nat := consumers.pull (m := Id) (Poll.ofSequence answers) handle
    ∃ poll, result.reply = .polled poll ∧
      Asked consumers handle poll result.woken result.consumers := by
  cases hsource : consumers.source with
  | tap tap =>
      rw [pull_tap answers hlive hsource]
      exact ⟨_, rfl, asked_poll_tap answers hsource⟩
  | fork fork =>
      rw [hsource] at hseats
      have hplace : handle < fork.waiting.length := by
        rw [hseats.waiting]
        exact Nat.lt_of_lt_of_le (lt_length_of_isLive hlive) hseats.le_branches
      rw [pull_fork answers hlive hsource]
      exact ⟨_, rfl, asked_poll_fork answers hsource hplace⟩

theorem seats_attach (hseats : consumers.source.Seats consumers.handles.length) :
    consumers.attach.consumers.source.Seats consumers.attach.consumers.handles.length := by
  cases hasSource : consumers.hasSource with
  | false => simpa [attach, hasSource] using hseats
  | true =>
      cases hsource : consumers.source with
      | tap tap => simp [attach, hsource, hasSource, Source.Seats]
      | fork fork =>
          rw [hsource] at hseats
          simp only [attach, hasSource, if_true, hsource]
          cases hattach : fork.attach with
          | error error =>
              simp only [hsource]
              exact hseats
          | ok joined =>
              simp only [List.length_append, List.length_singleton]
              exact Fork.Seated.attach hseats hattach

theorem seats_pull (answers : Nat → Poll) (handle : Nat)
    (hseats : consumers.source.Seats consumers.handles.length) :
    let result : Result Nat := consumers.pull (m := Id) (Poll.ofSequence answers) handle
    result.consumers.source.Seats result.consumers.handles.length := by
  cases hlive : consumers.isLive handle with
  | false =>
      simp only [pull, hlive, Bool.false_eq_true, if_false]
      exact hseats
  | true =>
      cases hsource : consumers.source with
      | tap tap =>
          rw [pull_tap answers hlive hsource]
          trivial
      | fork fork =>
          rw [hsource] at hseats
          rw [pull_fork answers hlive hsource]
          exact Fork.Seated.poll hseats handle

theorem seats_drop (handle : Nat) (hseats : consumers.source.Seats consumers.handles.length) :
    (consumers.drop handle).consumers.source.Seats
      (consumers.drop handle).consumers.handles.length := by
  unfold drop
  split
  · cases hsource : consumers.source with
    | tap tap => exact trivial
    | fork fork =>
        rw [hsource] at hseats
        simp only [List.length_set]
        exact Fork.Seated.drop hseats handle
  · split <;> exact hseats

theorem handles_pull (answers : Nat → Poll) (handle : Nat) :
    (consumers.pull (m := Id) (Poll.ofSequence answers) handle : Result Nat).consumers.handles =
      consumers.handles := by
  cases hlive : consumers.isLive handle with
  | false =>
      simp only [pull, hlive, Bool.false_eq_true, if_false]
      rfl
  | true =>
      cases hsource : consumers.source with
      | tap tap => rw [pull_tap answers hlive hsource]
      | fork fork => rw [pull_fork answers hlive hsource]

/-- Every handle has its place after any command. -/
theorem seats_step (answers : Nat → Poll) (command : Command)
    (hseats : consumers.source.Seats consumers.handles.length) :
    let result : Result Nat := consumers.step (m := Id) (Poll.ofSequence answers) command
    result.consumers.source.Seats result.consumers.handles.length := by
  cases command with
  | attach => exact seats_attach hseats
  | pull handle => exact seats_pull answers handle hseats
  | drop handle => exact seats_drop handle hseats
  | close =>
      change consumers.close.consumers.source.Seats consumers.close.consumers.handles.length
      unfold close
      split
      next fork _ hsource _ =>
        rw [hsource] at hseats
        exact Fork.Seated.close hseats
      next => exact hseats
  | dropSource => exact hseats

/-- What a command that asks nothing leaves as it was for those whom it does not wake. -/
structure Spares (consumers : Consumers Nat) (result : Result Nat) : Prop where
  length_le : consumers.handles.length ≤ result.consumers.handles.length
  live : ∀ handle < consumers.handles.length, result.consumers.isLive handle = true →
    consumers.isLive handle = true
  waits : ∀ handle, result.consumers.isLive handle = true → handle ∉ result.woken →
    consumers.source.waits handle = true → result.consumers.source.waits handle = true

theorem spares_self (reply : Reply) : consumers.Spares ⟨reply, [], consumers⟩ where
  length_le := Nat.le_refl _
  live := fun _ _ hlive => hlive
  waits := fun _ _ _ hwaits => hwaits

theorem spares_joined (reply : Reply) {source : Source Nat} (hasSource : Bool)
    (hwaits : ∀ handle, source.waits handle = consumers.source.waits handle) :
    consumers.Spares
      ⟨reply, [], { source, handles := consumers.handles ++ [true], hasSource }⟩ where
  length_le := by simp
  live := by
    intro handle hlt hlive
    rwa [isLive, List.getElem?_append_left hlt] at hlive
  waits := fun handle _ _ hbefore => (hwaits handle).trans hbefore

theorem spares_attach : consumers.Spares consumers.attach := by
  cases hasSource : consumers.hasSource with
  | false =>
      simp only [attach, hasSource, Bool.false_eq_true, if_false]
      exact spares_self _
  | true =>
      cases hsource : consumers.source with
      | tap tap =>
          simp only [attach, hasSource, if_true, hsource]
          exact spares_joined _ _ fun handle => by rw [hsource]
      | fork fork =>
          simp only [attach, hasSource, if_true, hsource]
          unfold Fork.attach
          by_cases hlt : fork.handedOut < fork.branches
          · simp only [hlt, if_true]
            refine spares_joined _ _ fun handle => ?_
            rw [hsource]
            rfl
          · simp only [hlt, if_false]
            exact spares_self _

theorem isLive_set (handles : List Bool) (gone handle : Nat)
    (h : (handles.set gone false)[handle]?.getD false = true) :
    handle ≠ gone ∧ handles[handle]?.getD false = true := by
  rw [List.getElem?_set] at h
  split at h
  · split at h <;> cases h
  next hne => exact ⟨Ne.symm hne, h⟩

theorem spares_drop (gone : Nat) : consumers.Spares (consumers.drop gone) := by
  unfold drop
  split
  · cases hsource : consumers.source with
    | tap tap =>
        refine ⟨by simp, fun handle _ hlive => (isLive_set _ _ _ hlive).2, ?_⟩
        intro handle _ _ hwaits
        rw [hsource] at hwaits
        exact hwaits
    | fork fork =>
        refine ⟨by simp, fun handle _ hlive => (isLive_set _ _ _ hlive).2, ?_⟩
        intro handle hlive hwoken hwaits
        have hne : handle ≠ gone := (isLive_set _ _ _ hlive).1
        refine absurd (Fork.mem_sleepers.mpr ⟨hne, ?_⟩) hwoken
        rw [hsource] at hwaits
        rwa [Fork.asks, List.getElem?_set_ne hne.symm]
  · split <;> exact spares_self _

theorem spares_close : consumers.Spares consumers.close := by
  unfold close
  split
  next fork _ hsource _ =>
    refine ⟨Nat.le_refl _, fun _ _ hlive => hlive, fun handle _ _ hwaits => ?_⟩
    rw [hsource] at hwaits
    exact hwaits
  next => exact spares_self _

/-- A command either asks on behalf of a consumer that is there, or asks nothing. -/
theorem step_cases (answers : Nat → Poll) (command : Command)
    (hseats : consumers.source.Seats consumers.handles.length) :
    let result : Result Nat := consumers.step (m := Id) (Poll.ofSequence answers) command
    (∃ handle poll, command = .pull handle ∧ consumers.isLive handle = true ∧
        result.reply = .polled poll ∧
        Asked consumers handle poll result.woken result.consumers) ∨
      (∀ poll, result.reply ≠ .polled poll) ∧ consumers.Spares result := by
  cases command with
  | attach =>
      refine .inr ⟨fun poll => ?_, spares_attach⟩
      change consumers.attach.reply ≠ _
      unfold attach
      split
      · split
        · split <;> simp
        · simp
      · simp
  | drop gone =>
      refine .inr ⟨fun poll => ?_, spares_drop gone⟩
      change (consumers.drop gone).reply ≠ _
      unfold drop
      split
      · split <;> simp
      · split <;> simp
  | close =>
      refine .inr ⟨fun poll => ?_, spares_close⟩
      change consumers.close.reply ≠ _
      unfold close
      split <;> simp
  | dropSource =>
      refine .inr ⟨?_, Nat.le_refl _, fun _ _ hlive => hlive, fun _ _ _ hwaits => hwaits⟩
      rintro poll ⟨⟩
  | pull handle =>
      cases hlive : consumers.isLive handle with
      | true =>
          obtain ⟨poll, hreply, hasked⟩ := pull_asked answers hlive hseats
          exact .inl ⟨handle, poll, rfl, hlive, hreply, hasked⟩
      | false =>
          have hpull : consumers.pull (m := Id) (Poll.ofSequence answers) handle =
              (⟨.impossible, [], consumers⟩ : Result Nat) := by
            simp only [pull, hlive, Bool.false_eq_true, if_false]
            rfl
          have hstep : consumers.step (m := Id) (Poll.ofSequence answers) (.pull handle) =
              (⟨.impossible, [], consumers⟩ : Result Nat) := hpull
          rw [hstep]
          refine .inr ⟨?_, spares_self _⟩
          rintro poll ⟨⟩

end Consumers

/-- A fan-out, with who sleeps and whom the upstream remembers. -/
structure Vigil where
  consumers : Consumers Nat
  /-- Whose latest poll had to wait and who has not been woken since. -/
  asleep : Nat → Bool
  /-- Who asked the upstream last and had to wait. -/
  latest : Option Nat

namespace Vigil

/-- What happens to a fan-out. -/
inductive Happening where
  | command (command : Command)
  /-- The upstream is ready and wakes whom it remembers. -/
  | stir
deriving DecidableEq, Inhabited

/-- A fan-out that nobody has asked yet. -/
def start (source : Source Nat) : Vigil :=
  { consumers := .start source, asleep := fun _ => false, latest := none }

/-- Carries out a command and notes who sleeps after it. -/
def obey (answers : Nat → Poll) (vigil : Vigil) (command : Command) : Vigil :=
  let result : Result Nat := vigil.consumers.step (Poll.ofSequence answers) command
  let asleep (handle : Nat) : Bool := vigil.asleep handle && !result.woken.contains handle
  match command, result.reply with
  | .pull handle, .polled poll =>
      { consumers := result.consumers
        asleep := Function.update asleep handle (!poll.isReady)
        latest := if poll.isReady then vigil.latest else some handle }
  | _, _ => { vigil with consumers := result.consumers, asleep }

/-- Follows one happening. -/
def step (answers : Nat → Poll) (vigil : Vigil) : Happening → Vigil
  | .command command => vigil.obey answers command
  | .stir =>
      { vigil with
        asleep := fun handle => vigil.asleep handle && vigil.latest != some handle
        latest := none }

/-- Follows happenings one after the other. -/
def run (answers : Nat → Poll) (vigil : Vigil) (happenings : List Happening) : Vigil :=
  happenings.foldl (step answers) vigil

/-- A consumer is there, had to wait when it asked last and has not been woken since. -/
def Sleeps (vigil : Vigil) (handle : Nat) : Prop :=
  vigil.consumers.isLive handle = true ∧ vigil.asleep handle = true

/-- On behalf of a handle something is taken from the upstream next, by which these are woken. -/
def Takes (answers : Nat → Poll) (vigil : Vigil) (handle : Nat) (poll : Poll)
    (woken : List Nat) : Prop :=
  let result : Result Nat := vigil.consumers.step (Poll.ofSequence answers) (.pull handle)
  result.reply = .polled poll ∧ poll ≠ .pending ∧ result.woken = woken ∧
    result.consumers.position = vigil.consumers.position + 1

/-- A handle that sleeps asks to be woken, and nobody sleeps who never asked. -/
structure Noted (vigil : Vigil) : Prop where
  seats : vigil.consumers.source.Seats vigil.consumers.handles.length
  known : ∀ handle, vigil.asleep handle = true → handle < vigil.consumers.handles.length
  waits : ∀ handle, vigil.Sleeps handle → vigil.consumers.source.waits handle = true

namespace Noted

variable {answers : Nat → Poll} {vigil : Vigil}

theorem start_fork (id : ModuleId) (branches : Nat) :
    Noted (.start (.fork (.start id 0 branches))) where
  seats := .start id 0 branches
  known := nofun
  waits := fun _ hsleeps => nomatch hsleeps.2

theorem start_tap : Noted (.start (.tap (.start 0))) where
  seats := trivial
  known := nofun
  waits := fun _ hsleeps => nomatch hsleeps.2

/-- A command that asks nothing. -/
theorem spared (h : Noted vigil) {result : Result Nat}
    (hseats : result.consumers.source.Seats result.consumers.handles.length)
    (hspares : vigil.consumers.Spares result) :
    Noted { vigil with
      consumers := result.consumers
      asleep := fun handle => vigil.asleep handle && !result.woken.contains handle } where
  seats := hseats
  known := by
    intro handle hasleep
    exact (h.known handle (Bool.and_eq_true_iff.mp hasleep).1).trans_le hspares.length_le
  waits := by
    rintro handle ⟨hlive, hasleep⟩
    obtain ⟨hasleep, hwoken⟩ := Bool.and_eq_true_iff.mp hasleep
    have hbefore := hspares.live handle (h.known handle hasleep) hlive
    exact hspares.waits handle hlive (by simpa using hwoken) (h.waits handle ⟨hbefore, hasleep⟩)

/-- A command that asks on behalf of a consumer. -/
theorem asked (h : Noted vigil) {handle : Nat} {poll : Poll} {woken : List Nat}
    {next : Consumers Nat} {latest : Option Nat} (hseats : next.source.Seats next.handles.length)
    (hhandles : next.handles = vigil.consumers.handles)
    (hlive : vigil.consumers.isLive handle = true)
    (hasked : Asked vigil.consumers handle poll woken next) :
    Noted
      { consumers := next
        asleep := Function.update (fun other => vigil.asleep other && !woken.contains other)
          handle (!poll.isReady)
        latest } where
  seats := hseats
  known := by
    intro other hasleep
    simp only [hhandles]
    by_cases hother : other = handle
    · exact hother ▸ Consumers.lt_length_of_isLive hlive
    · simp only [Function.update_of_ne hother] at hasleep
      exact h.known other (Bool.and_eq_true_iff.mp hasleep).1
  waits := by
    rintro other ⟨hotherLive, hasleep⟩
    have hbefore (hne : other ≠ handle) :
        vigil.consumers.source.waits other = true ∧ other ∉ woken := by
      simp only [Function.update_of_ne hne] at hasleep
      obtain ⟨hasleep, hwoken⟩ := Bool.and_eq_true_iff.mp hasleep
      rw [Consumers.isLive, hhandles] at hotherLive
      exact ⟨h.waits other ⟨hotherLive, hasleep⟩, by simpa using hwoken⟩
    have hready (heq : other = handle) : poll = .pending := by
      subst heq
      simp only [Function.update_self] at hasleep
      cases poll with
      | pending => rfl
      | _ => cases hasleep
    by_cases hother : other = handle
    · cases hready hother with
      | refl =>
          cases hasked with
          | told hready => exact absurd rfl hready
          | woke hready => exact absurd rfl hready
          | waited hself hwaits => exact hother ▸ hself
    · obtain ⟨hwaiting, hwoken⟩ := hbefore hother
      cases hasked with
      | told hready hposition hwaits => exact (hwaits other).trans hwaiting
      | waited hself hwaits => exact hwaits other hwaiting
      | woke hready hposition herror hall => exact absurd (hall other hother hwaiting) hwoken
      | missed hfork hposition hwaits => exact (hwaits other).trans hwaiting

/-- Nothing that happens to a fan-out makes it lose the request of a consumer that sleeps. -/
theorem step (h : Noted vigil) (happening : Happening) :
    Noted (vigil.step answers happening) := by
  cases happening with
  | stir =>
      exact
        { seats := h.seats
          known := fun handle hasleep => h.known handle (Bool.and_eq_true_iff.mp hasleep).1
          waits := fun handle hsleeps =>
            h.waits handle ⟨hsleeps.1, (Bool.and_eq_true_iff.mp hsleeps.2).1⟩ }
  | command command =>
      have hseats := Consumers.seats_step answers command h.seats
      change Noted (vigil.obey answers command)
      rcases Consumers.step_cases answers command h.seats with
        ⟨handle, poll, rfl, hlive, hreply, hasked⟩ | ⟨hreply, hspares⟩
      · have hobey : vigil.obey answers (.pull handle) =
            let result : Result Nat :=
              vigil.consumers.step (m := Id) (Poll.ofSequence answers) (.pull handle)
            { consumers := result.consumers
              asleep := Function.update
                (fun other => vigil.asleep other && !result.woken.contains other)
                handle (!poll.isReady)
              latest := if poll.isReady then vigil.latest else some handle } := by
          simp only [obey, hreply]
        rw [hobey]
        exact h.asked hseats (Consumers.handles_pull answers handle) hlive hasked
      · have hobey : vigil.obey answers command =
            let result : Result Nat :=
              vigil.consumers.step (m := Id) (Poll.ofSequence answers) command
            { vigil with
              consumers := result.consumers
              asleep := fun handle => vigil.asleep handle && !result.woken.contains handle } := by
          simp only [obey]
          split
          next handle poll heq => exact absurd heq (hreply poll)
          next => rfl
        rw [hobey]
        exact h.spared hseats hspares

theorem run (h : Noted vigil) (happenings : List Happening) :
    Noted (vigil.run answers happenings) := by
  induction happenings generalizing vigil with
  | nil => exact h
  | cons happening rest ih => exact ih (h.step happening)

end Noted

/-- Who is woken when something is taken from the upstream. -/
structure Wakeful (answers : Nat → Poll) (vigil : Vigil) : Prop where
  /-- All others that sleep are woken, unless an error is taken from a split. -/
  woken : ∀ taker poll woken, vigil.Takes answers taker poll woken →
    (vigil.consumers.source.isFork = true → poll.error? = none) →
    ∀ other, other ≠ taker → vigil.Sleeps other → other ∈ woken
  /-- An error of a split wakes nobody. -/
  missed : ∀ taker poll woken, vigil.Takes answers taker poll woken →
    vigil.consumers.source.isFork = true → poll.error? ≠ none → woken = []

theorem Noted.wakeful {answers : Nat → Poll} {vigil : Vigil} (h : Noted vigil) :
    Wakeful answers vigil := by
  have hasked : ∀ taker poll woken, vigil.Takes answers taker poll woken →
      ∃ next, next.position = vigil.consumers.position + 1 ∧
        poll ≠ .pending ∧ Asked vigil.consumers taker poll woken next := by
    rintro taker poll woken ⟨hreply, hready, rfl, hposition⟩
    rcases Consumers.step_cases answers (.pull taker) h.seats with
      ⟨handle, told, hcommand, hlive, htold, hasked⟩ | ⟨hother, -⟩
    · cases hcommand
      cases htold.symm.trans hreply
      exact ⟨_, hposition, hready, hasked⟩
    · exact absurd hreply (hother poll)
  constructor
  · intro taker poll woken htakes herror other hne hsleeps
    obtain ⟨next, hnext, hpending, hasked⟩ := hasked taker poll woken htakes
    cases hasked with
    | told hready hposition hwaits => omega
    | waited => exact absurd rfl hpending
    | woke hready hposition hnone hall => exact hall other hne (h.waits other hsleeps)
    | missed hfork => cases herror hfork
  · intro taker poll woken htakes hfork herror
    obtain ⟨next, hnext, hpending, hasked⟩ := hasked taker poll woken htakes
    cases hasked with
    | told hready hposition hwaits => rfl
    | waited => rfl
    | woke hready hposition hnone hall => exact absurd (hnone hfork) herror
    | missed => rfl

/-- Whatever happens to a split or to a shared stage, whoever takes something from its upstream
wakes all others that sleep; but an error of a split wakes nobody. -/
theorem run_wakeful (answers : Nat → Poll) (id : ModuleId) (branches : Nat)
    (happenings : List Happening) :
    ((start (.fork (.start id 0 branches))).run answers happenings).Wakeful answers ∧
      ((start (.tap (.start 0))).run answers happenings).Wakeful answers :=
  ⟨((Noted.start_fork id branches).run happenings).wakeful,
    (Noted.start_tap.run happenings).wakeful⟩

/-- An upstream that makes two askers wait before it fails. -/
def hesitant : Nat → Poll
  | 0 | 1 => .pending
  | _ => .answer (.error (.module (.other "broken")))

/-- Two branches wait for an upstream that fails. It wakes the one that it remembers, which takes
the error and leaves the other asleep. -/
theorem error_leaves_asleep :
    let vigil := (start (.fork (.start (.ofRaw "split") 0 2))).run hesitant
      [.command .attach, .command .attach, .command (.pull 0), .command (.pull 1), .stir]
    vigil.Takes hesitant 1 (.answer (.error (.module (.other "broken")))) [] ∧ vigil.Sleeps 0 ∧
      (vigil.step hesitant (.command (.pull 1))).Sleeps 0 := by
  refine ⟨⟨rfl, nofun, rfl, rfl⟩, ⟨rfl, rfl⟩, rfl, rfl⟩

end Vigil

end Fanout

end Pipework
