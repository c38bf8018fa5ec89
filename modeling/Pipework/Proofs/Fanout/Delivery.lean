import Mathlib
import Pipework.Proofs.Fanout.Balance

/-! # What a split delivers

Whatever the upstream gives and in whatever order branches are attached, ask and go away, a split
loses no record and doubles none, and whoever asks is told what comes next. The close has to come
after the last branch was attached.
-/

namespace Pipework.Fanout.Ledger

/-- The upstream has ended, and nothing waits for a handle any more. -/
def Exhausted (ledger : Ledger) (handle position : Nat) : Prop :=
  ∃ fork : Fork Nat, ledger.consumers.source = .fork fork ∧ fork.dry = true ∧
    fork.upstream = position ∧ (fork.buffer? handle).getD [] = []

namespace Exhausted

variable (answers : Nat → Poll) {ledger : Ledger} {handle position : Nat}

theorem position_eq (h : ledger.Exhausted handle position) :
    ledger.consumers.position = position := by
  obtain ⟨fork, hsource, _, hposition, _⟩ := h
  simp only [Consumers.position, hsource, hposition]

/-- Asking on behalf of any handle leaves the upstream alone. -/
theorem step_pull (h : ledger.Exhausted handle position) (asker : Nat) :
    (ledger.step answers (.pull asker)).Exhausted handle position ∧ ∃ times,
      (ledger.step answers (.pull asker)).given handle =
        ledger.given handle ++ List.replicate times .ended := by
  obtain ⟨fork, hsource, hdry, hposition, hbuffer⟩ := h
  cases hlive : ledger.consumers.isLive asker with
  | false =>
      rw [step_pull_of_gone hlive]
      exact ⟨⟨fork, hsource, hdry, hposition, hbuffer⟩, 0, (List.append_nil _).symm⟩
  | true =>
      rw [Ledger.step_pull hsource hlive]
      have hpulled := Fork.poll_pulled answers fork asker
      generalize fork.poll (Poll.ofSequence answers) asker = outcome at hpulled ⊢
      obtain ⟨poll, woken, next⟩ := outcome
      cases hpulled with
      | served record rest hheld hsame hupstream hdry' hnext =>
          have hne : handle ≠ asker := by
            rintro rfl
            rw [hheld] at hbuffer
            cases hbuffer
          refine ⟨⟨next, rfl, hdry'.trans hdry, hupstream.trans hposition, ?_⟩, 0, ?_⟩
          · rw [hnext, if_neg hne]
            exact hbuffer
          · rw [tell_given_of_ne hne]
            exact (List.append_nil _).symm
      | spent hheld hdry' =>
          refine ⟨⟨next, rfl, hdry, hposition, hbuffer⟩, ?_⟩
          by_cases heq : handle = asker
          · subst heq
            exact ⟨1, tell_given_self ..⟩
          · rw [tell_given_of_ne heq]
            exact ⟨0, (List.append_nil _).symm⟩
      | drawn hpoll hheld hdry' hsame hupstream hended hnext =>
          exact Bool.noConfusion (hdry'.symm.trans hdry)

theorem step (h : ledger.Exhausted handle position) (command : Command) :
    (ledger.step answers command).Exhausted handle position ∧ ∃ times,
      (ledger.step answers command).given handle =
        ledger.given handle ++ List.replicate times .ended := by
  cases command with
  | pull asker => exact h.step_pull answers asker
  | attach =>
      refine ⟨?_, 0, (List.append_nil _).symm⟩
      obtain ⟨fork, hsource, hdry, hposition, hbuffer⟩ := h
      have hstep : (ledger.step answers .attach).consumers = ledger.consumers.attach.consumers :=
        rfl
      rw [Exhausted, hstep, Consumers.attach, hsource]
      cases ledger.consumers.hasSource with
      | false => exact ⟨fork, hsource, hdry, hposition, hbuffer⟩
      | true =>
          by_cases hlt : fork.handedOut < fork.branches
          · simp only [Fork.attach, if_pos hlt, if_true]
            exact ⟨_, rfl, hdry, hposition, hbuffer⟩
          · simp only [Fork.attach, if_neg hlt, if_true]
            exact ⟨fork, hsource, hdry, hposition, hbuffer⟩
  | drop other =>
      refine ⟨?_, 0, (List.append_nil _).symm⟩
      obtain ⟨fork, hsource, hdry, hposition, hbuffer⟩ := h
      have hstep : (ledger.step answers (.drop other)).consumers =
          (ledger.consumers.drop other).consumers := rfl
      rw [Exhausted, hstep, Consumers.drop, hsource]
      split
      · refine ⟨(fork.drop other).2, rfl, hdry, hposition, ?_⟩
        rw [Fork.buffer?_drop]
        split
        · rfl
        · exact hbuffer
      · split <;> exact ⟨fork, hsource, hdry, hposition, hbuffer⟩
  | close =>
      refine ⟨?_, 0, (List.append_nil _).symm⟩
      obtain ⟨fork, hsource, hdry, hposition, hbuffer⟩ := h
      have hstep : (ledger.step answers .close).consumers = ledger.consumers.close.consumers :=
        rfl
      rw [Exhausted, hstep, Consumers.close, hsource]
      cases ledger.consumers.hasSource with
      | false => exact ⟨fork, hsource, hdry, hposition, hbuffer⟩
      | true =>
          refine ⟨fork.close, rfl, hdry, hposition, ?_⟩
          rw [Fork.buffer?_close]
          split
          · exact hbuffer
          · rfl
  | dropSource =>
      exact ⟨h, 0, (List.append_nil _).symm⟩

/-- Commands after the end, also ones that a split refuses, bring a handle nothing but the end. -/
theorem run (h : ledger.Exhausted handle position) (commands : List Command) :
    (ledger.run answers commands).Exhausted handle position ∧ ∃ times,
      (ledger.run answers commands).given handle =
        ledger.given handle ++ List.replicate times .ended := by
  induction commands generalizing ledger with
  | nil => exact ⟨h, 0, (List.append_nil _).symm⟩
  | cons command rest ih =>
      obtain ⟨hstep, first, hfirst⟩ := h.step answers command
      obtain ⟨hrest, further, hfurther⟩ := ih hstep
      refine ⟨hrest, first + further, ?_⟩
      rw [Ledger.run, List.foldl_cons]
      rw [Ledger.run] at hfurther
      rw [hfurther, hfirst, List.append_assoc, List.replicate_append_replicate]

/-- A handle that asks after the end is told of the end, once. -/
theorem given_pull (h : ledger.Exhausted handle position)
    (hlive : ledger.consumers.isLive handle = true) :
    (ledger.step answers (.pull handle)).given handle = ledger.given handle ++ [.ended] := by
  obtain ⟨fork, hsource, hdry, _, hbuffer⟩ := h
  rw [Ledger.step_pull hsource hlive, tell_given_self]
  have hpulled := Fork.poll_pulled answers fork handle
  generalize fork.poll (Poll.ofSequence answers) handle = outcome at hpulled ⊢
  obtain ⟨poll, woken, next⟩ := outcome
  cases hpulled with
  | served record rest hheld =>
      rw [hheld] at hbuffer
      cases hbuffer
  | spent => rfl
  | drawn hpoll hheld hrunning => exact Bool.noConfusion (hrunning.symm.trans hdry)

end Exhausted

/-- What becomes of a split when a handle asks: the handle is told one thing more, and no other
handle is told anything. -/
structure Tells (answers : Nat → Poll) (before : Ledger) (handle : Nat) (poll : Poll)
    (after : Ledger) : Prop where
  given : after.given = Function.update before.given handle (before.given handle ++ [poll])
  handles : after.consumers.handles = before.consumers.handles
  /-- A record that waits for the handle comes first, and the upstream is left alone. -/
  waiting : ∀ record rest, before.consumers.buffer? handle = some (record :: rest) →
    poll = .ofRecord record ∧ after.consumers.buffer? handle = some rest ∧
      after.consumers.position = before.consumers.position
  /-- When nothing waits the upstream is asked once, and its answer is told as it is. -/
  next : before.consumers.buffer? handle = some [] → ¬ before.Over answers →
    poll = answers before.consumers.position ∧
      after.consumers.buffer? handle = some [] ∧
      after.consumers.position = before.consumers.position + 1 ∧
      after.askers = before.askers ++ [handle]
  /-- After the end of the upstream nothing is left to tell but the end. -/
  finished : before.consumers.buffer? handle = some [] → before.Over answers →
    poll = .ended ∧ after.consumers.buffer? handle = some [] ∧
      after.consumers.position = before.consumers.position

/-- What a split owes to each of its branches. -/
structure Faithful (answers : Nat → Poll) (ledger : Ledger) : Prop where
  /-- The records that a branch has been handed, and after them those that wait for it, are all
  the records that were taken from the upstream. -/
  complete : ∀ handle, ledger.consumers.isLive handle = true → ∃ buffer,
    ledger.consumers.buffer? handle = some buffer ∧
      ledger.records handle ++ buffer = ledger.taken answers
  /-- A branch is told what the upstream gives, in order, up to what waits for it. Left out is
  only what was no record and came of asking on behalf of another branch. -/
  inOrder : ∀ handle, ledger.consumers.isLive handle = true → ∃ buffer times,
    ledger.consumers.buffer? handle = some buffer ∧
      ledger.given handle ++ buffer.map Poll.ofRecord =
        ledger.due answers handle ++ List.replicate times .ended ∧
      (0 < times → ledger.Over answers ∧ buffer = [])
  /-- A branch that is gone has been told the beginning of that. -/
  gone : ∀ handle, ∃ told times, told <+: ledger.due answers handle ∧
    ledger.given handle = told ++ List.replicate times .ended ∧
    (0 < times → ledger.Over answers)
  /-- A branch that asks now is told what waits for it, or else what the upstream answers. -/
  next : ∀ handle, ledger.consumers.isLive handle = true →
    ∃ poll, ledger.Tells answers handle poll (ledger.step answers (.pull handle))
  /-- Asking on behalf of a branch that is gone, or not there yet, comes to nothing. -/
  absent : ∀ handle, ledger.consumers.isLive handle = false →
    ledger.step answers (.pull handle) = ledger
  /-- The upstream is asked on behalf of one handle at a time. -/
  askers : ledger.askers.length = ledger.consumers.position
  /-- It has not been asked again after its end. -/
  once : ∀ place < ledger.consumers.position, answers place = .ended →
    place + 1 = ledger.consumers.position
  /-- A handle is told the errors that came of asking on its behalf, each once, and no others. -/
  errors : ∀ handle, (ledger.given handle).filterMap Poll.error? =
    (ledger.asked answers handle).filterMap Poll.error?
  /-- A handle learns of the end when it has all records and the upstream has ended. From then on
  the upstream is not asked, and the handle is told of the end only, each time it asks. -/
  ended : ∀ handle, .ended ∈ ledger.given handle →
    ledger.records handle = ledger.taken answers ∧
      ledger.Over answers ∧
      ∀ rest, (ledger.run answers rest).consumers.position = ledger.consumers.position ∧
        (∃ times, (ledger.run answers rest).given handle =
          ledger.given handle ++ List.replicate times .ended) ∧
        ((ledger.run answers rest).consumers.isLive handle = true →
          ((ledger.run answers rest).step answers (.pull handle)).given handle =
            (ledger.run answers rest).given handle ++ [.ended])
  /-- No record is taken that not some branch has been handed. -/
  most : (ledger.taken answers).length =
    (Finset.range ledger.consumers.handles.length).sup fun handle =>
      (ledger.records handle).length

namespace Balanced

variable {answers : Nat → Poll} {fork : Fork Nat} {closed : Bool} {ledger : Ledger}

theorem buffer?_eq (h : Balanced answers fork closed ledger) (handle : Nat) :
    ledger.consumers.buffer? handle = fork.buffer? handle := by
  simp only [Consumers.buffer?, h.source]

theorem exhausted (h : Balanced answers fork closed ledger) {handle : Nat}
    (hmem : .ended ∈ ledger.given handle) :
    ledger.Exhausted handle ledger.consumers.position := by
  obtain ⟨hdry, hbuffer, _⟩ := h.ended handle hmem
  exact ⟨fork, h.source, hdry, h.position_eq.symm, hbuffer⟩

/-- The branch that is furthest ahead has been handed all that was taken. -/
theorem length_taken (h : Balanced answers fork closed ledger) :
    (ledger.taken answers).length =
      (Finset.range ledger.consumers.handles.length).sup fun handle =>
        (ledger.records handle).length := by
  apply Nat.le_antisymm
  · rcases h.ahead with hnone | ⟨handle, hlt, hall⟩
    · rw [hnone]
      exact Nat.zero_le _
    · rw [← hall]
      rw [← h.handles] at hlt
      exact Finset.le_sup (f := fun handle => (ledger.records handle).length)
        (Finset.mem_range.mpr hlt)
  · apply Finset.sup_le
    intro handle _
    exact (h.records_prefix handle).length_le

/-- However asking a branch comes out, it is told what waits for it, or else what comes next. -/
theorem tells_pulled (h : Balanced answers fork closed ledger) {handle : Nat} {poll : Poll}
    {next : Fork Nat} (hpulled : Fork.Pulled answers fork handle poll next) :
    ledger.Tells answers handle poll (ledger.tell next handle poll
      (List.replicate (next.upstream - fork.upstream) handle)) := by
  have hposition : ledger.consumers.position = fork.upstream := h.position_eq
  refine ⟨rfl, rfl, ?waiting, ?next, ?finished⟩
  case waiting =>
    intro record rest hheld
    rw [h.buffer?_eq] at hheld
    cases hpulled with
    | served first others hbuffer hsame hupstream hdry hnext =>
        obtain ⟨rfl, rfl⟩ := List.cons.inj (Option.some.inj (hbuffer.symm.trans hheld))
        exact ⟨rfl, (hnext handle).trans (if_pos rfl), hupstream.trans hposition.symm⟩
    | spent hbuffer =>
        rw [hheld] at hbuffer
        cases hbuffer
    | drawn hpoll hbuffer =>
        rw [hheld] at hbuffer
        cases hbuffer
  case next =>
    intro hheld hrunning
    rw [h.buffer?_eq] at hheld
    rw [h.over_iff] at hrunning
    cases hpulled with
    | served first others hbuffer => cases hbuffer.symm.trans hheld
    | spent hbuffer hdry => exact absurd hdry hrunning
    | drawn hpoll hbuffer hdry hsame hupstream hended hnext =>
        -- The askers grow by as many as the upstream has been asked.
        have hasked : next.upstream - fork.upstream = 1 := by omega
        rw [hposition, hasked]
        exact ⟨hpoll.symm, (hnext handle).trans ((if_pos rfl).trans hheld), hupstream, rfl⟩
  case finished =>
    intro hheld hover
    rw [h.buffer?_eq] at hheld
    rw [h.over_iff] at hover
    cases hpulled with
    | served first others hbuffer => cases hbuffer.symm.trans hheld
    | spent hbuffer hdry => exact ⟨rfl, hheld, hposition.symm⟩
    | drawn hpoll hbuffer hdry => exact Bool.noConfusion (hdry.symm.trans hover)

theorem tells (h : Balanced answers fork closed ledger) {handle : Nat}
    (hlive : ledger.consumers.isLive handle = true) :
    ∃ poll, ledger.Tells answers handle poll (ledger.step answers (.pull handle)) := by
  rw [Ledger.step_pull h.source hlive]
  exact ⟨_, h.tells_pulled (Fork.poll_pulled answers fork handle)⟩

theorem faithful (h : Balanced answers fork closed ledger) : ledger.Faithful answers where
  complete := by
    intro handle hlive
    rw [h.buffer?_eq]
    exact h.records_append (.inl hlive)
  inOrder := by
    intro handle hlive
    obtain ⟨buffer, times, hbuffer, htimes, hgiven⟩ := h.waiting handle (.inl hlive)
    rw [h.buffer?_eq, h.over_iff]
    exact ⟨buffer, times, hbuffer, hgiven, htimes⟩
  gone := by
    intro handle
    obtain ⟨told, times, hprefix, htimes, hgiven⟩ := h.behind handle
    rw [h.over_iff]
    exact ⟨told, times, hprefix, hgiven, htimes⟩
  next := fun _ hlive => h.tells hlive
  absent := fun _ hgone => step_pull_of_gone hgone
  askers := h.askers.trans h.position_eq.symm
  once := by
    intro place hplace hended
    rw [h.position_eq] at hplace ⊢
    exact (h.once place hplace hended).1
  errors := h.errors
  ended := by
    intro handle hmem
    obtain ⟨hdry, _, hrecords⟩ := h.ended handle hmem
    refine ⟨hrecords, h.over_iff.mpr hdry, ?_⟩
    intro rest
    obtain ⟨hexhausted, hgiven⟩ := (h.exhausted hmem).run answers rest
    exact ⟨hexhausted.position_eq, hgiven, hexhausted.given_pull answers⟩
  most := h.length_taken

end Balanced

/-- A split is faithful to its branches along every run: whatever the upstream gives, however many
branches there are, and in whatever order they are attached, ask and go away. -/
theorem run_faithful (answers : Nat → Poll) (id : ModuleId) (branches : Nat)
    (commands : List Command)
    (hclose : commands.Pairwise fun earlier later => earlier = .close → later ≠ .attach) :
    ((Ledger.start id branches).run answers commands).Faithful answers := by
  obtain ⟨next, later, hbalanced⟩ := (Balanced.start answers id branches).run commands hclose
    fun hclosed => Bool.noConfusion hclosed
  exact hbalanced.faithful

/-- A record, an error, and the end. -/
def oneRecord : Nat → Poll
  | 0 => .ofRecord Record.sentinel
  | 1 => .answer (.error .emptyPipe)
  | _ => .ended

/-- Two branches of three ask: one takes the record, meets the error and goes away, and is refused
from then on; the other asks three times. -/
def twoAsking : List Command :=
  [.attach, .attach, .pull 1, .close, .pull 1, .drop 1, .pull 1, .pull 0, .pull 0, .pull 0]

/-- The other branch is told what waited for it, and the end each time after that. -/
theorem run_faithful_of_two :
    twoAsking.Pairwise (fun earlier later => earlier = .close → later ≠ .attach) ∧
      ((Ledger.start ⟨"split"⟩ 3).run oneRecord twoAsking).Faithful oneRecord ∧
      ((Ledger.start ⟨"split"⟩ 3).run oneRecord twoAsking).given 1 =
        [.ofRecord Record.sentinel, .answer (.error .emptyPipe)] ∧
      ((Ledger.start ⟨"split"⟩ 3).run oneRecord twoAsking).given 0 =
        [.ofRecord Record.sentinel, .ended, .ended] ∧
      ((Ledger.start ⟨"split"⟩ 3).run oneRecord twoAsking).given 2 = [] ∧
      ((Ledger.start ⟨"split"⟩ 3).run oneRecord twoAsking).askers = [1, 1, 0] :=
  ⟨by decide, run_faithful oneRecord ⟨"split"⟩ 3 twoAsking (by decide), rfl, rfl, rfl, rfl⟩

end Pipework.Fanout.Ledger
