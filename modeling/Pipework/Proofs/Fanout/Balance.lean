import Pipework.Proofs.Fanout.Ledger

/-! # The balance of a split

What holds of a split at every point of a run. Each way in which a command comes out keeps the
balance; only attaching a branch after the close would not, for such a branch has no buffer.
-/

namespace Pipework.Fanout.Ledger

/-- A handle waits for records: its consumer is there, or may still be attached. -/
def Open (fork : Fork Nat) (closed : Bool) (ledger : Ledger) (handle : Nat) : Prop :=
  ledger.consumers.isLive handle = true ∨
    (closed = false ∧ fork.handedOut ≤ handle ∧ handle < fork.branches)

/-- How the records that a ledger keeps fit the fork. -/
structure Fits (answers : Nat → Poll) (fork : Fork Nat) (ledger : Ledger) : Prop where
  source : ledger.consumers.source = .fork fork
  handles : ledger.consumers.handles.length = fork.handedOut
  handedOut_le : fork.handedOut ≤ fork.branches
  askers : ledger.askers.length = fork.upstream
  dry : fork.dry = true → ∃ last, fork.upstream = last + 1 ∧ answers last = .ended
  /-- The end has been told last, if it has been told at all. -/
  once : ∀ place < fork.upstream, answers place = .ended →
    place + 1 = fork.upstream ∧ fork.dry = true
  unused : ∀ handle, fork.handedOut ≤ handle → ledger.given handle = []

/-- What holds of a split along every run. The flag says whether it has been closed. -/
structure Balanced (answers : Nat → Poll) (fork : Fork Nat) (closed : Bool)
    (ledger : Ledger) : Prop extends Fits answers fork ledger where
  /-- An open handle has been told what is due to it, but for what waits in its buffer; after
  that it has been told of the end only. -/
  waiting : ∀ handle, ledger.Open fork closed handle → ∃ buffer times,
    fork.buffer? handle = some buffer ∧ (0 < times → fork.dry = true ∧ buffer = []) ∧
      ledger.given handle ++ buffer.map Poll.ofRecord =
        ledger.due answers handle ++ List.replicate times .ended
  /-- What any handle has been told is the beginning of what is due to it, and the end. -/
  behind : ∀ handle, ∃ told times, told <+: ledger.due answers handle ∧
    (0 < times → fork.dry = true) ∧ ledger.given handle = told ++ List.replicate times .ended
  errors : ∀ handle, (ledger.given handle).filterMap Poll.error? =
    (ledger.asked answers handle).filterMap Poll.error?
  ended : ∀ handle, .ended ∈ ledger.given handle → fork.dry = true ∧
    (fork.buffer? handle).getD [] = [] ∧ ledger.records handle = ledger.taken answers
  ahead : ledger.taken answers = [] ∨
    ∃ handle < fork.handedOut, ledger.records handle = ledger.taken answers

section Fits

variable {answers : Nat → Poll} {fork next : Fork Nat} {ledger : Ledger} {handle : Nat}

theorem Fits.position_eq (h : Fits answers fork ledger) :
    ledger.consumers.position = fork.upstream := by
  simp only [Consumers.position, h.source]

/-- The upstream has told its end if and only if the fork knows of it. -/
theorem Fits.over_iff (h : Fits answers fork ledger) : ledger.Over answers ↔ fork.dry = true := by
  rw [Over, h.position_eq]
  constructor
  · rintro ⟨last, hlast, hended⟩
    exact (h.once last (by omega) hended).2
  · exact h.dry

theorem Fits.records_due (h : Fits answers fork ledger) (handle : Nat) :
    (ledger.due answers handle).filterMap Poll.record? = ledger.taken answers :=
  filterMap_record?_due (h.askers.trans h.position_eq.symm) handle

theorem Fits.lt_handedOut (h : Fits answers fork ledger)
    (hlive : ledger.consumers.isLive handle = true) : handle < fork.handedOut := by
  rw [← h.handles]
  by_contra hge
  rw [Consumers.isLive, List.getElem?_eq_none (Nat.le_of_not_lt hge)] at hlive
  cases hlive

/-- The ledger after a handle has been told something, with the fork as it is then. -/
def tell (ledger : Ledger) (fork : Fork Nat) (handle : Nat) (poll : Poll) (askers : List Nat) :
    Ledger :=
  { consumers := { ledger.consumers with source := .fork fork }
    given := Function.update ledger.given handle (ledger.given handle ++ [poll])
    askers := ledger.askers ++ askers }

theorem tell_given_self (poll : Poll) (askers : List Nat) :
    (ledger.tell next handle poll askers).given handle = ledger.given handle ++ [poll] :=
  Function.update_self ..

theorem tell_given_of_ne {other : Nat} (hne : other ≠ handle) (poll : Poll)
    (askers : List Nat) :
    (ledger.tell next handle poll askers).given other = ledger.given other :=
  Function.update_of_ne hne ..

theorem tell_records_self (poll : Poll) (askers : List Nat) :
    (ledger.tell next handle poll askers).records handle =
      ledger.records handle ++ poll.record?.toList := by
  rw [records, tell_given_self, List.filterMap_append]
  cases hrecord : poll.record? <;> simp [records, hrecord]

theorem tell_records_of_ne {other : Nat} (hne : other ≠ handle) (poll : Poll)
    (askers : List Nat) :
    (ledger.tell next handle poll askers).records other = ledger.records other := by
  rw [records, tell_given_of_ne hne, records]

theorem tell_due_nil (poll : Poll) (other : Nat) :
    (ledger.tell next handle poll []).due answers other = ledger.due answers other := by
  rw [due, tell, List.append_nil, due]

theorem tell_asked_nil (poll : Poll) (other : Nat) :
    (ledger.tell next handle poll []).asked answers other = ledger.asked answers other := by
  rw [asked, tell, List.append_nil, asked]

theorem Fits.taken_tell (h : Fits answers fork ledger) (hupstream : next.upstream = fork.upstream)
    (poll : Poll) (askers : List Nat) :
    (ledger.tell next handle poll askers).taken answers = ledger.taken answers := by
  simp only [taken, Consumers.position, tell, h.source, hupstream]

theorem Fits.tell (h : Fits answers fork ledger)
    (hlive : ledger.consumers.isLive handle = true) (hsame : Fork.SameBranches fork next)
    (poll : Poll) (askers : List Nat) (hupstream : next.upstream = fork.upstream + askers.length)
    (hdry : next.dry = true → ∃ last, next.upstream = last + 1 ∧ answers last = .ended)
    (honce : ∀ place < next.upstream, answers place = .ended →
      place + 1 = next.upstream ∧ next.dry = true) :
    Fits answers next (ledger.tell next handle poll askers) where
  source := rfl
  handles := h.handles.trans hsame.handedOut.symm
  handedOut_le := by
    rw [hsame.handedOut, hsame.branches]
    exact h.handedOut_le
  askers := by rw [Ledger.tell, List.length_append, h.askers, hupstream]
  dry := hdry
  once := honce
  unused := by
    intro other hother
    rw [hsame.handedOut] at hother
    have hne : other ≠ handle := fun heq =>
      absurd (h.lt_handedOut hlive) (Nat.not_lt.mpr (heq ▸ hother))
    rw [tell_given_of_ne hne]
    exact h.unused other hother

theorem open_tell (hsame : Fork.SameBranches fork next) {closed : Bool} {poll : Poll}
    {askers : List Nat} {other : Nat}
    (hopen : (ledger.tell next handle poll askers).Open next closed other) :
    ledger.Open fork closed other := by
  rw [Open, hsame.handedOut, hsame.branches] at hopen
  exact hopen

/-- Asking on behalf of a consumer that is there. -/
theorem step_pull (hsource : ledger.consumers.source = .fork fork)
    (hlive : ledger.consumers.isLive handle = true) :
    ledger.step answers (.pull handle) =
      ledger.tell (fork.poll (Poll.ofSequence answers) handle).fork handle
        (fork.poll (Poll.ofSequence answers) handle).poll
        (List.replicate
          ((fork.poll (Poll.ofSequence answers) handle).fork.upstream - fork.upstream) handle) := by
  have hpull : ledger.consumers.pull (Poll.ofSequence answers) handle =
      (⟨.polled (fork.poll (Poll.ofSequence answers) handle).poll,
        (fork.poll (Poll.ofSequence answers) handle).woken,
        { ledger.consumers with
          source := .fork (fork.poll (Poll.ofSequence answers) handle).fork }⟩ :
          Result Nat) := by
    simp only [Consumers.pull, hsource, hlive, if_true]
    rfl
  have hposition : ledger.consumers.position = fork.upstream := by
    simp only [Consumers.position, hsource]
  simp only [step, Consumers.step, hpull, hposition, tell]
  rfl

/-- Nobody is told anything on behalf of a consumer that is not there. -/
theorem step_pull_of_gone (hgone : ledger.consumers.isLive handle = false) :
    ledger.step answers (.pull handle) = ledger := by
  simp only [step, Consumers.step, Consumers.pull, hgone]
  rfl

end Fits

namespace Balanced

variable {answers : Nat → Poll} {fork next : Fork Nat} {closed : Bool} {ledger : Ledger}
  {handle : Nat}

/-- An open handle has, with its buffer, all the records that were taken. -/
theorem records_append (h : Balanced answers fork closed ledger) {handle : Nat}
    (hopen : ledger.Open fork closed handle) :
    ∃ buffer, fork.buffer? handle = some buffer ∧
      ledger.records handle ++ buffer = ledger.taken answers := by
  obtain ⟨buffer, times, hbuffer, _, hgiven⟩ := h.waiting handle hopen
  refine ⟨buffer, hbuffer, ?_⟩
  have hrecords := congrArg (List.filterMap Poll.record?) hgiven
  rw [List.filterMap_append, List.filterMap_append, Poll.filterMap_record?_map_ofRecord,
    filterMap_record?_replicate_ended, List.append_nil, h.records_due] at hrecords
  exact hrecords

/-- No handle has been told a record that was not taken, or out of order. -/
theorem records_prefix (h : Balanced answers fork closed ledger) (handle : Nat) :
    ledger.records handle <+: ledger.taken answers := by
  obtain ⟨told, times, hprefix, _, hgiven⟩ := h.behind handle
  rw [records, hgiven, List.filterMap_append, filterMap_record?_replicate_ended,
    List.append_nil, ← h.records_due handle]
  exact hprefix.filterMap Poll.record?

/-- An open handle with an empty buffer has been told all that is due to it. -/
theorem given_of_buffer_nil (h : Balanced answers fork closed ledger)
    (hopen : ledger.Open fork closed handle) (hbuffer : (fork.buffer? handle).getD [] = []) :
    fork.buffer? handle = some [] ∧ ∃ times, (0 < times → fork.dry = true) ∧
      ledger.given handle = ledger.due answers handle ++ List.replicate times .ended := by
  obtain ⟨buffer, times, hheld, htimes, hgiven⟩ := h.waiting handle hopen
  rw [hheld] at hbuffer ⊢
  obtain rfl : buffer = [] := hbuffer
  exact ⟨rfl, times, fun hpos => (htimes hpos).1, by simpa using hgiven⟩

/-- Less is asked of a split that has been closed. -/
theorem close_later (h : Balanced answers fork closed ledger) :
    Balanced answers fork true ledger where
  toFits := h.toFits
  waiting := by
    intro handle hopen
    refine h.waiting handle (.inl ?_)
    exact hopen.resolve_right fun hunused => Bool.noConfusion hunused.1
  behind := h.behind
  errors := h.errors
  ended := h.ended
  ahead := h.ahead

/-- A branch that is served from its buffer moves on by one record. -/
theorem served (h : Balanced answers fork closed ledger)
    (hlive : ledger.consumers.isLive handle = true) {record : Record} {rest : List Record}
    (hbuffer : fork.buffer? handle = some (record :: rest))
    (hsame : Fork.SameBranches fork next) (hupstream : next.upstream = fork.upstream)
    (hdry : next.dry = fork.dry)
    (hnext : ∀ other, next.buffer? other =
      if other = handle then some rest else fork.buffer? other) :
    Balanced answers next closed (ledger.tell next handle (.ofRecord record) []) := by
  obtain ⟨buffer, times, hheld, htimes, hgiven⟩ := h.waiting handle (.inl hlive)
  obtain rfl : record :: rest = buffer := Option.some.inj (hbuffer.symm.trans hheld)
  -- A branch for which a record waits has not been told of the end.
  obtain rfl : times = 0 := by
    by_contra hne
    exact absurd (htimes (Nat.pos_of_ne_zero hne)).2 (List.cons_ne_nil _ _)
  have hmoved : ledger.given handle ++ [.ofRecord record] ++ rest.map Poll.ofRecord =
      ledger.due answers handle := by
    rw [List.append_assoc]
    exact hgiven.trans (List.append_nil _)
  have hnotEnded : .ended ∉ ledger.given handle := by
    intro hmem
    have hnil := (h.ended handle hmem).2.1
    rw [hbuffer] at hnil
    cases hnil
  refine ⟨h.toFits.tell hlive hsame _ [] hupstream (by rw [hdry, hupstream]; exact h.dry)
    (by rw [hdry, hupstream]; exact h.once), ?waiting, ?behind, ?errors, ?ended, ?ahead⟩
  case waiting =>
    intro other hopen
    rw [tell_due_nil, hnext, hdry]
    by_cases heq : other = handle
    · subst heq
      rw [tell_given_self]
      refine ⟨rest, 0, if_pos rfl, fun hpos => absurd hpos (Nat.lt_irrefl 0), ?_⟩
      rw [hmoved]
      exact (List.append_nil _).symm
    · rw [tell_given_of_ne heq, if_neg heq]
      exact h.waiting other (open_tell hsame hopen)
  case behind =>
    intro other
    rw [tell_due_nil, hdry]
    by_cases heq : other = handle
    · subst heq
      rw [tell_given_self]
      exact ⟨_, 0, ⟨_, hmoved⟩, fun hpos => absurd hpos (Nat.lt_irrefl 0),
        (List.append_nil _).symm⟩
    · rw [tell_given_of_ne heq]
      exact h.behind other
  case errors =>
    intro other
    rw [tell_asked_nil, ← h.errors]
    by_cases heq : other = handle
    · subst heq
      rw [tell_given_self, List.filterMap_append]
      exact List.append_nil _
    · rw [tell_given_of_ne heq]
  case ended =>
    intro other hmem
    rw [hdry, h.toFits.taken_tell hupstream, hnext]
    by_cases heq : other = handle
    · subst heq
      rw [tell_given_self, List.mem_append] at hmem
      rcases hmem with hmem | hmem
      · exact absurd hmem hnotEnded
      · cases List.mem_singleton.mp hmem
    · rw [tell_given_of_ne heq] at hmem
      rw [tell_records_of_ne heq, if_neg heq]
      exact h.ended other hmem
  case ahead =>
    rw [h.toFits.taken_tell hupstream, hsame.handedOut]
    refine h.ahead.imp_right ?_
    rintro ⟨other, hlt, hall⟩
    refine ⟨other, hlt, ?_⟩
    -- the branch that is served was behind, so it is not the one that has all records
    have hne : other ≠ handle := by
      rintro rfl
      obtain ⟨buffer, hheld', hrecords⟩ := h.records_append (.inl hlive)
      obtain rfl : record :: rest = buffer := Option.some.inj (hbuffer.symm.trans hheld')
      rw [hall] at hrecords
      exact absurd (List.append_right_eq_self.mp hrecords) (List.cons_ne_nil _ _)
    rw [tell_records_of_ne hne]
    exact hall

/-- A branch that learns of the end after the upstream has ended. -/
theorem spent (h : Balanced answers fork closed ledger)
    (hlive : ledger.consumers.isLive handle = true)
    (hbuffer : (fork.buffer? handle).getD [] = []) (hdry : fork.dry = true) :
    Balanced answers fork closed (ledger.tell fork handle .ended []) := by
  obtain ⟨hheld, times, htimes, hgiven⟩ := h.given_of_buffer_nil (.inl hlive) hbuffer
  -- One more end after everything that is due.
  have hmoved : ledger.given handle ++ [.ended] =
      ledger.due answers handle ++ List.replicate (times + 1) .ended := by
    rw [hgiven, List.append_assoc, List.replicate_succ']
  have hrecords : ledger.records handle = ledger.taken answers := by
    obtain ⟨buffer, hheld', hall⟩ := h.records_append (.inl hlive)
    obtain rfl : [] = buffer := Option.some.inj (hheld.symm.trans hheld')
    simpa using hall
  refine ⟨h.toFits.tell hlive ⟨rfl, rfl⟩ _ [] rfl h.dry h.once,
    ?waiting, ?behind, ?errors, ?ended, ?ahead⟩
  case waiting =>
    intro other hopen
    rw [tell_due_nil]
    by_cases heq : other = handle
    · subst heq
      rw [tell_given_self]
      refine ⟨[], times + 1, hheld, fun _ => ⟨hdry, rfl⟩, ?_⟩
      rw [List.map_nil, List.append_nil, hmoved]
    · rw [tell_given_of_ne heq]
      exact h.waiting other hopen
  case behind =>
    intro other
    rw [tell_due_nil]
    by_cases heq : other = handle
    · subst heq
      rw [tell_given_self, hmoved]
      exact ⟨_, times + 1, List.prefix_refl _, fun _ => hdry, rfl⟩
    · rw [tell_given_of_ne heq]
      exact h.behind other
  case errors =>
    intro other
    rw [tell_asked_nil, ← h.errors]
    by_cases heq : other = handle
    · subst heq
      rw [tell_given_self, List.filterMap_append]
      exact List.append_nil _
    · rw [tell_given_of_ne heq]
  case ended =>
    intro other hmem
    rw [h.toFits.taken_tell rfl]
    by_cases heq : other = handle
    · subst heq
      rw [tell_records_self]
      exact ⟨hdry, hbuffer, by simpa using hrecords⟩
    · rw [tell_given_of_ne heq] at hmem
      rw [tell_records_of_ne heq]
      exact h.ended other hmem
  case ahead =>
    rw [h.toFits.taken_tell rfl]
    refine .inr ⟨handle, h.toFits.lt_handedOut hlive, ?_⟩
    rw [tell_records_self]
    simpa using hrecords

/-- A branch on whose behalf the upstream is asked. -/
theorem drawn (h : Balanced answers fork closed ledger)
    (hlive : ledger.consumers.isLive handle = true) {poll : Poll}
    (hpoll : answers fork.upstream = poll)
    (hbuffer : (fork.buffer? handle).getD [] = []) (hdry : fork.dry = false)
    (hsame : Fork.SameBranches fork next) (hupstream : next.upstream = fork.upstream + 1)
    (hended : next.dry = true ↔ poll = .ended)
    (hnext : ∀ other, next.buffer? other = if other = handle then fork.buffer? other else
      (fork.buffer? other).map (· ++ poll.record?.toList)) :
    Balanced answers next closed (ledger.tell next handle poll [handle]) := by
  -- As long as the upstream goes on nobody has been told of the end.
  have hrunning {times : Nat} (htimes : 0 < times → fork.dry = true) : times = 0 := by
    by_contra hne
    exact Bool.noConfusion ((htimes (Nat.pos_of_ne_zero hne)).symm.trans hdry)
  have hnotEnded (other : Nat) : .ended ∉ ledger.given other := fun hmem =>
    Bool.noConfusion ((h.ended other hmem).1.symm.trans hdry)
  have htaken : (ledger.tell next handle poll [handle]).taken answers =
      ledger.taken answers ++ poll.record?.toList := by
    have hposition : (ledger.tell next handle poll [handle]).consumers.position =
        ledger.consumers.position + 1 := by
      rw [h.position_eq]
      exact hupstream
    rw [taken_succ hposition, h.position_eq, hpoll]
  -- The answer is due to the branch that asks; to the others only a record is.
  have hdueSelf : (ledger.tell next handle poll [handle]).due answers handle =
      ledger.due answers handle ++ [poll] := by
    rw [due_snoc rfl, h.askers, hpoll, if_pos (.inl rfl)]
  have hdueOther {other : Nat} (hne : other ≠ handle) :
      (ledger.tell next handle poll [handle]).due answers other =
        ledger.due answers other ++ poll.record?.toList.map Poll.ofRecord := by
    rw [due_snoc rfl, h.askers, hpoll, Poll.map_ofRecord_record?]
    simp only [Ne.symm hne, false_or]
  obtain ⟨hheld, times, htimes, hgiven⟩ := h.given_of_buffer_nil (.inl hlive) hbuffer
  obtain rfl := hrunning htimes
  have hself : ledger.given handle ++ [poll] =
      (ledger.tell next handle poll [handle]).due answers handle := by
    rw [hdueSelf, hgiven]
    simp
  have hrecords : ledger.records handle = ledger.taken answers := by
    obtain ⟨buffer, hheld', hall⟩ := h.records_append (.inl hlive)
    obtain rfl : [] = buffer := Option.some.inj (hheld.symm.trans hheld')
    simpa using hall
  have hrecordsSelf : (ledger.tell next handle poll [handle]).records handle =
      (ledger.tell next handle poll [handle]).taken answers := by
    rw [tell_records_self, htaken, hrecords]
  refine ⟨h.toFits.tell hlive hsame _ [handle] hupstream ?dry ?once,
    ?waiting, ?behind, ?errors, ?ended, ?ahead⟩
  case dry =>
    intro hdry'
    exact ⟨fork.upstream, hupstream, hpoll.trans (hended.mp hdry')⟩
  case once =>
    intro place hplace hplaceEnded
    rw [hupstream] at hplace ⊢
    obtain hbefore | rfl := Nat.lt_succ_iff_lt_or_eq.mp hplace
    · exact Bool.noConfusion ((h.once place hbefore hplaceEnded).2.symm.trans hdry)
    · exact ⟨rfl, hended.mpr (hpoll.symm.trans hplaceEnded)⟩
  case waiting =>
    intro other hopen
    rw [hnext]
    by_cases heq : other = handle
    · subst heq
      rw [tell_given_self, if_pos rfl, hself]
      exact ⟨[], 0, hheld, fun hpos => absurd hpos (Nat.lt_irrefl 0), rfl⟩
    · rw [tell_given_of_ne heq, if_neg heq, hdueOther heq]
      obtain ⟨buffer, times, hbuffer', htimes', hgiven'⟩ :=
        h.waiting other (open_tell hsame hopen)
      obtain rfl := hrunning fun hpos => (htimes' hpos).1
      refine ⟨buffer ++ poll.record?.toList, 0, by rw [hbuffer']; rfl,
        fun hpos => absurd hpos (Nat.lt_irrefl 0), ?_⟩
      rw [List.map_append, ← List.append_assoc, hgiven']
      simp
  case behind =>
    intro other
    by_cases heq : other = handle
    · subst heq
      rw [tell_given_self, hself]
      exact ⟨_, 0, List.prefix_refl _, fun hpos => absurd hpos (Nat.lt_irrefl 0),
        (List.append_nil _).symm⟩
    · rw [tell_given_of_ne heq, hdueOther heq]
      obtain ⟨told, times, hprefix, htimes', hgiven'⟩ := h.behind other
      obtain rfl := hrunning htimes'
      exact ⟨told, 0, hprefix.trans (List.prefix_append _ _),
        fun hpos => absurd hpos (Nat.lt_irrefl 0), hgiven'⟩
  case errors =>
    intro other
    rw [asked_snoc rfl, h.askers, hpoll, List.filterMap_append, ← h.errors]
    by_cases heq : other = handle
    · subst heq
      rw [tell_given_self, List.filterMap_append, if_pos rfl]
    · rw [tell_given_of_ne heq, if_neg (Ne.symm heq)]
      exact (List.append_nil _).symm
  case ended =>
    intro other hmem
    rw [hnext]
    by_cases heq : other = handle
    · subst heq
      rw [tell_given_self, List.mem_append, List.mem_singleton] at hmem
      have hend : .ended = poll := hmem.resolve_left (hnotEnded other)
      rw [if_pos rfl]
      exact ⟨hended.mpr hend.symm, hbuffer, hrecordsSelf⟩
    · rw [tell_given_of_ne heq] at hmem
      exact absurd hmem (hnotEnded other)
  case ahead =>
    rw [hsame.handedOut]
    exact .inr ⟨handle, h.toFits.lt_handedOut hlive, hrecordsSelf⟩

/-- However asking a branch comes out, the balance is kept. -/
theorem pulled (h : Balanced answers fork closed ledger)
    (hlive : ledger.consumers.isLive handle = true) {poll : Poll}
    (hpulled : Fork.Pulled answers fork handle poll next) :
    Balanced answers next closed (ledger.tell next handle poll
      (List.replicate (next.upstream - fork.upstream) handle)) := by
  cases hpulled with
  | served record rest hbuffer hsame hupstream hdry hnext =>
      rw [hupstream, Nat.sub_self]
      exact h.served hlive hbuffer hsame hupstream hdry hnext
  | spent hbuffer hdry =>
      rw [Nat.sub_self]
      exact h.spent hlive hbuffer hdry
  | drawn hpoll hbuffer hdry hsame hupstream hended hnext =>
      rw [hupstream, Nat.add_sub_cancel_left]
      exact h.drawn hlive hpoll hbuffer hdry hsame hupstream hended hnext

/-- Consumers may come and go as long as what waits for those that are left stays. -/
theorem regroup (h : Balanced answers fork closed ledger) {later : Bool}
    {consumers : Consumers Nat} (hsource : consumers.source = .fork next)
    (hhandles : consumers.handles.length = next.handedOut)
    (hle : next.handedOut ≤ next.branches) (hgrow : fork.handedOut ≤ next.handedOut)
    (hupstream : next.upstream = fork.upstream) (hdry : next.dry = fork.dry)
    (hopen : ∀ handle, { ledger with consumers }.Open next later handle →
      ledger.Open fork closed handle ∧ next.buffer? handle = fork.buffer? handle)
    (hempty : ∀ handle, (fork.buffer? handle).getD [] = [] →
      (next.buffer? handle).getD [] = []) :
    Balanced answers next later { ledger with consumers } := by
  have htaken : { ledger with consumers }.taken answers = ledger.taken answers := by
    simp only [taken, Consumers.position, hsource, h.source, hupstream]
  refine ⟨⟨hsource, hhandles, hle, ?askers, ?dry, ?once, ?unused⟩,
    ?waiting, ?behind, h.errors, ?ended, ?ahead⟩
  case askers => exact h.askers.trans hupstream.symm
  case dry =>
    rw [hdry, hupstream]
    exact h.dry
  case once =>
    rw [hdry, hupstream]
    exact h.once
  case unused => exact fun handle hhandle => h.unused handle (Nat.le_trans hgrow hhandle)
  case waiting =>
    intro handle hhandle
    obtain ⟨hbefore, hbuffer⟩ := hopen handle hhandle
    rw [hbuffer, hdry]
    exact h.waiting handle hbefore
  case behind =>
    rw [hdry]
    exact h.behind
  case ended =>
    intro handle hmem
    obtain ⟨hend, hbuffer, hrecords⟩ := h.ended handle hmem
    rw [hdry, htaken]
    exact ⟨hend, hempty handle hbuffer, hrecords⟩
  case ahead =>
    rw [htaken]
    rcases h.ahead with hnone | ⟨handle, hlt, hall⟩
    · exact .inl hnone
    · exact .inr ⟨handle, Nat.lt_of_lt_of_le hlt hgrow, hall⟩

/-- Until the close a further branch may be attached: its buffer has been kept for it. -/
theorem attached (h : Balanced answers fork false ledger)
    (hlt : fork.handedOut < fork.branches) :
    Balanced answers { fork with handedOut := fork.handedOut + 1 } false
      { ledger with consumers := { ledger.consumers with
          source := .fork { fork with handedOut := fork.handedOut + 1 }
          handles := ledger.consumers.handles ++ [true] } } := by
  refine h.regroup rfl ?handles ?le ?grow rfl rfl ?waiting (fun _ hbuffer => hbuffer)
  case handles => rw [List.length_append, h.handles]; rfl
  case le => exact hlt
  case grow => exact Nat.le_succ _
  case waiting =>
    intro handle hopen
    refine ⟨?_, rfl⟩
    rcases hopen with hlive | ⟨_, hge, hbranch⟩
    · rcases Nat.lt_trichotomy handle ledger.consumers.handles.length with
        hbefore | heq | hafter
      · left
        rw [Consumers.isLive, List.getElem?_append_left hbefore] at hlive
        exact hlive
      · right
        rw [heq, h.handles]
        exact ⟨rfl, Nat.le_refl _, hlt⟩
      · rw [Consumers.isLive, List.getElem?_eq_none (by rw [List.length_append]; exact hafter)] at hlive
        cases hlive
    · exact .inr ⟨rfl, Nat.le_trans (Nat.le_succ _) hge, hbranch⟩

/-- A consumer that goes away takes nothing from the others. -/
theorem dropped (h : Balanced answers fork closed ledger)
    (hlive : ledger.consumers.isLive handle = true) :
    Balanced answers (fork.drop handle).2 closed
      { ledger with consumers := { ledger.consumers with
          source := .fork (fork.drop handle).2
          handles := ledger.consumers.handles.set handle false } } := by
  have hbranches : (fork.drop handle).2.branches = fork.branches := List.length_set
  refine h.regroup rfl ?handles ?le ?grow rfl rfl ?waiting ?empty
  case handles => exact List.length_set.trans h.handles
  case le =>
    rw [hbranches]
    exact h.handedOut_le
  case grow => exact Nat.le_refl _
  case waiting =>
    intro other hopen
    -- The handle has been handed out and is not live any more, so that it is not open.
    have hne : other ≠ handle := by
      rintro rfl
      rcases hopen with hthere | ⟨_, hge, _⟩
      · rw [Consumers.isLive, List.getElem?_set_self'] at hthere
        cases hheld : ledger.consumers.handles[other]? <;> simp [hheld] at hthere
      · exact absurd (h.lt_handedOut hlive) (Nat.not_lt.mpr hge)
    rw [Fork.buffer?_drop, if_neg hne]
    refine ⟨?_, rfl⟩
    rcases hopen with hthere | hunused
    · rw [Consumers.isLive, List.getElem?_set_ne (Ne.symm hne)] at hthere
      exact .inl hthere
    · rw [hbranches] at hunused
      exact .inr hunused
  case empty =>
    intro other hbuffer
    rw [Fork.buffer?_drop]
    split
    · rfl
    · exact hbuffer

/-- The close takes the buffers of the branches that nobody has. -/
theorem closing (h : Balanced answers fork closed ledger) :
    Balanced answers fork.close true
      { ledger with consumers := { ledger.consumers with source := .fork fork.close } } := by
  have hbranches : fork.close.branches = fork.branches := List.length_mapIdx
  refine h.regroup rfl h.handles ?le ?grow rfl rfl ?waiting ?empty
  case le =>
    rw [hbranches]
    exact h.handedOut_le
  case grow => exact Nat.le_refl _
  case waiting =>
    intro other hopen
    have hlive : ledger.consumers.isLive other = true :=
      hopen.resolve_right fun hunused => Bool.noConfusion hunused.1
    rw [Fork.buffer?_close]
    exact ⟨.inl hlive, if_pos (h.lt_handedOut hlive)⟩
  case empty =>
    intro other hbuffer
    rw [Fork.buffer?_close]
    split
    · exact hbuffer
    · rfl

theorem step_attach (h : Balanced answers fork false ledger) :
    ∃ next, Balanced answers next false (ledger.step answers .attach) := by
  have hstep : ledger.step answers .attach =
      { ledger with consumers := ledger.consumers.attach.consumers } := rfl
  rw [hstep]
  simp only [Consumers.attach, h.source, Fork.attach]
  split
  · by_cases hlt : fork.handedOut < fork.branches
    · rw [if_pos hlt]
      exact ⟨_, h.attached hlt⟩
    · rw [if_neg hlt]
      exact ⟨fork, h⟩
  · exact ⟨fork, h⟩

theorem step_pull (h : Balanced answers fork closed ledger) (handle : Nat) :
    ∃ next, Balanced answers next closed (ledger.step answers (.pull handle)) := by
  cases hlive : ledger.consumers.isLive handle with
  | true =>
      rw [Ledger.step_pull h.source hlive]
      exact ⟨_, h.pulled hlive (Fork.poll_pulled answers fork handle)⟩
  | false =>
      rw [step_pull_of_gone hlive]
      exact ⟨fork, h⟩

theorem step_drop (h : Balanced answers fork closed ledger) (handle : Nat) :
    ∃ next, Balanced answers next closed (ledger.step answers (.drop handle)) := by
  have hstep : ledger.step answers (.drop handle) =
      { ledger with consumers := (ledger.consumers.drop handle).consumers } := rfl
  rw [hstep]
  simp only [Consumers.drop, h.source]
  cases hlive : ledger.consumers.isLive handle with
  | true => exact ⟨_, h.dropped hlive⟩
  | false =>
      simp only [Bool.false_eq_true, if_false]
      split <;> exact ⟨fork, h⟩

theorem step_close (h : Balanced answers fork closed ledger) :
    ∃ next, Balanced answers next true (ledger.step answers .close) := by
  have hstep : ledger.step answers .close =
      { ledger with consumers := ledger.consumers.close.consumers } := rfl
  rw [hstep]
  simp only [Consumers.close, h.source]
  cases hsource : ledger.consumers.hasSource with
  | true =>
      have hclosing := h.closing
      simp only [hsource] at hclosing
      exact ⟨_, hclosing⟩
  | false => exact ⟨fork, h.close_later⟩

/-- The source is only needed for attaching further branches. -/
theorem step_dropSource (h : Balanced answers fork closed ledger) :
    Balanced answers fork closed (ledger.step answers .dropSource) :=
  h.regroup h.source h.handles h.handedOut_le (Nat.le_refl _) rfl rfl
    (fun _ hopen => ⟨hopen, rfl⟩) fun _ hbuffer => hbuffer

/-- One command keeps the balance, unless it attaches a branch after the close. -/
theorem step (h : Balanced answers fork closed ledger) (command : Command)
    (hattach : command = .attach → closed = false) :
    ∃ next, Balanced answers next (closed || decide (command = .close))
      (ledger.step answers command) := by
  cases command with
  | attach =>
      obtain rfl := hattach rfl
      exact h.step_attach
  | pull handle =>
      rw [decide_eq_false (by intro heq; cases heq), Bool.or_false]
      exact h.step_pull handle
  | drop handle =>
      rw [decide_eq_false (by intro heq; cases heq), Bool.or_false]
      exact h.step_drop handle
  | close =>
      rw [decide_eq_true rfl, Bool.or_true]
      exact h.step_close
  | dropSource =>
      rw [decide_eq_false (by intro heq; cases heq), Bool.or_false]
      exact ⟨fork, h.step_dropSource⟩

/-- Every run in which no branch is attached after the close keeps the balance. -/
theorem run (h : Balanced answers fork closed ledger) (commands : List Command)
    (hcommands : commands.Pairwise fun earlier later => earlier = .close → later ≠ .attach)
    (hclosed : closed = true → .attach ∉ commands) :
    ∃ next later, Balanced answers next later (ledger.run answers commands) := by
  induction commands generalizing ledger fork closed with
  | nil => exact ⟨fork, closed, h⟩
  | cons command rest ih =>
      obtain ⟨hhead, hrest⟩ := List.pairwise_cons.mp hcommands
      have hattach : command = .attach → closed = false := by
        rintro rfl
        by_contra hne
        exact hclosed (by simpa using hne) List.mem_cons_self
      obtain ⟨next, hnext⟩ := h.step command hattach
      refine ih hnext hrest ?_
      intro hlater hmem
      rcases Bool.or_eq_true_iff.mp hlater with hbefore | hnow
      · exact hclosed hbefore (List.mem_cons_of_mem _ hmem)
      · exact hhead _ hmem (of_decide_eq_true hnow) rfl

/-- A split of which nothing has come yet is balanced. -/
theorem start (answers : Nat → Poll) (id : ModuleId) (branches : Nat) :
    Balanced answers (.start id 0 branches) false (.start id branches) where
  source := rfl
  handles := rfl
  handedOut_le := Nat.zero_le _
  askers := rfl
  dry := fun hdry => Bool.noConfusion hdry
  once := fun place hplace => absurd hplace (Nat.not_lt_zero place)
  unused := fun _ _ => rfl
  waiting := by
    intro handle hopen
    have hbranch : handle < branches := by
      rcases hopen with hlive | ⟨_, _, hlt⟩
      · cases hlive
      · simpa [Fork.branches, Fork.start] using hlt
    refine ⟨[], 0, ?_, fun hpos => absurd hpos (Nat.lt_irrefl 0), rfl⟩
    rw [Fork.buffer?_start, if_pos hbranch]
  behind := fun _ =>
    ⟨[], 0, List.nil_prefix, fun hpos => absurd hpos (Nat.lt_irrefl 0), rfl⟩
  errors := fun _ => rfl
  ended := fun _ hmem => absurd hmem List.not_mem_nil
  ahead := .inl rfl

end Balanced

end Pipework.Fanout.Ledger
