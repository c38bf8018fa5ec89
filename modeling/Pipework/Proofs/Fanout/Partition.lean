import Pipework.Proofs.Fanout.Ledger

/-! # How a shared stage is divided among its consumers

The consumers of a shared stage see its answers between them: each answer goes to the handle that
asked for it and to no other, in the order of the upstream. Handles may come and go at any time,
for the stage does not know them. After its end the upstream is left alone.
-/

namespace Pipework.Tap

variable {υ : Type}

theorem settle_poll (tap : Tap υ) (consumer : Nat) (poll : Poll) :
    (tap.settle consumer poll).poll = poll := by
  cases poll with
  | pending => simp only [settle]; split <;> rfl
  | _ => rfl

theorem settle_upstream (tap : Tap υ) (consumer : Nat) (poll : Poll) :
    (tap.settle consumer poll).tap.upstream = tap.upstream := by
  cases poll with
  | pending => simp only [settle]; split <;> rfl
  | _ => rfl

theorem settle_dry_iff (tap : Tap υ) (consumer : Nat) (poll : Poll) (hdry : tap.dry = false) :
    (tap.settle consumer poll).tap.dry = true ↔ poll = .ended := by
  cases poll with
  | pending => simp only [settle]; split <;> simp [hdry]
  | ended => simp [settle]
  | answer answer => simp [settle, hdry]

variable {answers : Nat → Poll} {tap : Tap Nat}

theorem poll_of_dry (hdry : tap.dry = true) (consumer : Nat) :
    tap.poll (m := Id) (Poll.ofSequence answers) consumer =
      (⟨.ended, [], tap⟩ : Outcome Nat) := by
  simp only [poll, hdry, if_true]
  rfl

/-- How asking a tap comes out before the upstream has ended. -/
theorem poll_of_not_dry (answers : Nat → Poll) (hdry : tap.dry = false) (consumer : Nat) :
    let outcome : Outcome Nat := tap.poll (m := Id) (Poll.ofSequence answers) consumer
    outcome.poll = answers tap.upstream ∧ outcome.tap.upstream = tap.upstream + 1 ∧
      (outcome.tap.dry = true ↔ answers tap.upstream = .ended) := by
  simp only [poll, hdry, Bool.false_eq_true, if_false]
  exact ⟨settle_poll .., settle_upstream .., settle_dry_iff _ _ _ rfl⟩

end Pipework.Tap

namespace Pipework.Fanout.Ledger

/-- A shared stage of which nothing has come yet, with the handles that are there already. -/
def shared (handles : List Bool) : Ledger :=
  { consumers := { source := .tap (.start 0), handles, hasSource := true }
    given := fun _ => []
    askers := [] }

/-- What a command that came to a reply has told which handle. -/
def notice? : Command × Reply → Option (Nat × Poll)
  | (.pull handle, .polled poll) => some (handle, poll)
  | _ => none

/-- What the handles are told by a row of commands, in the order in which they ask. -/
def told (answers : Nat → Poll) (consumers : Consumers Nat) (commands : List Command) :
    List (Nat × Poll) :=
  let replies : List (Reply × List Nat) := consumers.run (Poll.ofSequence answers) commands
  (commands.zip (replies.map Prod.fst)).filterMap notice?

/-- The answers that were asked for, with the handles that asked for them. -/
def handed (answers : Nat → Poll) (first : Nat) (askers : List Nat) : List (Nat × Poll) :=
  (askers.zipIdx first).map fun entry => (entry.1, answers entry.2)

/-- What is told after the end. -/
def refused (late : List Nat) : List (Nat × Poll) :=
  late.map fun handle => (handle, .ended)

/-- What one handle is told, of what all of them are told. -/
def share (handle : Nat) (entries : List (Nat × Poll)) : List Poll :=
  (entries.filter fun entry => entry.1 = handle).map Prod.snd

section Entries

variable {answers : Nat → Poll}

theorem handed_append (first : Nat) (earlier later : List Nat) :
    handed answers first (earlier ++ later) =
      handed answers first earlier ++ handed answers (first + earlier.length) later := by
  simp only [handed, List.zipIdx_append, List.map_append]

theorem map_snd_handed (askers : List Nat) :
    (handed answers 0 askers).map Prod.snd = (List.range askers.length).map answers := by
  have hpositions : List.range askers.length = askers.zipIdx.map Prod.snd := by
    rw [List.zipIdx_map_snd, List.range_eq_range']
  rw [handed, hpositions, List.map_map, List.map_map]
  rfl

theorem map_snd_refused (late : List Nat) :
    (refused late).map Prod.snd = List.replicate late.length .ended := by
  rw [refused, List.map_map]
  exact List.map_const' ..

theorem share_append (handle : Nat) (earlier later : List (Nat × Poll)) :
    share handle (earlier ++ later) = share handle earlier ++ share handle later := by
  simp only [share, List.filter_append, List.map_append]

theorem share_refused (handle : Nat) (late : List Nat) :
    ∃ times, share handle (refused late) = List.replicate times .ended := by
  induction late with
  | nil => exact ⟨0, rfl⟩
  | cons first rest ih =>
      obtain ⟨times, htimes⟩ := ih
      by_cases hfirst : first = handle
      · refine ⟨times + 1, ?_⟩
        rw [List.replicate_succ, ← htimes]
        simp [share, refused, hfirst]
      · refine ⟨times, ?_⟩
        rw [← htimes]
        simp [share, refused, hfirst]

/-- What a handle asked for is its share of the answers that were asked for. -/
theorem share_handed (ledger : Ledger) (handle : Nat) :
    share handle (handed answers 0 ledger.askers) = ledger.asked answers handle := by
  rw [share, handed, asked]
  induction ledger.askers.zipIdx with
  | nil => rfl
  | cons entry rest ih =>
      by_cases hentry : entry.1 = handle
      · simpa [hentry] using ih
      · simpa [hentry] using ih

end Entries

section Steps

variable {answers : Nat → Poll} {ledger : Ledger}

theorem step_consumers (command : Command) :
    (ledger.step answers command).consumers =
      (ledger.consumers.step (m := Id) (Poll.ofSequence answers) command).consumers := by
  simp only [step]
  split <;> rfl

theorem told_cons (command : Command) (rest : List Command) :
    told answers ledger.consumers (command :: rest) =
      (notice? (command,
        (ledger.consumers.step (m := Id) (Poll.ofSequence answers) command).reply)).toList ++
      told answers (ledger.step answers command).consumers rest := by
  rw [step_consumers]
  have hrun : (ledger.consumers.run (m := Id) (Poll.ofSequence answers) (command :: rest)) =
      let result : Result Nat := ledger.consumers.step (m := Id) (Poll.ofSequence answers) command
      (result.reply, result.woken) ::
        result.consumers.run (m := Id) (Poll.ofSequence answers) rest := rfl
  simp only [told, hrun, List.map_cons, List.zip_cons_cons, List.filterMap_cons]
  cases notice? (command,
    (ledger.consumers.step (m := Id) (Poll.ofSequence answers) command).reply) <;> rfl

theorem told_append (earlier later : List Command) :
    told answers ledger.consumers (earlier ++ later) =
      told answers ledger.consumers earlier ++
        told answers (ledger.run answers earlier).consumers later := by
  induction earlier generalizing ledger with
  | nil => rfl
  | cons command rest ih =>
      rw [List.cons_append, told_cons, told_cons, ih, List.append_assoc]
      rfl

end Steps

/-- What holds of a shared stage at every point of a run. -/
structure Shares (answers : Nat → Poll) (tap : Tap Nat) (ledger : Ledger) : Prop where
  source : ledger.consumers.source = .tap tap
  askers : ledger.askers.length = tap.upstream
  /-- The end has been told last, if it has been told at all. -/
  ended : ∀ place < tap.upstream, answers place = .ended → place + 1 = tap.upstream ∧ tap.dry
  dry : tap.dry → ∃ last, tap.upstream = last + 1 ∧ answers last = .ended

namespace Shares

variable {answers : Nat → Poll} {tap : Tap Nat} {ledger : Ledger}

theorem position_eq (h : Shares answers tap ledger) :
    ledger.consumers.position = tap.upstream := by
  simp only [Consumers.position, h.source]

theorem over_iff (h : Shares answers tap ledger) : ledger.Over answers ↔ tap.dry = true := by
  rw [Over, h.position_eq]
  constructor
  · rintro ⟨last, hlast, hended⟩
    exact (h.ended last (by omega) hended).2
  · exact h.dry

theorem shared (answers : Nat → Poll) (handles : List Bool) :
    Shares answers (.start 0) (Ledger.shared handles) where
  source := rfl
  askers := rfl
  ended := fun place hplace => absurd hplace (Nat.not_lt_zero place)
  dry := fun hdry => Bool.noConfusion hdry

/-- What a row of commands makes of a shared stage: the handles that asked for the next answers,
and the handles that came after the end. -/
structure Hands (answers : Nat → Poll) (before : Ledger) (entries : List (Nat × Poll))
    (after : Ledger) (askers late : List Nat) : Prop where
  told : entries = handed answers before.consumers.position askers ++ refused late
  spent : before.Over answers → askers = []
  late : late ≠ [] → after.Over answers
  askers : after.askers = before.askers ++ askers

theorem Hands.none {after : Ledger} (haskers : after.askers = ledger.askers) :
    Hands answers ledger [] after [] [] :=
  ⟨rfl, fun _ => rfl, fun hne => absurd rfl hne, haskers.trans (List.append_nil _).symm⟩

/-- A step that leaves the upstream alone leaves a shared stage as it is. -/
theorem of_source_eq (h : Shares answers tap ledger) {after : Ledger}
    (hsource : after.consumers.source = ledger.consumers.source)
    (haskers : after.askers = ledger.askers) : Shares answers tap after :=
  ⟨hsource.trans h.source, (congrArg List.length haskers).trans h.askers, h.ended, h.dry⟩

/-- The ledger after a handle has asked a shared stage. -/
theorem step_pull_eq (h : Shares answers tap ledger) {handle : Nat}
    (hlive : ledger.consumers.isLive handle = true) :
    let outcome : Tap.Outcome Nat := tap.poll (m := Id) (Poll.ofSequence answers) handle
    notice? (.pull handle, (ledger.consumers.step (m := Id) (Poll.ofSequence answers)
        (.pull handle)).reply) = some (handle, outcome.poll) ∧
      (ledger.step answers (.pull handle)).consumers.source = .tap outcome.tap ∧
      (ledger.step answers (.pull handle)).askers =
        ledger.askers ++ List.replicate (outcome.tap.upstream - tap.upstream) handle := by
  have hpull : ledger.consumers.pull (m := Id) (Poll.ofSequence answers) handle =
      let outcome : Tap.Outcome Nat := tap.poll (m := Id) (Poll.ofSequence answers) handle
      (⟨.polled outcome.poll, outcome.woken,
        { ledger.consumers with source := .tap outcome.tap }⟩ : Result Nat) := by
    simp only [Consumers.pull, hlive, if_true, h.source]
    rfl
  have hstep : ledger.consumers.step (m := Id) (Poll.ofSequence answers) (.pull handle) =
      ledger.consumers.pull (m := Id) (Poll.ofSequence answers) handle := rfl
  refine ⟨?_, ?_, ?_⟩
  · rw [hstep, hpull]
    rfl
  · rw [step_consumers, hstep, hpull]
  · simp only [Ledger.step, hstep, hpull, h.position_eq]
    rfl

/-- Asking after the end tells a handle of the end, and the upstream is not asked. -/
theorem step_pull_of_dry (h : Shares answers tap ledger) (hdry : tap.dry = true) {handle : Nat}
    (hlive : ledger.consumers.isLive handle = true) :
    Shares answers tap (ledger.step answers (.pull handle)) ∧
      Hands answers ledger (notice? (.pull handle, (ledger.consumers.step (m := Id)
        (Poll.ofSequence answers) (.pull handle)).reply)).toList
        (ledger.step answers (.pull handle)) [] [handle] := by
  obtain ⟨hentry, hsource, haskers⟩ := h.step_pull_eq hlive
  rw [Tap.poll_of_dry hdry] at hentry hsource haskers
  rw [Nat.sub_self, List.replicate_zero, List.append_nil] at haskers
  have hshares := h.of_source_eq (hsource.trans h.source.symm) haskers
  refine ⟨hshares, ?_, fun _ => rfl, fun _ => hshares.over_iff.mpr hdry, ?_⟩
  · rw [hentry]
    rfl
  · rw [haskers, List.append_nil]

/-- Asking before the end tells a handle the next answer. -/
theorem step_pull_of_not_dry (h : Shares answers tap ledger) (hdry : tap.dry = false)
    {handle : Nat} (hlive : ledger.consumers.isLive handle = true) :
    (∃ next, Shares answers next (ledger.step answers (.pull handle))) ∧
      Hands answers ledger (notice? (.pull handle, (ledger.consumers.step (m := Id)
        (Poll.ofSequence answers) (.pull handle)).reply)).toList
        (ledger.step answers (.pull handle)) [handle] [] := by
  obtain ⟨hentry, hsource, haskers⟩ := h.step_pull_eq hlive
  obtain ⟨hpoll, hupstream, hended⟩ := Tap.poll_of_not_dry answers hdry handle
  rw [hpoll] at hentry
  rw [hupstream, Nat.add_sub_cancel_left, List.replicate_one] at haskers
  refine ⟨⟨_, hsource, ?_, ?_, ?_⟩, ?_, ?_, fun hne => absurd rfl hne, haskers⟩
  · rw [haskers, List.length_append, h.askers, hupstream]
    rfl
  · rw [hupstream, hended]
    intro place hplace hplace_ended
    obtain rfl | hlt := Nat.lt_succ_iff_lt_or_eq.mp hplace |>.symm
    · exact ⟨rfl, hplace_ended⟩
    · exact Bool.noConfusion (hdry.symm.trans (h.ended place hlt hplace_ended).2)
  · rw [hupstream, hended]
    exact fun hlast => ⟨tap.upstream, rfl, hlast⟩
  · rw [hentry, h.position_eq]
    rfl
  · intro hover
    exact Bool.noConfusion (hdry.symm.trans (h.over_iff.mp hover))

/-- A command that is no pull of a handle whose consumer is there tells nobody anything. -/
theorem step_silent (h : Shares answers tap ledger) {command : Command}
    (hcommand : ∀ handle, command = .pull handle → ledger.consumers.isLive handle = false) :
    Shares answers tap (ledger.step answers command) ∧
      Hands answers ledger (notice? (command, (ledger.consumers.step (m := Id)
        (Poll.ofSequence answers) command).reply)).toList
        (ledger.step answers command) [] [] := by
  have hkept : (ledger.step answers command).consumers.source = ledger.consumers.source ∧
      (ledger.step answers command).askers = ledger.askers ∧
      notice? (command, (ledger.consumers.step (m := Id)
        (Poll.ofSequence answers) command).reply) = none := by
    have hsource := h.source
    cases command with
    | pull handle =>
        have hgone := hcommand handle rfl
        simp only [Ledger.step, Consumers.step, Consumers.pull, hgone]
        exact ⟨rfl, rfl, rfl⟩
    | attach =>
        refine ⟨?_, rfl, rfl⟩
        rw [step_consumers]
        simp only [Consumers.step, Consumers.attach, hsource]
        cases ledger.consumers.hasSource with
        | false => exact hsource
        | true => rfl
    | drop handle =>
        refine ⟨?_, rfl, rfl⟩
        rw [step_consumers]
        simp only [Consumers.step, Consumers.drop, hsource]
        split
        · rfl
        · split <;> exact hsource
    | close =>
        refine ⟨?_, rfl, rfl⟩
        rw [step_consumers]
        simp only [Consumers.step, Consumers.close, hsource]
        exact hsource
    | dropSource => exact ⟨rfl, rfl, rfl⟩
  obtain ⟨hsource, haskers, hentry⟩ := hkept
  rw [hentry]
  exact ⟨h.of_source_eq hsource haskers, .none haskers⟩

/-- Whatever a command is, a shared stage stays one, and the handle that asks is told what comes
next. -/
theorem step (h : Shares answers tap ledger) (command : Command) :
    ∃ next askers late, Shares answers next (ledger.step answers command) ∧
      Hands answers ledger (notice? (command, (ledger.consumers.step (m := Id)
        (Poll.ofSequence answers) command).reply)).toList
        (ledger.step answers command) askers late := by
  by_cases hpull : ∃ handle, command = .pull handle ∧ ledger.consumers.isLive handle = true
  · obtain ⟨handle, rfl, hlive⟩ := hpull
    cases hdry : tap.dry with
    | true => exact ⟨tap, [], [handle], h.step_pull_of_dry hdry hlive⟩
    | false =>
        obtain ⟨⟨next, hshares⟩, hhands⟩ := h.step_pull_of_not_dry hdry hlive
        exact ⟨next, [handle], [], hshares, hhands⟩
  · refine ⟨tap, [], [], h.step_silent ?_⟩
    rintro handle rfl
    simpa using fun hlive => hpull ⟨handle, rfl, hlive⟩

/-- A handle whose consumer is there is told the next answer, or the end. -/
theorem told_pull (h : Shares answers tap ledger) {handle : Nat}
    (hlive : ledger.consumers.isLive handle = true) :
    ∃ poll, told answers ledger.consumers [.pull handle] = [(handle, poll)] ∧
      (¬ ledger.Over answers → poll = answers ledger.consumers.position) ∧
      (ledger.Over answers → poll = .ended) := by
  rw [h.over_iff, h.position_eq, told_cons, (h.step_pull_eq hlive).1]
  refine ⟨_, rfl, ?_, ?_⟩
  · intro hdry
    exact (Tap.poll_of_not_dry answers (by simpa using hdry) handle).1
  · intro hdry
    rw [Tap.poll_of_dry hdry]

theorem Hands.trans {middle after : Ledger} {first last : Tap Nat}
    {earlier later : List (Nat × Poll)} {askers moreAskers late moreLate : List Nat}
    (h : Shares answers tap ledger) (hmiddle : Shares answers first middle)
    (hafter : Shares answers last after) (hearlier : Hands answers ledger earlier middle askers late)
    (hlater : Hands answers middle later after moreAskers moreLate) :
    Hands answers ledger (earlier ++ later) after (askers ++ moreAskers) (late ++ moreLate) := by
  have hposition : middle.consumers.position = ledger.consumers.position + askers.length := by
    rw [h.position_eq, hmiddle.position_eq, ← h.askers, ← hmiddle.askers, hearlier.askers,
      List.length_append]
  have hkept (hover : middle.Over answers) : after.Over answers := by
    have hsame : after.consumers.position = middle.consumers.position := by
      rw [hafter.position_eq, hmiddle.position_eq, ← hafter.askers, ← hmiddle.askers,
        hlater.askers, hlater.spent hover, List.append_nil]
    rw [Over, hsame]
    exact hover
  refine ⟨?_, ?_, ?_, ?_⟩
  · rw [hearlier.told, hlater.told, handed_append, hposition]
    -- Once somebody has come too late, nobody asks the upstream any more.
    cases late with
    | nil => simp [refused]
    | cons handle rest =>
        rw [hlater.spent (hearlier.late (List.cons_ne_nil handle rest))]
        simp [refused, handed]
  · intro hover
    have hnobody := hearlier.spent hover
    rw [hnobody, List.nil_append]
    apply hlater.spent
    rw [Over, hposition, hnobody]
    exact hover
  · intro hlate
    obtain hne | hne := not_and_or.mp fun hnil => hlate (List.append_eq_nil_iff.mpr hnil)
    · exact hkept (hearlier.late hne)
    · exact hlater.late hne
  · rw [hlater.askers, hearlier.askers, List.append_assoc]

/-- What a whole row of commands makes of a shared stage. -/
theorem run (h : Shares answers tap ledger) (commands : List Command) :
    ∃ next askers late, Shares answers next (ledger.run answers commands) ∧
      Hands answers ledger (told answers ledger.consumers commands)
        (ledger.run answers commands) askers late := by
  induction commands generalizing ledger tap with
  | nil => exact ⟨tap, [], [], h, .none rfl⟩
  | cons command rest ih =>
      obtain ⟨middle, askers, late, hmiddle, hfirst⟩ := h.step command
      obtain ⟨next, moreAskers, moreLate, hnext, hrest⟩ := ih hmiddle
      rw [told_cons]
      exact ⟨next, askers ++ moreAskers, late ++ moreLate, hnext,
        Hands.trans h hmiddle hnext hfirst hrest⟩

end Shares

/-- A shared stage is divided among its handles by a row of commands: what they have been told
taken together, what each of them has been told, and what they will be told. -/
structure Divided (answers : Nat → Poll) (handles : List Bool) (commands : List Command)
    (after : Ledger) (entries : List (Nat × Poll)) : Prop where
  /-- Each answer of the upstream has been told once, in order, to the handle that asked for it;
  after the end the handles have been told of the end. -/
  together : ∃ late, entries = handed answers 0 after.askers ++ refused late ∧
    (late ≠ [] → after.Over answers)
  /-- So all that has been told is the upstream's own sequence, and the end again. -/
  order : ∃ times, entries.map Prod.snd =
      (List.range after.consumers.position).map answers ++ List.replicate times .ended ∧
    (0 < times → after.Over answers)
  /-- The upstream has been asked for these answers and no others. -/
  asked : after.askers.length = after.consumers.position
  /-- It has not been asked again after its end. -/
  once : ∀ place < after.consumers.position, answers place = .ended →
    place + 1 = after.consumers.position
  /-- A handle has been told what it asked for, which is a part of the upstream in its order. -/
  each : ∀ handle, (∃ times, share handle entries =
      after.asked answers handle ++ List.replicate times .ended) ∧
    List.Sublist (after.asked answers handle)
      ((List.range after.consumers.position).map answers)
  /-- A handle that asks now is told the next answer, unless the upstream has ended. -/
  next : ∀ handle, after.consumers.isLive handle = true → ∃ poll,
    told answers (shared handles).consumers (commands ++ [.pull handle]) =
        entries ++ [(handle, poll)] ∧
      (¬ after.Over answers → poll = answers after.consumers.position) ∧
      (after.Over answers → poll = .ended)
  /-- From the end on the handles are told of the end only, and the upstream is left alone. -/
  rest : after.Over answers → ∀ more, ∃ late,
    told answers (shared handles).consumers (commands ++ more) = entries ++ refused late ∧
      (after.run answers more).consumers.position = after.consumers.position

theorem asked_sublist {answers : Nat → Poll} (ledger : Ledger) (handle : Nat) :
    List.Sublist (ledger.asked answers handle)
      ((List.range ledger.askers.length).map answers) := by
  rw [← share_handed, share, ← map_snd_handed]
  exact List.filter_sublist.map Prod.snd

/-- A shared stage is divided among its consumers: whatever the upstream gives, however many
handles there are, and in whatever order they come, ask and go away. -/
theorem run_divided (answers : Nat → Poll) (handles : List Bool) (commands : List Command) :
    Divided answers handles commands ((shared handles).run answers commands)
      (told answers (shared handles).consumers commands) := by
  obtain ⟨tap, askers, late, hshares, hhands⟩ := (Shares.shared answers handles).run commands
  have haskers : ((shared handles).run answers commands).askers = askers := hhands.askers
  have htold : told answers (shared handles).consumers commands =
      handed answers 0 askers ++ refused late := hhands.told
  have hlength : ((shared handles).run answers commands).askers.length =
      ((shared handles).run answers commands).consumers.position :=
    hshares.askers.trans hshares.position_eq.symm
  refine ⟨⟨late, haskers ▸ htold, hhands.late⟩, ⟨late.length, ?_, ?_⟩, hlength, ?_, ?_, ?_, ?_⟩
  · rw [htold, List.map_append, map_snd_handed, ← haskers, hlength, map_snd_refused]
  · exact fun hlate => hhands.late (List.ne_nil_of_length_pos hlate)
  · rw [hshares.position_eq]
    exact fun place hplace hended => (hshares.ended place hplace hended).1
  · intro handle
    refine ⟨?_, hlength ▸ asked_sublist _ handle⟩
    obtain ⟨times, htimes⟩ := share_refused handle late
    refine ⟨times, ?_⟩
    rw [htold, share_append, htimes, ← haskers, share_handed]
  · intro handle hlive
    obtain ⟨poll, hpoll, hnext⟩ := hshares.told_pull hlive
    refine ⟨poll, ?_, hnext⟩
    rw [told_append, hpoll]
  · intro hover more
    obtain ⟨next, moreAskers, moreLate, hnext, hmore⟩ := hshares.run more
    have hnobody := hmore.spent hover
    refine ⟨moreLate, ?_, ?_⟩
    · rw [told_append, hmore.told, hnobody]
      rfl
    · rw [hnext.position_eq, hshares.position_eq, ← hnext.askers, ← hshares.askers, hmore.askers,
        hnobody, List.append_nil]

end Pipework.Fanout.Ledger
