import Pipework.Proofs.Answers.Batching

/-! # Invoking an embedded module

Invoking an embedded module for a record is building it over that record and collecting what it
gives. An invocation comes to all the records or to the first error, be it that of building. The
work that a loop does on a record is an invocation and the loop's rule.
-/

namespace Pipework

variable {setting : Setting}

open Scene (Attains Settles Supplies)

namespace Answer

/-- The batch that answers come to: all the records, or the first error. -/
def batchOf (answers : List Answer) : Except PipeError (List Record) :=
  answers.mapM id

theorem batchOf_error (error : PipeError) (answers : List Answer) :
    batchOf (.error error :: answers) = .error error := by
  rw [batchOf, List.mapM_cons]
  rfl

theorem batchOf_ok (record : Record) (answers : List Answer) :
    batchOf (.ok record :: answers) =
      (batchOf answers).map fun records => record :: records := by
  rw [batchOf, List.mapM_cons, batchOf]
  cases answers.mapM id <;> rfl

end Answer

/-- What collecting the records of a stage comes to: all of them, or the first error. -/
inductive Scene.Collects (setting : Setting) :
    Scene → Except PipeError (List Record) → Scene → Prop
  | ended {before after : Scene} (h : Attains setting before .ended after) :
      Collects setting before (.ok []) after
  | failed {before after : Scene} {error : PipeError}
      (h : Attains setting before (.answer (.error error)) after) :
      Collects setting before (.error error) after
  | found {before middle after : Scene} {record : Record}
      {outcome : Except PipeError (List Record)}
      (h : Attains setting before (.answer (.ok record)) middle)
      (hrest : Collects setting middle outcome after) :
      Collects setting before (outcome.map fun records => record :: records) after

/-- An invocation of an embedded module for a record, by a stage that has other things to do with
its input. -/
inductive Embed.Invokes (setting : Setting) (mode : Mode) (embed : Embed Factory) (item : Record) :
    Scene → Except PipeError (List Record) → Scene → Prop
  | refused {before : Scene} {error : PipeError} {later : World}
      (h : (embed.instantiate setting mode item).run before.world = some (.error error, later)) :
      Invokes setting mode embed item before (.error error) { before with world := later }
  | entered {before after : Scene} {stage : Stage} {later : World}
      {outcome : Except PipeError (List Record)}
      (h : (embed.instantiate setting mode item).run before.world = some (.ok stage, later))
      (hcollects : Scene.Collects setting ⟨stage, before.junctions, later⟩ outcome after) :
      Invokes setting mode embed item before outcome { after with stage := before.stage }

section Once

variable {junctions : List (Junction Stage)} {world : World}

/-- A stage of one record gives it. -/
theorem Scene.Attains.once (item : Record) :
    Attains setting ⟨.once (some item), junctions, world⟩ (.answer (.ok item))
      ⟨.once none, junctions, world⟩ :=
  .ready (.ready rfl) nofun

/-- And it gives no more. -/
theorem Scene.Attains.once_none :
    Attains setting ⟨.once none, junctions, world⟩ .ended ⟨.once none, junctions, world⟩ :=
  .ready (.dry .once) nofun

end Once

namespace Scene.Collects

variable {before after last : Scene} {outcome other : Except PipeError (List Record)}

theorem deterministic (h : Collects setting before outcome after)
    (hother : Collects setting before other last) : outcome = other := by
  induction h generalizing other with
  | ended h =>
      cases hother with
      | ended => rfl
      | failed hother => cases (h.deterministic hother).1
      | found hother => cases (h.deterministic hother).1
  | failed h =>
      cases hother with
      | ended hother => cases (h.deterministic hother).1
      | failed hother =>
          cases (h.deterministic hother).1
          rfl
      | found hother => cases (h.deterministic hother).1
  | found h _ ih =>
      cases hother with
      | ended hother => cases (h.deterministic hother).1
      | failed hother => cases (h.deterministic hother).1
      | found hother hrest =>
          obtain ⟨hanswer, rfl⟩ := h.deterministic hother
          cases hanswer
          rw [ih hrest]

/-- There is something to attain first. -/
theorem attains (h : Collects setting before outcome after) :
    ∃ poll reached, Attains setting before poll reached := by
  cases h with
  | ended h => exact ⟨_, _, h⟩
  | failed h => exact ⟨_, _, h⟩
  | found h => exact ⟨_, _, h⟩

/-- A stage that supplies a row of answers is collected up to the first error in it. -/
theorem of_supplies {answers : List Answer} (h : Supplies setting before answers after) :
    ∃ reached, Collects setting before (Answer.batchOf answers) reached := by
  induction h with
  | ended h => exact ⟨_, .ended h⟩
  | @answer _ middle _ answer _ h _ ih =>
      cases answer with
      | error error =>
          rw [Answer.batchOf_error]
          exact ⟨middle, .failed h⟩
      | ok record =>
          obtain ⟨reached, hcollects⟩ := ih
          rw [Answer.batchOf_ok]
          exact ⟨reached, .found h hcollects⟩

/-- A stage that supplies records only is collected to its end. -/
theorem of_records {records : List Record}
    (h : Supplies setting before (records.map .ok) after) :
    Collects setting before (.ok records) after := by
  generalize hanswers : records.map Except.ok = answers at h
  induction h generalizing records with
  | ended h =>
      obtain rfl := List.map_eq_nil_iff.mp hanswers
      exact .ended h
  | answer h _ ih =>
      obtain ⟨record, rest, rfl, rfl, rfl⟩ := List.map_eq_cons_iff.mp hanswers
      exact .found h (ih rfl)

/-- A loop that collects comes to what its rule makes of all the records. -/
theorem works (h : Collects setting before outcome after) (rule : LoopRule) (item : Record)
    (source : Stage) (found : List Record) :
    Job.Works setting (.collect rule item before.stage found) { before with stage := source }
      (outcome.map fun records => rule.apply item (found ++ records))
      { after with stage := source } := by
  induction h generalizing found with
  | @ended before _ h =>
      have hends :=
        @Job.Works.ended _ rule item before.stage found { before with stage := source } _ h
      simpa only [Except.map, List.append_nil] using hends
  | @failed before _ _ h =>
      exact @Job.Works.failed _ rule item before.stage found _ { before with stage := source } _ h
  | @found before _ _ record outcome h _ ih =>
      have hrest := ih (found ++ [record])
      simp only [List.append_assoc, List.singleton_append] at hrest
      have hwhole : ((outcome.map fun records => record :: records).map
          fun records => rule.apply item (found ++ records)) =
            outcome.map fun records => rule.apply item (found ++ record :: records) := by
        cases outcome <;> rfl
      rw [hwhole]
      exact @Job.Works.found _ rule item before.stage found _ _ { before with stage := source } _ _
        h hrest

end Scene.Collects

namespace Embed.Invokes

variable {mode : Mode} {embed : Embed Factory} {item : Record} {before after last : Scene}
  {outcome other : Except PipeError (List Record)}

theorem deterministic (h : embed.Invokes setting mode item before outcome after)
    (hother : embed.Invokes setting mode item before other last) : outcome = other := by
  cases h with
  | refused h =>
      cases hother with
      | refused hother =>
          cases h.symm.trans hother
          rfl
      | entered hother => cases h.symm.trans hother
  | entered h hcollects =>
      cases hother with
      | refused hother => cases h.symm.trans hother
      | entered hother hrest =>
          cases h.symm.trans hother
          exact hcollects.deterministic hrest

/-- The work of a loop on a record is an invocation. -/
theorem works (h : embed.Invokes setting mode item before outcome after) (rule : LoopRule) :
    Job.Works setting (.instantiate rule embed mode item) before (outcome.map (rule.apply item))
      after := by
  cases h with
  | refused h => exact .refuse h
  | entered h hcollects => exact .enter h (hcollects.works rule item before.stage [])

end Embed.Invokes

namespace Job.Works

variable {rule : LoopRule} {item : Record} {batch : Except PipeError (List Record)}
  {before after : Scene}

theorem collects {stage : Stage} {found : List Record}
    (h : Works setting (.collect rule item stage found) before batch after) :
    ∃ outcome reached, Scene.Collects setting { before with stage } outcome reached := by
  generalize hjob : Job.collect rule item stage found = job at h
  induction h generalizing stage found with
  | wait | load | refuse | enter => cases hjob
  | ended h =>
      cases hjob
      exact ⟨_, _, .ended h⟩
  | failed h =>
      cases hjob
      exact ⟨_, _, .failed h⟩
  | found h _ ih =>
      cases hjob
      obtain ⟨outcome, reached, hrest⟩ := ih rfl
      exact ⟨_, reached, .found h hrest⟩

theorem invokes {embed : Embed Factory} {mode : Mode}
    (h : Works setting (.instantiate rule embed mode item) before batch after) :
    ∃ outcome reached, embed.Invokes setting mode item before outcome reached := by
  cases h with
  | refuse h => exact ⟨_, _, .refused h⟩
  | enter h hrest =>
      obtain ⟨outcome, reached, hcollects⟩ := hrest.collects
      exact ⟨outcome, _, .entered h hcollects⟩

end Job.Works

end Pipework
