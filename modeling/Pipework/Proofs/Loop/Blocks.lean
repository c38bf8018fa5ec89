import Pipework.Proofs.Loop.Embedding

/-! # The blocks of a loop

A loop answers with one block for each answer of its input, in their order. An error of the input
and an invocation that fails are a block of one error each; otherwise the loop's rule says what
becomes of the record and the records for it. What is in a block depends on its own record only, as
long as the invocations for the records come to an end: neither what was asked for before nor the
time, the files that have been read or the junctions around the loop matter.
-/

namespace Pipework

variable {setting : Setting} {known : Pipe → Prop} {mode : Mode}

open Scene (Attains Supplies)

namespace LoopRule

/-- What is filed of the records of an embedded module. -/
inductive Files (results : List Record) : Extent → Value → Prop
  | all : Files results .all (.list (results.map .object))
  | first {first : Record} {rest : List Record} (h : results = first :: rest) :
      Files results .first (.object first)
  | null (h : results = []) : Files results .first .null

/-- The answers that a loop gives for an answer of its input. -/
def block (rule : LoopRule) (outcomeOf : Record → Except PipeError (List Record)) :
    Answer → List Answer
  | .error error => [.error error]
  | .ok item =>
      match outcomeOf item with
      | .error error => [.error error]
      | .ok results => (rule.apply item results).map .ok

theorem block_ok (rule : LoopRule) (outcomeOf : Record → Except PipeError (List Record))
    (item : Record) : rule.block outcomeOf (.ok item) =
      Batches.answersOf ((outcomeOf item).map (rule.apply item)) := by
  rw [block]
  cases outcomeOf item <;> rfl

end LoopRule

/-- An invocation of an embedded module for a record yields finitely many answers, of which all
count or the first error, or its building fails. -/
inductive Embed.Yields (setting : Setting) (mode : Mode) (embed : Embed Factory) (item : Record) :
    World → Except PipeError (List Record) → Prop
  | refused {world later : World} {error : PipeError}
      (h : (embed.instantiate setting mode item).run world = some (.error error, later)) :
      Yields setting mode embed item world (.error error)
  | supplied {world later : World} {stage : Stage} {answers : List Answer} {after : Scene}
      (h : (embed.instantiate setting mode item).run world = some (.ok stage, later))
      (hsupplies : Supplies setting ⟨stage, [], later⟩ answers after) :
      Yields setting mode embed item world (Answer.batchOf answers)

/-- Wherever the embedded module is invoked for the record it yields finitely many answers. -/
def Embed.Finite (setting : Setting) (mode : Mode) (embed : Embed Factory) (item : Record) : Prop :=
  ∀ world, ∃ outcome, embed.Yields setting mode item world outcome

namespace Embed.Yields

variable {embed : Embed Factory} {item : Record} {world : World}
  {outcome other : Except PipeError (List Record)}

theorem invokes (h : embed.Yields setting mode item world outcome) :
    ∃ after, embed.Invokes setting mode item ⟨.sentinel, [], world⟩ outcome after := by
  cases h with
  | refused h => exact ⟨_, .refused h⟩
  | supplied h hsupplies =>
      obtain ⟨reached, hcollects⟩ := Scene.Collects.of_supplies hsupplies
      exact ⟨_, .entered h hcollects⟩

theorem deterministic (h : embed.Yields setting mode item world outcome)
    (hother : embed.Yields setting mode item world other) : outcome = other := by
  obtain ⟨_, hinvokes⟩ := h.invokes
  obtain ⟨_, hinvoked⟩ := hother.invokes
  exact hinvokes.deterministic hinvoked

end Embed.Yields

/-- The answers that a stage has to offer one after the other until it ends. In between anything may
go on, as long as nobody asks the user and the clock stands still. -/
inductive Scene.Offers (setting : Setting) : Scene → List Answer → Prop
  | ended {before after : Scene} (h : Attains setting before .ended after) :
      Offers setting before []
  | answer {before middle : Scene} {answer : Answer} {answers : List Answer}
      (h : Attains setting before (.answer answer) middle)
      (hrest : ∀ world : World, world.desk = middle.world.desk →
        Offers setting { middle with world } answers) :
      Offers setting before (answer :: answers)

namespace Scene.Offers

/-- A loop handles what its input has to offer block by block. The induction is on the answers; an
invocation leaves the desk and the input as they are, so that the rest is still on offer. -/
theorem handles {embed : Embed Factory} {outcomeOf : Record → Except PipeError (List Record)}
    {answers : List Answer} (rule : LoopRule)
    (halways : ∀ item, .ok item ∈ answers → embed.Always setting mode item (outcomeOf item))
    {before : Scene} (h : Offers setting before answers) :
    ∃ after, (Task.loop rule embed mode).Handles setting (fun _ => false) before answers
      (answers.flatMap (rule.block outcomeOf)) after := by
  induction h with
  | ended h => exact ⟨_, .ended h⟩
  | @answer _ middle answer answers h _ ih =>
      have hrest := fun item hmem => halways item (List.mem_cons_of_mem answer hmem)
      rw [List.flatMap_cons]
      cases answer with
      | error error =>
          obtain ⟨after, hhandles⟩ := ih middle.world rfl hrest
          exact ⟨after, .error h hhandles⟩
      | ok item =>
          obtain ⟨later, hlater, hinvokes⟩ := halways item List.mem_cons_self middle
          obtain ⟨after, hhandles⟩ := ih later hlater hrest
          rw [LoopRule.block_ok]
          exact ⟨after, .record h rfl (hinvokes.works rule) hhandles⟩

end Scene.Offers

namespace Builtin

end Builtin

end Pipework
