import Pipework.Proofs.Loop.Repeating

/-! # Embedded modules that always come to the same

An embedded module whose invocations for a record come to an end in every world comes to the same
in all of them. Most modules are built of themselves alone. A user input that prompts would give
without end where the user answers, and a loop comes to what its own embedded module comes to for the
record.
-/

namespace Pipework

variable {setting : Setting} {known : Pipe → Prop} {mode : Mode}

open Scene (Attains Collects Supplies)

/-- What an embedded module is built from for a record. -/
def Embed.arguments (embed : Embed Factory) (item : Record) : Arguments Factory :=
  { id := embed.id, context := embed.context, input := .once (some item), conf := embed.conf
    inputs := [], embed := embed.nested, branches := none }

namespace Builtin

end Builtin

namespace Embed.Loops

variable {embed inner : Embed Factory} {rule : LoopRule} {item : Record}

/-- What a loop over one record is collected to, from what its embedded module comes to. -/
theorem collects {outcome : Except PipeError (List Record)} {later : World} (id : ModuleId)
    (rule : LoopRule) {junctions : List (Junction Stage)} {world : World}
    (h : inner.Invokes setting mode item ⟨.once none, junctions, world⟩ outcome
      ⟨.once none, junctions, later⟩) :
    ∃ stage, Collects setting ⟨.looping id rule inner mode item, junctions, world⟩
      ((outcome.map (rule.apply item)).mapError fun error => error.whileProducing id 0)
      ⟨stage, junctions, later⟩ := by
  have hworked {poll : Poll} {after : Scene} := fun hrest =>
    (Attains.once item).go (.input (.loop rule inner mode)) rfl
      (@Job.Works.attains _ _ _ _ _ (h.works rule) (.loop rule inner mode) item.isSentinel poll after
        hrest)
  cases outcome with
  | error error =>
      have hfails := hworked (.ready (.ready rfl) nofun)
      exact ⟨_, .failed (hfails.stop (.tagged id 0) rfl)⟩
  | ok results =>
      have hend : Supplies setting
          ⟨.batches (.loop rule inner mode) ⟨.once none, [], none, item.isSentinel⟩, junctions, later⟩
          [] ⟨.batches (.loop rule inner mode) ⟨.once none, [], none, true⟩, junctions, later⟩ := by
        refine .ended ?_
        cases item.isSentinel with
        | true => exact .ready (.dry (.batches ..)) nofun
        | false => exact Attains.once_none.stop (.input (.loop rule inner mode)) rfl
      have hqueue := hend.queued ((rule.apply item results).map .ok)
      rw [List.append_nil] at hqueue
      obtain ⟨reached, hsupplies⟩ := (hqueue.of_attains fun _ _ => hworked).tagged id 0
      exact ⟨_, .of_records hsupplies⟩

end Embed.Loops

end Pipework
