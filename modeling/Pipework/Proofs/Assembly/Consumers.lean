import Pipework.Proofs.Assembly.Factories

/-! # Consumers suffice

What compiling a description counts is enough for assembling it, whatever the description.
-/

namespace Pipework

namespace Pipe

/-- The consumers that a plan counts are enough. Whenever a description is compiled, each loop
embeds a module that an earlier step binds, the last step is of a module that no loop owns and no
wire leaves, and assembling the pipe and taking its output, with any factories that build splits as
splits and all else as single stages, never finds a stage taken, a split without a branch left, an
embedded module unbound or a module fed by a record outside its loop. -/
theorem consumers_suffice {description : Value} {name : String} {pipe : Pipe}
    (hcompile : compile description name = .ok pipe) :
    (∀ before step after, pipe.plan.steps = before ++ step :: after →
      step.type = TypeName.loop → ∃ inner ∈ before,
        step.embed = some inner.id ∧ inner.embedded = true) ∧
    (∀ last, pipe.plan.last? = some last → last.embedded = false ∧
      ∀ wire ∈ pipe.diagram.wires, wire.source.module ≠ last.id) ∧
    ∀ {φ : Type} (workshop : Workshop Run φ), workshop.Regular →
      ∀ world error later, (workshop.output pipe).run.run world = some (.error error, later) →
        (∀ id, error ≠ .stageTaken id) ∧ (∀ id branches, error ≠ .noBranchLeft id branches) ∧
        (∀ path, error ≠ .malformed path .embedNotBound) ∧
        ∀ path, error ≠ .malformed path .recordOutsideLoop := by
  obtain ⟨diagram, hparse, hcompile⟩ := bind_eq_ok_iff.mp hcompile
  have hcoherent := Diagram.coherent_of_parse hparse
  obtain ⟨hexecution, hsteps, rfl⟩ := Diagram.compile_eq_execution hcoherent hcompile
  refine ⟨?embeds, fun last hlast => Diagram.last_step hexecution hsteps hlast, ?short⟩
  case embeds =>
    intro before step after hsplit htype
    obtain ⟨-, hmem⟩ := Diagram.stepsOf_eq_ok hsteps
    obtain ⟨module, -, hdescribes⟩ := hmem step (by simp [hsplit])
    obtain ⟨id, hid⟩ := hdescribes.exists_embed htype
    obtain ⟨inner, hinner, rfl, hembedded⟩ :=
      Diagram.embed_before hcoherent hexecution hsteps hsplit hid
    exact ⟨inner, hinner, hid, hembedded⟩
  case short =>
    intro φ workshop hregular world error later hrun
    have hshort := Workshop.output_suffices hregular
      (fun last hlast => Diagram.provident_of_compile hcoherent hcompile hlast) world _ later hrun
    refine ⟨?_, ?_, ?_, ?_⟩
    · rintro id rfl
      exact hshort trivial
    · rintro id branches rfl
      exact hshort trivial
    · rintro path rfl
      exact hshort trivial
    · rintro path rfl
      exact hshort trivial

theorem consumers_suffice_of_twiceFed : ∃ pipe, compile Diagram.twiceFed "pipe" = .ok pipe ∧
    (∀ last, pipe.plan.last? = some last → last.embedded = false) ∧
    ∀ setting : Setting, setting.registry = .standard → ∀ world error later,
      ((setting.workshop .sync .testing).output pipe).run.run world = some (.error error, later) →
        ∀ id, error ≠ .stageTaken id := by
  have hok : (compile Diagram.twiceFed "pipe").isOk = true := by cbv
  cases hpipe : compile Diagram.twiceFed "pipe" with
  | error error =>
      rw [hpipe] at hok
      cases hok
  | ok pipe =>
      obtain ⟨-, hlast, hshort⟩ := consumers_suffice hpipe
      refine ⟨pipe, rfl, fun last hlastStep => (hlast last hlastStep).1, ?_⟩
      intro setting hsetting world error later hrun
      have hsplit : ∀ type factory, setting.registry.get type = .ok factory →
          (type = TypeName.split ↔ factory = .builtin .split) := by
        intro type factory hfactory
        obtain ⟨builtin, rfl, rfl⟩ := Registry.get_standard (hsetting ▸ hfactory)
        exact ⟨fun heq => congrArg _ (Builtin.name_injective heq),
          fun heq => congrArg Builtin.name (Factory.builtin.inj heq)⟩
      exact (hshort (setting.workshop .sync .testing)
        (setting.regular hsplit .sync .testing) world error later hrun).1

end Pipe

end Pipework
