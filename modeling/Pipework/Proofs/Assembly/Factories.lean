import Pipework.Proofs.Assembly.Output
import Pipework.Stage.Build

/-! # What factories build

Only the factory of splits builds splits. So wherever it is registered under their type and nowhere
else, as it is among the built-in types, assembling is regular.
-/

namespace Pipework

namespace Registry

theorem get_eq_ok {φ : Type} {registry : Registry φ} {type : String} {factory : φ} :
    registry.get type = .ok factory ↔ registry.factories.get? type = some factory := by
  unfold get
  cases registry.factories.get? type with
  | none => simp
  | some found => simp

/-- What is registered was there before or has been added under its name. -/
theorem get_registerAll {φ : Type} {registry : Registry φ} {added : List (String × φ)}
    {type : String} {factory : φ} (h : (registry.registerAll added).1.get type = .ok factory) :
    registry.get type = .ok factory ∨ (type, factory) ∈ added := by
  induction added generalizing registry with
  | nil => exact .inl h
  | cons entry rest ih =>
      obtain ⟨name, first⟩ := entry
      rw [registerAll, register] at h
      split at h
      next error herror => exact .inl h
      next next hnext =>
        split at hnext
        · cases hnext
        · cases hnext
          rcases ih h with hget | hmem
          · rw [get_eq_ok, Dict.get?_insert] at hget
            split at hget
            next heq =>
              cases hget
              exact .inr (heq ▸ List.mem_cons_self)
            · exact .inl (get_eq_ok.mpr hget)
          · exact .inr (List.mem_cons_of_mem _ hmem)

theorem get_standard {type : String} {factory : Factory}
    (h : standard.get type = .ok factory) :
    ∃ builtin : Builtin, type = builtin.name ∧ factory = .builtin builtin := by
  rcases get_registerAll h with hempty | hmem
  · cases get_eq_ok.mp hempty
  · obtain ⟨builtin, -, hentry⟩ := List.mem_map.mp hmem
    cases hentry
    exact ⟨builtin, rfl, rfl⟩

end Registry

theorem Builtin.buildInput_single {kind : FieldType} {args : Arguments Factory}
    {world later : World} {built : Built}
    (h : (buildInput kind args).run world = some (.ok built, later)) :
    ∃ stage, built = .single stage := by
  unfold buildInput at h
  split at h
  · cases h
  next input hinput =>
    obtain ⟨value, middle, -, hpure⟩ := run_bind_eq_some_iff.mp h
    cases hrecord : input.record kind value with
    | error error =>
        rw [hrecord] at hpure
        cases hpure
    | ok record =>
        rw [hrecord] at hpure
        cases hpure
        exact ⟨.constant record, rfl⟩

theorem Builtin.buildLoop_single {mode : Mode} {args : Arguments Factory} {built : Built}
    (h : buildLoop mode args = .ok built) : ∃ stage, built = .single stage := by
  unfold buildLoop at h
  split at h
  · cases h
  · obtain ⟨rule, -, hpure⟩ := bind_eq_ok_iff.mp h
    cases hpure
    exact ⟨_, rfl⟩

theorem Builtin.buildFetch_single {mode : Mode} {args : Arguments Factory} {built : Built}
    (h : buildFetch mode args = .ok built) : ∃ stage, built = .single stage := by
  obtain ⟨_, -, hpure⟩ := bind_eq_ok_iff.mp h
  cases hpure
  exact ⟨_, rfl⟩

theorem Fixture.buildScript_single {mode : Mode} {conf : Conf} {built : Built}
    (h : buildScript mode conf = .ok built) : ∃ stage, built = .single stage := by
  unfold buildScript at h
  split at h
  · cases h
  · cases h
    exact ⟨_, rfl⟩

/-- Only splits are built as splits. -/
theorem Factory.build_single {setting : Setting} {mode : Mode} {depth : Nat} {factory : Factory}
    {args : Arguments Factory} {world later : World} {built : Built}
    (hfactory : factory ≠ .builtin .split)
    (h : (factory.build setting mode depth args).run world = some (.ok built, later)) :
    ∃ stage, built = .single stage := by
  cases factory with
  | builtin type =>
      rw [Factory.build] at h
      cases type with
      | split => exact absurd rfl hfactory
      | loop =>
          obtain ⟨hbuilt, -⟩ := Prod.mk.inj (Option.some.inj h)
          exact Builtin.buildLoop_single hbuilt
      | fetch =>
          obtain ⟨hbuilt, -⟩ := Prod.mk.inj (Option.some.inj h)
          exact Builtin.buildFetch_single hbuilt
      | output | count | dateBuilder | exchangeRate =>
          cases h
          exact ⟨_, rfl⟩
      | textInput | numberInput | urlInput | privateInput => exact Builtin.buildInput_single h
  | fixture fixture =>
      rw [Factory.build] at h
      cases fixture with
      | emit =>
          obtain ⟨hbuilt, -⟩ := Prod.mk.inj (Option.some.inj h)
          exact Fixture.buildScript_single hbuilt
      | mutate | merge | pull =>
          cases h
          exact ⟨_, rfl⟩
      | probe =>
          obtain ⟨_, middle, -, hpure⟩ := run_bind_eq_some_iff.mp h
          cases hpure
          exact ⟨_, rfl⟩
  | pipe inner =>
      cases depth with
      | zero => cases h
      | succ depth =>
          rw [Factory.build] at h
          obtain ⟨outcome, middle, -, hpure⟩ := run_bind_eq_some_iff.mp h
          cases outcome with
          | error error => cases hpure
          | ok stage =>
              cases hpure
              exact ⟨stage, rfl⟩

/-- Where splits are the only modules of their type, every pipe is assembled regularly. -/
theorem Setting.regular {setting : Setting}
    (hsplit : ∀ type factory, setting.registry.get type = .ok factory →
      (type = TypeName.split ↔ factory = .builtin .split)) (mode : Mode) (context : RunContext) :
    (setting.workshop mode context).Regular where
  split := by
    intro factory hfactory args world outcome later hbuild
    obtain rfl := (hsplit _ factory hfactory).mp rfl
    cases hbuild
    rfl
  single := by
    intro type factory htype hfactory args world built later hbuild
    exact Factory.build_single (mt (hsplit type factory hfactory).mpr htype) hbuild

/-- Among the built-in types splits are the only ones of their type. -/
theorem Setting.regular_standard {setting : Setting} (hsetting : setting.registry = .standard)
    (mode : Mode) (context : RunContext) : (setting.workshop mode context).Regular := by
  refine setting.regular (fun type factory hfactory => ?_) mode context
  obtain ⟨builtin, rfl, rfl⟩ := Registry.get_standard (hsetting ▸ hfactory)
  exact ⟨fun heq => congrArg _ (Builtin.name_injective heq),
    fun heq => congrArg Builtin.name (Factory.builtin.inj heq)⟩

end Pipework
