import Pipework.Proofs.Assembly.Factories

/-! # Registering types call by call

A registry is filled by calls, and goes on to be filled after a call that was refused. A call
registers the types it offers one after the other up to the first that is already there. Only the
call for the built-in types offers several. What it has registered before the refused type stays,
for nothing takes a type back; the other calls change nothing when they are refused.
-/

namespace Pipework

/-- A call that registers types of modules. -/
inductive Registration where
  | type (name : String) (factory : Factory)
  /-- Registers a compiled pipe under its name. -/
  | pipe (name : String) (inner : Pipe)
  /-- Registers the built-in types. -/
  | builtins

namespace Registration

/-- The types that a call registers, in their order. -/
def offers : Registration → List (String × Factory)
  | type name factory => [(name, factory)]
  | pipe name inner => [(TypeName.ofPipe name, .pipe inner)]
  | builtins => Registry.builtins

/-- The offered types in front of the first that is already registered. -/
def accepted (registry : Registry Factory) (call : Registration) : List (String × Factory) :=
  call.offers.takeWhile fun entry => !registry.contains entry.1

/-- The first offered type that is already registered. -/
def refused? (registry : Registry Factory) (call : Registration) : Option (String × Factory) :=
  call.offers.find? fun entry => registry.contains entry.1

/-- What a call comes to, given the type it is refused for. -/
def outcome {φ : Type} : Option (String × φ) → Except PipeError Unit
  | none => .ok ()
  | some entry => .error (.duplicateType entry.1)

/-- No call offers two types of one name. -/
theorem offers_nodup (call : Registration) : (call.offers.map Prod.fst).Nodup := by
  cases call with
  | type name factory => exact List.nodup_singleton _
  | pipe name inner => exact List.nodup_singleton _
  | builtins =>
      have hnames : Registry.builtins.map Prod.fst = Builtin.all.map Builtin.name := by
        simp [Registry.builtins, Function.comp_def]
      rw [offers, hnames]
      exact (by decide : Builtin.all.Nodup).map fun _ _ => Builtin.name_injective

end Registration

namespace Registry

variable {φ : Type} {registry before middle after : Registry φ}

/-- A registry after a registration; a refused one leaves it as it was. -/
def keeping (registry : Registry φ) :
    Except PipeError (Registry φ) → Registry φ × Except PipeError Unit
  | .error error => (registry, .error error)
  | .ok next => (next, .ok ())

/-- The registry after a call, and what the call came to. -/
def perform (registry : Registry Factory) :
    Registration → Registry Factory × Except PipeError Unit
  | .type name factory => registry.keeping (registry.register name factory)
  | .pipe name inner => registry.keeping (registry.addPipe name inner)
  | .builtins => registry.addBuiltins

/-- The registry after calls in a row, refused ones included. -/
def performAll (registry : Registry Factory) (calls : List Registration) : Registry Factory :=
  calls.foldl (fun current call => (current.perform call).1) registry

theorem contains_iff_get {type : String} :
    registry.contains type = true ↔ ∃ factory, registry.get type = .ok factory := by
  simp only [contains, Dict.contains, Option.isSome_iff_exists, get_eq_ok]

/-- A registry finds exactly what another does and the added types, which are new. -/
structure Adds (before after : Registry φ) (added : List (String × φ)) : Prop where
  found : ∀ type factory,
    after.get type = .ok factory ↔ before.get type = .ok factory ∨ (type, factory) ∈ added
  fresh : ∀ entry ∈ added, before.contains entry.1 = false

theorem Adds.nil (registry : Registry φ) : registry.Adds registry [] where
  found := by simp
  fresh := by simp

/-- The registered types are those from before and the added ones. -/
theorem Adds.contains_iff {added : List (String × φ)} (hadds : before.Adds after added)
    {type : String} :
    after.contains type = true ↔ before.contains type = true ∨ type ∈ added.map Prod.fst := by
  simp only [contains_iff_get, hadds.found, exists_or, List.mem_map, Prod.exists,
    exists_eq_right, exists_and_right]

theorem Adds.trans {first second : List (String × φ)} (hfirst : before.Adds middle first)
    (hsecond : middle.Adds after second) : before.Adds after (first ++ second) where
  found := by
    intro type factory
    rw [hsecond.found, hfirst.found, List.mem_append, or_assoc]
  fresh := by
    intro entry hentry
    rcases List.mem_append.mp hentry with hmem | hmem
    · exact hfirst.fresh entry hmem
    · refine Bool.eq_false_iff.mpr fun hbefore => ?_
      have hmiddle := hfirst.contains_iff.mpr (.inl hbefore)
      rw [hsecond.fresh entry hmem] at hmiddle
      cases hmiddle

/-- A type that is not there yet is added. -/
theorem register_adds (factory : φ) {type : String} (hfresh : registry.contains type = false) :
    ∃ next, registry.register type factory = .ok next ∧
      registry.Adds next [(type, factory)] := by
  refine ⟨⟨registry.factories.insert type factory⟩, by simp [register, hfresh], ?_, ?_⟩
  · intro other found
    rw [get_eq_ok, get_eq_ok, Dict.get?_insert, List.mem_singleton, Prod.mk.injEq]
    have hnone : registry.factories.get? type = none := by
      simpa [contains, Dict.contains] using hfresh
    split
    next heq =>
      subst heq
      simp [hnone, eq_comm]
    next hne => simp [hne]
  · simpa using hfresh

theorem takeWhile_eq_of_agree {α : Type} {keep other : α → Bool} {items : List α}
    (h : ∀ item ∈ items, keep item = other item) :
    items.takeWhile keep = items.takeWhile other := by
  induction items with
  | nil => rfl
  | cons item rest ih =>
      rw [List.takeWhile_cons, List.takeWhile_cons, h item List.mem_cons_self,
        ih fun later hlater => h later (List.mem_cons_of_mem _ hlater)]

/-- Types of different names are registered up to the first that is already there. -/
theorem registerAll_adds (registry : Registry φ) {offered : List (String × φ)}
    (hnames : (offered.map Prod.fst).Nodup) :
    registry.Adds (registry.registerAll offered).1
        (offered.takeWhile fun entry => !registry.contains entry.1) ∧
      (registry.registerAll offered).2 =
        Registration.outcome (offered.find? fun entry => registry.contains entry.1) := by
  induction offered generalizing registry with
  | nil => exact ⟨.nil registry, rfl⟩
  | cons entry rest ih =>
      obtain ⟨name, factory⟩ := entry
      obtain ⟨hname, hrest⟩ := List.nodup_cons.mp hnames
      cases hcontains : registry.contains name with
      | true =>
          simpa [registerAll, register, hcontains, Registration.outcome] using Adds.nil registry
      | false =>
          obtain ⟨next, hnext, hadds⟩ := register_adds factory hcontains
          -- The other names mean the same to both registries.
          have hsame : ∀ other ∈ rest, next.contains other.1 = registry.contains other.1 := by
            intro other hother
            have hne : other.1 ≠ name := by
              rintro rfl
              exact hname (List.mem_map.mpr ⟨other, hother, rfl⟩)
            rw [Bool.eq_iff_iff, hadds.contains_iff]
            simp [hne]
          obtain ⟨hlater, houtcome⟩ := @ih next hrest
          rw [takeWhile_eq_of_agree fun other hother => congrArg not (hsame other hother)] at hlater
          rw [List.find?_congr hsame] at houtcome
          simp only [registerAll, hnext, List.takeWhile_cons, List.find?_cons, hcontains]
          exact ⟨hadds.trans hlater, houtcome⟩

/-- What a call leaves of a registry and what it comes to. -/
structure Performs (before : Registry Factory) (call : Registration) (after : Registry Factory)
    (outcome : Except PipeError Unit) : Prop where
  adds : before.Adds after (call.accepted before)
  outcome_eq : outcome = Registration.outcome (call.refused? before)
  unchanged : call ≠ .builtins → outcome ≠ .ok () → after = before

/-- A single type is registered, or the registry stays as it was. -/
theorem keeping_performs {registry : Registry Factory} {call : Registration} {name : String}
    {factory : Factory} (hoffers : call.offers = [(name, factory)]) :
    registry.Performs call (registry.keeping (registry.register name factory)).1
      (registry.keeping (registry.register name factory)).2 := by
  cases hcontains : registry.contains name with
  | true =>
      have hrefused : registry.register name factory = .error (.duplicateType name) := by
        simp [register, hcontains]
      rw [hrefused]
      refine ⟨?_, ?_, fun _ _ => rfl⟩
      · simpa [Registration.accepted, hoffers, hcontains, keeping] using Adds.nil registry
      · simp [Registration.refused?, hoffers, hcontains, keeping, Registration.outcome]
  | false =>
      obtain ⟨next, hnext, hadds⟩ := register_adds factory hcontains
      rw [hnext]
      refine ⟨?_, ?_, fun _ hfailed => absurd rfl hfailed⟩
      · simpa [Registration.accepted, hoffers, hcontains, keeping] using hadds
      · simp [Registration.refused?, hoffers, hcontains, keeping, Registration.outcome]

theorem perform_performs (registry : Registry Factory) (call : Registration) :
    registry.Performs call (registry.perform call).1 (registry.perform call).2 := by
  cases call with
  | type name factory => exact keeping_performs rfl
  | pipe name inner => exact keeping_performs rfl
  | builtins =>
      obtain ⟨hadds, houtcome⟩ :=
        registerAll_adds registry Registration.builtins.offers_nodup
      exact ⟨hadds, houtcome, fun hother => absurd rfl hother⟩

/-- A type keeps its factory through every later call. -/
theorem get_performAll {registry : Registry Factory} {type : String} {factory : Factory}
    (calls : List Registration) (hget : registry.get type = .ok factory) :
    (registry.performAll calls).get type = .ok factory := by
  induction calls generalizing registry with
  | nil => exact hget
  | cons call rest ih =>
      exact ih (((registry.perform_performs call).adds.found type factory).mpr (.inl hget))

/-- After any calls, one more registers what it offers up to the first type that is already there,
which its error names, and changes nothing else; refused, it leaves the registry as it was unless
it is the call for the built-in types. Whatever was registered before it or by it keeps its factory
through all calls to come. -/
theorem performAll_durable (registry : Registry Factory) (earlier : List Registration)
    (call : Registration) :
    let before := registry.performAll earlier
    let result := before.perform call
    before.Performs call result.1 result.2 ∧
      ∀ type factory, (before.get type = .ok factory ∨ (type, factory) ∈ call.accepted before) →
        ∀ later, (result.1.performAll later).get type = .ok factory := by
  intro before result
  have hperforms : before.Performs call result.1 result.2 := before.perform_performs call
  refine ⟨hperforms, fun type factory hknown later => ?_⟩
  exact get_performAll later ((hperforms.adds.found type factory).mpr hknown)

/-- Neither the refused call for the built-in types nor a second registration takes a type away. -/
theorem split_outlasts_builtins :
    (((empty.performAll []).perform (.type "split" (.fixture .probe))).1.performAll
      [.builtins, .type "split" (.fixture .merge)]).get "split" = .ok (.fixture .probe) :=
  (performAll_durable empty [] (.type "split" (.fixture .probe))).2 _ _
    (.inr List.mem_cons_self) _

/-- The built-in types are half registered where the second of them is already there: the call is
refused, but the first of them has been added. -/
theorem builtins_half_registered :
    let before := empty.performAll [.type "split" (.fixture .probe)]
    (before.perform .builtins).2 = .error (.duplicateType "split") ∧
      before.contains "output" = false ∧
      (before.perform .builtins).1.contains "output" = true := by
  exact ⟨rfl, rfl, rfl⟩

end Registry

end Pipework
