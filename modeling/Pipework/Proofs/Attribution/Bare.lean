import Pipework.Proofs.Outcome
import Pipework.Stage.Poll

/-! # Errors that nobody has attributed

What modules do to records by themselves fails with errors that bear no module and no position.
-/

namespace Pipework

namespace PipeError

/-- The error is neither attributed to a stage nor a timeout. -/
def IsBare : PipeError → Prop
  | notProduced .. => False
  | timeout .. => False
  | _ => True

variable {id : ModuleId} {index : Nat} {error : PipeError}

/-- The first stage that is asked to attributes an error to itself. -/
theorem whileProducing_of_isBare (h : error.IsBare) :
    error.whileProducing id index = .notProduced id index error := by
  cases error with
  | notProduced => exact h.elim
  | timeout => exact h.elim
  | _ => rfl

theorem isBare_whileBuilding (id : ModuleId) (error : PipeError) : (error.whileBuilding id).IsBare := by
  cases error <;> trivial

end PipeError

open PipeError

/-- If it fails it fails with a bare error. -/
structure FailsBare {α : Type} (outcome : Except PipeError α) : Prop where
  bare : ∀ error, outcome = .error error → error.IsBare

namespace FailsBare

variable {α β : Type}

theorem ok (value : α) : FailsBare (.ok value) :=
  ⟨nofun⟩

theorem error {error : PipeError} (h : error.IsBare) : FailsBare (.error error : Except PipeError α) := by
  refine ⟨?_⟩
  rintro _ ⟨⟩
  exact h

theorem bind {outcome : Except PipeError α} {next : α → Except PipeError β} (h : FailsBare outcome)
    (hnext : ∀ value, FailsBare (next value)) : FailsBare (outcome >>= next) := by
  cases outcome with
  | error error => exact .error (h.bare error rfl)
  | ok value => exact hnext value

theorem map {outcome : Except PipeError α} (h : FailsBare outcome) (change : α → β) :
    FailsBare (outcome.map change) := by
  cases outcome with
  | error error => exact .error (h.bare error rfl)
  | ok value => exact .ok _

theorem mapError (outcome : Except ModuleFault α) :
    FailsBare (outcome.mapError PipeError.module) := by
  cases outcome with
  | error fault => exact .error trivial
  | ok value => exact .ok value

end FailsBare

namespace Conf

variable (conf : Conf) (spec : ConfField) (item : Option Record)

theorem convert_failsBare (kind : FieldType) (field : String) (value : Value) :
    FailsBare (kind.convert field value) := by
  unfold FieldType.convert
  split
  · exact .ok _
  · exact .error trivial

theorem valueOf_failsBare : FailsBare (conf.valueOf spec item) := by
  unfold valueOf
  split
  · exact convert_failsBare ..
  · split
    · exact convert_failsBare ..
    · unfold ConfField.usualValue
      split
      · exact convert_failsBare ..
      · exact .ok _

theorem text_failsBare : FailsBare (conf.text spec item) :=
  (conf.valueOf_failsBare spec item).map _

theorem nonemptyText_failsBare : FailsBare (conf.nonemptyText spec item) := by
  have htext := conf.text_failsBare spec item
  unfold nonemptyText
  split
  next herror => exact .error (htext.bare _ herror)
  · split
    · exact .error trivial
    · exact .ok _

end Conf

namespace Fetch

theorem path_failsBare (conf : Conf) (item : Option Record) : FailsBare (path conf item) := by
  refine (conf.nonemptyText_failsBare urlField item).bind fun url => ?_
  unfold localPath
  split
  · exact .ok _
  · split
    · exact .error trivial
    · exact .ok _

theorem records_failsBare (text : Except FileError String) : FailsBare (records text) := by
  unfold records
  split
  · exact .error trivial
  · split
    · exact .ok _
    · exact .error trivial

end Fetch

namespace Transform

theorem buildDate_failsBare (conf : Conf) (now : DateTime) (record : Record) :
    FailsBare (buildDate conf now record) := by
  refine (conf.text_failsBare dateField (some record)).bind fun text => ?_
  refine (FailsBare.mapError (Calendar.parseDate text now)).bind fun moment => ?_
  exact (conf.text_failsBare dateKeyField none).bind fun key => .ok _

theorem baseOf_failsBare (conf : Conf) (record : Record) : FailsBare (baseOf conf record) := by
  unfold baseOf
  split
  · split
    · exact (conf.text_failsBare _ _).map _
    · exact .ok _
  · exact (conf.text_failsBare _ _).map _

theorem price_failsBare (conf : Conf) (record : Record) : FailsBare (price conf record) := by
  refine (baseOf_failsBare conf record).bind fun base => ?_
  refine (conf.text_failsBare quoteField (some record)).bind fun quote => ?_
  refine (FailsBare.mapError (Currency.rate base (Text.toUpper quote))).bind fun rate => ?_
  exact (conf.text_failsBare rateKeyField none).bind fun key => .ok _

theorem apply_failsBare (transform : Transform) (now : DateTime) (record : Record) :
    FailsBare (transform.apply now record) := by
  cases transform with
  | date conf => exact buildDate_failsBare conf now record
  | exchange conf => exact price_failsBare conf record
  | overwrite field value => exact .ok _

end Transform

variable {setting : Setting} {item : Record} {world later : World}

/-- Fetching the source for a record fails with a bare error. -/
theorem Job.fetch_failsBare {conf : Conf} {batch : Except PipeError (List Record)}
    (h : (Job.fetch setting conf item).run world = some (batch, later)) : FailsBare batch := by
  unfold Job.fetch at h
  split at h
  next herror =>
    cases h
    exact .error ((Fetch.path_failsBare conf (some item)).bare _ herror)
  · obtain ⟨text, middle, hread, hpure⟩ := run_bind_eq_some_iff.mp h
    cases hpure
    exact Fetch.records_failsBare text

theorem Fork.attach_failsBare {υ : Type} (fork : Fork υ) : FailsBare fork.attach := by
  unfold attach
  split
  · exact .ok _
  · exact .error trivial

/-- An embedded module that cannot be built fails with a bare error. -/
theorem Embed.instantiate_failsBare {mode : Mode} {embed : Embed Factory}
    {outcome : Except PipeError Stage}
    (h : (embed.instantiate setting mode item).run world = some (outcome, later)) :
    FailsBare outcome := by
  unfold Embed.instantiate at h
  obtain ⟨built, middle, hbuild, h⟩ := run_bind_eq_some_iff.mp h
  cases built with
  | error error =>
      cases h
      exact .error (isBare_whileBuilding embed.id error)
  | ok built =>
      cases h
      refine FailsBare.map ?_ _
      cases built with
      | single stage => exact .ok stage
      | fork branches upstream =>
          exact (Fork.attach_failsBare (Fork.start embed.id upstream branches)).bind fun _ => .ok _

end Pipework
