import Pipework.Proofs.Conf.Texts
import Pipework.Proofs.Outcome
import Pipework.Transform

/-! # Prices of listed currencies

The table has a rate between any two currencies that it lists. A currency that is not listed has a
rate to itself and to no other: two equal names are not looked up. What a record is priced in is
the text that it holds, or else a text of the configuration, and neither can fail; so a record is
refused for its currencies only.
-/

namespace Pipework

namespace Conf

variable {conf : Conf} {name usual : String} {item : Option Record}

/-- The text that a field with a default holds for a record, or for none. -/
def heldTextOr (conf : Conf) (name usual : String) (item : Option Record) : String :=
  (((conf.bound? name item).or (conf.given? name)).map Value.plainText).getD usual

theorem text_orElse_eq (conf : Conf) (name usual : String) (item : Option Record) :
    conf.text ((ConfField.text name).orElse usual) item =
      .ok (conf.heldTextOr name usual item) := by
  unfold text valueOf heldTextOr
  dsimp only [ConfField.text, ConfField.orElse]
  cases conf.bound? name item with
  | some value => rfl
  | none =>
      cases conf.given? name with
      | some value => rfl
      | none => rfl

end Conf

namespace Currency

variable {source target currency : String}

/-- Whether the table lists a currency. -/
def IsListed (currency : String) : Prop :=
  currency ∈ dollarRates.map Prod.fst

instance (currency : String) : Decidable (IsListed currency) :=
  inferInstanceAs (Decidable (currency ∈ dollarRates.map Prod.fst))

theorem dollarRate_of_isListed (h : IsListed currency) :
    ∃ price, dollarRate currency = .ok price := by
  obtain ⟨entry, hentry, rfl⟩ := List.mem_map.mp h
  have hfound : (dollarRates.lookup entry.1).isSome :=
    List.lookup_isSome_iff.mpr ⟨entry, hentry, beq_self_eq_true _⟩
  obtain ⟨price, hprice⟩ := Option.isSome_iff_exists.mp hfound
  exact ⟨price, by rw [dollarRate, hprice]⟩

theorem dollarRate_of_not_isListed (h : ¬ IsListed currency) :
    dollarRate currency = .error (.unknownCurrency currency) := by
  have hnone : dollarRates.lookup currency = none := by
    refine List.lookup_eq_none_iff.mpr fun entry hentry => bne_iff_ne.mpr ?_
    rintro rfl
    exact h (List.mem_map_of_mem hentry)
  rw [dollarRate, hnone]

theorem rate_self (currency : String) : ∃ price, rate currency currency = .ok price :=
  ⟨1.0 / 1.0, by simp [rate, inverseRate, Except.map]⟩

theorem rate_of_isListed (hsource : IsListed source) (htarget : IsListed target) :
    ∃ price, rate source target = .ok price := by
  obtain ⟨sourcePrice, hsourcePrice⟩ := dollarRate_of_isListed hsource
  obtain ⟨targetPrice, htargetPrice⟩ := dollarRate_of_isListed htarget
  unfold rate inverseRate
  rw [hsourcePrice, htargetPrice]
  split
  · exact ⟨_, rfl⟩
  · split <;> exact ⟨_, rfl⟩

/-- The first currency is looked up first. -/
theorem rate_of_not_isListed (hne : source ≠ target) (hsource : ¬ IsListed source) :
    rate source target = .error (.unknownCurrency source) := by
  unfold rate inverseRate
  rw [if_neg hne, dollarRate_of_not_isListed hsource]
  split <;> rfl

/-- The second currency is looked up unless it is the dollar, which is listed. -/
theorem rate_of_target_not_isListed (hne : source ≠ target) (hsource : IsListed source)
    (htarget : ¬ IsListed target) :
    rate source target = .error (.unknownCurrency target) := by
  have hdollar : target ≠ "USD" := by
    rintro rfl
    exact htarget (by decide)
  obtain ⟨sourcePrice, hsourcePrice⟩ := dollarRate_of_isListed hsource
  unfold rate inverseRate
  rw [if_neg hne, if_neg hdollar, hsourcePrice, dollarRate_of_not_isListed htarget]
  rfl

/-- Two currencies have a rate, or an error names one of them that is not listed. -/
theorem rate_cases (source target : String) :
    (source = target ∨ IsListed source ∧ IsListed target) ∧
        (∃ price, rate source target = .ok price) ∨
      source ≠ target ∧ ∃ currency, (currency = source ∨ currency = target) ∧
        ¬ IsListed currency ∧ rate source target = .error (.unknownCurrency currency) := by
  by_cases heq : source = target
  · subst heq
    exact .inl ⟨.inl rfl, rate_self source⟩
  by_cases hsource : IsListed source
  · by_cases htarget : IsListed target
    · exact .inl ⟨.inr ⟨hsource, htarget⟩, rate_of_isListed hsource htarget⟩
    · exact .inr ⟨heq, target, .inr rfl, htarget,
        rate_of_target_not_isListed heq hsource htarget⟩
  · exact .inr ⟨heq, source, .inl rfl, hsource, rate_of_not_isListed heq hsource⟩

theorem rate_eq_ok_iff :
    (∃ price, rate source target = .ok price) ↔
      source = target ∨ IsListed source ∧ IsListed target := by
  rcases rate_cases source target with
    ⟨hlisted, hprice⟩ | ⟨hne, currency, hnamed, hunlisted, herror⟩
  · exact iff_of_true hprice hlisted
  · refine iff_of_false ?_ ?_
    · rintro ⟨price, hprice⟩
      rw [herror] at hprice
      cases hprice
    · rintro (heq | ⟨hsource, htarget⟩)
      · exact hne heq
      · rcases hnamed with rfl | rfl
        · exact hunlisted hsource
        · exact hunlisted htarget

end Currency

namespace Transform

/-- The currency that a record is priced from: its own text, or else the text of the configuration,
in capitals. -/
def baseCurrency (conf : Conf) (record : Record) : String :=
  Text.toUpper <|
    (((record.get? currencyKey).bind Value.asText?).filter fun text => !text.isEmpty).getD
      (conf.heldTextOr "default" "USD" (some record))

/-- The currency that a record is priced in, in capitals. -/
def quoteCurrency (conf : Conf) (record : Record) : String :=
  Text.toUpper (conf.heldTextOr "quote" "USD" (some record))

theorem baseOf_eq (conf : Conf) (record : Record) :
    baseOf conf record = .ok (baseCurrency conf record) := by
  unfold baseOf baseCurrency
  rw [baseField, Conf.text_orElse_eq]
  cases (record.get? currencyKey).bind Value.asText? with
  | none => rfl
  | some text =>
      dsimp only
      cases htext : text.isEmpty <;> simp [Option.filter, htext, Except.map]

/-- Only the rate decides whether a record is priced. -/
theorem price_eq (conf : Conf) (record : Record) :
    price conf record =
      ((Currency.rate (baseCurrency conf record) (quoteCurrency conf record)).mapError .module).map
        fun rate => record.insert (conf.heldTextOr "assign" "rate" none) (.ofFloat rate) := by
  unfold price
  rw [baseOf_eq, quoteField, Conf.text_orElse_eq, rateKeyField, Conf.text_orElse_eq]
  dsimp only [bind, Except.bind]
  rw [← quoteCurrency]
  cases Currency.rate (baseCurrency conf record) (quoteCurrency conf record) with
  | error fault => rfl
  | ok rate => rfl

/-- Two currencies have a rate exactly if both are listed or they are the same. A record is priced
exactly if its two currencies have a rate, and the rate is filed in it; otherwise the error names
one of the two that is not listed. -/
theorem exchange_listed (source target : String) (now : DateTime) (conf : Conf) (record : Record) :
    ((∃ price, Currency.rate source target = .ok price) ↔
      source = target ∨ Currency.IsListed source ∧ Currency.IsListed target) ∧
    let base := baseCurrency conf record
    let quote := quoteCurrency conf record
    (base = quote ∨ Currency.IsListed base ∧ Currency.IsListed quote) ∧
        (∃ price, Currency.rate base quote = .ok price ∧
          (Transform.exchange conf).apply now record =
            .ok (record.insert (conf.heldTextOr "assign" "rate" none) (.ofFloat price))) ∨
      base ≠ quote ∧ ∃ currency, (currency = base ∨ currency = quote) ∧
        ¬ Currency.IsListed currency ∧
        (Transform.exchange conf).apply now record =
          .error (.module (.unknownCurrency currency)) := by
  refine ⟨Currency.rate_eq_ok_iff, ?_⟩
  intro base quote
  have happly : (Transform.exchange conf).apply now record =
      ((Currency.rate base quote).mapError .module).map
        fun rate => record.insert (conf.heldTextOr "assign" "rate" none) (.ofFloat rate) :=
    price_eq conf record
  rw [happly]
  rcases Currency.rate_cases base quote with
    ⟨hlisted, price, hprice⟩ | ⟨hne, currency, hnamed, hunlisted, herror⟩
  · exact .inl ⟨hlisted, price, hprice, by rw [hprice]; rfl⟩
  · exact .inr ⟨hne, currency, hnamed, hunlisted, by rw [herror]; rfl⟩

/-- A currency that is not listed has a rate to itself. -/
theorem unlisted_priced :
    ¬ Currency.IsListed "XYZ" ∧ ∃ price, Currency.rate "XYZ" "XYZ" = .ok price :=
  ⟨by decide, Currency.rate_self "XYZ"⟩

end Transform

end Pipework
