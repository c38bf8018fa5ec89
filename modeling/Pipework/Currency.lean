import Pipework.Error

/-!
# Exchange rates

Rates between currencies from one table of prices in US dollars. The rate of a currency to itself
is one, whatever the currency.
-/

namespace Pipework.Currency

/-- The units of each currency that one US dollar buys. -/
def dollarRates : List (String × Float) :=
  [("USD", 1.0), ("EUR", 0.8234), ("GBP", 0.6448), ("INR", 63.6810), ("PLN", 3.76), ("SGD", 1.34)]

/-- The units of a currency that one US dollar buys. -/
def dollarRate (currency : String) : Except ModuleFault Float :=
  match dollarRates.lookup currency with
  | some rate => .ok rate
  | none => .error (.unknownCurrency currency)

/-- What one unit of the second currency costs in the first. -/
def inverseRate (source target : String) : Except ModuleFault Float :=
  if source = target then .ok 1.0
  else if target = "USD" then dollarRate source
  else do
    let sourceRate ← dollarRate source
    let targetRate ← dollarRate target
    return sourceRate * (1.0 / targetRate)

/-- What one unit of the first currency costs in the second. -/
def rate (source target : String) : Except ModuleFault Float :=
  (inverseRate source target).map fun inverse => 1.0 / inverse

end Pipework.Currency
