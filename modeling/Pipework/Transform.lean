import Pipework.Answer
import Pipework.Calendar.Format
import Pipework.Conf
import Pipework.Currency

/-!
# Transformations of records

Modules that make exactly one record of each input record: by reading a date, by pricing a currency
or by setting a field.
-/

namespace Pipework

/-- What is done to each record. -/
inductive Transform where
  /-- Reads the date that the configuration or the record gives. -/
  | date (conf : Conf)
  /-- Prices the record's currency. -/
  | exchange (conf : Conf)
  /-- Sets a field to a value. -/
  | overwrite (field : String) (value : Value)
deriving Inhabited

namespace Transform

/-- The field with the text of a date. -/
def dateField : ConfField := .text "DATE"

/-- The field with the key under which a date is filed. -/
def dateKeyField : ConfField := (ConfField.text "assign").orElse "date"

/-- The field with the currency of prices. -/
def quoteField : ConfField := (ConfField.text "quote").orElse "USD"

/-- The field with the currency of records that have none. -/
def baseField : ConfField := (ConfField.text "default").orElse "USD"

/-- The field with the key under which a rate is filed. -/
def rateKeyField : ConfField := (ConfField.text "assign").orElse "rate"

/-- The key of the currency in records. -/
def currencyKey : String := "content"

/-- Files the date in a record. -/
def buildDate (conf : Conf) (now : DateTime) (record : Record) : Answer := do
  let text ← conf.text dateField (some record)
  let moment ← (Calendar.parseDate text now).mapError .module
  let key ← conf.text dateKeyField none
  return record.insert key moment.toValue

/-- The currency of a record, in capitals. -/
def baseOf (conf : Conf) (record : Record) : Except PipeError String :=
  match (record.get? currencyKey).bind Value.asText? with
  | some base =>
      if base.isEmpty then (conf.text baseField (some record)).map Text.toUpper
      else .ok (Text.toUpper base)
  | none => (conf.text baseField (some record)).map Text.toUpper

/-- Files the rate of a record's currency in the record. -/
def price (conf : Conf) (record : Record) : Answer := do
  let base ← baseOf conf record
  let quote ← conf.text quoteField (some record)
  let rate ← (Currency.rate base (Text.toUpper quote)).mapError .module
  let key ← conf.text rateKeyField none
  return record.insert key (.ofFloat rate)

/-- The record that is made of a record, at a moment. -/
def apply (now : DateTime) (record : Record) : Transform → Answer
  | .date conf => buildDate conf now record
  | .exchange conf => price conf record
  | .overwrite field value => .ok (record.insert field value)

end Transform

end Pipework
