import Mathlib
import Sintius.Lib.Date
import Sintius.Lib.Digits
import Sintius.Lib.Double
import Sintius.Lib.Utf16
import Sintius.Spec.Problem
import Sintius.Spec.Decimal

/-! `platform/money`: currencies, settled amounts, allocation by largest remainder and
proration by actual days. The constructor of an amount checks nothing but its caller,
so the minor-unit scale is not part of the type. -/

set_option linter.dupNamespace false

namespace Sintius.Money

open Js Js.Date

structure Currency where
  code : String
  minorUnits : ℕ
deriving DecidableEq, Repr

def CURRENCIES : List Currency := [
  ⟨"USD", 2⟩,
  ⟨"EUR", 2⟩,
  ⟨"GBP", 2⟩,
  ⟨"CAD", 2⟩,
  ⟨"AUD", 2⟩,
  ⟨"INR", 2⟩,
  ⟨"JPY", 0⟩,
  ⟨"KRW", 0⟩,
  ⟨"KWD", 3⟩,
  ⟨"BHD", 3⟩,
  ⟨"OMR", 3⟩,
  ⟨"JOD", 3⟩,
  ⟨"TND", 3⟩]

/-- `CURRENCIES.get(code)`, or a problem. -/
def currency (code : String) : Except Problem Currency :=
  match CURRENCIES.find? fun unit => unit.code == code with
  | some found => .ok found
  | none => .error { code := .unsupported_currency, detail := "The currency is not supported." }

def DEFAULT_ROUNDING : String := "HALF_UP"

/-- A natural number as a number of the language. -/
def wholeNumber (n : ℕ) : Number := if h : n < 2 ^ 53 then .ofNat n h else .nan

structure Money where
  amount : Decimal
  currency : Currency
deriving DecidableEq

def mismatch {α : Type} : Except Problem α :=
  .error { code := .currency_mismatch, detail := "Amounts in different currencies cannot be combined." }

/-- `typeof amount === "string" ? Decimal.parse(amount) : amount` -/
def decimalOf : String ⊕ Decimal → Except Problem Decimal
  | .inl text => Decimal.parse text
  | .inr value => .ok value

namespace Money

def of (amount : String ⊕ Decimal) (currencyCode : String) : Except Problem Money := do
  let unit ← Sintius.Money.currency currencyCode
  let value ← decimalOf amount
  if value.scale > unit.minorUnits then
    let code := unit.code
    let digits := unit.minorUnits
    Decimal.invalidDecimal
      s!"{code} amounts allow at most {digits} fraction digits; round explicitly first."
  else
    let rescaled ← value.rescale (wholeNumber unit.minorUnits)
    .ok ⟨rescaled, unit⟩

def fromDecimal (value : Decimal) (currencyCode : String) (mode : Option String) :
    Except Problem Money := do
  let unit ← Sintius.Money.currency currencyCode
  let rounded ← value.round (wholeNumber unit.minorUnits) (mode.getD DEFAULT_ROUNDING)
  .ok ⟨rounded, unit⟩

def fromMinorUnits (units : ℤ) (currencyCode : String) : Except Problem Money := do
  let unit ← Sintius.Money.currency currencyCode
  let amount ← Decimal.fromUnits units (wholeNumber unit.minorUnits)
  .ok ⟨amount, unit⟩

def zero (currencyCode : String) : Except Problem Money := fromMinorUnits 0 currencyCode

def minorUnits (m : Money) : ℤ := m.amount.units

/-- `#same` -/
def same (m other : Money) : Except Problem Unit :=
  if other.currency.code ≠ m.currency.code then mismatch else .ok ()

def add (m other : Money) : Except Problem Money := do
  m.same other
  let amount ← m.amount.add other.amount
  .ok ⟨amount, m.currency⟩

def subtract (m other : Money) : Except Problem Money := do
  m.same other
  let amount ← m.amount.subtract other.amount
  .ok ⟨amount, m.currency⟩

def multiply (m : Money) (factor : Decimal) (mode : Option String) : Except Problem Money := do
  let amount ← m.amount.multiply factor
    (some ⟨wholeNumber m.currency.minorUnits, mode.getD DEFAULT_ROUNDING⟩)
  .ok ⟨amount, m.currency⟩

def negate (m : Money) : Except Problem Money := do
  let amount ← m.amount.negate
  .ok ⟨amount, m.currency⟩

def compare (m other : Money) : Except Problem ℤ := do
  m.same other
  .ok (m.amount.compare other.amount)

end Money

def sumMoney (amounts : List Money) (currencyCode : String) : Except Problem Money := do
  let zero ← Money.zero currencyCode
  amounts.foldlM (fun total amount => total.add amount) zero

/-- `if (condition) reject(detail)` -/
def rejectIf (condition : Prop) [Decidable condition] (detail : String) : Except Problem Unit :=
  if condition then reject detail else .ok ()

structure AllocationShare where
  key : Text
  weight : Decimal
deriving DecidableEq

/-- An entry of the order in which leftover units are given out. -/
structure RemainderEntry where
  key : Text
  index : ℕ
  remainder : ℤ
deriving DecidableEq

/-- The comparison of the sort, for different keys: larger remainders first, then smaller keys. -/
def RemainderEntry.before (left right : RemainderEntry) : Bool :=
  if left.remainder = right.remainder then left.key ≤ right.key
  else left.remainder > right.remainder

/-- The loop that gives out the leftover, one unit each. -/
def giveLeftover : List RemainderEntry → ℤ → List ℤ → List ℤ
  | [], _, base => base
  | entry :: order, leftover, base =>
    if leftover = 0 then base
    else giveLeftover order (leftover - 1) (base.modify entry.index (· + 1))

/-- The units of the parts, for the weights at one scale; `units` is the total without its sign. -/
def allocateUnits (units : ℤ) (keys : List Text) (weights : List ℤ) : List ℤ :=
  let weightSum := weights.foldl (· + ·) 0
  let base := weights.map fun weight => (units * weight).tdiv weightSum
  let remainders := weights.map fun weight => (units * weight).tmod weightSum
  let leftover := units - base.foldl (· + ·) 0
  let entries := (keys.zip remainders).mapIdx fun index entry => ⟨entry.1, index, entry.2⟩
  giveLeftover (entries.mergeSort RemainderEntry.before) leftover base

def allocate (total : Money) (shares : List AllocationShare) :
    Except Problem (List (Text × Money)) := do
  rejectIf (shares = []) "Allocation needs at least one share."
  rejectIf ((shares.map AllocationShare.key).dedup.length ≠ shares.length)
    "Allocation keys must be unique."
  rejectIf (∃ share ∈ shares, share.weight.units < 0) "Allocation weights cannot be negative."
  let scale := (shares.map fun share => share.weight.scale).foldl max 0
  let rescaled ← shares.mapM fun share => share.weight.rescale (wholeNumber scale)
  let weights := rescaled.map Decimal.units
  rejectIf (weights.foldl (· + ·) 0 = 0) "Allocation weights must not all be zero."
  let sign := if total.minorUnits < 0 then -1 else 1
  let parts := allocateUnits (total.minorUnits * sign) (shares.map AllocationShare.key) weights
  (shares.zip parts).mapM fun (share, part) => do
    let amount ← Money.fromMinorUnits (part * sign) total.currency.code
    .ok (share.key, amount)

/-- `CIVIL_DATE.exec`, on `/^([0-9]{4})-([0-9]{2})-([0-9]{2})$/`, with the numbers of its groups. -/
def CIVIL_DATE (date : String) : Option (ℕ × ℕ × ℕ) :=
  match date.toList with
  | [y₁, y₂, y₃, y₄, '-', m₁, m₂, '-', d₁, d₂] =>
    if [y₁, y₂, y₃, y₄, m₁, m₂, d₁, d₂].all Char.isDigit then
      some (Digits.value [y₁, y₂, y₃, y₄], Digits.value [m₁, m₂], Digits.value [d₁, d₂])
    else none
  | _ => none

def invalidDate {α : Type} : Except Problem α :=
  .error
    { code := .invalid_timestamp
      detail := "Dates must be valid calendar dates in YYYY-MM-DD form." }

/-- The day number of a civil date; `Date.UTC` carries impossible dates over, and does not give
back their components. -/
def dayNumber (date : String) : Except Problem ℤ :=
  match CIVIL_DATE date with
  | none => invalidDate
  | some (year, month, day) =>
    match utc year (month - 1) day with
    | none => invalidDate
    | some epoch =>
      let check := fieldsOf epoch.1
      if check.year ≠ year ∨ (check.month : ℤ) ≠ month - 1 ∨ check.date ≠ day then invalidDate
      else .ok (epoch.1 / msPerDay)

def daysBetween (start end_ : String) : Except Problem ℤ := do
  let last ← dayNumber end_
  let first ← dayNumber start
  rejectIf (last - first < 0) "A period cannot end before it starts."
  .ok (last - first)

structure DateInterval where
  start : String
  end_ : String
deriving DecidableEq, Repr

def prorateActualDays (amount : Money) (used period : DateInterval) (mode : Option String) :
    Except Problem Money := do
  let periodDays ← daysBetween period.start period.end_
  let usedDays ← daysBetween used.start used.end_
  rejectIf (periodDays = 0) "A proration period must contain at least one day."
  let usedStart ← dayNumber used.start
  let periodStart ← dayNumber period.start
  let usedEnd ← dayNumber used.end_
  let periodEnd ← dayNumber period.end_
  rejectIf (usedStart < periodStart ∨ usedEnd > periodEnd)
    "The prorated interval must lie within the period."
  let usedFactor ← Decimal.fromInteger (.inl (wholeNumber usedDays.toNat))
  let exactAmount ← amount.amount.multiply usedFactor none
  let divisor ← Decimal.fromInteger (.inl (wholeNumber periodDays.toNat))
  let prorated ← exactAmount.divide divisor
    ⟨wholeNumber amount.currency.minorUnits, mode.getD DEFAULT_ROUNDING⟩
  Money.of (.inr prorated) amount.currency.code

end Sintius.Money
