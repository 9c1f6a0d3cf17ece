import Mathlib
import Sintius.Lib.Digits
import Sintius.Lib.Double
import Sintius.Lib.Rounding
import Sintius.Spec.Problem

/-! `platform/money/src/decimal.ts`: exact fixed-point decimals, `units × 10^-scale`
with at most 38 significant digits and scale at most 18. `bigint` is `ℤ`. A stated
scale is any JavaScript number and a stated mode any string, as the source checks
both at run time. -/

namespace Sintius.Money

/-- The four names of `ROUNDING_MODES`. -/
inductive RoundingMode where
  | HALF_UP
  | HALF_EVEN
  | DOWN
  | UP
deriving DecidableEq, Repr

/-- `ROUNDING_MODES.includes(mode)`, with the mode. -/
def RoundingMode.ofString? : String → Option RoundingMode
  | "HALF_UP" => some .HALF_UP
  | "HALF_EVEN" => some .HALF_EVEN
  | "DOWN" => some .DOWN
  | "UP" => some .UP
  | _ => none

def MAX_PRECISION : ℕ := 38
def MAX_SCALE : ℕ := 18

def reject {α : Type} (detail : String) : Except Problem α :=
  .error { code := .calculation_rejected, detail := detail }

/-- A scale that passed `assertScale`. -/
abbrev Scale := { s : ℕ // s ≤ MAX_SCALE }

theorem toNat_le_maxScale {n : ℤ} (h : 0 ≤ n ∧ n ≤ MAX_SCALE) : n.toNat ≤ MAX_SCALE := by omega

def assertScale (scale : Js.Number) : Except Problem Scale :=
  match scale.integer? with
  | some n =>
    if h : 0 ≤ n ∧ n ≤ MAX_SCALE then .ok ⟨n.toNat, toNat_le_maxScale h⟩
    else reject s!"Scale must be an integer from 0 to {MAX_SCALE}."
  | none => reject s!"Scale must be an integer from 0 to {MAX_SCALE}."

def assertMode (mode : String) : Except Problem RoundingMode :=
  match RoundingMode.ofString? mode with
  | some m => .ok m
  | none => reject "Unknown rounding mode."

def pow10 (exponent : ℕ) : ℤ := 10 ^ exponent

def digitCount (value : ℤ) : ℕ :=
  if value = 0 then 1 else (Nat.digits 10 value.natAbs).length

/-- Divides with the requested rounding. `divisor` must be non-zero. -/
def roundedQuotient (dividend divisor : ℤ) (mode : RoundingMode) : ℤ :=
  let negative := decide (dividend < 0) != decide (divisor < 0)
  let numerator := dividend.natAbs
  let denominator := divisor.natAbs
  let quotient := numerator / denominator
  let remainder := numerator % denominator
  let twice := remainder * 2
  let roundAway :=
    mode = .UP ∨
    (mode = .HALF_UP ∧ twice ≥ denominator) ∨
    (mode = .HALF_EVEN ∧ (twice > denominator ∨ (twice = denominator ∧ quotient % 2 = 1)))
  let rounded := if remainder ≠ 0 ∧ roundAway then quotient + 1 else quotient
  if negative then -(rounded : ℤ) else rounded

/-- The private fields of the class with what its constructor and its callers guarantee. -/
@[ext]
structure Decimal where
  units : ℤ
  scale : ℕ
  precision_le : digitCount units ≤ MAX_PRECISION
  scale_le : scale ≤ MAX_SCALE
deriving DecidableEq

/-- `{ scale, mode }` of a rounded operation. -/
structure StatedRounding where
  scale : Js.Number
  mode : String

namespace Decimal

/-- `new Decimal(CONSTRUCTION, units, scale)`; the constructor checks only the digits. -/
def construct (units : ℤ) (scale : Scale) : Except Problem Decimal :=
  if h : digitCount units > MAX_PRECISION then
    reject s!"The result exceeds {MAX_PRECISION} significant digits."
  else .ok ⟨units, scale.1, Nat.le_of_not_lt h, scale.2⟩

def fromUnits (units : ℤ) (scale : Js.Number) : Except Problem Decimal := do
  construct units (← assertScale scale)

/-- `Number.isSafeInteger(value)`, with the integer. -/
def safeInteger? (value : Js.Number) : Option ℤ :=
  value.integer?.filter fun n => decide (|n| ≤ 2 ^ 53 - 1)

def fromInteger (value : Js.Number ⊕ ℤ) : Except Problem Decimal :=
  match value with
  | .inr n => construct n ⟨0, Nat.zero_le _⟩
  | .inl value =>
    match safeInteger? value with
    | none => reject "Only safe integers can be converted from number."
    | some n => construct n ⟨0, Nat.zero_le _⟩

/-- The groups of a match of `DECIMAL_PATTERN`. -/
structure DecimalMatch where
  sign : Bool
  whole : List Char
  fraction : Option (List Char)
deriving DecidableEq, Repr

/-- `(-)?` -/
def optionalSign : List Char → Bool × List Char
  | '-' :: rest => (true, rest)
  | rest => (false, rest)

/-- `DECIMAL_PATTERN.exec`, on `/^(-)?(0|[1-9][0-9]*)(?:\.([0-9]+))?$/`. What follows the whole part
is no digit, so that the digits at the front are all of it. -/
def DECIMAL_PATTERN (text : String) : Option DecimalMatch :=
  let (sign, rest) := optionalSign text.toList
  let whole := rest.takeWhile Char.isDigit
  if whole ≠ ['0'] ∧ (whole = [] ∨ whole.head? = some '0') then none
  else
    match rest.dropWhile Char.isDigit with
    | [] => some ⟨sign, whole, none⟩
    | '.' :: fraction =>
      if fraction ≠ [] ∧ fraction.all Char.isDigit then some ⟨sign, whole, some fraction⟩ else none
    | _ => none

def invalidDecimal {α : Type} (detail : String) : Except Problem α :=
  .error { code := .invalid_decimal, detail := detail }

def parse (text : String) : Except Problem Decimal :=
  match DECIMAL_PATTERN text with
  | none =>
    invalidDecimal "Decimal values must be plain strings such as \"12.50\" or \"-0.125\"."
  | some groups =>
    let fraction := groups.fraction.getD []
    if h : fraction.length ≤ MAX_SCALE then
      let digits := Digits.strip (groups.whole ++ fraction)
      if digits.length > MAX_PRECISION then
        invalidDecimal s!"Decimal values allow at most {MAX_PRECISION} significant digits."
      else
        let units : ℤ := Digits.value digits
        construct (if groups.sign then -units else units) ⟨fraction.length, h⟩
    else invalidDecimal s!"Decimal values allow at most {MAX_SCALE} fraction digits."

/-- Units at a larger or equal scale, exactly. -/
def unitsAt (d : Decimal) (scale : ℕ) : ℤ := d.units * pow10 (scale - d.scale)

/-- `Math.max` of the operands' scales. -/
def maxScale (a b : Decimal) : Scale := ⟨max a.scale b.scale, max_le a.scale_le b.scale_le⟩

def add (a other : Decimal) : Except Problem Decimal :=
  let scale := maxScale a other
  construct (a.unitsAt scale + other.unitsAt scale) scale

def subtract (a other : Decimal) : Except Problem Decimal :=
  let scale := maxScale a other
  construct (a.unitsAt scale - other.unitsAt scale) scale

def multiply (a other : Decimal) (rounding : Option StatedRounding) : Except Problem Decimal :=
  let exactScale := a.scale + other.scale
  let product := a.units * other.units
  match rounding with
  | none =>
    if h : exactScale ≤ MAX_SCALE then construct product ⟨exactScale, h⟩
    else reject s!"The exact product has scale {exactScale}; state an output scale and rounding mode."
  | some rounding => do
    let scale ← assertScale rounding.scale
    let mode ← assertMode rounding.mode
    if scale.1 ≥ exactScale then construct (product * pow10 (scale - exactScale)) scale
    else construct (roundedQuotient product (pow10 (exactScale - scale)) mode) scale

def divide (a divisor : Decimal) (rounding : StatedRounding) : Except Problem Decimal := do
  let scale ← assertScale rounding.scale
  let mode ← assertMode rounding.mode
  if divisor.units = 0 then reject "Division by zero."
  else
    let dividend := a.units * pow10 (divisor.scale + scale)
    let denominator := divisor.units * pow10 a.scale
    construct (roundedQuotient dividend denominator mode) scale

def round (a : Decimal) (scale : Js.Number) (mode : String) : Except Problem Decimal := do
  let scale ← assertScale scale
  let mode ← assertMode mode
  if scale.1 ≥ a.scale then construct (a.unitsAt scale) scale
  else construct (roundedQuotient a.units (pow10 (a.scale - scale)) mode) scale

/-- Canonical text at the value's scale; zero is never signed. -/
def toString (a : Decimal) : String :=
  let plain := (Nat.repr a.units.natAbs).toList
  let digits := List.replicate (a.scale + 1 - plain.length) '0' ++ plain
  let whole := digits.take (digits.length - a.scale)
  let fraction := if a.scale = 0 then [] else '.' :: digits.drop (digits.length - a.scale)
  String.ofList ((if a.units < 0 then ['-'] else []) ++ whole ++ fraction)

/-- Changes the scale only when no digit is lost. -/
def rescale (a : Decimal) (scale : Js.Number) : Except Problem Decimal := do
  let scale ← assertScale scale
  if scale.1 ≥ a.scale then construct (a.unitsAt scale) scale
  else
    let divisor := pow10 (a.scale - scale)
    if a.units.tmod divisor ≠ 0 then
      let text := a.toString
      let target := scale.1
      reject s!"The value {text} cannot be represented at scale {target} without rounding."
    else construct (a.units.tdiv divisor) scale

def negate (a : Decimal) : Except Problem Decimal := construct (-a.units) ⟨a.scale, a.scale_le⟩

/-- `-1`, `0` or `1`. -/
def compare (a other : Decimal) : ℤ :=
  let scale := maxScale a other
  let left := a.unitsAt scale
  let right := other.unitsAt scale
  if left = right then 0 else if left < right then -1 else 1

def equals (a other : Decimal) : Bool := compare a other == 0

end Decimal

end Sintius.Money
