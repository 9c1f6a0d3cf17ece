import Mathlib
import Sintius.Lib.Date
import Sintius.Lib.Utf16
import Sintius.Spec.Problem

/-! Identifiers in the form of UUID version 7: a timestamp of 48 bits in milliseconds, the
version and variant bits, and 74 random bits. -/

namespace Sintius.Id

open Js Js.Date

def isLowerHex (c : CodeUnit) : Bool :=
  (0x30 ≤ c.val && c.val ≤ 0x39) || (0x61 ≤ c.val && c.val ≤ 0x66)

def isVariantDigit (c : CodeUnit) : Bool := c == 0x38 || c == 0x39 || c == 0x61 || c == 0x62

/-- The classes of `UUID_FORMAT`, code unit by code unit. -/
def uuidClasses : List (CodeUnit → Bool) :=
  List.replicate 8 isLowerHex ++ [(· == 0x2d)] ++ List.replicate 4 isLowerHex ++ [(· == 0x2d)] ++
    [(· == 0x37)] ++ List.replicate 3 isLowerHex ++ [(· == 0x2d)] ++
    [isVariantDigit] ++ List.replicate 3 isLowerHex ++ [(· == 0x2d)] ++
    List.replicate 12 isLowerHex

def UUID_FORMAT (id : Text) : Bool :=
  id.length == uuidClasses.length && (List.zipWith (fun p c => p c) uuidClasses id).all (· == true)

/-- `n.toString(16)` -/
def toStringHex (n : ℕ) : Text := (Nat.toDigits 16 n).map fun c => Fin.ofNat 65536 c.toNat

/-- `text.padStart(length, "0")` -/
def padStart (text : Text) (length : ℕ) : Text :=
  List.replicate (length - text.length) 0x30 ++ text

def hex (byte : UInt8) : Text := padStart (toStringHex byte.toNat) 2

/-- The bytes, from what the clock shows and what the source of randomness returns. -/
def uuidBytes (timestamp : ℕ) (random : List UInt8) : List UInt8 :=
  let time := [UInt8.ofNat ((timestamp >>> 40) &&& 0xff), UInt8.ofNat ((timestamp >>> 32) &&& 0xff),
    UInt8.ofNat ((timestamp >>> 24) &&& 0xff), UInt8.ofNat ((timestamp >>> 16) &&& 0xff),
    UInt8.ofNat ((timestamp >>> 8) &&& 0xff), UInt8.ofNat (timestamp &&& 0xff)]
  ((time ++ random).modify 6 fun byte => (byte &&& 0x0f) ||| 0x70).modify 8 fun byte =>
    (byte &&& 0x3f) ||| 0x80

/-- `clock` is none where the date is invalid: its number cannot be a BigInt. -/
def generateUuidV7 (clock : Option Instant) (randomBytes : ℕ → List UInt8) :
    Except Failure Text := do
  let millisecondsSinceEpoch ← match clock with
    | none => .error (.error
        "RangeError: The number NaN cannot be converted to a BigInt because it is not an integer")
    | some t => .ok t.1
  throwIf (millisecondsSinceEpoch < 0) .invalid_timestamp
    "UUIDv7 generation requires a non-negative timestamp."
  let timestamp := millisecondsSinceEpoch.toNat &&& 0xffffffffffff
  let random := randomBytes 10
  throwIf (random.length ≠ 10) .calculation_rejected
    "UUIDv7 generation requires exactly 10 random bytes."
  let text := (uuidBytes timestamp random).flatMap hex
  .ok (text.take 8 ++ 0x2d :: ((text.take 12).drop 8 ++ 0x2d :: ((text.take 16).drop 12 ++
    0x2d :: ((text.take 20).drop 16 ++ 0x2d :: text.drop 20))))

/-- True only for a canonical, lower-case text. -/
def isUuidV7 (id : Text) : Bool := UUID_FORMAT id

/-- The value of a hexadecimal digit, in either letter case. -/
def hexValue (c : CodeUnit) : ℕ :=
  if c.val ≤ 0x39 then c.val - 0x30 else if c.val ≤ 0x46 then c.val - 0x37 else c.val - 0x57

/-- ``BigInt(`0x${digits}`)`` -/
def parseHex (digits : Text) : ℕ := digits.foldl (fun n c => n * 16 + hexValue c) 0

/-- The date is none where it is invalid. -/
def timestampOfUuidV7 (id : Text) : Except Failure (Option Instant) := do
  throwIf (isUuidV7 id = false) .invalid_decimal "Not a well-formed UUIDv7 string."
  let hexTimestamp := (id.filter (· ≠ 0x2d)).take 12
  .ok (timeClip (parseHex hexTimestamp))

end Sintius.Id
