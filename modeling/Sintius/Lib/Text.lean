import Mathlib.Data.Nat.Notation
import Mathlib.Tactic.Common

/-! `String.prototype.trim`, the blank test built on it, and `slice`. All white
space characters lie in the basic plane, so characters and code units agree for
the first two. -/

namespace Js

/-- WhiteSpace and LineTerminator of ECMAScript. -/
def isWhiteSpace (c : Char) : Bool :=
  let n := c.toNat
  (9 ≤ n && n ≤ 13) || n == 0x20 || n == 0xa0 || n == 0x1680 || (0x2000 ≤ n && n ≤ 0x200a) ||
    n == 0x2028 || n == 0x2029 || n == 0x202f || n == 0x205f || n == 0x3000 || n == 0xfeff

def trim (s : String) : String :=
  String.ofList ((s.toList.dropWhile isWhiteSpace).reverse.dropWhile isWhiteSpace).reverse

/-- `value.trim().length > 0` -/
def nonBlank (s : String) : Bool := trim s != ""

/-- The first `n` UTF-16 code units. A pair cut in two leaves half of it, which encoding as UTF-8
replaces by U+FFFD. -/
def takeUnits : ℕ → List Char → List Char
  | _, [] => []
  | 0, _ => []
  | n + 1, c :: cs =>
    if c.toNat < 0x10000 then c :: takeUnits n cs
    else match n with
      | 0 => [Char.ofNat 0xfffd]
      | m + 1 => c :: takeUnits m cs

/-- `s.slice(0, stop)`, as a UTF-8 text keeps it. -/
def slice (s : String) (stop : ℕ) : String := String.ofList (takeUnits stop s.toList)

theorem length_takeUnits_le (n : ℕ) (cs : List Char) : (takeUnits n cs).length ≤ n := by
  fun_induction takeUnits n cs with
  | case1 => simp
  | case2 => simp
  | case3 n c cs hc ih => simpa using ih
  | case4 => simp
  | case5 c cs hc m ih =>
    rw [List.length_cons]
    omega

theorem length_slice_le (s : String) (stop : ℕ) : (slice s stop).length ≤ stop := by
  simpa [slice] using length_takeUnits_le stop s.toList

end Js
