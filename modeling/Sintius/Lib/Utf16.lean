import Mathlib

/-! ECMAScript strings are sequences of UTF-16 code units, well formed or not.
This module has the quoting that `JSON.stringify` gives a string, and shows that
a quoted string can be read back from the front of any text. It also has the way
from Unicode characters to code units, and the way back that an encoder takes. -/

namespace Js

abbrev CodeUnit := Fin 65536

instance neZeroUnits : NeZero 65536 := ⟨by decide⟩

abbrev Text := List CodeUnit

instance lawfulText : LawfulBEq Text := inferInstance

/-- The text of an ASCII literal. -/
def ascii (s : String) : Text := s.toList.map fun c => Fin.ofNat 65536 c.toNat

def isHigh (c : CodeUnit) : Bool := 0xd800 ≤ c.val && c.val ≤ 0xdbff

def isLow (c : CodeUnit) : Bool := 0xdc00 ≤ c.val && c.val ≤ 0xdfff

def isSurrogate (c : CodeUnit) : Bool := isHigh c || isLow c

/-- Surrogates come in pairs. -/
inductive WellFormed : Text → Prop where
  | nil : WellFormed []
  | unit {c : CodeUnit} {s : Text} (hc : isSurrogate c = false) (hs : WellFormed s) :
      WellFormed (c :: s)
  | pair {c d : CodeUnit} {s : Text} (hc : isHigh c) (hd : isLow d) (hs : WellFormed s) :
      WellFormed (c :: d :: s)

theorem WellFormed.append {s t : Text} (hs : WellFormed s) (ht : WellFormed t) :
    WellFormed (s ++ t) := by
  induction hs with
  | nil => exact ht
  | unit hc _ ih => exact .unit hc ih
  | pair hc hd _ ih => exact .pair hc hd ih

theorem wellFormed_of_ascii {s : Text} (h : ∀ c ∈ s, c.val < 128) : WellFormed s := by
  induction s with
  | nil => exact .nil
  | cons c s ih =>
    refine .unit ?_ (ih fun d hd => h d (by simp [hd]))
    have := h c (by simp)
    simp only [isSurrogate, isHigh, isLow, Bool.or_eq_false_iff, Bool.and_eq_false_iff,
      decide_eq_false_iff_not]
    omega

/-- A lower-case hexadecimal digit. -/
def hexDigit (n : ℕ) : CodeUnit := Fin.ofNat 65536 (if n < 10 then 48 + n else 87 + n)

/-- `UnicodeEscape`: `\u` and four digits. -/
def unicodeEscape (c : CodeUnit) : Text :=
  [0x5c, 0x75, hexDigit (c.val / 4096), hexDigit (c.val / 256 % 16), hexDigit (c.val / 16 % 16),
    hexDigit (c.val % 16)]

/-- The letter of a two-character escape sequence, where there is one. -/
def shortEscape (c : CodeUnit) : Option CodeUnit :=
  if c = 0x08 then some 0x62
  else if c = 0x09 then some 0x74
  else if c = 0x0a then some 0x6e
  else if c = 0x0c then some 0x66
  else if c = 0x0d then some 0x72
  else if c = 0x22 then some 0x22
  else if c = 0x5c then some 0x5c
  else none

/-- A code unit that is not half of a pair, inside quotes. -/
def quoteUnit (c : CodeUnit) : Text :=
  match shortEscape c with
  | some letter => [0x5c, letter]
  | none => if c.val < 0x20 || isSurrogate c then unicodeEscape c else [c]

def quoteUnits : Text → Text
  | [] => []
  | [c] => quoteUnit c
  | c :: d :: s =>
    if isHigh c && isLow d then c :: d :: quoteUnits s else quoteUnit c ++ quoteUnits (d :: s)

/-- `QuoteJSONString` -/
def quoteJson (s : Text) : Text := 0x22 :: (quoteUnits s ++ [0x22])

theorem hexDigit_injective {m n : ℕ} (hm : m < 16) (hn : n < 16) (h : hexDigit m = hexDigit n) :
    m = n := by
  have hval := congrArg Fin.val h
  simp only [hexDigit, Fin.val_ofNat] at hval
  split_ifs at hval <;> omega

theorem unicodeEscape_injective {c d : CodeUnit} (h : unicodeEscape c = unicodeEscape d) :
    c = d := by
  simp only [unicodeEscape, List.cons.injEq, true_and, and_true] at h
  obtain ⟨h₃, h₂, h₁, h₀⟩ := h
  have hc := c.isLt
  have hd := d.isLt
  have e₃ := hexDigit_injective (by omega) (by omega) h₃
  have e₂ := hexDigit_injective (by omega) (by omega) h₂
  have e₁ := hexDigit_injective (by omega) (by omega) h₁
  have e₀ := hexDigit_injective (by omega) (by omega) h₀
  apply Fin.ext
  omega

/-- The code unit that the letter of an escape sequence stands for. -/
def escaped (letter : CodeUnit) : CodeUnit :=
  if letter = 0x62 then 0x08
  else if letter = 0x74 then 0x09
  else if letter = 0x6e then 0x0a
  else if letter = 0x66 then 0x0c
  else if letter = 0x72 then 0x0d
  else letter

theorem shortEscape_spec {c letter : CodeUnit} (h : shortEscape c = some letter) :
    c = escaped letter ∧ letter.val < 128 := by
  unfold shortEscape at h
  split_ifs at h with h₁ h₂ h₃ h₄ h₅ h₆ h₇ <;> (rw [← Option.some.inj h]; subst c; decide)

/-- What a code unit may look like inside quotes. -/
inductive Piece : CodeUnit → Text → Prop where
  | raw {c : CodeUnit} (hquote : c ≠ 0x22) (hslash : c ≠ 0x5c) : Piece c [c]
  | short {c letter : CodeUnit} (h : shortEscape c = some letter) : Piece c [0x5c, letter]
  | long (c : CodeUnit) : Piece c (unicodeEscape c)

/-- A text is written piece by piece. -/
inductive Quoted : Text → Text → Prop where
  | nil : Quoted [] []
  | cons {c : CodeUnit} {s p t : Text} (hp : Piece c p) (hs : Quoted s t) :
      Quoted (c :: s) (p ++ t)

theorem piece_of_surrogate {c : CodeUnit} (h : isSurrogate c) : Piece c [c] := by
  refine .raw ?_ ?_ <;> rintro rfl <;> exact absurd h (by decide)

theorem piece_quoteUnit (c : CodeUnit) : Piece c (quoteUnit c) := by
  unfold quoteUnit
  split
  · exact .short ‹_›
  · rename_i hnone
    split_ifs
    · exact .long c
    · refine .raw ?_ ?_ <;> rintro rfl <;> exact absurd hnone (by decide)

theorem quoted_quoteUnits (s : Text) : Quoted s (quoteUnits s) := by
  fun_induction quoteUnits s with
  | case1 => exact .nil
  | case2 c => simpa using Quoted.cons (piece_quoteUnit c) .nil
  | case3 c d s h ih =>
    rw [Bool.and_eq_true] at h
    exact .cons (piece_of_surrogate (by simp [isSurrogate, h.1]))
      (.cons (piece_of_surrogate (by simp [isSurrogate, h.2])) ih)
  | case4 c d s h ih => exact .cons (piece_quoteUnit c) ih

theorem shortEscape_ne_u {c : CodeUnit} : shortEscape c ≠ some 0x75 := by
  unfold shortEscape
  split_ifs <;> simp

/-- Pieces are told apart from the front, and from the closing quote. -/
theorem Piece.append_inj {c d : CodeUnit} {p q r r' : Text} (hp : Piece c p) (hq : Piece d q)
    (h : p ++ r = q ++ r') : c = d ∧ r = r' := by
  cases hp with
  | raw hquote hslash =>
    cases hq with
    | raw => simpa using h
    | short => simp [hslash] at h
    | long => simp [unicodeEscape, hslash] at h
  | short hc =>
    cases hq with
    | raw _ hslash => simp [Ne.symm hslash] at h
    | short hd =>
      simp only [List.cons_append, List.nil_append, List.cons.injEq, true_and] at h
      obtain ⟨rfl, rfl⟩ := h
      exact ⟨(shortEscape_spec hc).1.trans (shortEscape_spec hd).1.symm, rfl⟩
    | long =>
      simp only [unicodeEscape, List.cons_append, List.nil_append, List.cons.injEq,
        true_and] at h
      rw [h.1] at hc
      exact absurd hc shortEscape_ne_u
  | long =>
    cases hq with
    | raw _ hslash => simp [unicodeEscape, Ne.symm hslash] at h
    | short hd =>
      simp only [unicodeEscape, List.cons_append, List.nil_append, List.cons.injEq,
        true_and] at h
      rw [← h.1] at hd
      exact absurd hd shortEscape_ne_u
    | long =>
      obtain ⟨he, hr⟩ := List.append_inj h rfl
      exact ⟨unicodeEscape_injective he, hr⟩

theorem Piece.head_ne_quote {c : CodeUnit} {p r r' : Text} (hp : Piece c p) :
    p ++ r ≠ 0x22 :: r' := by
  intro h
  cases hp with
  | raw hquote _ =>
    simp only [List.cons_append, List.nil_append, List.cons.injEq] at h
    exact hquote h.1
  | short _ => simp at h
  | long => simp [unicodeEscape] at h

theorem Quoted.append_inj {s t p q r r' : Text} (hs : Quoted s p) (ht : Quoted t q)
    (h : p ++ 0x22 :: r = q ++ 0x22 :: r') : s = t ∧ r = r' := by
  induction hs generalizing t q with
  | nil =>
    cases ht with
    | nil => simpa using h
    | cons hd _ =>
      rw [List.append_assoc] at h
      exact absurd h.symm hd.head_ne_quote
  | cons hc _ ih =>
    cases ht with
    | nil =>
      rw [List.append_assoc] at h
      exact absurd h hc.head_ne_quote
    | cons hd ht =>
      rw [List.append_assoc, List.append_assoc] at h
      obtain ⟨rfl, hrest⟩ := hc.append_inj hd h
      obtain ⟨rfl, hr⟩ := ih ht hrest
      exact ⟨rfl, hr⟩

/-- A quoted string can be read back from the front of a text. -/
theorem quoteJson_append_inj {s t r r' : Text} (h : quoteJson s ++ r = quoteJson t ++ r') :
    s = t ∧ r = r' := by
  simp only [quoteJson, List.cons_append, List.cons.injEq, true_and, List.append_assoc,
    List.nil_append] at h
  exact (quoted_quoteUnits s).append_inj (quoted_quoteUnits t) h

theorem hexDigit_val_lt {n : ℕ} (h : n < 16) : (hexDigit n).val < 128 := by
  simp only [hexDigit, Fin.val_ofNat]
  split_ifs <;> omega

theorem wellFormed_unicodeEscape (c : CodeUnit) : WellFormed (unicodeEscape c) := by
  apply wellFormed_of_ascii
  intro d hd
  have hc := c.isLt
  simp only [unicodeEscape, List.mem_cons, List.not_mem_nil, or_false] at hd
  obtain rfl | rfl | rfl | rfl | rfl | rfl := hd
  · decide
  · decide
  all_goals exact hexDigit_val_lt (by omega)

theorem wellFormed_quoteUnit (c : CodeUnit) : WellFormed (quoteUnit c) := by
  unfold quoteUnit
  split
  · rename_i letter h
    apply wellFormed_of_ascii
    intro d hd
    simp only [List.mem_cons, List.not_mem_nil, or_false] at hd
    obtain rfl | rfl := hd
    · decide
    · exact (shortEscape_spec h).2
  · split_ifs with h
    · exact wellFormed_unicodeEscape c
    · rw [Bool.or_eq_true, not_or, Bool.not_eq_true] at h
      exact .unit (by simpa using h.2) .nil

theorem wellFormed_quoteJson (s : Text) : WellFormed (quoteJson s) := by
  have hunits : WellFormed (quoteUnits s) := by
    fun_induction quoteUnits s with
    | case1 => exact .nil
    | case2 c => exact wellFormed_quoteUnit c
    | case3 c d s h ih =>
      rw [Bool.and_eq_true] at h
      exact .pair h.1 h.2 ih
    | case4 c d s h ih => exact (wellFormed_quoteUnit c).append ih
  exact .unit (by decide) (hunits.append (.unit (by decide) .nil))

/-- The code units of a character. -/
def charUnits (c : Char) : Text :=
  if c.toNat < 0x10000 then [Fin.ofNat 65536 c.toNat]
  else [Fin.ofNat 65536 (0xd800 + (c.toNat - 0x10000) / 0x400),
    Fin.ofNat 65536 (0xdc00 + (c.toNat - 0x10000) % 0x400)]

/-- A string of Unicode characters, as the language keeps it. -/
def units (s : String) : Text := s.toList.flatMap charUnits

/-- A code unit that is no half of a pair; half a pair that stands alone is encoded as U+FFFD. -/
def unitChar (c : CodeUnit) : Char :=
  if isSurrogate c then Char.ofNat 0xfffd else Char.ofNat c.val

/-- The characters that UTF-8 keeps of a text. -/
def decodeUnits : Text → List Char
  | [] => []
  | [c] => [unitChar c]
  | c :: d :: s =>
    if isHigh c && isLow d then
      Char.ofNat (0x10000 + (c.val - 0xd800) * 0x400 + (d.val - 0xdc00)) :: decodeUnits s
    else unitChar c :: decodeUnits (d :: s)

/-- A text as UTF-8 keeps it. -/
def decode (s : Text) : String := String.ofList (decodeUnits s)

theorem decodeUnits_charUnits (c : Char) (s : Text) :
    decodeUnits (charUnits c ++ s) = c :: decodeUnits s := by
  have hvalid : c.toNat.isValidChar := c.valid
  simp only [Nat.isValidChar] at hvalid
  unfold charUnits
  split_ifs with hplane
  · have hval : (Fin.ofNat 65536 c.toNat).val = c.toNat := by
      rw [Fin.val_ofNat]
      omega
    have hhigh : isHigh (Fin.ofNat 65536 c.toNat) = false := by
      simp only [isHigh, hval, Bool.and_eq_false_iff, decide_eq_false_iff_not]
      omega
    have hlow : isLow (Fin.ofNat 65536 c.toNat) = false := by
      simp only [isLow, hval, Bool.and_eq_false_iff, decide_eq_false_iff_not]
      omega
    have hchar : unitChar (Fin.ofNat 65536 c.toNat) = c := by
      rw [unitChar, isSurrogate, hhigh, hlow, if_neg (by decide), hval, Char.ofNat_toNat]
    cases s with
    | nil => exact congrArg (fun x => [x]) hchar
    | cons d s =>
      rw [List.cons_append, List.nil_append, decodeUnits, hhigh, Bool.false_and,
        if_neg (by decide), hchar]
  · have hfirst : (Fin.ofNat 65536 (0xd800 + (c.toNat - 0x10000) / 0x400)).val =
        0xd800 + (c.toNat - 0x10000) / 0x400 := by
      rw [Fin.val_ofNat]
      omega
    have hsecond : (Fin.ofNat 65536 (0xdc00 + (c.toNat - 0x10000) % 0x400)).val =
        0xdc00 + (c.toNat - 0x10000) % 0x400 := by
      rw [Fin.val_ofNat]
      omega
    have hpair : (isHigh (Fin.ofNat 65536 (0xd800 + (c.toNat - 0x10000) / 0x400)) &&
        isLow (Fin.ofNat 65536 (0xdc00 + (c.toNat - 0x10000) % 0x400))) = true := by
      simp only [isHigh, isLow, hfirst, hsecond, Bool.and_eq_true, decide_eq_true_eq]
      omega
    have hcode : 0x10000 + (0xd800 + (c.toNat - 0x10000) / 0x400 - 0xd800) * 0x400 +
        (0xdc00 + (c.toNat - 0x10000) % 0x400 - 0xdc00) = c.toNat := by
      omega
    rw [List.cons_append, List.cons_append, List.nil_append, decodeUnits, if_pos hpair, hfirst,
      hsecond, hcode, Char.ofNat_toNat]

/-- Encoding loses nothing. -/
theorem decode_units (s : String) : decode (units s) = s := by
  have hlist : ∀ cs : List Char, decodeUnits (cs.flatMap charUnits) = cs := by
    intro cs
    induction cs with
    | nil => rfl
    | cons c cs ih => rw [List.flatMap_cons, decodeUnits_charUnits, ih]
  rw [decode, units, hlist, String.ofList_toList]

theorem units_injective : Function.Injective units :=
  Function.LeftInverse.injective decode_units

end Js
