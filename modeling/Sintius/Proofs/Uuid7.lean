import Mathlib
import Sintius.Lib.Date
import Sintius.Lib.Except
import Sintius.Lib.Radix
import Sintius.Lib.Utf16
import Sintius.Spec.Problem
import Sintius.Spec.Uuid7

/-! The text of an identifier is that of its timestamp, in twelve digits, and of the random
bits. So the texts are ordered as the timestamps are, and nothing but the overwritten bits
is lost. -/

namespace Sintius.Id

open Js Js.Date Radix

/-- The low `k` hexadecimal digits of `n`. -/
def digits (k n : ℕ) : Text := (fixed 16 k n).map hexDigit

section Digits

theorem length_digits (k n : ℕ) : (digits k n).length = k := by simp [digits]

theorem digits_add (j k n : ℕ) : digits (j + k) n = digits j (n / 16 ^ k) ++ digits k n := by
  simp [digits, fixed_add]

theorem hexDigit_digit : ∀ d : Fin 16, isLowerHex (hexDigit d) = true ∧
    hexValue (hexDigit d) = d ∧ hexDigit d ≠ 0x2d ∧
      ∀ e : Fin 16, d < e → hexDigit d < hexDigit e := by
  decide +kernel

theorem isLowerHex_of_mem_digits {k n : ℕ} {c : CodeUnit} (h : c ∈ digits k n) :
    isLowerHex c = true ∧ c ≠ 0x2d := by
  obtain ⟨d, hd, rfl⟩ := List.mem_map.mp h
  have hdigit := hexDigit_digit ⟨d, lt_of_mem_fixed (by norm_num) hd⟩
  exact ⟨hdigit.1, hdigit.2.2.1⟩

theorem parseHex_digits (k n : ℕ) : parseHex (digits k n) = n % 16 ^ k := by
  rw [← value_fixed]
  unfold parseHex digits value
  rw [List.foldl_map]
  refine List.foldl_ext _ _ _ fun m d hd => ?_
  rw [(hexDigit_digit ⟨d, lt_of_mem_fixed (by norm_num) hd⟩).2.1]

theorem digits_lt_digits {k m n : ℕ} (hn : n < 16 ^ k) (h : m < n) : digits k m < digits k n := by
  refine map_lt_map (p := (· < 16)) ?_ (fixed_lt_fixed hn h)
    (fun d hd => lt_of_mem_fixed (by norm_num) hd) fun d hd => lt_of_mem_fixed (by norm_num) hd
  intro x y hx hy hlt
  exact (hexDigit_digit ⟨x, hx⟩).2.2.2 ⟨y, hy⟩ hlt

theorem digits_inj {k m n : ℕ} : digits k m = digits k n ↔ m % 16 ^ k = n % 16 ^ k := by
  constructor
  · intro h
    rw [← parseHex_digits, h, parseHex_digits]
  · intro h
    rw [digits, digits, fixed_eq_fixed_iff.mpr h]

theorem hex_eq (byte : UInt8) : hex byte = digits 2 byte.toNat := by
  have hall : ∀ n : Fin 256, padStart (toStringHex n) 2 = digits 2 n := by decide +kernel
  exact hall ⟨byte.toNat, byte.toNat_lt⟩

theorem isLowerHex_of_mem_hex {byte : UInt8} {c : CodeUnit} (h : c ∈ hex byte) :
    isLowerHex c = true ∧ c ≠ 0x2d := by
  rw [hex_eq] at h
  exact isLowerHex_of_mem_digits h

theorem length_flatMap_hex (bytes : List UInt8) :
    (bytes.flatMap hex).length = 2 * bytes.length := by
  induction bytes with
  | nil => rfl
  | cons byte bytes ih =>
    rw [List.flatMap_cons, List.length_append, ih, hex_eq, length_digits, List.length_cons]
    ring

theorem flatMap_hex_injective {bytes bytes' : List UInt8}
    (h : bytes.flatMap hex = bytes'.flatMap hex) : bytes = bytes' := by
  have hlength : bytes.length = bytes'.length := by
    have := congrArg List.length h
    rw [length_flatMap_hex, length_flatMap_hex] at this
    omega
  induction bytes generalizing bytes' with
  | nil => exact (List.length_eq_zero_iff.mp hlength.symm).symm
  | cons byte bytes ih =>
    cases bytes' with
    | nil => cases hlength
    | cons byte' bytes' =>
      rw [List.flatMap_cons, List.flatMap_cons, hex_eq, hex_eq] at h
      obtain ⟨hhead, htail⟩ := List.append_inj h (by simp [length_digits])
      have hbyte : byte.toNat = byte'.toNat := by
        have hmod := digits_inj.mp hhead
        have hlt := byte.toNat_lt
        have hlt' := byte'.toNat_lt
        omega
      rw [UInt8.toNat_inj.mp hbyte, ih htail (Nat.succ_injective hlength)]

end Digits

section Stamps

theorem forall_byte {p : UInt8 → Prop} (h : ∀ n : Fin 256, p (UInt8.ofNat n)) (byte : UInt8) :
    p byte := by
  have hbyte := h ⟨byte.toNat, byte.toNat_lt⟩
  rwa [UInt8.ofNat_toNat] at hbyte

/-- The version leaves the low digit of its byte. -/
theorem version_spec : ∀ byte : UInt8,
    hex ((byte &&& 0x0f) ||| 0x70) = [0x37, hexDigit (byte.toNat % 16)] ∧
      ((byte &&& 0x0f) ||| 0x70).toNat = byte.toNat % 16 + 112 :=
  forall_byte (by decide +kernel)

/-- The variant leaves the low six bits of its byte. -/
theorem variant_spec : ∀ byte : UInt8, hex ((byte &&& 0x3f) ||| 0x80) =
      [hexDigit (8 + byte.toNat / 16 % 4), hexDigit (byte.toNat % 16)] ∧
    ((byte &&& 0x3f) ||| 0x80).toNat = byte.toNat % 64 + 128 :=
  forall_byte (by decide +kernel)

end Stamps

/-- The random bytes under the version and the variant. -/
def stamped (random : List UInt8) : List UInt8 :=
  (random.modify 0 fun byte => (byte &&& 0x0f) ||| 0x70).modify 2 fun byte =>
    (byte &&& 0x3f) ||| 0x80

/-- The digits of an identifier, between its hyphens. -/
def hyphenate (text : Text) : Text :=
  text.take 8 ++ 0x2d :: ((text.take 12).drop 8 ++ 0x2d :: ((text.take 16).drop 12 ++
    0x2d :: ((text.take 20).drop 16 ++ 0x2d :: text.drop 20)))

section Layout

theorem take_append_drop_take {i j : ℕ} (h : i ≤ j) (text rest : Text) :
    text.take i ++ ((text.take j).drop i ++ rest) = text.take j ++ rest := by
  have hjoin := List.take_append_drop i (text.take j)
  rw [List.take_take, Nat.min_eq_left h] at hjoin
  rw [← List.append_assoc, hjoin]

theorem filter_hyphenate {text : Text} (h : ∀ c ∈ text, c ≠ 0x2d) :
    (hyphenate text).filter (· ≠ 0x2d) = text := by
  have hkeep : ∀ i j, ((text.take i).drop j).filter (· ≠ 0x2d) = (text.take i).drop j :=
    fun i j => List.filter_eq_self.mpr fun c hc => by
      simpa using h c (List.mem_of_mem_take (List.mem_of_mem_drop hc))
  have htake : (text.take 8).filter (· ≠ 0x2d) = text.take 8 := hkeep 8 0
  have hdrop : (text.drop 20).filter (· ≠ 0x2d) = text.drop 20 :=
    List.filter_eq_self.mpr fun c hc => by simpa using h c (List.mem_of_mem_drop hc)
  have hhyphen : ∀ part : Text, (0x2d :: part).filter (· ≠ 0x2d) = part.filter (· ≠ 0x2d) :=
    fun part => by simp
  unfold hyphenate
  simp only [List.filter_append, hhyphen, hkeep, htake, hdrop]
  rw [take_append_drop_take (by norm_num), take_append_drop_take (by norm_num),
    take_append_drop_take (by norm_num), List.take_append_drop]

end Layout

section Format

/-- Each code unit is in the class of its place. -/
abbrev Fits (classes : List (CodeUnit → Bool)) (text : Text) : Prop :=
  List.Forall₂ (fun p c => p c = true) classes text

theorem UUID_FORMAT_iff {id : Text} : UUID_FORMAT id = true ↔ Fits uuidClasses id := by
  unfold UUID_FORMAT
  generalize uuidClasses = classes
  rw [Bool.and_eq_true, beq_iff_eq]
  constructor
  · rintro ⟨hlength, hall⟩
    induction classes generalizing id with
    | nil => rw [List.length_eq_zero_iff.mp hlength]; exact .nil
    | cons p classes ih =>
      cases id with
      | nil => cases hlength
      | cons c id =>
        rw [List.zipWith_cons_cons, List.all_cons, Bool.and_eq_true, beq_iff_eq] at hall
        exact .cons hall.1 (ih (Nat.succ_injective hlength) hall.2)
  · intro h
    refine ⟨h.length_eq.symm, ?_⟩
    induction h with
    | nil => rfl
    | cons hp _ ih => rw [List.zipWith_cons_cons, List.all_cons, hp, ih]; rfl

theorem fits_replicate {p : CodeUnit → Bool} {text : Text} (h : ∀ c ∈ text, p c = true) :
    Fits (List.replicate text.length p) text := by
  induction text with
  | nil => exact .nil
  | cons c text ih => exact .cons (h c (by simp)) (ih fun d hd => h d (by simp [hd]))

theorem fits_digits (k n : ℕ) : Fits (List.replicate k isLowerHex) (digits k n) := by
  have h := fits_replicate fun c hc => (isLowerHex_of_mem_digits (k := k) (n := n) hc).1
  rwa [length_digits] at h

theorem hyphenate_append {a b c d e : Text} (ha : a.length = 8) (hb : b.length = 4)
    (hc : c.length = 4) (hd : d.length = 4) : hyphenate (a ++ (b ++ (c ++ (d ++ e)))) =
      a ++ 0x2d :: (b ++ 0x2d :: (c ++ 0x2d :: (d ++ 0x2d :: e))) := by
  have hnil : ∀ (text : Text) (i j : ℕ), text.length ≤ j → (text.take i).drop j = [] :=
    fun text i j h => List.drop_eq_nil_of_le ((List.length_take_le' i text).trans h)
  have hdrop : ∀ (text : Text) (j : ℕ), text.length ≤ j → text.drop j = [] :=
    fun text j h => List.drop_eq_nil_of_le h
  simp [hyphenate, List.take_append, List.drop_append, ha, hb, hc, hd, hnil, hdrop]

/-- The digits of an identifier, in the groups between its hyphens. -/
structure Groups (timestamp : ℕ) (text version variant rest : Text) : Prop where
  text : hyphenate text = digits 8 (timestamp / 16 ^ 4) ++ 0x2d :: (digits 4 timestamp ++
    0x2d :: (version ++ 0x2d :: (variant ++ 0x2d :: rest)))
  version : Fits ((· == 0x37) :: List.replicate 3 isLowerHex) version
  variant : Fits (isVariantDigit :: List.replicate 3 isLowerHex) variant
  rest : Fits (List.replicate 12 isLowerHex) rest

theorem exists_groups (timestamp : ℕ) {random : List UInt8} (h : random.length = 10) :
    ∃ version variant rest,
      Groups timestamp (digits 12 timestamp ++ (stamped random).flatMap hex) version variant
        rest := by
  obtain ⟨a₀, a₁, a₂, a₃, rest, rfl⟩ : ∃ a₀ a₁ a₂ a₃ rest,
      random = a₀ :: a₁ :: a₂ :: a₃ :: rest := by
    match random with
    | a₀ :: a₁ :: a₂ :: a₃ :: rest => exact ⟨a₀, a₁, a₂, a₃, rest, rfl⟩
  have hrest : (rest.flatMap hex).length = 12 := by
    rw [length_flatMap_hex]
    simp only [List.length_cons] at h
    omega
  have hbyte : ∀ byte : UInt8, Fits [isLowerHex, isLowerHex] (hex byte) := fun byte => by
    rw [hex_eq]
    exact fits_digits 2 byte.toNat
  have hdigit : ∀ n, isLowerHex (hexDigit (n % 16)) = true := fun n =>
    (hexDigit_digit ⟨n % 16, Nat.mod_lt n (by norm_num)⟩).1
  have hvariant : ∀ k : Fin 4, isVariantDigit (hexDigit (8 + k)) = true := by decide +kernel
  refine ⟨0x37 :: hexDigit (a₀.toNat % 16) :: hex a₁, hexDigit (8 + a₂.toNat / 16 % 4) ::
    hexDigit (a₂.toNat % 16) :: hex a₃, rest.flatMap hex, ?_, ?_, ?_, ?_⟩
  · have htext : digits 12 timestamp ++ (stamped (a₀ :: a₁ :: a₂ :: a₃ :: rest)).flatMap hex =
        digits 8 (timestamp / 16 ^ 4) ++ (digits 4 timestamp ++
          ((0x37 :: hexDigit (a₀.toNat % 16) :: hex a₁) ++
            ((hexDigit (8 + a₂.toNat / 16 % 4) :: hexDigit (a₂.toNat % 16) :: hex a₃) ++
              rest.flatMap hex))) := by
      have hstamped : stamped (a₀ :: a₁ :: a₂ :: a₃ :: rest) = ((a₀ &&& 0x0f) ||| 0x70) :: a₁ ::
          ((a₂ &&& 0x3f) ||| 0x80) :: a₃ :: rest := rfl
      rw [hstamped, digits_add 8 4]
      simp only [List.flatMap_cons, (version_spec a₀).1, (variant_spec a₂).1, List.append_assoc,
        List.cons_append, List.nil_append]
    rw [htext]
    refine hyphenate_append (length_digits _ _) (length_digits _ _) ?_ ?_
    · simp [hex_eq, length_digits]
    · simp [hex_eq, length_digits]
  · exact .cons rfl (.cons (hdigit _) (hbyte a₁))
  · exact .cons (hvariant ⟨_, Nat.mod_lt _ (by norm_num)⟩) (.cons (hdigit _) (hbyte a₃))
  · rw [← hrest]
    refine fits_replicate fun c hc => ?_
    obtain ⟨byte, -, hmem⟩ := List.mem_flatMap.mp hc
    exact (isLowerHex_of_mem_hex hmem).1

variable {timestamp : ℕ} {text version variant rest : Text}

theorem Groups.format (h : Groups timestamp text version variant rest) :
    UUID_FORMAT (hyphenate text) = true := by
  have hclasses : uuidClasses = List.replicate 8 isLowerHex ++ (· == 0x2d) ::
      (List.replicate 4 isLowerHex ++ (· == 0x2d) ::
        (((· == 0x37) :: List.replicate 3 isLowerHex) ++ (· == 0x2d) ::
          ((isVariantDigit :: List.replicate 3 isLowerHex) ++ (· == 0x2d) ::
            List.replicate 12 isLowerHex))) := rfl
  rw [UUID_FORMAT_iff, hclasses, h.text]
  refine List.rel_append (fits_digits 8 _) (.cons rfl ?_)
  refine List.rel_append (fits_digits 4 _) (.cons rfl ?_)
  exact List.rel_append h.version (.cons rfl (List.rel_append h.variant (.cons rfl h.rest)))

end Format

section Bytes

theorem hex_ofNat (n : ℕ) : hex (UInt8.ofNat (n &&& 0xff)) = digits 2 n := by
  have hmod : (UInt8.ofNat (n &&& 0xff)).toNat = n % 256 := by
    rw [UInt8.toNat_ofNat', show (0xff : ℕ) = 2 ^ 8 - 1 from rfl, Nat.and_two_pow_sub_one_eq_mod]
    omega
  rw [hex_eq, hmod]
  exact digits_inj.mpr (Nat.mod_mod n 256)

/-- The digits of the timestamp come first. -/
theorem flatMap_hex_uuidBytes (timestamp : ℕ) (random : List UInt8) :
    (uuidBytes timestamp random).flatMap hex =
      digits 12 timestamp ++ (stamped random).flatMap hex := by
  have hbytes : uuidBytes timestamp random =
      UInt8.ofNat ((timestamp >>> 40) &&& 0xff) :: UInt8.ofNat ((timestamp >>> 32) &&& 0xff) ::
      UInt8.ofNat ((timestamp >>> 24) &&& 0xff) :: UInt8.ofNat ((timestamp >>> 16) &&& 0xff) ::
      UInt8.ofNat ((timestamp >>> 8) &&& 0xff) :: UInt8.ofNat (timestamp &&& 0xff) ::
        stamped random := rfl
  have hdigits : digits 12 timestamp = digits 2 (timestamp >>> 40) ++
      (digits 2 (timestamp >>> 32) ++ (digits 2 (timestamp >>> 24) ++
        (digits 2 (timestamp >>> 16) ++ (digits 2 (timestamp >>> 8) ++ digits 2 timestamp)))) := by
    rw [digits_add 2 10, digits_add 2 8, digits_add 2 6, digits_add 2 4, digits_add 2 2]
    simp only [Nat.shiftRight_eq_div_pow]
    norm_num
  rw [hbytes, hdigits]
  simp only [List.flatMap_cons, hex_ofNat, List.append_assoc]

/-- What is generated from a date of the epoch or later, and ten bytes. -/
theorem generateUuidV7_eq {t : Instant} {randomBytes : ℕ → List UInt8} (ht : 0 ≤ t.1)
    (hlength : (randomBytes 10).length = 10) : generateUuidV7 (some t) randomBytes =
      .ok (hyphenate (digits 12 t.1.toNat ++ (stamped (randomBytes 10)).flatMap hex)) := by
  have hmask : digits 12 (t.1.toNat &&& 0xffffffffffff) = digits 12 t.1.toNat := by
    rw [show (0xffffffffffff : ℕ) = 2 ^ 48 - 1 from rfl, Nat.and_two_pow_sub_one_eq_mod]
    exact digits_inj.mpr (Nat.mod_mod _ _)
  unfold generateUuidV7
  refine Except.bind_eq_ok_iff.mpr ⟨t.1, rfl, Except.bind_eq_ok_iff.mpr ⟨(), ?_, ?_⟩⟩
  · exact throwIf_eq_ok_iff.mpr (not_lt.mpr ht)
  · refine Except.bind_eq_ok_iff.mpr ⟨(), throwIf_eq_ok_iff.mpr (not_not.mpr hlength), ?_⟩
    rw [flatMap_hex_uuidBytes, hmask]
    rfl

end Bytes

section FreeBits

/-- The version and the variant overwrite this bit of this random byte. -/
def overwritten (byte bit : ℕ) : Bool := (byte == 0 && 4 ≤ bit) || (byte == 2 && 6 ≤ bit)

example : ((List.range 10 ×ˢ List.range 8).filter fun p => !overwritten p.1 p.2).length = 74 := by
  decide +kernel

/-- The random bytes agree on every bit that is not overwritten. -/
def AgreeOnFreeBits (random random' : List UInt8) : Prop :=
  ∀ byte < 10, ∀ bit < 8, overwritten byte bit = false →
    (random.getD byte 0).toNat.testBit bit = (random'.getD byte 0).toNat.testBit bit

theorem mod_two_pow_eq_iff {m n k : ℕ} :
    m % 2 ^ k = n % 2 ^ k ↔ ∀ i < k, m.testBit i = n.testBit i := by
  constructor
  · intro h i hi
    have hbit := congrArg (Nat.testBit · i) h
    simpa [Nat.testBit_mod_two_pow, hi] using hbit
  · intro h
    refine Nat.eq_of_testBit_eq fun i => ?_
    simp only [Nat.testBit_mod_two_pow]
    by_cases hi : i < k
    · simp [hi, h i hi]
    · simp [hi]

variable {a b : UInt8}

theorem byte_eq_iff : a = b ↔ ∀ i < 8, a.toNat.testBit i = b.toNat.testBit i := by
  rw [← mod_two_pow_eq_iff, ← UInt8.toNat_inj, Nat.mod_eq_of_lt a.toNat_lt,
    Nat.mod_eq_of_lt b.toNat_lt]

theorem version_eq_iff : (a &&& 0x0f) ||| 0x70 = (b &&& 0x0f) ||| 0x70 ↔
    ∀ i < 4, a.toNat.testBit i = b.toNat.testBit i := by
  rw [← mod_two_pow_eq_iff, ← UInt8.toNat_inj, (version_spec a).2, (version_spec b).2,
    Nat.add_right_cancel_iff]
  rfl

theorem variant_eq_iff : (a &&& 0x3f) ||| 0x80 = (b &&& 0x3f) ||| 0x80 ↔
    ∀ i < 6, a.toNat.testBit i = b.toNat.testBit i := by
  rw [← mod_two_pow_eq_iff, ← UInt8.toNat_inj, (variant_spec a).2, (variant_spec b).2,
    Nat.add_right_cancel_iff]
  rfl

theorem eq_iff_getD {l l' : List UInt8} (h : l.length = l'.length) :
    l = l' ↔ ∀ i < l.length, l.getD i 0 = l'.getD i 0 := by
  constructor
  · rintro rfl i -
    rfl
  · intro hall
    refine List.ext_getElem h fun i hi hi' => ?_
    have hget := hall i hi
    rwa [List.getD_eq_getElem _ _ hi, List.getD_eq_getElem _ _ hi'] at hget

/-- Nothing but the overwritten bits is lost. -/
theorem stamped_eq_iff {random random' : List UInt8} (h : random.length = 10)
    (h' : random'.length = 10) : stamped random = stamped random' ↔
      AgreeOnFreeBits random random' := by
  obtain ⟨a₀, a₁, a₂, rest, rfl⟩ : ∃ a₀ a₁ a₂ rest, random = a₀ :: a₁ :: a₂ :: rest := by
    match random with
    | a₀ :: a₁ :: a₂ :: rest => exact ⟨a₀, a₁, a₂, rest, rfl⟩
  obtain ⟨b₀, b₁, b₂, rest', rfl⟩ : ∃ b₀ b₁ b₂ rest', random' = b₀ :: b₁ :: b₂ :: rest' := by
    match random' with
    | b₀ :: b₁ :: b₂ :: rest' => exact ⟨b₀, b₁, b₂, rest', rfl⟩
  have hrest : rest.length = 7 := by simpa using h
  have hrest' : rest'.length = 7 := by simpa using h'
  have hstamped : ∀ (x y z : UInt8) (l : List UInt8), stamped (x :: y :: z :: l) =
      ((x &&& 0x0f) ||| 0x70) :: y :: ((z &&& 0x3f) ||| 0x80) :: l := fun _ _ _ _ => rfl
  rw [hstamped, hstamped]
  simp only [List.cons.injEq]
  rw [version_eq_iff, byte_eq_iff, variant_eq_iff, eq_iff_getD (hrest.trans hrest'.symm), hrest]
  constructor
  · rintro ⟨hversion, hbyte, hvariant, hrest⟩ byte hlt bit hbit hfree
    match byte with
    | 0 => exact hversion bit (by simpa [overwritten] using hfree)
    | 1 => exact hbyte bit hbit
    | 2 => exact hvariant bit (by simpa [overwritten] using hfree)
    | byte + 3 => exact byte_eq_iff.mp (hrest byte (by omega)) bit hbit
  · intro hagree
    refine ⟨fun i hi => ?_, fun i hi => ?_, fun i hi => ?_, fun k hk => ?_⟩
    · exact hagree 0 (by norm_num) i (by omega) (by simpa [overwritten] using hi)
    · exact hagree 1 (by norm_num) i hi rfl
    · exact hagree 2 (by norm_num) i (by omega) (by simpa [overwritten] using hi)
    · refine byte_eq_iff.mpr fun i hi => ?_
      exact hagree (k + 3) (by omega) i hi (by simp [overwritten])

end FreeBits

section Order

variable {m n : ℕ} {text text' version version' variant variant' rest rest' : Text}

theorem digits_lt_digits_of_mod {k : ℕ} (h : m % 16 ^ k < n % 16 ^ k) :
    digits k m < digits k n := by
  rw [← digits_inj.mpr (Nat.mod_mod m (16 ^ k)), ← digits_inj.mpr (Nat.mod_mod n (16 ^ k))]
  exact digits_lt_digits (Nat.mod_lt n (by positivity)) h

/-- A later timestamp has a larger text. -/
theorem Groups.lt (h : Groups m text version variant rest)
    (h' : Groups n text' version' variant' rest') (hn : n < 2 ^ 48) (hlt : m < n) :
    hyphenate text < hyphenate text' := by
  rw [h.text, h'.text]
  have hlength : ∀ k m n, (digits k m).length = (digits k n).length := fun k m n => by
    rw [length_digits, length_digits]
  rcases (Nat.div_le_div_right (c := 16 ^ 4) hlt.le).lt_or_eq with hhigh | hhigh
  · exact append_lt_append (digits_lt_digits (by omega) hhigh) (hlength _ _ _) _ _
  · rw [hhigh]
    refine append_lt_append_left (List.Lex.cons ?_) _
    exact append_lt_append (digits_lt_digits_of_mod (by omega)) (hlength _ _ _) _ _

end Order

section Generated

variable {t t' : Instant} {randomBytes randomBytes' : ℕ → List UInt8} {id id' : Text}

theorem filter_digits (n : ℕ) (bytes : List UInt8) :
    (hyphenate (digits 12 n ++ bytes.flatMap hex)).filter (· ≠ 0x2d) =
      digits 12 n ++ bytes.flatMap hex := by
  refine filter_hyphenate fun c hc => ?_
  rcases List.mem_append.mp hc with hc | hc
  · exact (isLowerHex_of_mem_digits hc).2
  · obtain ⟨byte, -, hmem⟩ := List.mem_flatMap.mp hc
    exact (isLowerHex_of_mem_hex hmem).2

theorem generated_wellFormed (ht : 0 ≤ t.1) (hlength : (randomBytes 10).length = 10)
    (h : generateUuidV7 (some t) randomBytes = .ok id) : isUuidV7 id = true ∧
      ∃ time, timestampOfUuidV7 id = .ok (some time) ∧ time.1 = t.1 % 2 ^ 48 := by
  rw [generateUuidV7_eq ht hlength] at h
  cases h
  obtain ⟨version, variant, rest, hgroups⟩ := exists_groups t.1.toNat hlength
  have hformat : isUuidV7 _ = true := hgroups.format
  refine ⟨hformat, ?_⟩
  have hvalue : ((t.1.toNat % 16 ^ 12 : ℕ) : ℤ) = t.1 % 2 ^ 48 := by omega
  have hclip : |t.1 % 2 ^ 48| ≤ maxTime := by
    unfold maxTime
    rw [abs_le]
    omega
  refine ⟨⟨t.1 % 2 ^ 48, hclip⟩, ?_, rfl⟩
  unfold timestampOfUuidV7
  refine Except.bind_eq_ok_iff.mpr ⟨(), throwIf_eq_ok_iff.mpr (by simp [hformat]), ?_⟩
  rw [filter_digits, List.take_left' (length_digits _ _)]
  dsimp only
  rw [parseHex_digits, hvalue]
  exact congrArg Except.ok (timeClip_val ⟨_, hclip⟩)

theorem generated_lt (ht : 0 ≤ t.1) (ht' : t'.1 < 2 ^ 48) (hlt : t.1 < t'.1)
    (hlength : (randomBytes 10).length = 10) (hlength' : (randomBytes' 10).length = 10)
    (h : generateUuidV7 (some t) randomBytes = .ok id)
    (h' : generateUuidV7 (some t') randomBytes' = .ok id') : id < id' := by
  rw [generateUuidV7_eq ht hlength] at h
  rw [generateUuidV7_eq (ht.trans hlt.le) hlength'] at h'
  cases h
  cases h'
  obtain ⟨_, _, _, hgroups⟩ := exists_groups t.1.toNat hlength
  obtain ⟨_, _, _, hgroups'⟩ := exists_groups t'.1.toNat hlength'
  exact hgroups.lt hgroups' (by omega) (by omega)

theorem generated_eq_iff (ht : 0 ≤ t.1) (ht' : 0 ≤ t'.1)
    (hlength : (randomBytes 10).length = 10) (hlength' : (randomBytes' 10).length = 10)
    (h : generateUuidV7 (some t) randomBytes = .ok id)
    (h' : generateUuidV7 (some t') randomBytes' = .ok id') :
    id = id' ↔ t.1 % 2 ^ 48 = t'.1 % 2 ^ 48 ∧
      AgreeOnFreeBits (randomBytes 10) (randomBytes' 10) := by
  rw [generateUuidV7_eq ht hlength] at h
  rw [generateUuidV7_eq ht' hlength'] at h'
  cases h
  cases h'
  rw [← stamped_eq_iff hlength hlength']
  constructor
  · intro heq
    have htext := congrArg (List.filter (· ≠ 0x2d)) heq
    rw [filter_digits, filter_digits] at htext
    obtain ⟨hdigits, hhex⟩ := List.append_inj htext (by rw [length_digits, length_digits])
    have hmod := digits_inj.mp hdigits
    exact ⟨by omega, flatMap_hex_injective hhex⟩
  · rintro ⟨htime, hstamped⟩
    have hmod : t.1.toNat % 16 ^ 12 = t'.1.toNat % 16 ^ 12 := by omega
    rw [hstamped, digits_inj.mpr hmod]

end Generated

/-- Identifiers encode timestamps and random bits, in the order of the timestamps. -/
structure OrderPreserving : Prop where
  /-- From a date of the epoch or later and ten bytes an identifier is generated, and its timestamp
  is read back, modulo 2^48. -/
  wellFormed : ∀ (t : Instant) (randomBytes : ℕ → List UInt8), 0 ≤ t.1 →
    (randomBytes 10).length = 10 → ∃ id, generateUuidV7 (some t) randomBytes = .ok id ∧
      isUuidV7 id = true ∧
      ∃ time, timestampOfUuidV7 id = .ok (some time) ∧ time.1 = t.1 % 2 ^ 48
  /-- Below 2^48 the texts are ordered as the timestamps are, whatever the random bytes. -/
  ordered : ∀ (t t' : Instant) (randomBytes randomBytes' : ℕ → List UInt8) (id id' : Text),
    0 ≤ t.1 → t'.1 < 2 ^ 48 → (randomBytes 10).length = 10 → (randomBytes' 10).length = 10 →
    generateUuidV7 (some t) randomBytes = .ok id →
    generateUuidV7 (some t') randomBytes' = .ok id' → t.1 < t'.1 → id < id'
  /-- Texts are equal only for equal timestamps, modulo 2^48, and equal free bits. -/
  determined : ∀ (t t' : Instant) (randomBytes randomBytes' : ℕ → List UInt8) (id id' : Text),
    0 ≤ t.1 → 0 ≤ t'.1 → (randomBytes 10).length = 10 → (randomBytes' 10).length = 10 →
    generateUuidV7 (some t) randomBytes = .ok id →
    generateUuidV7 (some t') randomBytes' = .ok id' →
    (id = id' ↔ t.1 % 2 ^ 48 = t'.1 % 2 ^ 48 ∧
      AgreeOnFreeBits (randomBytes 10) (randomBytes' 10))

theorem uuid_order_preserving : OrderPreserving := by
  refine ⟨?_, ?_, ?_⟩
  · intro t randomBytes ht hlength
    have hgenerated := generateUuidV7_eq ht hlength
    exact ⟨_, hgenerated, generated_wellFormed ht hlength hgenerated⟩
  · intro t t' randomBytes randomBytes' id id' ht ht' hlength hlength' h h' hlt
    exact generated_lt ht ht' hlt hlength hlength' h h'
  · intro t t' randomBytes randomBytes' id id' ht ht' hlength hlength' h h'
    exact generated_eq_iff ht ht' hlength hlength' h h'

end Sintius.Id
