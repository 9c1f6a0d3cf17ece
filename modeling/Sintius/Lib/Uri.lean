import Mathlib
import Sintius.Lib.Utf16

/-! `encodeURIComponent`: unreserved characters stand for themselves, every other
code point for the bytes of its UTF-8 encoding. A lone surrogate has none, and the
function throws. -/

namespace Js

/-- Letters, digits and `-_.!~*'()` -/
def isUnescaped (c : CodeUnit) : Bool :=
  (0x41 ≤ c.val && c.val ≤ 0x5a) || (0x61 ≤ c.val && c.val ≤ 0x7a) ||
    (0x30 ≤ c.val && c.val ≤ 0x39) ||
    [0x2d, 0x5f, 0x2e, 0x21, 0x7e, 0x2a, 0x27, 0x28, 0x29].contains c

def utf8 (point : ℕ) : List ℕ :=
  if point < 0x80 then [point]
  else if point < 0x800 then [0xc0 + point / 64, 0x80 + point % 64]
  else if point < 0x10000 then
    [0xe0 + point / 4096, 0x80 + point / 64 % 64, 0x80 + point % 64]
  else
    [0xf0 + point / 262144, 0x80 + point / 4096 % 64, 0x80 + point / 64 % 64, 0x80 + point % 64]

def upperHex (n : ℕ) : CodeUnit := Fin.ofNat 65536 (if n < 10 then 48 + n else 55 + n)

def percent (byte : ℕ) : Text := [0x25, upperHex (byte / 16), upperHex (byte % 16)]

def escapePoint (point : ℕ) : Text := (utf8 point).flatMap percent

/-- The code point of a surrogate pair. -/
def pairPoint (c d : CodeUnit) : ℕ := 0x10000 + (c.val - 0xd800) * 0x400 + (d.val - 0xdc00)

/-- `none` where it throws a URIError. -/
def encodeURIComponent : Text → Option Text
  | [] => some []
  | c :: rest =>
    if isUnescaped c then (encodeURIComponent rest).map (c :: ·)
    else if isLow c then none
    else if isHigh c then
      match rest with
      | [] => none
      | d :: rest =>
        if isLow d then (encodeURIComponent rest).map (escapePoint (pairPoint c d) ++ ·) else none
    else (encodeURIComponent rest).map (escapePoint c.val ++ ·)

/-- The code units of an escaped code point. -/
inductive PointUnits : ℕ → Text → Prop where
  | unit {c : CodeUnit} (hc : isSurrogate c = false) : PointUnits c.val [c]
  | pair {c d : CodeUnit} (hc : isHigh c = true) (hd : isLow d = true) :
      PointUnits (pairPoint c d) [c, d]

/-- A text and its encoding, character by character. -/
inductive Encoded : Text → Text → Prop where
  | nil : Encoded [] []
  | plain {c : CodeUnit} {s t : Text} (hc : isUnescaped c = true) (h : Encoded s t) :
      Encoded (c :: s) (c :: t)
  | point {p : ℕ} {u s t : Text} (hu : PointUnits p u) (h : Encoded s t) :
      Encoded (u ++ s) (escapePoint p ++ t)

theorem encoded_of_encodeURIComponent {s t : Text} (h : encodeURIComponent s = some t) :
    Encoded s t := by
  induction s using encodeURIComponent.induct generalizing t with
  | case1 =>
    cases h
    exact .nil
  | case2 c rest hc ih =>
    rw [encodeURIComponent.eq_def] at h
    simp only [hc, if_true, Option.map_eq_some_iff] at h
    obtain ⟨t, ht, rfl⟩ := h
    exact .plain hc (ih ht)
  | case3 c rest hc hlow =>
    rw [encodeURIComponent.eq_def] at h
    simp [hc, hlow] at h
  | case4 c hc hlow hhigh =>
    rw [encodeURIComponent.eq_def] at h
    simp [hc, hlow, hhigh] at h
  | case5 c hc hlow hhigh d rest hd ih =>
    rw [encodeURIComponent.eq_def] at h
    simp only [hc, hlow, hhigh, hd, if_true, Bool.false_eq_true, if_false,
      Option.map_eq_some_iff] at h
    obtain ⟨t, ht, rfl⟩ := h
    exact Encoded.point (.pair hhigh hd) (ih ht)
  | case6 c hc hlow hhigh d rest hd =>
    rw [encodeURIComponent.eq_def] at h
    simp [hc, hlow, hhigh, hd] at h
  | case7 c rest hc hlow hhigh ih =>
    rw [encodeURIComponent.eq_def] at h
    simp only [hc, hlow, hhigh, Bool.false_eq_true, if_false, Option.map_eq_some_iff] at h
    obtain ⟨t, ht, rfl⟩ := h
    exact Encoded.point (.unit (by simp [isSurrogate, hlow, hhigh])) (ih ht)

theorem pointUnits_lt {p : ℕ} {u : Text} (h : PointUnits p u) : p < 0x110000 := by
  cases h with
  | @unit c hc => have := c.isLt; omega
  | @pair c d hc hd =>
    simp only [isHigh, isLow, Bool.and_eq_true, decide_eq_true_eq] at hc hd
    unfold pairPoint
    omega

theorem pointUnits_unique {p : ℕ} {u v : Text} (hu : PointUnits p u) (hv : PointUnits p v) :
    u = v := by
  cases hu with
  | @unit c hc =>
    generalize hp : c.val = q at hv
    cases hv with
    | @unit d hd => rw [Fin.ext hp]
    | @pair d e hd he =>
      have := c.isLt
      unfold pairPoint at hp
      omega
  | @pair c d hc hd =>
    generalize hp : pairPoint c d = q at hv
    simp only [isHigh, isLow, Bool.and_eq_true, decide_eq_true_eq] at hc hd
    cases hv with
    | @unit e he =>
      have := e.isLt
      unfold pairPoint at hp
      omega
    | @pair e f he hf =>
      simp only [isHigh, isLow, Bool.and_eq_true, decide_eq_true_eq] at he hf
      unfold pairPoint at hp
      have h₁ : c = e := Fin.ext (by omega)
      have h₂ : d = f := Fin.ext (by omega)
      rw [h₁, h₂]

theorem upperHex_injective {m n : ℕ} (hm : m < 16) (hn : n < 16) (h : upperHex m = upperHex n) :
    m = n := by
  interval_cases m <;> interval_cases n <;> first | rfl | (revert h; decide)

theorem percent_append_inj {b b' : ℕ} {r r' : Text} (hb : b < 256) (hb' : b' < 256)
    (h : percent b ++ r = percent b' ++ r') : b = b' ∧ r = r' := by
  simp only [percent, List.cons_append, List.nil_append, List.cons.injEq, true_and] at h
  obtain ⟨hhigh, hlow, hrest⟩ := h
  have h₁ := upperHex_injective (by omega) (by omega) hhigh
  have h₂ := upperHex_injective (by omega) (by omega) hlow
  exact ⟨by omega, hrest⟩

/-- The bytes of a code point end where they say, so that what follows is read alike. -/
theorem escapePoint_append_inj {p p' : ℕ} {r r' : Text} (hp : p < 0x110000) (hp' : p' < 0x110000)
    (h : escapePoint p ++ r = escapePoint p' ++ r') : p = p' ∧ r = r' := by
  unfold escapePoint utf8 at h
  split_ifs at h
  all_goals
    simp only [List.flatMap_cons, List.flatMap_nil, List.append_nil, List.append_assoc] at h
    obtain ⟨h₁, h⟩ := percent_append_inj (by omega) (by omega) h
  -- the first byte tells the number of bytes
  all_goals first
    | omega
    | exact ⟨h₁, h⟩
    | skip
  · obtain ⟨h₂, h⟩ := percent_append_inj (by omega) (by omega) h
    exact ⟨by omega, h⟩
  · obtain ⟨h₂, h⟩ := percent_append_inj (by omega) (by omega) h
    obtain ⟨h₃, h⟩ := percent_append_inj (by omega) (by omega) h
    exact ⟨by omega, h⟩
  · obtain ⟨h₂, h⟩ := percent_append_inj (by omega) (by omega) h
    obtain ⟨h₃, h⟩ := percent_append_inj (by omega) (by omega) h
    obtain ⟨h₄, h⟩ := percent_append_inj (by omega) (by omega) h
    exact ⟨by omega, h⟩

theorem escapePoint_eq_cons (p : ℕ) : ∃ t, escapePoint p = 0x25 :: t := by
  unfold escapePoint utf8
  split_ifs <;> exact ⟨_, rfl⟩

theorem percent_not_unescaped : isUnescaped 0x25 = false := by decide

theorem Encoded.unique {s s' t : Text} (h : Encoded s t) (h' : Encoded s' t) : s = s' := by
  induction h generalizing s' with
  | nil =>
    generalize ht : ([] : Text) = t at h'
    cases h' with
    | nil => rfl
    | plain _ _ => cases ht
    | @point p u s₀ t₀ _ _ =>
      obtain ⟨tail, htail⟩ := escapePoint_eq_cons p
      rw [htail] at ht
      cases ht
  | @plain c s t hc _ ih =>
    generalize ht : c :: t = t' at h'
    cases h' with
    | nil => cases ht
    | plain _ h' =>
      cases ht
      rw [ih h']
    | @point p u s₀ t₀ _ _ =>
      obtain ⟨tail, htail⟩ := escapePoint_eq_cons p
      rw [htail] at ht
      cases ht
      exact absurd hc (by rw [percent_not_unescaped]; exact Bool.false_ne_true)
  | @point p u s t hu _ ih =>
    generalize ht : escapePoint p ++ t = t' at h'
    cases h' with
    | nil =>
      obtain ⟨tail, htail⟩ := escapePoint_eq_cons p
      rw [htail] at ht
      cases ht
    | @plain c s₀ t₀ hc _ =>
      obtain ⟨tail, htail⟩ := escapePoint_eq_cons p
      rw [htail] at ht
      cases ht
      exact absurd hc (by rw [percent_not_unescaped]; exact Bool.false_ne_true)
    | @point p' u' s₀ t₀ hu' h' =>
      obtain ⟨rfl, rfl⟩ := escapePoint_append_inj (pointUnits_lt hu) (pointUnits_lt hu') ht
      rw [pointUnits_unique hu hu', ih h']

theorem encodeURIComponent_injective {s s' t : Text} (h : encodeURIComponent s = some t)
    (h' : encodeURIComponent s' = some t) : s = s' :=
  (encoded_of_encodeURIComponent h).unique (encoded_of_encodeURIComponent h')

theorem upperHex_ne_colon {n : ℕ} (h : n < 16) : upperHex n ≠ 0x3a := by
  interval_cases n <;> decide

theorem colon_not_mem_escapePoint {p : ℕ} (hp : p < 0x110000) : 0x3a ∉ escapePoint p := by
  have hbyte : ∀ b < 256, (0x3a : CodeUnit) ∉ percent b := by
    intro b hb hmem
    simp only [percent, List.mem_cons, List.not_mem_nil, or_false] at hmem
    rcases hmem with h | h | h
    · revert h
      decide
    · exact upperHex_ne_colon (by omega) h.symm
    · exact upperHex_ne_colon (by omega) h.symm
  intro hmem
  obtain ⟨b, hb, hmem⟩ := List.mem_flatMap.mp hmem
  refine hbyte b ?_ hmem
  unfold utf8 at hb
  split_ifs at hb <;> simp only [List.mem_cons, List.not_mem_nil, or_false] at hb <;> omega

/-- Colons are escaped. -/
theorem colon_not_mem_encodeURIComponent {s t : Text} (h : encodeURIComponent s = some t) :
    0x3a ∉ t := by
  have hencoded := encoded_of_encodeURIComponent h
  clear h
  induction hencoded with
  | nil => simp
  | @plain c s t hc _ ih =>
    intro hmem
    rcases List.mem_cons.mp hmem with rfl | hmem
    · revert hc
      decide
    · exact ih hmem
  | @point p u s t hu _ ih =>
    intro hmem
    rcases List.mem_append.mp hmem with hmem | hmem
    · exact colon_not_mem_escapePoint (pointUnits_lt hu) hmem
    · exact ih hmem

theorem wellFormed_charUnits (c : Char) : WellFormed (charUnits c) := by
  have hc := c.valid
  simp only [UInt32.isValidChar, Nat.isValidChar] at hc
  have hcn : c.val.toNat = c.toNat := rfl
  rw [hcn] at hc
  unfold charUnits
  split_ifs with hplane
  · refine .unit ?_ .nil
    have hval : (Fin.ofNat 65536 c.toNat).val = c.toNat := Nat.mod_eq_of_lt hplane
    simp only [isSurrogate, isHigh, isLow, hval]
    grind
  · refine .pair ?_ ?_ .nil
    · simp only [isHigh, Fin.ofNat, Bool.and_eq_true, decide_eq_true_eq]
      omega
    · simp only [isLow, Fin.ofNat, Bool.and_eq_true, decide_eq_true_eq]
      omega

theorem wellFormed_units (s : String) : WellFormed (units s) := by
  unfold units
  induction s.toList with
  | nil => exact .nil
  | cons c cs ih => exact (wellFormed_charUnits c).append ih

/-- A text whose surrogates come in pairs has an encoding. -/
theorem exists_encodeURIComponent {s : Text} (h : WellFormed s) :
    ∃ t, encodeURIComponent s = some t := by
  induction h with
  | nil => exact ⟨[], rfl⟩
  | @unit c s hc _ ih =>
    obtain ⟨t, ht⟩ := ih
    rw [isSurrogate, Bool.or_eq_false_iff] at hc
    unfold encodeURIComponent
    rw [ht, hc.1, hc.2, if_neg Bool.false_ne_true, if_neg Bool.false_ne_true]
    split_ifs <;> exact ⟨_, rfl⟩
  | @pair c d s hc hd _ ih =>
    obtain ⟨t, ht⟩ := ih
    have hplain : isUnescaped c = false := by
      rw [Bool.eq_false_iff]
      intro hplain
      simp only [isHigh, isUnescaped, Bool.or_eq_true, Bool.and_eq_true, decide_eq_true_eq,
        List.contains_eq_mem, List.mem_cons, List.not_mem_nil, or_false, Fin.ext_iff] at hc hplain
      omega
    have hlow : isLow c = false := by
      simp only [isHigh, isLow] at hc ⊢
      grind
    unfold encodeURIComponent
    rw [hplain, hlow, if_neg Bool.false_ne_true, if_neg Bool.false_ne_true, if_pos hc]
    dsimp only
    rw [if_pos hd, ht]
    exact ⟨_, rfl⟩

end Js
