import Mathlib
import Sintius.Lib.Except
import Sintius.Lib.Rounding
import Sintius.Lib.Table
import Sintius.Spec.Problem
import Sintius.Spec.Decimal
import Sintius.Spec.Money
import Sintius.Proofs.Decimal

/-! Settled amounts stay settled: every way to obtain an amount puts it at its
currency's minor unit, and what each operation does there is exact, or rounded once. -/

set_option linter.dupNamespace false

namespace Sintius.Money

open Rounding

/-- An amount at the minor unit of a supported currency. -/
structure Settled (m : Money) : Prop where
  supported : currency m.currency.code = .ok m.currency
  scale : m.amount.scale = m.currency.minorUnits
  digits : digitCount m.amount.units ≤ 38

/-- `r` is the amount of `n` minor units if that fits, and a rejection if it does not. -/
def YieldsMoney (r : Except Problem Money) (unit : Currency) (n : ℤ) : Prop :=
  (Fits n → ∃ m, r = .ok m ∧ m.currency = unit ∧ m.minorUnits = n) ∧
    (¬ Fits n → ∃ detail, r = .error { code := .calculation_rejected, detail := detail })

section Currencies

theorem currency_eq_ok_iff {code : String} {unit : Currency} :
    currency code = .ok unit ↔ unit ∈ CURRENCIES ∧ unit.code = code := by
  have hcodes : CURRENCIES.Pairwise fun a b => a.code ≠ b.code := by decide
  unfold currency
  constructor
  · intro h
    split at h
    · rename_i found hfound
      cases h
      exact ⟨List.mem_of_find?_eq_some hfound, by simpa using List.find?_some hfound⟩
    · cases h
  · rintro ⟨hmem, rfl⟩
    cases hfind : CURRENCIES.find? fun other => other.code == unit.code with
    | none => simpa using List.find?_eq_none.mp hfind unit hmem
    | some found =>
      have hcode : found.code = unit.code := by simpa using List.find?_some hfind
      have hfound := List.mem_of_find?_eq_some hfind
      rw [Sql.eq_of_key_eq hcodes hfound hmem hcode]

theorem minorUnits_le {code : String} {unit : Currency} (h : currency code = .ok unit) :
    unit.minorUnits ≤ MAX_SCALE := by
  have hall : ∀ unit ∈ CURRENCIES, unit.minorUnits ≤ MAX_SCALE := by decide
  exact hall unit (currency_eq_ok_iff.mp h).1

theorem code_of_currency {code : String} {unit : Currency} (h : currency code = .ok unit) :
    unit.code = code ∧ currency unit.code = .ok unit := by
  have hcode := (currency_eq_ok_iff.mp h).2
  exact ⟨hcode, hcode.symm ▸ h⟩

theorem statedScale_wholeNumber {n : ℕ} (h : n ≤ MAX_SCALE) :
    statedScale (wholeNumber n) = some n := by
  have hle : n ≤ 18 := h
  unfold statedScale wholeNumber
  rw [dif_pos (by omega), Js.Number.integer?_ofNat]
  simp only [Option.bind_some]
  rw [if_pos (by omega), Int.toNat_natCast]

theorem Settled.minorUnits_le {m : Money} (h : Settled m) : m.currency.minorUnits ≤ MAX_SCALE :=
  Sintius.Money.minorUnits_le h.supported

/-- Settled amounts with one code have one currency. -/
theorem Settled.currency_eq {m m' : Money} (h : Settled m) (h' : Settled m')
    (hcode : m.currency.code = m'.currency.code) : m.currency = m'.currency := by
  have hsupported := h.supported
  rw [hcode, h'.supported] at hsupported
  exact (Except.ok.inj hsupported).symm

end Currencies

section Operations

theorem Yields.eq_ok {r : Except Problem Decimal} {s : ℕ} {n : ℤ} {d : Decimal}
    (h : Yields r s n) (hr : r = .ok d) : d.units = n ∧ d.scale = s := by
  by_cases hfits : Fits n
  · obtain ⟨d', hd', hunits, hscale⟩ := h.1 hfits
    cases hr.symm.trans hd'
    exact ⟨hunits, hscale⟩
  · obtain ⟨detail, hdetail⟩ := h.2 hfits
    cases hr.symm.trans hdetail

/-- An amount is built from a decimal as it is. -/
theorem yieldsMoney_bind {x : Except Problem Decimal} {unit : Currency} {s : ℕ} {n : ℤ}
    (h : Yields x s n) : YieldsMoney (x >>= fun amount => .ok ⟨amount, unit⟩) unit n := by
  constructor
  · intro hfits
    obtain ⟨d, hd, hunits, -⟩ := h.1 hfits
    exact ⟨⟨d, unit⟩, by rw [hd]; rfl, rfl, hunits⟩
  · intro hfits
    obtain ⟨detail, hdetail⟩ := h.2 hfits
    exact ⟨detail, by rw [hdetail]; rfl⟩

theorem unitsAt_self (d : Decimal) : d.unitsAt d.scale = d.units := by
  simp [Decimal.unitsAt, pow10]

theorem maxScale_eq {a b : Decimal} (h : a.scale = b.scale) :
    (Decimal.maxScale a b).1 = a.scale := by
  change max a.scale b.scale = a.scale
  rw [h, max_self]

theorem add_yields {a b : Decimal} (h : a.scale = b.scale) :
    Yields (a.add b) a.scale (a.units + b.units) := by
  have hyields := construct_yields (a.units + b.units) (Decimal.maxScale a b)
  unfold Decimal.add
  dsimp only
  rw [maxScale_eq h] at hyields ⊢
  rw [unitsAt_self, h, unitsAt_self, ← h]
  exact hyields

theorem subtract_yields {a b : Decimal} (h : a.scale = b.scale) :
    Yields (a.subtract b) a.scale (a.units - b.units) := by
  have hyields := construct_yields (a.units - b.units) (Decimal.maxScale a b)
  unfold Decimal.subtract
  dsimp only
  rw [maxScale_eq h] at hyields ⊢
  rw [unitsAt_self, h, unitsAt_self, ← h]
  exact hyields

variable {a b m : Money}

theorem same_of_code_ne (h : a.currency.code ≠ b.currency.code) :
    a.same b = mismatch := by
  unfold Money.same
  rw [if_pos (Ne.symm h)]

theorem same_of_code_eq (h : a.currency.code = b.currency.code) : a.same b = .ok () := by
  unfold Money.same
  rw [if_neg (not_not.mpr h.symm)]

theorem add_settled (ha : Settled a) (hb : Settled b)
    (hcode : a.currency.code = b.currency.code) :
    YieldsMoney (a.add b) a.currency (a.minorUnits + b.minorUnits) := by
  have hscale : a.amount.scale = b.amount.scale := by
    rw [ha.scale, hb.scale, ha.currency_eq hb hcode]
  unfold Money.add
  rw [same_of_code_eq hcode]
  exact yieldsMoney_bind (add_yields hscale)

theorem subtract_settled (ha : Settled a) (hb : Settled b)
    (hcode : a.currency.code = b.currency.code) :
    YieldsMoney (a.subtract b) a.currency (a.minorUnits - b.minorUnits) := by
  have hscale : a.amount.scale = b.amount.scale := by
    rw [ha.scale, hb.scale, ha.currency_eq hb hcode]
  unfold Money.subtract
  rw [same_of_code_eq hcode]
  exact yieldsMoney_bind (subtract_yields hscale)

theorem negate_yields (a : Money) : YieldsMoney a.negate a.currency (-a.minorUnits) :=
  yieldsMoney_bind (construct_yields (-a.amount.units) ⟨a.amount.scale, a.amount.scale_le⟩)

/-- The error of a mode, in minor units. -/
def Within (mode : RoundingMode) (x : ℚ) (n : ℤ) : Prop :=
  match mode with
  | .HALF_UP => |x - n| ≤ 1 / 2
  | .HALF_EVEN => |x - n| ≤ 1 / 2
  | .UP => |x - n| < 1
  | .DOWN => |x - n| < 1

theorem within_of_rounds {mode : RoundingMode} {x : ℚ} {n : ℤ} (h : Rounds mode.rounding x n) :
    Within mode x n := by
  cases mode with
  | HALF_UP => exact h.1
  | HALF_EVEN => exact h.1
  | UP => exact abs_sub_lt_one_of_rounds h
  | DOWN => exact abs_sub_lt_one_of_rounds h

/-- What a rounded operation at the minor unit comes to. -/
theorem within_of_stated {unit : Currency} {mode : String} {r : Except Problem Decimal}
    {d : Decimal} (exactly : ℕ → ℚ) (hunit : unit.minorUnits ≤ MAX_SCALE)
    (h : StatedRefines (wholeNumber unit.minorUnits) mode r fun s m =>
      ∃ n, Rounds m (exactly s) n ∧ Yields r s n) (hr : r = .ok d) :
    d.scale = unit.minorUnits ∧ ∃ m, RoundingMode.ofString? mode = some m ∧
      Within m (exactly unit.minorUnits) d.units := by
  have hstated := statedScale_wholeNumber hunit
  obtain ⟨-, detail, hrejected⟩ | ⟨s, m, hs, hm, n, hrounds, hyields⟩ := h
  · cases hr.symm.trans hrejected
  · cases hstated.symm.trans hs
    obtain ⟨hunits, hscale⟩ := hyields.eq_ok hr
    exact ⟨hscale, m, hm, hunits ▸ within_of_rounds hrounds⟩

/-- A rounded operation at the minor unit yields the exact result, rounded. -/
theorem yields_of_stated {unit : Currency} {mode : String} {m : RoundingMode}
    {r : Except Problem Decimal} (exactly : ℕ → ℚ) (hunit : unit.minorUnits ≤ MAX_SCALE)
    (hmode : RoundingMode.ofString? mode = some m)
    (h : StatedRefines (wholeNumber unit.minorUnits) mode r fun s m =>
      ∃ n, Rounds m (exactly s) n ∧ Yields r s n) :
    ∃ n, Rounds m.rounding (exactly unit.minorUnits) n ∧ Yields r unit.minorUnits n := by
  have hstated := statedScale_wholeNumber hunit
  obtain ⟨hnone, -⟩ | ⟨s, m', hs, hm, hrounded⟩ := h
  · rw [hstated, hmode] at hnone
    rcases hnone with hnone | hnone <;> cases hnone
  · cases hstated.symm.trans hs
    cases hmode.symm.trans hm
    exact hrounded

theorem multiply_yields {factor : Decimal} {mode : Option String} {r : RoundingMode}
    (ha : Settled a) (hmode : RoundingMode.ofString? (mode.getD DEFAULT_ROUNDING) = some r) :
    ∃ n, Rounds r.rounding (a.amount.value * factor.value * 10 ^ a.currency.minorUnits) n ∧
      YieldsMoney (a.multiply factor mode) a.currency n := by
  have hrefines := multiply_rounded_refines a.amount factor
    ⟨wholeNumber a.currency.minorUnits, mode.getD DEFAULT_ROUNDING⟩
  obtain ⟨n, hrounds, hyields⟩ := yields_of_stated (fun s =>
    a.amount.value * factor.value * 10 ^ s) ha.minorUnits_le hmode hrefines
  exact ⟨n, hrounds, yieldsMoney_bind hyields⟩

theorem fromDecimal_yields {value : Decimal} {code : String} {unit : Currency}
    {mode : Option String} {r : RoundingMode} (hunit : currency code = .ok unit)
    (hmode : RoundingMode.ofString? (mode.getD DEFAULT_ROUNDING) = some r) :
    ∃ n, Rounds r.rounding (value.value * 10 ^ unit.minorUnits) n ∧
      YieldsMoney (Money.fromDecimal value code mode) unit n := by
  obtain ⟨n, hrounds, hyields⟩ := yields_of_stated (fun s => value.value * 10 ^ s)
    (minorUnits_le hunit) hmode (round_refines value _ _)
  refine ⟨n, hrounds, ?_⟩
  unfold Money.fromDecimal
  rw [hunit, Except.ok_bind]
  exact yieldsMoney_bind hyields

theorem fromMinorUnits_yields {code : String} {unit : Currency}
    (hunit : currency code = .ok unit) (units : ℤ) :
    YieldsMoney (Money.fromMinorUnits units code) unit units := by
  obtain ⟨hle, hscale⟩ := assertScale_some (statedScale_wholeNumber (minorUnits_le hunit))
  unfold Money.fromMinorUnits Decimal.fromUnits
  rw [hunit, Except.ok_bind, hscale, Except.ok_bind]
  exact yieldsMoney_bind (construct_yields units ⟨_, hle⟩)

/-- An amount of too many fraction digits is refused; another is taken as it is. -/
theorem of_yields {amount : String ⊕ Decimal} {code : String} {unit : Currency} {d : Decimal}
    (hunit : currency code = .ok unit) (hd : decimalOf amount = .ok d) :
    if d.scale ≤ unit.minorUnits then
      YieldsMoney (Money.of amount code) unit (d.unitsAt unit.minorUnits)
    else ∃ detail, Money.of amount code = Decimal.invalidDecimal detail := by
  obtain ⟨hle, hscale⟩ := assertScale_some (statedScale_wholeNumber (minorUnits_le hunit))
  unfold Money.of
  rw [hunit, Except.ok_bind, hd, Except.ok_bind]
  split_ifs with hfine hcoarse hcoarse
  · omega
  · unfold Decimal.rescale
    rw [hscale, Except.ok_bind, if_pos hfine]
    exact yieldsMoney_bind (construct_yields _ ⟨_, hle⟩)
  · exact ⟨_, rfl⟩
  · omega

/-- A decimal at the minor unit, as an amount. -/
theorem settled_mk {d : Decimal} {unit : Currency} (hunit : currency unit.code = .ok unit)
    (hscale : d.scale = unit.minorUnits) : Settled ⟨d, unit⟩ :=
  ⟨hunit, hscale, d.precision_le⟩

theorem multiply_settled {factor : Decimal} {mode : Option String} (ha : Settled a)
    (h : a.multiply factor mode = .ok m) :
    Settled m ∧ m.currency = a.currency ∧
      ∃ r, RoundingMode.ofString? (mode.getD DEFAULT_ROUNDING) = some r ∧
        Within r (a.amount.value * factor.value * 10 ^ m.currency.minorUnits) m.minorUnits := by
  unfold Money.multiply at h
  obtain ⟨d, hd, h⟩ := Except.bind_eq_ok_iff.mp h
  cases h
  have hrefines := multiply_rounded_refines a.amount factor
    ⟨wholeNumber a.currency.minorUnits, mode.getD DEFAULT_ROUNDING⟩
  obtain ⟨hscale, hwithin⟩ := within_of_stated (fun s =>
    a.amount.value * factor.value * 10 ^ s) ha.minorUnits_le hrefines hd
  exact ⟨settled_mk ha.supported hscale, rfl, hwithin⟩

theorem fromDecimal_settled {value : Decimal} {code : String} {mode : Option String}
    (h : Money.fromDecimal value code mode = .ok m) :
    Settled m ∧ m.currency.code = code ∧
      ∃ r, RoundingMode.ofString? (mode.getD DEFAULT_ROUNDING) = some r ∧
        Within r (value.value * 10 ^ m.currency.minorUnits) m.minorUnits := by
  unfold Money.fromDecimal at h
  simp only [Except.bind_eq_ok_iff] at h
  obtain ⟨unit, hunit, d, hd, h⟩ := h
  cases h
  obtain ⟨hcode, hsupported⟩ := code_of_currency hunit
  obtain ⟨hscale, hwithin⟩ := within_of_stated (fun s => value.value * 10 ^ s)
    (minorUnits_le hunit) (round_refines _ _ _) hd
  exact ⟨settled_mk hsupported hscale, hcode, hwithin⟩

theorem fromMinorUnits_settled {units : ℤ} {code : String}
    (h : Money.fromMinorUnits units code = .ok m) :
    Settled m ∧ m.currency.code = code ∧ m.minorUnits = units := by
  unfold Money.fromMinorUnits at h
  simp only [Except.bind_eq_ok_iff] at h
  obtain ⟨unit, hunit, d, hd, h⟩ := h
  cases h
  obtain ⟨hcode, hsupported⟩ := code_of_currency hunit
  obtain ⟨hle, hscale⟩ := assertScale_some (statedScale_wholeNumber (minorUnits_le hunit))
  unfold Decimal.fromUnits at hd
  rw [hscale] at hd
  obtain ⟨hunits, hd⟩ := construct_eq_ok_iff.mp hd
  exact ⟨settled_mk hsupported hd, hcode, hunits⟩

theorem of_settled {amount : String ⊕ Decimal} {code : String} (h : Money.of amount code = .ok m) :
    Settled m ∧ m.currency.code = code ∧
      ∃ d, decimalOf amount = .ok d ∧ m.amount.value = d.value := by
  unfold Money.of at h
  simp only [Except.bind_eq_ok_iff] at h
  obtain ⟨unit, hunit, value, hvalue, h⟩ := h
  obtain ⟨hcode, hsupported⟩ := code_of_currency hunit
  split_ifs at h
  · cases h
  · obtain ⟨d, hd, h⟩ := Except.bind_eq_ok_iff.mp h
    cases h
    rcases rescale_refines value (wholeNumber unit.minorUnits) with
      ⟨-, detail, hrejected⟩ | ⟨s, hs, hrescale⟩
    · cases hd.symm.trans hrejected
    cases (statedScale_wholeNumber (minorUnits_le hunit)).symm.trans hs
    obtain ⟨n, hn, hyields⟩ | ⟨-, detail, hrejected⟩ := hrescale
    · obtain ⟨hunits, hscale⟩ := hyields.eq_ok hd
      refine ⟨settled_mk hsupported hscale, hcode, value, hvalue, ?_⟩
      unfold Decimal.value at hn ⊢
      dsimp only
      rw [hunits, hscale, hn]
    · cases hd.symm.trans hrejected

/-- An amount that an operation yields has the scale of its operand. -/
theorem settled_of_bind {x : Except Problem Decimal} {n : ℤ} (ha : Settled a)
    (hx : Yields x a.currency.minorUnits n)
    (h : (x >>= fun amount => .ok ⟨amount, a.currency⟩) = .ok m) :
    Settled m ∧ m.currency = a.currency ∧ m.minorUnits = n := by
  obtain ⟨d, hd, h⟩ := Except.bind_eq_ok_iff.mp h
  cases h
  obtain ⟨hunits, hscale⟩ := hx.eq_ok hd
  exact ⟨settled_mk ha.supported hscale, rfl, hunits⟩

theorem code_eq_of_same {u : Unit} (h : a.same b = .ok u) :
    a.currency.code = b.currency.code := by
  by_contra hne
  rw [same_of_code_ne hne] at h
  cases h

theorem settled_of_add (ha : Settled a) (hb : Settled b) (h : a.add b = .ok m) :
    Settled m ∧ m.currency = a.currency ∧ b.currency = a.currency ∧
      m.minorUnits = a.minorUnits + b.minorUnits := by
  unfold Money.add at h
  obtain ⟨u, hsame, h⟩ := Except.bind_eq_ok_iff.mp h
  have hcurrency := ha.currency_eq hb (code_eq_of_same hsame)
  have hyields := add_yields (show a.amount.scale = b.amount.scale by
    rw [ha.scale, hb.scale, hcurrency])
  rw [ha.scale] at hyields
  obtain ⟨hm, hunit, hunits⟩ := settled_of_bind ha hyields h
  exact ⟨hm, hunit, hcurrency.symm, hunits⟩

theorem settled_of_subtract (ha : Settled a) (hb : Settled b) (h : a.subtract b = .ok m) :
    Settled m ∧ m.currency = a.currency ∧ b.currency = a.currency ∧
      m.minorUnits = a.minorUnits - b.minorUnits := by
  unfold Money.subtract at h
  obtain ⟨u, hsame, h⟩ := Except.bind_eq_ok_iff.mp h
  have hcurrency := ha.currency_eq hb (code_eq_of_same hsame)
  have hyields := subtract_yields (show a.amount.scale = b.amount.scale by
    rw [ha.scale, hb.scale, hcurrency])
  rw [ha.scale] at hyields
  obtain ⟨hm, hunit, hunits⟩ := settled_of_bind ha hyields h
  exact ⟨hm, hunit, hcurrency.symm, hunits⟩

theorem settled_of_negate (ha : Settled a) (h : a.negate = .ok m) :
    Settled m ∧ m.currency = a.currency ∧ m.minorUnits = -a.minorUnits := by
  have hyields : Yields a.amount.negate a.currency.minorUnits (-a.minorUnits) := by
    rw [← ha.scale]
    exact construct_yields (-a.amount.units) ⟨a.amount.scale, a.amount.scale_le⟩
  exact settled_of_bind ha hyields h

theorem settled_of_foldlM {amounts : List Money} (ha : Settled a)
    (hall : ∀ amount ∈ amounts, Settled amount)
    (h : amounts.foldlM (fun total amount => total.add amount) a = .ok m) :
    Settled m ∧ m.currency = a.currency ∧ (∀ amount ∈ amounts, amount.currency = a.currency) ∧
      m.minorUnits = a.minorUnits + (amounts.map Money.minorUnits).sum := by
  induction amounts generalizing a with
  | nil =>
    cases h
    exact ⟨ha, rfl, by simp, by simp⟩
  | cons b rest ih =>
    rw [List.foldlM_cons] at h
    obtain ⟨total, htotal, h⟩ := Except.bind_eq_ok_iff.mp h
    obtain ⟨hsettled, hunit, hb, hunits⟩ := settled_of_add ha (hall b (by simp)) htotal
    obtain ⟨hm, hunit', hrest, hunits'⟩ :=
      ih hsettled (fun amount hmem => hall amount (by simp [hmem])) h
    refine ⟨hm, hunit'.trans hunit, ?_, ?_⟩
    · intro amount hmem
      rcases List.mem_cons.mp hmem with rfl | hmem
      · exact hb
      · exact (hrest amount hmem).trans hunit
    · rw [hunits', hunits, List.map_cons, List.sum_cons, add_assoc]

theorem settled_of_sumMoney {amounts : List Money} {code : String}
    (hall : ∀ amount ∈ amounts, Settled amount) (h : sumMoney amounts code = .ok m) :
    Settled m ∧ m.currency.code = code ∧ (∀ amount ∈ amounts, amount.currency = m.currency) ∧
      m.minorUnits = (amounts.map Money.minorUnits).sum := by
  unfold sumMoney at h
  obtain ⟨zero, hzero, h⟩ := Except.bind_eq_ok_iff.mp h
  obtain ⟨hsettled, hcode, hunits⟩ := fromMinorUnits_settled hzero
  obtain ⟨hm, hunit, hamounts, hsum⟩ := settled_of_foldlM hsettled hall h
  refine ⟨hm, hunit ▸ hcode, fun amount hmem => (hamounts amount hmem).trans hunit.symm, ?_⟩
  rw [hsum, hunits, zero_add]

theorem sumMoney_append (before after : List Money) (code : String) :
    sumMoney (before ++ after) code =
      sumMoney before code >>= after.foldlM fun total amount => total.add amount := by
  simp only [sumMoney, List.foldlM_append, bind_assoc]

theorem fits_of_settled (ha : Settled a) : Fits a.minorUnits :=
  (digitCount_le_iff a.minorUnits).mp ha.digits

theorem exists_foldlM_add {amounts : List Money} (ha : Settled a)
    (hall : ∀ amount ∈ amounts, Settled amount ∧ amount.currency = a.currency)
    (hfits : ∀ front, front <+: amounts →
      Fits (a.minorUnits + (front.map Money.minorUnits).sum)) :
    ∃ m, amounts.foldlM (fun total amount => total.add amount) a = .ok m := by
  induction amounts generalizing a with
  | nil => exact ⟨a, rfl⟩
  | cons b rest ih =>
    obtain ⟨hb, hcurrency⟩ := hall b (by simp)
    have hadd := add_settled ha hb (congrArg Currency.code hcurrency.symm)
    obtain ⟨total, htotal, hunit, hunits⟩ := hadd.1 (by simpa using hfits [b] (by simp))
    have hsettled := (settled_of_add ha hb htotal).1
    rw [List.foldlM_cons, htotal, Except.ok_bind]
    refine ih hsettled (fun amount hmem => ?_) fun front hfront => ?_
    · rw [hunit]
      exact hall amount (by simp [hmem])
    · rw [hunits, add_assoc, ← List.sum_cons, ← List.map_cons]
      exact hfits (b :: front) (List.prefix_cons_inj b |>.mpr hfront)

/-- A sum is refused where an amount has another currency, or a sum on the way is too long. -/
theorem exists_sumMoney_iff {amounts : List Money} {code : String}
    (hall : ∀ amount ∈ amounts, Settled amount) :
    (∃ m, sumMoney amounts code = .ok m) ↔ ∃ unit, currency code = .ok unit ∧
      (∀ amount ∈ amounts, amount.currency = unit) ∧
      ∀ front, front <+: amounts → Fits (front.map Money.minorUnits).sum := by
  constructor
  · rintro ⟨m, hm⟩
    obtain ⟨hsettled, hcode, hcurrency, -⟩ := settled_of_sumMoney hall hm
    refine ⟨m.currency, hcode ▸ hsettled.supported, hcurrency, ?_⟩
    rintro front ⟨rest, rfl⟩
    rw [sumMoney_append] at hm
    obtain ⟨total, htotal, -⟩ := Except.bind_eq_ok_iff.mp hm
    obtain ⟨hfront, -, -, hunits⟩ :=
      settled_of_sumMoney (fun amount hmem => hall amount (by simp [hmem])) htotal
    rw [← hunits]
    exact fits_of_settled hfront
  · rintro ⟨unit, hunit, hcurrency, hfits⟩
    obtain ⟨zero, hzero, hzerounit, hzerounits⟩ :=
      (fromMinorUnits_yields hunit 0).1 (by simpa using hfits [] List.nil_prefix)
    obtain ⟨m, hm⟩ := exists_foldlM_add (fromMinorUnits_settled hzero).1
      (fun amount hmem => ⟨hall amount hmem, (hcurrency amount hmem).trans hzerounit.symm⟩)
      (fun front hfront => by rw [hzerounits, zero_add]; exact hfits front hfront)
    refine ⟨m, ?_⟩
    unfold sumMoney Money.zero
    rw [hzero, Except.ok_bind, hm]

/-- The first amount of another currency stops a sum. -/
theorem sumMoney_mismatch {before after : List Money} {code : String}
    (hall : ∀ amount ∈ before, Settled amount) (hsum : sumMoney before code = .ok m)
    (hcode : b.currency.code ≠ code) : sumMoney (before ++ b :: after) code = mismatch := by
  have hm := settled_of_sumMoney hall hsum
  rw [sumMoney_append, hsum, Except.ok_bind, List.foldlM_cons]
  have hne : m.currency.code ≠ b.currency.code := by
    rw [hm.2.1]
    exact hcode.symm
  unfold Money.add
  rw [same_of_code_ne hne]
  rfl

theorem settled_of_allocate {shares : List AllocationShare} {parts : List (Js.Text × Money)}
    {part : Js.Text × Money} (ha : Settled a) (h : allocate a shares = .ok parts)
    (hpart : part ∈ parts) : Settled part.2 ∧ part.2.currency = a.currency := by
  unfold allocate at h
  simp only [Except.bind_eq_ok_iff] at h
  obtain ⟨_, -, _, -, _, -, rescaled, -, _, -, h⟩ := h
  obtain ⟨⟨share, units⟩, -, hshare⟩ := Except.exists_of_mem_mapM h hpart
  obtain ⟨amount, hamount, hshare⟩ := Except.bind_eq_ok_iff.mp hshare
  cases hshare
  obtain ⟨hsettled, hcode, -⟩ := fromMinorUnits_settled hamount
  exact ⟨hsettled, hsettled.currency_eq ha hcode⟩

theorem settled_of_prorate {used period : DateInterval} {mode : Option String} (ha : Settled a)
    (h : prorateActualDays a used period mode = .ok m) :
    Settled m ∧ m.currency = a.currency := by
  unfold prorateActualDays at h
  simp only [Except.bind_eq_ok_iff] at h
  obtain ⟨_, -, _, -, _, -, _, -, _, -, _, -, _, -, _, -, _, -, _, -, _, -, prorated, -, h⟩ := h
  obtain ⟨hsettled, hcode, -⟩ := of_settled h
  exact ⟨hsettled, hsettled.currency_eq ha hcode⟩

end Operations

/-- Amounts obtained by any finite composition of the operations. -/
inductive Obtained : Money → Prop where
  | of {amount code m} (h : Money.of amount code = .ok m) : Obtained m
  | fromDecimal {value code mode m} (h : Money.fromDecimal value code mode = .ok m) : Obtained m
  | fromMinorUnits {units code m} (h : Money.fromMinorUnits units code = .ok m) : Obtained m
  | zero {code m} (h : Money.zero code = .ok m) : Obtained m
  | add {a b m} (ha : Obtained a) (hb : Obtained b) (h : a.add b = .ok m) : Obtained m
  | subtract {a b m} (ha : Obtained a) (hb : Obtained b) (h : a.subtract b = .ok m) : Obtained m
  | multiply {a factor mode m} (ha : Obtained a) (h : a.multiply factor mode = .ok m) : Obtained m
  | negate {a m} (ha : Obtained a) (h : a.negate = .ok m) : Obtained m
  | sumMoney {amounts code m} (hall : ∀ a ∈ amounts, Obtained a)
      (h : sumMoney amounts code = .ok m) : Obtained m
  | allocate {a shares parts part} (ha : Obtained a) (h : allocate a shares = .ok parts)
      (hpart : part ∈ parts) : Obtained part.2
  | prorateActualDays {a used period mode m} (ha : Obtained a)
      (h : prorateActualDays a used period mode = .ok m) : Obtained m

theorem settled_of_obtained {m : Money} (h : Obtained m) : Settled m := by
  induction h with
  | of h => exact (of_settled h).1
  | fromDecimal h => exact (fromDecimal_settled h).1
  | fromMinorUnits h => exact (fromMinorUnits_settled h).1
  | zero h => exact (fromMinorUnits_settled h).1
  | add _ _ h iha ihb => exact (settled_of_add iha ihb h).1
  | subtract _ _ h iha ihb => exact (settled_of_subtract iha ihb h).1
  | multiply _ h iha => exact (multiply_settled iha h).1
  | negate _ h iha => exact (settled_of_negate iha h).1
  | sumMoney _ h ihall => exact (settled_of_sumMoney ihall h).1
  | allocate _ h hpart iha => exact (settled_of_allocate iha h hpart).1
  | prorateActualDays _ h iha => exact (settled_of_prorate iha h).1

/-- The minor unit of every amount, and what the operations do at it. -/
structure MinorUnitClosed : Prop where
  settled : ∀ {m}, Obtained m → Settled m
  /-- two currencies are never combined -/
  mismatch : ∀ {a b}, Obtained a → Obtained b → a.currency.code ≠ b.currency.code →
    a.add b = mismatch ∧ a.subtract b = mismatch ∧ a.compare b = mismatch
  sum_mismatch : ∀ {before b after code m}, (∀ a ∈ before, Obtained a) →
    sumMoney before code = .ok m → b.currency.code ≠ code →
    sumMoney (before ++ b :: after) code = Sintius.Money.mismatch
  add : ∀ {a b}, Obtained a → Obtained b → a.currency.code = b.currency.code →
    YieldsMoney (a.add b) a.currency (a.minorUnits + b.minorUnits)
  subtract : ∀ {a b}, Obtained a → Obtained b → a.currency.code = b.currency.code →
    YieldsMoney (a.subtract b) a.currency (a.minorUnits - b.minorUnits)
  negate : ∀ a : Money, YieldsMoney a.negate a.currency (-a.minorUnits)
  sum : ∀ {amounts code m}, (∀ a ∈ amounts, Obtained a) → sumMoney amounts code = .ok m →
    m.currency.code = code ∧ (∀ a ∈ amounts, a.currency = m.currency) ∧
      m.minorUnits = (amounts.map Money.minorUnits).sum
  sum_returns : ∀ {amounts code}, (∀ a ∈ amounts, Obtained a) →
    ((∃ m, sumMoney amounts code = .ok m) ↔ ∃ unit, currency code = .ok unit ∧
      (∀ a ∈ amounts, a.currency = unit) ∧
      ∀ front, front <+: amounts → Fits (front.map Money.minorUnits).sum)
  /-- stated amounts keep their value -/
  of : ∀ {amount code m}, Money.of amount code = .ok m → m.currency.code = code ∧
    ∃ d, decimalOf amount = .ok d ∧ m.amount.value = d.value
  fromMinorUnits : ∀ {units code m}, Money.fromMinorUnits units code = .ok m →
    m.currency.code = code ∧ m.minorUnits = units
  fromDecimal : ∀ {value code mode m}, Money.fromDecimal value code mode = .ok m →
    m.currency.code = code ∧ ∃ r, RoundingMode.ofString? (mode.getD DEFAULT_ROUNDING) = some r ∧
      Within r (value.value * 10 ^ m.currency.minorUnits) m.minorUnits
  multiply : ∀ {a factor mode m}, Obtained a → a.multiply factor mode = .ok m →
    m.currency = a.currency ∧
      ∃ r, RoundingMode.ofString? (mode.getD DEFAULT_ROUNDING) = some r ∧
        Within r (a.amount.value * factor.value * 10 ^ m.currency.minorUnits) m.minorUnits
  /-- in a supported currency and with a known mode, they return what fits -/
  of_yields : ∀ {amount code unit d}, currency code = .ok unit → decimalOf amount = .ok d →
    if d.scale ≤ unit.minorUnits then
      YieldsMoney (Money.of amount code) unit (d.unitsAt unit.minorUnits)
    else ∃ detail, Money.of amount code = Decimal.invalidDecimal detail
  fromMinorUnits_yields : ∀ {code unit}, currency code = .ok unit → ∀ units,
    YieldsMoney (Money.fromMinorUnits units code) unit units
  fromDecimal_yields : ∀ {value code unit mode r}, currency code = .ok unit →
    RoundingMode.ofString? (mode.getD DEFAULT_ROUNDING) = some r →
    ∃ n, Rounds r.rounding (value.value * 10 ^ unit.minorUnits) n ∧
      YieldsMoney (Money.fromDecimal value code mode) unit n
  multiply_yields : ∀ {a factor mode r}, Obtained a →
    RoundingMode.ofString? (mode.getD DEFAULT_ROUNDING) = some r →
    ∃ n, Rounds r.rounding (a.amount.value * factor.value * 10 ^ a.currency.minorUnits) n ∧
      YieldsMoney (a.multiply factor mode) a.currency n
  allocate : ∀ {a shares parts part}, Obtained a → allocate a shares = .ok parts → part ∈ parts →
    part.2.currency = a.currency
  prorate : ∀ {a used period mode m}, Obtained a → prorateActualDays a used period mode = .ok m →
    m.currency = a.currency

theorem money_minor_unit_closed : MinorUnitClosed where
  settled := settled_of_obtained
  mismatch := by
    intro a b _ _ hcode
    have hsame := same_of_code_ne hcode
    unfold Money.add Money.subtract Money.compare
    rw [hsame]
    exact ⟨rfl, rfl, rfl⟩
  sum_mismatch := fun hall => sumMoney_mismatch fun a ha => settled_of_obtained (hall a ha)
  add := fun ha hb => add_settled (settled_of_obtained ha) (settled_of_obtained hb)
  subtract := fun ha hb => subtract_settled (settled_of_obtained ha) (settled_of_obtained hb)
  negate := negate_yields
  sum := fun hall h => (settled_of_sumMoney (fun a ha => settled_of_obtained (hall a ha)) h).2
  sum_returns := fun hall => exists_sumMoney_iff fun a ha => settled_of_obtained (hall a ha)
  of := fun h => (of_settled h).2
  fromMinorUnits := fun h => (fromMinorUnits_settled h).2
  fromDecimal := fun h => (fromDecimal_settled h).2
  multiply := fun ha h => (multiply_settled (settled_of_obtained ha) h).2
  of_yields := of_yields
  fromMinorUnits_yields := fromMinorUnits_yields
  fromDecimal_yields := fromDecimal_yields
  multiply_yields := fun ha => multiply_yields (settled_of_obtained ha)
  allocate := fun ha h hpart => (settled_of_allocate (settled_of_obtained ha) h hpart).2
  prorate := fun ha h => (settled_of_prorate (settled_of_obtained ha) h).2

end Sintius.Money
