import Mathlib
import Sintius.Lib.Except
import Sintius.Lib.LargestRemainder
import Sintius.Spec.Money
import Sintius.Proofs.Decimal
import Sintius.Proofs.Money

/-! `allocate` is apportionment by largest remainder. The quotas are those of the exact
weights, so that neither the scale they are written at, nor a common factor, nor the order
of the shares can matter; the integer divisions, the sort and the loop of the code come to
the floors and the ranks of that apportionment. -/

set_option linter.dupNamespace false

namespace Sintius.Money

open Js

section Leftover

/-- The loop adds one unit at each of the first `n` indices. -/
theorem giveLeftover_eq {order : List RemainderEntry} (n : ℕ) (base : List ℤ)
    (hnodup : (order.map RemainderEntry.index).Nodup) :
    giveLeftover order n base = base.mapIdx fun i units =>
      units + if i ∈ (order.take n).map RemainderEntry.index then 1 else 0 := by
  induction order generalizing n base with
  | nil => exact List.ext_getElem? fun i => by simp [giveLeftover]
  | cons entry order ih =>
    obtain ⟨hentry, hnodup⟩ := List.nodup_cons.mp hnodup
    cases n with
    | zero => exact List.ext_getElem? fun i => by simp [giveLeftover]
    | succ n =>
      have hne : ((n + 1 : ℕ) : ℤ) ≠ 0 := by omega
      have hpred : ((n + 1 : ℕ) : ℤ) - 1 = n := by omega
      unfold giveLeftover
      rw [if_neg hne, hpred, ih n _ hnodup]
      have hlater : entry.index ∉ (order.map RemainderEntry.index).take n := fun h =>
        hentry (List.mem_of_mem_take h)
      refine List.ext_getElem? fun i => ?_
      simp only [List.getElem?_mapIdx, List.getElem?_modify, List.take_succ_cons, List.map_cons,
        List.mem_cons]
      cases base[i]? with
      | none => rfl
      | some units =>
        by_cases hi : entry.index = i
        · subst hi
          simp [hlater]
        · simp [hi, Ne.symm hi]

variable {shares : List AllocationShare} {units : ℤ} {weight : AllocationShare → ℤ}

/-- The order of the sort, on shares. -/
def SortedBefore (remainder : AllocationShare → ℤ) (left right : AllocationShare) : Prop :=
  remainder right < remainder left ∨
    remainder left = remainder right ∧ left.key < right.key

/-- The entry of a share at an index. -/
def entryOf (remainder : AllocationShare → ℤ) (share : AllocationShare × ℕ) : RemainderEntry :=
  ⟨share.1.key, share.2, remainder share.1⟩

theorem before_iff {a b : RemainderEntry} : a.before b = true ↔
    b.remainder < a.remainder ∨ a.remainder = b.remainder ∧ a.key ≤ b.key := by
  unfold RemainderEntry.before
  split_ifs with h
  · simp [h]
  · simp [h]

theorem before_trans (a b c : RemainderEntry) (h : a.before b = true) (h' : b.before c = true) :
    a.before c = true := by
  rw [before_iff] at *
  obtain h | ⟨h, hkey⟩ := h
  · obtain h' | ⟨h', -⟩ := h'
    · exact .inl (h'.trans h)
    · exact .inl (h' ▸ h)
  · obtain h' | ⟨h', hkey'⟩ := h'
    · exact .inl (h ▸ h')
    · exact .inr ⟨h.trans h', hkey.trans hkey'⟩

theorem before_total (a b : RemainderEntry) : (a.before b || b.before a) = true := by
  rw [Bool.or_eq_true, before_iff, before_iff]
  rcases lt_trichotomy a.remainder b.remainder with h | h | h
  · exact .inr (.inl h)
  · rcases le_total a.key b.key with hkey | hkey
    · exact .inl (.inr ⟨h, hkey⟩)
    · exact .inr (.inr ⟨h.symm, hkey⟩)
  · exact .inl (.inl h)

/-- Shares with different keys are sorted strictly. -/
theorem sortedBefore_of_before {remainder : AllocationShare → ℤ} {a b : AllocationShare × ℕ}
    (h : (entryOf remainder a).before (entryOf remainder b) = true) (hkey : a.1.key ≠ b.1.key) :
    SortedBefore remainder a.1 b.1 := by
  obtain h | ⟨h, hle⟩ := before_iff.mp h
  · exact .inl h
  · exact .inr ⟨h, lt_of_le_of_ne hle hkey⟩

theorem nodup_of_keys (hkeys : (shares.map AllocationShare.key).Nodup) : shares.Nodup :=
  List.Nodup.of_map _ hkeys

theorem key_ne_of_mem_zipIdx (hkeys : (shares.map AllocationShare.key).Nodup)
    {a b : AllocationShare × ℕ} (ha : a ∈ shares.zipIdx) (hb : b ∈ shares.zipIdx) (h : a ≠ b) :
    a.1.key ≠ b.1.key := by
  intro hkey
  have hget : ∀ {c : AllocationShare × ℕ}, c ∈ shares.zipIdx →
      (shares.map AllocationShare.key)[c.2]? = some c.1.key := by
    intro c hc
    rw [List.getElem?_map, List.mem_zipIdx_iff_getElem?.mp hc]
    rfl
  have hlt : a.2 < (shares.map AllocationShare.key).length := by
    by_contra hge
    have hnone := List.getElem?_eq_none (not_lt.mp hge)
    rw [hget ha] at hnone
    cases hnone
  have hindex : a.2 = b.2 := by
    refine (List.getElem?_inj hlt hkeys).mp ?_
    rw [hget ha, hget hb, hkey]
  refine h (Prod.ext ?_ hindex)
  have hshare := List.mem_zipIdx_iff_getElem?.mp ha
  rw [hindex, List.mem_zipIdx_iff_getElem?.mp hb] at hshare
  exact (Option.some.inj hshare).symm

/-- The sort, as one of the shares with their indices. -/
theorem exists_sorted (hkeys : (shares.map AllocationShare.key).Nodup)
    (remainder : AllocationShare → ℤ) :
    ∃ sorted : List (AllocationShare × ℕ), sorted.Perm shares.zipIdx ∧
      (sorted.map Prod.fst).Pairwise (SortedBefore remainder) ∧
      (shares.zipIdx.map (entryOf remainder)).mergeSort RemainderEntry.before =
        sorted.map (entryOf remainder) := by
  refine ⟨shares.zipIdx.mergeSort fun a b =>
    (entryOf remainder a).before (entryOf remainder b), List.mergeSort_perm _ _, ?_,
    (List.map_mergeSort (f := entryOf remainder) fun _ _ _ _ => rfl).symm⟩
  have hperm := List.mergeSort_perm shares.zipIdx fun a b =>
    (entryOf remainder a).before (entryOf remainder b)
  have hsorted : (shares.zipIdx.mergeSort fun a b =>
      (entryOf remainder a).before (entryOf remainder b)).Pairwise fun a b =>
        (entryOf remainder a).before (entryOf remainder b) = true :=
    List.pairwise_mergeSort
      (fun a b c => before_trans (entryOf remainder a) (entryOf remainder b) (entryOf remainder c))
      (fun a b => before_total (entryOf remainder a) (entryOf remainder b)) _
  have hnodup : (shares.zipIdx.mergeSort fun a b =>
      (entryOf remainder a).before (entryOf remainder b)).Nodup :=
    hperm.nodup_iff.mpr (List.Nodup.of_map Prod.fst (by simpa using nodup_of_keys hkeys))
  rw [List.pairwise_map]
  refine (hsorted.and hnodup).imp_of_mem fun {a b} ha hb hab => ?_
  exact sortedBefore_of_before hab.1
    (key_ne_of_mem_zipIdx hkeys (hperm.mem_iff.mp ha) (hperm.mem_iff.mp hb) hab.2)

theorem entries_eq (remainder : AllocationShare → ℤ) :
    ((shares.map AllocationShare.key).zip (shares.map remainder)).mapIdx
        (fun index entry => (⟨entry.1, index, entry.2⟩ : RemainderEntry)) =
      shares.zipIdx.map (entryOf remainder) := by
  rw [List.zip_map', List.mapIdx_eq_zipIdx_map, List.zipIdx_map, List.map_map]
  rfl

/-- An index among the first ones is that of a share among the first ones. -/
theorem mem_take_index_iff (hkeys : (shares.map AllocationShare.key).Nodup)
    {sorted : List (AllocationShare × ℕ)} (hperm : sorted.Perm shares.zipIdx) {n i : ℕ}
    {share : AllocationShare} (hi : shares[i]? = some share) :
    i ∈ (sorted.take n).map Prod.snd ↔ share ∈ (sorted.take n).map Prod.fst := by
  have hentry : ∀ {entry}, entry ∈ sorted.take n → shares[entry.2]? = some entry.1 :=
    fun h => List.mem_zipIdx_iff_getElem?.mp (hperm.mem_iff.mp (List.mem_of_mem_take h))
  simp only [List.mem_map]
  constructor
  · rintro ⟨entry, hmem, rfl⟩
    exact ⟨entry, hmem, Option.some.inj ((hentry hmem).symm.trans hi)⟩
  · rintro ⟨entry, hmem, rfl⟩
    refine ⟨entry, hmem, ?_⟩
    have hlt : entry.2 < shares.length := (List.getElem?_eq_some_iff.mp (hentry hmem)).1
    exact (List.getElem?_inj hlt (nodup_of_keys hkeys)).mp ((hentry hmem).trans hi.symm)

/-- The loop over the sorted entries adds a unit to the first `n` shares. -/
theorem giveLeftover_sorted (hkeys : (shares.map AllocationShare.key).Nodup)
    {sorted : List (AllocationShare × ℕ)} (hperm : sorted.Perm shares.zipIdx)
    (remainder base : AllocationShare → ℤ) (n : ℕ) :
    giveLeftover (sorted.map (entryOf remainder)) n (shares.map base) =
      shares.map fun share =>
        base share + if share ∈ (sorted.map Prod.fst).take n then 1 else 0 := by
  have hindices : (sorted.map (entryOf remainder)).map RemainderEntry.index =
      sorted.map Prod.snd := by
    rw [List.map_map]
    rfl
  have hnodup : (sorted.map Prod.snd).Nodup :=
    (hperm.map Prod.snd).nodup_iff.mpr (by simpa using List.nodup_range')
  rw [giveLeftover_eq n _ (hindices ▸ hnodup)]
  refine List.ext_getElem? fun i => ?_
  rw [List.getElem?_mapIdx, List.getElem?_map, List.getElem?_map]
  cases hi : shares[i]? with
  | none => rfl
  | some share =>
    have hmem := mem_take_index_iff hkeys hperm (n := n) hi
    simp only [Option.map_some, Option.some.injEq, List.map_take, List.map_map] at hmem ⊢
    simp only [show RemainderEntry.index ∘ entryOf remainder = Prod.snd from rfl, hmem]

/-- Floors, and one more unit for the first shares of a strictly sorted list. -/
theorem allocateUnits_eq (hkeys : (shares.map AllocationShare.key).Nodup) (hunits : 0 ≤ units)
    (hweight : ∀ share ∈ shares, 0 ≤ weight share) :
    ∃ order : List AllocationShare, order.Perm shares ∧
      order.Pairwise (SortedBefore fun share =>
        units * weight share % (shares.map weight).sum) ∧
      ∀ n : ℕ, (n : ℤ) =
          units - (shares.map fun share => units * weight share / (shares.map weight).sum).sum →
        allocateUnits units (shares.map AllocationShare.key) (shares.map weight) =
          shares.map fun share => units * weight share / (shares.map weight).sum +
            if share ∈ order.take n then 1 else 0 := by
  obtain ⟨sorted, hperm, hsorted, hentries⟩ := exists_sorted hkeys fun share =>
    units * weight share % (shares.map weight).sum
  refine ⟨sorted.map Prod.fst, by simpa using hperm.map Prod.fst, hsorted, fun n hn => ?_⟩
  have hdiv : (shares.map weight).map (fun w => (units * w).tdiv (shares.map weight).sum) =
      shares.map fun share => units * weight share / (shares.map weight).sum := by
    rw [List.map_map]
    exact List.map_congr_left fun share hmem =>
      Int.tdiv_eq_ediv_of_nonneg (mul_nonneg hunits (hweight share hmem))
  have hmod : (shares.map weight).map (fun w => (units * w).tmod (shares.map weight).sum) =
      shares.map fun share => units * weight share % (shares.map weight).sum := by
    rw [List.map_map]
    exact List.map_congr_left fun share hmem =>
      Int.tmod_eq_emod_of_nonneg (mul_nonneg hunits (hweight share hmem))
  unfold allocateUnits
  simp only [← List.sum_eq_foldl]
  rw [hdiv, hmod, entries_eq, hentries, ← hn, giveLeftover_sorted hkeys hperm]

end Leftover

/-- `Math.max` of the scales of the weights. -/
def largestScale (shares : List AllocationShare) : ℕ :=
  (shares.map fun share => share.weight.scale).foldl max 0

/-- The shares that a total can be allocated to. -/
structure Allocable (shares : List AllocationShare) : Prop where
  nonempty : shares ≠ []
  keys : (shares.map AllocationShare.key).Nodup
  nonneg : ∀ share ∈ shares, 0 ≤ share.weight.value
  positive : ∃ share ∈ shares, share.weight.value ≠ 0
  /-- every weight has at most 38 digits at the largest scale -/
  rescalable : ∀ share ∈ shares, Fits (share.weight.unitsAt (largestScale shares))

def weightSum (shares : List AllocationShare) : ℚ :=
  (shares.map fun share => share.weight.value).sum

/-- `U * w / W`: the minor units of a share, were they divisible. -/
def quota (total : Money) (shares : List AllocationShare) (share : AllocationShare) : ℚ :=
  |total.minorUnits| * share.weight.value / weightSum shares

/-- The order of the leftover: larger remainders first, then smaller keys. -/
def Precedes (total : Money) (shares : List AllocationShare) (a b : AllocationShare) : Prop :=
  Int.fract (quota total shares b) < Int.fract (quota total shares a) ∨
    Int.fract (quota total shares a) = Int.fract (quota total shares b) ∧ a.key < b.key

instance (total : Money) (shares : List AllocationShare) : DecidableRel (Precedes total shares) :=
  fun _ _ => inferInstanceAs (Decidable (_ ∨ _))

/-- The minor units of a share, without the sign of the total. -/
def unitsOf (total : Money) (shares : List AllocationShare) (share : AllocationShare) : ℤ :=
  LargestRemainder.share (quota total shares) (Precedes total shares) shares
    |total.minorUnits| share

section Quotas

variable {total : Money} {shares shares' : List AllocationShare} {share : AllocationShare}

theorem precedes_asymm (a b : AllocationShare) (h : Precedes total shares a b) :
    ¬ Precedes total shares b a := by
  rintro (hba | ⟨hba, hkey⟩)
  · obtain h | ⟨h, -⟩ := h
    · exact lt_asymm h hba
    · exact hba.ne h
  · obtain h | ⟨-, h⟩ := h
    · exact h.ne hba
    · exact lt_asymm h hkey

theorem scale_le_largestScale (h : share ∈ shares) : share.weight.scale ≤ largestScale shares := by
  have hle : ∀ (scales : List ℕ) (n : ℕ), n ≤ scales.foldl max n ∧
      ∀ m ∈ scales, m ≤ scales.foldl max n := by
    intro scales
    induction scales with
    | nil => simp
    | cons m scales ih =>
      intro n
      obtain ⟨hn, hall⟩ := ih (max n m)
      refine ⟨(le_max_left n m).trans hn, fun k hk => ?_⟩
      rcases List.mem_cons.mp hk with rfl | hk
      · exact (le_max_right n k).trans hn
      · exact hall k hk
  exact (hle _ 0).2 _ (List.mem_map_of_mem h)

theorem largestScale_le (shares : List AllocationShare) : largestScale shares ≤ MAX_SCALE := by
  unfold largestScale
  rw [List.foldl_map]
  exact List.foldlRecOn (motive := fun n => n ≤ MAX_SCALE) shares _ (Nat.zero_le _)
    fun n hn share _ => max_le hn share.weight.scale_le

/-- A weight at the largest scale. -/
def weightAt (shares : List AllocationShare) (share : AllocationShare) : ℤ :=
  share.weight.unitsAt (largestScale shares)

theorem weightAt_cast (h : share ∈ shares) :
    (weightAt shares share : ℚ) = share.weight.value * 10 ^ largestScale shares :=
  unitsAt_value share.weight (scale_le_largestScale h)

theorem weightAt_nonneg_iff (h : share ∈ shares) :
    0 ≤ weightAt shares share ↔ 0 ≤ share.weight.value := by
  rw [← Int.cast_nonneg_iff (R := ℚ), weightAt_cast h]
  exact mul_nonneg_iff_of_pos_right (by positivity)

theorem weightAt_eq_zero_iff (h : share ∈ shares) :
    weightAt shares share = 0 ↔ share.weight.value = 0 := by
  rw [← Int.cast_eq_zero (α := ℚ), weightAt_cast h]
  exact mul_eq_zero_iff_right (by positivity)

theorem sum_weightAt_cast (shares : List AllocationShare) :
    (((shares.map (weightAt shares)).sum : ℤ) : ℚ) =
      weightSum shares * 10 ^ largestScale shares := by
  have hcast : (shares.map (weightAt shares)).map (Int.cast : ℤ → ℚ) =
      shares.map fun share => share.weight.value * 10 ^ largestScale shares := by
    rw [List.map_map]
    exact List.map_congr_left fun share hmem => weightAt_cast hmem
  unfold weightSum
  rw [← List.sum_map_mul_right, ← hcast]
  exact map_list_sum (Int.castAddHom ℚ) _

theorem Allocable.weightAt_nonneg (h : Allocable shares) (hmem : share ∈ shares) :
    0 ≤ weightAt shares share :=
  (weightAt_nonneg_iff hmem).mpr (h.nonneg share hmem)

theorem Allocable.sum_weightAt_pos (h : Allocable shares) :
    0 < (shares.map (weightAt shares)).sum := by
  obtain ⟨share, hmem, hvalue⟩ := h.positive
  have hpos : 0 < weightAt shares share :=
    lt_of_le_of_ne (h.weightAt_nonneg hmem) (Ne.symm (mt (weightAt_eq_zero_iff hmem).mp hvalue))
  refine lt_of_lt_of_le hpos (List.single_le_sum (fun w hw => ?_) _ (List.mem_map_of_mem hmem))
  obtain ⟨other, hother, rfl⟩ := List.mem_map.mp hw
  exact h.weightAt_nonneg hother

theorem Allocable.weightSum_pos (h : Allocable shares) : 0 < weightSum shares := by
  have hpos := h.sum_weightAt_pos
  rw [← Int.cast_pos (R := ℚ), sum_weightAt_cast] at hpos
  exact pos_of_mul_pos_left hpos (by positivity)

theorem quota_eq (hmem : share ∈ shares) :
    quota total shares share = ((|total.minorUnits| * weightAt shares share : ℤ) : ℚ) /
      ((shares.map (weightAt shares)).sum : ℤ) := by
  unfold quota
  rw [sum_weightAt_cast, Int.cast_mul, weightAt_cast hmem, Int.cast_abs, ← mul_assoc,
    mul_div_mul_right _ _ (by positivity)]

theorem sum_quota (h : Allocable shares) :
    (shares.map (quota total shares)).sum = (|total.minorUnits| : ℤ) := by
  have hne := h.weightSum_pos.ne'
  unfold quota
  simp only [mul_div_assoc]
  rw [List.sum_map_mul_left]
  simp only [div_eq_mul_inv]
  rw [List.sum_map_mul_right]
  unfold weightSum at hne ⊢
  rw [mul_inv_cancel₀ hne, mul_one, Int.cast_abs]

theorem floor_quota (h : Allocable shares) (hmem : share ∈ shares) :
    ⌊quota total shares share⌋ =
      |total.minorUnits| * weightAt shares share / (shares.map (weightAt shares)).sum := by
  obtain ⟨n, hn⟩ := Int.eq_ofNat_of_zero_le h.sum_weightAt_pos.le
  rw [quota_eq hmem, hn, Int.cast_natCast]
  exact Rat.floor_intCast_div_natCast _ n

/-- The remainder of the code is that of the quota, times the sum of the weights. -/
theorem fract_quota (h : Allocable shares) (hmem : share ∈ shares) :
    Int.fract (quota total shares share) =
      ((|total.minorUnits| * weightAt shares share % (shares.map (weightAt shares)).sum : ℤ) : ℚ) /
        ((shares.map (weightAt shares)).sum : ℤ) := by
  obtain ⟨n, hn⟩ := Int.eq_ofNat_of_zero_le h.sum_weightAt_pos.le
  rw [quota_eq hmem, hn, Int.cast_natCast]
  exact Int.fract_div_intCast_eq_div_intCast_mod

theorem precedes_of_sortedBefore {other : AllocationShare} (h : Allocable shares)
    (hshare : share ∈ shares) (hother : other ∈ shares)
    (hbefore : SortedBefore (fun share => |total.minorUnits| * weightAt shares share %
      (shares.map (weightAt shares)).sum) share other) : Precedes total shares share other := by
  have hpos : (0 : ℚ) < ((shares.map (weightAt shares)).sum : ℤ) :=
    Int.cast_pos.mpr h.sum_weightAt_pos
  unfold Precedes
  rw [fract_quota h hshare, fract_quota h hother, div_lt_div_iff_of_pos_right hpos,
    div_left_inj' hpos.ne', Int.cast_lt, Int.cast_inj]
  exact hbefore

/-- In every list that is sorted, the first ones are those rounded up. -/
theorem unitsOf_eq {order : List AllocationShare} (hperm : order.Perm shares)
    (hsorted : order.Pairwise (Precedes total shares)) (hmem : share ∈ shares) :
    unitsOf total shares share = ⌊quota total shares share⌋ +
      if share ∈ order.take (LargestRemainder.leftover (quota total shares) shares
        |total.minorUnits|) then 1 else 0 := by
  have htake := LargestRemainder.mem_take_iff_rank_lt (n := LargestRemainder.leftover
    (quota total shares) shares |total.minorUnits|) precedes_asymm hsorted
    (hperm.mem_iff.mpr hmem)
  unfold unitsOf LargestRemainder.share
  simp only [htake, LargestRemainder.rank_perm hperm]

/-- The code computes the apportionment. -/
theorem allocateUnits_eq_unitsOf (total : Money) (h : Allocable shares) :
    ∃ order : List AllocationShare, order.Perm shares ∧
      order.Pairwise (Precedes total shares) ∧
      allocateUnits |total.minorUnits| (shares.map AllocationShare.key)
        (shares.map (weightAt shares)) = shares.map (unitsOf total shares) := by
  obtain ⟨order, hperm, hsorted, hunits⟩ := allocateUnits_eq h.keys
    (abs_nonneg total.minorUnits) fun share hmem => h.weightAt_nonneg hmem
  have hprecedes : order.Pairwise (Precedes total shares) :=
    hsorted.imp_of_mem fun ha hb hab =>
      precedes_of_sortedBefore h (hperm.mem_iff.mp ha) (hperm.mem_iff.mp hb) hab
  refine ⟨order, hperm, hprecedes, ?_⟩
  have hfloors : (shares.map fun share => |total.minorUnits| * weightAt shares share /
      (shares.map (weightAt shares)).sum) = shares.map fun share => ⌊quota total shares share⌋ :=
    List.map_congr_left fun share hmem => (floor_quota h hmem).symm
  rw [hunits _ (hfloors ▸ LargestRemainder.leftover_cast (sum_quota h))]
  refine List.map_congr_left fun share hmem => ?_
  rw [unitsOf_eq hperm hprecedes hmem, floor_quota h hmem]

theorem sum_unitsOf (h : Allocable shares) :
    (shares.map (unitsOf total shares)).sum = |total.minorUnits| := by
  obtain ⟨order, hperm, hsorted, -⟩ := allocateUnits_eq_unitsOf total h
  exact LargestRemainder.sum_share (sum_quota h) precedes_asymm hsorted hperm

theorem unitsOf_nonneg (total : Money) (h : Allocable shares) (hmem : share ∈ shares) :
    0 ≤ unitsOf total shares share := by
  unfold unitsOf LargestRemainder.share
  have hfloor : 0 ≤ ⌊quota total shares share⌋ := by
    rw [floor_quota h hmem]
    exact Int.ediv_nonneg (mul_nonneg (abs_nonneg _) (h.weightAt_nonneg hmem))
      h.sum_weightAt_pos.le
  split_ifs <;> omega

theorem unitsOf_le (h : Allocable shares) (hmem : share ∈ shares) :
    unitsOf total shares share ≤ |total.minorUnits| := by
  rw [← sum_unitsOf h]
  refine List.single_le_sum (fun units hunits => ?_) _ (List.mem_map_of_mem hmem)
  obtain ⟨other, hother, rfl⟩ := List.mem_map.mp hunits
  exact unitsOf_nonneg total h hother

/-- A whole quota is what the share gets. -/
theorem unitsOf_of_whole (h : Allocable shares) {n : ℤ} (hn : quota total shares share = n) :
    unitsOf total shares share = n := by
  have hfract : Int.fract (quota total shares share) = 0 := by rw [hn, Int.fract_intCast]
  unfold unitsOf
  rw [LargestRemainder.share_of_fract_eq_zero (sum_quota h) (fun _ _ => .inl) hfract, hn,
    Int.floor_intCast]

end Quotas

section Invariance

variable {total : Money} {shares shares' : List AllocationShare}

theorem quota_perm (total : Money) (hperm : shares'.Perm shares) :
    quota total shares' = quota total shares := by
  funext share
  unfold quota weightSum
  rw [(hperm.map _).sum_eq]

theorem unitsOf_perm (hperm : shares'.Perm shares) (share : AllocationShare) :
    unitsOf total shares' share = unitsOf total shares share := by
  have hquota := quota_perm total hperm
  unfold unitsOf
  rw [LargestRemainder.share_perm hperm]
  refine LargestRemainder.share_eq_of_forall₂ (fun h => ?_) (fun h h' => ?_)
    (List.forall₂_same.mpr fun _ _ => rfl) (rfl : share = share)
  · rw [hquota, h]
  · unfold Precedes
    rw [hquota, h, h']

/-- The same key, and the weight multiplied. -/
def Scaled (factor : ℚ) (share share' : AllocationShare) : Prop :=
  share'.key = share.key ∧ share'.weight.value = factor * share.weight.value

theorem weightSum_scaled {factor : ℚ} (hall : List.Forall₂ (Scaled factor) shares shares') :
    weightSum shares' = factor * weightSum shares := by
  unfold weightSum
  induction hall with
  | nil => simp
  | cons hhead _ ih => rw [List.map_cons, List.sum_cons, ih, hhead.2, List.map_cons,
      List.sum_cons, mul_add]

theorem quota_scaled {total' : Money} {factor : ℚ} {share share' : AllocationShare}
    (hfactor : 0 < factor) (habs : |total'.minorUnits| = |total.minorUnits|)
    (hall : List.Forall₂ (Scaled factor) shares shares') (h : Scaled factor share share') :
    quota total shares share = quota total' shares' share' := by
  unfold quota
  rw [weightSum_scaled hall, h.2, habs, mul_left_comm, mul_div_mul_left _ _ hfactor.ne']

theorem unitsOf_scaled {total' : Money} {factor : ℚ} {share share' : AllocationShare}
    (hfactor : 0 < factor) (habs : |total'.minorUnits| = |total.minorUnits|)
    (hall : List.Forall₂ (Scaled factor) shares shares') (h : Scaled factor share share') :
    unitsOf total shares share = unitsOf total' shares' share' := by
  unfold unitsOf
  rw [habs]
  refine LargestRemainder.share_eq_of_forall₂ (fun h => quota_scaled hfactor habs hall h)
    (fun ha hb => ?_) hall h
  unfold Precedes
  rw [quota_scaled hfactor habs hall ha, quota_scaled hfactor habs hall hb, ha.1, hb.1]

theorem Allocable.scaled {factor : ℚ} (hfactor : 0 < factor)
    (hall : List.Forall₂ (Scaled factor) shares shares') (h : Allocable shares)
    (hrescalable : ∀ share ∈ shares', Fits (share.weight.unitsAt (largestScale shares'))) :
    Allocable shares' where
  nonempty := by
    rintro rfl
    cases hall
    exact h.nonempty rfl
  keys := by
    have hkeys : shares'.map AllocationShare.key = shares.map AllocationShare.key := by
      clear hrescalable h
      induction hall with
      | nil => rfl
      | cons hhead _ ih => rw [List.map_cons, List.map_cons, ih, hhead.1]
    exact hkeys ▸ h.keys
  nonneg share' hmem := by
    obtain ⟨share, hshare, hscaled⟩ := hall.exists_left hmem
    rw [hscaled.2]
    exact mul_nonneg hfactor.le (h.nonneg share hshare)
  positive := by
    obtain ⟨share, hshare, hvalue⟩ := h.positive
    obtain ⟨share', hmem, hscaled⟩ := hall.exists_right hshare
    refine ⟨share', hmem, ?_⟩
    rw [hscaled.2]
    exact mul_ne_zero hfactor.ne' hvalue
  rescalable := hrescalable

theorem Allocable.perm (hperm : shares'.Perm shares) (h : Allocable shares) :
    Allocable shares' where
  nonempty := by
    rintro rfl
    exact h.nonempty (List.nil_perm.mp hperm)
  keys := (hperm.map _).nodup_iff.mpr h.keys
  nonneg share hmem := h.nonneg share (hperm.mem_iff.mp hmem)
  positive := by
    obtain ⟨share, hmem, hvalue⟩ := h.positive
    exact ⟨share, hperm.mem_iff.mpr hmem, hvalue⟩
  rescalable := by
    have hscale : largestScale shares' = largestScale shares := (hperm.map _).foldl_eq 0
    intro share hmem
    rw [hscale]
    exact h.rescalable share (hperm.mem_iff.mp hmem)

end Invariance

section Code

variable {total : Money} {shares : List AllocationShare}

theorem rejectIf_eq_ok_iff {condition : Prop} [Decidable condition] {detail : String} {u : Unit} :
    rejectIf condition detail = .ok u ↔ ¬ condition := by
  unfold rejectIf
  split_ifs with h
  · exact iff_of_false (fun h => nomatch h) (not_not.mpr h)
  · exact iff_of_true rfl h

theorem rescale_largestScale {share : AllocationShare} (hmem : share ∈ shares) :
    share.weight.rescale (wholeNumber (largestScale shares)) =
      Decimal.construct (weightAt shares share) ⟨largestScale shares, largestScale_le shares⟩ := by
  obtain ⟨_, hscale⟩ := assertScale_some (statedScale_wholeNumber (largestScale_le shares))
  unfold Decimal.rescale
  rw [hscale, Except.ok_bind, if_pos (scale_le_largestScale hmem)]
  rfl

theorem dedup_length_ne_iff {keys : List Text} : keys.dedup.length ≠ keys.length ↔ ¬ keys.Nodup := by
  rw [not_iff_not, ← List.dedup_eq_self]
  exact ⟨fun h => (List.dedup_sublist keys).eq_of_length h, congrArg List.length⟩

/-- The minor units of the total with their sign removed, and the sign. -/
def signOf (total : Money) : ℤ := if total.minorUnits < 0 then -1 else 1

theorem mul_signOf (total : Money) : total.minorUnits * signOf total = |total.minorUnits| := by
  unfold signOf
  split_ifs with h
  · rw [abs_of_neg h, mul_neg_one]
  · rw [abs_of_nonneg (not_lt.mp h), mul_one]

theorem abs_mul_signOf (total : Money) : |total.minorUnits| * signOf total = total.minorUnits := by
  unfold signOf
  split_ifs with h
  · rw [abs_of_neg h]; ring
  · rw [abs_of_nonneg (not_lt.mp h), mul_one]

/-- The amount of `units` minor units, in the currency of the total. -/
def amountOf (total : Money) (units : ℤ) : Money :=
  if h : digitCount units ≤ MAX_PRECISION then
    ⟨⟨units, total.amount.scale, h, total.amount.scale_le⟩, total.currency⟩
  else total

theorem fromMinorUnits_eq {units : ℤ} (htotal : Settled total) (hfits : Fits units) :
    Money.fromMinorUnits units total.currency.code = .ok (amountOf total units) := by
  obtain ⟨hle, hscale⟩ := assertScale_some (statedScale_wholeNumber htotal.minorUnits_le)
  have hamount : amountOf total units =
      ⟨⟨units, total.amount.scale, (digitCount_le_iff units).mpr hfits, total.amount.scale_le⟩,
        total.currency⟩ := dif_pos _
  have hconstruct : Decimal.construct units ⟨total.currency.minorUnits, hle⟩ =
      .ok (amountOf total units).amount := by
    rw [hamount]
    exact construct_eq_ok_iff.mpr ⟨rfl, htotal.scale⟩
  unfold Money.fromMinorUnits Decimal.fromUnits
  rw [htotal.supported, Except.ok_bind, hscale, Except.ok_bind, hconstruct, hamount]
  rfl

/-- The parts, in the order of the shares. -/
def partsOf (total : Money) (shares : List AllocationShare) : List (Text × Money) :=
  shares.map fun share =>
    (share.key, amountOf total (unitsOf total shares share * signOf total))

theorem fits_unitsOf (total : Money) {share : AllocationShare} (h : Allocable shares)
    (hmem : share ∈ shares) :    Fits (unitsOf total shares share * signOf total) := by
  have htotal : Fits total.minorUnits := (digitCount_le_iff _).mp total.amount.precision_le
  have hsign : |signOf total| = 1 := by
    unfold signOf
    split_ifs <;> rfl
  unfold Fits at htotal ⊢
  rw [abs_mul, hsign, mul_one, abs_of_nonneg (unitsOf_nonneg total h hmem)]
  exact lt_of_le_of_lt (unitsOf_le h hmem) htotal

theorem value_nonneg_iff (d : Decimal) : 0 ≤ d.value ↔ 0 ≤ d.units := by
  rw [← Int.cast_nonneg_iff (R := ℚ), units_value]
  exact (mul_nonneg_iff_of_pos_right (by positivity)).symm

/-- Weights that are rescaled one by one have their units at the largest scale. -/
theorem units_rescaled {rescaled : List Decimal}
    (h : shares.mapM (fun share => share.weight.rescale (wholeNumber (largestScale shares))) =
      .ok rescaled) : rescaled.map Decimal.units = shares.map (weightAt shares) := by
  have hall : List.Forall₂ (fun share (d : Decimal) => d.units = weightAt shares share)
      shares rescaled := by
    refine List.Forall₂.imp (fun share d hd => ?_) ((List.forall₂_and_left shares rescaled).mpr
      ⟨fun share hmem => hmem, Except.mapM_eq_ok_iff.mp h⟩)
    exact (construct_eq_ok_iff.mp ((rescale_largestScale hd.1).symm.trans hd.2)).1
  rw [← List.forall₂_eq_eq_eq, List.forall₂_map_left_iff, List.forall₂_map_right_iff]
  exact hall.flip

theorem allocate_eq_ok (htotal : Settled total) (h : Allocable shares) :
    allocate total shares = .ok (partsOf total shares) := by
  obtain ⟨rescaled, hrescaled⟩ := Except.exists_mapM_eq_ok_iff.mpr fun share hmem => by
    obtain ⟨d, hd, -⟩ := (construct_yields (weightAt shares share)
      ⟨largestScale shares, largestScale_le shares⟩).1 (h.rescalable share hmem)
    exact ⟨d, (rescale_largestScale hmem).trans hd⟩
  have hweights := units_rescaled hrescaled
  obtain ⟨-, -, -, hunits⟩ := allocateUnits_eq_unitsOf total h
  have hduplicate : ¬ (shares.map AllocationShare.key).dedup.length ≠ shares.length := by
    rw [← List.length_map (f := AllocationShare.key), dedup_length_ne_iff]
    exact not_not.mpr h.keys
  have hnegative : ¬ ∃ share ∈ shares, share.weight.units < 0 := by
    rintro ⟨share, hmem, hlt⟩
    exact not_le.mpr hlt ((value_nonneg_iff _).mp (h.nonneg share hmem))
  have hzero : ¬ (rescaled.map Decimal.units).foldl (· + ·) 0 = 0 := by
    rw [hweights, ← List.sum_eq_foldl]
    exact h.sum_weightAt_pos.ne'
  unfold allocate
  simp only [Except.bind_eq_ok_iff, rejectIf_eq_ok_iff]
  refine ⟨(), h.nonempty, (), hduplicate, (), hnegative, rescaled, hrescaled, (), hzero, ?_⟩
  change ((shares.zip (allocateUnits (total.minorUnits * signOf total) _ _)).mapM _) = _
  have hzip : shares.zip (shares.map (unitsOf total shares)) =
      shares.map fun share => (share, unitsOf total shares share) := by
    simpa using List.zip_map' (f := id) (g := unitsOf total shares) (l := shares)
  rw [mul_signOf, hweights, hunits, hzip, Except.mapM_eq_ok_iff]
  unfold partsOf
  rw [List.forall₂_map_left_iff, List.forall₂_map_right_iff, List.forall₂_same]
  intro share hmem
  change (Money.fromMinorUnits (unitsOf total shares share * signOf total) _ >>= _) = _
  rw [fromMinorUnits_eq htotal (fits_unitsOf total h hmem)]
  rfl

/-- What is not allocable is rejected. -/
theorem allocable_of_allocate {parts : List (Text × Money)}
    (h : allocate total shares = .ok parts) : Allocable shares := by
  unfold allocate at h
  simp only [Except.bind_eq_ok_iff, rejectIf_eq_ok_iff] at h
  obtain ⟨_, hnonempty, _, hduplicate, _, hnegative, rescaled, hrescaled, _, hzero, -⟩ := h
  have hnonneg : ∀ share ∈ shares, 0 ≤ share.weight.value := fun share hmem =>
    (value_nonneg_iff _).mpr (not_lt.mp fun hlt => hnegative ⟨share, hmem, hlt⟩)
  rw [units_rescaled hrescaled, ← List.sum_eq_foldl] at hzero
  refine ⟨hnonempty, ?_, hnonneg, ?_, fun share hmem => ?_⟩
  · rw [← List.length_map (f := AllocationShare.key), dedup_length_ne_iff] at hduplicate
    exact not_not.mp hduplicate
  · by_contra hall
    refine hzero (List.sum_eq_zero fun w hw => ?_)
    obtain ⟨share, hmem, rfl⟩ := List.mem_map.mp hw
    refine (weightAt_eq_zero_iff hmem).mpr ?_
    by_contra hvalue
    exact hall ⟨share, hmem, hvalue⟩
  · obtain ⟨d, -, hd⟩ := Except.exists_mapM_of_mem hrescaled hmem
    have hunits := (construct_eq_ok_iff.mp ((rescale_largestScale hmem).symm.trans hd)).1
    change Fits (weightAt shares share)
    rw [← hunits]
    exact (digitCount_le_iff _).mp d.precision_le

end Code

/-- The part of a share, given the order of the leftover. -/
structure PartOf (total : Money) (shares order : List AllocationShare) (share : AllocationShare)
    (part : Text × Money) : Prop where
  key : part.1 = share.key
  settled : Settled part.2
  currency : part.2.currency = total.currency
  /-- no part is against the total -/
  sign : 0 ≤ total.minorUnits * part.2.minorUnits
  /-- the floor of the quota, and one more for the first in the order -/
  units : |part.2.minorUnits| = ⌊quota total shares share⌋ +
    if share ∈ order.take
      (|total.minorUnits| - (shares.map fun share => ⌊quota total shares share⌋).sum).toNat
    then 1 else 0
  whole : ∀ n : ℤ, quota total shares share = n → |part.2.minorUnits| = n

section Parts

variable {total : Money} {shares shares' order : List AllocationShare} {share : AllocationShare}

theorem amountOf_settled {units : ℤ} (htotal : Settled total) (hfits : Fits units) :
    Settled (amountOf total units) ∧ (amountOf total units).currency = total.currency ∧
      (amountOf total units).minorUnits = units := by
  obtain ⟨hsettled, hcode, hunits⟩ := fromMinorUnits_settled (fromMinorUnits_eq htotal hfits)
  exact ⟨hsettled, hsettled.currency_eq htotal hcode, hunits⟩

theorem partOf_amountOf (htotal : Settled total) (h : Allocable shares)
    (hperm : order.Perm shares) (hsorted : order.Pairwise (Precedes total shares))
    (hmem : share ∈ shares) : PartOf total shares order share
      (share.key, amountOf total (unitsOf total shares share * signOf total)) := by
  obtain ⟨hsettled, hcurrency, hunits⟩ := amountOf_settled htotal (fits_unitsOf total h hmem)
  have hnonneg := unitsOf_nonneg total h hmem
  have habs : |unitsOf total shares share * signOf total| = unitsOf total shares share := by
    unfold signOf
    split_ifs
    · rw [mul_neg_one, abs_neg, abs_of_nonneg hnonneg]
    · rw [mul_one, abs_of_nonneg hnonneg]
  refine ⟨rfl, hsettled, hcurrency, ?_, ?_, fun n hn => ?_⟩
  · rw [hunits, mul_left_comm, mul_signOf]
    exact mul_nonneg hnonneg (abs_nonneg _)
  · rw [hunits, habs, unitsOf_eq hperm hsorted hmem]
    rfl
  · rw [hunits, habs, unitsOf_of_whole h hn]

theorem sum_partsOf (htotal : Settled total) (h : Allocable shares) :
    ((partsOf total shares).map fun part => part.2.minorUnits).sum = total.minorUnits := by
  have hunits : (partsOf total shares).map (fun part => part.2.minorUnits) =
      shares.map fun share => unitsOf total shares share * signOf total := by
    unfold partsOf
    rw [List.map_map]
    exact List.map_congr_left fun share hmem =>
      (amountOf_settled htotal (fits_unitsOf total h hmem)).2.2
  rw [hunits, List.sum_map_mul_right, sum_unitsOf h, abs_mul_signOf]

theorem partsOf_perm (hperm : shares'.Perm shares) :
    (partsOf total shares').Perm (partsOf total shares) := by
  unfold partsOf
  simp only [unitsOf_perm hperm]
  exact hperm.map _

theorem partsOf_scaled {factor : ℚ} (hfactor : 0 < factor)
    (hall : List.Forall₂ (Scaled factor) shares shares') :
    partsOf total shares' = partsOf total shares := by
  unfold partsOf
  rw [← List.forall₂_eq_eq_eq, List.forall₂_map_left_iff, List.forall₂_map_right_iff]
  refine hall.flip.imp fun share' share h => ?_
  rw [h.1, unitsOf_scaled hfactor rfl hall h]

end Parts

section Negation

variable {total opposite : Money} {shares : List AllocationShare} {share : AllocationShare}

/-- A settled amount is its currency and its minor units. -/
theorem Settled.ext {a b : Money} (ha : Settled a) (hb : Settled b)
    (hcurrency : a.currency = b.currency) (hunits : a.minorUnits = b.minorUnits) : a = b := by
  have hscale : a.amount.scale = b.amount.scale := by rw [ha.scale, hb.scale, hcurrency]
  have hamount := Decimal.ext hunits hscale
  cases a
  cases b
  congr

theorem exists_negate {a : Money} : ∃ opposite, a.negate = .ok opposite := by
  have hfits : Fits (-a.minorUnits) := by
    unfold Fits
    rw [abs_neg]
    exact (digitCount_le_iff _).mp a.amount.precision_le
  obtain ⟨opposite, hopposite, -, -⟩ := (negate_yields a).1 hfits
  exact ⟨opposite, hopposite⟩

theorem unitsOf_negate (hunits : opposite.minorUnits = -total.minorUnits) (h : Allocable shares) :
    unitsOf opposite shares share * signOf opposite =
      -(unitsOf total shares share * signOf total) := by
  have habs : |opposite.minorUnits| = |total.minorUnits| := by rw [hunits, abs_neg]
  have hself : ∀ share, Scaled 1 share share := fun share => ⟨rfl, (one_mul _).symm⟩
  rw [← unitsOf_scaled one_pos habs (List.forall₂_same.mpr fun share _ => hself share)
    (hself share)]
  by_cases hzero : total.minorUnits = 0
  · have hquota : quota total shares share = (0 : ℤ) := by simp [quota, hzero]
    rw [unitsOf_of_whole h hquota, zero_mul, zero_mul, neg_zero]
  · have hsign : signOf opposite = -signOf total := by
      unfold signOf
      rw [hunits]
      split_ifs <;> omega
    rw [hsign, mul_neg]

/-- The parts of the negated total are the negated parts. -/
theorem negate_partsOf (htotal : Settled total) (hopposite : total.negate = .ok opposite)
    (h : Allocable shares) :
    List.Forall₂ (fun part part' : Text × Money =>
        part'.1 = part.1 ∧ part.2.negate = .ok part'.2)
      (partsOf total shares) (partsOf opposite shares) := by
  obtain ⟨hsettled, hcurrency, hunits⟩ := settled_of_negate htotal hopposite
  unfold partsOf
  rw [List.forall₂_map_left_iff, List.forall₂_map_right_iff, List.forall₂_same]
  intro share hmem
  refine ⟨rfl, ?_⟩
  obtain ⟨hpart, hpartCurrency, hpartUnits⟩ :=
    amountOf_settled htotal (fits_unitsOf total h hmem)
  obtain ⟨hpart', hpartCurrency', hpartUnits'⟩ :=
    amountOf_settled hsettled (fits_unitsOf opposite h hmem)
  obtain ⟨negated, hnegated⟩ :=
    exists_negate (a := amountOf total (unitsOf total shares share * signOf total))
  obtain ⟨hs, hc, hu⟩ := settled_of_negate hpart hnegated
  dsimp only
  rw [hnegated]
  refine congrArg Except.ok (hs.ext hpart' ?_ ?_)
  · rw [hc, hpartCurrency, hpartCurrency', hcurrency]
  · rw [hu, hpartUnits, hpartUnits', unitsOf_negate hunits h]

end Negation

/-- Allocation is apportionment by largest remainder, whatever the order of the shares and the
scale of their weights, and odd in the total. -/
theorem allocate_largest_remainder {total : Money} (htotal : Obtained total)
    (shares : List AllocationShare) :
    (Allocable shares → ∃ parts, allocate total shares = .ok parts ∧
      (parts.map fun part => part.2.minorUnits).sum = total.minorUnits ∧
      (∃ order : List AllocationShare, order.Perm shares ∧
        order.Pairwise (Precedes total shares) ∧
        List.Forall₂ (PartOf total shares order) shares parts) ∧
      (∀ shares', shares'.Perm shares →
        ∃ parts', allocate total shares' = .ok parts' ∧ parts'.Perm parts) ∧
      (∀ factor shares', 0 < factor → List.Forall₂ (Scaled factor) shares shares' →
        (∀ share ∈ shares', Fits (share.weight.unitsAt (largestScale shares'))) →
        allocate total shares' = .ok parts) ∧
      ∃ opposite parts', total.negate = .ok opposite ∧
        allocate opposite shares = .ok parts' ∧
        List.Forall₂ (fun part part' : Text × Money =>
          part'.1 = part.1 ∧ part.2.negate = .ok part'.2) parts parts') ∧
    (¬ Allocable shares → ∃ problem, allocate total shares = .error problem) := by
  have hsettled := settled_of_obtained htotal
  refine ⟨fun h => ?_, fun h => ?_⟩
  · obtain ⟨order, hperm, hsorted, -⟩ := allocateUnits_eq_unitsOf total h
    obtain ⟨opposite, hopposite⟩ := exists_negate (a := total)
    have hparts : List.Forall₂ (PartOf total shares order) shares (partsOf total shares) := by
      unfold partsOf
      rw [List.forall₂_map_right_iff, List.forall₂_same]
      exact fun share hmem => partOf_amountOf hsettled h hperm hsorted hmem
    refine ⟨_, allocate_eq_ok hsettled h, sum_partsOf hsettled h,
      ⟨order, hperm, hsorted, hparts⟩, fun shares' hperm' => ?_,
      fun factor shares' hfactor hall hrescalable => ?_, opposite, _, hopposite,
      allocate_eq_ok (settled_of_negate hsettled hopposite).1 h,
      negate_partsOf hsettled hopposite h⟩
    · exact ⟨_, allocate_eq_ok hsettled (h.perm hperm'), partsOf_perm hperm'⟩
    · rw [allocate_eq_ok hsettled (h.scaled hfactor hall hrescalable), partsOf_scaled hfactor hall]
  · cases hallocate : allocate total shares with
    | error problem => exact ⟨problem, rfl⟩
    | ok parts => exact absurd (allocable_of_allocate hallocate) h

/-- Three equal shares. -/
def thirds : List AllocationShare :=
  [⟨ascii "b", ⟨1, 0, by decide, by decide⟩⟩, ⟨ascii "a", ⟨1, 0, by decide, by decide⟩⟩,
    ⟨ascii "c", ⟨1, 0, by decide, by decide⟩⟩]

/-- A dollar is divided among them; the first key has the odd cent. -/
theorem allocate_largest_remainder_thirds : ∃ total parts,
    Money.fromMinorUnits 100 "USD" = .ok total ∧ allocate total thirds = .ok parts ∧
      (parts.map fun part => part.2.minorUnits).sum = 100 := by
  have hdollar : Settled ⟨⟨100, 2, by decide, by decide⟩, ⟨"USD", 2⟩⟩ := ⟨rfl, rfl, by decide⟩
  have htotal := fromMinorUnits_eq hdollar (show Fits 100 by simp [Fits])
  have hone : ∀ share ∈ thirds, share.weight.value = 1 := by
    simp [thirds, Decimal.value]
  have hfits : ∀ share ∈ thirds, Fits (share.weight.unitsAt (largestScale thirds)) := by
    simp [thirds, largestScale, Decimal.unitsAt, pow10, Fits]
  have hallocable : Allocable thirds :=
    ⟨by decide, by decide, fun share hmem => (hone share hmem).symm ▸ zero_le_one,
      ⟨_, List.mem_cons_self, (hone _ List.mem_cons_self).symm ▸ one_ne_zero⟩, hfits⟩
  obtain ⟨parts, hparts, hsum, -⟩ :=
    (allocate_largest_remainder (.fromMinorUnits htotal) thirds).1 hallocable
  exact ⟨_, parts, htotal, hparts, hsum.trans (fromMinorUnits_settled htotal).2.2⟩

end Sintius.Money
