import Mathlib
import Sintius.Lib.Double
import Sintius.Lib.Except
import Sintius.Lib.JsonValue
import Sintius.Lib.NumberText
import Sintius.Spec.Problem
import Sintius.Spec.Tenant
import Sintius.Spec.Authorization

/-! Which stored limits deny what they were meant to limit, whatever the request. -/

namespace Sintius.Identity

open Js

section Extremes

/-- `Number.MAX_VALUE`, with either sign. -/
def extreme (negative : Bool) : Double := ⟨negative, 2047 * 2 ^ 52 - 1, by norm_num⟩

theorem abs_value (d : Double) : |d.value| = magnitude d.code / 2 ^ 1074 := by
  have hnonneg : (0 : ℚ) ≤ magnitude d.code / 2 ^ 1074 := by positivity
  by_cases hneg : d.negative = true
  · rw [value_of_negative hneg, abs_neg, abs_of_nonneg hnonneg]
  · rw [value_of_nonnegative hneg, abs_of_nonneg hnonneg]

theorem abs_value_le (d : Double) (negative : Bool) : |d.value| ≤ |(extreme negative).value| := by
  rw [abs_value, abs_value]
  have hle : d.code ≤ (extreme negative).code := Nat.le_sub_one_of_lt d.finite
  have hmagnitude := magnitude_strictMono.monotone hle
  gcongr

theorem extreme_value_true : (extreme true).value = -|(extreme true).value| := by
  rw [abs_value, value_of_negative rfl]

theorem extreme_value_false : (extreme false).value = |(extreme false).value| := by
  rw [abs_value, value_of_nonnegative (by simp [extreme])]

theorem eq_extreme_of_value {d : Double} {negative : Bool}
    (h : d.value = (extreme negative).value) : d = extreme negative := by
  rcases value_eq_iff.mp h with heq | ⟨-, hzero⟩
  · exact heq
  · unfold extreme at hzero
    norm_num at hzero

/-- Some number is less than this one, unless it is the least. -/
theorem exists_value_lt_iff (d : Double) : (∃ e : Double, e.value < d.value) ↔ d ≠ extreme true := by
  have hleast : ∀ e : Double, (extreme true).value ≤ e.value := by
    intro e
    rw [extreme_value_true]
    exact neg_le_of_abs_le (abs_value_le e true)
  constructor
  · rintro ⟨e, hlt⟩ rfl
    exact absurd hlt (not_lt.mpr (hleast e))
  · intro hne
    refine ⟨extreme true, lt_of_le_of_ne (hleast d) ?_⟩
    exact fun heq => hne (eq_extreme_of_value heq.symm)

theorem exists_lt_value_iff (d : Double) : (∃ e : Double, d.value < e.value) ↔ d ≠ extreme false := by
  have hgreatest : ∀ e : Double, e.value ≤ (extreme false).value := by
    intro e
    rw [extreme_value_false]
    exact le_of_abs_le (abs_value_le e false)
  constructor
  · rintro ⟨e, hlt⟩ rfl
    exact absurd hlt (not_lt.mpr (hgreatest e))
  · intro hne
    refine ⟨extreme false, lt_of_le_of_ne (hgreatest d) ?_⟩
    exact fun heq => hne (eq_extreme_of_value heq)

end Extremes

section Constraints

variable {constraint : PermissionConstraint} {value : LimitValue}

/-- The operators, each with what the value must be for some attribute to meet the limit. -/
def CanBeMet (operator : String) (value : LimitValue) : Prop :=
  match operator with
  | "eq" => ∃ expected, value = .one expected ∧ expected ≠ .number .nan
  | "in" => ∃ expected rest, value = .many (expected :: rest)
  | "lt" => ∃ d, value = .one (.number (.finite d)) ∧ d ≠ extreme true
  | "lte" => ∃ d, value = .one (.number (.finite d))
  | "gt" => ∃ d, value = .one (.number (.finite d)) ∧ d ≠ extreme false
  | "gte" => ∃ d, value = .one (.number (.finite d))
  | _ => False

theorem strictEquals_self {v : ConstraintValue} (h : v ≠ .number .nan) : v.strictEquals v = true := by
  unfold ConstraintValue.strictEquals
  cases v with
  | string s => simp
  | number n =>
    cases n with
    | nan => exact absurd rfl h
    | infinity negative => cases negative <;> rfl
    | finite d => simp [Number.le]

theorem strictEquals_nan (v : ConstraintValue) : v.strictEquals (.number .nan) = false := by
  unfold ConstraintValue.strictEquals
  cases v with
  | string s => rfl
  | number n => cases n <;> rfl

theorem sameValueZero_self (v : ConstraintValue) : v.sameValueZero v = true := by
  unfold ConstraintValue.sameValueZero
  by_cases h : v = .number .nan
  · simp [h]
  · simp [strictEquals_self h]

/-- A comparison is met by some number exactly when it is with one that is finite. -/
theorem exists_finitePair_iff (test : ℚ × ℚ → Bool) :
    (∃ actual, (finitePair actual value).any test = true) ↔
      ∃ d : Double, value = .one (.number (.finite d)) ∧
        ∃ e : Double, test (e.value, d.value) = true := by
  constructor
  · rintro ⟨actual, h⟩
    unfold finitePair at h
    split at h
    · next e d => exact ⟨d, rfl, e, h⟩
    · cases h
  · rintro ⟨d, rfl, e, h⟩
    exact ⟨.number (.finite e), h⟩

theorem exists_satisfiedBy_iff :
    (∃ actual, constraint.satisfiedBy actual = true) ↔
      CanBeMet constraint.operator constraint.value := by
  obtain ⟨permission, attribute_, operator, value⟩ := constraint
  unfold PermissionConstraint.satisfiedBy CanBeMet
  dsimp only
  split
  · next expected =>
    constructor
    · rintro ⟨actual, h⟩
      refine ⟨expected, rfl, ?_⟩
      rintro rfl
      rw [strictEquals_nan] at h
      cases h
    · rintro ⟨_, heq, hne⟩
      cases heq
      exact ⟨expected, strictEquals_self hne⟩
  · next expected =>
    constructor
    · rintro ⟨actual, h⟩
      cases expected with
      | nil => cases h
      | cons v vs => exact ⟨v, vs, rfl⟩
    · rintro ⟨v, vs, heq⟩
      cases heq
      exact ⟨v, by simp [sameValueZero_self]⟩
  · rw [exists_finitePair_iff]
    simp only [decide_eq_true_eq, exists_value_lt_iff]
  · rw [exists_finitePair_iff]
    simp only [decide_eq_true_eq]
    exact ⟨fun ⟨d, hd, _⟩ => ⟨d, hd⟩, fun ⟨d, hd⟩ => ⟨d, hd, d, le_rfl⟩⟩
  · rw [exists_finitePair_iff]
    simp only [decide_eq_true_eq, exists_lt_value_iff]
  · rw [exists_finitePair_iff]
    simp only [decide_eq_true_eq]
    exact ⟨fun ⟨d, hd, _⟩ => ⟨d, hd⟩, fun ⟨d, hd⟩ => ⟨d, hd, d, le_rfl⟩⟩
  · next hlt hlte hgt hgte heq hin =>
    refine iff_of_false (fun ⟨_, h⟩ => nomatch h) ?_
    split
    · exact fun ⟨expected, h, _⟩ => heq expected rfl h
    · exact fun ⟨expected, rest, h⟩ => hin (expected :: rest) rfl h
    · exact absurd rfl hlt
    · exact absurd rfl hlte
    · exact absurd rfl hgt
    · exact absurd rfl hgte
    · exact not_false

end Constraints

section Entries

variable {item : JsonValue} {row : GrantRow} {role : RoleSnapshot} {permission : String}

def LIMIT_OPERATORS : List String := ["eq", "lt", "lte", "gt", "gte", "in"]

/-- The permission of the catalog that an entry names. -/
def NamesPermission (item : JsonValue) (permission : String) : Prop :=
  item.property "permission" = some (.string permission) ∧ permission ∈ PERMISSION_CATALOG

/-- An entry of the stated form. -/
structure WellFormedLimit (item : JsonValue) : Prop where
  permission : ∃ permission, NamesPermission item permission
  attribute_ : ∃ name, item.property "attribute" = some (.string name) ∧ name ≠ ""
  operator : ∃ operator ∈ LIMIT_OPERATORS, item.property "operator" = some (.string operator)
  value : (∃ value, item.property "value" = some value ∧ (scalar value).isSome) ∨
    item.property "operator" = some (.string "in") ∧
      ∃ items, item.property "value" = some (.array items) ∧ ∀ i ∈ items, (scalar i).isSome

/-- The permissions of a role that an entry is to limit: the one it names, or else all. -/
def MeantToLimit (item : JsonValue) (role : RoleSnapshot) (permission : String) : Prop :=
  NamesPermission item permission ∨
    (¬ ∃ named, NamesPermission item named) ∧ permission ∈ role.permissions

/-- In whatever row the entry is stored, the role grants nothing that it is to limit. -/
def DeniesWhereStored (item : JsonValue) : Prop :=
  ∀ row role permission attributes, item ∈ row.permission_limits → roleFrom row = .ok role →
    MeantToLimit item role permission → grantedByRoles [role] permission attributes = false

/-- Some attribute can meet an entry with this operator and value. -/
def CanBeMetBy (item : JsonValue) : Prop :=
  match item.property "operator" with
  | some (.string "eq") =>
    (¬ ∃ items, item.property "value" = some (.array items)) ∧
      item.property "value" ≠ some (.number .nan)
  | some (.string "in") =>
    ∃ items, item.property "value" = some (.array items) ∧ ∃ i ∈ items, (scalar i).isSome
  | some (.string "lt") =>
    ∃ d, item.property "value" = some (.number (.finite d)) ∧ d ≠ extreme true
  | some (.string "lte") => ∃ d, item.property "value" = some (.number (.finite d))
  | some (.string "gt") =>
    ∃ d, item.property "value" = some (.number (.finite d)) ∧ d ≠ extreme false
  | some (.string "gte") => ∃ d, item.property "value" = some (.number (.finite d))
  | _ => False

/-- The entry denies: its role cannot be loaded, or it names a permission of the catalog and can be
met by nothing. -/
def FailsClosed (item : JsonValue) : Prop :=
  permissionText item = none ∨
    (∃ permission, NamesPermission item permission) ∧ ¬ CanBeMetBy item

theorem limitValue_eq_one_iff {d : Double} :
    limitValue item = .one (.number (.finite d)) ↔
      item.property "value" = some (.number (.finite d)) := by
  unfold limitValue scalar
  cases item.property "value" with
  | none => simp
  | some value => cases value <;> simp

theorem exists_limitValue_one_iff :
    (∃ expected, limitValue item = .one expected ∧ expected ≠ .number .nan) ↔
      (¬ ∃ items, item.property "value" = some (.array items)) ∧
        item.property "value" ≠ some (.number .nan) := by
  unfold limitValue scalar
  cases item.property "value" with
  | none => simp
  | some value => cases value <;> simp

theorem exists_limitValue_many_iff :
    (∃ expected rest, limitValue item = .many (expected :: rest)) ↔
      ∃ items, item.property "value" = some (.array items) ∧ ∃ i ∈ items, (scalar i).isSome := by
  unfold limitValue
  cases item.property "value" with
  | none => simp
  | some value =>
    cases value with
    | array items =>
      simp only [LimitValue.many.injEq, Option.some.injEq, JsonValue.array.injEq, exists_eq_left']
      constructor
      · rintro ⟨expected, rest, h⟩
        have hmem : expected ∈ items.filterMap scalar := by simp [h]
        obtain ⟨i, hi, hscalar⟩ := List.mem_filterMap.mp hmem
        exact ⟨i, hi, by simp [hscalar]⟩
      · rintro ⟨i, hi, hscalar⟩
        obtain ⟨expected, hexpected⟩ := Option.isSome_iff_exists.mp hscalar
        have hmem := List.mem_filterMap.mpr ⟨i, hi, hexpected⟩
        exact List.exists_cons_of_ne_nil (List.ne_nil_of_mem hmem)
    | _ => simp

theorem canBeMet_limitFrom_iff :
    CanBeMet (stringProperty item "operator" "invalid") (limitValue item) ↔ CanBeMetBy item := by
  unfold CanBeMetBy stringProperty
  cases item.property "operator" with
  | none => exact Iff.rfl
  | some operator =>
    cases operator with
    | string text =>
      simp only
      unfold CanBeMet
      split
      · exact exists_limitValue_one_iff
      · exact exists_limitValue_many_iff
      · simp only [limitValue_eq_one_iff]
      · simp only [limitValue_eq_one_iff]
      · simp only [limitValue_eq_one_iff]
      · simp only [limitValue_eq_one_iff]
      · next heq hin hlt hlte hgt hgte =>
        split <;> simp_all
    | _ => exact Iff.rfl

theorem limitFrom_eq_ok {limit : PermissionConstraint} (h : limitFrom item = .ok limit) :
    permissionText item = some limit.permission ∧
      limit.operator = stringProperty item "operator" "invalid" ∧
      limit.value = limitValue item := by
  unfold limitFrom at h
  split at h
  · cases h
  · next permission hpermission =>
    cases h
    exact ⟨hpermission, rfl, rfl⟩

theorem permissionText_of_named (h : NamesPermission item permission) :
    permissionText item = some permission := by
  unfold permissionText
  rw [h.1]
  rfl

/-- The entry is among the limits of the loaded role. -/
theorem exists_limit_of_mem (hitem : item ∈ row.permission_limits) (hload : roleFrom row = .ok role) :
    ∃ limit ∈ role.limits, limitFrom item = .ok limit := by
  unfold roleFrom at hload
  obtain ⟨limits, hlimits, hrole⟩ := Except.bind_eq_ok_iff.mp hload
  cases hrole
  exact Except.exists_mapM_of_mem hlimits hitem

/-- A limit that nothing meets denies the permission it is for. -/
theorem grantedByRoles_eq_false {limit : PermissionConstraint} {attributes : ResourceAttributes}
    (hmem : limit ∈ role.limits) (hpermission : limit.permission = permission)
    (hnever : ∀ actual, limit.satisfiedBy actual = false) :
    grantedByRoles [role] permission attributes = false := by
  have hunsatisfied : constraintsSatisfied
      (role.limits.filter fun limit => limit.permission == permission) attributes = false := by
    unfold constraintsSatisfied
    rw [List.all_eq_false]
    refine ⟨limit, List.mem_filter.mpr ⟨hmem, by simp [hpermission]⟩, ?_⟩
    rw [Option.any_eq_true]
    rintro ⟨actual, -, h⟩
    rw [hnever actual] at h
    cases h
  unfold grantedByRoles
  simp [hunsatisfied]

/-- The role that holds one permission, with one limit. -/
def limitedRow (item : JsonValue) (permission : String) : GrantRow where
  role_code := "limited"
  permissions := .array [.string permission]
  status := .active
  permission_limits := [item]

theorem roleFrom_limitedRow {limit : PermissionConstraint} (h : limitFrom item = .ok limit) :
    roleFrom (limitedRow item permission) =
      .ok ⟨"limited", [permission], .active, [limit]⟩ := by
  unfold roleFrom limitedRow
  dsimp only
  rw [List.mapM_cons, h]
  rfl

theorem exists_other_permission (named : String) :
    ∃ permission ∈ PERMISSION_CATALOG, permission ≠ named := by
  by_cases h : named = "audit:read"
  · exact ⟨"tenant:role:manage", by decide, by rw [h]; decide⟩
  · exact ⟨"audit:read", by decide, fun heq => h heq.symm⟩

theorem deniesWhereStored_of_failsClosed (h : FailsClosed item) : DeniesWhereStored item := by
  intro row role permission attributes hitem hload hmeant
  obtain ⟨limit, hmem, hlimit⟩ := exists_limit_of_mem hitem hload
  obtain ⟨htext, hoperator, hvalue⟩ := limitFrom_eq_ok hlimit
  rcases h with hnone | ⟨⟨named, hnamed⟩, hnever⟩
  · rw [hnone] at htext
    cases htext
  · have hpermission : permission = named := by
      rcases hmeant with hnamed' | ⟨hnot, -⟩
      · have heq := hnamed'.1.symm.trans hnamed.1
        cases heq
        rfl
      · exact absurd ⟨named, hnamed⟩ hnot
    have hunmet : ¬ ∃ actual, limit.satisfiedBy actual = true := by
      rw [exists_satisfiedBy_iff, hoperator, hvalue, canBeMet_limitFrom_iff]
      exact hnever
    refine grantedByRoles_eq_false hmem ?_ fun actual => ?_
    · rw [permissionText_of_named hnamed] at htext
      cases htext
      exact hpermission.symm
    · simpa using not_exists.mp hunmet actual

theorem failsClosed_of_deniesWhereStored (h : DeniesWhereStored item) : FailsClosed item := by
  by_contra hopen
  unfold FailsClosed at hopen
  push Not at hopen
  obtain ⟨htext, hopen⟩ := hopen
  obtain ⟨text, htext⟩ := Option.ne_none_iff_exists'.mp htext
  have hlimit : limitFrom item = .ok ⟨text, stringProperty item "attribute" "",
      stringProperty item "operator" "invalid", limitValue item⟩ := by
    unfold limitFrom
    rw [htext]
  by_cases hnames : ∃ named, NamesPermission item named
  · -- the limit is met by some attribute
    obtain ⟨named, hnamed⟩ := hnames
    have hmet := canBeMet_limitFrom_iff.mpr (hopen ⟨named, hnamed⟩)
    have hsatisfied : ∃ actual, (⟨text, stringProperty item "attribute" "",
        stringProperty item "operator" "invalid", limitValue item⟩ :
        PermissionConstraint).satisfiedBy actual = true := exists_satisfiedBy_iff.mpr hmet
    obtain ⟨actual, hactual⟩ := hsatisfied
    have hgranted := h (limitedRow item named) _ named (fun _ => some actual)
      List.mem_cons_self (roleFrom_limitedRow hlimit) (.inl hnamed)
    simp [grantedByRoles, constraintsSatisfied, hactual] at hgranted
  · -- the limit is for another permission than the role's
    obtain ⟨permission, -, hne⟩ := exists_other_permission text
    have hgranted := h (limitedRow item permission) _ permission (fun _ => none)
      List.mem_cons_self (roleFrom_limitedRow hlimit) (.inr ⟨hnames, List.mem_cons_self⟩)
    simp [grantedByRoles, constraintsSatisfied, hne.symm] at hgranted

/-- An entry denies, in every row, what it was to limit exactly when it fails closed. -/
theorem limit_denies_iff (item : JsonValue) : DeniesWhereStored item ↔ FailsClosed item :=
  ⟨failsClosed_of_deniesWhereStored, deniesWhereStored_of_failsClosed⟩

end Entries

/-- A refund limit whose permission is misspelled. -/
def misspelledLimit : JsonValue := .object [
  ("permission", .string "payments:payment:refnd"),
  ("attribute", .string "amount_minor"),
  ("operator", .string "lte"),
  ("value", .number (.ofNat 50000 (by norm_num)))]

/-- Its role refunds without limit. -/
theorem misspelled_limit_grants : ¬ WellFormedLimit misspelledLimit ∧
    ∃ role, roleFrom (limitedRow misspelledLimit "payments:payment:refund") = .ok role ∧
      MeantToLimit misspelledLimit role "payments:payment:refund" ∧
      grantedByRoles [role] "payments:payment:refund" (fun _ => none) = true := by
  have hnames : ¬ ∃ named, NamesPermission misspelledLimit named := by
    rintro ⟨named, hproperty, hknown⟩
    have hnamed : named = "payments:payment:refnd" := by
      have heq : some (JsonValue.string "payments:payment:refnd") = some (.string named) := hproperty
      cases heq
      rfl
    rw [hnamed] at hknown
    exact absurd hknown (by decide)
  refine ⟨fun h => hnames h.permission, _, roleFrom_limitedRow rfl, .inr ⟨hnames, ?_⟩, ?_⟩
  · exact List.mem_cons_self
  · decide

end Sintius.Identity
