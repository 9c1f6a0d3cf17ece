import Mathlib
import Sintius.Lib.Except
import Sintius.Spec.Canonical
import Sintius.Spec.Idempotency
import Sintius.Spec.Payload

/-! The scan for tenant identity, on any graph. A search that ends without a finding has
explored every object it has seen: one it skips was seen before, and is either done or
still being explored, in which case it is done when the search is. -/

namespace Sintius.Payload

open Js Sintius.Canonical Sintius.Tenancy Sintius.Outbox Sintius.Idempotency

variable {Ref : Type}

/-- The values in an object or array. -/
def children : Shape (Value Ref) → List (Value Ref)
  | .array items => items.filterMap id
  | .plain keys value => keys.names.map value
  | .other keys value => keys.names.map value

/-- Own keys; an array has none but its indices. -/
def ownKeys : Shape (Value Ref) → List Text
  | .array _ => []
  | .plain keys _ => keys.names
  | .other keys _ => keys.names

/-- The key spells a word, in letters of either case, with underscores and hyphens anywhere. -/
inductive Spells : List Char → Text → Prop where
  | nil : Spells [] []
  | letter {l word key} {c : CodeUnit} (hletter : c.val = l.toNat ∨ c.val = l.toUpper.toNat)
      (h : Spells word key) : Spells (l :: word) (c :: key)
  | separator {word key} {c : CodeUnit} (hseparator : c.val = '_'.toNat ∨ c.val = '-'.toNat)
      (h : Spells word key) : Spells word (c :: key)

/-- An own key that states a tenant identity. -/
def StatesTenant (shape : Shape (Value Ref)) : Prop :=
  ∃ key ∈ ownKeys shape, Spells "tenantid".toList key

/-- A path from a value through so many objects and arrays, to another value. -/
inductive Path (heap : Heap Ref) : ℕ → Value Ref → Value Ref → Prop where
  | here (v) : Path heap 0 v v
  | into {n v shape child w} (hshape : shapeOf heap v = some shape) (hchild : child ∈ children shape)
      (hpath : Path heap n child w) : Path heap (n + 1) v w

/-- No object within reach of the value states a tenant identity. -/
def CarriesNoTenant (heap : Heap Ref) (input : Value Ref) : Prop :=
  ∀ n w shape, Path heap n input w → shapeOf heap w = some shape → ¬ StatesTenant shape

/-- More than 16 objects and arrays lie on some path below the value. -/
def NestsTooDeeply (heap : Heap Ref) (input : Value Ref) : Prop :=
  ∃ w, Path heap (MAX_SCAN_DEPTH + 1) input w ∧ (shapeOf heap w).isSome

section Names

def isSmall (l : Char) : Prop := 0x61 ≤ l.toNat ∧ l.toNat ≤ 0x7a ∧ l.toUpper.toNat + 0x20 = l.toNat

theorem val_toLowerUnit (c : CodeUnit) :
    (toLowerUnit c).val = if 0x41 ≤ c.val ∧ c.val ≤ 0x5a then c.val + 0x20 else c.val := by
  unfold toLowerUnit isUpper
  simp only [Bool.and_eq_true, decide_eq_true_eq]
  split_ifs with hupper
  · rw [Fin.val_add, show (0x20 : CodeUnit).val = 0x20 from rfl, Nat.mod_eq_of_lt (by omega)]
  · rfl

theorem toLowerUnit_eq_iff {l : Char} (hl : isSmall l) {c : CodeUnit} :
    toLowerUnit c = Fin.ofNat 65536 l.toNat ↔ c.val = l.toNat ∨ c.val = l.toUpper.toNat := by
  obtain ⟨hfirst, hlast, hupper⟩ := hl
  rw [Fin.ext_iff, val_toLowerUnit, Fin.val_ofNat, Nat.mod_eq_of_lt (by omega)]
  split_ifs <;> omega

theorem normalizeKey_cons (c : CodeUnit) (key : Text) : normalizeKey (c :: key) =
    if c.val = '_'.toNat ∨ c.val = '-'.toNat then normalizeKey key
    else toLowerUnit c :: normalizeKey key := by
  have hkept : ((toLowerUnit c != 0x5f) && (toLowerUnit c != 0x2d)) = true ↔
      ¬(c.val = '_'.toNat ∨ c.val = '-'.toNat) := by
    have hval := val_toLowerUnit c
    simp only [Bool.and_eq_true, bne_iff_ne, ne_eq, Fin.ext_iff, hval, not_or,
      show (0x5f : CodeUnit).val = 0x5f from rfl, show (0x2d : CodeUnit).val = 0x2d from rfl,
      show '_'.toNat = 0x5f from rfl, show '-'.toNat = 0x2d from rfl]
    split_ifs <;> omega
  unfold normalizeKey toLowerCase
  rw [List.map_cons, List.filter_cons]
  split_ifs with hkeep hseparator hseparator
  · exact absurd hseparator (hkept.mp hkeep)
  · rfl
  · rfl
  · exact absurd (hkept.mpr hseparator) hkeep

/-- The keys that the code takes for a word of small letters are those that spell it. -/
theorem spells_iff {word : List Char} {key : Text} (hword : ∀ l ∈ word, isSmall l) :
    Spells word key ↔ normalizeKey key = word.map fun l => Fin.ofNat 65536 l.toNat := by
  constructor
  · intro h
    induction h with
    | nil => rfl
    | @letter l word key c hletter _ ih =>
      have hl := hword l (by simp)
      have hkept : ¬(c.val = '_'.toNat ∨ c.val = '-'.toNat) := by
        obtain ⟨hfirst, hlast, hupper⟩ := hl
        rw [show '_'.toNat = 0x5f from rfl, show '-'.toNat = 0x2d from rfl]
        omega
      rw [normalizeKey_cons, if_neg hkept, List.map_cons, (toLowerUnit_eq_iff hl).mpr hletter,
        ih fun l' hl' => hword l' (by simp [hl'])]
    | separator hseparator _ ih =>
      rw [normalizeKey_cons, if_pos hseparator]
      exact ih hword
  · intro h
    induction key generalizing word with
    | nil =>
      cases word with
      | nil => exact .nil
      | cons l word => cases h
    | cons c key ih =>
      rw [normalizeKey_cons] at h
      split_ifs at h with hseparator
      · exact .separator hseparator (ih hword h)
      · cases word with
        | nil => cases h
        | cons l word =>
          rw [List.map_cons, List.cons.injEq] at h
          exact .letter ((toLowerUnit_eq_iff (hword l (by simp))).mp h.1)
            (ih (fun l' hl' => hword l' (by simp [hl'])) h.2)

theorem statesTenant_iff {shape : Shape (Value Ref)} :
    StatesTenant shape ↔ ∃ key ∈ ownKeys shape, normalizeKey key = ascii "tenantid" := by
  have hsmall : ∀ l ∈ "tenantid".toList, isSmall l := by
    simp [isSmall, Char.toUpper]
  unfold StatesTenant ascii
  simp only [spells_iff hsmall]

end Names

section Search

variable {heap : Heap Ref} {seen seen' : List Ref}

/-- A value whose objects in place are clean, and whose references have been seen. -/
inductive Clean (heap : Heap Ref) (seen : List Ref) : Value Ref → Prop where
  | scalar {v} (h : shapeOf heap v = none) : Clean heap seen v
  | seen {r} (h : r ∈ seen) : Clean heap seen (.reference r)
  | object {shape} (hkeys : ¬ StatesTenant shape)
      (hchildren : ∀ child ∈ children shape, Clean heap seen child) :
      Clean heap seen (.object shape)

structure CleanShape (heap : Heap Ref) (seen : List Ref) (shape : Shape (Value Ref)) : Prop where
  keys : ¬ StatesTenant shape
  children : ∀ child ∈ children shape, Clean heap seen child

theorem Clean.mono (h : seen ⊆ seen') {v : Value Ref} (hv : Clean heap seen v) :
    Clean heap seen' v := by
  induction hv with
  | scalar hv => exact .scalar hv
  | seen hr => exact .seen (h hr)
  | object hkeys _ ih => exact .object hkeys ih

theorem CleanShape.mono (h : seen ⊆ seen') {shape : Shape (Value Ref)}
    (hshape : CleanShape heap seen shape) : CleanShape heap seen' shape :=
  ⟨hshape.keys, fun child hmem => (hshape.children child hmem).mono h⟩

/-- What a search without a finding adds: objects that are explored. -/
structure Explores (heap : Heap Ref) (seen seen' : List Ref) : Prop where
  subset : seen ⊆ seen'
  explored : ∀ r ∈ seen', r ∈ seen ∨ CleanShape heap seen' (heap r)

theorem Explores.refl (seen : List Ref) : Explores heap seen seen :=
  ⟨List.Subset.refl _, fun _ => .inl⟩

theorem Explores.trans {mid : List Ref} (h : Explores heap seen mid)
    (h' : Explores heap mid seen') : Explores heap seen seen' := by
  refine ⟨List.Subset.trans h.subset h'.subset, fun r hr => ?_⟩
  obtain hr | hr := h'.explored r hr
  · exact (h.explored r hr).imp_right fun hshape => hshape.mono h'.subset
  · exact .inr hr

theorem someOf_false {α : Type} {visit : α → List Ref → Bool × List Ref}
    {P : List Ref → α → Prop} (hmono : ∀ {seen seen' a}, seen ⊆ seen' → P seen a → P seen' a)
    (hvisit : ∀ {a seen seen'}, visit a seen = (false, seen') →
      Explores heap seen seen' ∧ P seen' a) {as : List α}
    (h : someOf visit as seen = (false, seen')) :
    Explores heap seen seen' ∧ ∀ a ∈ as, P seen' a := by
  induction as generalizing seen with
  | nil =>
    cases h
    exact ⟨.refl _, by simp⟩
  | cons a as ih =>
    unfold someOf at h
    split at h
    · cases h
    · rename_i mid ha
      obtain ⟨hexplores, hP⟩ := hvisit ha
      obtain ⟨hrest, hall⟩ := ih h
      refine ⟨hexplores.trans hrest, fun b hb => ?_⟩
      rcases List.mem_cons.mp hb with rfl | hb
      · exact hmono hrest.subset hP
      · exact hall b hb

theorem someOf_true {α : Type} {visit : α → List Ref → Bool × List Ref} {as : List α}
    (h : someOf visit as seen = (true, seen')) :
    ∃ a ∈ as, ∃ before after, visit a before = (true, after) := by
  induction as generalizing seen with
  | nil => cases h
  | cons a as ih =>
    unfold someOf at h
    split at h
    · rename_i mid ha
      exact ⟨a, List.mem_cons_self, _, _, ha⟩
    · obtain ⟨b, hb, hvisit⟩ := ih h
      exact ⟨b, List.mem_cons_of_mem _ hb, hvisit⟩

/-- A shape with its entries, as the scan goes through them. -/
theorem visitShape_false {visit : Value Ref → List Ref → Bool × List Ref}
    (hvisit : ∀ {v seen seen'}, visit v seen = (false, seen') →
      Explores heap seen seen' ∧ Clean heap seen' v) {shape : Shape (Value Ref)}
    (h : visitShape visit shape seen = (false, seen')) :
    Explores heap seen seen' ∧ CleanShape heap seen' shape := by
  have hentries : ∀ {keys : Keys} {value : Text → Value Ref},
      someOf (visitEntry visit value) keys.names seen = (false, seen') →
      Explores heap seen seen' ∧ ∀ key ∈ keys.names,
        normalizeKey key ≠ ascii "tenantid" ∧ Clean heap seen' (value key) := by
    intro keys value h
    refine someOf_false (P := fun seen key =>
      normalizeKey key ≠ ascii "tenantid" ∧ Clean heap seen (value key))
      (fun hsub hkey => ⟨hkey.1, hkey.2.mono hsub⟩) ?_ h
    intro key seen seen' hkey
    unfold visitEntry at hkey
    split_ifs at hkey with hname
    · cases hkey
    · obtain ⟨hexplores, hclean⟩ := hvisit hkey
      exact ⟨hexplores, hname, hclean⟩
  cases shape with
  | array items =>
    obtain ⟨hexplores, hall⟩ := someOf_false (P := Clean heap)
      (fun hsub hclean => hclean.mono hsub) (fun hv => hvisit hv) h
    exact ⟨hexplores, by simp [StatesTenant, ownKeys], hall⟩
  | plain keys value =>
    obtain ⟨hexplores, hall⟩ := hentries h
    refine ⟨hexplores, fun hstates => ?_, fun child hchild => ?_⟩
    · obtain ⟨key, hkey, hname⟩ := statesTenant_iff.mp hstates
      exact (hall key hkey).1 hname
    · obtain ⟨key, hkey, rfl⟩ := List.mem_map.mp hchild
      exact (hall key hkey).2
  | other keys value =>
    obtain ⟨hexplores, hall⟩ := hentries h
    refine ⟨hexplores, fun hstates => ?_, fun child hchild => ?_⟩
    · obtain ⟨key, hkey, hname⟩ := statesTenant_iff.mp hstates
      exact (hall key hkey).1 hname
    · obtain ⟨key, hkey, rfl⟩ := List.mem_map.mp hchild
      exact (hall key hkey).2

theorem visitShape_true {visit : Value Ref → List Ref → Bool × List Ref}
    {shape : Shape (Value Ref)} (h : visitShape visit shape seen = (true, seen')) :
    StatesTenant shape ∨ ∃ child ∈ children shape, ∃ before after,
      visit child before = (true, after) := by
  have hentries : ∀ {keys : Keys} {value : Text → Value Ref},
      someOf (visitEntry visit value) keys.names seen = (true, seen') →
      (∃ key ∈ keys.names, normalizeKey key = ascii "tenantid") ∨
        ∃ key ∈ keys.names, ∃ before after, visit (value key) before = (true, after) := by
    intro keys value h
    obtain ⟨key, hkey, before, after, hvisit⟩ := someOf_true h
    unfold visitEntry at hvisit
    split_ifs at hvisit with hname
    · exact .inl ⟨key, hkey, hname⟩
    · exact .inr ⟨key, hkey, before, after, hvisit⟩
  cases shape with
  | array items => exact .inr (someOf_true h)
  | plain keys value =>
    refine (hentries h).imp statesTenant_iff.mpr ?_
    rintro ⟨key, hkey, hvisit⟩
    exact ⟨_, List.mem_map_of_mem hkey, hvisit⟩
  | other keys value =>
    refine (hentries h).imp statesTenant_iff.mpr ?_
    rintro ⟨key, hkey, hvisit⟩
    exact ⟨_, List.mem_map_of_mem hkey, hvisit⟩

variable [DecidableEq Ref]

/-- A search without a finding has explored what it was given. -/
theorem visitAt_false {left : ℕ} {v : Value Ref}
    (h : visitAt heap left v seen = (false, seen')) :
    Explores heap seen seen' ∧ Clean heap seen' v := by
  induction left generalizing v seen seen' with
  | zero =>
    cases v with
    | object shape => cases h
    | reference r => cases h
    | _ => cases h; exact ⟨.refl _, .scalar rfl⟩
  | succ left ih =>
    cases v with
    | object shape =>
      obtain ⟨hexplores, hshape⟩ := visitShape_false ih h
      exact ⟨hexplores, .object hshape.keys hshape.children⟩
    | reference r =>
      unfold visitAt at h
      split_ifs at h with hseen
      · cases h
        exact ⟨.refl _, .seen hseen⟩
      · obtain ⟨hexplores, hshape⟩ := visitShape_false ih h
        have hr : r ∈ seen' := hexplores.subset List.mem_cons_self
        refine ⟨⟨fun s hs => hexplores.subset (List.mem_cons_of_mem _ hs), fun s hs => ?_⟩,
          .seen hr⟩
        obtain hmem | hclean := hexplores.explored s hs
        · rcases List.mem_cons.mp hmem with rfl | hmem
          · exact .inr hshape
          · exact .inl hmem
        · exact .inr hclean
    | _ => cases h; exact ⟨.refl _, .scalar rfl⟩

/-- A finding is a key on the way, or a path that is too long. -/
theorem visitAt_true {left : ℕ} {v : Value Ref}
    (h : visitAt heap left v seen = (true, seen')) :
    (∃ n w shape, Path heap n v w ∧ shapeOf heap w = some shape ∧ StatesTenant shape) ∨
      ∃ w, Path heap left v w ∧ (shapeOf heap w).isSome := by
  induction left generalizing v seen seen' with
  | zero =>
    cases v with
    | object shape => exact .inr ⟨_, .here _, rfl⟩
    | reference r => exact .inr ⟨_, .here _, rfl⟩
    | _ => cases h
  | succ left ih =>
    have hstep : ∀ {shape seen}, shapeOf heap v = some shape →
        visitShape (visitAt heap left) shape seen = (true, seen') →
        (∃ n w shape, Path heap n v w ∧ shapeOf heap w = some shape ∧ StatesTenant shape) ∨
          ∃ w, Path heap (left + 1) v w ∧ (shapeOf heap w).isSome := by
      intro shape seen hshape hvisit
      obtain hkey | ⟨child, hchild, before, after, hvisit⟩ := visitShape_true hvisit
      · exact .inl ⟨0, v, shape, .here v, hshape, hkey⟩
      · obtain ⟨n, w, found, hpath, hfound⟩ | ⟨w, hpath, hw⟩ := ih hvisit
        · exact .inl ⟨n + 1, w, found, .into hshape hchild hpath, hfound⟩
        · exact .inr ⟨w, .into hshape hchild hpath, hw⟩
    cases v with
    | object shape => exact hstep rfl h
    | reference r =>
      unfold visitAt at h
      split_ifs at h with hseen
      · cases h
      · exact hstep rfl h
    | _ => cases h

end Search

section Graph

variable {heap : Heap Ref} {input : Value Ref}

/-- Within what is explored, no path leads to a key that states a tenant identity. -/
theorem carriesNoTenant_of_clean {seen : List Ref}
    (hseen : ∀ r ∈ seen, CleanShape heap seen (heap r)) (hinput : Clean heap seen input) :
    CarriesNoTenant heap input := by
  have hshape : ∀ {v shape}, Clean heap seen v → shapeOf heap v = some shape →
      CleanShape heap seen shape := by
    intro v shape hv h
    cases hv with
    | scalar hnone =>
      rw [hnone] at h
      cases h
    | seen hr =>
      cases h
      exact hseen _ hr
    | object hkeys hchildren =>
      cases h
      exact ⟨hkeys, hchildren⟩
  intro n w shape hpath hw
  induction hpath with
  | here v => exact (hshape hinput hw).keys
  | into hv hchild _ ih => exact ih ((hshape hinput hv).children _ hchild) hw

variable [DecidableEq Ref]

theorem carriesNoTenant_of_scan (h : containsTenantIdentity heap input = false) :
    CarriesNoTenant heap input := by
  unfold containsTenantIdentity at h
  obtain ⟨hexplores, hclean⟩ := visitAt_false (Prod.ext h rfl)
  exact carriesNoTenant_of_clean
    (fun r hr => (hexplores.explored r hr).resolve_left (List.not_mem_nil)) hclean

theorem nests_or_states_of_scan (h : containsTenantIdentity heap input = true) :
    ¬ CarriesNoTenant heap input ∨ NestsTooDeeply heap input := by
  unfold containsTenantIdentity at h
  obtain ⟨n, w, shape, hpath, hw, hstates⟩ | hdeep := visitAt_true (Prod.ext h rfl)
  · exact .inl fun hnone => hnone n w shape hpath hw hstates
  · exact .inr hdeep

end Graph

section Gates

variable [DecidableEq Ref] {E K Result : Type}

theorem assertNoTenantIdentity_eq_ok {heap : Heap Ref} {input : Value Ref} {correlationId : String}
    {u : Unit} (h : assertNoTenantIdentity heap input correlationId = .ok u) :
    CarriesNoTenant heap input := by
  have hscan := refuseIf_eq_ok_iff.mp h
  exact carriesNoTenant_of_scan (by simpa using hscan)

theorem assertNoTenantIdentity_eq_error {heap : Heap Ref} {input : Value Ref}
    (h : ¬ CarriesNoTenant heap input) (correlationId : String) :
    ∃ e, assertNoTenantIdentity heap input correlationId = .error e := by
  cases hassert : assertNoTenantIdentity heap input correlationId with
  | error e => exact ⟨e, rfl⟩
  | ok u => exact absurd (assertNoTenantIdentity_eq_ok hassert) h

/-- The handler of a tenant command never sees such a payload. -/
theorem defineTenantCommand_refuses {heap : Heap Ref} {input : Value Ref}
    (h : ¬ CarriesNoTenant heap input) (current : Except Failure TenantContext) :
    ∃ e, ∀ handler : TenantContext → Value Ref → Except Failure Result,
      defineTenantCommand heap handler current input = .error e := by
  cases current with
  | error e => exact ⟨e, fun _ => rfl⟩
  | ok context =>
    obtain ⟨e, he⟩ := assertNoTenantIdentity_eq_error h context.correlationId
    refine ⟨e, fun handler => ?_⟩
    unfold defineTenantCommand
    rw [Except.ok_bind, he]
    rfl

theorem carriesNoTenant_of_prepare {dependencies : ExecutorDependencies} {call : Call E K Ref}
    {claim : ClaimInput} (h : prepare dependencies call = .ok claim) :
    CarriesNoTenant call.heap call.request.payload := by
  unfold prepare at h
  simp only [Except.bind_eq_ok_iff] at h
  obtain ⟨_, -, _, -, _, -, _, hscan, -⟩ := h
  exact assertNoTenantIdentity_eq_ok hscan

/-- The executor throws before its transaction. -/
theorem executeUntraced_refuses (dependencies : ExecutorDependencies) {call : Call E K Ref}
    (h : ¬ CarriesNoTenant call.heap call.request.payload) :
    ∃ e, executeUntraced dependencies call = .throw e := by
  unfold executeUntraced
  cases hprepare : prepare dependencies call with
  | error e => exact ⟨e, rfl⟩
  | ok claim => exact absurd (carriesNoTenant_of_prepare hprepare) h

theorem carriesNoTenant_of_checkData {heap : Heap Ref} {data : Value Ref} {correlationId : String}
    {u : Unit} (h : checkData heap data correlationId = .ok u) : CarriesNoTenant heap data := by
  refine carriesNoTenant_of_scan ?_
  by_contra hfound
  rw [Bool.not_eq_false] at hfound
  unfold checkData at h
  simp only [hfound, if_true] at h
  split_ifs at h
  · cases h
  · obtain ⟨_, -, h⟩ := Except.bind_eq_ok_iff.mp h
    cases h

theorem carriesNoTenant_of_event {heap : Heap Ref} {context : EventScope} {input : EventInput Ref}
    {newEventId : String} {recorded : Option Date.Instant} {envelope : EventEnvelope (Value Ref)}
    (h : buildEventEnvelopeFor heap context input newEventId recorded = .ok envelope) :
    CarriesNoTenant heap envelope.data := by
  unfold buildEventEnvelopeFor at h
  simp only [Except.bind_eq_ok_iff, Except.mapError_eq_ok_iff] at h
  obtain ⟨_, -, _, hdata, _, -, h⟩ := h
  cases h
  exact carriesNoTenant_of_checkData hdata

end Gates

/-- The scan is sound on every graph, and so are the gates that use it. -/
theorem tenant_identity_scan_sound [DecidableEq Ref] {E K Result : Type} :
    (∀ (heap : Heap Ref) (input : Value Ref),
      (containsTenantIdentity heap input = false → CarriesNoTenant heap input) ∧
      (containsTenantIdentity heap input = true →
        ¬ CarriesNoTenant heap input ∨ NestsTooDeeply heap input)) ∧
    (∀ (heap : Heap Ref) (input : Value Ref) current, ¬ CarriesNoTenant heap input →
      ∃ e, ∀ handler : TenantContext → Value Ref → Except Failure Result,
        defineTenantCommand heap handler current input = .error e) ∧
    (∀ dependencies (call : Call E K Ref), ¬ CarriesNoTenant call.heap call.request.payload →
      ∃ e, executeUntraced dependencies call = .throw e) ∧
    ∀ (heap : Heap Ref) context (input : EventInput Ref) newEventId recorded envelope,
      buildEventEnvelopeFor heap context input newEventId recorded = .ok envelope →
      CarriesNoTenant heap envelope.data :=
  ⟨fun _ _ => ⟨carriesNoTenant_of_scan, nests_or_states_of_scan⟩,
    fun _ _ current h => defineTenantCommand_refuses h current,
    fun dependencies _ h => executeUntraced_refuses dependencies h,
    fun _ _ _ _ _ _ => carriesNoTenant_of_event⟩

end Sintius.Payload
