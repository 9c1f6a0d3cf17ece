import Mathlib
import Sintius.Lib.Date
import Sintius.Lib.Digits
import Sintius.Lib.Double
import Sintius.Lib.Except
import Sintius.Lib.NumberText
import Sintius.Lib.Programs
import Sintius.Lib.Text
import Sintius.Lib.Transaction
import Sintius.Lib.Uri
import Sintius.Lib.Utf16
import Sintius.Spec.Problem
import Sintius.Spec.TenantContext
import Sintius.Spec.Authentication
import Sintius.Spec.Canonical
import Sintius.Spec.Idempotency
import Sintius.Spec.Tenant
import Sintius.Spec.Roles
import Sintius.Spec.Ingress
import Sintius.Spec.Server
import Sintius.Sanity.Identity
import Sintius.Sanity.Ledger
import Sintius.Sanity.Writes
import Sintius.Proofs.Authentication
import Sintius.Proofs.Canonical
import Sintius.Proofs.Evidence
import Sintius.Proofs.Isolation
import Sintius.Proofs.Identity
import Sintius.Proofs.Lifecycle

/-! Tenant changes over HTTP. However requests interleave, the changes of a tenant are
answered with entity tags `"1"`, `"2"`, … in the order they are made in, and every
change has named, in `If-Match`, the tag of the change before it. -/

namespace Sintius.Api

open Js Js.Date Sintius.Canonical Sintius.Tenancy Sintius.Identity Sintius.Idempotency Sql

section EntityTags

/-- The tag of a version, as a header may name it. -/
def Names (header : HeaderValue) (tag : String) : Prop :=
  ∃ text, header.singleHeader = some text ∧ (trim text = tag ∨ trim text = "W/" ++ tag)

theorem toList_etag (n : ℕ) : (etag n).toList = '"' :: (Nat.toDigits 10 n ++ ['"']) := by
  have hdigits : toString (n : ℤ) = String.ofList (Nat.toDigits 10 n) := rfl
  rw [etag, hdigits]
  simp [String.toList_append]

theorem magnitude_evenCode_ge (n : ℕ) :
    2 ^ 53 * 2 ^ 1074 ≤ magnitude (1076 * 2 ^ 52 + (evenHalf n - 2 ^ 52)) := by
  have hleast : magnitude (1076 * 2 ^ 52) = 2 ^ 53 * 2 ^ 1074 := by
    unfold magnitude
    rw [if_neg (by norm_num), Nat.mul_div_cancel _ (by norm_num), Nat.mul_mod_left, Nat.add_zero,
      ← pow_add, ← pow_add]
  rw [← hleast]
  exact magnitude_strictMono.monotone (Nat.le_add_right _ _)

/-- Below `2 ^ 53`, digits are read as their value. -/
theorem integer?_numberOfDigits {n v : ℕ} (hv : v < 2 ^ 53)
    (h : (numberOfDigits n).integer? = some (v : ℤ)) : n = v := by
  unfold numberOfDigits at h
  split_ifs at h with hsmall hlarge
  · rw [Number.integer?_ofNat] at h
    exact_mod_cast Option.some.inj h
  · exfalso
    have hge := magnitude_evenCode_ge n
    unfold Number.integer? at h
    dsimp only at h
    split at h
    case isFalse => cases h
    have hdiv : 2 ^ 53 ≤ magnitude (1076 * 2 ^ 52 + (evenHalf n - 2 ^ 52)) / 2 ^ 1074 :=
      (Nat.le_div_iff_mul_le (by positivity)).mpr hge
    have heq : magnitude (1076 * 2 ^ 52 + (evenHalf n - 2 ^ 52)) / 2 ^ 1074 = v := by
      have hvalue := Option.some.inj h
      rw [if_neg Bool.false_ne_true, one_mul] at hvalue
      exact_mod_cast hvalue
    omega
  · cases h

theorem IF_MATCH_quoted {first : Char} {rest digits : List Char}
    (h : (if first.isDigit = true ∧ first ≠ '0' ∧
        (first :: rest.takeWhile Char.isDigit).length ≤ 16 ∧
        rest.dropWhile Char.isDigit = ['"'] then some (first :: rest.takeWhile Char.isDigit)
      else none) = some digits) :
    Digits.Canonical digits ∧ first :: rest = digits ++ ['"'] := by
  split_ifs at h with hmatch
  cases h
  obtain ⟨hfirst, hzero, -, hrest⟩ := hmatch
  refine ⟨⟨fun c hc => ?_, .inr ⟨first, _, rfl, hzero⟩⟩, ?_⟩
  · rcases List.mem_cons.mp hc with rfl | hc
    · exact hfirst
    · exact List.mem_takeWhile_imp hc
  · rw [List.cons_append, ← hrest, List.takeWhile_append_dropWhile]

/-- What the pattern reads is the digits of a version, in quotes. -/
theorem IF_MATCH_eq_some {text digits : List Char} (h : IF_MATCH text = some digits) :
    Digits.Canonical digits ∧ (text = '"' :: (digits ++ ['"']) ∨
      text = 'W' :: '/' :: '"' :: (digits ++ ['"'])) := by
  unfold IF_MATCH at h
  split at h
  · next first rest heq =>
    obtain ⟨hcanonical, hrest⟩ := IF_MATCH_quoted h
    refine ⟨hcanonical, ?_⟩
    split at heq
    · exact .inr (by rw [heq, hrest])
    · exact .inl (by rw [heq, hrest])
  · cases h

/-- A version that is expected is named by its tag, weak or strong. -/
theorem names_of_expectedVersionOf {header : HeaderValue} {expected : Number} {v : ℕ}
    (hv : v < 2 ^ 53) (h : expectedVersionOf header.singleHeader = .ok expected)
    (hexpected : expected.integer? = some (v : ℤ)) : Names header (etag v) := by
  unfold expectedVersionOf at h
  split at h
  · next digits hdigits =>
    cases h
    obtain ⟨text, htext, hmatch⟩ := Option.bind_eq_some_iff.mp hdigits
    obtain ⟨hcanonical, hquoted⟩ := IF_MATCH_eq_some hmatch
    have hvalue : Digits.value digits = v := integer?_numberOfDigits hv hexpected
    have hlist : Nat.toDigits 10 v = digits := hvalue ▸ Digits.toDigits_value hcanonical
    refine ⟨text, htext, hquoted.imp (fun heq => ?_) fun heq => ?_⟩
    · rw [← String.toList_inj, heq, toList_etag, hlist]
    · rw [← String.toList_inj, heq, String.toList_append, toList_etag, hlist]
      rfl
  · cases h

theorem IF_MATCH_of_quoted {first : Char} {digits : List Char}
    (hdigit : ∀ c ∈ first :: digits, c.isDigit = true) (hfirst : first ≠ '0')
    (hlength : (first :: digits).length ≤ 16) :
    IF_MATCH ('"' :: first :: (digits ++ ['"'])) = some (first :: digits) ∧
      IF_MATCH ('W' :: '/' :: '"' :: first :: (digits ++ ['"'])) = some (first :: digits) := by
  have hquote : Char.isDigit '"' = false := by decide
  have hrest : ∀ c ∈ digits, c.isDigit = true :=
    fun c hc => hdigit c (List.mem_cons_of_mem _ hc)
  have htake : (digits ++ ['"']).takeWhile Char.isDigit = digits := by
    rw [List.takeWhile_append_of_pos hrest, List.takeWhile_cons_of_neg (by simp [hquote]),
      List.append_nil]
  have hdrop : (digits ++ ['"']).dropWhile Char.isDigit = ['"'] := by
    rw [List.dropWhile_append_of_pos hrest, List.dropWhile_cons_of_neg (by simp [hquote])]
  have hquoted : (if first.isDigit = true ∧ first ≠ '0' ∧
      (first :: (digits ++ ['"']).takeWhile Char.isDigit).length ≤ 16 ∧
      (digits ++ ['"']).dropWhile Char.isDigit = ['"'] then
        some (first :: (digits ++ ['"']).takeWhile Char.isDigit) else none) =
      some (first :: digits) := by
    rw [htake, hdrop, if_pos ⟨hdigit first List.mem_cons_self, hfirst, hlength, rfl⟩]
  exact ⟨hquoted, hquoted⟩

/-- The tag of a version, sent back, is read as the version. -/
theorem expectedVersionOf_of_names {header : HeaderValue} {v : ℕ} (hpos : 0 < v)
    (hv : v < 2 ^ 53) (h : Names header (etag v)) :
    expectedVersionOf header.singleHeader = .ok (versionNumber v) := by
  obtain ⟨text, htext, hnames⟩ := h
  have hcanonical := Digits.canonical_toDigits v
  have hvalue : Digits.value (Nat.toDigits 10 v) = v := Nat.ofDigitChars_ten_toDigits
  have hlength : (Nat.toDigits 10 v).length ≤ 16 :=
    (Nat.length_toDigits_le_iff (by decide) (by decide)).mpr (hv.trans (by norm_num))
  have hmatch : IF_MATCH (trim text).toList = some (Nat.toDigits 10 v) := by
    obtain ⟨hdigit, hzero | ⟨first, digits, hdigits, hfirst⟩⟩ := hcanonical
    · rw [hzero] at hvalue
      exact absurd hvalue.symm hpos.ne'
    · rw [hdigits] at hdigit hlength ⊢
      obtain ⟨hstrong, hweak⟩ := IF_MATCH_of_quoted hdigit hfirst hlength
      obtain htag | htag := hnames
      · rw [htag, toList_etag, hdigits]
        exact hstrong
      · rw [htag, String.toList_append, toList_etag, hdigits]
        exact hweak
  unfold expectedVersionOf
  rw [htext, Option.bind_some, hmatch]
  dsimp only
  rw [hvalue, numberOfDigits, dif_pos hv, versionNumber, dif_pos hv]

end EntityTags

section Stored

variable {tenant : TenantSnapshot} {status : Number} {scope : TrustedExecutionScope}
  {stored : StoredResponse}

theorem not_canonicalJson_nan (heap : Heap Empty) {properties : List (Text × Value Empty)}
    {key : Text} (hkey : key ∈ properties.map Prod.fst)
    (hnan : (properties.lookup key).getD .undefined = .number .nan) {text : Text} :
    canonicalJson heap (literal properties) ≠ .ok text := by
  intro h
  have hshape : canonicalShape (canonicalAt heap MAX_DEPTH)
      (.plain ⟨(properties.map Prod.fst).dedup, List.nodup_dedup _⟩
        fun key => (properties.lookup key).getD .undefined) = .ok text := h
  have haccepted := exists_canonicalShape_iff.mp ⟨text, hshape⟩ key (List.mem_dedup.mpr hkey)
  dsimp only at haccepted
  rw [hnan] at haccepted
  obtain ⟨_, hnumber⟩ := haccepted rfl
  cases hnumber

/-- The members of a stored tenant. -/
def tenantDocument (tenant : TenantSnapshot) (version : ℚ) : Json :=
  document [
    (ascii "id", some (.string (units tenant.id))),
    (ascii "display_name", some (.string (units tenant.displayName))),
    (ascii "state", some (.string (ascii (stateText tenant.state)))),
    (ascii "version", some (.number version)),
    (ascii "created_at", some (.string (units (toISOString tenant.createdAt)))),
    (ascii "updated_at", some (.string (units (toISOString tenant.updatedAt))))]

theorem stored_of_storedTenant
    (h : storedResponse scope (storedTenant tenant status) = .ok stored) :
    tenant.version < 2 ^ 53 ∧ stored.body = tenantDocument tenant tenant.version := by
  obtain ⟨_, -, h⟩ := Except.bind_eq_ok_iff.mp h
  obtain ⟨text, htext, h⟩ := Except.bind_eq_ok_iff.mp h
  cases h
  have hversion : tenant.version < 2 ^ 53 := by
    by_contra hlarge
    have hnan : versionNumber tenant.version = .nan := dif_neg hlarge
    have hkey : ascii "version" ∈ [ascii "id", ascii "display_name", ascii "state",
        ascii "version", ascii "created_at", ascii "updated_at"] := by simp
    refine not_canonicalJson_nan Empty.elim hkey ?_ htext
    exact congrArg Value.number hnan
  refine ⟨hversion, ?_⟩
  have hbody : DenotesAt (Empty.elim : Heap Empty) 2 (storedTenant tenant status).body
      (tenantDocument tenant (Double.value ⟨false, _, Double.ofNatCode_lt hversion⟩)) := by
    unfold storedTenant versionNumber
    rw [dif_pos hversion]
    exact denotesAt_literal <|
      .cons ⟨rfl, denotesProperty_string _⟩ <|
      .cons ⟨rfl, denotesProperty_string _⟩ <|
      .cons ⟨rfl, denotesProperty_string _⟩ <|
      .cons ⟨rfl, denotesProperty_of_denotesAt rfl⟩ <|
      .cons ⟨rfl, denotesProperty_string _⟩ <|
      .cons ⟨rfl, denotesProperty_string _⟩ .nil
  have hvalue :
      Double.value ⟨false, _, Double.ofNatCode_lt hversion⟩ = (tenant.version : ℚ) := by
    have hone : (2 : ℚ) ^ 1074 ≠ 0 := by positivity
    rw [Double.value, magnitude_ofNatCode hversion, if_neg Bool.false_ne_true, one_mul,
      Nat.cast_mul, Nat.cast_pow, Nat.cast_ofNat, mul_div_cancel_right₀ _ hone]
  rw [hvalue] at hbody
  exact congrArg (Option.getD · Json.null) (stringify_of_denotes htext ⟨2, hbody⟩)

/-- What the response says of a tenant. -/
def representation (tenant : TenantSnapshot) : TenantRepresentation where
  id := units tenant.id
  displayName := units tenant.displayName
  state := tenant.state
  version := tenant.version
  createdAt := units (toISOString tenant.createdAt)
  updatedAt := units (toISOString tenant.updatedAt)

theorem stateOfText_stateText (state : TenantState) :
    stateOfText (ascii (stateText state)) = some state := by
  cases state <;> decide +kernel

theorem readTenant_tenantDocument (tenant : TenantSnapshot) :
    readTenant (tenantDocument tenant tenant.version) = some (representation tenant) := by
  have hread : readTenant (tenantDocument tenant tenant.version) =
      if (tenant.version : ℚ).isInt = true then
        (stateOfText (ascii (stateText tenant.state))).map fun state =>
          ⟨units tenant.id, units tenant.displayName, state, (tenant.version : ℚ).num,
            units (toISOString tenant.createdAt), units (toISOString tenant.updatedAt)⟩
      else none := rfl
  have hint : (tenant.version : ℚ).isInt = true := by simp [Rat.isInt]
  rw [hread, if_pos hint, stateOfText_stateText, Option.map_some, Rat.num_natCast]
  rfl

theorem tenantFromStored_tenantDocument {correlationId : String}
    (hid : tenantId tenant.id = .ok tenant.id)
    (hbody : stored.body = tenantDocument tenant tenant.version) :
    tenantFromStored stored tenant.id correlationId = .ok (representation tenant) := by
  unfold tenantFromStored
  rw [hbody, readTenant_tenantDocument]
  have hsame : (some (representation tenant)).filter (·.id = units tenant.id) =
      some (representation tenant) := by
    simp [representation]
  rw [hsame]
  exact Except.bind_eq_ok_iff.mpr ⟨_, hid, rfl⟩

end Stored

section Replies

variable {dependencies : CommandDependencies} {context : PlatformCommandContext}
  {key : Option Text} {env : CommandEnvironment} {result : IdempotentResult}
  {change : Store IdentityDb → Store IdentityDb}

/-- What a command that was executed stored of the tenant that it wrote. -/
structure Stores (t : TenantId) (result : IdempotentResult) (tenant : TenantSnapshot) : Prop where
  id : tenant.id = t
  valid : tenantId t = .ok t
  version : tenant.version < 2 ^ 53
  body : result.response.body = tenantDocument tenant tenant.version

/-- A command that is answered, from its work or from a record, was authorized. -/
theorem authorized_of_produces {t : TenantId} {scope : String} {payload : Value Empty}
    {work : IdentityTx (WorkResponse Empty)}
    (h : (executeIdempotently dependencies context
      (platformCall context t env scope key payload work)).Produces result change) :
    env.authorized = .ok () := by
  obtain ⟨_, -, h⟩ := Tx.produces_lift_bind h
  obtain ⟨⟨input, hprepare⟩, -⟩ := produces_executeUntraced h
  have hadmitted := Admitted.of_prepare hprepare
  obtain ⟨_, -, hauthorized⟩ := Except.bind_eq_ok_iff.mp hadmitted.authorized
  exact hauthorized

theorem produces_executeIdempotently {t : TenantId} {scope : String} {payload : Value Empty}
    {work : IdentityTx (WorkResponse Empty)} (hexecuted : result.replayed = false)
    (h : (executeIdempotently dependencies context
      (platformCall context t env scope key payload work)).Produces result change) :
    ∃ response part, work.Produces response part ∧
      storedResponse ⟨t, context.correlationId⟩ response = .ok result.response := by
  obtain ⟨_, -, h⟩ := Tx.produces_lift_bind h
  obtain ⟨-, ⟨hreplayed, -⟩ | ⟨response, part, stored, hwork, hstored, rfl, -⟩⟩ :=
    produces_executeUntraced h
  · rw [hexecuted] at hreplayed
    cases hreplayed
  · exact ⟨response, part, hwork, hstored⟩

/-- A tenant is stored as it was provisioned. -/
theorem stores_provision {input : ProvisionTenantInput} (hexecuted : result.replayed = false)
    (h : (program dependencies (.provision context input key env)).Produces (.tenant result)
      change) :
    ∃ tenant, Stores input.tenantId result tenant ∧ tenant.state = .PROVISIONING ∧
      tenant.version = 1 := by
  obtain ⟨result', _, _, hprovision, hdone, -⟩ := Tx.produces_bind h
  obtain ⟨hreply, -⟩ := Tx.produces_done hdone
  cases hreply
  obtain ⟨prepared, hprepare, hexecute⟩ := Tx.produces_lift_bind hprovision
  obtain ⟨response, part, hwork, hstored⟩ := produces_executeIdempotently hexecuted hexecute
  unfold prepareProvision at hprepare
  simp only [Except.bind_eq_ok_iff] at hprepare
  obtain ⟨t, ht, administrator, -, tenantChange, hchange, _, -, _, -, hprepare⟩ := hprepare
  cases hprepare
  obtain rfl := requireNonBlank_eq_ok ht
  obtain ⟨hid, hstate, hversion, -⟩ := provisionTenant_eq_ok hchange
  obtain ⟨_, _, _, -, hwork, -⟩ := Tx.produces_bind hwork
  obtain ⟨_, _, _, -, hwork, -⟩ := Tx.produces_bind hwork
  obtain ⟨_, _, _, -, hwork, -⟩ := Tx.produces_bind hwork
  obtain ⟨_, _, _, -, hwork, -⟩ := Tx.produces_bind hwork
  obtain ⟨_, _, _, -, hwork, -⟩ := Tx.produces_bind hwork
  obtain ⟨_, _, _, -, hwork, -⟩ := Tx.produces_bind hwork
  obtain ⟨rfl, -⟩ := Tx.produces_done hwork
  obtain ⟨hbound, hbody⟩ := stored_of_storedTenant hstored
  exact ⟨tenantChange.tenant, ⟨hid, ht, hbound, hbody⟩, hstate, hversion⟩

/-- A tenant is stored with the version after the one that was expected. -/
theorem stores_transition {command : LifecycleCommand} {input : TenantLifecycleInput}
    (hexecuted : result.replayed = false)
    (h : (program dependencies (.lifecycle command context input key env)).Produces
      (.tenant result) change) :
    ∃ (tenant : TenantSnapshot) (version : ℕ), Stores input.tenantId result tenant ∧
      tenant.state = command.target.state ∧
      input.expectedVersion.integer? = some (version : ℤ) ∧ tenant.version = version + 1 := by
  obtain ⟨result', _, _, htransition, hdone, -⟩ := Tx.produces_bind h
  obtain ⟨hreply, -⟩ := Tx.produces_done hdone
  cases hreply
  obtain ⟨_, -, htransition⟩ := Tx.produces_lift_bind htransition
  obtain ⟨t, ht, hexecute⟩ := Tx.produces_lift_bind htransition
  obtain rfl := requireNonBlank_eq_ok ht
  obtain ⟨response, part, hwork, hstored⟩ := produces_executeIdempotently hexecuted hexecute
  obtain ⟨found, _, _, -, hwork, -⟩ := Tx.produces_bind hwork
  cases found with
  | none =>
    obtain ⟨hrefused, -⟩ := Tx.produces_lift hwork
    cases hrefused
  | some current =>
    obtain ⟨tenantChange, hchange, hwork⟩ := Tx.produces_lift_bind hwork
    obtain ⟨_, _, _, hupdate, hwork, -⟩ := Tx.produces_bind hwork
    obtain ⟨_, _, _, -, hwork, -⟩ := Tx.produces_bind hwork
    obtain ⟨_, -, hwork⟩ := Tx.produces_lift_bind hwork
    obtain ⟨_, _, _, -, hwork, -⟩ := Tx.produces_bind hwork
    obtain ⟨rfl, -⟩ := Tx.produces_done hwork
    -- the row is written under the tenant that the transaction is bound to
    obtain ⟨_, hbound, -⟩ := Tx.produces_lift_bind hupdate
    have hid : tenantChange.tenant.id = input.tenantId := by
      simpa [assertTenantMatch, throwIf_eq_ok_iff] using hbound
    obtain ⟨hexpected, -, -, hstate, hversion, -⟩ := transitionTenant_eq_ok hchange
    obtain ⟨hsafe, hbody⟩ := stored_of_storedTenant hstored
    exact ⟨tenantChange.tenant, current.version, ⟨hid, ht, hsafe, hbody⟩, hstate, hexpected,
      hversion⟩

end Replies

section Exchanges

variable {other : String → Option ℤ} {providerId : String}

/-- A request and its answer. -/
abbrev Exchange (other : String → Option ℤ) (providerId : String) :=
  Accepted other providerId × Except Failure HttpResponse

/-- The exchange of a commit that changed this tenant; a replay changed nothing. -/
def changeOf (t : TenantId) (entry : ServerCall other providerId × Reply) :
    Option (Exchange other providerId) :=
  match entry with
  | (.platform call, .tenant result) =>
    if call.request.route.tenantId = t ∧ result.replayed = false then
      some (call, answer call (.ok result))
    else none
  | _ => none

def changesOf (t : TenantId) (history : List (ServerCall other providerId × Reply)) :
    List (Exchange other providerId) :=
  history.filterMap (changeOf t)

/-- A change is answered with the tag and the state of the row that it wrote. -/
structure Answers (e : Exchange other providerId) (row : TenantSnapshot) : Prop where
  answered : ∃ response, e.2 = .ok response ∧ response.etag = etag row.version ∧
    response.body.version = row.version ∧ response.body.state = row.state

/-- The changes of a tenant, each of which has named the tag of the one before it. -/
inductive Chained : List (Exchange other providerId) → Option TenantSnapshot → Prop
  | absent : Chained [] none
  | provisioned {e : Exchange other providerId} {row : TenantSnapshot}
      (hroute : ∃ tenant_id display_name administrator,
        e.1.request.route = .provision tenant_id display_name administrator)
      (hversion : row.version = 1) (hanswers : Answers e row) : Chained [e] (some row)
  | changed {es : List (Exchange other providerId)} {e : Exchange other providerId}
      {row row' : TenantSnapshot} (h : Chained es (some row))
      (hnames : Names e.1.request.ifMatch (etag row.version))
      (hversion : row'.version = row.version + 1) (hanswers : Answers e row') :
      Chained (es ++ [e]) (some row')

/-- Who a request was accepted from. -/
structure AcceptedFrom (call : Accepted other providerId) (context : PlatformCommandContext) :
    Prop where
  principal : ∃ principal, authenticate other providerId call.request call.arrival = .ok principal ∧
    platformContext other principal call.request call.arrival = .ok context

theorem accepted_provision {call : Accepted other providerId} {t name administrator : String}
    (hroute : call.request.route = .provision t name administrator) :
    ∃ context key, AcceptedFrom call context ∧
      call.command = .provision context ⟨t, name, administrator⟩ key
        (call.arrival.environment context "platform:tenant:provision") := by
  have h := call.accepted
  unfold accept at h
  obtain ⟨principal, hprincipal, h⟩ := Except.bind_eq_ok_iff.mp h
  rw [hroute] at h
  obtain ⟨context, hcontext, h⟩ := Except.bind_eq_ok_iff.mp h
  exact ⟨context, _, ⟨principal, hprincipal, hcontext⟩, (Except.ok.inj h).symm⟩

theorem accepted_lifecycle {call : Accepted other providerId} {command : LifecycleCommand}
    {t : String} {reason : Option String}
    (hroute : call.request.route = .lifecycle command t reason) :
    ∃ context expected key, AcceptedFrom call context ∧
      expectedVersionOf call.request.ifMatch.singleHeader = .ok expected ∧
      call.command = .lifecycle command context ⟨t, expected, reason⟩ key
        (call.arrival.environment context "platform:tenant:lifecycle") := by
  have h := call.accepted
  unfold accept at h
  obtain ⟨principal, hprincipal, h⟩ := Except.bind_eq_ok_iff.mp h
  rw [hroute] at h
  obtain ⟨expected, hexpected, h⟩ := Except.bind_eq_ok_iff.mp h
  obtain ⟨context, hcontext, h⟩ := Except.bind_eq_ok_iff.mp h
  exact ⟨context, expected, _, ⟨principal, hprincipal, hcontext⟩, hexpected,
    (Except.ok.inj h).symm⟩

variable {call : Accepted other providerId} {result : IdempotentResult} {tenant : TenantSnapshot}

/-- What was stored is what is answered. -/
theorem exists_answer (h : Stores call.request.route.tenantId result tenant) :
    ∃ response, answer call (.ok result) = .ok response ∧ response.etag = etag tenant.version ∧
      response.body = representation tenant := by
  have hread : tenantFromStored result.response call.request.route.tenantId
      call.trace.correlationId = .ok (representation tenant) := by
    rw [← h.id]
    exact tenantFromStored_tenantDocument (h.id ▸ h.valid) h.body
  unfold answer
  cases hroute : call.request.route with
  | provision t name administrator =>
    obtain ⟨id, hlocation⟩ := exists_encodeURIComponent (wellFormed_units tenant.id)
    have hlocation' : encodeURIComponent (representation tenant).id = some id := hlocation
    refine ⟨⟨201, _, some (ascii "/v1/platform/tenants/" ++ id), representation tenant⟩, ?_, rfl,
      rfl⟩
    rw [hroute] at hread
    simp only [Except.ok_bind, respond, hroute, hread, hlocation']
    rfl
  | lifecycle command t reason =>
    refine ⟨⟨200, _, none, representation tenant⟩, ?_, rfl, rfl⟩
    rw [hroute] at hread
    simp only [Except.ok_bind, respond, hroute, hread]
    rfl

variable {t : TenantId} {history : List (ServerCall other providerId × Reply)}
  {dependencies : CommandDependencies} {change : Store IdentityDb → Store IdentityDb}
  {d d' : IdentityDb} {reply : Reply} {es : List (Exchange other providerId)}

theorem changesOf_append (entry : ServerCall other providerId × Reply) :
    changesOf t (history ++ [entry]) = changesOf t history ++ (changeOf t entry).toList := by
  rw [changesOf, List.filterMap_append]
  cases h : changeOf t entry <;> simp [changesOf, h]

theorem Chained.eq_nil (h : Chained es none) : es = [] := by
  cases h
  rfl

/-- What is not a change of the tenant leaves the chain as it is. -/
theorem Chained.skip {call : ServerCall other providerId}
    (h : Chained (changesOf t history) (d.tenant t)) (hother : changeOf t (call, reply) = none)
    (hsame : d'.tenant t = d.tenant t) :
    Chained (changesOf t (history ++ [(call, reply)])) (d'.tenant t) := by
  rw [changesOf_append, hother, hsame]
  simpa using h

theorem Chained.provision {context : PlatformCommandContext} {key : Option Text}
    {env : CommandEnvironment} {t' name administrator : String}
    (hroute : call.request.route = .provision t' name administrator)
    (h : Chained (changesOf t history) (d.tenant t))
    (heffect : Effect (.provision context ⟨t', name, administrator⟩ key env) reply d d')
    (hproduces : (program dependencies
      (.provision context ⟨t', name, administrator⟩ key env)).Produces reply change) :
    Chained (changesOf t (history ++ [(.platform call, reply)])) (d'.tenant t) := by
  cases heffect with
  | replayed => exact h.skip (by simp [changeOf]) rfl
  | @provisioned _ _ _ _ response _ row role administrator policies event entry _ hnone hid hstate
      hversion =>
    obtain ⟨approval_policy, hpolicies⟩ := exists_setPolicies (((d.setTenant row).setRole
      (t', ADMINISTRATOR_ROLE) role).addAssignment ⟨t', administrator, ADMINISTRATOR_ROLE, .active⟩)
      t' policies
    dsimp only at hnone hid ⊢
    rw [hpolicies]
    by_cases ht : t' = t
    · subst ht
      obtain ⟨tenant, hstores, htenantState, htenantVersion⟩ := stores_provision rfl hproduces
      have hstores' : Stores call.request.route.tenantId ⟨response, false⟩ tenant := by
        rw [hroute]
        exact hstores
      obtain ⟨answered, hanswer, htag, hbody⟩ := exists_answer hstores'
      have hrow : (d.setTenant row).tenant t' = some row := by
        rw [← hid]
        exact Function.update_self _ _ _
      have hchange : changeOf t' (.platform call, .tenant ⟨response, false⟩) =
          some (call, answer call (.ok ⟨response, false⟩)) := by
        simp [changeOf, hroute, PlatformRoute.tenantId]
      rw [hnone] at h
      rw [changesOf_append, h.eq_nil, hchange]
      refine hrow ▸ .provisioned ⟨_, _, _, hroute⟩ hversion ⟨answered, hanswer, ?_, ?_, ?_⟩
      · rw [htag, htenantVersion, hversion]
      · rw [hbody, hversion]
        exact congrArg Nat.cast htenantVersion
      · rw [hbody, hstate]
        exact htenantState
    · have hchange : changeOf t (.platform call, .tenant ⟨response, false⟩) = none := by
        simp [changeOf, hroute, PlatformRoute.tenantId, ht]
      exact h.skip hchange (Function.update_of_ne (by rw [hid]; exact Ne.symm ht) _ _)

theorem Chained.lifecycle {command : LifecycleCommand} {context : PlatformCommandContext}
    {expected : Number} {key : Option Text} {env : CommandEnvironment} {t' : String}
    {reason : Option String} (hroute : call.request.route = .lifecycle command t' reason)
    (hmatch : expectedVersionOf call.request.ifMatch.singleHeader = .ok expected)
    (h : Chained (changesOf t history) (d.tenant t))
    (heffect : Effect (.lifecycle command context ⟨t', expected, reason⟩ key env) reply d d')
    (hproduces : (program dependencies
      (.lifecycle command context ⟨t', expected, reason⟩ key env)).Produces reply change) :
    Chained (changesOf t (history ++ [(.platform call, reply)])) (d'.tenant t) := by
  cases heffect with
  | replayed => exact h.skip (by simp [changeOf]) rfl
  | @transitioned _ _ _ _ _ response _ row row' event entry hrow hid hstate htransition hversion
      hexpected =>
    dsimp only at hrow hid hexpected ⊢
    by_cases ht : t' = t
    · subst ht
      obtain ⟨tenant, version, hstores, htenantState, hsame, htenantVersion⟩ :=
        stores_transition rfl hproduces
      have hstores' : Stores call.request.route.tenantId ⟨response, false⟩ tenant := by
        rw [hroute]
        exact hstores
      obtain ⟨answered, hanswer, htag, hbody⟩ := exists_answer hstores'
      obtain rfl : version = row.version := by
        dsimp only at hsame
        rw [hsame] at hexpected
        exact_mod_cast Option.some.inj hexpected
      have hsafe : row.version < 2 ^ 53 := by
        have := hstores.version
        omega
      have hrow' : (d.setTenant row').tenant t' = some row' := by
        rw [← hid]
        exact Function.update_self _ _ _
      have hchange : changeOf t' (.platform call, .tenant ⟨response, false⟩) =
          some (call, answer call (.ok ⟨response, false⟩)) := by
        simp [changeOf, hroute, PlatformRoute.tenantId]
      rw [hrow] at h
      rw [changesOf_append, hchange]
      refine hrow' ▸ h.changed (names_of_expectedVersionOf hsafe hmatch hexpected) hversion
        ⟨answered, hanswer, ?_, ?_, ?_⟩
      · rw [htag, htenantVersion, hversion]
      · rw [hbody, hversion]
        exact congrArg Nat.cast htenantVersion
      · rw [hbody, hstate]
        exact htenantState
    · have hchange : changeOf t (.platform call, .tenant ⟨response, false⟩) = none := by
        simp [changeOf, hroute, PlatformRoute.tenantId, ht]
      exact h.skip hchange (Function.update_of_ne (by rw [hid]; exact Ne.symm ht) _ _)

/-- Every commit keeps the chain of every tenant. -/
theorem Chained.commit {call : ServerCall other providerId}
    (h : Chained (changesOf t history) (d.tenant t)) (heffect : Effect call.command reply d d')
    (hproduces : (serve dependencies call).Produces reply change) :
    Chained (changesOf t (history ++ [(call, reply)])) (d'.tenant t) := by
  cases call with
  | role kind context input env =>
    have heffect' : Effect (.role kind context input env) reply d d' := heffect
    cases heffect' with
    | replayed htenant => cases htenant
    | role => exact h.skip rfl rfl
  | platform call =>
    have heffect' : Effect call.command reply d d' := heffect
    have hproduces' : (program dependencies call.command).Produces reply change := hproduces
    cases hroute : call.request.route with
    | provision t' name administrator =>
      obtain ⟨context, key, -, hcommand⟩ := accepted_provision hroute
      rw [hcommand] at heffect' hproduces'
      exact h.provision hroute heffect' hproduces'
    | lifecycle command t' reason =>
      obtain ⟨context, expected, key, -, hmatch, hcommand⟩ := accepted_lifecycle hroute
      rw [hcommand] at heffect' hproduces'
      exact h.lifecycle hroute hmatch heffect' hproduces'

end Exchanges

section Operators

variable {other : String → Option ℤ} {providerId : String} {dependencies : CommandDependencies}
  {call : Accepted other providerId} {context : PlatformCommandContext}

def PlatformRoute.permission : PlatformRoute → String
  | .provision _ _ _ => "platform:tenant:provision"
  | .lifecycle _ _ _ => "platform:tenant:lifecycle"

/-- What the credential of a request must be for the request to come to the database. -/
structure OperatorCredential (call : Accepted other providerId) (credential : String)
    (policy : IdentityProviderPolicy) (claims : VerifiedCredentialClaims) : Prop where
  presented : bearerCredential call.request.authorization.singleHeader
    call.trace.correlationId = .ok credential
  verified : VerifiedAs other call.arrival.authentication
    ⟨providerId, credential, PLATFORM_AUDIENCE, call.trace.correlationId⟩ [.oidc, .saml] policy
    claims
  grant : OperatorGrant (.platform ⟨providerId, credential, call.trace.correlationId⟩) claims
    call.request.route.permission

theorem platform_verified {deps : AuthenticationDependencies} {input : PlatformAuthenticationInput}
    {p : AuthenticatedPrincipal} (h : authenticatePlatformOperator other deps input = .ok p) :
    ∃ policy claims, VerifiedAs other deps
      ⟨input.providerId, input.rawCredential, PLATFORM_AUDIENCE, input.correlationId⟩
      [.oidc, .saml] policy claims ∧ IssuedFacts (.platform input) policy claims p := by
  obtain ⟨policy, claims, ⟨hfound, hverified⟩, hissued⟩ := platform_issued h
  unfold authenticatePlatformOperator at h
  rw [attempt_ok] at h
  obtain ⟨⟨policy', claims'⟩, hv, -⟩ := Except.bind_eq_ok_iff.mp h
  have hver := verify_ok hv
  obtain rfl : policy = policy' :=
    Option.some.inj (Except.ok.inj (hfound.symm.trans hver.found))
  obtain rfl : claims = claims' := Except.ok.inj (hverified.symm.trans hver.verified)
  exact ⟨policy, claims, hver, hissued⟩

/-- An authorized request carries an operator's credential. -/
theorem AcceptedFrom.operator (h : AcceptedFrom call context)
    (hallowed : assertAllowed context call.request.route.permission = .ok ()) :
    ∃ credential policy claims, OperatorCredential call credential policy claims := by
  obtain ⟨principal, hprincipal, hcontext⟩ := h.principal
  obtain ⟨credential, hpresented, hissued⟩ := Except.bind_eq_ok_iff.mp hprincipal
  obtain ⟨policy, claims, hverified, hfacts⟩ := platform_verified hissued
  exact ⟨credential, policy, claims, hpresented, hverified,
    (platform_allowed_iff hfacts hcontext _).mp hallowed⟩

/-- Whatever a request comes to, its credential was an operator's. -/
theorem operator_of_produces {reply : Reply} {change : Store IdentityDb → Store IdentityDb}
    (h : (serve dependencies (.platform call)).Produces reply change) :
    ∃ credential policy claims, OperatorCredential call credential policy claims := by
  have hcall : (program dependencies call.command).Produces reply change := h
  cases hroute : call.request.route with
  | provision t name administrator =>
    obtain ⟨context, key, hfrom, hcommand⟩ := accepted_provision hroute
    rw [hcommand] at hcall
    obtain ⟨_, _, _, hcall, -, -⟩ := Tx.produces_bind hcall
    obtain ⟨_, -, hcall⟩ := Tx.produces_lift_bind hcall
    refine hfrom.operator ?_
    rw [hroute]
    exact authorized_of_produces hcall
  | lifecycle command t reason =>
    obtain ⟨context, expected, key, hfrom, -, hcommand⟩ := accepted_lifecycle hroute
    rw [hcommand] at hcall
    obtain ⟨_, _, _, hcall, -, -⟩ := Tx.produces_bind hcall
    obtain ⟨_, -, hcall⟩ := Tx.produces_lift_bind hcall
    obtain ⟨_, -, hcall⟩ := Tx.produces_lift_bind hcall
    refine hfrom.operator ?_
    rw [hroute]
    exact authorized_of_produces hcall

end Operators

section Runs

variable {other : String → Option ℤ} {providerId : String} {dependencies : CommandDependencies}
  {es : List (Exchange other providerId)} {row : Option TenantSnapshot}

/-- A server whose database has no tenants yet. -/
def unserved (other : String → Option ℤ) (providerId : String)
    (records : RecordKey → Option IdempotencyRecord)
    (tenant_role : TenantId × String → Option TenantRole)
    (tenant_role_assignment : List RoleAssignment)
    (approval_policy : TenantId × String → Option ApprovalPolicyRow) (seq : ℕ) :
    World (Store IdentityDb) (ServerCall other providerId) Reply where
  db := (withoutTenants records tenant_role tenant_role_assignment approval_policy seq).db
  seq := seq
  history := []

abbrev ServerState (other : String → Option ℤ) (providerId : String) :=
  State Failure (Store IdentityDb) (RecordKey ⊕ RowLock) (ServerCall other providerId) Reply

variable {records : RecordKey → Option IdempotencyRecord}
  {tenant_role : TenantId × String → Option TenantRole}
  {tenant_role_assignment : List RoleAssignment}
  {approval_policy : TenantId × String → Option ApprovalPolicyRow} {seq : ℕ}
  {st : ServerState other providerId}

/-- The changes of every tenant are a chain, in every run. -/
theorem chained (h : Reachable (serve dependencies)
    (unserved other providerId records tenant_role tenant_role_assignment approval_policy seq) st)
    (t : TenantId) :
    Chained (changesOf t st.world.history) (st.world.db.effects.tenant t) := by
  have hname : ∀ call : ServerCall other providerId,
      program dependencies call.command = serve dependencies call := fun _ => rfl
  induction h with
  | init => exact .absent
  | @step st st' hreach hstep ih =>
    have hrun : Reachable (program dependencies)
        (withoutTenants records tenant_role tenant_role_assignment approval_policy seq)
        (st.relabel ServerCall.command) := hreach.relabel hname
    have heffect : ∀ command reply, (st'.relabel ServerCall.command).world.history =
        (st.relabel ServerCall.command).world.history ++ [(command, reply)] →
        Effect command reply st.world.db.effects st'.world.db.effects :=
      fun _ _ => (sound hrun).effect (hstep.relabel hname)
    cases hstep with
    | begin => exact ih
    | query => exact ih
    | abort => exact ih
    | @commit w before s after reply hrest =>
      have hproduces := hreach.produces s (by simp) reply id (hrest ▸ .done)
      refine ih.commit (heffect s.call.command reply ?_) hproduces
      simp [State.relabel, World.relabel, World.commit]

/-- How the tags of a tenant's changes go on. -/
structure TagsChain (es : List (Exchange other providerId)) (row : Option TenantSnapshot) :
    Prop where
  /-- Every change is answered, with the tags `"1"`, `"2"`, … -/
  tags : es.map (fun e => e.2.toOption.map HttpResponse.etag) =
    (List.range' 1 es.length).map fun version : ℕ => some (etag version)
  /-- Every change after the first has named the tag that the one before was answered with. -/
  named : es.IsChain fun earlier later =>
    ∃ response, earlier.2 = .ok response ∧ Names later.1.request.ifMatch response.etag
  first : ∀ e ∈ es.head?, ∃ tenant_id display_name administrator,
    e.1.request.route = .provision tenant_id display_name administrator
  /-- The last answer is the row of the tenant. -/
  current : es.getLast?.bind (fun e => e.2.toOption.map fun response =>
      (response.body.version, response.body.state)) =
    row.map fun row => ((row.version : ℤ), row.state)
  version : (row.map TenantSnapshot.version).getD 0 = es.length

theorem Answers.toOption {e : Exchange other providerId} {row : TenantSnapshot}
    (h : Answers e row) : ∃ response, e.2 = .ok response ∧ e.2.toOption = some response ∧
      response.etag = etag row.version ∧ response.body.version = row.version ∧
        response.body.state = row.state := by
  obtain ⟨response, hresponse, hrest⟩ := h.answered
  exact ⟨response, hresponse, by rw [hresponse]; rfl, hrest⟩

theorem Chained.last {row : TenantSnapshot} (h : Chained es (some row)) :
    ∃ e, es.getLast? = some e ∧ Answers e row := by
  cases h with
  | provisioned _ _ hanswers => exact ⟨_, rfl, hanswers⟩
  | changed _ _ _ hanswers => exact ⟨_, List.getLast?_concat, hanswers⟩

theorem Chained.tagsChain (h : Chained es row) : TagsChain es row := by
  induction h with
  | absent => exact ⟨rfl, .nil, by simp, rfl, rfl⟩
  | @provisioned e row hroute hversion hanswers =>
    obtain ⟨response, -, hoption, htag, hbody, hstate⟩ := hanswers.toOption
    refine ⟨?_, .singleton _, ?_, ?_, hversion⟩
    · simp [hoption, htag, hversion]
    · intro e' he'
      cases he'
      exact hroute
    · simp [hoption, hbody, hstate]
  | @changed es e row row' hchain hnames hversion hanswers ih =>
    obtain ⟨earlier, hearlier, hbefore⟩ := hchain.last
    obtain ⟨response, hresponse, -, htag, -⟩ := hbefore.toOption
    obtain ⟨response', -, hoption', htag', hbody', hstate'⟩ := hanswers.toOption
    have hlength : row.version = es.length := ih.version
    refine ⟨?_, ?_, ?_, ?_, ?_⟩
    · rw [List.map_append, ih.tags, List.length_append, List.length_singleton,
        List.range'_1_concat, List.map_append]
      simp [hoption', htag', hversion, hlength, Nat.add_comm 1]
    · refine List.isChain_append.mpr ⟨ih.named, List.isChain_singleton _, ?_⟩
      intro e₁ he₁ e₂ he₂
      cases hearlier.symm.trans he₁
      cases he₂
      exact ⟨response, hresponse, htag ▸ hnames⟩
    · have hhead : (es ++ [e]).head? = es.head? := by
        cases es with
        | nil => cases hearlier
        | cons => rfl
      rw [hhead]
      exact ih.first
    · simp [hoption', hbody', hstate']
    · simp [hversion, hlength]

/-- However requests interleave, no change of a tenant is lost: each has named the tag that the
change before it was answered with. -/
theorem no_lost_update (h : Reachable (serve dependencies)
    (unserved other providerId records tenant_role tenant_role_assignment approval_policy seq) st)
    (t : TenantId) :
    TagsChain (changesOf t st.world.history) (st.world.db.effects.tenant t) :=
  (chained h t).tagsChain

/-- Every request that was answered from the database, by a change or by a replay, carried a
credential that the platform's provider had verified, not revoked, with the platform's audience and
a second factor, naming no tenant, and with a role that grants the permission of the route. -/
theorem operators_only (h : Reachable (serve dependencies)
    (unserved other providerId records tenant_role tenant_role_assignment approval_policy seq) st) :
    ∀ call reply, (ServerCall.platform call, reply) ∈ st.world.history →
      ∃ credential policy claims, OperatorCredential call credential policy claims := by
  let inv : List (ServerCall other providerId × Reply) → Store IdentityDb → Prop :=
    fun history _ => ∀ call reply, (ServerCall.platform call, reply) ∈ history →
      ∃ credential policy claims, OperatorCredential call credential policy claims
  have hinit : inv (unserved other providerId records tenant_role tenant_role_assignment
      approval_policy seq).history (withoutTenants records tenant_role tenant_role_assignment
        approval_policy seq).db := fun _ _ hmem => absurd hmem List.not_mem_nil
  refine h.kept hinit fun served reply change hproduces history d hd call reply' hmem => ?_
  rcases List.mem_append.mp hmem with hmem | hmem
  · exact hd call reply' hmem
  · cases List.mem_singleton.mp hmem
    exact operator_of_produces hproduces

end Runs

section Sample

/-- An operator provisions a tenant. -/
def provisionRequest : PlatformRequest where
  route := .provision "tenant_a" "Acme" "admin"
  authorization := .single "Bearer jwt"
  correlationId := .single "corr-1"
  causationId := .absent
  idempotencyKey := .single "8f14e45f-ceea-467f-a0e6-1c2d3e4f5a6b"
  ifMatch := .absent

def provisionArrival : Arrival where
  requestId := "corr_request"
  correlationId := "corr_hook"
  authentication := sampleDeps
  dateNow := 1790244244000
  now := timeClip 1790244245000
  executorNow := timeClip 0
  recordedAt := timeClip 1790244245000
  newEventId := "evt_1"
  newAuditId := "aud_1"

/-- The context of the operator whose token the sample provider accepts. -/
def provisionContext : PlatformCommandContext where
  actorId := "operator"
  principalKind := .interactive
  assurance := .mfa
  correlationId := "corr-1"
  causationId := none
  credentialId := "token-1"
  audiences := [PLATFORM_AUDIENCE]
  scopes := ["platform:tenant:provision"]
  issued := true

theorem authenticate_sample : authenticate (fun _ => none) "platform-idp" provisionRequest
    provisionArrival = .ok sampleOperator := by decide +kernel

theorem platformContext_sample : platformContext (fun _ => none) sampleOperator provisionRequest
    provisionArrival = .ok provisionContext := by decide +kernel

theorem environment_sample :
    provisionArrival.environment provisionContext "platform:tenant:provision" =
      tenantEnvironment "evt_1" "aud_1" := by
  have hallowed : assertAllowed provisionContext "platform:tenant:provision" = .ok () := by
    decide +kernel
  unfold Arrival.environment
  rw [hallowed]
  rfl

theorem idempotencyKey_sample :
    provisionRequest.idempotencyKey.singleHeader.map units = sampleKey := by decide +kernel

theorem accept_sample : accept (fun _ => none) "platform-idp" provisionRequest provisionArrival =
    .ok (.provision provisionContext ⟨"tenant_a", "Acme", "admin"⟩ sampleKey
      (tenantEnvironment "evt_1" "aud_1")) := by
  unfold accept
  rw [authenticate_sample, Except.ok_bind, idempotencyKey_sample]
  change (platformContext _ _ _ _ >>= _) = _
  rw [platformContext_sample, Except.ok_bind, environment_sample]

def provisionCall : Accepted (fun _ => none) "platform-idp" where
  request := provisionRequest
  arrival := provisionArrival
  command := _
  accepted := accept_sample

/-- What else a context says is not used. -/
theorem serve_sample : serve tenantDependencies (.platform provisionCall) =
    program tenantDependencies provisionCommand := rfl

theorem run_provisionCall : ∃ st : ServerState (fun _ => none) "platform-idp",
    Reachable (serve tenantDependencies) (unserved (fun _ => none) "platform-idp" (fun _ => none)
      (fun _ => none) [] (fun _ => none) 0) st ∧
      ∃ reply, st.world.history = [(.platform provisionCall, reply)] := by
  obtain ⟨event, reply, records, -, -, hrun⟩ := run_provision
  rw [← serve_sample] at hrun
  have hinit : Reachable (serve tenantDependencies)
      (unserved (fun _ => none) "platform-idp" (fun _ => none) (fun _ => none) []
        (fun _ => none) 0) _ := .init
  exact ⟨_, hinit.transaction hrun, reply, rfl⟩

/-- An operator activates the tenant, naming the tag that it was provisioned with. -/
def activateRequest : PlatformRequest :=
  { provisionRequest with
    route := .lifecycle .activateTenant "tenant_a" none
    ifMatch := .single "\"1\"" }

def lifecycleClaims : VerifiedCredentialClaims :=
  { sampleClaims with platformRoles := some ["platform_tenant_lifecycle_operator"] }

def activateArrival : Arrival :=
  { provisionArrival with
    authentication :=
      { sampleDeps with
        verify := fun raw _ =>
          if raw = "jwt" then .ok lifecycleClaims else .error (.error "bad signature") }
    newEventId := "evt_2"
    newAuditId := "aud_2" }

def lifecycleOperator : AuthenticatedPrincipal :=
  { sampleOperator with scopes := ["platform:tenant:lifecycle"] }

def activateContext : PlatformCommandContext :=
  { provisionContext with scopes := ["platform:tenant:lifecycle"] }

theorem authenticate_activate : authenticate (fun _ => none) "platform-idp" activateRequest
    activateArrival = .ok lifecycleOperator := by decide +kernel

theorem platformContext_activate : platformContext (fun _ => none) lifecycleOperator
    activateRequest activateArrival = .ok activateContext := by decide +kernel

theorem environment_activate :
    activateArrival.environment activateContext "platform:tenant:lifecycle" =
      tenantEnvironment "evt_2" "aud_2" := by
  have hallowed : assertAllowed activateContext "platform:tenant:lifecycle" = .ok () := by
    decide +kernel
  unfold Arrival.environment
  rw [hallowed]
  rfl

theorem accept_activate : accept (fun _ => none) "platform-idp" activateRequest activateArrival =
    .ok (.lifecycle .activateTenant activateContext ⟨"tenant_a", .ofNat 1 one_safe, none⟩
      sampleKey (tenantEnvironment "evt_2" "aud_2")) := by
  have hnames : Names activateRequest.ifMatch (etag 1) := ⟨_, rfl, .inl (by decide +kernel)⟩
  have hversion : expectedVersionOf activateRequest.ifMatch.singleHeader =
      .ok (.ofNat 1 one_safe) := expectedVersionOf_of_names Nat.one_pos one_safe hnames
  unfold accept
  rw [authenticate_activate, Except.ok_bind]
  change (expectedVersionOf _ >>= _) = _
  rw [hversion, Except.ok_bind, platformContext_activate, Except.ok_bind, environment_activate,
    show activateRequest.idempotencyKey.singleHeader.map units = sampleKey from
      idempotencyKey_sample]

def activateCall : Accepted (fun _ => none) "platform-idp" where
  request := activateRequest
  arrival := activateArrival
  command := _
  accepted := accept_activate

theorem serve_activate : serve tenantDependencies (.platform activateCall) =
    program tenantDependencies activateCommand := rfl

/-- The tenant is provisioned, and a change that names its tag follows. -/
theorem no_lost_update_activated : ∃ st : ServerState (fun _ => none) "platform-idp",
    st.world.history.map Prod.fst = [.platform provisionCall, .platform activateCall] ∧
      TagsChain (changesOf "tenant_a" st.world.history)
        (st.world.db.effects.tenant "tenant_a") := by
  obtain ⟨event, reply, records, hauditId, hrecords, hrun⟩ := run_provision
  obtain ⟨event', reply', records', hrun'⟩ := run_activate hauditId hrecords
  rw [← serve_sample] at hrun
  rw [← serve_activate] at hrun'
  have hinit : Reachable (serve tenantDependencies)
      (unserved (fun _ => none) "platform-idp" (fun _ => none) (fun _ => none) []
        (fun _ => none) 0) _ := .init
  have hprovisioned := hinit.transaction hrun
  have hreached := hprovisioned.transaction hrun'
  exact ⟨_, rfl, no_lost_update hreached "tenant_a"⟩

theorem operators_only_provisioned : ∃ credential policy claims,
    OperatorCredential provisionCall credential policy claims := by
  obtain ⟨st, hreached, reply, hhistory⟩ := run_provisionCall
  have hmem : (.platform provisionCall, reply) ∈ st.world.history := by
    rw [hhistory]
    exact List.mem_singleton_self _
  exact operators_only hreached provisionCall reply hmem

end Sample

end Sintius.Api
