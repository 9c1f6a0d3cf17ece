import Mathlib
import Sintius.Lib.Date
import Sintius.Lib.Except
import Sintius.Lib.JsonValue
import Sintius.Lib.Programs
import Sintius.Lib.Text
import Sintius.Lib.Transaction
import Sintius.Lib.Utf16
import Sintius.Spec.Problem
import Sintius.Spec.TenantContext
import Sintius.Spec.Authentication
import Sintius.Spec.Canonical
import Sintius.Spec.Idempotency
import Sintius.Spec.Tenant
import Sintius.Spec.Authorization
import Sintius.Spec.TenantAuthorizer
import Sintius.Spec.FoundationProof
import Sintius.Spec.Ingress
import Sintius.Spec.Server
import Sintius.Spec.ProofRoute
import Sintius.Sanity.Writes
import Sintius.Proofs.Authentication
import Sintius.Proofs.FoundationProof
import Sintius.Proofs.Ingress
import Sintius.Proofs.Isolation
import Sintius.Proofs.TenantAuthorizer

/-! The tenant route end to end. However requests interleave, every proof that is recorded
or read was asked for by a member of its tenant, with a live credential, a tenant that
was active and a role that grants it. -/

namespace Sintius.Api

open Js Js.Date Sintius.Canonical Sintius.Tenancy Sintius.Identity Sintius.Idempotency
  Sintius.FoundationProof Sql

section Principals

variable {other : String → Option ℤ}

theorem eq_of_timeClip {v : ℤ} {t : Instant} (h : timeClip v = some t) : t.1 = v := by
  unfold timeClip at h
  split_ifs at h
  cases h
  rfl

/-- What an issued principal says of who it is and until when. -/
theorem issued_principal {input : PrincipalFields} {p : AuthenticatedPrincipal}
    (h : issueAuthenticatedPrincipal other input = .ok p) :
    p.actorId = input.actorId ∧
      Js.Date.parse other p.expiresAt = Js.Date.parse other input.expiresAt := by
  unfold issueAuthenticatedPrincipal at h
  simp only [Except.bind_eq_ok_iff] at h
  obtain ⟨_, -, expiry, hexpiry, actor, hactor, _, -, h⟩ := h
  split at h
  · cases h
  · next t hclip =>
    cases h
    refine ⟨requireNonBlank_eq_ok hactor, ?_⟩
    unfold finiteInstant at hexpiry
    split at hexpiry
    · next v hparse =>
      cases hexpiry
      rw [hparse, parse_toISOString, eq_of_timeClip hclip]
    · cases hexpiry

/-- What a tenant user's credential says. -/
structure UserClaims (other : String → Option ℤ) (policy : IdentityProviderPolicy)
    (claims : VerifiedCredentialClaims) (p : AuthenticatedPrincipal) : Prop where
  kind : p.kind = .interactive
  actor : p.actorId = claims.subject
  memberships : ∀ t, t ∈ p.tenantMemberships → t ∈ claims.tenantIds
  mfa : policy.requireMfa = true → "mfa" ∈ claims.authenticationMethods
  expiry : Js.Date.parse other p.expiresAt = Js.Date.parse other claims.expiresAt

theorem interactive_verified {deps : AuthenticationDependencies}
    {input : InteractiveAuthenticationInput} {p : AuthenticatedPrincipal}
    (h : authenticateInteractive other deps input = .ok p) :
    ∃ policy claims, VerifiedAs other deps input [.oidc, .saml] policy claims ∧
      UserClaims other policy claims p := by
  unfold authenticateInteractive at h
  rw [attempt_ok] at h
  simp only [Except.bind_eq_ok_iff, rejectIf_ok] at h
  obtain ⟨_, -, ⟨policy, claims⟩, hverify, _, hmfa, memberships, hmemberships, actor, hactor, h⟩ := h
  have hissue := lift_ok.mp h
  obtain ⟨hkind, -, hsame, -, -⟩ := issue_ok hissue
  obtain ⟨hwho, hexpiry⟩ := issued_principal hissue
  refine ⟨policy, claims, verify_ok hverify, hkind, ?_, ?_, ?_, hexpiry⟩
  · exact hwho.trans (requireNonBlank_eq_ok (lift_ok.mp hactor))
  · intro t ht
    rw [hsame, List.mem_eraseDups, normalizedTenants_ok hmemberships, List.mem_eraseDups] at ht
    exact ht
  · intro hrequired
    by_contra hno
    exact hmfa ⟨hrequired, hno⟩

/-- A tenant context is its principal's, for the tenant that was selected. -/
structure ContextOf (request : TenantRequest) (context : TenantContext) : Prop where
  selected : request.selected = some context.tenantId
  actor : context.actorId = request.principal.actorId
  kind : context.principalKind = request.principal.kind
  correlation : context.correlationId = request.correlationId

theorem resolveTenantContext_copies {input : ResolveTenantContextInput} {dateNow : ℤ}
    {context : TenantContext} (h : resolveTenantContext other input dateNow = .ok context) :
    context.tenantId = input.selectedTenantId ∧ context.actorId = input.principal.actorId ∧
      context.principalKind = input.principal.kind ∧
      context.correlationId = input.correlationId ∧ context.causationId = input.causationId := by
  unfold resolveTenantContext at h
  simp only [Except.bind_eq_ok_iff] at h
  obtain ⟨_, -, _, -, _, -, _, -, correlationId, hcorrelation, h⟩ := h
  cases h
  exact ⟨rfl, rfl, rfl, requireNonBlank_eq_ok hcorrelation, rfl⟩

theorem contextOf_resolveSelected {request : TenantRequest} {tenant : TenantId}
    {bodyTenantId : Option String} {state : Option TenantOperationalState} {dateNow : ℤ}
    {context : TenantContext} (hselected : request.selected = some tenant)
    (h : resolveSelected other request tenant bodyTenantId state dateNow = .ok context) :
    ContextOf request context := by
  unfold resolveSelected at h
  split at h
  · cases h
  · obtain ⟨htenant, hactor, hkind, hcorrelation, -⟩ := resolveTenantContext_copies h
    exact ⟨htenant ▸ hselected, hactor, hkind, hcorrelation⟩

theorem contextOf_resolveTenant {tenantStates : TenantStates} {request : TenantRequest}
    {dateNow : ℤ} {context : TenantContext}
    (h : (resolveTenant other tenantStates request dateNow).result = .ok context) :
    ContextOf request context := by
  rcases resolveTenant_cases other tenantStates request dateNow with
    ⟨e, hrun⟩ | ⟨tenant, hselected, -, -, hrun⟩ | ⟨tenant, bodyTenantId, hselected, -, hrun⟩
  · rw [hrun] at h
    cases h
  · rw [hrun] at h
    obtain ⟨state, -, h⟩ := Except.bind_eq_ok_iff.mp h
    exact contextOf_resolveSelected hselected h
  · rw [hrun] at h
    have hresolved : resolveSelected other request tenant bodyTenantId (some .ACTIVE) dateNow =
      .ok context := h
    exact contextOf_resolveSelected hselected hresolved

end Principals

section Evidence

variable {other : String → Option ℤ} {api : TenantApi} {dependencies : CommandDependencies}
  {call : AcceptedProof other api}

/-- What a request was accepted with. -/
structure AcceptedWith (call : AcceptedProof other api) (principal : AuthenticatedPrincipal) :
    Prop where
  authenticated : authenticateTenant other api call.request call.arrival = .ok principal
  context : (resolveTenant other call.arrival.tenantStates
    (tenantRequest principal call.request call.arrival) call.arrival.dateNow).result =
      .ok call.call.context
  label : proofLabel call.request.body = some call.call.label
  environment : call.call.env = call.arrival.environment call.call.context

theorem proofCall_eq_ok {context : TenantContext} {label : String} {key : Option Text}
    {env : ProofEnvironment} {c : ProofCall} (h : proofCall context label key env = .ok c) :
    c.context = context ∧ c.label = label ∧ c.env = env := by
  unfold proofCall at h
  split at h
  · cases h
    exact ⟨rfl, rfl, rfl⟩
  · cases h

theorem proofCall_of_prepares {context : TenantContext} {label : String}
    {env : ProofEnvironment} {prepared : PreparedProof} (key : Option Text)
    (h : prepareProof context label env = .ok prepared) :
    proofCall context label key env = .ok ⟨context, label, key, env, prepared, h⟩ := by
  unfold proofCall
  split
  · next found hfound =>
    cases hfound.symm.trans h
    rfl
  · next e he => cases he.symm.trans h

theorem exists_acceptedWith (call : AcceptedProof other api) :
    ∃ principal, AcceptedWith call principal := by
  have h := call.accepted
  unfold acceptProof at h
  obtain ⟨principal, hprincipal, h⟩ := Except.bind_eq_ok_iff.mp h
  obtain ⟨context, hcontext, h⟩ := Except.bind_eq_ok_iff.mp h
  cases hlabel : proofLabel call.request.body with
  | none =>
    rw [hlabel] at h
    cases h
  | some label =>
    rw [hlabel] at h
    obtain ⟨rfl, rfl, henvironment⟩ := proofCall_eq_ok h
    exact ⟨principal, hprincipal, hcontext, hlabel, henvironment⟩

/-- What a request that comes to the tables rests on. -/
structure OnEvidence (call : AcceptedProof other api) (credential : String)
    (policy : IdentityProviderPolicy) (claims : VerifiedCredentialClaims) : Prop where
  presented : bearerCredential call.request.authorization.singleHeader
    call.trace.correlationId = .ok credential
  verified : VerifiedAs other call.arrival.authentication
    ⟨api.providerId, credential, api.audience, call.trace.correlationId⟩ [.oidc, .saml] policy
    claims
  mfa : policy.requireMfa = true → "mfa" ∈ claims.authenticationMethods
  actor : call.call.context.actorId = claims.subject
  correlation : call.call.context.correlationId = call.trace.correlationId
  member : call.call.context.tenantId ∈ claims.tenantIds
  live : ∃ expiry, Js.Date.parse other claims.expiresAt = some expiry ∧
    call.arrival.dateNow < expiry
  active : call.arrival.tenantStates call.call.context.tenantId call.trace.correlationId =
    .ok (some .ACTIVE)
  /-- The body is a label, and names no tenant. -/
  body : proofLabel call.request.body = some call.call.label
  granted : ∃ roles, call.arrival.loadAssignedRoles call.call.context.tenantId
    call.call.context.actorId = .ok roles ∧
      grantedByRoles roles FOUNDATION_PROOF_PERMISSION (fun _ => none) = true

/-- A call that is answered, by its work or from a record, was permitted. -/
theorem permitted_of_produces {c : ProofCall} {result : IdempotentResult}
    {change : Store ProofDb → Store ProofDb}
    (h : (recordProof dependencies c).Produces result change) : c.env.permitted = .ok () := by
  obtain ⟨⟨input, hprepare⟩, -⟩ := produces_executeUntraced h
  exact (Admitted.of_prepare hprepare).authorized

/-- An interactive actor was permitted by a role. -/
theorem granted_of_permitted {arrival : ProofArrival} {context : TenantContext}
    (hkind : context.principalKind = .interactive)
    (h : (arrival.environment context).permitted = .ok ()) :
    ∃ roles, arrival.loadAssignedRoles context.tenantId context.actorId = .ok roles ∧
      grantedByRoles roles FOUNDATION_PROOF_PERMISSION (fun _ => none) = true := by
  have hpermission := assertPermission_eq_ok_iff.mp h
  unfold hasPermission isGranted at hpermission
  rw [hkind] at hpermission
  obtain ⟨_, -, hpermission⟩ := Except.bind_eq_ok_iff.mp hpermission
  obtain ⟨granted, hgranted, hpermission⟩ := Except.bind_eq_ok_iff.mp hpermission
  obtain ⟨roles, hroles, hgranted⟩ := Except.bind_eq_ok_iff.mp hgranted
  cases hgranted
  have hboth := Except.ok.inj hpermission
  exact ⟨roles, hroles, (Bool.and_eq_true _ _ ▸ hboth).1⟩

theorem onEvidence_of_produces {result : IdempotentResult}
    {change : Store ProofDb → Store ProofDb}
    (h : (serveProof dependencies call).Produces result change) :
    ∃ credential policy claims, OnEvidence call credential policy claims := by
  obtain ⟨principal, haccepted⟩ := exists_acceptedWith call
  obtain ⟨credential, hpresented, hissued⟩ := Except.bind_eq_ok_iff.mp haccepted.authenticated
  obtain ⟨policy, claims, hverified, huser⟩ := interactive_verified hissued
  have hevidence := evidence_of_resolveTenant haccepted.context
  have hcontext := contextOf_resolveTenant haccepted.context
  have hpermitted : (call.arrival.environment call.call.context).permitted = .ok () :=
    haccepted.environment ▸ permitted_of_produces h
  obtain ⟨expiry, hexpiry, hlive⟩ := hevidence.unexpired
  exact ⟨credential, policy, claims,
    { presented := hpresented
      verified := hverified
      mfa := huser.mfa
      actor := hcontext.actor.trans huser.actor
      correlation := hcontext.correlation
      member := huser.memberships _ hevidence.membership
      live := ⟨expiry, huser.expiry ▸ hexpiry, hlive⟩
      active := hevidence.active
      body := haccepted.label
      granted := granted_of_permitted (hcontext.kind.trans huser.kind) hpermitted }⟩

end Evidence

section Runs

variable {other : String → Option ℤ} {api : TenantApi} {dependencies : CommandDependencies}
  {seq : ℕ}

/-- A server that has recorded no proof. -/
def unproved (other : String → Option ℤ) (api : TenantApi) (seq : ℕ) :
    World (Store ProofDb) (AcceptedProof other api) IdempotentResult where
  db := (noCalls seq).db
  seq := seq
  history := []

abbrev ProofServerState (other : String → Option ℤ) (api : TenantApi) :=
  State Failure (Store ProofDb) (RecordKey ⊕ Empty) (AcceptedProof other api) IdempotentResult

/-- A record is what the request asked for, under the names of its credential. -/
structure RecordedFor (call : AcceptedProof other api) (record : FoundationProofRecord) :
    Prop where
  tenant : record.tenantId = call.call.context.tenantId
  actor : record.actorId = call.call.context.actorId
  correlation : record.correlationId = call.call.context.correlationId
  label : record.label = trim call.call.label

/-- What holds of the requests that were served, and of the records. -/
structure Confined (history : List (AcceptedProof other api × IdempotentResult)) (d : ProofDb) :
    Prop where
  evidence : ∀ entry ∈ history, ∃ credential policy claims,
    OnEvidence entry.1 credential policy claims
  /-- Every record was written for a request, -/
  recorded : ∀ record ∈ d.foundation_proof_record, ∃ entry ∈ history,
    entry.2.replayed = false ∧ RecordedFor entry.1 record
  /-- and every request is answered with a record of the tenant that it was made in. -/
  answered : ∀ entry ∈ history, ∃ record ∈ d.foundation_proof_record,
    record.tenantId = entry.1.call.context.tenantId ∧
      respondProof entry.1 entry.2 = .ok ⟨201, resultOf record⟩

theorem evidence_of_reachable {st : ProofServerState other api}
    (h : Reachable (serveProof dependencies) (unproved other api seq) st) :
    ∀ entry ∈ st.world.history, ∃ credential policy claims,
      OnEvidence entry.1 credential policy claims := by
  let inv : List (AcceptedProof other api × IdempotentResult) → Store ProofDb → Prop :=
    fun history _ => ∀ entry ∈ history, ∃ credential policy claims,
      OnEvidence entry.1 credential policy claims
  have hinit : inv (unproved other api seq).history (unproved other api seq).db :=
    fun _ hmem => absurd hmem List.not_mem_nil
  refine h.kept hinit fun call result change hproduces history d hd entry hmem => ?_
  rcases List.mem_append.mp hmem with hmem | hmem
  · exact hd entry hmem
  · cases List.mem_singleton.mp hmem
    exact onEvidence_of_produces hproduces

/-- Whatever requests come, every proof is recorded and read within its tenant, by members whose
credentials, tenant and roles were good when they asked. -/
theorem proofs_confined {st : ProofServerState other api}
    (h : Reachable (serveProof dependencies) (unproved other api seq) st) :
    Confined st.world.history st.world.db.effects := by
  have hname : ∀ call : AcceptedProof other api,
      recordProof dependencies call.call = serveProof dependencies call := fun _ => rfl
  have hreach : Reachable (recordProof dependencies) (noCalls seq)
      (st.relabel AcceptedProof.call) := h.relabel hname
  have haligned := aligned hreach
  have hrecords : st.world.db.effects.foundation_proof_record =
      (executed (st.relabel AcceptedProof.call).world.history).map fun c => c.prepared.record :=
    haligned.ledger.records
  refine ⟨evidence_of_reachable h, fun record hrecord => ?_, fun entry hentry => ?_⟩
  · rw [hrecords] at hrecord
    obtain ⟨c, hc, rfl⟩ := List.mem_map.mp hrecord
    obtain ⟨served, hserved, rfl⟩ := List.mem_map.mp hc
    obtain ⟨hmem, hexecuted⟩ := List.mem_filter.mp hserved
    obtain ⟨entry, hentry, rfl⟩ := List.mem_map.mp hmem
    have hstamped := stamped_call entry.1.call
    exact ⟨entry, hentry, by simpa using hexecuted, hstamped.tenant, hstamped.actor,
      hstamped.correlation, hstamped.label⟩
  · have hserved : (entry.1.call, entry.2) ∈ (st.relabel AcceptedProof.call).world.history :=
      List.mem_map_of_mem hentry
    obtain ⟨source, hsource, hanswered⟩ := haligned.answered _ hserved
    refine ⟨source.prepared.record, ?_, (stamped_call source).tenant.trans hanswered.tenant, ?_⟩
    · rw [hrecords]
      exact List.mem_map_of_mem hsource
    · exact Except.bind_eq_ok_iff.mpr ⟨_, hanswered.result _, rfl⟩

end Runs

section Sample

/-- A tenant identity provider whose verifier accepts one user's token. -/
def tenantPolicy : IdentityProviderPolicy :=
  { samplePolicy with id := "tenant-idp", allowedAudiences := ["sintius-api"] }

def tenantClaims : VerifiedCredentialClaims :=
  { sampleClaims with
    credentialId := "credential-1"
    subject := "user"
    audiences := ["sintius-api"]
    tenantIds := ["tenant_a"]
    platformRoles := none }

def tenantApi : TenantApi := ⟨"tenant-idp", "sintius-api"⟩

def gateRequest : ProofRequest where
  authorization := .single "Bearer jwt"
  correlationId := .single "corr-1"
  causationId := .absent
  idempotencyKey := .single "8f14e45f-ceea-467f-a0e6-1c2d3e4f5a6b"
  activeTenant := .absent
  body := some (.object [("label", .string " gate ")])

def gateRole : RoleSnapshot := ⟨"operator", [FOUNDATION_PROOF_PERMISSION], .active, []⟩

def gateArrival : ProofArrival where
  requestId := "corr_request"
  correlationId := "corr_hook"
  authentication :=
    { findById := fun id => .ok (if id = "tenant-idp" then some tenantPolicy else none)
      verify := fun raw _ =>
        if raw = "jwt" then .ok tenantClaims else .error (.error "bad signature")
      isRevoked := fun _ _ => .ok false
      clock := timeClip 1790244245000 }
  dateNow := 1790244244000
  now := timeClip 1790244245000
  executorNow := timeClip 0
  recordedAt := timeClip 1790244245000
  newEventId := "evt_1"
  newAuditId := "aud_1"
  tenantStates := fun _ _ => .ok (some .ACTIVE)
  loadAssignedRoles := fun _ _ => .ok [gateRole]
  newProofRecordId := "proof_1"

def gatePrincipal : AuthenticatedPrincipal where
  actorId := "user"
  kind := .interactive
  tenantMemberships := ["tenant_a"]
  assurance := .mfa
  credentialId := "credential-1"
  issuer := "https://idp.example.test"
  audiences := ["sintius-api"]
  scopes := []
  expiresAt := "2026-09-24T11:04:05.000Z"
  issued := true

theorem authenticateTenant_gate :
    authenticateTenant (fun _ => none) tenantApi gateRequest gateArrival = .ok gatePrincipal := by
  decide +kernel

theorem resolveTenant_gate : (resolveTenant (fun _ => none) gateArrival.tenantStates
    (tenantRequest gatePrincipal gateRequest gateArrival) gateArrival.dateNow).result =
      .ok proofContext := by
  decide +kernel

theorem environment_gate : gateArrival.environment proofContext = proofEnvironment false := by
  have hpermitted : assertPermission gateArrival.authorizer proofContext
      FOUNDATION_PROOF_PERMISSION (fun _ => none) = .ok () := by decide +kernel
  unfold ProofArrival.environment
  rw [hpermitted]
  rfl

theorem proofLabel_gate : proofLabel gateRequest.body = some " gate " := by decide +kernel

theorem idempotencyKey_gate :
    gateRequest.idempotencyKey.singleHeader.map units = sampleKey := by decide +kernel

theorem acceptProof_gate : acceptProof (fun _ => none) tenantApi gateRequest gateArrival =
    .ok (sampleCallOf false) := by
  unfold acceptProof
  rw [authenticateTenant_gate, Except.ok_bind, resolveTenant_gate, Except.ok_bind,
    proofLabel_gate, idempotencyKey_gate, environment_gate]
  exact proofCall_of_prepares sampleKey (prepareProof_sample false)

def gateCall : AcceptedProof (fun _ => none) tenantApi where
  request := gateRequest
  arrival := gateArrival
  call := sampleCallOf false
  accepted := acceptProof_gate

theorem proofs_confined_gate : ∃ st : ProofServerState (fun _ => none) tenantApi,
    st.world.history.map (fun entry => entry.1.request.activeTenant.singleHeader) = [none] ∧
      Confined st.world.history st.world.db.effects := by
  obtain ⟨d, stored, hrun⟩ := transaction_sample
  have hinit : Reachable (serveProof proofDependencies)
      (unproved (fun _ => none) tenantApi 0) _ := .init
  have hserved : (serveProof proofDependencies gateCall).transaction 0 (noCalls 0).db =
      ⟨.ok ⟨stored, false⟩, 5, _⟩ := hrun
  exact ⟨_, rfl, proofs_confined (hinit.transaction hserved)⟩

end Sample

end Sintius.Api
