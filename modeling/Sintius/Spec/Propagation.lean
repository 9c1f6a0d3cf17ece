import Mathlib
import Sintius.Lib.AsyncLocal
import Sintius.Lib.Text
import Sintius.Lib.Utf16
import Sintius.Spec.Problem
import Sintius.Spec.TenantContext
import Sintius.Spec.Boundary

/-! How a tenant context is carried: `context.ts`, `job.ts` and `transaction.ts` of
`platform/tenant-context`, over asynchronous tasks that share nothing but the store of the
active context. -/

namespace Sintius.Tenancy

open Js Js.Async

section Language

variable (other : String → Option ℤ)

def assertIssued (context : TenantContext) : Except Failure Unit :=
  throwIf (context.issued = false) .tenant_context_mismatch
    "Only a context issued by the trusted resolver may be activated."

/-- A child context, for work that another command or event has caused. -/
def withCausation (context : TenantContext) (causationId : String) :
    Except Failure TenantContext := do
  assertIssued context
  let causationId ← requireNonBlank causationId "causationId"
  .ok { context with causationId := some causationId }

/-- The contexts in `issuedContexts`. -/
inductive Issued : TenantContext → Prop
  | resolved {input : ResolveTenantContextInput} {dateNow : ℤ} {context : TenantContext}
      (h : resolveTenantContext other input dateNow = .ok context) : Issued context
  | caused {context child : TenantContext} {causationId : String} (h : Issued context)
      (hchild : withCausation context causationId = .ok child) : Issued child

/-- A context that a program can hold: one that was issued, or a literal that was not. -/
structure HeldContext where
  value : TenantContext
  genuine : value.issued = true → Issued other value

end Language

/-- What `runWithTenantContext` compares. -/
structure TrustedIdentity where
  tenantId : TenantId
  actorId : ActorId
  principalKind : PrincipalKind
  assurance : Assurance
  correlationId : String
  credentialId : String
  /-- `audiences.join("\u0000")` -/
  audiences : String
  /-- `scopes.join("\u0000")` -/
  scopes : String
deriving DecidableEq

def joinNul (values : List String) : String := String.intercalate "\u0000" values

def TenantContext.identity (context : TenantContext) : TrustedIdentity where
  tenantId := context.tenantId
  actorId := context.actorId
  principalKind := context.principalKind
  assurance := context.assurance
  correlationId := context.correlationId
  credentialId := context.credentialId
  audiences := joinNul context.audiences
  scopes := joinNul context.scopes

/-! ### Transactions -/

structure TenantTransactionScope where
  tenantId : TenantId
  correlationId : String
  causationId : Option String
deriving DecidableEq, Repr

def transactionScope (context : TenantContext) : TenantTransactionScope :=
  ⟨context.tenantId, context.correlationId, context.causationId⟩

/-- A transaction of the adapter: the tenant that its session was bound to. -/
structure Session where
  tenantId : TenantId
  name : ℕ
deriving DecidableEq, Repr

/-- What tasks do outside: they use transactions, and they act for a tenant, with evidence, events
or keys that carry its context. -/
inductive Effect (U : Type) where
  | open_ (scope : TenantTransactionScope)
  | commit (session : Session)
  | rollback (session : Session)
  /-- Work ends a transaction itself that it was handed, or that was passed on to it. -/
  | settle (session : Session) (commits : Bool)
  | stamped (context : TenantContext) (use : U)

/-- What is answered, where nothing is thrown. -/
def Answer {U : Type} (V : Type) : Effect U → Type
  | .open_ _ => Session
  | .commit _ => Unit
  | .rollback _ => Unit
  | .settle _ _ => Unit
  | .stamped _ _ => V

variable {other : String → Option ℤ} {V U : Type}

abbrev TenantProg (other : String → Option ℤ) (V U : Type) :=
  Prog (HeldContext other) Failure V (Effect U) (Answer V)

def runWithTenantContext (context : HeldContext other) (operation : TenantProg other V U)
    (next : Except Failure V → TenantProg other V U) : TenantProg other V U :=
  match assertIssued context.value with
  | .error e => next (.error e)
  | .ok _ =>
    .getStore fun active =>
      if active.any fun active => active.value.identity ≠ context.value.identity then
        next (fail .tenant_context_mismatch
          "A different trusted context cannot replace the active one.")
      else .run context operation next

def currentTenantContext (next : Except Failure (HeldContext other) → TenantProg other V U) :
    TenantProg other V U :=
  .getStore fun
    | some context => next (.ok context)
    | none => next (fail .tenant_context_missing
        "A trusted tenant context was required but was not established.")

/-- Something that is done for the current tenant. -/
def stamped (use : U) (next : Except Failure V → TenantProg other V U) : TenantProg other V U :=
  currentTenantContext fun
    | .error e => next (.error e)
    | .ok context => .act (.stamped context.value use) next

/-- `await transaction.rollback(); throw error` -/
def rollBack (session : Session) (error : Failure)
    (next : Except Failure V → TenantProg other V U) : TenantProg other V U :=
  .act (.rollback session) fun
    | .error e => next (.error e)
    | .ok _ => next (.error error)

def mismatchedSession : Failure :=
  .problem
    { code := .tenant_context_mismatch
      detail := "The transaction was bound to a different tenant than the trusted context." }

def inTenantTransaction (work : Session → TenantProg other V U)
    (next : Except Failure V → TenantProg other V U) : TenantProg other V U :=
  currentTenantContext fun
    | .error e => next (.error e)
    | .ok context =>
      .act (.open_ (transactionScope context.value)) fun
        | .error e => next (.error e)
        | .ok session =>
          if Session.tenantId session ≠ context.value.tenantId then
            rollBack session mismatchedSession next
          else
            (work session).bind fun
              | .error e => rollBack session e next
              | .ok result => .act (.commit session) fun
                | .error e => rollBack session e next
                | .ok _ => next (.ok result)

/-! ### Jobs -/

structure TenantJobRun where
  jobName : String
  runId : String
  principal : AuthenticatedPrincipal
  tenantId : TenantId
  tenantState : TenantOperationalState
  causationId : Option String

/-- `/^[a-z][a-z0-9_.-]{0,63}$/` -/
def JOB_NAME_PATTERN (jobName : String) : Bool :=
  match jobName.toList with
  | [] => false
  | first :: rest =>
    ('a' ≤ first && first ≤ 'z') && rest.length ≤ 63 &&
      rest.all fun c => ('a' ≤ c && c ≤ 'z') || c.isDigit || "_.-".toList.contains c

/-- The context of a job, where the checks of its run pass. -/
def jobContext (other : String → Option ℤ) (job : TenantJobRun) (dateNow : ℤ) :
    Except Failure TenantContext := do
  throwIf (JOB_NAME_PATTERN job.jobName = false) .invalid_trusted_context
    "jobName must be a lowercase job identifier."
  let correlationId := "job:" ++ job.jobName ++ ":" ++ job.runId
  throwIf (Boundary.TRACE_ID_PATTERN (units correlationId) = false) .invalid_trusted_context
    "runId must be a valid trace identifier."
  refuseIf (job.principal.kind ≠ .workload) .workload_scope_denied
    "Tenant jobs run as workload principals." correlationId
  refuseIf (job.principal.tenantMemberships.length ≠ 1) .workload_scope_denied
    "A job credential must be bound to exactly one tenant." correlationId
  resolveTenantContext other
    { principal := job.principal
      selectedTenantId := job.tenantId
      tenantState := job.tenantState
      correlationId := correlationId
      causationId := job.causationId
      bodyTenantId := none } dateNow

theorem issued_jobContext {job : TenantJobRun} {dateNow : ℤ} {context : TenantContext}
    (h : jobContext other job dateNow = .ok context) : Issued other context := by
  unfold jobContext at h
  simp only [Except.bind_eq_ok_iff] at h
  obtain ⟨_, -, _, -, _, -, _, -, h⟩ := h
  exact .resolved h

def runTenantJob (job : TenantJobRun) (dateNow : ℤ) (operation : TenantProg other V U)
    (next : Except Failure V → TenantProg other V U) : TenantProg other V U :=
  .getStore fun
    | some _ => next (fail .tenant_context_mismatch
        "A tenant job must start outside any existing tenant context.")
    | none =>
      match h : jobContext other job dateNow with
      | .error e => next (.error e)
      | .ok context =>
        runWithTenantContext ⟨context, fun _ => issued_jobContext h⟩ operation next

/-! ### Programs -/

/-- What code outside the package can do: it has no access to the store but these functions. -/
inductive Work (other : String → Option ℤ) (V U : Type) where
  | done (outcome : Except Failure V)
  | activate (context : HeldContext other) (operation : Work other V U)
      (next : Except Failure V → Work other V U)
  | job (run : TenantJobRun) (dateNow : ℤ) (operation : Work other V U)
      (next : Except Failure V → Work other V U)
  | current (next : Except Failure (HeldContext other) → Work other V U)
  | stamped (use : U) (next : Except Failure V → Work other V U)
  | transaction (operation : Session → Work other V U) (next : Except Failure V → Work other V U)
  | settle (session : Session) (commits : Bool) (next : Except Failure Unit → Work other V U)
  | start (operation next : Work other V U)

def Work.prog : Work other V U → TenantProg other V U
  | .done outcome => .ret outcome
  | .activate context operation next =>
    runWithTenantContext context operation.prog fun outcome => (next outcome).prog
  | .job run dateNow operation next =>
    runTenantJob run dateNow operation.prog fun outcome => (next outcome).prog
  | .current next => currentTenantContext fun context => (next context).prog
  | .stamped use next => Tenancy.stamped use fun outcome => (next outcome).prog
  | .transaction operation next =>
    inTenantTransaction (fun session => (operation session).prog) fun outcome => (next outcome).prog
  | .settle session commits next => .act (.settle session commits) fun outcome => (next outcome).prog
  | .start operation next => .start operation.prog next.prog

end Sintius.Tenancy
