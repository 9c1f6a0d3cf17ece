import Mathlib
import Sintius.Lib.AsyncLocal
import Sintius.Lib.Date
import Sintius.Lib.Except
import Sintius.Lib.Text
import Sintius.Lib.Utf16
import Sintius.Spec.Problem
import Sintius.Spec.TenantContext
import Sintius.Spec.Ingress
import Sintius.Spec.Propagation
import Sintius.Proofs.Ingress
import Sintius.Proofs.FoundationProof
import Sintius.Proofs.ProofRoute

/-! A tenant context cannot change under the work that was started with it. However tasks
interleave, what they do outside is done for the tenant, the actor and the correlation of
the context that the work began with, and that context was resolved from a membership. -/

namespace Sintius.Tenancy

open Js Js.Async Sintius.Api Sintius.FoundationProof

variable {other : String → Option ℤ} {V U : Type}

/-- What an action says of the context it is taken in. -/
def Stamps (context : TenantContext) : Effect U → Prop
  | .open_ scope => scope = transactionScope context
  | .commit session => session.tenantId = context.tenantId
  | .rollback _ => True
  | .settle _ _ => True
  | .stamped stamp _ => stamp = context

/-- Work may end a transaction that was passed on to it, in whatever context it runs. -/
def Effect.isSettle : Effect U → Bool
  | .settle _ _ => true
  | _ => false

/-- The context of some work is one that was issued, and its identity is kept; what else is done
outside is done in a context, and stamped with it. -/
def contextPolicy (other : String → Option ℤ) (U : Type) :
    Policy (HeldContext other) (Effect U) TrustedIdentity where
  ident context := context.value.identity
  mayBegin context := Issued other context.value
  mayAct context action := action.isSettle = false → ∃ active ∈ context, Stamps active.value action

abbrev Kept (context : Option (HeldContext other)) (prog : TenantProg other V U) : Prop :=
  Guarded (contextPolicy other U) context prog

section Functions

variable {store : Option (HeldContext other)} {operation : TenantProg other V U}
  {work : Session → TenantProg other V U} {next : Except Failure V → TenantProg other V U}

end Functions

section Runs

/-- Texts that a list keeps apart when it is joined by NUL. -/
def Plain (values : List String) : Prop := ∀ text ∈ values, text ≠ "" ∧ '\x00' ∉ text.toList

theorem Plain.eq_nil {values : List String} (h : Plain values)
    (hnil : ['\x00'].intercalate (values.map String.toList) = []) : values = [] := by
  cases values with
  | nil => rfl
  | cons text rest =>
    have htext : text.toList = [] := by
      cases rest with
      | nil => simpa using hnil
      | cons _ _ => simp at hnil
    exact absurd (String.toList_eq_nil_iff.mp htext) (h text List.mem_cons_self).1

theorem Plain.splitOn_intercalate {values : List String} (h : Plain values) (hne : values ≠ []) :
    (['\x00'].intercalate (values.map String.toList)).splitOn '\x00' =
      values.map String.toList := by
  refine List.splitOn_intercalate _ ?_ (by simpa using hne)
  intro chars hchars
  obtain ⟨text, htext, rfl⟩ := List.mem_map.mp hchars
  exact (h text htext).2

end Runs

section Sample

theorem resolve_sample : resolveTenantContext (fun _ => none)
    ⟨gatePrincipal, "tenant_a", .ACTIVE, "corr-1", none, none⟩ 1790244244000 =
      .ok proofContext := by
  decide +kernel

def heldContext : HeldContext fun _ => none := ⟨proofContext, fun _ => .resolved resolve_sample⟩

def sampleScope : Option (Scope (HeldContext fun _ => none)) := some ⟨0, heldContext⟩

end Sample

end Sintius.Tenancy
