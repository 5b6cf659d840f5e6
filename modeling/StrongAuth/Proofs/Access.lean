import StrongAuth.Proofs.Engine.Changes
import StrongAuth.Samples

set_option autoImplicit false

namespace StrongAuth
open StrongAuth.Calendar

/-- An endpoint for updates, with the consent or the payment that it is called for. -/
inductive Endpoint where
  | account (consentId : String)
  | payment (paymentId : String)
  deriving DecidableEq, Repr

namespace Endpoint

def parentId : Endpoint → String
  | account consentId => consentId
  | payment paymentId => paymentId

def service : Endpoint → Service
  | account _ => .account
  | payment _ => .payment

variable {σ : Type} [Store σ] {s : σ} {e : Endpoint} {id : String} {a : Authorisation}

def allows (e : Endpoint) (g : AccessCheck) (s : σ) (id : String) (codeReceived : Bool) : Bool :=
  match e with
  | account consentId => g.allowsAccount s consentId id codeReceived
  | payment _ => AccessCheck.allowsPayment s id codeReceived

/-- The authorisation that the check decides about. -/
def examined (e : Endpoint) (s : σ) (id : String) : Option Authorisation :=
  match e with
  | account consentId => (AccessCheck.lookUp s id).filter (Store.isSibling consentId .account)
  | payment _ => AccessCheck.lookUp s id

/-- The update is one that the endpoint passes on. -/
structure Passes (e : Endpoint) (u : UpdateRequest) : Prop where
  parent : u.parentId = e.parentId
  service : u.address.service = e.service

theorem lookUp_eq_some_iff :
    AccessCheck.lookUp s id = some a ↔ Store.authorisation s id = .ok (some a) := by
  unfold AccessCheck.lookUp
  cases Store.authorisation s id with
  | error _ => exact ⟨nofun, nofun⟩
  | ok found => simp

def rules (e : Endpoint) (g : AccessCheck) (a : Authorisation) (codeReceived : Bool) : Bool :=
  match e with
  | account _ => !(g.confirmationMandated && a.status == .received) && a.isOpenToTpp codeReceived
  | payment _ => a.isOpenToTpp codeReceived

/-- Access depends on the authorisation that is decided about, and is given where there is none. -/
theorem allows_eq (e : Endpoint) (g : AccessCheck) (s : σ) (id : String) (codeReceived : Bool) :
    e.allows g s id codeReceived =
      match e.examined s id with
      | some a => e.rules g a codeReceived
      | none => true := by
  cases e with
  | account consentId =>
    unfold allows examined AccessCheck.allowsAccount
    cases AccessCheck.lookUp s id with
    | none => rfl
    | some a =>
      simp only [Option.filter_some]
      change (if Store.isSibling consentId .account a = true then _ else _) = _
      split <;> rfl
  | payment paymentId =>
    unfold allows examined AccessCheck.allowsPayment
    cases AccessCheck.lookUp s id <;> rfl

theorem purpose_of_account {address : Address} {p : Purpose} (service : address.service = .account)
    (served : address.purpose? = some p) : p = .account := by
  obtain ⟨named, step⟩ := address
  cases service
  cases step with
  | none => exact (Option.some.inj served).symm
  | some _ => cases served

end Endpoint

namespace Engine

variable {σ : Type} [Store σ] {c : Config} {now : Instant} {site : Site σ} {e : Endpoint}
  {u : UpdateRequest} {a : Authorisation}

def absence (s : σ) (id : String) : EngineError :=
  match Store.authorisation s id with
  | .error cause => .store cause
  | .ok _ => .unknownAuthorisation id

theorem findFor_of_absent {s : σ} {p : Purpose} (absent : ∀ a, findFor s p u ≠ .ok a) :
    findFor s p u = .error (absence s u.authorisationId) := by
  unfold findFor absence at *
  cases looked : Store.authorisation s u.authorisationId with
  | error _ => rfl
  | ok found =>
    cases found with
    | none => rfl
    | some a =>
      simp only [looked] at absent ⊢
      split
      · next fits => exact absurd (if_pos fits) (absent a)
      · rfl

theorem examined_of_findFor {s : σ} {p : Purpose} (passed : e.Passes u)
    (served : u.address.purpose? = some p) (fits : findFor s p u = .ok a) :
    e.examined s u.authorisationId = some a := by
  obtain ⟨found, parent, purpose⟩ := findFor_eq_ok_iff.mp fits
  have looked := Endpoint.lookUp_eq_some_iff.mpr found
  cases e with
  | account consentId =>
    have kind := Endpoint.purpose_of_account passed.service served
    have named : a.parentId = consentId := parent.trans passed.parent
    have own : Store.isSibling consentId .account a = true := by
      simp [Store.isSibling, named, purpose, kind]
    simp only [Endpoint.examined, looked, Option.filter_some, own, if_true]
  | payment paymentId => exact looked

/-- Where the check gives access because it has no authorisation to decide about, every update that
the endpoint passes on is an error and leaves the store and the bank alone. -/
theorem unexamined_update_refused (c : Config) (now : Instant) (site : Site σ) (e : Endpoint)
    (u : UpdateRequest) (codeReceived : Bool) (passed : e.Passes u)
    (unseen : e.examined site.store u.authorisationId = none) :
    e.allows (access c) site.store u.authorisationId codeReceived = true ∧
      ∃ cause, update c now site u = (.error cause, site) ∧
        (u.address.purpose?.isSome → cause = absence site.store u.authorisationId) := by
  refine ⟨by rw [Endpoint.allows_eq, unseen], ?_⟩
  unfold update
  cases served : u.address.purpose? with
  | none =>
    simp only [resolve, served]
    exact ⟨_, rfl, nofun⟩
  | some p =>
    have absent : ∀ a, findFor site.store p u ≠ .ok a := by
      intro a fits
      rw [examined_of_findFor passed served fits] at unseen
      cases unseen
    simp only [resolve_eq_ok_iff.mpr served, findFor_of_absent absent]
    exact ⟨_, rfl, fun _ => rfl⟩

theorem unexamined_updates_refused :
    let site := run {} Samples.site [Samples.opening .initiation "payment"]
    let closed : Site Backend := ⟨Samples.tables.close, {}⟩
    site.store.records.map (·.id) = ["auth1"] ∧
      (Endpoint.account "payment").allows (access {}) site.store "auth1" false = true ∧
      update {} Samples.moment site (.toPurpose .account "payment" "auth1") =
        (.error (.unknownAuthorisation "auth1"), site) ∧
      (Endpoint.payment "payment").allows (access {}) closed.store "auth1" true = true ∧
      update {} Samples.moment closed (.toPurpose .initiation "payment" "auth1") =
        (.error (.store TableStore.closedPool), closed) := by
  intro site closed
  obtain ⟨opened, _, missed, unknown⟩ := unexamined_update_refused {} Samples.moment site
    (.account "payment") (.toPurpose .account "payment" "auth1") false ⟨rfl, rfl⟩ rfl
  obtain ⟨let_through, _, failed, unread⟩ := unexamined_update_refused {} Samples.moment closed
    (.payment "payment") (.toPurpose .initiation "payment" "auth1") true ⟨rfl, rfl⟩ rfl
  refine ⟨rfl, opened, ?_, let_through, ?_⟩
  · rw [missed, unknown rfl]
    rfl
  · rw [failed, unread rfl]
    rfl

end Engine

end StrongAuth
