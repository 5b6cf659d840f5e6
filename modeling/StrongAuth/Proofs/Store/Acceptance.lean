import StrongAuth.Proofs.Store.Drift
import StrongAuth.Proofs.Store.Operations

set_option autoImplicit false

namespace StrongAuth
open StrongAuth.Store

namespace Store

/-- What the status of a payment follows from can be read: the payment, and if there is one, its
authorisations. -/
def TellsProgress {σ : Type} [Store σ] (s : σ) (i : String) : Prop :=
  ∃ found, Store.payment s i = .ok found ∧
    (found.isSome = true → (Store.authorisationsOf s i .initiation).isOk = true)

end Store

structure Authorisation.Update.IsPlain (u : Authorisation.Update) : Prop where
  silent : u.parentStatus = none
  unchallenged : u.challenge = none

theorem Authorisation.Update.IsPlain.fits {u : Authorisation.Update} (plain : u.IsPlain) :
    u.challenge.all Sca.Challenge.fits = true := by
  rw [plain.unchallenged]
  rfl

namespace MemoryStore

variable {s : MemoryStore} {id : String} {u : Authorisation.Update} {a : Authorisation}

theorem updateAuthorisation_plain (quiet : s.failUpdate = none)
    (found : s.findAuthorisation id = some a) (live : a.status.isTerminal = false)
    (plain : u.IsPlain) :
    s.updateAuthorisation id a.version u = (.ok (a.apply u), (s.writeUpdate a u).2) := by
  have free := writeConflict_eq_none_iff.mpr ⟨live, rfl⟩
  simp only [updateAuthorisation, quiet, found, free, checkParentStatus, plain.silent, writeUpdate]

theorem isOk_authorisationsOf (s : MemoryStore) (i : String) (p : Purpose) :
    (s.authorisationsOf i p).isOk = s.failReads.isNone := by
  unfold authorisationsOf
  cases s.failReads <;> rfl

theorem writeUpdate_pending (s : MemoryStore) (a : Authorisation) (plain : u.IsPlain)
    (pending : u.status.isGranted = false) :
    (s.writeUpdate a u).2 = { s.modifyAuthorisation a.id fun _ => a.apply u with
      writes := { s.writes with authorisationUpdates := s.writes.authorisationUpdates + 1 } } := by
  have ungranted : (a.apply u).status.isGranted = false := pending
  simp only [writeUpdate, plain.silent, settleParent, ungranted, Bool.false_eq_true, if_false]
  rfl

end MemoryStore

namespace TableStore

variable {s : TableStore} {id i : String} {p : Purpose} {u : Authorisation.Update}
  {a : Authorisation}

theorem transact_plain {t : TableStore} (found : s.readAuthorisation id = .ok (some a))
    (live : a.status.isTerminal = false) (plain : u.IsPlain)
    (settled : (s.modifyRow id fun r => r.apply u).settleParent (a.apply u) = .ok t) :
    s.transact id a.version u = .ok (a.apply u, t) := by
  unfold readAuthorisation at found
  split at found
  · cases found
  · next r row =>
    obtain ⟨x, read, same⟩ := map_eq_ok found
    obtain rfl := Option.some.inj same
    have free := writeConflict_eq_none_iff.mpr ⟨live, rfl⟩
    have reread := AuthorisationRow.read_apply_ok read plain.fits
    rw [transact_eq row read free reread settled, plain.silent]
    rfl

theorem settleParent_of_payment (opened : s.isClosed = false) (sort : a.purpose.isPayment = true)
    (told : a.purpose = .initiation → TellsProgress s a.parentId) :
    ∃ t, s.settleParent a = .ok t := by
  have progress : ∃ due, s.statusByProgress a = .ok due ∧
      ∃ t, s.putOptionalStatus a.parentId due = .ok t := by
    unfold statusByProgress
    cases kind : a.purpose with
    | account =>
      rw [kind] at sort
      cases sort
    | cancellation => exact ⟨none, rfl, s, rfl⟩
    | initiation =>
      obtain ⟨found, read, siblings⟩ := told kind
      have payment : s.readPayment a.parentId = .ok found :=
        (reading_of_open opened _).symm.trans read
      cases found with
      | none =>
        simp only [payment]
        exact ⟨none, rfl, s, rfl⟩
      | some q =>
        change _ → (s.reading (s.readSiblings _ _)).isOk = true at siblings
        rw [reading_of_open opened] at siblings
        obtain ⟨l, reads⟩ := exists_of_isOk (siblings rfl)
        simp only [payment, bind, Except.bind, reads]
        refine ⟨_, rfl, ?_⟩
        cases q.statusAfter ((Parent.payment q).progress l) with
        | none => exact ⟨s, rfl⟩
        | some st =>
          change ∃ t, s.putParentStatus a.parentId (.payment st) = .ok t
          rw [putParentStatus_payment, payment]
          exact ⟨_, rfl⟩
  unfold settleParent
  split
  · obtain ⟨due, told, t, put⟩ := progress
    exact ⟨t, by rw [told]; exact put⟩
  · exact ⟨s, rfl⟩

end TableStore

namespace Backend

variable {b b' : Backend} {id i : String} {u : Authorisation.Update} {a : Authorisation}

def takesUpdates : Backend → Bool
  | .memory s => s.failUpdate.isNone
  | .tables s => !s.isClosed

inductive Applied (id : String) (u : Authorisation.Update) : Backend → Backend → Prop where
  | memory {s : MemoryStore} {a : Authorisation} {writes : Writes} : Applied id u (.memory s)
      (.memory { s.modifyAuthorisation id fun _ => a.apply u with writes })
  | tables {s : TableStore} : Applied id u (.tables s) (.tables (s.modifyRow id fun r => r.apply u))

theorem Applied.takesUpdates (h : Applied id u b b') : b'.takesUpdates = b.takesUpdates := by
  cases h <;> rfl

theorem Applied.tellsProgress (h : Applied id u b b') (plain : u.IsPlain)
    (told : TellsProgress b i) : TellsProgress b' i := by
  obtain ⟨found, read, siblings⟩ := told
  cases h with
  | @memory s a writes =>
    refine ⟨found, read, fun payment => ?_⟩
    have answers := siblings payment
    change (s.authorisationsOf i .initiation).isOk = true at answers
    change (MemoryStore.authorisationsOf _ i .initiation).isOk = true
    rw [MemoryStore.isOk_authorisationsOf] at answers ⊢
    exact answers
  | @tables s =>
    refine ⟨found, read, fun payment => ?_⟩
    have answers := siblings payment
    change (s.reading (s.readSiblings i .initiation)).isOk = true at answers
    change (s.reading ((s.modifyRow id fun r => r.apply u).readSiblings i .initiation)).isOk = true
    unfold TableStore.reading at answers ⊢
    split at answers
    · cases answers
    · next opened =>
      rw [if_neg opened]
      obtain ⟨l, read⟩ := TableStore.readSiblings_modifyRow plain.fits (exists_of_isOk answers)
      rw [read]
      rfl

theorem updateAuthorisation_memory {s t : MemoryStore} {version : Int}
    {answer : Except StoreError Authorisation}
    (wrote : s.updateAuthorisation id version u = (answer, t)) :
    Store.updateAuthorisation (Backend.memory s) id version u = (answer, .memory t) := by
  change (Backend.memory s).onWrite (MemoryStore.updateAuthorisation · id version u) _ = _
  simp only [onWrite, wrote]

theorem updateAuthorisation_tables {s t : TableStore} {version : Int} {written : Authorisation}
    (opened : s.isClosed = false) (wrote : s.transact id version u = .ok (written, t)) :
    Store.updateAuthorisation (Backend.tables s) id version u = (.ok written, .tables t) := by
  change (Backend.tables s).onWrite _ (TableStore.updateAuthorisation · id version u) = _
  simp only [onWrite, TableStore.updateAuthorisation, TableStore.writing_of_open opened, wrote]

theorem updateAuthorisation_pending (taken : b.takesUpdates = true)
    (found : Store.authorisation b id = .ok (some a)) (live : a.status.isTerminal = false)
    (plain : u.IsPlain) (pending : u.status.isGranted = false) :
    ∃ b', Store.updateAuthorisation b id a.version u = (.ok (a.apply u), b') ∧
      Applied id u b b' := by
  have named := id_of_found found
  cases b with
  | memory s =>
    have quiet : s.failUpdate = none := by simpa [Backend.takesUpdates] using taken
    have there := authorisation?_of_ok found
    have wrote := MemoryStore.updateAuthorisation_plain quiet there live plain
    rw [MemoryStore.writeUpdate_pending s a plain pending, named] at wrote
    exact ⟨_, updateAuthorisation_memory wrote, .memory⟩
  | tables s =>
    obtain ⟨opened, found⟩ := TableStore.reading_ok found
    have ungranted : (a.apply u).status.isGranted = false := pending
    have settled : (s.modifyRow id fun r => r.apply u).settleParent (a.apply u) =
        .ok (s.modifyRow id fun r => r.apply u) := by
      rw [TableStore.settleParent, ungranted]
      rfl
    have wrote := TableStore.transact_plain found live plain settled
    exact ⟨_, updateAuthorisation_tables opened wrote, .tables⟩

/-- An update of a payment authorisation is accepted, even if it grants the authorisation. -/
theorem updateAuthorisation_of_payment (taken : b.takesUpdates = true)
    (found : Store.authorisation b id = .ok (some a)) (live : a.status.isTerminal = false)
    (plain : u.IsPlain) (sort : a.purpose.isPayment = true)
    (told : a.purpose = .initiation → TellsProgress b a.parentId) :
    ∃ b', Store.updateAuthorisation b id a.version u = (.ok (a.apply u), b') := by
  cases b with
  | memory s =>
    have quiet : s.failUpdate = none := by simpa [Backend.takesUpdates] using taken
    have there := authorisation?_of_ok found
    have wrote := MemoryStore.updateAuthorisation_plain quiet there live plain
    exact ⟨_, updateAuthorisation_memory wrote⟩
  | tables s =>
    obtain ⟨opened, found⟩ := TableStore.reading_ok found
    have told' : (a.apply u).purpose = .initiation →
        TellsProgress (s.modifyRow id fun r => r.apply u) (a.apply u).parentId := by
      intro initiates
      have applied : Applied id u (.tables s)
          (.tables (s.modifyRow id fun r => r.apply u)) := .tables
      exact applied.tellsProgress plain (told initiates)
    obtain ⟨t, settled⟩ := TableStore.settleParent_of_payment
      (s := s.modifyRow id fun r => r.apply u) (a := a.apply u) opened sort told'
    have wrote := TableStore.transact_plain found live plain settled
    exact ⟨_, updateAuthorisation_tables opened wrote⟩

end Backend

end StrongAuth
