import StrongAuth.Engine.Run
import StrongAuth.Proofs.Store.Memory
import StrongAuth.Proofs.Store.Tables

set_option autoImplicit false

namespace StrongAuth.Backend
open StrongAuth.Store

variable {b b' : Backend}

section Writes
variable {α : Type} {memory : MemoryStore → Except StoreError α × MemoryStore}
  {tables : TableStore → Except StoreError α × TableStore} {answer : Except StoreError α}

theorem onWrite_memory {s : MemoryStore}
    (h : (Backend.memory s).onWrite memory tables = (answer, b')) :
    ∃ s', b' = .memory s' ∧ memory s = (answer, s') := by
  obtain ⟨result, after⟩ := Prod.mk.inj h
  exact ⟨(memory s).2, after.symm, Prod.ext result rfl⟩

theorem onWrite_tables {s : TableStore}
    (h : (Backend.tables s).onWrite memory tables = (answer, b')) :
    ∃ s', b' = .tables s' ∧ tables s = (answer, s') := by
  obtain ⟨result, after⟩ := Prod.mk.inj h
  exact ⟨(tables s).2, after.symm, Prod.ext result rfl⟩

end Writes

/-- Each authorisation can be read, and no two have one id. -/
def IsSound : Backend → Prop
  | .memory s => Distinct s.authorisations
  | .tables s => s.IsLegible ∧ Distinct s.records

theorem IsSound.distinct (h : b.IsSound) : Distinct b.records := by
  cases b with
  | memory s => exact h
  | tables s => exact h.2

theorem records_of_isFresh (h : b.isFresh = true) : b.records = [] := by
  cases b with
  | memory s => exact List.isEmpty_iff.mp h
  | tables s =>
    have rows : s.authorisations = [] := List.isEmpty_iff.mp h
    simp [records, TableStore.records, rows]

theorem isSound_of_isFresh (h : b.isFresh = true) : b.IsSound := by
  cases b with
  | memory s =>
    have none : s.authorisations = [] := List.isEmpty_iff.mp h
    rw [IsSound, none]
    exact Distinct.nil
  | tables s =>
    have rows : s.authorisations = [] := List.isEmpty_iff.mp h
    refine ⟨?_, ?_⟩
    · intro r hr
      rw [rows] at hr
      cases hr
    · have none : s.records = [] := records_of_isFresh (b := .tables s) h
      rw [none]
      exact Distinct.nil

theorem isFresh_of_isEmpty (h : b.isEmpty = true) : b.isFresh = true := by
  cases b with
  | memory s =>
    simp only [isEmpty, Bool.and_eq_true] at h
    exact h.1.1
  | tables s =>
    simp only [isEmpty, Bool.and_eq_true] at h
    exact h.1.1.1

theorem summary?_of_isEmpty (h : b.isEmpty = true) (p : Purpose) (i : String) :
    b.summary? p i = none := by
  cases b with
  | memory s =>
    simp only [isEmpty, Bool.and_eq_true, List.isEmpty_iff] at h
    simp [summary?, MemoryStore.summary?, MemoryStore.findConsent, MemoryStore.findPayment, h]
  | tables s =>
    simp only [isEmpty, Bool.and_eq_true, List.isEmpty_iff] at h
    simp [summary?, TableStore.summary?, h]

/-- No authorisation was touched and no parent was changed. -/
structure Keeps (b b' : Backend) : Prop where
  records : b'.records = b.records
  parents : ∀ p i m, b.summary? p i = some m → b'.summary? p i = some m
  psus : ∀ p i, b.psusOf p i ⊆ b'.psusOf p i
  sound : b.IsSound → b'.IsSound

/-- Beyond that, nothing was added and no failure was asked for. -/
structure KeepsCalm (b b' : Backend) : Prop extends Keeps b b' where
  summary : b'.summary? = b.summary?
  lists : b'.psusOf = b.psusOf
  calm : b.isCalm = true → b'.isCalm = true

theorem KeepsCalm.refl (b : Backend) : KeepsCalm b b :=
  ⟨⟨rfl, fun _ _ _ there => there, fun _ _ => List.Subset.refl _, fun sound => sound⟩, rfl, rfl,
    fun calm => calm⟩

theorem KeepsCalm.trans {b'' : Backend} (h : KeepsCalm b b') (k : KeepsCalm b' b'') :
    KeepsCalm b b'' where
  records := k.records.trans h.records
  parents p i m there := k.parents p i m (h.parents p i m there)
  psus p i := List.Subset.trans (h.psus p i) (k.psus p i)
  sound sound := k.sound (h.sound sound)
  summary := k.summary.trans h.summary
  lists := k.lists.trans h.lists
  calm calm := k.calm (h.calm calm)

theorem keeps_memory {s s' : MemoryStore} (records : s'.authorisations = s.authorisations)
    (parents : ∀ p i m, s.summary? p i = some m → s'.summary? p i = some m)
    (psus : ∀ p i, s.psusOf p i ⊆ s'.psusOf p i) : Keeps (.memory s) (.memory s') := by
  refine ⟨records, parents, psus, ?_⟩
  intro sound
  rw [IsSound, records]
  exact sound

theorem keeps_tables {s s' : TableStore} (rows : s'.authorisations = s.authorisations)
    (parents : ∀ p i m, s.summary? p i = some m → s'.summary? p i = some m)
    (psus : ∀ i, s.psusOf i ⊆ s'.psusOf i) : Keeps (.tables s) (.tables s') := by
  have records : s'.records = s.records := by
    simp only [TableStore.records, rows]
  refine ⟨records, parents, fun _ => psus, ?_⟩
  rintro ⟨legible, distinct⟩
  refine ⟨(TableStore.records_same legible rows).1, ?_⟩
  rw [records]
  exact distinct

theorem isCalm_tables_of_eq {s s' : TableStore} (closed : s'.isClosed = s.isClosed)
    (calm : (Backend.tables s).isCalm = true) : (Backend.tables s').isCalm = true := by
  simp only [isCalm, closed]
  exact calm

theorem keeps_of_memory_extends {s s' : MemoryStore} (h : s.Extends s') :
    Keeps (.memory s) (.memory s') ∧
      ((Backend.memory s).isCalm = true → (Backend.memory s').isCalm = true) := by
  refine ⟨keeps_memory h.authorisations h.parents h.psus, fun calm => ?_⟩
  rw [isCalm, h.isCalm]
  exact calm

theorem keeps_of_tables_extends {s s' : TableStore} (h : s.Extends s') :
    Keeps (.tables s) (.tables s') ∧
      ((Backend.tables s).isCalm = true → (Backend.tables s').isCalm = true) :=
  ⟨keeps_tables h.authorisations h.parents h.psus, isCalm_tables_of_eq h.isClosed⟩

theorem authorisation_ok {id : String} {a : Authorisation} (sound : b.IsSound)
    (h : Store.authorisation b id = .ok (some a)) :
    ∃ n : Nat, b.records[n]? = some a ∧ a.id = id := by
  cases b with
  | memory s =>
    change s.authorisation id = .ok (some a) at h
    unfold MemoryStore.authorisation at h
    split at h
    · cases h
    · exact position_of_find? Authorisation.id (Except.ok.inj h)
  | tables s =>
    change s.reading (s.readAuthorisation id) = .ok (some a) at h
    unfold TableStore.reading at h
    split at h
    · cases h
    · unfold TableStore.readAuthorisation at h
      split at h
      · cases h
      · next r row =>
        obtain ⟨a', read, e⟩ := Store.map_eq_ok h
        cases e
        obtain ⟨n, position, same⟩ := position_of_find? AuthorisationRow.id row
        obtain ⟨a', there, read'⟩ := sound.1.record_of_row position
        rw [read] at read'
        cases read'
        exact ⟨n, there, (TableStore.id_of_read read).1.trans same⟩

theorem authorisation_of_record {n : Nat} {a : Authorisation} (sound : b.IsSound)
    (calm : b.isCalm = true) (there : b.records[n]? = some a) :
    Store.authorisation b a.id = .ok (some a) := by
  cases b with
  | memory s =>
    have found : s.findAuthorisation a.id = some a :=
      find?_of_position Authorisation.id there fun m c hc same => sound.unique hc there same
    have quiet := ((MemoryStore.isCalm_iff s).mp calm).1
    change s.authorisation a.id = .ok (some a)
    rw [MemoryStore.authorisation, quiet, found]
  | tables s =>
    obtain ⟨r, row, read⟩ := sound.1.row_of_record there
    have opened : s.isClosed = false := by simpa [isCalm] using calm
    have found : (s.authorisations.find? fun q => q.id == r.id) = some r := by
      refine find?_of_position AuthorisationRow.id row fun m q hq same => ?_
      obtain ⟨c, hc, readC⟩ := sound.1.record_of_row hq
      refine sound.2.unique hc there ?_
      rw [(TableStore.id_of_read read).1, (TableStore.id_of_read readC).1, same]
    change s.reading (s.readAuthorisation a.id) = .ok (some a)
    rw [TableStore.reading, opened, (TableStore.id_of_read read).1, TableStore.readAuthorisation,
      found]
    simp only [read]
    rfl

theorem authorisationsOf_ok {parentId : String} {p : Purpose} {l : List Authorisation}
    (h : Store.authorisationsOf b parentId p = .ok l) : l.Perm (b.siblings parentId p) := by
  cases b with
  | memory s =>
    change s.authorisationsOf parentId p = .ok l at h
    unfold MemoryStore.authorisationsOf at h
    split at h
    · cases h
    · exact .of_eq (Except.ok.inj h).symm
  | tables s =>
    change s.reading (s.readSiblings parentId p) = .ok l at h
    unfold TableStore.reading at h
    split at h
    · cases h
    · exact TableStore.readSiblings_ok h

theorem nextId_fresh (b : Backend) : b.nextId ∉ b.records.map Authorisation.id := by
  cases b with
  | memory s => exact s.ids.fresh _
  | tables s =>
    have unused : s.nextId ∉ s.authorisations.map AuthorisationRow.id := s.ids.fresh _
    intro taken
    obtain ⟨a, there, same⟩ := List.mem_map.mp taken
    obtain ⟨r, row, read⟩ := TableStore.mem_records.mp there
    exact unused (List.mem_map.mpr ⟨r, row, (TableStore.id_of_read read).1.symm.trans same⟩)

theorem insertAuthorisation_ok {d : Authorisation.Draft} {a : Authorisation} (sound : b.IsSound)
    (h : Store.insertAuthorisation b d = (.ok a, b')) :
    a = Authorisation.ofDraft b.nextId d ∧
      b'.records = b.records ++ [a] ∧ b'.summary? = b.summary? ∧ b'.psusOf = b.psusOf ∧
      b'.IsSound ∧ (b.isCalm = true → b'.isCalm = true) := by
  have fresh := b.nextId_fresh
  cases b with
  | memory s =>
    cases h
    exact ⟨rfl, rfl, rfl, rfl, sound.append fresh, fun calm => calm⟩
  | tables s =>
    obtain ⟨s', rfl, inserted⟩ := onWrite_tables h
    obtain ⟨legible, closed, parents, psus, result, records⟩ :=
      TableStore.insertAuthorisation_ok sound.1 inserted
    have lists : (Backend.tables s').psusOf = (Backend.tables s).psusOf := by
      simp only [psusOf, psus]
    refine ⟨result, records, parents, lists, ⟨legible, ?_⟩, ?_⟩
    · rw [records]
      refine sound.2.append ?_
      rw [result]
      exact fresh
    · exact isCalm_tables_of_eq closed

theorem insertAuthorisation_error {d : Authorisation.Draft} {e : StoreError}
    (h : Store.insertAuthorisation b d = (.error e, b')) : b' = b := by
  cases b with
  | memory s => cases h
  | tables s =>
    obtain ⟨s', rfl, refused⟩ := onWrite_tables h
    rw [TableStore.insertAuthorisation_error refused]

theorem summary?_congr (b : Backend) (p q : Purpose) (sort : p.isPayment = q.isPayment) :
    b.summary? p = b.summary? q := by
  cases b with
  | memory s => exact s.summary?_congr p q sort
  | tables s => exact s.summary?_congr p q sort

theorem updateAuthorisation_parents {id : String} {version : Int} {u : Authorisation.Update}
    {written : Authorisation} (sound : b.IsSound)
    (h : Store.updateAuthorisation b id version u = (.ok written, b')) :
    Owed u.parentStatus written b'.records b.psusOf b.summary? b'.summary? ∧
      b'.psusOf = b.psusOf := by
  cases b with
  | memory s =>
    obtain ⟨s', rfl, accepted⟩ := onWrite_memory h
    obtain ⟨-, owed, psus, -⟩ := MemoryStore.updateAuthorisation_ok sound accepted
    exact ⟨owed, psus⟩
  | tables s =>
    obtain ⟨s', rfl, accepted⟩ := onWrite_tables h
    obtain ⟨-, -, psus, -, owed⟩ := TableStore.updateAuthorisation_ok sound.1 sound.2 accepted
    refine ⟨owed, ?_⟩
    simp only [psusOf, psus]

theorem updateAuthorisation_ok {id : String} {version : Int} {u : Authorisation.Update}
    {written : Authorisation} (sound : b.IsSound)
    (h : Store.updateAuthorisation b id version u = (.ok written, b')) :
    Rewrites id version u written b.records b'.records ∧
      Settled u.parentStatus written.parentId b.summary? b'.summary? ∧ b'.IsSound ∧
      (b.isCalm = true → b'.isCalm = true) := by
  have settled := Settled.of_owed (updateAuthorisation_parents sound h).1 b.summary?_congr
  cases b with
  | memory s =>
    obtain ⟨s', rfl, accepted⟩ := onWrite_memory h
    obtain ⟨rewrites, -, -, calm⟩ := MemoryStore.updateAuthorisation_ok sound accepted
    exact ⟨rewrites, settled, rewrites.distinct sound, calm⟩
  | tables s =>
    obtain ⟨s', rfl, accepted⟩ := onWrite_tables h
    obtain ⟨legible, closed, -, rewrites, -⟩ :=
      TableStore.updateAuthorisation_ok sound.1 sound.2 accepted
    exact ⟨rewrites, settled, ⟨legible, rewrites.distinct sound.2⟩, isCalm_tables_of_eq closed⟩

theorem updateAuthorisation_error {id : String} {version : Int} {u : Authorisation.Update}
    {e : StoreError} (h : Store.updateAuthorisation b id version u = (.error e, b')) :
    KeepsCalm b b' := by
  cases b with
  | memory s =>
    obtain ⟨s', rfl, refused⟩ := onWrite_memory h
    obtain ⟨records, parents, psus, calm⟩ := MemoryStore.updateAuthorisation_error refused
    refine ⟨keeps_memory records ?_ ?_, parents, psus, calm⟩
    · rw [parents]
      exact fun _ _ _ there => there
    · rw [psus]
      exact fun _ _ => List.Subset.refl _
  | tables s =>
    obtain ⟨s', rfl, refused⟩ := onWrite_tables h
    rw [TableStore.updateAuthorisation_error refused]
    exact KeepsCalm.refl _

theorem insertConsent_keeps (b : Backend) (d : Consent.Draft) :
    Keeps b (Store.insertConsent b d).2 ∧
      (b.isCalm = true → (Store.insertConsent b d).2.isCalm = true) := by
  generalize h : Store.insertConsent b d = answer
  obtain ⟨x, b'⟩ := answer
  change Keeps b b' ∧ (b.isCalm = true → b'.isCalm = true)
  cases b with
  | memory s =>
    obtain ⟨s', rfl, inserted⟩ := onWrite_memory h
    exact keeps_of_memory_extends (MemoryStore.insertConsent_extends inserted)
  | tables s =>
    obtain ⟨s', rfl, inserted⟩ := onWrite_tables h
    exact keeps_of_tables_extends (TableStore.insertConsent_extends inserted)

theorem insertPayment_keeps (b : Backend) (q : Payment) :
    Keeps b (Store.insertPayment b q).2 ∧
      (b.isCalm = true → (Store.insertPayment b q).2.isCalm = true) := by
  generalize h : Store.insertPayment b q = answer
  obtain ⟨x, b'⟩ := answer
  change Keeps b b' ∧ (b.isCalm = true → b'.isCalm = true)
  cases b with
  | memory s =>
    obtain ⟨s', rfl, inserted⟩ := onWrite_memory h
    exact keeps_of_memory_extends (MemoryStore.insertPayment_extends inserted)
  | tables s =>
    obtain ⟨s', rfl, inserted⟩ := onWrite_tables h
    exact keeps_of_tables_extends (TableStore.insertPayment_extends inserted)

theorem insertConsent_adds {d : Consent.Draft} {x : Except StoreError Consent}
    (h : Store.insertConsent b d = (x, b')) :
    Parents.Adds b.summary? b'.summary? false d.id ⟨.consent .received, d.multilevel⟩ := by
  cases b with
  | memory s =>
    obtain ⟨s', rfl, inserted⟩ := onWrite_memory h
    exact MemoryStore.insertConsent_adds inserted
  | tables s =>
    obtain ⟨s', rfl, inserted⟩ := onWrite_tables h
    exact TableStore.insertConsent_adds inserted

theorem insertPayment_adds {q : Payment} {x : Except StoreError Payment}
    (h : Store.insertPayment b q = (x, b')) : b'.summary? = b.summary? ∨ ((∃ stored, x = .ok stored) ∧
      Parents.Adds b.summary? b'.summary? true q.id (Parent.payment q).summary) := by
  cases b with
  | memory s =>
    obtain ⟨s', rfl, inserted⟩ := onWrite_memory h
    exact MemoryStore.insertPayment_adds inserted
  | tables s =>
    obtain ⟨s', rfl, inserted⟩ := onWrite_tables h
    exact TableStore.insertPayment_adds inserted

theorem saveOrder_keeps {i : String} {order : Order} {x : Except StoreError Payment}
    (h : Store.saveOrder b i order = (x, b')) : KeepsCalm b b' := by
  cases b with
  | memory s =>
    obtain ⟨s', rfl, saved⟩ := onWrite_memory h
    obtain ⟨keeps, calm⟩ := keeps_of_memory_extends (MemoryStore.saveOrder_extends saved)
    obtain ⟨summary, lists⟩ := MemoryStore.saveOrder_parents saved
    exact ⟨keeps, summary, lists, calm⟩
  | tables s =>
    obtain ⟨s', rfl, saved⟩ := onWrite_tables h
    obtain ⟨keeps, calm⟩ := keeps_of_tables_extends (TableStore.saveOrder_extends saved)
    obtain ⟨summary, lists⟩ := TableStore.saveOrder_parents saved
    refine ⟨keeps, summary, ?_, calm⟩
    simp only [psusOf, lists]

theorem suffer_keeps (b : Backend) (change : Failure) : Keeps b (b.suffer change) := by
  cases b with
  | memory s =>
    cases change <;> exact keeps_memory rfl (fun _ _ _ there => there) fun _ _ => List.Subset.refl _
  | tables s =>
    cases change <;> exact keeps_tables rfl (fun _ _ _ there => there) fun _ => List.Subset.refl _

theorem suffer_summary (b : Backend) (change : Failure) :
    (b.suffer change).summary? = b.summary? := by
  cases b <;> cases change <;> rfl

theorem saveOrder_ok {i : String} {order : Order} {saved : Payment}
    (h : Store.saveOrder b i order = (.ok saved, b')) :
    Store.payment b' i = .ok (some saved) := by
  cases b with
  | memory s =>
    obtain ⟨s', rfl, wrote⟩ := onWrite_memory h
    exact congrArg Except.ok (MemoryStore.saveOrder_ok wrote)
  | tables s =>
    obtain ⟨s', rfl, wrote⟩ := onWrite_tables h
    obtain ⟨opened, read⟩ := TableStore.saveOrder_ok wrote
    change s'.reading (s'.readPayment i) = .ok (some saved)
    rw [TableStore.reading, opened, read]
    rfl

theorem consent_ok {i : String} {c : Consent} (h : Store.consent b i = .ok (some c)) :
    c.id = i ∧ ∀ p : Purpose, p.isPayment = false →
      b.summary? p i = some (Parent.consent c).summary ∧ c.psus = b.psusOf p i := by
  cases b with
  | memory s =>
    have found : s.findConsent i = some c := Except.ok.inj h
    refine ⟨by simpa using List.find?_some found, fun p sort => ⟨?_, ?_⟩⟩
    · simp [summary?, MemoryStore.summary?, sort, found]
    · simp [psusOf, MemoryStore.psusOf, sort, found]
  | tables s =>
    change s.reading (.ok (s.readConsent i)) = .ok (some c) at h
    unfold TableStore.reading at h
    split at h
    · cases h
    · obtain ⟨same, psus, summary⟩ := TableStore.readConsent_ok (Except.ok.inj h)
      exact ⟨same, fun p sort => ⟨summary p sort, psus⟩⟩

theorem payment_ok {i : String} {q : Payment} (h : Store.payment b i = .ok (some q)) :
    q.id = i ∧ ∀ p : Purpose, p.isPayment = true →
      b.summary? p i = some (Parent.payment q).summary ∧ q.psus = b.psusOf p i := by
  cases b with
  | memory s =>
    have found : s.findPayment i = some q := Except.ok.inj h
    refine ⟨by simpa using List.find?_some found, fun p sort => ⟨?_, ?_⟩⟩
    · simp [summary?, MemoryStore.summary?, sort, found]
    · simp [psusOf, MemoryStore.psusOf, sort, found]
  | tables s =>
    change s.reading (s.readPayment i) = .ok (some q) at h
    unfold TableStore.reading at h
    split at h
    · cases h
    · obtain ⟨same, psus, summary⟩ := TableStore.readPayment_ok h
      exact ⟨same, fun p sort => ⟨summary p sort, psus⟩⟩

def HasReadable (b : Backend) (p : Purpose) (i : String) : Prop :=
  (p.isPayment = false → ∃ c, Store.consent b i = .ok (some c)) ∧
    (p.isPayment = true → ∃ q, Store.payment b i = .ok (some q))

/-- A calm store accepts an update of the current version if the parent and the authorisations that
its progress is made of can be read. -/
theorem updateAuthorisation_accepted {id : String} {version : Int} {u : Authorisation.Update}
    {a : Authorisation} (calm : b.isCalm = true)
    (found : Store.authorisation b id = .ok (some a)) (free : writeConflict a version = none)
    (plain : u.challenge = none)
    (siblings : ∃ l, Store.authorisationsOf b a.parentId a.purpose = .ok l)
    (there : b.HasReadable a.purpose a.parentId)
    (concerns : ∀ st, u.parentStatus = some st → st.concerns a.purpose = true) :
    ∃ written, (Store.updateAuthorisation b id version u).1 = .ok written := by
  cases b with
  | memory s =>
    change s.authorisation id = .ok (some a) at found
    unfold MemoryStore.authorisation at found
    split at found
    · cases found
    · refine MemoryStore.updateAuthorisation_accepted calm (Except.ok.inj found) free ?_
      intro st reported
      have sort := concerns st reported
      cases st with
      | consent st =>
        obtain ⟨c, h⟩ := there.1 (by simpa [Parent.Status.concerns] using sort)
        have present : s.findConsent a.parentId = some c := Except.ok.inj h
        simp [MemoryStore.hasParent, present]
      | payment st =>
        obtain ⟨q, h⟩ := there.2 sort
        have present : s.findPayment a.parentId = some q := Except.ok.inj h
        simp [MemoryStore.hasParent, present]
  | tables s =>
    have opened : s.isClosed = false := by simpa [isCalm] using calm
    have answer {α : Type} {x : Except StoreError α} {y : α} (h : s.reading x = .ok y) : x = .ok y :=
      (TableStore.reading_of_open opened x).symm.trans h
    have fits : u.challenge.all Sca.Challenge.fits = true := by rw [plain]; rfl
    refine TableStore.updateAuthorisation_accepted opened (answer found) free fits
      (siblings.imp fun _ => answer) ⟨fun sort => ?_, fun sort => ?_⟩ concerns
    · exact (there.1 sort).imp fun _ read => Except.ok.inj (answer read)
    · exact (there.2 sort).imp fun _ => answer

theorem authorisationsOf_answers (sound : b.IsSound) (calm : b.isCalm = true) (i : String)
    (p : Purpose) : ∃ l, Store.authorisationsOf b i p = .ok l := by
  cases b with
  | memory s =>
    have quiet := ((MemoryStore.isCalm_iff s).mp calm).1
    refine ⟨s.siblings i p, ?_⟩
    change s.authorisationsOf i p = _
    rw [MemoryStore.authorisationsOf, quiet]
  | tables s =>
    have opened : s.isClosed = false := by simpa [isCalm] using calm
    obtain ⟨l, read, -⟩ := sound.1.readSiblings i p
    exact ⟨l, (TableStore.reading_of_open opened _).trans read⟩

end StrongAuth.Backend
