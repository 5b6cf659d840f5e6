import StrongAuth.Proofs.Json.Records
import StrongAuth.Proofs.Progress
import StrongAuth.Proofs.Store.Laws

set_option autoImplicit false

/-!
# The store of tables keeps its word

Whatever the store itself writes to a row of authorisations, it can read. So a store that was never
tampered with has a record for every row, and its rows are rewritten as records in memory are.
-/
namespace StrongAuth

namespace TableStore

theorem column_write {α : Type} (ofJson? : Json → Option α) {v : Json}
    (written : v.isWritten = true) : column ofJson? v.write = match ofJson? v with
      | some a => .ok a
      | none => .error unreadable := by
  cases read : ofJson? v with
  | some a => simp only [column, Json.ofText?_write written, Option.bind_some, read]
  | none => simp only [column, Json.ofText?_write written, Option.bind_some, read]

theorem column_psu (p : Psu) : column Psu.ofJson? p.toJson.write = .ok p := by
  rw [column_write Psu.ofJson? p.toJson_isWritten, Psu.ofJson?_toJson]

theorem column_method (m : Sca.Method) :
    column Sca.Method.ofJson? m.toJson.write = .ok m := by
  rw [column_write Sca.Method.ofJson? m.toJson_isWritten, Sca.Method.ofJson?_toJson]

theorem column_challenge {c : Sca.Challenge} (h : c.fits = true) :
    column Sca.Challenge.ofJson? c.toJson.write = .ok c := by
  rw [column_write Sca.Challenge.ofJson? c.toJson_isWritten, Sca.Challenge.ofJson?_toJson h]

theorem eq_of_column_challenge {c d : Sca.Challenge}
    (h : column Sca.Challenge.ofJson? c.toJson.write = .ok d) : d = c := by
  rw [column_write Sca.Challenge.ofJson? c.toJson_isWritten] at h
  split at h
  · next found =>
    cases h
    exact Sca.Challenge.eq_of_ofJson?_toJson found
  · cases h

end TableStore

namespace AuthorisationRow
open StrongAuth.Store StrongAuth.TableStore

variable {r : AuthorisationRow} {a b : Authorisation}

theorem read_ok_iff : r.read = .ok a ↔
    ∃ psu method challenge, column Psu.ofJson? r.psu = .ok psu ∧
      optionalColumn Sca.Method.ofJson? r.method = .ok method ∧
      optionalColumn Sca.Challenge.ofJson? r.challenge = .ok challenge ∧
      a = { id := r.id, parentId := r.parentId, purpose := r.purpose, status := r.status,
            approach := r.approach, psu, method, challenge, secret := r.secret,
            expiresAt := r.expiresAt, version := r.version } := by
  unfold read
  constructor
  · intro h
    obtain ⟨psu, hp, h⟩ := bind_eq_ok h
    obtain ⟨method, hm, h⟩ := bind_eq_ok h
    obtain ⟨challenge, hc, h⟩ := bind_eq_ok h
    cases h
    exact ⟨psu, method, challenge, hp, hm, hc, rfl⟩
  · rintro ⟨psu, method, challenge, hp, hm, hc, rfl⟩
    rw [hp, hm, hc]
    rfl

theorem read_ofDraft (id : String) (createdAt : Int) (d : Authorisation.Draft) :
    (ofDraft id createdAt d).read = .ok (Authorisation.ofDraft id d) :=
  read_ok_iff.mpr ⟨d.psu, none, none, column_psu d.psu, rfl, rfl, rfl⟩

theorem psu_apply {psu : Psu} (h : column Psu.ofJson? r.psu = .ok psu) (u : Authorisation.Update) :
    column Psu.ofJson? (r.apply u).psu = .ok (u.psu.getD psu) := by
  unfold apply
  cases u.psu with
  | none => exact h
  | some p => exact column_psu p

theorem method_apply {method : Option Sca.Method}
    (h : optionalColumn Sca.Method.ofJson? r.method = .ok method) (u : Authorisation.Update) :
    optionalColumn Sca.Method.ofJson? (r.apply u).method = .ok (u.method <|> method) := by
  unfold apply
  cases u.method with
  | none => exact h
  | some m =>
    change (column Sca.Method.ofJson? m.toJson.write).map some = _
    rw [column_method]
    rfl

theorem challenge_apply {challenge after : Option Sca.Challenge} {u : Authorisation.Update}
    (h : optionalColumn Sca.Challenge.ofJson? r.challenge = .ok challenge)
    (k : optionalColumn Sca.Challenge.ofJson? (r.apply u).challenge = .ok after) :
    after = (u.challenge <|> challenge) := by
  unfold apply at k
  cases hc : u.challenge with
  | none =>
    rw [hc] at k
    exact Except.ok.inj (k.symm.trans h)
  | some c =>
    rw [hc] at k
    obtain ⟨d, hd, rfl⟩ := map_eq_ok k
    rw [eq_of_column_challenge hd]
    rfl

theorem read_apply {u : Authorisation.Update} (h : r.read = .ok a)
    (k : (r.apply u).read = .ok b) : b = a.apply u := by
  obtain ⟨psu, method, challenge, hp, hm, hc, rfl⟩ := read_ok_iff.mp h
  obtain ⟨psu', method', challenge', hp', hm', hc', rfl⟩ := read_ok_iff.mp k
  have samePsu : psu' = u.psu.getD psu := Except.ok.inj (hp'.symm.trans (psu_apply hp u))
  have sameMethod : method' = (u.method <|> method) :=
    Except.ok.inj (hm'.symm.trans (method_apply hm u))
  rw [samePsu, sameMethod, challenge_apply hc hc']
  rfl

theorem challenge_apply_ok {challenge : Option Sca.Challenge} {u : Authorisation.Update}
    (h : optionalColumn Sca.Challenge.ofJson? r.challenge = .ok challenge)
    (fits : u.challenge.all Sca.Challenge.fits = true) :
    optionalColumn Sca.Challenge.ofJson? (r.apply u).challenge = .ok (u.challenge <|> challenge) := by
  unfold apply
  cases written : u.challenge with
  | none => exact h
  | some c =>
    rw [written] at fits
    change (column Sca.Challenge.ofJson? c.toJson.write).map some = _
    rw [column_challenge fits]
    rfl

theorem read_apply_ok {u : Authorisation.Update} (h : r.read = .ok a)
    (fits : u.challenge.all Sca.Challenge.fits = true) : (r.apply u).read = .ok (a.apply u) := by
  obtain ⟨psu, method, challenge, hp, hm, hc, rfl⟩ := read_ok_iff.mp h
  exact read_ok_iff.mpr
    ⟨_, _, _, psu_apply hp u, method_apply hm u, challenge_apply_ok hc fits, rfl⟩

theorem insertByAge_perm (r : AuthorisationRow) (rows : List AuthorisationRow) :
    (r.insertByAge rows).Perm (r :: rows) := by
  induction rows with
  | nil => exact .refl _
  | cons q rows ih =>
    rw [insertByAge]
    split
    · exact .refl _
    · exact (ih.cons q).trans (.swap r q rows)

theorem oldestFirst_perm (rows : List AuthorisationRow) : (oldestFirst rows).Perm rows := by
  induction rows with
  | nil => exact .refl _
  | cons r rows ih => exact (insertByAge_perm r _).trans (ih.cons r)

theorem oldestFirst_of_pairwise {rows : List AuthorisationRow}
    (aged : rows.Pairwise fun r q => r.createdAt ≤ q.createdAt) : oldestFirst rows = rows := by
  induction rows with
  | nil => rfl
  | cons r rows ih =>
    obtain ⟨first, rest⟩ := List.pairwise_cons.mp aged
    change r.insertByAge (oldestFirst rows) = _
    rw [ih rest]
    cases rows with
    | nil => rfl
    | cons q rows => exact if_pos (first q List.mem_cons_self)

end AuthorisationRow

namespace TableStore
open StrongAuth.Store

variable {s s' : TableStore}

/-- Every row of authorisations can be read. -/
def IsLegible (s : TableStore) : Prop :=
  ∀ r ∈ s.authorisations, ∃ a, r.read = .ok a

theorem IsLegible.map_read (h : s.IsLegible) :
    s.authorisations.map AuthorisationRow.read = s.records.map .ok := by
  unfold IsLegible at h
  unfold records
  generalize s.authorisations = rows at h
  induction rows with
  | nil => rfl
  | cons r rows ih =>
    obtain ⟨a, read⟩ := h r List.mem_cons_self
    have others := ih fun q hq => h q (List.mem_cons_of_mem _ hq)
    rw [List.filterMap_cons, List.map_cons, others, read]
    rfl

theorem IsLegible.record_of_row (h : s.IsLegible) {n : Nat} {r : AuthorisationRow}
    (there : s.authorisations[n]? = some r) : ∃ a, s.records[n]? = some a ∧ r.read = .ok a := by
  have position := congrArg (fun l : List (Except StoreError Authorisation) => l[n]?) h.map_read
  simp only [List.getElem?_map, there, Option.map_some] at position
  obtain ⟨a, found, read⟩ := Option.map_eq_some_iff.mp position.symm
  exact ⟨a, found, read.symm⟩

theorem IsLegible.row_of_record (h : s.IsLegible) {n : Nat} {a : Authorisation}
    (there : s.records[n]? = some a) : ∃ r, s.authorisations[n]? = some r ∧ r.read = .ok a := by
  have position := congrArg (fun l : List (Except StoreError Authorisation) => l[n]?) h.map_read
  simp only [List.getElem?_map, there, Option.map_some] at position
  exact Option.map_eq_some_iff.mp position

theorem mem_records {a : Authorisation} :
    a ∈ s.records ↔ ∃ r ∈ s.authorisations, r.read = .ok a := by
  rw [records, List.mem_filterMap]
  refine exists_congr fun r => and_congr_right fun _ => ?_
  cases r.read <;> simp [Except.toOption]

theorem id_of_read {r : AuthorisationRow} {a : Authorisation} (h : r.read = .ok a) :
    a.id = r.id ∧ a.parentId = r.parentId ∧ a.purpose = r.purpose := by
  obtain ⟨_, _, _, _, _, _, rfl⟩ := AuthorisationRow.read_ok_iff.mp h
  exact ⟨rfl, rfl, rfl⟩

theorem mapM_eq_ok_iff {α β : Type} {f : α → Except StoreError β} {l : List α} {m : List β} :
    l.mapM f = .ok m ↔ l.map f = m.map .ok := by
  induction l generalizing m with
  | nil => cases m <;> simp [pure, Except.pure]
  | cons x l ih =>
    rw [List.mapM_cons, List.map_cons]
    constructor
    · intro h
      obtain ⟨y, read, h⟩ := bind_eq_ok h
      obtain ⟨rest, reads, h⟩ := bind_eq_ok h
      cases h
      rw [read, ih.mp reads, List.map_cons]
    · intro h
      cases m with
      | nil => cases h
      | cons y m =>
        obtain ⟨read, reads⟩ := List.cons_eq_cons.mp h
        rw [read, ih.mpr reads]
        rfl

theorem records_of_map_read {rows : List AuthorisationRow} {l : List Authorisation}
    (h : rows.map AuthorisationRow.read = l.map .ok) :
    (rows.filterMap fun r => r.read.toOption) = l := by
  have answers := congrArg (List.filterMap Except.toOption) h
  rw [List.filterMap_map, List.filterMap_map] at answers
  exact answers.trans List.filterMap_some

theorem map_read_of_forall {rows : List AuthorisationRow}
    (h : ∀ r ∈ rows, ∃ a, r.read = .ok a) :
    ∃ l : List Authorisation, rows.map AuthorisationRow.read = l.map .ok := by
  induction rows with
  | nil => exact ⟨[], rfl⟩
  | cons r rows ih =>
    obtain ⟨a, read⟩ := h r List.mem_cons_self
    obtain ⟨l, reads⟩ := ih fun q hq => h q (List.mem_cons_of_mem _ hq)
    exact ⟨a :: l, by rw [List.map_cons, read, reads, List.map_cons]⟩

theorem records_siblings (s : TableStore) (parentId : String) (p : Purpose) :
    ((s.authorisations.filter fun r => r.parentId == parentId && r.purpose == p).filterMap
      fun r => r.read.toOption) = s.records.filter (isSibling parentId p) := by
  rw [records, List.filterMap_filter, List.filter_filterMap]
  refine List.filterMap_congr fun r _ => ?_
  cases read : r.read with
  | error e => simp [Except.toOption]
  | ok a =>
    obtain ⟨-, parent, purpose⟩ := id_of_read read
    simp [Except.toOption, isSibling, parent, purpose, Option.filter]

theorem exists_readSiblings_iff {parentId : String} {p : Purpose} :
    (∃ l, s.readSiblings parentId p = .ok l) ↔ ∀ r ∈ s.authorisations,
      (r.parentId == parentId && r.purpose == p) = true → ∃ a, r.read = .ok a := by
  have same := AuthorisationRow.oldestFirst_perm (s.authorisations.filter fun r =>
    r.parentId == parentId && r.purpose == p)
  constructor
  · rintro ⟨l, read⟩ r there sibling
    have answers := mapM_eq_ok_iff.mp read
    have member : r ∈ AuthorisationRow.oldestFirst _ :=
      same.mem_iff.mpr (List.mem_filter.mpr ⟨there, sibling⟩)
    have answered : r.read ∈ l.map Except.ok := answers ▸ List.mem_map_of_mem member
    obtain ⟨a, -, e⟩ := List.mem_map.mp answered
    exact ⟨a, e.symm⟩
  · intro readable
    have each : ∀ r ∈ AuthorisationRow.oldestFirst _, ∃ a, r.read = .ok a := fun r there => by
      obtain ⟨there, sibling⟩ := List.mem_filter.mp (same.mem_iff.mp there)
      exact readable r there sibling
    obtain ⟨l, answers⟩ := map_read_of_forall each
    exact ⟨l, mapM_eq_ok_iff.mpr answers⟩

/-- Siblings that are read are the siblings among all rows that can be read. -/
theorem readSiblings_ok {parentId : String} {p : Purpose} {l : List Authorisation}
    (h : s.readSiblings parentId p = .ok l) : l.Perm (s.records.filter (isSibling parentId p)) := by
  rw [← s.records_siblings, ← records_of_map_read (mapM_eq_ok_iff.mp h)]
  exact (AuthorisationRow.oldestFirst_perm _).filterMap _

theorem IsLegible.readSiblings (h : s.IsLegible) (parentId : String) (p : Purpose) :
    ∃ l, s.readSiblings parentId p = .ok l ∧ l.Perm (s.records.filter (isSibling parentId p)) := by
  obtain ⟨l, read⟩ := exists_readSiblings_iff.mpr fun r there _ => h r there
  exact ⟨l, read, readSiblings_ok read⟩

theorem records_of_reads {rows : List AuthorisationRow} {as : List Authorisation}
    (rowsOf : s.authorisations = rows) (h : rows.map AuthorisationRow.read = as.map .ok) :
    s.IsLegible ∧ s.records = as := by
  have legible : s.IsLegible := by
    intro r hr
    have read : r.read ∈ as.map Except.ok := by
      rw [← h]
      rw [rowsOf] at hr
      exact List.mem_map_of_mem hr
    obtain ⟨a, -, e⟩ := List.mem_map.mp read
    exact ⟨a, e.symm⟩
  refine ⟨legible, ?_⟩
  have reads := legible.map_read
  rw [rowsOf, h] at reads
  exact ((List.map_inj_right fun _ _ e => Except.ok.inj e).mp reads).symm

theorem records_set (h : s.IsLegible) {n : Nat} {r : AuthorisationRow} {a : Authorisation}
    (read : r.read = .ok a) (rows : s'.authorisations = s.authorisations.set n r) :
    s'.IsLegible ∧ s'.records = s.records.set n a := by
  refine records_of_reads rows ?_
  rw [List.map_set, List.map_set, h.map_read, read]

theorem records_append (h : s.IsLegible) {r : AuthorisationRow} {a : Authorisation}
    (read : r.read = .ok a) (rows : s'.authorisations = s.authorisations ++ [r]) :
    s'.IsLegible ∧ s'.records = s.records ++ [a] := by
  refine records_of_reads rows ?_
  rw [List.map_append, List.map_append, h.map_read, List.map_singleton, List.map_singleton, read]

theorem records_same (h : s.IsLegible) (rows : s'.authorisations = s.authorisations) :
    s'.IsLegible ∧ s'.records = s.records :=
  records_of_reads rows h.map_read

theorem modifyRow_eq_set (h : s.IsLegible) (distinct : Distinct s.records) {n : Nat}
    {r : AuthorisationRow} (there : s.authorisations[n]? = some r)
    (f : AuthorisationRow → AuthorisationRow) :
    (s.modifyRow r.id f).authorisations = s.authorisations.set n (f r) := by
  refine rewritten_eq_set AuthorisationRow.id f there ?_
  intro m q hq same
  obtain ⟨a, ha, readA⟩ := h.record_of_row there
  obtain ⟨b, hb, readB⟩ := h.record_of_row hq
  refine distinct.unique hb ha ?_
  rw [(id_of_read readA).1, (id_of_read readB).1, same]

theorem putParentStatus_ok {id : String} {st : Parent.Status}
    (h : s.putParentStatus id st = .ok s') :
    s'.authorisations = s.authorisations ∧ s'.isClosed = s.isClosed ∧ s'.psusOf = s.psusOf ∧
      s'.summary? = Parents.put s.summary? id st := by
  cases st with
  | consent st =>
    simp only [putParentStatus, putConsentStatus, writeConsent] at h
    cases found : s.consents.find? fun r => r.id == id with
    | none => simp [found] at h
    | some r =>
      simp only [found, Except.ok.injEq] at h
      subst h
      refine ⟨rfl, rfl, rfl, ?_⟩
      funext p i
      have rows := find?_rewritten ConsentRow.id (fun r => { r with status := st })
        (fun _ => rfl) s.consents id i
      cases kind : p.isPayment with
      | false =>
        simp only [Parents.put, summary?, kind, rows, Parent.Status.concerns]
        cases s.consents.find? fun r => r.id == i <;> by_cases here : i = id <;> simp [here]
      | true => simp [Parents.put, summary?, kind, Parent.Status.concerns]
  | payment st =>
    simp only [putParentStatus, putPaymentStatus, writePayment] at h
    cases found : s.payments.find? fun r => r.id == id with
    | none => simp [found] at h
    | some r =>
      simp only [found] at h
      split at h
      · next written e =>
        simp only [Prod.mk.injEq] at e
        obtain ⟨-, rfl⟩ := e
        cases h
        refine ⟨rfl, rfl, rfl, ?_⟩
        funext p i
        have rows := find?_rewritten PaymentRow.id (fun r => { r with status := st })
          (fun _ => rfl) s.payments id i
        cases kind : p.isPayment with
        | false => simp [Parents.put, summary?, kind, Parent.Status.concerns]
        | true =>
          simp only [Parents.put, summary?, kind, rows, Parent.Status.concerns]
          cases s.payments.find? fun r => r.id == i <;> by_cases here : i = id <;> simp [here]
      · cases h

theorem putOptionalStatus_ok {id : String} {reported : Option Parent.Status}
    (h : s.putOptionalStatus id reported = .ok s') :
    s'.authorisations = s.authorisations ∧ s'.isClosed = s.isClosed ∧ s'.psusOf = s.psusOf ∧
      s'.summary? = Parents.putOptional s.summary? id reported := by
  cases reported with
  | none =>
    cases h
    exact ⟨rfl, rfl, rfl, rfl⟩
  | some st => exact putParentStatus_ok h

theorem summary?_congr (s : TableStore) (p q : Purpose) (sort : p.isPayment = q.isPayment) :
    s.summary? p = s.summary? q := by
  funext i
  simp only [summary?, sort]

theorem readPayment_none_iff {i : String} :
    s.readPayment i = .ok none ↔ (s.payments.find? fun r => r.id == i) = none := by
  unfold readPayment
  constructor
  · intro h
    split at h
    · next missing => exact missing
    · obtain ⟨q, -, e⟩ := map_eq_ok h
      cases e
  · intro missing
    rw [missing]

theorem readPayment_some_iff {i : String} {q : Payment} : s.readPayment i = .ok (some q) ↔
    ∃ r, (s.payments.find? fun r => r.id == i) = some r ∧ r.withPsus (s.psusOf i) = .ok q := by
  unfold readPayment
  constructor
  · intro h
    split at h
    · cases h
    · next r row =>
      obtain ⟨q', built, e⟩ := map_eq_ok h
      cases e
      exact ⟨r, row, built⟩
  · rintro ⟨r, row, built⟩
    rw [row]
    simp only [built]
    rfl

theorem readPayment_ok {i : String} {q : Payment} (h : s.readPayment i = .ok (some q)) :
    q.id = i ∧ q.psus = s.psusOf i ∧
      ∀ p : Purpose, p.isPayment = true → s.summary? p i = some (Parent.payment q).summary := by
  obtain ⟨r, row, built⟩ := readPayment_some_iff.mp h
  obtain ⟨order, -, e⟩ := bind_eq_ok built
  cases e
  refine ⟨by simpa using List.find?_some row, rfl, fun p sort => ?_⟩
  simp [summary?, sort, row, Parent.summary]

theorem readConsent_ok {i : String} {c : Consent} (h : s.readConsent i = some c) :
    c.id = i ∧ c.psus = s.psusOf i ∧
      ∀ p : Purpose, p.isPayment = false → s.summary? p i = some (Parent.consent c).summary := by
  obtain ⟨r, row, rfl⟩ := Option.map_eq_some_iff.mp h
  have same : r.id = i := by simpa using List.find?_some row
  refine ⟨same, rfl, fun p sort => ?_⟩
  simp [summary?, sort, row, Parent.summary, ConsentRow.withPsus]

theorem due_of_granted {a : Authorisation} {status : Option Parent.Status}
    (granted : a.status.isGranted = true) (h : s.statusByProgress a = .ok status) :
    Due s.summary? (fun _ => s.psusOf) s.records a status := by
  unfold statusByProgress at h
  cases kind : a.purpose with
  | account =>
    simp only [kind] at h
    split at h
    · next missing =>
      cases h
      refine .orphan ?_
      have none : (s.consents.find? fun r => r.id == a.parentId) = none :=
        Option.map_eq_none_iff.mp missing
      simp [summary?, kind, Purpose.isPayment, none]
    · next c found =>
      obtain ⟨siblings, read, h⟩ := bind_eq_ok h
      rw [Parent.progress_perm (readSiblings_ok read)] at h
      cases h
      obtain ⟨same, psus, summary⟩ := readConsent_ok found
      exact Due.of_parent (.consent c) kind granted nofun same (summary _ rfl) psus rfl
  | initiation =>
    simp only [kind] at h
    obtain ⟨found, read, h⟩ := bind_eq_ok h
    split at h
    · cases h
      refine .orphan ?_
      simp [summary?, kind, Purpose.isPayment, readPayment_none_iff.mp read]
    · next q =>
      obtain ⟨siblings, siblingsRead, h⟩ := bind_eq_ok h
      rw [Parent.progress_perm (readSiblings_ok siblingsRead)] at h
      cases h
      obtain ⟨same, psus, summary⟩ := readPayment_ok read
      exact Due.of_parent (.payment q) kind granted nofun same (summary _ rfl) psus rfl
  | cancellation =>
    simp only [kind] at h
    cases h
    exact .cancellation kind

theorem settleParent_ok {a : Authorisation} (h : s.settleParent a = .ok s') :
    s'.authorisations = s.authorisations ∧ s'.isClosed = s.isClosed ∧ s'.psusOf = s.psusOf ∧
      ∃ due, Due s.summary? (fun _ => s.psusOf) s.records a due ∧
        s'.summary? = Parents.putOptional s.summary? a.parentId due := by
  unfold settleParent at h
  split at h
  · next granted =>
    obtain ⟨status, progress, put⟩ := bind_eq_ok h
    obtain ⟨rows, closed, psus, parents⟩ := putOptionalStatus_ok put
    exact ⟨rows, closed, psus, status, due_of_granted granted progress, parents⟩
  · next ungranted =>
    cases h
    exact ⟨rfl, rfl, rfl, none, .ungranted (Bool.eq_false_iff.mpr ungranted), rfl⟩

/-- A transaction that comes about reads the row, rewrites it and reads it again. Then the parent is
settled, and then it takes the status that was reported. -/
theorem transact_steps {id : String} {version : Int} {u : Authorisation.Update}
    {written : Authorisation} (h : s.transact id version u = .ok (written, s')) :
    ∃ r a s₁, (s.authorisations.find? fun r => r.id == id) = some r ∧ r.read = .ok a ∧
      writeConflict a version = none ∧ (r.apply u).read = .ok written ∧ written = a.apply u ∧
      (s.modifyRow id fun r => r.apply u).settleParent written = .ok s₁ ∧
      s₁.putOptionalStatus written.parentId u.parentStatus = .ok s' := by
  unfold transact at h
  split at h
  · cases h
  · next r row =>
    obtain ⟨a, read, h⟩ := bind_eq_ok h
    split at h
    · cases h
    · next free =>
      obtain ⟨b, reread, h⟩ := bind_eq_ok h
      obtain ⟨s₁, settled, h⟩ := bind_eq_ok h
      obtain ⟨s₂, put, h⟩ := bind_eq_ok h
      cases h
      exact ⟨r, a, s₁, row, read, free, reread, AuthorisationRow.read_apply read reread, settled, put⟩

theorem transact_ok {id : String} {version : Int} {u : Authorisation.Update}
    {written : Authorisation} (legible : s.IsLegible) (distinct : Distinct s.records)
    (h : s.transact id version u = .ok (written, s')) :
    s'.IsLegible ∧ s'.isClosed = s.isClosed ∧ s'.psusOf = s.psusOf ∧
      Rewrites id version u written s.records s'.records ∧
      Owed u.parentStatus written s'.records (fun _ => s.psusOf) s.summary? s'.summary? := by
  obtain ⟨r, a, s₁, found, read, free, reread, result, settle, put⟩ := transact_steps h
  obtain ⟨n, row, rfl⟩ := position_of_find? AuthorisationRow.id found
  obtain ⟨a', there, read'⟩ := legible.record_of_row row
  obtain rfl := Except.ok.inj (read.symm.trans read')
  have modified := modifyRow_eq_set legible distinct row fun r => r.apply u
  obtain ⟨legible₀, records₀⟩ := records_set legible reread modified
  obtain ⟨rows₁, closed₁, psus₁, due, follows, parents₁⟩ := settleParent_ok settle
  obtain ⟨rows₂, closed₂, psus₂, parents₂⟩ := putOptionalStatus_ok put
  obtain ⟨legible', records⟩ := records_same legible₀ (rows₂.trans rows₁)
  refine ⟨legible', closed₂.trans closed₁, psus₂.trans psus₁, ?_, due, ?_, ?_⟩
  · exact ⟨n, a, there, (id_of_read read).1, free, result, records.trans records₀⟩
  · rw [records]
    exact follows
  · rw [parents₂, parents₁]
    rfl

theorem updateAuthorisation_ok {id : String} {version : Int} {u : Authorisation.Update}
    {written : Authorisation} (legible : s.IsLegible) (distinct : Distinct s.records)
    (h : s.updateAuthorisation id version u = (.ok written, s')) :
    s'.IsLegible ∧ s'.isClosed = s.isClosed ∧ s'.psusOf = s.psusOf ∧
      Rewrites id version u written s.records s'.records ∧
      Owed u.parentStatus written s'.records (fun _ => s.psusOf) s.summary? s'.summary? := by
  unfold updateAuthorisation writing at h
  split at h
  · cases h
  · split at h
    · next transacted =>
      cases h
      exact transact_ok legible distinct transacted
    · cases h

theorem updateAuthorisation_error {id : String} {version : Int} {u : Authorisation.Update}
    {e : StoreError} (h : s.updateAuthorisation id version u = (.error e, s')) : s' = s := by
  unfold updateAuthorisation writing at h
  split at h
  · cases h
    rfl
  · split at h
    · cases h
    · cases h
      rfl

theorem insertAuthorisation_eq (s : TableStore) (d : Authorisation.Draft) :
    s.insertAuthorisation d = s.writing
      (.ok (Authorisation.ofDraft s.nextId d), { s with authorisations := s.authorisations ++
        [AuthorisationRow.ofDraft s.nextId (s.clock s.authorisations.length) d] }) := by
  simp only [insertAuthorisation, AuthorisationRow.read_ofDraft]

theorem insertAuthorisation_ok {d : Authorisation.Draft} {a : Authorisation}
    (legible : s.IsLegible) (h : s.insertAuthorisation d = (.ok a, s')) :
    s'.IsLegible ∧ s'.isClosed = s.isClosed ∧ s'.summary? = s.summary? ∧ s'.psusOf = s.psusOf ∧
      a = Authorisation.ofDraft s.nextId d ∧ s'.records = s.records ++ [a] := by
  rw [insertAuthorisation_eq] at h
  unfold writing at h
  split at h
  · cases h
  · obtain ⟨answer, after⟩ := Prod.mk.inj h
    have rows : s'.authorisations = s.authorisations ++
        [AuthorisationRow.ofDraft s.nextId (s.clock s.authorisations.length) d] := by
      rw [← after]
    obtain ⟨legible', records⟩ := records_append legible (AuthorisationRow.read_ofDraft _ _ d) rows
    rw [← Except.ok.inj answer]
    refine ⟨legible', ?_, ?_, ?_, rfl, records⟩
    · rw [← after]
    · rw [← after]
      rfl
    · rw [← after]
      rfl

theorem insertAuthorisation_error {d : Authorisation.Draft} {e : StoreError}
    (h : s.insertAuthorisation d = (.error e, s')) : s' = s := by
  rw [insertAuthorisation_eq] at h
  unfold writing at h
  split at h
  · cases h
    rfl
  · cases h

theorem psusOf_filePsus (s : TableStore) (id : String) (psus : List Psu) (i : String) :
    s.psusOf i ⊆ (s.filePsus id psus).psusOf i := by
  simp only [psusOf, filePsus, List.filter_append, List.map_append]
  exact List.subset_append_left _ _

structure Extends (s s' : TableStore) : Prop where
  authorisations : s'.authorisations = s.authorisations
  isClosed : s'.isClosed = s.isClosed
  parents : ∀ p i m, s.summary? p i = some m → s'.summary? p i = some m
  psus : ∀ i, s.psusOf i ⊆ s'.psusOf i

theorem Extends.refl (s : TableStore) : s.Extends s :=
  ⟨rfl, rfl, fun _ _ _ there => there, fun _ => List.Subset.refl _⟩

theorem insertConsent_extends {d : Consent.Draft} {x : Except StoreError Consent}
    (h : s.insertConsent d = (x, s')) : s.Extends s' := by
  unfold insertConsent writing at h
  split at h
  · cases h
    exact .refl s
  · split at h
    · cases h
      exact .refl s
    · cases h
      refine ⟨rfl, rfl, ?_, psusOf_filePsus s d.id d.psus⟩
      intro p i m there
      cases kind : p.isPayment with
      | true => simpa [summary?, kind, filePsus] using there
      | false =>
        simp only [summary?, kind, Bool.false_eq_true, if_false, Option.map_eq_some_iff] at there ⊢
        obtain ⟨r, row, rfl⟩ := there
        exact ⟨r, find?_append_of_some row _, rfl⟩

theorem insertPayment_extends {q : Payment} {x : Except StoreError Payment}
    (h : s.insertPayment q = (x, s')) : s.Extends s' := by
  unfold insertPayment writing at h
  split at h
  · cases h
    exact .refl s
  · split at h
    · cases h
      exact .refl s
    · cases h
      exact .refl s
    · simp only at h
      split at h
      · cases h
        exact .refl s
      · cases h
        refine ⟨rfl, rfl, ?_, psusOf_filePsus s q.id q.psus⟩
        intro p i m there
        cases kind : p.isPayment with
        | false => simpa [summary?, kind, filePsus] using there
        | true =>
          simp only [summary?, kind, if_true, Option.map_eq_some_iff] at there ⊢
          obtain ⟨r, row, rfl⟩ := there
          exact ⟨r, find?_append_of_some row _, rfl⟩

theorem insertConsent_adds {d : Consent.Draft} {x : Except StoreError Consent}
    (h : s.insertConsent d = (x, s')) :
    Parents.Adds s.summary? s'.summary? false d.id ⟨.consent .received, d.multilevel⟩ := by
  unfold insertConsent writing at h
  split at h
  · cases h
    exact .refl _ _ _ _
  · split at h
    · cases h
      exact .refl _ _ _ _
    · cases h
      intro p i
      cases kind : p.isPayment with
      | true => exact .inl (by simp [summary?, kind, filePsus])
      | false =>
        simp only [summary?, kind, Bool.false_eq_true, if_false, filePsus]
        rcases find?_appended ConsentRow.id s.consents (ConsentRow.ofDraft d) i with
          same | ⟨here, none, added⟩
        · exact .inl (by rw [same])
        · exact .inr ⟨trivial, here, by rw [none]; rfl, by rw [added]; rfl⟩

theorem insertPayment_adds {q : Payment} {x : Except StoreError Payment}
    (h : s.insertPayment q = (x, s')) : s'.summary? = s.summary? ∨ ((∃ stored, x = .ok stored) ∧
      Parents.Adds s.summary? s'.summary? true q.id (Parent.payment q).summary) := by
  unfold insertPayment writing at h
  split at h
  · cases h
    exact .inl rfl
  · split at h
    · cases h
      exact .inl rfl
    · cases h
      exact .inl rfl
    · simp only at h
      split at h
      · cases h
        exact .inl rfl
      · next stored _ =>
        cases h
        refine .inr ⟨⟨stored, rfl⟩, fun p i => ?_⟩
        cases kind : p.isPayment with
        | false => exact .inl (by simp [summary?, kind, filePsus])
        | true =>
          simp only [summary?, kind, if_true, filePsus]
          rcases find?_appended PaymentRow.id s.payments (PaymentRow.ofPayment q) i with
            same | ⟨here, none, added⟩
          · exact .inl (by rw [same])
          · exact .inr ⟨trivial, here, by rw [none]; rfl, by rw [added]; rfl⟩

theorem saveOrder_parents {id : String} {order : Order} {x : Except StoreError Payment}
    (h : s.saveOrder id order = (x, s')) : s'.summary? = s.summary? ∧ s'.psusOf = s.psusOf := by
  unfold saveOrder writing at h
  split at h
  · cases h
    exact ⟨rfl, rfl⟩
  · unfold writePayment at h
    split at h
    · cases h
      exact ⟨rfl, rfl⟩
    · obtain ⟨-, rfl⟩ := Prod.mk.inj h
      refine ⟨?_, rfl⟩
      funext p i
      have rows := find?_rewritten PaymentRow.id
        (fun r => { r with order := some order.toJson.write }) (fun _ => rfl) s.payments id i
      cases kind : p.isPayment with
      | false => simp [summary?, kind]
      | true =>
        simp only [summary?, kind, if_true, rows]
        cases s.payments.find? fun r => r.id == i <;> by_cases here : i = id <;> simp [here]

theorem saveOrder_extends {id : String} {order : Order} {x : Except StoreError Payment}
    (h : s.saveOrder id order = (x, s')) : s.Extends s' := by
  obtain ⟨parents, psus⟩ := saveOrder_parents h
  have frame : s'.authorisations = s.authorisations ∧ s'.isClosed = s.isClosed := by
    unfold saveOrder writing writePayment at h
    split at h
    · cases h
      exact ⟨rfl, rfl⟩
    · split at h <;> obtain ⟨-, rfl⟩ := Prod.mk.inj h <;> exact ⟨rfl, rfl⟩
  refine ⟨frame.1, frame.2, fun p i m there => ?_, fun i => ?_⟩
  · rw [parents]
    exact there
  · rw [psus]
    exact List.Subset.refl _

theorem readable_payment_iff {i : String} : (∃ q, s.readPayment i = .ok (some q)) ↔
    ∃ r order, (s.payments.find? fun r => r.id == i) = some r ∧
      optionalColumn Order.ofJson? r.order = .ok order := by
  constructor
  · rintro ⟨q, h⟩
    obtain ⟨r, row, built⟩ := readPayment_some_iff.mp h
    obtain ⟨order, column, -⟩ := bind_eq_ok built
    exact ⟨r, order, row, column⟩
  · rintro ⟨r, order, row, column⟩
    have built : ∃ q, r.withPsus (s.psusOf i) = .ok q := by
      rw [PaymentRow.withPsus, column]
      exact ⟨_, rfl⟩
    obtain ⟨q, built⟩ := built
    exact ⟨q, readPayment_some_iff.mpr ⟨r, row, built⟩⟩

def HasReadable (s : TableStore) (p : Purpose) (i : String) : Prop :=
  (p.isPayment = false → ∃ c, s.readConsent i = some c) ∧
    (p.isPayment = true → ∃ q, s.readPayment i = .ok (some q))

theorem putParentStatus_accepted {p : Purpose} {i : String} {st : Parent.Status}
    (there : s.HasReadable p i) (concerns : st.concerns p = true) :
    ∃ s', s.putParentStatus i st = .ok s' ∧ s'.HasReadable p i := by
  cases st with
  | consent st =>
    have sort : p.isPayment = false := by simpa [Parent.Status.concerns] using concerns
    obtain ⟨c, found⟩ := there.1 sort
    obtain ⟨r, row, -⟩ := Option.map_eq_some_iff.mp found
    have rows := find?_rewritten ConsentRow.id (fun r => { r with status := st })
      (fun _ => rfl) s.consents i i
    rw [row] at rows
    refine ⟨(s.putConsentStatus i st).2, ?_, ?_⟩
    · simp only [putParentStatus, putConsentStatus, writeConsent, row]
    · refine ⟨fun _ => ?_, fun payment => ?_⟩
      · simp only [putConsentStatus, writeConsent, row, readConsent, rows]
        exact ⟨_, rfl⟩
      · rw [sort] at payment
        cases payment
  | payment st =>
    have sort : p.isPayment = true := concerns
    obtain ⟨r, order, row, column⟩ := readable_payment_iff.mp (there.2 sort)
    have rows := find?_rewritten PaymentRow.id (fun r => { r with status := st })
      (fun _ => rfl) s.payments i i
    rw [row] at rows
    refine ⟨(s.putPaymentStatus i st).2, ?_, ?_⟩
    · simp only [putParentStatus, putPaymentStatus, writePayment, row, PaymentRow.withPsus, column]
      rfl
    · refine ⟨fun consent => ?_, fun _ => ?_⟩
      · rw [sort] at consent
        cases consent
      · refine readable_payment_iff.mpr ⟨{ r with status := st }, order, ?_, column⟩
        simp only [putPaymentStatus, writePayment, row, rows]
        rfl

theorem settleParent_accepted {a : Authorisation}
    (siblings : ∃ l, s.readSiblings a.parentId a.purpose = .ok l)
    (there : s.HasReadable a.purpose a.parentId) :
    ∃ s', s.settleParent a = .ok s' ∧ s'.HasReadable a.purpose a.parentId := by
  have progress : ∃ status, s.statusByProgress a = .ok status ∧
      ∀ st, status = some st → st.concerns a.purpose = true := by
    unfold statusByProgress
    cases kind : a.purpose with
    | account =>
      obtain ⟨c, found⟩ := there.1 (by rw [kind]; rfl)
      rw [kind] at siblings
      obtain ⟨l, read⟩ := siblings
      simp only [found, read]
      refine ⟨_, rfl, ?_⟩
      intro st h
      obtain ⟨_, _, rfl⟩ := Option.map_eq_some_iff.mp h
      rfl
    | initiation =>
      obtain ⟨q, found⟩ := there.2 (by rw [kind]; rfl)
      rw [kind] at siblings
      obtain ⟨l, read⟩ := siblings
      simp only [found, read]
      refine ⟨_, rfl, ?_⟩
      intro st h
      obtain ⟨_, _, rfl⟩ := Option.map_eq_some_iff.mp h
      rfl
    | cancellation => exact ⟨none, rfl, nofun⟩
  unfold settleParent
  split
  · obtain ⟨status, computed, concerns⟩ := progress
    rw [computed]
    cases status with
    | none => exact ⟨s, rfl, there⟩
    | some st =>
      exact putParentStatus_accepted there (concerns st rfl)
  · exact ⟨s, rfl, there⟩

theorem writing_of_open {α : Type} (h : s.isClosed = false)
    (answer : Except StoreError α × TableStore) : s.writing answer = answer := by
  rw [writing, h]
  rfl

theorem reading_of_open {α : Type} (h : s.isClosed = false) (answer : Except StoreError α) :
    s.reading answer = answer := by
  rw [reading, h]
  rfl

theorem transact_eq {s' : TableStore} {id : String} {version : Int} {u : Authorisation.Update}
    {r : AuthorisationRow} {a b : Authorisation}
    (row : (s.authorisations.find? fun r => r.id == id) = some r) (read : r.read = .ok a)
    (free : writeConflict a version = none) (reread : (r.apply u).read = .ok b)
    (settled : (s.modifyRow id fun r => r.apply u).settleParent b = .ok s') :
    s.transact id version u =
      (s'.putOptionalStatus b.parentId u.parentStatus).map fun after => (b, after) := by
  unfold transact
  simp only [row, read, bind, Except.bind, free, reread, settled]
  cases s'.putOptionalStatus b.parentId u.parentStatus <;> rfl

theorem transact_conflict {id : String} {version : Int} {u : Authorisation.Update}
    {r : AuthorisationRow} {a : Authorisation} {e : StoreError}
    (row : (s.authorisations.find? fun r => r.id == id) = some r) (read : r.read = .ok a)
    (conflict : writeConflict a version = some e) : s.transact id version u = .error e := by
  unfold transact
  simp only [row, read, bind, Except.bind, conflict]

theorem transact_missing {id : String} {version : Int} {u : Authorisation.Update}
    (row : (s.authorisations.find? fun r => r.id == id) = none) :
    s.transact id version u = .error (.unknownAuthorisation id) := by
  unfold transact
  rw [row]

/-- An update whose challenge fits leaves every row as readable as it was. -/
theorem readSiblings_modifyRow {i id : String} {p : Purpose} {u : Authorisation.Update}
    (fits : u.challenge.all Sca.Challenge.fits = true)
    (readable : ∃ l, s.readSiblings i p = .ok l) :
    ∃ l, (s.modifyRow id fun r => r.apply u).readSiblings i p = .ok l := by
  rw [exists_readSiblings_iff] at readable ⊢
  intro q there sibling
  obtain ⟨r, hr, rfl⟩ := List.mem_map.mp there
  by_cases own : (r.id == id) = true
  · rw [if_pos own] at sibling ⊢
    obtain ⟨x, read⟩ := readable r hr sibling
    exact ⟨_, AuthorisationRow.read_apply_ok read fits⟩
  · rw [if_neg own] at sibling ⊢
    exact readable r hr sibling

/-- An open store accepts an update of the current version if it can read the row back, the parent,
and the siblings. -/
theorem updateAuthorisation_accepted {id : String} {version : Int} {u : Authorisation.Update}
    {a : Authorisation} (opened : s.isClosed = false)
    (found : s.readAuthorisation id = .ok (some a)) (free : writeConflict a version = none)
    (fits : u.challenge.all Sca.Challenge.fits = true)
    (siblings : ∃ l, s.readSiblings a.parentId a.purpose = .ok l)
    (there : s.HasReadable a.purpose a.parentId)
    (concerns : ∀ st, u.parentStatus = some st → st.concerns a.purpose = true) :
    ∃ written, (s.updateAuthorisation id version u).1 = .ok written := by
  unfold readAuthorisation at found
  split at found
  · cases found
  · next r row =>
    obtain ⟨a', read, e⟩ := map_eq_ok found
    cases e
    have reread := AuthorisationRow.read_apply_ok read fits
    obtain ⟨s₁, settled, there₁⟩ := settleParent_accepted (s := s.modifyRow id fun r => r.apply u)
      (a := a.apply u) (readSiblings_modifyRow fits siblings) there
    have put : ∃ s₂, s₁.putOptionalStatus (a.apply u).parentId u.parentStatus = .ok s₂ := by
      cases reported : u.parentStatus with
      | none => exact ⟨s₁, rfl⟩
      | some st =>
        obtain ⟨s₂, put, -⟩ := putParentStatus_accepted there₁ (concerns st reported)
        exact ⟨s₂, put⟩
    obtain ⟨s₂, put⟩ := put
    refine ⟨a.apply u, ?_⟩
    have transacted : s.transact id version u = .ok (a.apply u, s₂) := by
      rw [transact_eq row read free reread settled, put]
      rfl
    rw [updateAuthorisation, writing_of_open opened, transacted]

theorem saveOrder_ok {i : String} {order : Order} {saved : Payment}
    (h : s.saveOrder i order = (.ok saved, s')) :
    s'.isClosed = false ∧ s'.readPayment i = .ok (some saved) := by
  unfold saveOrder writing at h
  split at h
  · cases h
  · next opened =>
    unfold writePayment at h
    split at h
    · cases h
    · next r row =>
      obtain ⟨read, after⟩ := Prod.mk.inj h
      have rows := find?_rewritten PaymentRow.id
        (fun r => { r with order := some order.toJson.write }) (fun _ => rfl) s.payments i i
      rw [row, Option.map_some, if_pos rfl] at rows
      rw [← after]
      refine ⟨Bool.eq_false_iff.mpr opened, ?_⟩
      simp only [readPayment, rows]
      change (PaymentRow.withPsus _ (s.psusOf i)).map some = _
      rw [read]
      rfl

end TableStore

end StrongAuth
