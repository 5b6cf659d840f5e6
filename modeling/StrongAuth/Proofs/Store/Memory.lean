import StrongAuth.Proofs.Store.Laws

set_option autoImplicit false

namespace StrongAuth.MemoryStore
open StrongAuth.Store

variable {s s' : MemoryStore}

theorem findConsent_putConsentStatus (s : MemoryStore) (id i : String) (st : Consent.Status) :
    (s.putConsentStatus id st).findConsent i =
      (s.findConsent i).map fun c => if i = id then { c with status := st } else c := by
  unfold putConsentStatus
  cases found : s.findConsent id with
  | none =>
    by_cases here : i = id
    · rw [here, found]
      rfl
    · simp [here]
  | some c =>
    exact find?_rewritten Consent.id (fun c => { c with status := st }) (fun _ => rfl)
      s.consents id i

theorem findPayment_putPaymentStatus (s : MemoryStore) (id i : String) (st : Payment.Status) :
    (s.putPaymentStatus id st).findPayment i =
      (s.findPayment i).map fun p => if i = id then { p with status := st } else p := by
  unfold putPaymentStatus
  cases found : s.findPayment id with
  | none =>
    by_cases here : i = id
    · rw [here, found]
      rfl
    · simp [here]
  | some p =>
    exact find?_rewritten Payment.id (fun p => { p with status := st }) (fun _ => rfl)
      s.payments id i

theorem summary?_putParentStatus (s : MemoryStore) (id : String) (st : Parent.Status) :
    (s.putParentStatus id st).summary? = Parents.put s.summary? id st := by
  funext p i
  cases st with
  | consent st =>
    have payments : (s.putConsentStatus id st).payments = s.payments := by
      unfold putConsentStatus
      split <;> rfl
    have found := findConsent_putConsentStatus s id i st
    cases kind : p.isPayment with
    | false =>
      simp only [putParentStatus, Parents.put, summary?, kind, found, Parent.Status.concerns]
      cases s.findConsent i <;> by_cases here : i = id <;> simp [here, Parent.summary]
    | true =>
      simp [putParentStatus, Parents.put, summary?, kind, Parent.Status.concerns, findPayment,
        payments]
  | payment st =>
    have consents : (s.putPaymentStatus id st).consents = s.consents := by
      unfold putPaymentStatus
      split <;> rfl
    have found := findPayment_putPaymentStatus s id i st
    cases kind : p.isPayment with
    | false =>
      simp [putParentStatus, Parents.put, summary?, kind, Parent.Status.concerns, findConsent,
        consents]
    | true =>
      simp only [putParentStatus, Parents.put, summary?, kind, found, Parent.Status.concerns]
      cases s.findPayment i <;> by_cases here : i = id <;> simp [here, Parent.summary]

theorem summary?_congr (s : MemoryStore) (p q : Purpose) (sort : p.isPayment = q.isPayment) :
    s.summary? p = s.summary? q := by
  funext i
  simp only [summary?, sort]

theorem psusOf_putParentStatus (s : MemoryStore) (id : String) (st : Parent.Status) :
    (s.putParentStatus id st).psusOf = s.psusOf := by
  funext p i
  cases st with
  | consent st =>
    have found := findConsent_putConsentStatus s id i st
    cases kind : p.isPayment with
    | false =>
      simp only [putParentStatus, psusOf, kind, found]
      cases s.findConsent i <;> by_cases here : i = id <;> simp [here]
    | true =>
      simp only [putParentStatus, psusOf, kind, putConsentStatus]
      cases s.findConsent id <;> rfl
  | payment st =>
    have found := findPayment_putPaymentStatus s id i st
    cases kind : p.isPayment with
    | false =>
      simp only [putParentStatus, psusOf, kind, putPaymentStatus]
      cases s.findPayment id <;> rfl
    | true =>
      simp only [putParentStatus, psusOf, kind, found]
      cases s.findPayment i <;> by_cases here : i = id <;> simp [here]

theorem exists_putParentStatus_eq (s : MemoryStore) (id : String) (st : Parent.Status) :
    ∃ consents payments writes,
      s.putParentStatus id st = { s with consents, payments, writes } := by
  cases st with
  | consent st =>
    simp only [putParentStatus, putConsentStatus]
    cases s.findConsent id <;> exact ⟨_, _, _, rfl⟩
  | payment st =>
    simp only [putParentStatus, putPaymentStatus]
    cases s.findPayment id <;> exact ⟨_, _, _, rfl⟩

theorem putParentStatus_frame (s : MemoryStore) (id : String) (st : Parent.Status) :
    (s.putParentStatus id st).authorisations = s.authorisations ∧
      (s.putParentStatus id st).isCalm = s.isCalm := by
  obtain ⟨_, _, _, put⟩ := s.exists_putParentStatus_eq id st
  rw [put]
  exact ⟨rfl, rfl⟩

theorem due_of_granted (s : MemoryStore) {a : Authorisation} (granted : a.status.isGranted = true) :
    Due s.summary? s.psusOf s.authorisations a (s.statusByProgress a) := by
  unfold statusByProgress
  cases kind : a.purpose with
  | account =>
    cases found : s.findConsent a.parentId with
    | none =>
      refine .orphan ?_
      simp [summary?, kind, Purpose.isPayment, found]
    | some c =>
      have same : c.id = a.parentId := by simpa using List.find?_some found
      refine Due.of_parent (.consent c) kind granted nofun same ?_ ?_ rfl
      · simp [summary?, Purpose.isPayment, found]
      · simp [psusOf, Purpose.isPayment, found, Parent.psus]
  | initiation =>
    cases found : s.findPayment a.parentId with
    | none =>
      refine .orphan ?_
      simp [summary?, kind, Purpose.isPayment, found]
    | some q =>
      have same : q.id = a.parentId := by simpa using List.find?_some found
      refine Due.of_parent (.payment q) kind granted nofun same ?_ ?_ rfl
      · simp [summary?, Purpose.isPayment, found]
      · simp [psusOf, Purpose.isPayment, found, Parent.psus]
  | cancellation => exact .cancellation kind

theorem due_of_update (s : MemoryStore) (a : Authorisation) :
    Due s.summary? s.psusOf s.authorisations a
      (if a.status.isGranted then s.statusByProgress a else none) := by
  cases granted : a.status.isGranted with
  | false => exact .ungranted granted
  | true => exact due_of_granted s granted

theorem settleParent_laws (s : MemoryStore) (a : Authorisation) :
    (s.settleParent a).authorisations = s.authorisations ∧
      (s.settleParent a).isCalm = s.isCalm ∧ (s.settleParent a).psusOf = s.psusOf ∧
      ∃ due, Due s.summary? s.psusOf s.authorisations a due ∧
        (s.settleParent a).summary? = Parents.putOptional s.summary? a.parentId due := by
  have follows := s.due_of_update a
  unfold settleParent
  split
  · next st settled =>
    rw [settled] at follows
    obtain ⟨records, calm⟩ := putParentStatus_frame s a.parentId st
    exact ⟨records, calm, psusOf_putParentStatus s a.parentId st, some st, follows,
      summary?_putParentStatus s a.parentId st⟩
  · next settled =>
    rw [settled] at follows
    exact ⟨rfl, rfl, rfl, none, follows, rfl⟩

theorem writeUpdate_laws {n : Nat} {a : Authorisation} (distinct : Distinct s.authorisations)
    (there : s.authorisations[n]? = some a) (u : Authorisation.Update) :
    (s.writeUpdate a u).1 = a.apply u ∧
      (s.writeUpdate a u).2.authorisations = s.authorisations.set n (a.apply u) ∧
      (s.writeUpdate a u).2.isCalm = s.isCalm ∧ (s.writeUpdate a u).2.psusOf = s.psusOf ∧
      Owed u.parentStatus (a.apply u) (s.authorisations.set n (a.apply u)) s.psusOf s.summary?
        (s.writeUpdate a u).2.summary? := by
  have rewritten : (s.modifyAuthorisation a.id fun _ => a.apply u).authorisations =
      s.authorisations.set n (a.apply u) :=
    rewritten_eq_set Authorisation.id (fun _ => a.apply u) there fun _ _ hb same =>
      distinct.unique hb there same
  obtain ⟨records, calm, psus, due, follows, settled⟩ := settleParent_laws
    { s.modifyAuthorisation a.id fun _ => a.apply u with
      writes := { s.writes with authorisationUpdates := s.writes.authorisationUpdates + 1 } }
    (a.apply u)
  rw [rewritten] at follows records
  unfold writeUpdate
  split
  · next st reported =>
    obtain ⟨records', calm'⟩ := putParentStatus_frame _ a.parentId st
    refine ⟨rfl, records'.trans records, calm'.trans calm,
      (psusOf_putParentStatus _ a.parentId st).trans psus, due, follows, ?_⟩
    rw [reported]
    refine (summary?_putParentStatus _ a.parentId st).trans ?_
    exact congrArg (fun parents => Parents.put parents a.parentId st) settled
  · next reported =>
    rw [reported]
    exact ⟨rfl, records, calm, psus, due, follows, settled⟩

theorem isCalm_iff (s : MemoryStore) :
    s.isCalm = true ↔ s.failReads = none ∧ s.failUpdate = none ∧ s.failParentStatus = none := by
  simp [isCalm, and_assoc]

theorem checkParentStatus_frame (s : MemoryStore) (id : String) (reported : Option Parent.Status) :
    (s.checkParentStatus id reported).2.authorisations = s.authorisations ∧
      (s.checkParentStatus id reported).2.summary? = s.summary? ∧
      (s.checkParentStatus id reported).2.psusOf = s.psusOf ∧
      (s.isCalm = true → (s.checkParentStatus id reported).2.isCalm = true) := by
  unfold checkParentStatus
  split
  · exact ⟨rfl, rfl, rfl, fun calm => calm⟩
  · split
    · next e failing =>
      refine ⟨rfl, rfl, rfl, fun calm => ?_⟩
      rw [isCalm_iff, failing] at calm
      exact nomatch calm.2.2
    · exact ⟨rfl, rfl, rfl, fun calm => calm⟩

theorem checkParentStatus_ok {id : String} {reported : Option Parent.Status}
    (h : s.checkParentStatus id reported = (.ok (), s')) : s' = s := by
  unfold checkParentStatus at h
  split at h
  · exact (Prod.mk.inj h).2.symm
  · split at h
    · cases h
    · exact (Prod.mk.inj h).2.symm

/-- A refused update leaves everything as it is, but for a failure that was asked for and is used up. -/
theorem updateAuthorisation_refused {id : String} {version : Int} {u : Authorisation.Update}
    {e : StoreError} (h : s.updateAuthorisation id version u = (.error e, s')) :
    s' = s ∨ (s.failUpdate = some e ∧ s' = { s with failUpdate := none }) ∨
      (s.failParentStatus = some e ∧ s' = { s with failParentStatus := none }) := by
  unfold updateAuthorisation at h
  split at h
  · next failing =>
    cases h
    exact .inr (.inl ⟨failing, rfl⟩)
  · split at h
    · cases h
      exact .inl rfl
    · next a found =>
      split at h
      · cases h
        exact .inl rfl
      · split at h
        · next checked =>
          cases h
          unfold checkParentStatus at checked
          split at checked
          · cases checked
          · split at checked
            · next failing =>
              cases checked
              exact .inr (.inr ⟨failing, rfl⟩)
            · exact .inl (Prod.mk.inj checked).2.symm
        · cases h

theorem updateAuthorisation_error {id : String} {version : Int} {u : Authorisation.Update}
    {e : StoreError} (h : s.updateAuthorisation id version u = (.error e, s')) :
    s'.authorisations = s.authorisations ∧ s'.summary? = s.summary? ∧ s'.psusOf = s.psusOf ∧
      (s.isCalm = true → s'.isCalm = true) := by
  rcases updateAuthorisation_refused h with rfl | ⟨failing, rfl⟩ | ⟨failing, rfl⟩
  · exact ⟨rfl, rfl, rfl, fun calm => calm⟩
  · refine ⟨rfl, rfl, rfl, fun calm => ?_⟩
    rw [isCalm_iff, failing] at calm
    exact nomatch calm.2.1
  · refine ⟨rfl, rfl, rfl, fun calm => ?_⟩
    rw [isCalm_iff, failing] at calm
    exact nomatch calm.2.2

theorem updateAuthorisation_steps {id : String} {version : Int} {u : Authorisation.Update}
    {written : Authorisation} (h : s.updateAuthorisation id version u = (.ok written, s')) :
    ∃ a, s.findAuthorisation id = some a ∧ writeConflict a version = none ∧
      s.checkParentStatus a.parentId u.parentStatus = (.ok (), s) ∧
      s.writeUpdate a u = (written, s') := by
  unfold updateAuthorisation at h
  split at h
  · cases h
  · split at h
    · cases h
    · next a found =>
      split at h
      · cases h
      · next free =>
        split at h
        · cases h
        · next s₁ checked =>
          obtain rfl := checkParentStatus_ok checked
          obtain ⟨result, after⟩ := Prod.mk.inj h
          exact ⟨a, found, free, checked, Prod.ext (Except.ok.inj result) after⟩

theorem updateAuthorisation_ok {id : String} {version : Int} {u : Authorisation.Update}
    {written : Authorisation} (distinct : Distinct s.authorisations)
    (h : s.updateAuthorisation id version u = (.ok written, s')) :
    Rewrites id version u written s.authorisations s'.authorisations ∧
      Owed u.parentStatus written s'.authorisations s.psusOf s.summary? s'.summary? ∧
      s'.psusOf = s.psusOf ∧ (s.isCalm = true → s'.isCalm = true) := by
  obtain ⟨a, found, free, -, wrote⟩ := updateAuthorisation_steps h
  obtain ⟨n, there, rfl⟩ := position_of_find? Authorisation.id found
  obtain ⟨result, written', calm', psus', owed⟩ := writeUpdate_laws distinct there u
  rw [wrote] at result written' calm' psus' owed
  obtain rfl : written = a.apply u := result
  dsimp only at written' calm' psus' owed
  rw [calm', psus', written']
  exact ⟨⟨n, a, there, rfl, free, rfl, rfl⟩, owed, rfl, fun calm => calm⟩

theorem updateAuthorisation_accepted {id : String} {version : Int} {u : Authorisation.Update}
    {a : Authorisation} (calm : s.isCalm = true) (found : s.findAuthorisation id = some a)
    (free : writeConflict a version = none)
    (parent : ∀ st, u.parentStatus = some st → s.hasParent a.parentId st = .ok ()) :
    ∃ written, (s.updateAuthorisation id version u).1 = .ok written := by
  obtain ⟨-, update, status⟩ := (isCalm_iff s).mp calm
  have checked : s.checkParentStatus a.parentId u.parentStatus = (.ok (), s) := by
    unfold checkParentStatus
    cases reported : u.parentStatus with
    | none => rfl
    | some st => simp only [status, parent st reported]
  simp only [updateAuthorisation, update, found, free, checked]
  exact ⟨_, rfl⟩

structure Extends (s s' : MemoryStore) : Prop where
  authorisations : s'.authorisations = s.authorisations
  isCalm : s'.isCalm = s.isCalm
  parents : ∀ p i m, s.summary? p i = some m → s'.summary? p i = some m
  psus : ∀ p i, s.psusOf p i ⊆ s'.psusOf p i

theorem Extends.refl (s : MemoryStore) : s.Extends s :=
  ⟨rfl, rfl, fun _ _ _ there => there, fun _ _ => List.Subset.refl _⟩

theorem extends_of_found (authorisations : s'.authorisations = s.authorisations)
    (isCalm : s'.isCalm = s.isCalm)
    (consents : ∀ i c, s.findConsent i = some c → s'.findConsent i = some c)
    (payments : ∀ i q, s.findPayment i = some q → s'.findPayment i = some q) : s.Extends s' := by
  refine ⟨authorisations, isCalm, fun p i m there => ?_, fun p i => ?_⟩
  · cases kind : p.isPayment with
    | false =>
      simp only [summary?, kind, Bool.false_eq_true, if_false, Option.map_eq_some_iff] at there ⊢
      obtain ⟨c, found, rfl⟩ := there
      exact ⟨c, consents i c found, rfl⟩
    | true =>
      simp only [summary?, kind, if_true, Option.map_eq_some_iff] at there ⊢
      obtain ⟨q, found, rfl⟩ := there
      exact ⟨q, payments i q found, rfl⟩
  · cases kind : p.isPayment with
    | false =>
      simp only [psusOf, kind, Bool.false_eq_true, if_false]
      cases found : s.findConsent i with
      | none => exact List.nil_subset _
      | some c =>
        rw [consents i c found]
        exact List.Subset.refl _
    | true =>
      simp only [psusOf, kind, if_true]
      cases found : s.findPayment i with
      | none => exact List.nil_subset _
      | some q =>
        rw [payments i q found]
        exact List.Subset.refl _

theorem insertConsent_extends {d : Consent.Draft} {x : Except StoreError Consent}
    (h : s.insertConsent d = (x, s')) : s.Extends s' := by
  unfold insertConsent at h
  split at h
  · cases h
    exact .refl s
  · cases h
    refine extends_of_found rfl rfl (fun i c found => ?_) fun _ _ found => found
    exact find?_append_of_some (l := s.consents) found _

theorem insertPayment_extends {q : Payment} {x : Except StoreError Payment}
    (h : s.insertPayment q = (x, s')) : s.Extends s' := by
  unfold insertPayment at h
  split at h
  · cases h
    exact .refl s
  · cases h
    refine extends_of_found rfl rfl (fun _ _ found => found) fun i r found => ?_
    exact find?_append_of_some (l := s.payments) found _

theorem insertConsent_adds {d : Consent.Draft} {x : Except StoreError Consent}
    (h : s.insertConsent d = (x, s')) :
    Parents.Adds s.summary? s'.summary? false d.id ⟨.consent .received, d.multilevel⟩ := by
  unfold insertConsent at h
  split at h
  · cases h
    exact .refl _ _ _ _
  · cases h
    intro p i
    cases kind : p.isPayment with
    | true => exact .inl (by simp [summary?, kind, findPayment])
    | false =>
      simp only [summary?, kind, Bool.false_eq_true, if_false, findConsent]
      rcases find?_appended Consent.id s.consents (Consent.ofDraft d) i with
        same | ⟨here, none, added⟩
      · exact .inl (by rw [same])
      · exact .inr ⟨trivial, here, by rw [none]; rfl, by rw [added]; rfl⟩

theorem insertPayment_adds {q : Payment} {x : Except StoreError Payment}
    (h : s.insertPayment q = (x, s')) : s'.summary? = s.summary? ∨ ((∃ stored, x = .ok stored) ∧
      Parents.Adds s.summary? s'.summary? true q.id (Parent.payment q).summary) := by
  unfold insertPayment at h
  split at h
  · cases h
    exact .inl rfl
  · cases h
    refine .inr ⟨⟨q, rfl⟩, fun p i => ?_⟩
    cases kind : p.isPayment with
    | false => exact .inl (by simp [summary?, kind, findConsent])
    | true =>
      simp only [summary?, kind, if_true, findPayment]
      rcases find?_appended Payment.id s.payments q i with same | ⟨here, none, added⟩
      · exact .inl (by rw [same])
      · exact .inr ⟨trivial, here, by rw [none]; rfl, by rw [added]; rfl⟩

theorem saveOrder_parents {id : String} {order : Order} {x : Except StoreError Payment}
    (h : s.saveOrder id order = (x, s')) : s'.summary? = s.summary? ∧ s'.psusOf = s.psusOf := by
  unfold saveOrder at h
  split at h
  · cases h
    exact ⟨rfl, rfl⟩
  · cases h
    have found (i : String) := find?_rewritten Payment.id (fun q => { q with order := some order })
      (fun _ => rfl) s.payments id i
    refine ⟨?_, ?_⟩ <;> funext p i
    · cases kind : p.isPayment with
      | false => simp only [summary?, kind, findConsent, Bool.false_eq_true, if_false]
      | true =>
        simp only [summary?, kind, if_true, findPayment, found]
        cases s.payments.find? fun q => q.id == i <;> by_cases here : i = id <;>
          simp [here, Parent.summary]
    · cases kind : p.isPayment with
      | false => simp only [psusOf, kind, findConsent, Bool.false_eq_true, if_false]
      | true =>
        simp only [psusOf, kind, if_true, findPayment, found]
        cases s.payments.find? fun q => q.id == i <;> by_cases here : i = id <;> simp [here]

theorem saveOrder_extends {id : String} {order : Order} {x : Except StoreError Payment}
    (h : s.saveOrder id order = (x, s')) : s.Extends s' := by
  obtain ⟨parents, psus⟩ := saveOrder_parents h
  have frame : s'.authorisations = s.authorisations ∧ s'.isCalm = s.isCalm := by
    unfold saveOrder at h
    split at h <;> cases h <;> exact ⟨rfl, rfl⟩
  refine ⟨frame.1, frame.2, fun p i m there => ?_, fun p i => ?_⟩
  · rw [parents]
    exact there
  · rw [psus]
    exact List.Subset.refl _

theorem saveOrder_ok {i : String} {order : Order} {saved : Payment}
    (h : s.saveOrder i order = (.ok saved, s')) : s'.findPayment i = some saved := by
  unfold saveOrder at h
  split at h
  · cases h
  · next q found =>
    obtain ⟨answer, after⟩ := Prod.mk.inj h
    have rewritten := find?_rewritten Payment.id (fun q => { q with order := some order })
      (fun _ => rfl) s.payments i i
    change s.payments.find? (fun q => q.id == i) = some q at found
    rw [found, Option.map_some, if_pos rfl] at rewritten
    rw [← after, ← Except.ok.inj answer]
    exact rewritten

end StrongAuth.MemoryStore
