import StrongAuth.Proofs.Membership
import StrongAuth.Proofs.Signing

set_option autoImplicit false

/-!
# The status of a parent is the sum of its authorisations

A store brings the status of a parent up to date when one of its authorisations is granted, and at no
other time. That is often enough: what was granted is never taken back, so progress only grows, and
between two grants it stands still. The bank may overrule all this by a status of its own.
-/
namespace StrongAuth
open StrongAuth.Calendar StrongAuth.Backend

namespace Progress

def consentStatus : Progress → Consent.Status
  | .notStarted => .received
  | .incomplete => .partiallyAuthorised
  | .complete => .valid

def paymentStatus : Progress → Payment.Status
  | .notStarted => .rcvd
  | .incomplete => .patc
  | .complete => .actc

theorem consentStatus_inj {g h : Progress} : g.consentStatus = h.consentStatus ↔ g = h := by
  cases g <;> cases h <;> simp [consentStatus]

theorem paymentStatus_inj {g h : Progress} : g.paymentStatus = h.paymentStatus ↔ g = h := by
  cases g <;> cases h <;> simp [paymentStatus]

end Progress

namespace Parent

variable {parent other : Parent} {l l' : List Authorisation}

def statusFor : Parent → Progress → Status
  | .consent _, g => .consent g.consentStatus
  | .payment _, g => .payment g.paymentStatus

/-- From a status by progress to the next one. Only a payment that is complete is not looked at
again, and then it has to stay complete. -/
theorem statusAfter_of_statusFor {g g' : Progress} (status : parent.summary.status = other.statusFor g)
    (begun : g' ≠ .notStarted) (lasting : g = .complete → g' = .complete) :
    (parent.statusAfter g').getD parent.summary.status = other.statusFor g' := by
  cases parent with
  | consent c =>
    cases other with
    | payment q => cases status
    | consent d =>
      have now : c.status = g.consentStatus := Status.consent.inj status
      cases g <;> cases g' <;>
        simp_all [statusAfter, Consent.statusAfter, Progress.consentStatus, statusFor,
          Consent.Status.isTerminal, summary]
  | payment q =>
    cases other with
    | consent d => cases status
    | payment r =>
      have now : q.status = g.paymentStatus := Status.payment.inj status
      cases g <;> cases g' <;>
        simp_all [statusAfter, Payment.statusAfter, Progress.paymentStatus, statusFor,
          Payment.Status.isPending, summary]

/-- A consent that was rejected, or a parent whose status is its progress in the store. -/
def IsAggregate (parent : Parent) (p : Purpose) (b : Backend) : Prop :=
  ∀ m, b.summary? p parent.id = some m → m.multilevel = parent.multilevel →
    m.status = .consent .rejected ∨
      m.status = parent.statusFor (parent.progress (b.siblings parent.id p))

theorem IsAggregate.congr {p : Purpose} {b b' : Backend} (h : parent.IsAggregate p b)
    (summary : b'.summary? p parent.id = b.summary? p parent.id)
    (granted : parent.granted (b'.siblings parent.id p) = parent.granted (b.siblings parent.id p)) :
    parent.IsAggregate p b' := by
  intro m there several
  rw [summary] at there
  rw [progress_of_granted granted]
  exact h m there several

end Parent

theorem Purpose.eq_of_isPayment {p q : Purpose} (hp : p ≠ .cancellation) (hq : q ≠ .cancellation)
    (same : p.isPayment = q.isPayment) : p = q := by
  cases p <;> cases q <;> simp_all [Purpose.isPayment]

theorem Transcript.rejected_of_parentStatus {a : Attempt} {xs : List Bank.Exchange} {o : Outcome}
    {st : Consent.Status} (h : Transcript a xs o) (reported : o.parentStatus = some (.consent st)) :
    st = .rejected := by
  cases h with
  | refused _ _ bare | exempted _ _ _ bare | identified _ _ _ bare | authenticated _ _ bare
  | deferred _ _ bare | unanswered _ _ _ _ bare | confirmedLocally _ _ _ _ _ _ _ bare =>
    rw [bare.parentStatus] at reported
    cases reported
  | selected _ _ _ _ _ _ none | verified _ _ _ _ _ none =>
    rw [none] at reported
    cases reported
  | @effected x e before context answered =>
    change e.parentStatus = some (.consent st) at reported
    unfold Bank.Exchange.effect? at answered
    split at answered
    · cases answered
      cases reported
      rfl
    · cases answered
      cases reported
    · cases answered
      cases reported
    · cases answered
      cases reported
    · cases answered
  | confirmedAtBank => cases reported

def Turn.paymentStatus? (t : Turn) : Option Payment.Status :=
  match t.answer with
  | .ok o =>
    match o.parentStatus with
    | some (.payment status) => some status
    | _ => none
  | .error _ => none

namespace Engine

variable {c : Config} {now : Instant} {site : Site Backend} {u : UpdateRequest} {t : Turn} {n : Nat}
  {a : Authorisation} {o : Outcome} {after : Backend} {p : Purpose} {i : String} {parent : Parent}

theorem Moved.unreported (h : Moved site now u t n a o after) (quiet : t.paymentStatus? = none)
    (st : Payment.Status) : o.parentStatus ≠ some (.payment st) := by
  intro reported
  simp only [Turn.paymentStatus?, h.answer, reported] at quiet
  cases quiet

/-- An update shows only in the parent of its authorisation. That of a cancellation shows nowhere
unless the bank reports a status. -/
theorem Moved.summary_other (sound : site.store.IsSound) (h : Moved site now u t n a o after)
    (other : Store.isSibling i p a = false) (counted : p ≠ .cancellation)
    (quiet : p.isPayment = true → i = a.parentId → t.paymentStatus? = none) :
    after.summary? p i = site.store.summary? p i := by
  have mismatch (here : i = a.parentId) : a.purpose ≠ p := by
    rintro rfl
    simp [Store.isSibling, here] at other
  obtain ⟨⟨due, follows, parents⟩, -⟩ := h.owed sound
  rw [parents, Store.Parents.putOptional_other, Store.Parents.putOptional_other]
  · rintro here st rfl
    obtain ⟨proper, concerns⟩ := follows.concerns
    cases same : st.concerns p with
    | false => rfl
    | true =>
      have sort := Parent.Status.concerns_congr concerns same
      exact absurd (Purpose.eq_of_isPayment proper counted sort) (mismatch here)
  · intro here st reported
    obtain ⟨reported, concerns⟩ := ownStatus_concerns reported
    cases same : st.concerns p with
    | false => rfl
    | true =>
      have sort := Parent.Status.concerns_congr concerns same
      cases st with
      | payment st => exact absurd reported (h.unreported (quiet same here) st)
      | consent st =>
        refine absurd (Purpose.eq_of_isPayment ?_ counted sort) (mismatch here)
        intro cancels
        rw [cancels] at concerns
        cases concerns

theorem Moved.siblings_other (h : Moved site now u t n a o after)
    (other : Store.isSibling i p a = false) :
    after.siblings i p = site.store.siblings i p := by
  unfold siblings
  rw [h.records]
  exact Store.filter_set_of_false _ h.position other other

theorem Moved.granted_of_ungranted (h : Moved site now u t n a o after)
    (ungranted : o.status.isGranted = false) :
    parent.granted (after.siblings i p) = parent.granted (site.store.siblings i p) := by
  unfold Parent.granted siblings
  rw [h.records, List.filter_filter, List.filter_filter]
  have before : a.status.isGranted = false := Sca.Status.not_isGranted_of_live h.live
  have after' : (a.updated u o).status.isGranted = false := ungranted
  exact Store.filter_set_of_false _ h.position (by simp [before]) (by simp [after'])

theorem Moved.granted_subset (h : Moved site now u t n a o after) :
    parent.granted (site.store.siblings parent.id p) ⊆
      parent.granted (after.siblings parent.id p) := by
  intro d hd
  obtain ⟨there, grant⟩ := mem_granted_siblings.mp hd
  have ended := Authorisation.terminal_of_isGrantFor grant
  exact mem_granted_siblings.mpr ⟨h.mem_of_terminal there ended, grant⟩

theorem Moved.mem_granted (h : Moved site now u t n a o after)
    (sibling : Store.isSibling parent.id p a = true) (granted : o.status.isGranted = true) :
    a.updated u o ∈ parent.granted (after.siblings parent.id p) := by
  have grant : (a.updated u o).isGrantFor p parent.id = true := by
    change (Store.isSibling parent.id p a && o.status.isGranted) = true
    rw [sibling, granted]
    rfl
  exact mem_granted_siblings.mpr ⟨List.mem_of_getElem? h.written_record, grant⟩

theorem Moved.due_isAggregate {due : Option Parent.Status} {m : Parent.Summary}
    (h : Moved site now u t n a o after) (child : a.parentId = parent.id)
    (counted : a.purpose ≠ .cancellation) (listed : after.psusOf a.purpose parent.id = parent.psus)
    (there : site.store.summary? a.purpose parent.id = some m)
    (several : m.multilevel = parent.multilevel)
    (follows : Store.Due site.store.summary? after.psusOf after.records (a.updated u o) due)
    (before : m.status = .consent .rejected ∨ m.status =
      parent.statusFor (parent.progress (site.store.siblings parent.id a.purpose))) :
    due.getD m.status = .consent .rejected ∨ due.getD m.status =
      parent.statusFor (parent.progress (after.siblings parent.id a.purpose)) := by
  have sibling : Store.isSibling parent.id a.purpose a = true := by
    simp [Store.isSibling, child]
  cases follows with
  | cancellation purpose => exact absurd purpose counted
  | orphan missing =>
    change site.store.summary? a.purpose a.parentId = none at missing
    rw [child, there] at missing
    cases missing
  | ungranted status =>
    rw [Parent.progress_of_granted (h.granted_of_ungranted status)]
    exact before
  | @progress q status purpose id summary psus sort =>
    change q.id = a.parentId at id
    change site.store.summary? a.purpose a.parentId = some q.summary at summary
    change q.psus = after.psusOf a.purpose a.parentId at psus
    change (q.statusAfter (q.progress (after.siblings a.parentId a.purpose))).getD m.status = _ ∨
      (q.statusAfter (q.progress (after.siblings a.parentId a.purpose))).getD m.status = _
    rw [child] at id summary psus ⊢
    obtain rfl := Option.some.inj (there.symm.trans summary)
    rw [q.summary_multilevel] at several
    rw [Parent.progress_congr id several (psus.trans listed)]
    rcases before with rejected | counts
    · left
      cases next : q.statusAfter (parent.progress (after.siblings parent.id a.purpose)) with
      | none => exact rejected
      | some st =>
        have live := Parent.live_of_statusAfter next
        rw [rejected] at live
        cases live
    · right
      refine Parent.statusAfter_of_statusFor counts (fun idle => ?_)
        (Parent.complete_of_subset h.granted_subset)
      have own := h.mem_granted sibling status
      rw [Parent.progress_eq_notStarted_iff.mp idle] at own
      cases own

/-- An update of an authorisation leaves its parent with the status by progress, unless the bank
has refused a consent. -/
theorem Moved.isAggregate {m : Parent.Summary} (sound : site.store.IsSound)
    (h : Moved site now u t n a o after) (child : a.parentId = parent.id)
    (counted : a.purpose ≠ .cancellation)
    (listed : site.store.psusOf a.purpose parent.id = parent.psus)
    (quiet : a.purpose.isPayment = true → t.paymentStatus? = none)
    (there : site.store.summary? a.purpose parent.id = some m)
    (before : parent.IsAggregate a.purpose site.store) : parent.IsAggregate a.purpose after := by
  obtain ⟨⟨due, follows, parents⟩, lists⟩ := h.owed sound
  change after.summary? = (Store.Parents.putOptional _ a.parentId due).putOptional a.parentId _
    at parents
  rw [child] at parents
  have dueHere : ∀ st, due = some st → st.concerns a.purpose = true := by
    rintro st rfl
    exact follows.concerns.2
  have reportedHere : ∀ st, a.purpose.ownStatus o.parentStatus = some st →
      st.concerns a.purpose = true := fun _ reported => (ownStatus_concerns reported).2
  have between := Store.Parents.putOptional_own there dueHere
  have last := Store.Parents.putOptional_own between reportedHere
  intro m' there' several
  rw [parents, last] at there'
  obtain rfl := Option.some.inj there'
  cases reported : a.purpose.ownStatus o.parentStatus with
  | some st =>
    obtain ⟨spoken, concerns⟩ := ownStatus_concerns reported
    cases st with
    | consent st =>
      rw [h.transcript.rejected_of_parentStatus spoken]
      exact .inl rfl
    | payment st => exact absurd spoken (h.unreported (quiet concerns) st)
  | none =>
    have same : after.psusOf a.purpose parent.id = parent.psus := by
      rw [lists]
      exact listed
    exact h.due_isAggregate child counted same there several follows (before m there several)

def NoOrphans (b : Backend) : Prop :=
  ∀ a ∈ b.records, ∃ m, b.summary? a.purpose a.parentId = some m

theorem next_noOrphans (c : Config) (sound : site.store.IsSound) (h : NoOrphans site.store)
    (e : Event) : NoOrphans (next c site e).store := by
  have change := change_of_next c sound e
  intro a ha
  cases origin_of_mem c sound ha with
  | old there =>
    obtain ⟨m, parent⟩ := h a there
    obtain ⟨m', parent', -⟩ := change.multilevel parent
    exact ⟨m', parent'⟩
  | new opened =>
    obtain ⟨m, parent, -⟩ := opened.parent
    exact ⟨m, parent⟩
  | @moved now u n stored o moved =>
    obtain ⟨m, parent⟩ := h stored (List.mem_of_getElem? moved.position)
    obtain ⟨m', parent', -⟩ := change.multilevel parent
    exact ⟨m', parent'⟩

theorem siblings_of_absent {b : Backend} (h : NoOrphans b) (absent : b.summary? p i = none) :
    b.siblings i p = [] := by
  rw [siblings, List.filter_eq_nil_iff]
  intro a ha sibling
  obtain ⟨m, parent⟩ := h a ha
  obtain ⟨rfl, rfl⟩ : a.parentId = i ∧ a.purpose = p := by
    simpa [Store.isSibling] using sibling
  rw [absent] at parent
  cases parent

theorem Moved.absent (sound : site.store.IsSound) (h : Moved site now u t n a o after)
    (absent : site.store.summary? p i = none) : after.summary? p i = none := by
  obtain ⟨⟨due, follows, parents⟩, -⟩ := h.owed sound
  rw [parents]
  exact Store.Parents.putOptional_none (Store.Parents.putOptional_none absent)

theorem entered (c : Config) (sound : site.store.IsSound) {e : Event} {m : Parent.Summary}
    (absent : site.store.summary? p i = none) (there : (next c site e).store.summary? p i = some m) :
    (next c site e).store.records = site.store.records ∧
      ((p.isPayment = false ∧ m.status = .consent .received) ∨
        (p.isPayment = true ∧ ∃ q stored, e = .addPayment q ∧ q.id = i ∧
          (Store.insertPayment site.store q).1 = .ok stored ∧ m.status = .payment q.status)) := by
  have new (same : (next c site e).store.summary? = site.store.summary?) : False := by
    rw [same, absent] at there
    cases there
  cases change_of_next c sound e with
  | opened opened => exact (new opened.parents).elim
  | moved moved =>
    rw [moved.absent sound absent] at there
    cases there
  | kept keeps _ _ same =>
    refine ⟨keeps.records, ?_⟩
    cases e with
    | start | update | failure | bank => exact (new (same rfl)).elim
    | addConsent d =>
      rcases insertConsent_adds (b := site.store) (d := d) rfl p i with still | ⟨sort, -, -, added⟩
      · rw [absent] at still
        cases still.symm.trans there
      · cases added.symm.trans there
        exact .inl ⟨sort, rfl⟩
    | addPayment q =>
      rcases insertPayment_adds (b := site.store) (q := q) rfl with
        still | ⟨⟨stored, accepted⟩, adds⟩
      · exact (new still).elim
      · rcases adds p i with still | ⟨sort, rfl, -, added⟩
        · rw [absent] at still
          cases still.symm.trans there
        · cases added.symm.trans there
          exact .inr ⟨sort, q, stored, rfl, rfl, accepted, rfl⟩

/-- Whenever the store accepted the payment, it came in with this status. -/
def InsertedAs (c : Config) (site : Site Backend) (events : List Event) (i : String)
    (status : Payment.Status) : Prop :=
  ∀ early q late, events = early ++ .addPayment q :: late → q.id = i →
    (∃ stored, (Store.insertPayment (run c site early).store q).1 = .ok stored) → q.status = status

/-- No answer to an update of an authorisation of the payment carries a status of the payment. -/
def Unreported (c : Config) (site : Site Backend) (events : List Event) (i : String) : Prop :=
  ∀ t ∈ turns c site events, t.request.parentId = i → t.paymentStatus? = none

instance (events : List Event) : Decidable (Unreported c site events i) :=
  inferInstanceAs (Decidable (∀ t ∈ turns c site events, t.request.parentId = i →
    t.paymentStatus? = none))

/-- What is needed for the progress of a parent to be its status along a run. -/
structure Countable (c : Config) (site : Site Backend) (events : List Event) (p : Purpose)
    (parent : Parent) : Prop where
  counted : p ≠ .cancellation
  initial : (parent.statusFor .notStarted).concerns p = true
  listed : KeepsList c site events p parent.id parent.psus
  inserted : p.isPayment = true → InsertedAs c site events parent.id .rcvd
  quiet : p.isPayment = true → Unreported c site events parent.id

theorem Countable.tail {e : Event} {events : List Event}
    (h : Countable c site (e :: events) p parent) : Countable c (next c site e) events p parent where
  counted := h.counted
  initial := h.initial
  listed := h.listed.tail
  inserted sort := by
    rintro early q late rfl
    exact h.inserted sort (e :: early) q late rfl
  quiet sort t ht := h.quiet sort t (List.mem_append_right _ ht)

theorem isAggregate_of_entered (c : Config) (sound : site.store.IsSound)
    (orphans : NoOrphans site.store) {e : Event} {events : List Event}
    (h : Countable c site (e :: events) p parent)
    (absent : site.store.summary? p parent.id = none) :
    parent.IsAggregate p (next c site e).store := by
  intro m there _
  obtain ⟨records, initial⟩ := entered c sound absent there
  have nobody : (next c site e).store.siblings parent.id p = [] := by
    rw [siblings, records]
    exact siblings_of_absent orphans absent
  rw [nobody, Parent.progress_nil]
  have own := h.initial
  rcases initial with ⟨sort, status⟩ | ⟨sort, q, stored, rfl, same, accepted, status⟩
  · cases parent with
    | consent consent => exact .inr status
    | payment payment =>
      rw [Parent.statusFor, Parent.Status.concerns, sort] at own
      cases own
  · cases parent with
    | consent consent =>
      rw [Parent.statusFor, Parent.Status.concerns, sort] at own
      cases own
    | payment payment =>
      rw [h.inserted sort [] q events rfl same ⟨stored, accepted⟩] at status
      exact .inr status

theorem next_isAggregate (c : Config) (sound : site.store.IsSound) (orphans : NoOrphans site.store)
    {e : Event} {events : List Event} (h : Countable c site (e :: events) p parent)
    (before : parent.IsAggregate p site.store) :
    parent.IsAggregate p (next c site e).store := by
  cases there : site.store.summary? p parent.id with
  | none => exact isAggregate_of_entered c sound orphans h there
  | some m =>
    cases change_of_next c sound e with
    | kept keeps =>
      refine before.congr ?_ ?_
      · rw [there]
        exact keeps.parents _ _ _ there
      · simp only [siblings, keeps.records]
    | @opened now r id d opened =>
      refine before.congr (by rw [opened.parents]) ?_
      simp [Parent.granted, siblings, opened.records, List.filter_append, Authorisation.ofDraft,
        Sca.Status.isGranted, List.filter_cons]
    | @moved now u n stored o moved =>
      have quiet (sort : p.isPayment = true) (here : parent.id = stored.parentId) :
          (turn c now site u).paymentStatus? = none :=
        h.quiet sort _ List.mem_cons_self (moved.admitted.parent.symm.trans here.symm)
      cases sibling : Store.isSibling parent.id p stored with
      | false =>
        refine before.congr (moved.summary_other sound sibling h.counted quiet) ?_
        rw [moved.siblings_other sibling]
      | true =>
        obtain ⟨child, rfl⟩ : stored.parentId = parent.id ∧ stored.purpose = p := by
          simpa [Store.isSibling] using sibling
        have listed := h.listed.here (by rw [there]; rfl)
        exact moved.isAggregate sound child h.counted listed (fun sort => quiet sort child.symm)
          there before

theorem run_isAggregate (c : Config) (sound : site.store.IsSound) (orphans : NoOrphans site.store)
    (events : List Event) (h : Countable c site events p parent)
    (before : parent.IsAggregate p site.store) :
    parent.IsAggregate p (run c site events).store := by
  induction events generalizing site with
  | nil => exact before
  | cons e events ih =>
    exact ih ((change_of_next c sound e).sound sound) (next_noOrphans c sound orphans e) h.tail
      (next_isAggregate c sound orphans h before)

theorem next_cancellation (c : Config) (sound : site.store.IsSound)
    (ha : a ∈ site.store.records) (named : a.id = u.authorisationId)
    (cancels : a.purpose = .cancellation) (quiet : (turn c now site u).paymentStatus? = none) :
    (next c site (.update now u)).store.summary? = site.store.summary? := by
  cases change_of_next c sound (.update now u) with
  | kept keeps _ _ same => exact same rfl
  | @moved _ _ n stored o moved =>
    obtain ⟨k, position⟩ := List.getElem?_of_mem ha
    obtain ⟨m, there, found⟩ := authorisation_ok sound moved.admitted.found
    obtain rfl : k = m := sound.distinct.unique position there (named.trans found.symm)
    obtain rfl := Option.some.inj (position.symm.trans there)
    have still (p : Purpose) (counted : p ≠ .cancellation) :
        (next c site (.update now u)).store.summary? p = site.store.summary? p := by
      funext i
      refine moved.summary_other sound ?_ counted fun _ _ => quiet
      simp [Store.isSibling, cancels, counted.symm]
    funext p
    cases p with
    | account => exact still .account (by decide)
    | initiation => exact still .initiation (by decide)
    | cancellation =>
      rw [Backend.summary?_congr _ .cancellation .initiation rfl,
        Backend.summary?_congr _ .cancellation .initiation rfl]
      exact still .initiation (by decide)

/-- Along every run from an empty store, at every moment: the status of a consent that keeps its list
and was not rejected is the one that its progress stands for; so is the status of a payment that
keeps its list, was added as `rcvd`, and had no status reported by an update. And no update of a
cancellation adds to any progress. -/
theorem parent_status_is_aggregate (c : Config) (site : Site Backend)
    (empty : site.store.isEmpty = true) (events : List Event) :
    (∀ consent : Consent, (run c site events).store.Holds .account (.consent consent) →
      KeepsList c site events .account consent.id consent.psus → consent.status ≠ .rejected →
      ∀ g : Progress, consent.status = g.consentStatus ↔ (Parent.consent consent).progress
        ((run c site events).store.siblings consent.id .account) = g) ∧
    (∀ payment : Payment, (run c site events).store.Holds .initiation (.payment payment) →
      KeepsList c site events .initiation payment.id payment.psus →
      InsertedAs c site events payment.id .rcvd → Unreported c site events payment.id →
      ∀ g : Progress, payment.status = g.paymentStatus ↔ (Parent.payment payment).progress
        ((run c site events).store.siblings payment.id .initiation) = g) ∧
    (∀ now u, ∀ a ∈ (run c site events).store.records, a.id = u.authorisationId →
      a.purpose = .cancellation → (turn c now (run c site events) u).paymentStatus? = none →
      (next c (run c site events) (.update now u)).store.summary? =
        (run c site events).store.summary?) := by
  have fresh := isFresh_of_isEmpty empty
  have sound := isSound_of_isFresh fresh
  have orphans : NoOrphans site.store := by
    intro a ha
    rw [records_of_isFresh fresh] at ha
    cases ha
  have start (p : Purpose) (parent : Parent) : parent.IsAggregate p site.store := by
    intro m there
    rw [summary?_of_isEmpty empty] at there
    cases there
  refine ⟨?_, ?_, fun now u a ha named cancels quiet =>
    next_cancellation c (run_sound c sound events) ha named cancels quiet⟩
  · intro consent there listed alive g
    have countable : Countable c site events .account (.consent consent) :=
      ⟨nofun, rfl, listed, nofun, nofun⟩
    have counts := run_isAggregate c sound orphans events countable (start _ _)
    rcases counts _ there.summary rfl with rejected | status
    · exact absurd (Parent.Status.consent.inj rejected) alive
    · rw [Parent.Status.consent.inj status]
      exact Progress.consentStatus_inj
  · intro payment there listed inserted quiet g
    have countable : Countable c site events .initiation (.payment payment) :=
      ⟨nofun, rfl, listed, fun _ => inserted, fun _ => quiet⟩
    have counts := run_isAggregate c sound orphans events countable (start _ _)
    rcases counts _ there.summary rfl with rejected | status
    · cases rejected
    · rw [Parent.Status.payment.inj status]
      exact Progress.paymentStatus_inj

theorem signed_payment_is_incomplete :
    (Parent.payment { Samples.payment "payment" ["anna", "berta"] true with status := .patc }).progress
        ((run (Samples.coded true) Samples.emptySite Samples.signedByOne).store.siblings "payment"
          .initiation) = .incomplete ∧
      (Parent.consent (Consent.ofDraft (Samples.consent "consent" ["anna"] false))).progress
        ((run (Samples.coded true) Samples.emptySite Samples.signedByOne).store.siblings "consent"
          .account) = .notStarted := by
  obtain ⟨consents, payments, -⟩ := parent_status_is_aggregate (Samples.coded true)
    Samples.emptySite rfl Samples.signedByOne
  refine ⟨?_, ?_⟩
  · refine (payments { Samples.payment "payment" ["anna", "berta"] true with status := .patc }
      ⟨rfl, rfl⟩ (by decide) ?_ (by decide) .incomplete).mp rfl
    intro early q late cut _ _
    have added : Event.addPayment q ∈ Samples.signedByOne := by
      rw [cut]
      simp
    obtain rfl : q = Samples.payment "payment" ["anna", "berta"] true := by
      simpa [Samples.signedByOne, Samples.started, Samples.opening, Samples.signing,
        Samples.updates, Samples.confirming] using added
    rfl
  · exact (consents (Consent.ofDraft (Samples.consent "consent" ["anna"] false)) ⟨rfl, rfl⟩
      (by decide) (by decide) .notStarted).mp rfl

end Engine

end StrongAuth
