import StrongAuth.Proofs.Signing

set_option autoImplicit false

namespace StrongAuth
open StrongAuth.Calendar StrongAuth.Backend

/-- The payment is authorised, or is being executed. -/
def Payment.Status.isAuthorised : Payment.Status → Bool
  | .actc | .acsp => true
  | _ => false

namespace Bank

theorem Desk.attend_ok {α : Type} {d : Desk} {call : Call} {answer : Answer α} {x : α}
    (h : .ok x = (d.attend call answer).1) : answer = .ok x := by
  unfold attend at h
  split at h
  · cases h
  · exact h.symm

theorem Desk.verdict_of_isAuthorised {d : Desk} {done : Payment.Status}
    (h : (d.executionEndingIn done).status.isAuthorised = true) :
    (d.executionEndingIn done).verdict = .success ∧ done.isAuthorised = true := by
  unfold executionEndingIn at h ⊢
  cases refuses : d.refusesEffects with
  | true =>
    rw [refuses] at h
    cases h
  | false =>
    rw [refuses] at h
    exact ⟨rfl, h⟩

namespace Exchange

variable {x : Exchange} {e : Purpose.Effect} {st : Payment.Status}

theorem execution_of_isDesks (desks : x.IsDesks) (answered : x.effect? = some e)
    (reported : e.parentStatus = some (.payment st)) (authorised : st.isAuthorised = true) :
    x.call = .execution ∧ e.verdict = .success := by
  cases x with
  | execution context order answer =>
    cases answer with
    | error fault => cases answered
    | ok execution =>
      obtain ⟨d, same⟩ := desks
      obtain rfl := Except.ok.inj (Desk.attend_ok same)
      cases answered
      cases reported
      exact ⟨rfl, (Desk.verdict_of_isAuthorised authorised).1⟩
  | cancellation context order answer =>
    cases answer with
    | error fault => cases answered
    | ok execution =>
      obtain ⟨d, same⟩ := desks
      obtain rfl := Except.ok.inj (Desk.attend_ok same)
      cases answered
      cases reported
      cases (Desk.verdict_of_isAuthorised authorised).2
  | confirmation context consent answer =>
    rcases answer with fault | verdict
    · cases answered
    · cases verdict <;> cases answered <;> cases reported
  | exemption | credentials | methods | startMethod | verification | codeCheck => cases answered

theorem codeCheck_of_isDesks {context : Context} {code : Secret} {order : Order} {handle : String}
    {check : CodeCheck} (desks : (codeCheck context code order handle (.ok check)).IsDesks) :
    check = ⟨.finalised, .acsp⟩ ∨ check = ⟨.failed, .rjct⟩ := by
  obtain ⟨d, same⟩ := desks
  have done := Except.ok.inj (Desk.attend_ok same)
  split at done
  · exact .inl done.symm
  · exact .inr done.symm

end Exchange

end Bank

namespace Backend

/-- All these PSUs have signed the payment, if it is authorised. -/
def WhenSigned (b : Backend) (i : String) (psus : List Psu) : Prop :=
  ∀ m st, b.summary? .initiation i = some m → m.status = .payment st → st.isAuthorised = true →
    b.SignedByAll i psus

end Backend

theorem Transcript.of_authorised {a : Attempt} {xs : List Bank.Exchange} {o : Outcome}
    {st : Payment.Status} (h : Transcript a xs o) (desks : ∀ x ∈ xs, x.IsDesks)
    (reported : o.parentStatus = some (.payment st)) (authorised : st.isAuthorised = true) :
    o.status = .finalised ∧ ∃ x ∈ xs, x.call = .execution ∨ x.call = .codeCheck := by
  cases h with
  | refused _ _ bare | exempted _ _ _ bare | identified _ _ _ bare | authenticated _ _ bare
  | deferred _ _ bare | unanswered _ _ _ _ bare | confirmedLocally _ _ _ _ _ _ _ bare =>
    rw [bare.parentStatus] at reported
    cases reported
  | selected _ _ _ _ _ _ none | verified _ _ _ _ _ none =>
    rw [none] at reported
    cases reported
  | @effected x e before context answered =>
    have there := List.mem_singleton_self x
    obtain ⟨call, success⟩ :=
      Bank.Exchange.execution_of_isDesks (desks x there) answered reported authorised
    refine ⟨?_, x, there, .inl call⟩
    rw [ofEffect_status, success]
  | @confirmedAtBank code order handle check before given spoken =>
    have there := List.mem_singleton_self
      (Bank.Exchange.codeCheck a.context code order handle (.ok check))
    refine ⟨?_, _, there, .inr rfl⟩
    rcases Bank.Exchange.codeCheck_of_isDesks (desks _ there) with rfl | rfl
    · rfl
    · cases reported
      cases authorised

theorem Payment.complete_of_statusAfter {q : Payment} {progress : Progress} {st : Payment.Status}
    (h : q.statusAfter progress = some st) (authorised : st.isAuthorised = true) :
    progress = .complete := by
  unfold statusAfter at h
  split at h
  · split at h
    · cases h
    · split at h
      · cases h
      · cases h
        cases authorised
    · rfl
  · cases h

theorem Store.Due.signedByAll {parents : Store.Parents} {b : Backend} {a : Authorisation}
    {st : Payment.Status} {m : Parent.Summary}
    (h : Store.Due parents b.psusOf b.records a (some (.payment st)))
    (authorised : st.isAuthorised = true)
    (there : parents .initiation a.parentId = some m) (several : m.multilevel = true) :
    b.SignedByAll a.parentId (b.psusOf .initiation a.parentId) := by
  generalize written : some (Parent.Status.payment st) = due at h
  cases h with
  | ungranted | cancellation | orphan => cases written
  | @progress parent status purpose id summary psus sort =>
    cases parent with
    | consent consent =>
      obtain ⟨next, -, other⟩ := Option.map_eq_some_iff.mp written.symm
      cases other
    | payment q =>
      obtain ⟨next, follows, same⟩ := Option.map_eq_some_iff.mp written.symm
      cases same
      have complete := Payment.complete_of_statusAfter follows authorised
      have initiates : a.purpose = .initiation := by
        cases kind : a.purpose with
        | initiation => rfl
        | cancellation => exact absurd kind purpose
        | account =>
          rw [kind] at sort
          cases sort
      rw [initiates, ← id] at summary psus complete
      rw [← id] at there ⊢
      obtain rfl := Option.some.inj (there.symm.trans summary)
      intro psu listed
      rw [← psus] at listed
      obtain ⟨d, hd, same⟩ := (Parent.progress_eq_complete_iff.mp complete).2 several psu listed
      obtain ⟨there', grant⟩ := mem_granted_siblings.mp hd
      exact ⟨d, there', grant, same⟩

namespace Engine

variable {c : Config} {now : Instant} {site : Site Backend} {u : UpdateRequest} {i : String}
  {psus : List Psu}

/-- In this update the bank checks a code, and an authorisation of the payment is finalised. -/
def ConfirmedByBank (c : Config) (now : Instant) (site : Site Backend) (u : UpdateRequest)
    (i : String) : Prop :=
  ∃ (n : Nat) (a b : Authorisation), site.store.records[n]? = some a ∧
    (update c now site u).2.store.records[n]? = some b ∧ a.parentId = i ∧
    a.status ≠ .finalised ∧ b.status = .finalised ∧
    ∃ x ∈ (turn c now site u).exchanges, x.call = .codeCheck

/-- Whenever the bank's check finalises an authorisation of the payment, all these PSUs have signed
it by then. -/
def CheckedWhenSigned (c : Config) (site : Site Backend) (events : List Event) (i : String)
    (psus : List Psu) : Prop :=
  ∀ early now u late, events = early ++ .update now u :: late →
    ConfirmedByBank c now (run c site early) u i →
    (update c now (run c site early) u).2.store.SignedByAll i psus

/-- At no moment is the payment authorised before all these PSUs have signed it. -/
def AuthorisedWhenSigned (c : Config) (site : Site Backend) (events : List Event) (i : String)
    (psus : List Psu) : Prop :=
  ∀ early late, events = early ++ late → (run c site early).store.WhenSigned i psus

/-- A payment that needs these PSUs, and a bank that is left to its desk. -/
structure Shared (site : Site Backend) (i : String) (psus : List Psu) : Prop where
  sound : site.store.IsSound
  parent : ∃ m, site.store.summary? .initiation i = some m ∧ m.multilevel = true
  listed : psus ⊆ site.store.psusOf .initiation i
  unscripted : site.bank.script = {}

theorem Shared.next (c : Config) (h : Shared site i psus) {e : Event}
    (plain : ∀ desk script, e = .bank desk script → script = {}) :
    Shared (next c site e) i psus := by
  have change := change_of_next c h.sound e
  obtain ⟨m, there, several⟩ := h.parent
  obtain ⟨m', there', same⟩ := change.multilevel there
  refine ⟨change.sound h.sound, ⟨m', there', same.trans several⟩,
    List.Subset.trans h.listed (change.psus h.sound .initiation i), ?_⟩
  cases e with
  | update now u => exact (turn_heard c now site u).unscripted h.unscripted
  | bank desk script => exact plain desk script rfl
  | start | addConsent | addPayment | failure => exact h.unscripted

theorem Shared.run (c : Config) (h : Shared site i psus) (events : List Event)
    (plain : ∀ e ∈ events, ∀ desk script, e = .bank desk script → script = {}) :
    Shared (run c site events) i psus := by
  induction events generalizing site with
  | nil => exact h
  | cons e events ih =>
    obtain ⟨plainNow, plainLater⟩ := List.forall_mem_cons.mp plain
    exact ih (h.next c plainNow) plainLater

theorem Moved.signedByAll {n : Nat} {a : Authorisation} {o : Outcome} {m : Parent.Summary}
    {st : Payment.Status} (shared : Shared site i psus)
    (h : Moved site now u (turn c now site u) n a o (update c now site u).2.store)
    (signed : site.store.WhenSigned i psus)
    (checked : ConfirmedByBank c now site u i →
      (update c now site u).2.store.SignedByAll i psus)
    (there : (update c now site u).2.store.summary? .initiation i = some m)
    (status : m.status = .payment st) (authorised : st.isAuthorised = true) :
    (update c now site u).2.store.SignedByAll i psus := by
  obtain ⟨old, before, several⟩ := shared.parent
  obtain ⟨owed, lists⟩ := h.owed shared.sound
  -- The payment is as it was before, or its status was reported by the bank or due to progress.
  rcases owed.cases there with same | ⟨here, -, written⟩
  · obtain rfl := Option.some.inj (same.symm.trans before)
    exact signed_later c shared.sound [.update now u] (signed _ st before status authorised)
  · change i = a.parentId at here
    subst here
    rw [status] at written
    rcases written with reported | due
    · have desks := (turn_heard c now site u).desks shared.unscripted
      obtain ⟨finalised, x, hx, call⟩ :=
        h.transcript.of_authorised desks (ownStatus_concerns reported).1 authorised
      rcases call with executes | checks
      · have granted : o.status.isGranted = true := Sca.Status.isGranted_iff.mpr (.inl finalised)
        have needed (m' : Parent.Summary)
            (there' : site.store.summary? .initiation a.parentId = some m') :
            m'.multilevel = true := by
          obtain rfl := Option.some.inj (before.symm.trans there')
          exact several
        obtain ⟨-, -, all⟩ := h.signed_of_execution shared.sound granted needed hx executes
        exact fun psu listed => all psu (shared.listed listed)
      · exact checked ⟨n, a, a.updated u o, h.position, h.written_record, rfl,
          h.status_ne_finalised, finalised, x, hx, checks⟩
    · have all := due.signedByAll authorised before several
      rw [lists] at all
      exact fun psu listed => all psu (shared.listed listed)

/-- No other event than the bank's check of a code can authorise the payment too early. -/
theorem next_whenSigned (c : Config) (shared : Shared site i psus)
    (signed : site.store.WhenSigned i psus) (e : Event)
    (checked : ∀ now u, e = .update now u → ConfirmedByBank c now site u i →
      (update c now site u).2.store.SignedByAll i psus) :
    (next c site e).store.WhenSigned i psus := by
  intro m st there status authorised
  obtain ⟨old, before, -⟩ := shared.parent
  have later (same : (next c site e).store.summary? .initiation i = some old) :
      (next c site e).store.SignedByAll i psus := by
    obtain rfl := Option.some.inj (there.symm.trans same)
    exact signed_later c shared.sound [e] (signed _ st before status authorised)
  cases change_of_next c shared.sound e with
  | kept keeps => exact later (keeps.parents _ _ _ before)
  | opened opened =>
    rw [← opened.parents] at before
    exact later before
  | @moved now u n a o moved =>
    exact moved.signedByAll shared signed (checked now u rfl) there status authorised

theorem summary_of_confirmed (shared : Shared site i psus) (h : ConfirmedByBank c now site u i) :
    (c.confirmationMandated = true ∧ c.checksCodesLocally = false) ∧
      ∃ m, (update c now site u).2.store.summary? .initiation i = some m ∧
        m.status = .payment .acsp := by
  obtain ⟨n, a, b, there, after, rfl, before, finalised, x, hx, checks⟩ := h
  have changed : b.status ≠ a.status := by
    rw [finalised]
    exact before.symm
  obtain ⟨now', u', o, event, rfl, moved⟩ :=
    moved_of_status_ne c shared.sound there (e := .update now u) after changed
  cases event
  have granted : o.status.isGranted = true := Sca.Status.isGranted_iff.mpr (.inl finalised)
  have route := moved.route granted
  have desks := (turn_heard c now site u).desks shared.unscripted
  generalize asked : (turn c now site u).exchanges = xs at route hx desks
  cases route with
  | waived =>
    obtain rfl := List.mem_singleton.mp hx
    cases checks
  | deferred | confirmedLocally => cases hx
  | @effected parent store y e _ _ _ _ call =>
    obtain rfl := List.mem_singleton.mp hx
    rw [checks] at call
    cases kind : a.purpose <;> (rw [kind] at call; cases call)
  | @confirmedAtBank code order handle check _ coded checker _ _ verdict =>
    obtain ⟨sort, mandated, -⟩ := Purpose.needsCode_iff.mp coded
    refine ⟨⟨mandated, checker⟩, ?_⟩
    rcases Bank.Exchange.codeCheck_of_isDesks (desks _ (List.mem_singleton_self _)) with
      rfl | rfl
    · obtain ⟨m, parent, -⟩ := shared.parent
      have owed := (moved.owed shared.sound).1
      have reported : a.purpose.ownStatus (some (.payment .acsp)) = some (.payment .acsp) :=
        if_pos sort
      change Store.Owed (a.purpose.ownStatus (some (.payment .acsp))) _ _ _ _ _ at owed
      rw [reported] at owed
      exact owed.reported rfl parent
    · cases verdict

theorem authorisedWhenSigned_of_checked (c : Config) (shared : Shared site i psus)
    (start : site.store.WhenSigned i psus) (events : List Event)
    (plain : ∀ e ∈ events, ∀ desk script, e = .bank desk script → script = {})
    (h : CheckedWhenSigned c site events i psus) : AuthorisedWhenSigned c site events i psus := by
  induction events generalizing site with
  | nil =>
    intro early late cut
    have none : early = [] := (List.append_eq_nil_iff.mp cut.symm).1
    rw [none]
    exact start
  | cons e events ih =>
    obtain ⟨plainNow, plainLater⟩ := List.forall_mem_cons.mp plain
    have first : (next c site e).store.WhenSigned i psus := by
      refine next_whenSigned c shared start e ?_
      rintro now u rfl
      exact h [] now u events rfl
    have rest := ih (shared.next c plainNow) first plainLater fun early now u late cut =>
      h (e :: early) now u late (by rw [cut]; rfl)
    intro early late cut
    cases early with
    | nil => exact start
    | cons e' early =>
      obtain ⟨rfl, tail⟩ := List.cons.inj cut
      exact rest early late tail

theorem checkedWhenSigned_of_authorised (c : Config) (shared : Shared site i psus)
    (events : List Event)
    (plain : ∀ e ∈ events, ∀ desk script, e = .bank desk script → script = {})
    (h : AuthorisedWhenSigned c site events i psus) : CheckedWhenSigned c site events i psus := by
  rintro early now u late rfl confirmed
  have shared' := shared.run c early fun e he => plain e (List.mem_append_left _ he)
  obtain ⟨-, m, there, status⟩ := summary_of_confirmed shared' confirmed
  have signed := h (early ++ [.update now u]) late (by rw [List.append_assoc]; rfl)
  rw [run_append] at signed
  exact signed m .acsp there status rfl

/-- Along every run with the bank's own desk, a payment of several PSUs is authorised or executed
only when all who were listed at first have signed it, if and only if whenever a code that the bank
has checked finalises an authorisation of the payment, they have all signed it by then. -/
theorem authorised_when_signed_iff (c : Config) (site : Site Backend)
    (fresh : site.store.isFresh = true) (before after : List Event) {i : String}
    (there : (run c site before).store.summary? .initiation i = some ⟨.payment .rcvd, true⟩)
    (unscripted : (run c site before).bank.script = {})
    (plain : ∀ e ∈ after, ∀ desk script, e = .bank desk script → script = {}) :
    AuthorisedWhenSigned c (run c site before) after i
        ((run c site before).store.psusOf .initiation i) ↔
      CheckedWhenSigned c (run c site before) after i
        ((run c site before).store.psusOf .initiation i) := by
  have shared : Shared (run c site before) i ((run c site before).store.psusOf .initiation i) :=
    ⟨run_sound c (isSound_of_isFresh fresh) before, ⟨_, there, rfl⟩, List.Subset.refl _,
      unscripted⟩
  have start : (run c site before).store.WhenSigned i
      ((run c site before).store.psusOf .initiation i) := by
    intro m st there' status authorised
    obtain rfl := Option.some.inj (there.symm.trans there')
    cases status
    cases authorised
  exact ⟨checkedWhenSigned_of_authorised c shared after plain,
    authorisedWhenSigned_of_checked c shared start after plain⟩

theorem shared_payment_authorised_by_one :
    Samples.sharedSite.store.isFresh = true ∧
      Samples.sharedSite.store.summary? .initiation "payment" = some ⟨.payment .rcvd, true⟩ ∧
      Samples.sharedSite.store.psusOf .initiation "payment" = Samples.psus ["anna", "berta"] ∧
      Samples.sharedSite.bank.script = {} ∧
      (∀ e ∈ Samples.checkedEarly, ∀ desk script, e ≠ .bank desk script) ∧
      (run (Samples.coded false) Samples.sharedSite Samples.checkedEarly).store.summary?
        .initiation "payment" = some ⟨.payment .acsp, true⟩ ∧
      ¬(run (Samples.coded false) Samples.sharedSite Samples.checkedEarly).store.IsSignedBy
        "payment" (.named "berta") ∧
      ¬AuthorisedWhenSigned (Samples.coded false) Samples.sharedSite Samples.checkedEarly "payment"
        (Samples.psus ["anna", "berta"]) := by
  have unsigned : ¬(run (Samples.coded false) Samples.sharedSite
      Samples.checkedEarly).store.IsSignedBy "payment" (.named "berta") := by
    unfold IsSignedBy
    decide
  refine ⟨rfl, rfl, rfl, rfl, ?_, rfl, unsigned, ?_⟩
  · rintro e he desk script rfl
    simp [Samples.checkedEarly, Samples.selected, Samples.opening, Samples.signing,
      Samples.updates, Samples.confirming] at he
  · intro signed
    have all := signed Samples.checkedEarly [] (List.append_nil _).symm _ .acsp rfl rfl rfl
    exact unsigned (all (.named "berta") (by simp [Samples.psus]))

theorem shared_payment_checked_last :
    (run (Samples.coded false) Samples.sharedSite Samples.signedThenChecked).store.summary?
        .initiation "payment" = some ⟨.payment .acsp, true⟩ ∧
      (AuthorisedWhenSigned (Samples.coded false) Samples.sharedSite Samples.signedThenChecked
          "payment" (Samples.psus ["anna", "berta"]) ↔
        CheckedWhenSigned (Samples.coded false) Samples.sharedSite Samples.signedThenChecked
          "payment" (Samples.psus ["anna", "berta"])) := by
  refine ⟨by decide +kernel, authorised_when_signed_iff (Samples.coded false) Samples.sharedSite rfl []
    Samples.signedThenChecked rfl rfl ?_⟩
  rintro e he desk script rfl
  simp [Samples.signedThenChecked, Samples.selected, Samples.opening, Samples.signing,
    Samples.updates, Samples.confirming] at he

end Engine

end StrongAuth
