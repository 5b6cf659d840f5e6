import StrongAuth.Proofs.Engine.Conversation
import StrongAuth.Proofs.Engine.Parents
import StrongAuth.Proofs.Engine.Results

set_option autoImplicit false

namespace StrongAuth

namespace Bank.Exchange

/-- The bank was asked to act on the consent or payment itself. -/
def isConclusive : Exchange → Bool
  | .confirmation .. | .execution .. | .cancellation .. | .codeCheck .. => true
  | _ => false

/-- The effect that the bank's answer amounts to. -/
def effect? : Exchange → Option Purpose.Effect
  | .confirmation _ _ (.ok .failure) => some ⟨.failure, some (.consent .rejected)⟩
  | .confirmation _ _ (.ok verdict) => some ⟨verdict, none⟩
  | .execution _ _ (.ok x) => some (Purpose.effectOf x)
  | .cancellation _ _ (.ok x) => some (Purpose.effectOf x)
  | _ => none

def isGrant : Exchange → Bool
  | .confirmation _ _ (.ok verdict) => verdict == .success
  | .execution _ _ (.ok x) => x.verdict == .success
  | .cancellation _ _ (.ok x) => x.verdict == .success
  | _ => false

theorem effect_of_isGrant {x : Exchange} (h : x.isGrant = true) :
    ∃ e, x.effect? = some e ∧ e.verdict = .success := by
  unfold isGrant at h
  split at h
  · obtain rfl := eq_of_beq h
    exact ⟨_, rfl, rfl⟩
  · exact ⟨_, rfl, eq_of_beq h⟩
  · exact ⟨_, rfl, eq_of_beq h⟩
  · cases h

end Bank.Exchange

structure Outcome.IsBare (o : Outcome) : Prop where
  method : o.method = none
  challenge : o.challenge = none
  secret : o.secret = none
  parentStatus : o.parentStatus = none

namespace Attempt

theorem advance_isBare (a : Attempt) (next : Sca.Status) : (a.advance next).IsBare :=
  ⟨rfl, rfl, rfl, rfl⟩

theorem reject_isBare (a : Attempt) (m : TppMessage) : (a.reject m).IsBare := ⟨rfl, rfl, rfl, rfl⟩

theorem fail_isBare (a : Attempt) (m : TppMessage) : (a.fail m).IsBare := ⟨rfl, rfl, rfl, rfl⟩

end Attempt

inductive Transcript (a : Attempt) : List Bank.Exchange → Outcome → Prop where
  | refused {xs : List Bank.Exchange} {o : Outcome}
      (harmless : ∀ x ∈ xs, x.context = a.context ∧ x.isConclusive = false)
      (still : o.status = a.status ∨ o.status = .failed) (bare : o.IsBare) : Transcript a xs o
  | exempted {parent : Parent} {o : Outcome} (before : a.status = .received)
      (named : a.psu.isEmpty = false) (after : o.status = .exempted) (bare : o.IsBare) :
      Transcript a [.exemption a.context parent (.ok true)] o
  | identified {parent : Parent} {o : Outcome} (before : a.status = .received)
      (named : a.psu.isEmpty = false) (after : o.status = .psuIdentified) (bare : o.IsBare) :
      Transcript a [.exemption a.context parent (.ok false)] o
  | authenticated {password : Secret} {parent : Parent} {methods : List Sca.Method} {o : Outcome}
      (before : a.status = .psuIdentified) (after : o.status = .psuAuthenticated)
      (bare : o.IsBare) :
      Transcript a [.credentials a.context password parent (.ok .success),
        .methods a.context parent (.ok methods)] o
  | selected {methodId : String} {methods : List Sca.Method} {parent : Parent}
      {started : Bank.MethodStart} {o : Outcome} (before : a.status = .psuAuthenticated)
      (chosen : a.methodId = some methodId) (offered : ∃ m ∈ methods, m.id = methodId)
      (after : o.status = .methodSelected) (method : o.method = some started.method)
      (secret : o.secret = started.confirmationCode) (parentStatus : o.parentStatus = none) :
      Transcript a [.methods a.context parent (.ok methods),
        .startMethod a.context methodId parent (.ok started)] o
  | verified {data : Secret} {parent : Parent} {o : Outcome} (before : a.status = .methodSelected)
      (given : a.data = some data) (after : o.status = .started) (method : o.method = none)
      (secret : o.secret = some data) (parentStatus : o.parentStatus = none) :
      Transcript a [.verification a.context data parent (.ok .success)] o
  /-- Other PSUs have yet to authorise, so the bank was not troubled. -/
  | deferred {o : Outcome} (before : a.status = .started) (after : o.status = .finalised)
      (bare : o.IsBare) : Transcript a [] o
  | effected {x : Bank.Exchange} {e : Purpose.Effect} (before : a.status = .started)
      (context : x.context = a.context) (answered : x.effect? = some e) :
      Transcript a [x] (a.ofEffect e)
  | unanswered {x : Bank.Exchange} {o : Outcome} (context : x.context = a.context)
      (conclusive : x.isConclusive = true) (fault : x.effect? = none)
      (still : o.status = a.status) (bare : o.IsBare) : Transcript a [x] o
  | confirmedLocally {code secret : Secret} {o : Outcome}
      (before : a.status = .methodSelected ∨ a.status = .started) (given : a.code = some code)
      (spoken : code.isBlank = false) (stored : a.storedSecret = some secret)
      (same : secret.matchesCode code = true) (after : o.status = .finalised)
      (success : o.error = none) (bare : o.IsBare) : Transcript a [] o
  | confirmedAtBank {code : Secret} {order : Order} {handle : String} {check : Bank.CodeCheck}
      (before : a.status = .methodSelected ∨ a.status = .started) (given : a.code = some code)
      (spoken : code.isBlank = false) :
      Transcript a [.codeCheck a.context code order handle (.ok check)] (a.ofCodeCheck check)

/-- An attempt was carried out: the bank was asked these questions, and the store was looked at. -/
structure Conducted (a : Attempt) (p : Purpose) (site : Site Backend) (xs : List Bank.Exchange)
    (o : Outcome) (site' : Site Backend) : Prop where
  transcript : Transcript a xs o
  heard : site.bank.Hears xs site'.bank
  keeps : Backend.KeepsCalm site.store site'.store
  readable : xs ≠ [] → site'.store.HasReadable p a.parentId

namespace Purpose

variable {σ : Type} [Store σ] {p : Purpose} {site : Site σ} {c : Bank.Context} {parent : Parent}
  {bank : Bank}

def isReady (p : Purpose) (s : σ) (c : Bank.Context) (parent : Parent) : Bool :=
  match p, parent with
  | .account, .consent _ => true
  | .initiation, .payment q =>
    (completes s c (.payment q)).toOption == some true && q.orderOf.isOk
  | .cancellation, .payment q => q.orderOf.isOk
  | _, _ => false

def AwaitsOthers (p : Purpose) (s : σ) (c : Bank.Context) (parent : Parent) : Prop :=
  p = .initiation ∧ completes s c parent = .ok false

def effectCall : Purpose → Bank.Call
  | .account => .confirmation
  | .initiation => .execution
  | .cancellation => .cancellation

/-- This question was put to the bank, and this is what its answer amounts to. -/
structure Asked (p : Purpose) (c : Bank.Context) (before after : Bank)
    (result : Except EffectError Effect) (x : Bank.Exchange) : Prop where
  heard : before.Hears [x] after
  context : x.context = c
  call : x.call = p.effectCall
  answered : x.effect? = result.toOption

theorem Asked.conclusive {before : Bank} {result : Except EffectError Effect} {x : Bank.Exchange}
    (h : p.Asked c before bank result x) : x.isConclusive = true := by
  have call := h.call
  cases p <;> cases x <;> first | rfl | cases call

theorem confirmConsent_asked {before : Bank} {consent : Consent}
    {result : Except EffectError Effect} (h : confirmConsent before c consent = (result, bank)) :
    ∃ x, Asked .account c before bank result x := by
  unfold confirmConsent at h
  split at h
  · next fault bank asked =>
    cases h
    exact ⟨_, ⟨Bank.askConfirmation_heard asked, rfl, rfl, rfl⟩⟩
  · next bank asked =>
    cases h
    exact ⟨_, ⟨Bank.askConfirmation_heard asked, rfl, rfl, rfl⟩⟩
  · next verdict bank other asked =>
    cases h
    refine ⟨_, ⟨Bank.askConfirmation_heard asked, rfl, rfl, ?_⟩⟩
    cases verdict with
    | success => rfl
    | attemptFailure => rfl
    | failure => exact absurd rfl other

theorem cancelPayment_asked {before : Bank} {q : Payment} {order : Order}
    {result : Except EffectError Effect} (spelt : q.orderOf = .ok order)
    (h : cancelPayment before c q = (result, bank)) :
    ∃ x, Asked .cancellation c before bank result x := by
  unfold cancelPayment at h
  rw [spelt] at h
  simp only at h
  split at h
  · next x bank asked =>
    cases h
    exact ⟨_, ⟨Bank.askCancellation_heard asked, rfl, rfl, rfl⟩⟩
  · next fault bank asked =>
    cases h
    exact ⟨_, ⟨Bank.askCancellation_heard asked, rfl, rfl, rfl⟩⟩

theorem executePayment_asked {q : Payment} {order : Order} {result : Except EffectError Effect}
    (last : completes site.store c (.payment q) = .ok true) (spelt : q.orderOf = .ok order)
    (h : executePayment site c q = (result, bank)) :
    ∃ x, Asked .initiation c site.bank bank result x := by
  unfold executePayment at h
  rw [last, spelt] at h
  simp only at h
  split at h
  · next x bank asked =>
    cases h
    exact ⟨_, ⟨Bank.askExecution_heard asked, rfl, rfl, rfl⟩⟩
  · next fault bank asked =>
    cases h
    exact ⟨_, ⟨Bank.askExecution_heard asked, rfl, rfl, rfl⟩⟩

/-- An effect is put to the bank if everything is ready for it, and to nobody otherwise. -/
theorem finalise_cases {result : Except EffectError Effect}
    (h : p.finalise site c parent = (result, bank)) :
    (p.isReady site.store c parent = true ∧ ∃ x, p.Asked c site.bank bank result x) ∨
      (p.isReady site.store c parent = false ∧ bank = site.bank ∧
        ∀ e, result = .ok e → e = ⟨.success, none⟩ ∧ p.AwaitsOthers site.store c parent) := by
  have halted {x : EffectError} (e : Effect) :
      Except.error x = .ok e → e = ⟨.success, none⟩ ∧ p.AwaitsOthers site.store c parent := by
    intro granted
    cases granted
  unfold finalise at h
  split at h
  · exact .inl ⟨rfl, confirmConsent_asked h⟩
  · next q =>
    cases last : completes site.store c (.payment q) with
    | error e =>
      simp only [executePayment, last] at h
      cases h
      exact .inr ⟨by simp [isReady, last, Except.toOption], rfl, halted⟩
    | ok all =>
      cases all with
      | false =>
        simp only [executePayment, last] at h
        cases h
        exact .inr ⟨by simp [isReady, last, Except.toOption], rfl,
          fun e h => ⟨(Except.ok.inj h).symm, rfl, last⟩⟩
      | true =>
        cases spelt : q.orderOf with
        | error e =>
          simp only [executePayment, last, spelt] at h
          cases h
          exact .inr ⟨by simp [isReady, spelt, Except.isOk, Except.toBool], rfl, halted⟩
        | ok order =>
          refine .inl ⟨?_, executePayment_asked last spelt h⟩
          simp [isReady, last, spelt, Except.toOption, Except.isOk, Except.toBool]
  · next q =>
    cases spelt : q.orderOf with
    | error e =>
      simp only [cancelPayment, spelt] at h
      cases h
      exact .inr ⟨by simp [isReady, spelt, Except.isOk, Except.toBool], rfl, halted⟩
    | ok order =>
      refine .inl ⟨?_, cancelPayment_asked spelt h⟩
      simp [isReady, spelt, Except.isOk, Except.toBool]
  · next consent initiation cancellation =>
    cases h
    refine .inr ⟨?_, rfl, halted⟩
    cases p <;> cases parent <;> simp_all [isReady]

def ifFound (p : Purpose) (s : σ) (i : String) (holds : Parent → σ → Bool) : Bool :=
  match p.findParent s i with
  | (.ok (some parent), s) => holds parent s
  | _ => false

theorem ifFound_false (p : Purpose) (s : σ) (i : String) :
    p.ifFound s i (fun _ _ => false) = false := by
  unfold ifFound
  split <;> rfl

theorem ifFound_and (p : Purpose) (s : σ) (i : String) (first : Bool)
    (holds : Parent → σ → Bool) :
    p.ifFound s i (fun parent s => first && holds parent s) = (first && p.ifFound s i holds) := by
  unfold ifFound
  split
  · rfl
  · rw [Bool.and_false]

def isCheckable (p : Purpose) : Parent → Bool
  | .payment q => p.isPayment && q.orderOf.isOk
  | .consent _ => false

theorem checkCode_cases {before : Bank} {code : Secret} {result : Except EffectError Bank.CodeCheck}
    (h : p.checkCode before c code parent = (result, bank)) :
    (p.isCheckable parent = true ∧ ∃ order handle answer,
        before.Hears [.codeCheck c code order handle answer] bank ∧
          answer.toOption = result.toOption) ∨
      (p.isCheckable parent = false ∧ bank = before ∧ result.toOption = none) := by
  unfold checkCode at h
  split at h
  · next sort =>
    split at h
    · cases h
      exact .inr ⟨rfl, rfl, rfl⟩
    · next q =>
      split at h
      · next e spelt =>
        cases h
        exact .inr ⟨by simp [isCheckable, spelt, Except.isOk, Except.toBool], rfl, rfl⟩
      · next order spelt =>
        refine .inl ⟨by simp [isCheckable, sort, spelt, Except.isOk, Except.toBool], ?_⟩
        split at h
        · next check bank asked =>
          cases h
          exact ⟨order, q.id, _, Bank.askCodeCheck_heard asked, rfl⟩
        · next fault bank asked =>
          cases h
          exact ⟨order, q.id, _, Bank.askCodeCheck_heard asked, rfl⟩
  · next sort =>
    cases h
    refine .inr ⟨?_, rfl, rfl⟩
    cases parent <;> simp [isCheckable, sort]

end Purpose

namespace Attempt
open StrongAuth.Backend

variable {a : Attempt} {p : Purpose} {site site' : Site Backend}

theorem refused_conducted {o : Outcome} (still : o.status = a.status ∨ o.status = .failed)
    (bare : o.IsBare) (keeps : KeepsCalm site.store site'.store)
    (bank : site'.bank = site.bank) : Conducted a p site [] o site' := by
  refine ⟨.refused (fun _ hx => absurd hx List.not_mem_nil) still bare, ?_, keeps, ?_⟩
  · rw [bank]
    exact .refl _
  · exact fun asked => absurd rfl asked

/-- A step was carried out. The flag tells whether the bank was asked to act on the parent. -/
def StepsTo (a : Attempt) (p : Purpose) (site : Site Backend) (reaches : Bool)
    (result : Outcome × Site Backend) : Prop :=
  ∃ xs, Conducted a p site xs result.1 result.2 ∧ xs.any (·.isConclusive) = reaches

theorem reject_steps (m : TppMessage) (keeps : KeepsCalm site.store site'.store)
    (bank : site'.bank = site.bank) : a.StepsTo p site false (a.reject m, site') :=
  ⟨[], refused_conducted (.inl rfl) (a.reject_isBare m) keeps bank, rfl⟩

theorem withParent_steps {next : Parent → Site Backend → Outcome × Site Backend}
    {reaches : Parent → Backend → Bool}
    (goes : ∀ parent store, p.findParent site.store a.parentId = (.ok (some parent), store) →
      a.StepsTo p site (reaches parent store) (next parent { site with store })) :
    a.StepsTo p site (p.ifFound site.store a.parentId reaches) (a.withParent p site next) := by
  unfold withParent Purpose.ifFound
  cases found : p.findParent site.store a.parentId with
  | mk answer store =>
    cases answer with
    | error e => exact reject_steps _ (Purpose.findParent_keeps found) rfl
    | ok answer =>
      cases answer with
      | none => exact reject_steps _ (Purpose.findParent_keeps found) rfl
      | some parent => exact goes parent store found

theorem withParent_mild {next : Parent → Site Backend → Outcome × Site Backend}
    (goes : ∀ parent store, p.findParent site.store a.parentId = (.ok (some parent), store) →
      a.StepsTo p site false (next parent { site with store })) :
    a.StepsTo p site false (a.withParent p site next) := by
  have steps := withParent_steps goes
  rw [Purpose.ifFound_false] at steps
  exact steps

variable {parent : Parent} {store : Backend} {bank : Bank}

theorem asked_steps {xs : List Bank.Exchange} {o : Outcome} {reaches : Bool}
    (found : p.findParent site.store a.parentId = (.ok (some parent), store))
    (heard : site.bank.Hears xs bank) (transcript : Transcript a xs o)
    (loud : xs.any (·.isConclusive) = reaches) : a.StepsTo p site reaches (o, { store, bank }) :=
  ⟨xs, ⟨transcript, heard, Purpose.findParent_keeps found,
    fun _ => (Purpose.findParent_ok found).readable⟩, loud⟩

theorem reject_asked (m : TppMessage) {xs : List Bank.Exchange}
    (harmless : ∀ x ∈ xs, x.context = a.context ∧ x.isConclusive = false) :
    Transcript a xs (a.reject m) :=
  .refused harmless (.inl rfl) (a.reject_isBare m)

theorem fail_asked (m : TppMessage) {xs : List Bank.Exchange}
    (harmless : ∀ x ∈ xs, x.context = a.context ∧ x.isConclusive = false) :
    Transcript a xs (a.fail m) :=
  .refused harmless (.inr rfl) (a.fail_isBare m)

theorem harmless_of_forall {xs : List Bank.Exchange}
    (context : xs.map (·.context) = xs.map fun _ => a.context)
    (mild : xs.any (·.isConclusive) = false) :
    ∀ x ∈ xs, x.context = a.context ∧ x.isConclusive = false := by
  intro x hx
  refine ⟨List.map_inj_left.mp context x hx, ?_⟩
  exact Bool.eq_false_iff.mpr (List.any_eq_false.mp mild x hx)

theorem identify_steps (live : a.status = .received) :
    a.StepsTo p site false (a.identify p site) := by
  unfold identify
  split
  · exact reject_steps _ (KeepsCalm.refl _) rfl
  · next named =>
    refine withParent_mild fun parent store found => ?_
    have given : a.psu.isEmpty = false := Bool.eq_false_iff.mpr named
    split
    · split
      · next bank asked =>
        exact asked_steps found (Bank.askExemption_heard asked)
          (.exempted live given rfl (a.advance_isBare _)) rfl
      · next bank asked =>
        exact asked_steps found (Bank.askExemption_heard asked)
          (.identified live given rfl (a.advance_isBare _)) rfl
      · next fault bank asked =>
        exact asked_steps found (Bank.askExemption_heard asked)
          (reject_asked _ (harmless_of_forall rfl rfl)) rfl
    · exact asked_steps found (.refl _)
        (fail_asked _ (harmless_of_forall rfl rfl)) rfl

theorem offerMethods_steps {password : Secret} (live : a.status = .psuIdentified)
    (found : p.findParent site.store a.parentId = (.ok (some parent), store))
    (accepted : site.bank.Hears [.credentials a.context password parent (.ok .success)] bank) :
    a.StepsTo p site false (a.offerMethods parent { store, bank }) := by
  have extended {answer : Bank.Answer (List Sca.Method)} {bank' : Bank}
      (asked : bank.askMethods a.context parent = (answer, bank')) :
      site.bank.Hears [.credentials a.context password parent (.ok .success),
        .methods a.context parent answer] bank' :=
    accepted.trans (Bank.askMethods_heard asked)
  unfold offerMethods
  split
  · next bank' asked =>
    exact asked_steps found (extended asked)
      (fail_asked _ (harmless_of_forall rfl rfl)) rfl
  · next methods bank' _ asked =>
    exact asked_steps found (extended asked)
      (.authenticated live rfl ⟨rfl, rfl, rfl, rfl⟩) rfl
  · next fault bank' asked =>
    exact asked_steps found (extended asked)
      (reject_asked _ (harmless_of_forall rfl rfl)) rfl

theorem authenticate_steps (live : a.status = .psuIdentified) :
    a.StepsTo p site false (a.authenticate p site) := by
  unfold authenticate
  split
  · exact reject_steps _ (KeepsCalm.refl _) rfl
  · next password _ =>
    refine withParent_mild fun parent store found => ?_
    split
    · next bank asked =>
      exact offerMethods_steps live found (Bank.askCredentials_heard asked)
    · next bank asked =>
      exact asked_steps found (Bank.askCredentials_heard asked)
        (reject_asked _ (harmless_of_forall rfl rfl)) rfl
    · next bank asked =>
      exact asked_steps found (Bank.askCredentials_heard asked)
        (fail_asked _ (harmless_of_forall rfl rfl)) rfl
    · next fault bank asked =>
      exact asked_steps found (Bank.askCredentials_heard asked)
        (reject_asked _ (harmless_of_forall rfl rfl)) rfl

theorem startMethod_steps {methodId : String} {methods : List Sca.Method}
    (live : a.status = .psuAuthenticated) (chosen : a.methodId = some methodId)
    (offered : ∃ m ∈ methods, m.id = methodId)
    (found : p.findParent site.store a.parentId = (.ok (some parent), store))
    (listed : site.bank.Hears [.methods a.context parent (.ok methods)] bank) :
    a.StepsTo p site false (a.startMethod methodId methods parent { store, bank }) := by
  have extended {answer : Bank.Answer Bank.MethodStart} {bank' : Bank}
      (asked : bank.askStartMethod a.context methodId parent = (answer, bank')) :
      site.bank.Hears [.methods a.context parent (.ok methods),
        .startMethod a.context methodId parent answer] bank' :=
    listed.trans (Bank.askStartMethod_heard asked)
  unfold startMethod
  split
  · next started bank' asked =>
    exact asked_steps found (extended asked)
      (.selected live chosen offered rfl rfl rfl rfl) rfl
  · next fault bank' asked =>
    exact asked_steps found (extended asked)
      (reject_asked _ (harmless_of_forall rfl rfl)) rfl

theorem chooseMethod_steps (live : a.status = .psuAuthenticated) :
    a.StepsTo p site false (a.chooseMethod p site) := by
  unfold chooseMethod
  split
  · exact reject_steps _ (KeepsCalm.refl _) rfl
  · next methodId chosen =>
    refine withParent_mild fun parent store found => ?_
    split
    · next fault bank asked =>
      exact asked_steps found (Bank.askMethods_heard asked)
        (reject_asked _ (harmless_of_forall rfl rfl)) rfl
    · next methods bank asked =>
      split
      · next listed =>
        have offered : ∃ m ∈ methods, m.id = methodId := by simpa using listed
        exact startMethod_steps live chosen offered found (Bank.askMethods_heard asked)
      · exact asked_steps found (Bank.askMethods_heard asked)
          (.refused (harmless_of_forall rfl rfl) (.inl rfl) ⟨rfl, rfl, rfl, rfl⟩) rfl

theorem verify_steps (live : a.status = .methodSelected) :
    a.StepsTo p site false (a.verify p site) := by
  unfold verify
  split
  · exact reject_steps _ (KeepsCalm.refl _) rfl
  · next data given =>
    refine withParent_mild fun parent store found => ?_
    split
    · next bank asked =>
      exact asked_steps found (Bank.askVerification_heard asked)
        (.verified live given rfl rfl rfl rfl) rfl
    · next bank asked =>
      exact asked_steps found (Bank.askVerification_heard asked)
        (reject_asked _ (harmless_of_forall rfl rfl)) rfl
    · next bank asked =>
      exact asked_steps found (Bank.askVerification_heard asked)
        (fail_asked _ (harmless_of_forall rfl rfl)) rfl
    · next fault bank asked =>
      exact asked_steps found (Bank.askVerification_heard asked)
        (reject_asked _ (harmless_of_forall rfl rfl)) rfl

theorem any_singleton {x : Bank.Exchange} (h : x.isConclusive = true) :
    [x].any (·.isConclusive) = true := by
  rw [List.any_cons, h, Bool.true_or]

/-- The bank is asked to act on the parent if no code has to come first and everything is ready. -/
theorem conclude_steps (c : Config) (live : a.status = .started) :
    a.StepsTo p site (!p.needsCode c a.approach &&
        p.ifFound site.store a.parentId fun parent store => p.isReady store a.context parent)
      (a.conclude c p site) := by
  unfold conclude
  cases coded : p.needsCode c a.approach with
  | true =>
    exact ⟨[], refused_conducted (.inl rfl) ⟨rfl, rfl, rfl, rfl⟩ (KeepsCalm.refl _) rfl, rfl⟩
  | false =>
    simp only [Bool.false_eq_true, if_false, Bool.not_false, Bool.true_and]
    refine withParent_steps fun parent store found => ?_
    split
    · next e bank finalised =>
      rcases Purpose.finalise_cases finalised with
        ⟨ready, x, asked⟩ | ⟨unready, quiet, same⟩
      · refine asked_steps found asked.heard (.effected live asked.context asked.answered) ?_
        rw [ready]
        exact any_singleton asked.conclusive
      · obtain ⟨rfl, -⟩ := same e rfl
        have silent : site.bank.Hears [] bank := by
          rw [quiet]
          exact .refl _
        refine asked_steps found silent (.deferred live rfl ⟨rfl, rfl, rfl, rfl⟩) ?_
        rw [unready]
        rfl
    · next e bank finalised =>
      rcases Purpose.finalise_cases finalised with
        ⟨ready, x, asked⟩ | ⟨unready, quiet, -⟩
      · refine asked_steps found asked.heard
          (.unanswered asked.context asked.conclusive asked.answered rfl (a.reject_isBare _)) ?_
        rw [ready]
        exact any_singleton asked.conclusive
      · rw [unready]
        exact reject_steps _ (Purpose.findParent_keeps found) quiet

theorem currentStep_steps (c : Config) :
    a.StepsTo p site (a.status == .started && (!p.needsCode c a.approach &&
        p.ifFound site.store a.parentId fun parent store => p.isReady store a.context parent))
      (a.currentStep c p site) := by
  unfold currentStep
  cases live : a.status with
  | received => exact identify_steps live
  | psuIdentified => exact authenticate_steps live
  | psuAuthenticated => exact chooseMethod_steps live
  | methodSelected => exact verify_steps live
  | started => exact conclude_steps c live
  | finalised | failed | exempted => exact reject_steps _ (KeepsCalm.refl _) rfl

theorem givenCode_eq_some {code : Secret} (h : a.givenCode = some code) :
    a.code = some code ∧ code.isBlank = false := by
  obtain ⟨given, spoken⟩ := Option.filter_eq_some_iff.mp h
  exact ⟨given, by simpa using spoken⟩

theorem code_of_hasCode (h : a.hasCode = true) :
    ∃ code, a.code = some code ∧ code.isBlank = false := by
  unfold hasCode Secret.isGiven at h
  cases given : a.code with
  | none =>
    rw [given] at h
    cases h
  | some code =>
    rw [given] at h
    exact ⟨code, rfl, by simpa [Text.isGiven, Secret.isBlank] using h⟩

/-- An attempt to confirm was carried out. The flag tells whether the bank was asked, which can only
have been to check the code. -/
def ConfirmsTo (a : Attempt) (p : Purpose) (site : Site Backend) (reaches : Bool)
    (result : Outcome × Site Backend) : Prop :=
  ∃ xs, Conducted a p site xs result.1 result.2 ∧ xs.any (·.isConclusive) = reaches ∧
    ∀ x ∈ xs, x.call = .codeCheck

theorem reject_confirms (m : TppMessage) (keeps : KeepsCalm site.store site'.store)
    (bank : site'.bank = site.bank) : a.ConfirmsTo p site false (a.reject m, site') :=
  ⟨[], refused_conducted (.inl rfl) (a.reject_isBare m) keeps bank, rfl,
    fun _ hx => absurd hx List.not_mem_nil⟩

theorem confirmLocally_confirms {code : Secret}
    (live : a.status = .methodSelected ∨ a.status = .started) (given : a.givenCode = some code) :
    a.ConfirmsTo p site false (a.confirmLocally code, site) := by
  obtain ⟨code_eq, spoken⟩ := givenCode_eq_some given
  unfold confirmLocally
  split
  · next secret stored =>
    split
    · next same =>
      exact ⟨[], ⟨.confirmedLocally live code_eq spoken stored same rfl rfl (a.advance_isBare _),
        .refl _, KeepsCalm.refl _, fun asked => absurd rfl asked⟩, rfl,
        fun _ hx => absurd hx List.not_mem_nil⟩
    · exact reject_confirms _ (KeepsCalm.refl _) rfl
  · exact reject_confirms _ (KeepsCalm.refl _) rfl

theorem confirmAtBank_confirms {code : Secret}
    (live : a.status = .methodSelected ∨ a.status = .started) (given : a.givenCode = some code) :
    a.ConfirmsTo p site (p.ifFound site.store a.parentId fun parent _ => p.isCheckable parent)
      (a.confirmAtBank p code site) := by
  obtain ⟨code_eq, spoken⟩ := givenCode_eq_some given
  have only {order : Order} {handle : String} (answer : Bank.Answer Bank.CodeCheck) :
      ∀ x ∈ [Bank.Exchange.codeCheck a.context code order handle answer], x.call = .codeCheck := by
    intro x hx
    obtain rfl := List.mem_singleton.mp hx
    rfl
  unfold confirmAtBank Purpose.ifFound
  cases found : p.findParent site.store a.parentId with
  | mk answer store =>
    have keeps := Purpose.findParent_keeps found
    cases answer with
    | error e => exact reject_confirms _ keeps rfl
    | ok answer =>
      cases answer with
      | none => exact reject_confirms _ keeps rfl
      | some parent =>
        have readable := (Purpose.findParent_ok found).readable
        simp only
        split
        · next check bank checked =>
          rcases Purpose.checkCode_cases checked with
            ⟨checkable, order, handle, answer, heard, answered⟩ | ⟨-, -, silent⟩
          · cases answer with
            | error fault => cases answered
            | ok check' =>
              cases answered
              rw [checkable]
              exact ⟨_, ⟨.confirmedAtBank live code_eq spoken, heard, keeps, fun _ => readable⟩,
                rfl, only _⟩
          · cases silent
        · next e bank checked =>
          rcases Purpose.checkCode_cases checked with
            ⟨checkable, order, handle, answer, heard, answered⟩ | ⟨unchecked, quiet, -⟩
          · rw [checkable]
            exact ⟨_, ⟨.unanswered rfl rfl rfl rfl (a.reject_isBare _), heard, keeps,
              fun _ => readable⟩, rfl, only _⟩
          · rw [unchecked]
            exact reject_confirms _ keeps quiet

theorem confirm_confirms (c : Config) (coded : a.hasCode = true) :
    a.ConfirmsTo p site (!c.checksCodesLocally && p.needsCode c a.approach &&
        (a.status == .methodSelected || a.status == .started) &&
        p.ifFound site.store a.parentId fun parent _ => p.isCheckable parent)
      (a.confirm c p (.ofFlag c.checksCodesLocally) site) := by
  cases selected : a.status == .methodSelected || a.status == .started with
  | false =>
    rw [Bool.and_false, Bool.false_and]
    unfold confirm
    rw [selected]
    split
    · exact reject_confirms _ (KeepsCalm.refl _) rfl
    · split <;> exact reject_confirms _ (KeepsCalm.refl _) rfl
  | true =>
    have live : a.status = .methodSelected ∨ a.status = .started := by simpa using selected
    have alive : a.status.isTerminal = false := by
      rcases live with live | live <;> (rw [live]; rfl)
    unfold confirm
    rw [alive, selected]
    cases used : p.needsCode c a.approach with
    | false =>
      rw [Bool.and_false, Bool.false_and, Bool.false_and]
      exact reject_confirms _ (KeepsCalm.refl _) rfl
    | true =>
      cases given : a.givenCode with
      | none =>
        obtain ⟨code, there, spoken⟩ := code_of_hasCode coded
        rw [givenCode, there, Option.filter_some, spoken] at given
        cases given
      | some code =>
        cases c.checksCodesLocally with
        | true => exact confirmLocally_confirms live given
        | false => exact confirmAtBank_confirms live given

/-- The attempt gets as far as to have the bank act on the consent or payment: with a code that the
bank is to check, or without one where the last step is due. -/
def reachesBank {σ : Type} [Store σ] (a : Attempt) (c : Config) (p : Purpose) (s : σ) : Bool :=
  p.ifFound s a.parentId fun parent s =>
    if a.hasCode then
      !c.checksCodesLocally && p.needsCode c a.approach &&
        (a.status == .methodSelected || a.status == .started) && p.isCheckable parent
    else a.status == .started && (!p.needsCode c a.approach && p.isReady s a.context parent)

theorem confirm_reaches (a : Attempt) (c : Config) (p : Purpose) (site : Site Backend)
    (coded : a.hasCode = true) :
    a.ConfirmsTo p site (a.reachesBank c p site.store)
      (a.confirm c p (.ofFlag c.checksCodesLocally) site) := by
  simp only [reachesBank, coded, if_true, Purpose.ifFound_and]
  exact confirm_confirms c coded

theorem step_reaches (a : Attempt) (c : Config) (p : Purpose) (site : Site Backend)
    (uncoded : a.hasCode = false) :
    a.StepsTo p site (a.reachesBank c p site.store) (a.step c p site) := by
  rw [step_eq_currentStep]
  simp only [reachesBank, uncoded, Bool.false_eq_true, if_false, Purpose.ifFound_and]
  exact currentStep_steps c

theorem not_reachesBank_of_incomplete (c : Config) (p : Purpose) (s : Backend) {m : TppMessage}
    (uncoded : a.hasCode = false) (lacking : a.incomplete = some m) :
    a.reachesBank c p s = false := by
  have early : (a.status == .started) = false := by
    unfold incomplete missingField at lacking
    cases status : a.status <;> first
      | rfl
      | (rw [status] at lacking; cases lacking)
  simp only [reachesBank, uncoded, Bool.false_eq_true, if_false, early, Bool.false_and,
    Purpose.ifFound_false]

end Attempt

end StrongAuth
