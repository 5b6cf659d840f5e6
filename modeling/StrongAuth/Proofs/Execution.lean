import StrongAuth.Proofs.Signing

set_option autoImplicit false

namespace StrongAuth
open StrongAuth.Calendar StrongAuth.Backend

namespace Bank.Exchange

/-- The bank was asked to execute this payment, and did. -/
def isExecutionOf (i : String) : Exchange → Bool
  | .execution context _ (.ok x) => context.parentId == i && x.verdict == .success
  | _ => false

variable {x : Exchange} {i : String}

theorem isExecutionOf_iff : x.isExecutionOf i = true ↔
    x.call = .execution ∧ x.isGrant = true ∧ x.context.parentId = i := by
  cases x with
  | execution context order answer =>
    cases answer with
    | error fault => simp [isExecutionOf, isGrant]
    | ok x => simp [isExecutionOf, isGrant, call, Exchange.context, and_comm]
  | exemption | credentials | methods | startMethod | verification | confirmation | cancellation
  | codeCheck => simp [isExecutionOf, call]

theorem isGrant_of_effect {e : Purpose.Effect} (answered : x.effect? = some e)
    (success : e.verdict = .success) : x.isGrant = true := by
  cases x with
  | confirmation context consent answer =>
    rcases answer with fault | verdict
    · cases answered
    · cases verdict <;> cases answered <;> first | rfl | cases success
  | execution context order answer | cancellation context order answer =>
    rcases answer with fault | x
    · cases answered
    · cases answered
      exact beq_iff_eq.mpr success
  | exemption | credentials | methods | startMethod | verification | codeCheck => cases answered

end Bank.Exchange

namespace Engine

variable {c : Config} {now : Instant} {site : Site Backend} {u : UpdateRequest} {i : String}
  {m : Parent.Summary}

def executions (i : String) (l : List Turn) : Nat :=
  (l.flatMap (·.exchanges)).countP (·.isExecutionOf i)

/-- The update finalises an authorisation of the initiation, without a code, and everybody on the
list of the payment has signed it then. -/
def Completes (c : Config) (now : Instant) (site : Site Backend) (u : UpdateRequest)
    (i : String) : Prop :=
  ∃ (n : Nat) (a b : Authorisation), site.store.records[n]? = some a ∧
    (update c now site u).2.store.records[n]? = some b ∧
    Store.isSibling i .initiation a = true ∧ a.status ≠ .finalised ∧ b.status = .finalised ∧
    Purpose.initiation.needsCode c a.approach = false ∧
    (update c now site u).2.store.SignedByAll i (site.store.psusOf .initiation i)

/-- Once the payment was executed, no update completes it again. -/
def NoneFollows (c : Config) (site : Site Backend) (events : List Event) (i : String) : Prop :=
  ∀ early now u late, events = early ++ .update now u :: late →
    executions i (turns c site early) ≠ 0 → ¬Completes c now (run c site early) u i

theorem executions_append (l l' : List Turn) :
    executions i (l ++ l') = executions i l + executions i l' := by
  rw [executions, List.flatMap_append, List.countP_append]
  rfl

theorem executions_singleton (t : Turn) :
    executions i [t] = t.exchanges.countP (·.isExecutionOf i) := by
  rw [executions, List.flatMap_singleton]

theorem executed_of_completes (sound : site.store.IsSound) (h : Completes c now site u i) :
    ∃ x ∈ (turn c now site u).exchanges, x.isExecutionOf i = true := by
  obtain ⟨n, a, b, there, after, sibling, before, finalised, uncoded, signed⟩ := h
  have changed : b.status ≠ a.status := by
    rw [finalised]
    exact before.symm
  obtain ⟨now', u', o, event, rfl, moved⟩ :=
    moved_of_status_ne c sound there (e := .update now u) after changed
  cases event
  change o.status = .finalised at finalised
  have granted : o.status.isGranted = true := Sca.Status.isGranted_iff.mpr (.inl finalised)
  have child := sibling
  rw [Store.isSibling, Bool.and_eq_true, beq_iff_eq, beq_iff_eq] at child
  obtain ⟨rfl, initiates⟩ := child
  have route := moved.route granted
  rw [initiates] at route
  generalize asked : (turn c now site u).exchanges = xs at route
  have used (coded : Purpose.initiation.needsCode c (Attempt.of u a).approach = true) : False := by
    change Purpose.initiation.needsCode c a.approach = true at coded
    rw [uncoded] at coded
    cases coded
  cases route with
  | waived waived =>
    rw [finalised] at waived
    cases waived
  | deferred _ found others =>
    obtain ⟨rfl, q, rfl, payment⟩ := Purpose.findParent_initiation found
    have several := Purpose.multilevel_of_incomplete others.2
    have agrees := moved.completes_iff_signed sound sibling granted payment several others.2
    exact absurd (agrees.mpr signed) Bool.false_ne_true
  | @effected parent store x e _ found ready context call answered success =>
    refine ⟨x, List.mem_singleton_self x, ?_⟩
    rw [Bank.Exchange.isExecutionOf_iff, context]
    exact ⟨call, Bank.Exchange.isGrant_of_effect answered success, rfl⟩
  | confirmedLocally _ coded => exact (used coded).elim
  | confirmedAtBank _ coded => exact (used coded).elim

theorem completes_of_executed (sound : site.store.IsSound) (calm : site.store.isCalm = true)
    (several : ∀ m, site.store.summary? .initiation i = some m → m.multilevel = true)
    {x : Bank.Exchange} (hx : x ∈ (turn c now site u).exchanges)
    (executes : x.isExecutionOf i = true) : Completes c now site u i := by
  obtain ⟨call, grant, about⟩ := Bank.Exchange.isExecutionOf_iff.mp executes
  rcases update_cases c now u sound with ⟨-, quiet⟩ | ⟨n, a, o, moved⟩
  · exact absurd ⟨x, hx, grant⟩ (quiet calm)
  · obtain ⟨-, finalised, -, -⟩ := moved.transcript.of_granted ⟨x, hx, grant⟩
    have granted : o.status.isGranted = true := Sca.Status.isGranted_iff.mpr (.inl finalised)
    have context := moved.transcript.context_of_mem hx
    obtain rfl : a.parentId = i := by
      rw [← about, context]
      rfl
    obtain ⟨initiates, uncoded, signed⟩ := moved.signed_of_execution sound granted several hx call
    have sibling : Store.isSibling a.parentId .initiation a = true := by
      simp [Store.isSibling, initiates]
    exact ⟨n, a, a.updated u o, moved.position, moved.written_record, sibling,
      moved.status_ne_finalised, finalised, uncoded, signed⟩

/-- The bank executes a payment of several PSUs in exactly the updates that complete it. -/
theorem executions_turn_ne_zero_iff (sound : site.store.IsSound) (calm : site.store.isCalm = true)
    (several : ∀ m, site.store.summary? .initiation i = some m → m.multilevel = true) :
    executions i [turn c now site u] ≠ 0 ↔ Completes c now site u i := by
  rw [executions_singleton, ← Nat.pos_iff_ne_zero, List.countP_pos_iff]
  constructor
  · rintro ⟨x, hx, executes⟩
    exact completes_of_executed sound calm several hx executes
  · exact executed_of_completes sound

theorem executions_turnsOf_le (c : Config) (sound : site.store.IsSound)
    (calm : site.store.isCalm = true) (e : Event) : executions i (turnsOf c site e) ≤ 1 := by
  cases e with
  | start | addConsent | addPayment | failure | bank => exact Nat.zero_le 1
  | update now u =>
    change executions i [turn c now site u] ≤ 1
    rw [executions_singleton]
    by_cases granted : Granted (turn c now site u).exchanges
    · rcases update_cases c now u sound with ⟨-, quiet⟩ | ⟨n, a, o, moved⟩
      · exact absurd granted (quiet calm)
      · rw [← (moved.transcript.of_granted granted).2.2.2]
        exact List.countP_le_length
    · have none : (turn c now site u).exchanges.countP (·.isExecutionOf i) = 0 := by
        rw [List.countP_eq_zero]
        intro x hx executes
        exact granted ⟨x, hx, (Bank.Exchange.isExecutionOf_iff.mp executes).2.1⟩
      rw [none]
      exact Nat.zero_le 1

theorem executions_turnsOf_ne_zero_iff (sound : site.store.IsSound)
    (calm : site.store.isCalm = true)
    (several : ∀ m, site.store.summary? .initiation i = some m → m.multilevel = true) (e : Event) :
    executions i (turnsOf c site e) ≠ 0 ↔
      ∃ now u, e = .update now u ∧ Completes c now site u i := by
  cases e with
  | start | addConsent | addPayment | failure | bank =>
    constructor
    · exact fun some => absurd rfl some
    · rintro ⟨now, u, event, -⟩
      cases event
  | update now u =>
    change executions i [turn c now site u] ≠ 0 ↔ _
    rw [executions_turn_ne_zero_iff sound calm several]
    constructor
    · exact fun completes => ⟨now, u, rfl, completes⟩
    · rintro ⟨now', u', event, completes⟩
      cases event
      exact completes

theorem executions_eq_zero (c : Config) (sound : site.store.IsSound)
    (calm : site.store.isCalm = true) (events : List Event)
    (quiet : ∀ e ∈ events, ∀ change, e ≠ .failure change)
    (last : (run c site events).store.summary? .initiation i = some m)
    (several : m.multilevel = true)
    (none : ∀ early now u late, events = early ++ .update now u :: late →
      ¬Completes c now (run c site early) u i) : executions i (turns c site events) = 0 := by
  induction events generalizing site with
  | nil => rfl
  | cons e events ih =>
    obtain ⟨quietNow, quietLater⟩ := List.forall_mem_cons.mp quiet
    have change := change_of_next c sound e
    have first : executions i (turnsOf c site e) = 0 := by
      refine Classical.byContradiction fun executed => ?_
      have needed (m' : Parent.Summary) (there : site.store.summary? .initiation i = some m') :
          m'.multilevel = true :=
        (multilevel_of_run c sound (e :: events) there last).trans several
      obtain ⟨now, u, rfl, completes⟩ :=
        (executions_turnsOf_ne_zero_iff sound calm needed e).mp executed
      exact none [] now u events rfl completes
    have rest := ih (change.sound sound) (change.calm quietNow calm) quietLater last
      fun early now u late cut => none (e :: early) now u late (by rw [cut]; rfl)
    rw [turns, executions_append, first, rest]

theorem executions_le_one (c : Config) (sound : site.store.IsSound)
    (calm : site.store.isCalm = true) (events : List Event)
    (quiet : ∀ e ∈ events, ∀ change, e ≠ .failure change)
    (last : (run c site events).store.summary? .initiation i = some m)
    (several : m.multilevel = true) (h : NoneFollows c site events i) :
    executions i (turns c site events) ≤ 1 := by
  -- Up to the first execution nothing counts, and from there on nothing completes the payment.
  induction events generalizing site with
  | nil => exact Nat.zero_le 1
  | cons e events ih =>
    obtain ⟨quietNow, quietLater⟩ := List.forall_mem_cons.mp quiet
    have change := change_of_next c sound e
    have sound' := change.sound sound
    have calm' := change.calm quietNow calm
    rw [turns, executions_append]
    by_cases first : executions i (turnsOf c site e) = 0
    · have rest := ih sound' calm' quietLater last fun early now u late cut executed => by
        refine h (e :: early) now u late (by rw [cut]; rfl) ?_
        rw [turns, executions_append, first, Nat.zero_add]
        exact executed
      omega
    · have rest : executions i (turns c (next c site e) events) = 0 := by
        refine executions_eq_zero c sound' calm' events quietLater last several ?_
        intro early now u late cut
        refine h (e :: early) now u late (by rw [cut]; rfl) ?_
        rw [turns, executions_append]
        omega
      have one := executions_turnsOf_le (i := i) c sound calm e
      omega

theorem noneFollows_of_executions_le_one (c : Config) (sound : site.store.IsSound)
    (events : List Event) (once : executions i (turns c site events) ≤ 1) :
    NoneFollows c site events i := by
  rintro early now u late rfl executed completes
  obtain ⟨x, hx, executes⟩ := executed_of_completes (run_sound c sound early) completes
  have again : 0 < executions i [turn c now (run c site early) u] := by
    rw [executions_singleton]
    exact List.countP_pos_iff.mpr ⟨x, hx, executes⟩
  rw [turns_append, executions_append, turns, executions_append] at once
  change _ + (executions i [turn c now (run c site early) u] + _) ≤ 1 at once
  omega

/-- Along every run without failures of the store, the bank executes a payment of several PSUs at
most once if and only if, once it was executed, no further authorisation of its initiation is
finalised without a code. -/
theorem shared_payment_executed_once_iff (c : Config) (site : Site Backend)
    (fresh : site.store.isFresh = true) (calm : site.store.isCalm = true) (events : List Event)
    (quiet : ∀ e ∈ events, ∀ change, e ≠ .failure change) {i : String} {m : Parent.Summary}
    (there : (run c site events).store.summary? .initiation i = some m)
    (several : m.multilevel = true) :
    executions i (turns c site events) ≤ 1 ↔ NoneFollows c site events i := by
  have sound := isSound_of_isFresh fresh
  exact ⟨noneFollows_of_executions_le_one c sound events,
    executions_le_one c sound calm events quiet there several⟩

theorem shared_payment_executed_twice :
    Samples.sharedSite.store.isFresh = true ∧ Samples.sharedSite.store.isCalm = true ∧
      (∀ e ∈ Samples.signedAgain, ∀ change, e ≠ .failure change) ∧
      (run {} Samples.sharedSite Samples.signedAgain).store.summary? .initiation "payment" =
        some ⟨.payment .acsp, true⟩ ∧
      executions "payment" (turns {} Samples.sharedSite Samples.signedByAll) = 1 ∧
      executions "payment" (turns {} Samples.sharedSite Samples.signedAgain) = 2 := by
  refine ⟨rfl, rfl, ?_, rfl, rfl, rfl⟩
  rintro e he change rfl
  simp [Samples.signedAgain, Samples.signedByAll, Samples.signature, Samples.signing,
    Samples.updates] at he

theorem shared_payment_executed_once :
    executions "payment" (turns {} Samples.sharedSite Samples.signedByAll) = 1 ∧
      NoneFollows {} Samples.sharedSite Samples.signedByAll "payment" := by
  have once : executions "payment" (turns {} Samples.sharedSite Samples.signedByAll) = 1 := rfl
  refine ⟨once, (shared_payment_executed_once_iff {} Samples.sharedSite rfl rfl
    Samples.signedByAll ?_ (m := ⟨.payment .acsp, true⟩) rfl rfl).mp (Nat.le_of_eq once)⟩
  rintro e he change rfl
  simp [Samples.signedByAll, Samples.signature, Samples.signing, Samples.updates] at he

end Engine

end StrongAuth
