import StrongAuth.Engine

set_option autoImplicit false

/-!
# What an attempt results in

Every check, every handler of a step, the check of a code and the write at the end can make an
outcome of its own. An outcome with a message stays at the old status, or has failed over a business
matter; an outcome without one is ahead of the old status, or the old one while a code is awaited.
This holds whatever the store and the bank answer. The table of moves permits every outcome of a
step, so the outcome is never replaced.
-/
namespace StrongAuth

def TppMessage.ofMove (area : Area) (current next : Sca.Status) : TppMessage :=
  ⟨area, .backend, .internalServerError,
    some s!"Transition from {current.name} to {next.name} is not allowed"⟩

theorem append_ne_append {head head' : String} (n : Nat) (long : n < head.toList.length)
    (long' : n < head'.toList.length) (front : head.toList[n]? ≠ head'.toList[n]?)
    (tail tail' : String) : head ++ tail ≠ head' ++ tail' := by
  intro same
  have spelt := congrArg (fun text => text.toList[n]?) same
  simp only [String.toList_append, List.getElem?_append_left long,
    List.getElem?_append_left long'] at spelt
  exact front spelt

theorem TppMessage.ofFault_ne_ofMove (area area' : Area) (fault : Bank.Fault)
    (current next : Sca.Status) : ofFault area fault ≠ ofMove area' current next := by
  intro same
  have texts : fault.message =
      "Transition from " ++ (current.name ++ (" to " ++ (next.name ++ " is not allowed"))) := by
    rw [Option.some.inj (congrArg TppMessage.text same)]
    simp only [String.append_assoc]
    rfl
  have codes := congrArg TppMessage.code same
  cases fault with
  | unavailable text =>
    exact append_ne_append 1 (by decide) (by decide) (by decide) _ _ texts
  | rejected text =>
    exact append_ne_append 1 (by decide) (by decide) (by decide) _ _ texts
  | unsupported text => cases codes

namespace Attempt

/-- The message is about the attempt, and if it is about the bank, then a fault of the bank is the
reason. -/
structure Gives (a : Attempt) (m : TppMessage) : Prop where
  area : m.area = a.area
  fault : m.category = .backend → ∃ fault, m = .ofFault a.area fault

/-- What an attempt results in. The flag tells whether it came with a confirmation code. A refusal may
show the methods that were offered and the status that was reported for the parent, and nothing else. -/
inductive Result (a : Attempt) (c : Config) (p : Purpose) : Bool → Outcome → Prop where
  | refused {coded : Bool} {m : TppMessage} {methods : List Sca.Method}
      {parentStatus : Option Parent.Status} (gives : a.Gives m) :
      Result a c p coded { a.reject m with methods, parentStatus }
  | failed {coded : Bool} {m : TppMessage} {parentStatus : Option Parent.Status} (gives : a.Gives m)
      (business : m.category = .business) (live : a.status.isTerminal = false) :
      Result a c p coded { a.fail m with parentStatus }
  | advanced {o : Outcome} (success : o.error = none) (ahead : a.status.next? = some o.status) :
      Result a c p false o
  | exempted {o : Outcome} (success : o.error = none) (before : a.status = .received)
      (after : o.status = .exempted) : Result a c p false o
  | awaiting {o : Outcome} (success : o.error = none) (needed : p.needsCode c a.approach = true)
      (before : a.status = .started) (still : o.status = .started) : Result a c p false o
  | confirmed {o : Outcome} (success : o.error = none) (needed : p.needsCode c a.approach = true)
      (before : a.status = .methodSelected ∨ a.status = .started) (after : o.status = .finalised) :
      Result a c p true o

variable {σ : Type} {a : Attempt} {c : Config} {p : Purpose} {coded : Bool} {site : Site σ}

theorem Result.permits {o : Outcome} (h : a.Result c p false o) :
    a.status.permits o.status = true := by
  cases h with
  | refused _ => exact Sca.Status.permits_self a.status
  | failed _ _ live => exact Sca.Status.permits_failed live
  | advanced _ ahead =>
    have live : a.status.isTerminal = false := by
      cases status : a.status <;> first | rfl | (rw [status] at ahead; cases ahead)
    simp [Sca.Status.permits, live, ahead]
  | exempted _ before after => rw [before, after]; rfl
  | awaiting _ _ before still => rw [before, still]; rfl

theorem gives_validation (code : TppMessage.Code) (text : String) :
    a.Gives (.validation a.area code text) := ⟨rfl, nofun⟩

theorem gives_business (code : TppMessage.Code) (text : String) :
    a.Gives (.business a.area code text) := ⟨rfl, nofun⟩

theorem gives_fault (fault : Bank.Fault) : a.Gives (.ofFault a.area fault) :=
  ⟨rfl, fun _ => ⟨fault, rfl⟩⟩

theorem gives_storeError (e : StoreError) : a.Gives (.ofStoreError a.area e) := ⟨rfl, nofun⟩

theorem gives_effectError (e : EffectError) : a.Gives (e.toTppMessage a.area) := by
  cases e with
  | bank fault => exact gives_fault fault
  | store cause => exact gives_storeError cause
  | payload cause => exact gives_storeError _
  | wrongParent purpose parentId => exact gives_storeError _

theorem reject_result {m : TppMessage} (gives : a.Gives m) : a.Result c p coded (a.reject m) :=
  .refused gives

theorem failBusiness_result (code : TppMessage.Code) (text : String)
    (live : a.status.isTerminal = false) : a.Result c p coded (a.failBusiness code text) :=
  .failed (gives_business code text) rfl live

theorem offerMethods_result (before : a.status = .psuIdentified) (parent : Parent) :
    a.Result c p false (a.offerMethods parent site).1 := by
  unfold offerMethods
  split
  · exact failBusiness_result _ _ (congrArg Sca.Status.isTerminal before)
  · exact .advanced rfl (congrArg Sca.Status.next? before)
  · exact reject_result (gives_fault _)

theorem startMethod_result (before : a.status = .psuAuthenticated) (methodId : String)
    (methods : List Sca.Method) (parent : Parent) :
    a.Result c p false (a.startMethod methodId methods parent site).1 := by
  unfold startMethod
  split
  · exact .advanced rfl (congrArg Sca.Status.next? before)
  · exact reject_result (gives_fault _)

variable [Store σ]

theorem withParent_result {next : Parent → Site σ → Outcome × Site σ}
    (goes : ∀ parent site, a.Result c p coded (next parent site).1) :
    a.Result c p coded (a.withParent p site next).1 := by
  unfold withParent
  split
  · exact goes _ _
  · exact reject_result (gives_business _ _)
  · exact reject_result (gives_storeError _)

theorem identify_result (before : a.status = .received) :
    a.Result c p false (a.identify p site).1 := by
  unfold identify
  split
  · exact reject_result (gives_validation _ _)
  · refine withParent_result fun parent site => ?_
    split
    · split
      · exact .exempted rfl before rfl
      · exact .advanced rfl (congrArg Sca.Status.next? before)
      · exact reject_result (gives_fault _)
    · exact failBusiness_result _ _ (congrArg Sca.Status.isTerminal before)

theorem authenticate_result (before : a.status = .psuIdentified) :
    a.Result c p false (a.authenticate p site).1 := by
  unfold authenticate
  split
  · exact reject_result (gives_validation _ _)
  · refine withParent_result fun parent site => ?_
    split
    · exact offerMethods_result before parent
    · exact reject_result (gives_business _ _)
    · exact failBusiness_result _ _ (congrArg Sca.Status.isTerminal before)
    · exact reject_result (gives_fault _)

theorem chooseMethod_result (before : a.status = .psuAuthenticated) :
    a.Result c p false (a.chooseMethod p site).1 := by
  unfold chooseMethod
  split
  · exact reject_result (gives_validation _ _)
  · next methodId _ =>
    refine withParent_result fun parent site => ?_
    split
    · exact reject_result (gives_fault _)
    · next methods bank _ =>
      split
      · exact startMethod_result before methodId methods parent
      · exact .refused (gives_business _ _)

theorem verify_result (before : a.status = .methodSelected) :
    a.Result c p false (a.verify p site).1 := by
  unfold verify
  split
  · exact reject_result (gives_validation _ _)
  · refine withParent_result fun parent site => ?_
    split
    · exact .advanced rfl (congrArg Sca.Status.next? before)
    · exact reject_result (gives_business _ _)
    · exact failBusiness_result _ _ (congrArg Sca.Status.isTerminal before)
    · exact reject_result (gives_fault _)

theorem ofEffect_result (before : a.status = .started) (e : Purpose.Effect) :
    a.Result c p false (a.ofEffect e) := by
  obtain ⟨verdict, parentStatus⟩ := e
  cases verdict with
  | success => exact .advanced rfl (congrArg Sca.Status.next? before)
  | attemptFailure => exact .refused (gives_business _ _)
  | failure =>
    exact .failed (gives_business _ _) rfl (congrArg Sca.Status.isTerminal before)

theorem conclude_result (before : a.status = .started) :
    a.Result c p false (a.conclude c p site).1 := by
  unfold conclude
  split
  · next needed => exact .awaiting rfl needed before before
  · refine withParent_result fun parent site => ?_
    split
    · next effect _ _ => exact ofEffect_result before effect
    · exact reject_result (gives_effectError _)

theorem currentStep_result (a : Attempt) (c : Config) (p : Purpose) (site : Site σ) :
    a.Result c p false (a.currentStep c p site).1 := by
  unfold currentStep
  cases before : a.status with
  | received => exact identify_result before
  | psuIdentified => exact authenticate_result before
  | psuAuthenticated => exact chooseMethod_result before
  | methodSelected => exact verify_result before
  | started => exact conclude_result before
  | finalised | failed | exempted => exact reject_result (gives_business _ _)

/-- No outcome of a step is ever replaced. -/
theorem step_eq_currentStep (a : Attempt) (c : Config) (p : Purpose) (site : Site σ) :
    a.step c p site = a.currentStep c p site := by
  have permits := (currentStep_result a c p site).permits
  simp only [step, guarded, permits, if_true]

theorem step_result (a : Attempt) (c : Config) (p : Purpose) (site : Site σ) :
    a.Result c p false (a.step c p site).1 := by
  rw [step_eq_currentStep]
  exact currentStep_result a c p site

theorem confirmLocally_result (before : a.status = .methodSelected ∨ a.status = .started)
    (needed : p.needsCode c a.approach = true) (code : Secret) :
    a.Result c p true (a.confirmLocally code) := by
  unfold confirmLocally
  split
  · split
    · exact .confirmed rfl needed before rfl
    · exact reject_result (gives_validation _ _)
  · exact reject_result (gives_validation _ _)

theorem ofCodeCheck_result (before : a.status = .methodSelected ∨ a.status = .started)
    (needed : p.needsCode c a.approach = true) (check : Bank.CodeCheck) :
    a.Result c p true (a.ofCodeCheck check) := by
  have live : a.status.isTerminal = false := by
    rcases before with before | before <;> rw [before] <;> rfl
  obtain ⟨scaStatus, paymentStatus⟩ := check
  cases scaStatus with
  | finalised => exact .confirmed rfl needed before rfl
  | failed => exact .failed (gives_business _ _) rfl live
  | received | psuIdentified | psuAuthenticated | methodSelected | started | exempted =>
    exact .refused (gives_validation _ _)

theorem confirmAtBank_result (before : a.status = .methodSelected ∨ a.status = .started)
    (needed : p.needsCode c a.approach = true) (code : Secret) :
    a.Result c p true (a.confirmAtBank p code site).1 := by
  unfold confirmAtBank
  split
  · exact reject_result (gives_storeError _)
  · exact reject_result (gives_business _ _)
  · split
    · next check _ _ => exact ofCodeCheck_result before needed check
    · exact reject_result (gives_effectError _)

theorem confirm_result (a : Attempt) (c : Config) (p : Purpose) (checker : CodeChecker)
    (site : Site σ) : a.Result c p true (a.confirm c p checker site).1 := by
  unfold confirm
  split
  · exact reject_result (gives_business _ _)
  · split
    · exact reject_result (gives_business _ _)
    · next used =>
      have needed : p.needsCode c a.approach = true := by simpa using used
      split
      · exact reject_result (gives_business _ _)
      · next selected =>
        have before : a.status = .methodSelected ∨ a.status = .started := by
          simpa only [Bool.not_eq_true', Bool.not_eq_false, Bool.or_eq_true, beq_iff_eq]
            using selected
        split
        · exact reject_result (gives_validation _ _)
        · next code _ =>
          cases checker with
          | «local» => exact confirmLocally_result before needed code
          | bank => exact confirmAtBank_result before needed code

end Attempt

namespace Engine

variable {σ : Type} [Store σ] {a : Attempt} {c : Config} {p : Purpose} {site : Site σ}

theorem record_result {coded : Bool} {o : Outcome} (h : a.Result c p coded o) :
    a.Result c p coded (record site p a o).1 := by
  unfold record
  split
  · exact h
  · split
    · exact h
    · exact Attempt.reject_result (Attempt.gives_storeError _)

theorem advance_result (a : Attempt) (c : Config) (p : Purpose) (site : Site σ) :
    a.Result c p a.hasCode (advance c site p a).1 := by
  unfold advance
  cases coded : a.hasCode with
  | true => exact record_result (a.confirm_result c p _ site)
  | false =>
    cases lacking : a.incomplete with
    | none => exact record_result (a.step_result c p site)
    | some m =>
      obtain ⟨field, -, rfl⟩ := Option.map_eq_some_iff.mp lacking
      exact Attempt.reject_result (Attempt.gives_validation _ _)

end Engine

end StrongAuth
