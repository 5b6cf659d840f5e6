import StrongAuth.Proofs.CodeCheck

set_option autoImplicit false

namespace StrongAuth

namespace Bank

theorem Alike.trans {b b' b'' : Bank} (h : b.Alike b') (k : b'.Alike b'') : b.Alike b'' :=
  ⟨k.script.trans h.script, h.desk.trans k.desk⟩

theorem AnswerAlike.trans {α : Type} {x y z : α × Bank} (h : AnswerAlike x y)
    (k : AnswerAlike y z) : AnswerAlike x z :=
  ⟨k.1.trans h.1, h.2.trans k.2⟩

/-- What is said of a secret. A blank one counts as absent, and nothing is said of it. -/
def saidOf (say : Secret → Answer Verdict) (secret : Option Secret) : Option (Answer Verdict) :=
  (secret.filter fun s => !s.isBlank).map say

def verdictOnPassword (b : Bank) : Option Secret → Option (Answer Verdict) :=
  saidOf fun password => (consult b.script.credentials b.desk (·.credentials password)).1

def verdictOnData (b : Bank) : Option Secret → Option (Answer Verdict) :=
  saidOf fun data => (consult b.script.verification b.desk (·.verification data)).1

theorem isSome_saidOf (say : Secret → Answer Verdict) (secret : Option Secret) :
    (saidOf say secret).isSome = Secret.isGiven secret := by
  cases secret with
  | none => rfl
  | some s =>
    cases blank : s.isBlank <;>
      simp_all [saidOf, Secret.isGiven, Text.isGiven, Secret.isBlank]

theorem saidOf_eq_some_iff {say : Secret → Answer Verdict} {secret : Option Secret}
    {word : Answer Verdict} :
    saidOf say secret = some word ↔ ∃ s, secret = some s ∧ s.isBlank = false ∧ say s = word := by
  simp [saidOf, Option.filter_eq_some_iff, and_assoc]

theorem isGiven_of_saidOf {say : Secret → Answer Verdict} {secret secret' : Option Secret}
    (same : saidOf say secret' = saidOf say secret) :
    Secret.isGiven secret' = Secret.isGiven secret := by
  rw [← isSome_saidOf say, same, isSome_saidOf]

theorem exists_of_saidOf {say : Secret → Answer Verdict} {secret secret' : Option Secret}
    (given : Secret.isGiven secret = true) (same : saidOf say secret' = saidOf say secret) :
    ∃ x y, secret = some x ∧ secret' = some y ∧ say y = say x ∧
      saidOf say secret' = some (say x) := by
  obtain ⟨word, said⟩ : ∃ word, saidOf say secret = some word := by
    rw [← Option.isSome_iff_exists, isSome_saidOf]
    exact given
  have said' := same.trans said
  obtain ⟨x, brought, -, rfl⟩ := saidOf_eq_some_iff.mp said
  obtain ⟨y, brought', -, spoken⟩ := saidOf_eq_some_iff.mp said'
  exact ⟨x, y, brought, brought', spoken, said'⟩

/-- To consult the bank with another question makes no difference if the answer is the same, and the
desk notes no more than that it was asked. -/
theorem consult_congr {α : Type} {script : List (Answer α)} {d : Desk}
    {ask ask' : Desk → Answer α × Desk}
    (said : (consult script d ask').1 = (consult script d ask).1)
    (left : (ask' d).2 = (ask d).2) : consult script d ask' = consult script d ask := by
  unfold consult at said ⊢
  cases script with
  | nil =>
    dsimp only at said ⊢
    rw [said, left]
  | cons answer rest => rfl

section Asking
variable {b b' : Bank} {c c' : Context} {p : Parent} {x y : Secret}

theorem askCredentials_judged (h : b.Alike b')
    (said : (consult b.script.credentials b.desk (·.credentials y)).1 =
      (consult b.script.credentials b.desk (·.credentials x)).1) :
    AnswerAlike (b.askCredentials c x p) (b'.askCredentials c' y p) := by
  have settled := consult_congr said (by simp only [Desk.credentials, Desk.attend_desk])
  have noted : AnswerAlike (b.askCredentials c x p) (b.askCredentials c y p) := by
    unfold askCredentials
    rw [settled]
    exact ⟨rfl, rfl, .refl _⟩
  exact noted.trans (askCredentials_alike h)

theorem askVerification_judged (h : b.Alike b')
    (said : (consult b.script.verification b.desk (·.verification y)).1 =
      (consult b.script.verification b.desk (·.verification x)).1) :
    AnswerAlike (b.askVerification c x p) (b'.askVerification c' y p) := by
  have settled := consult_congr said (by simp only [Desk.verification, Desk.attend_desk])
  have noted : AnswerAlike (b.askVerification c x p) (b.askVerification c y p) := by
    unfold askVerification
    rw [settled]
    exact ⟨rfl, rfl, .refl _⟩
  exact noted.trans (askVerification_alike h)

end Asking

end Bank

/-- A code that the deployment checks itself and finds wrong, if it comes to the check. -/
structure Attempt.FailsLocalCheck (a : Attempt) (c : Config) : Prop where
  locally : c.checksCodesLocally = true
  given : a.hasCode = true
  wrong : a.storedSecret ≠ a.code

/-- The same attempt with secrets that are judged alike. What the bank accepts as the answer to a
challenge is kept, so there it has to be the same answer. -/
inductive Attempt.JudgedAlike (a : Attempt) (c : Config) (b : Bank) : Attempt → Prop where
  | intro {password data code : Option Secret}
      (admitted : b.verdictOnPassword password = b.verdictOnPassword a.password)
      (verified : data = a.data ∨ b.verdictOnData data = b.verdictOnData a.data ∧
        b.verdictOnData data ≠ some (.ok .success))
      (coded : code = a.code ∨ a.FailsLocalCheck c ∧ Attempt.FailsLocalCheck { a with code } c) :
      a.JudgedAlike c b { a with password, data, code }

namespace Attempt

variable {p : Purpose} {c : Config} {a a' : Attempt} {site site' : Site Backend}

theorem simulates_self (p : Purpose) (a : Attempt) : Simulates Eq Eq p a a where
  alike := .refl a
  parent := by
    rintro s _ rfl
    exact ⟨rfl, rfl⟩
  completes := by
    rintro - s _ rfl parent -
    rfl
  persist := by
    rintro s _ rfl o
    exact ⟨rfl, rfl⟩
  weaken _ _ same := same

namespace JudgedAlike

theorem same {α : Type} {b : Bank} (h : a.JudgedAlike c b a') (view : Attempt → α)
    (blind : ∀ password data code, view { a with password, data, code } = view a) :
    view a' = view a := by
  cases h
  exact blind _ _ _

theorem hasPassword (h : a.JudgedAlike c site.bank a') : a'.hasPassword = a.hasPassword := by
  cases h with
  | intro admitted verified coded => exact Bank.isGiven_of_saidOf admitted

theorem hasData (h : a.JudgedAlike c site.bank a') : a'.hasData = a.hasData := by
  cases h with
  | intro admitted verified coded =>
    rcases verified with rfl | ⟨same, -⟩
    · rfl
    · exact Bank.isGiven_of_saidOf same

theorem hasCode (h : a.JudgedAlike c site.bank a') : a'.hasCode = a.hasCode := by
  cases h with
  | intro admitted verified coded =>
    rcases coded with rfl | ⟨wrong, wrong'⟩
    · rfl
    · exact wrong'.given.trans wrong.given.symm

theorem incomplete (h : a.JudgedAlike c site.bank a') : a'.incomplete = a.incomplete := by
  have hasPassword := h.hasPassword
  have hasData := h.hasData
  cases h
  simp only [Attempt.incomplete, missingField, hasPassword, hasData]
  rfl

end JudgedAlike

theorem withParent_judged (h : a.JudgedAlike c site.bank a') (sites : site.Alike Eq site')
    (next next' : Parent → Site Backend → Outcome × Site Backend)
    (steps : ∀ parent store, ResultAlike Eq (next parent { site with store })
      (next' parent { site' with store })) :
    ResultAlike Eq (a.withParent p site next) (a'.withParent p site' next') := by
  cases h
  unfold withParent
  rw [← sites.store]
  dsimp only
  split
  · exact steps _ _
  · exact ⟨rfl, rfl, sites.bank⟩
  · exact ⟨rfl, rfl, sites.bank⟩

theorem authenticate_judged (h : a.JudgedAlike c site.bank a') (given : a.hasPassword = true)
    (sites : site.Alike Eq site') :
    ResultAlike Eq (a.authenticate p site) (a'.authenticate p site') := by
  have parted := withParent_judged (p := p) h sites
  cases h with
  | @intro password data code admitted verified coded =>
    obtain ⟨x, y, brought, rfl, same, -⟩ := Bank.exists_of_saidOf given admitted
    unfold authenticate
    rw [brought]
    refine parted _ _ fun parent store => ?_
    refine (Bank.askCredentials_judged sites.bank same).elim fun answer b b' banks => ?_
    rcases answer with fault | verdict
    · exact ⟨rfl, rfl, banks⟩
    · cases verdict with
      | success => exact offerMethods_alike (.refl a) parent ⟨rfl, banks⟩
      | attemptFailure | failure => exact ⟨rfl, rfl, banks⟩

theorem verify_judged (h : a.JudgedAlike c site.bank a') (given : a.hasData = true)
    (sites : site.Alike Eq site') : ResultAlike Eq (a.verify p site) (a'.verify p site') := by
  have parted := withParent_judged (p := p) h sites
  cases h with
  | @intro password data code admitted verified coded =>
    rcases verified with rfl | ⟨same, refused⟩
    · change ResultAlike Eq (a.verify p site) (a.verify p site')
      exact verify_alike (simulates_self p a) sites
    · obtain ⟨x, y, brought, rfl, same, verdict⟩ := Bank.exists_of_saidOf given same
      unfold verify
      rw [brought]
      refine parted _ _ fun parent store => ?_
      have unaccepted : (site.bank.askVerification a.context x parent).1 ≠ .ok .success :=
        fun accepted => refused (verdict.trans (congrArg some accepted))
      revert unaccepted
      refine (Bank.askVerification_judged sites.bank same).elim
        fun answer b b' banks unaccepted => ?_
      rcases answer with fault | verdict
      · exact ⟨rfl, rfl, banks⟩
      · cases verdict with
        | success => exact absurd rfl unaccepted
        | attemptFailure | failure => exact ⟨rfl, rfl, banks⟩

theorem step_judged (h : a.JudgedAlike c site.bank a') (complete : a.incomplete = none)
    (sites : site.Alike Eq site') : ResultAlike Eq (a.step c p site) (a'.step c p site') := by
  have status : a'.status = a.status := h.same Attempt.status fun _ _ _ => rfl
  have identifies : a'.identify p site' = a.identify p site' :=
    h.same (·.identify p site') fun _ _ _ => rfl
  have chooses : a'.chooseMethod p site' = a.chooseMethod p site' :=
    h.same (·.chooseMethod p site') fun _ _ _ => rfl
  have concludes : a'.conclude c p site' = a.conclude c p site' :=
    h.same (·.conclude c p site') fun _ _ _ => rfl
  have refuses : a'.refuse = a.refuse := h.same Attempt.refuse fun _ _ _ => rfl
  have self := simulates_self p a
  -- only two of the steps look at a secret, and they come after the check that it is there
  rw [step_eq_currentStep, step_eq_currentStep]
  unfold currentStep
  unfold incomplete missingField at complete
  rw [status, identifies, chooses, concludes, refuses]
  cases current : a.status with
  | received => exact identify_alike self sites
  | psuIdentified =>
    have given : a.hasPassword = true := by simpa [current] using complete
    exact authenticate_judged h given sites
  | psuAuthenticated => exact chooseMethod_alike self sites
  | methodSelected =>
    have given : a.hasData = true := by simpa [current] using complete
    exact verify_judged h given sites
  | started => exact conclude_alike self c sites
  | finalised | failed | exempted => exact ⟨rfl, sites⟩

theorem confirmLocally_of_wrong {code : Secret} (wrong : a.storedSecret ≠ some code) :
    a.confirmLocally code =
      a.rejectInvalid .formatErrorScaStatus "The confirmation code does not match" := by
  unfold confirmLocally
  split
  · next secret stored =>
    rw [stored] at wrong
    split
    · next same => exact absurd (congrArg some (Secret.matchesCode_iff.mp same)) wrong
    · rfl
  · rfl

theorem FailsLocalCheck.refused (h : a.FailsLocalCheck c) :
    ∃ code, a.givenCode = some code ∧ a.confirmLocally code =
      a.rejectInvalid .formatErrorScaStatus "The confirmation code does not match" := by
  obtain ⟨code, brought, spoken⟩ := code_of_hasCode h.given
  refine ⟨code, by simp [givenCode, brought, spoken], confirmLocally_of_wrong ?_⟩
  rw [← brought]
  exact h.wrong

theorem confirm_of_failsLocalCheck {code : Option Secret} (wrong : a.FailsLocalCheck c)
    (wrong' : Attempt.FailsLocalCheck { a with code } c) (site : Site Backend) :
    Attempt.confirm { a with code } c p .local site = a.confirm c p .local site := by
  obtain ⟨x, given, refused⟩ := wrong.refused
  obtain ⟨y, given', refused'⟩ := wrong'.refused
  unfold confirm
  rw [given, given']
  dsimp only
  rw [refused, refused']
  rfl

theorem confirm_judged (h : a.JudgedAlike c site.bank a') (sites : site.Alike Eq site') :
    ResultAlike Eq (a.confirm c p (.ofFlag c.checksCodesLocally) site)
      (a'.confirm c p (.ofFlag c.checksCodesLocally) site') := by
  have self := confirm_alike (simulates_self p a) c (.ofFlag c.checksCodesLocally) sites
  cases h with
  | @intro password data code admitted verified coded =>
    rcases coded with rfl | ⟨wrong, wrong'⟩
    · exact self
    · rw [Engine.ofFlag_local wrong.locally] at self ⊢
      have same := confirm_of_failsLocalCheck (p := p) wrong wrong' site'
      rw [← same] at self
      exact self

end Attempt

namespace Engine

variable {c : Config} {site site' : Site Backend} {p : Purpose} {a a' : Attempt}

theorem advance_judged (h : a.JudgedAlike c site.bank a') (sites : site.Alike Eq site') :
    ResultAlike Eq (advance c site p a) (advance c site' p a') := by
  have confirmed := Attempt.confirm_judged (p := p) h sites
  have stepped := fun complete => Attempt.step_judged (p := p) h complete sites
  have hasCode := h.hasCode
  have incomplete := h.incomplete
  have recorded (o : Outcome) (s t : Site Backend) (sites : s.Alike Eq t) :
      ResultAlike Eq (record s p a o) (record t p a' o) := by
    cases h
    exact record_alike (Attempt.simulates_self p a) o sites
  unfold advance
  rw [hasCode, incomplete]
  split
  · exact confirmed.elim recorded
  · split
    · cases h
      exact ⟨rfl, sites⟩
    · next complete => exact (stepped complete).elim recorded

end Engine

end StrongAuth
