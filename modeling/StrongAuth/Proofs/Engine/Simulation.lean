import StrongAuth.Proofs.Engine.Handling
import StrongAuth.Proofs.Progress
import StrongAuth.Proofs.Store.Footprint

set_option autoImplicit false

/-!
# Updates on stores that are alike

An update asks few things of a store: its authorisation, the parent of that, the other
authorisations of the parent, and at last the write. Stores that answer these alike, and go on doing
so, cannot be told from each other by the update, nor can banks with the same script and settings.
-/
namespace StrongAuth
open StrongAuth.Calendar

/-- The same came of it, and the stores are related after it. -/
def StoresAlike {α : Type} (R : Backend → Backend → Prop) (x y : α × Backend) : Prop :=
  y.1 = x.1 ∧ R x.2 y.2

@[elab_as_elim]
theorem StoresAlike.elim {α : Type} {R : Backend → Backend → Prop}
    {motive : α × Backend → α × Backend → Prop} {x y : α × Backend} (h : StoresAlike R x y)
    (each : ∀ (answer : α) (s t : Backend), R s t → motive (answer, s) (answer, t)) :
    motive x y := by
  obtain ⟨answer, store⟩ := x
  obtain ⟨answer', store'⟩ := y
  obtain ⟨rfl, stores⟩ := h
  exact each answer' store store' stores

/-- Attempts that differ at most in their version and in the types of the ids of their PSU. -/
inductive Attempt.Alike (a : Attempt) : Attempt → Prop where
  | intro {psu : Psu} {version : Int} (ids : a.psu.SameIds psu) : a.Alike { a with psu, version }

theorem Attempt.Alike.refl (a : Attempt) : a.Alike a := .intro (.refl a.psu)

theorem Attempt.Alike.same {α : Type} {a a' : Attempt} (h : a.Alike a') (view : Attempt → α)
    (blind : ∀ psu version, view { a with psu, version } = view a) : view a' = view a := by
  cases h
  exact blind _ _

/-- Stores in the first relation answer alike whatever two attempts ask of them, and what is written
at last leaves them in the second one. -/
structure Simulates (R R' : Backend → Backend → Prop) (p : Purpose) (a a' : Attempt) : Prop where
  alike : a.Alike a'
  parent : ∀ s t, R s t →
    StoresAlike R (p.findParent s a.parentId) (p.findParent t a.parentId)
  completes : p = .initiation → ∀ s t, R s t → ∀ parent : Parent, parent.id = a.parentId →
    Purpose.completes t a'.context parent = Purpose.completes s a.context parent
  persist : ∀ s t, R s t → ∀ o, StoresAlike R' (p.persist s a o) (p.persist t a' o)
  weaken : ∀ s t, R s t → R' s t

structure Site.Alike (R : Backend → Backend → Prop) (site site' : Site Backend) : Prop where
  store : R site.store site'.store
  bank : site.bank.Alike site'.bank

structure ResultAlike {α : Type} (R : Backend → Backend → Prop) (x y : α × Site Backend) :
    Prop where
  answer : y.1 = x.1
  site : x.2.Alike R y.2

@[elab_as_elim]
theorem ResultAlike.elim {α : Type} {R : Backend → Backend → Prop}
    {motive : α × Site Backend → α × Site Backend → Prop} {x y : α × Site Backend}
    (h : ResultAlike R x y)
    (each : ∀ (answer : α) (s t : Site Backend), s.Alike R t → motive (answer, s) (answer, t)) :
    motive x y := by
  obtain ⟨answer, site⟩ := x
  obtain ⟨answer', site'⟩ := y
  obtain ⟨rfl, sites⟩ := h
  exact each answer' site site' sites

variable {R R' : Backend → Backend → Prop} {p : Purpose}

namespace Purpose

section Lookups
variable {i : String} {s t : Backend} (h : R s t)
include h

theorem findOrderedPayment_alike (payment : Store.payment t i = Store.payment s i)
    (saveOrder : ∀ order, StoresAlike R (Store.saveOrder s i order) (Store.saveOrder t i order)) :
    StoresAlike R (findOrderedPayment s i) (findOrderedPayment t i) := by
  unfold findOrderedPayment
  rw [payment]
  split
  · exact ⟨rfl, h⟩
  · exact ⟨rfl, h⟩
  · split
    · exact ⟨rfl, h⟩
    · split
      · exact ⟨rfl, h⟩
      · next order spelt =>
        refine (saveOrder order).elim fun answer s t stores => ?_
        cases answer <;> exact ⟨rfl, stores⟩

theorem findParent_alike
    (consent : p.isPayment = false → Store.consent t i = Store.consent s i)
    (payment : p.isPayment = true → Store.payment t i = Store.payment s i)
    (saveOrder : p = .cancellation → ∀ order,
      StoresAlike R (Store.saveOrder s i order) (Store.saveOrder t i order)) :
    StoresAlike R (p.findParent s i) (p.findParent t i) := by
  cases p with
  | account => exact ⟨congrArg (Except.map _) (consent rfl), h⟩
  | initiation => exact ⟨congrArg (Except.map _) (payment rfl), h⟩
  | cancellation =>
    obtain ⟨answer, stores⟩ := findOrderedPayment_alike h (payment rfl) (saveOrder rfl)
    exact ⟨congrArg (Except.map _) answer, stores⟩

end Lookups

variable {site site' : Site Backend} {c c' : Bank.Context}

theorem confirmConsent_alike {b b' : Bank} (h : b.Alike b') (consent : Consent) :
    Bank.AnswerAlike (confirmConsent b c consent) (confirmConsent b' c' consent) := by
  unfold confirmConsent
  refine (Bank.askConfirmation_alike h).elim fun answer b b' banks => ?_
  rcases answer with fault | verdict
  · exact ⟨rfl, banks⟩
  · cases verdict <;> exact ⟨rfl, banks⟩

theorem executePayment_alike (sites : site.Alike R site') {payment : Payment}
    (foresees : completes site'.store c' (.payment payment) =
      completes site.store c (.payment payment)) :
    Bank.AnswerAlike (executePayment site c payment) (executePayment site' c' payment) := by
  unfold executePayment
  rw [foresees]
  split
  · exact ⟨rfl, sites.bank⟩
  · exact ⟨rfl, sites.bank⟩
  · split
    · exact ⟨rfl, sites.bank⟩
    · refine (Bank.askExecution_alike sites.bank).elim fun answer b b' banks => ?_
      cases answer <;> exact ⟨rfl, banks⟩

theorem cancelPayment_alike {b b' : Bank} (h : b.Alike b') (payment : Payment) :
    Bank.AnswerAlike (cancelPayment b c payment) (cancelPayment b' c' payment) := by
  unfold cancelPayment
  split
  · exact ⟨rfl, h⟩
  · refine (Bank.askCancellation_alike h).elim fun answer b b' banks => ?_
    cases answer <;> exact ⟨rfl, banks⟩

theorem finalise_alike (sites : site.Alike R site') {parent : Parent}
    (foresees : p = .initiation →
      completes site'.store c' parent = completes site.store c parent) :
    Bank.AnswerAlike (p.finalise site c parent) (p.finalise site' c' parent) := by
  cases p with
  | account =>
    cases parent with
    | consent consent => exact confirmConsent_alike sites.bank consent
    | payment payment => exact ⟨rfl, sites.bank⟩
  | initiation =>
    cases parent with
    | consent consent => exact ⟨rfl, sites.bank⟩
    | payment payment => exact executePayment_alike sites (foresees rfl)
  | cancellation =>
    cases parent with
    | consent consent => exact ⟨rfl, sites.bank⟩
    | payment payment => exact cancelPayment_alike sites.bank payment

theorem checkCode_alike {b b' : Bank} (h : b.Alike b') (p : Purpose) (code : Secret)
    (parent : Parent) :
    Bank.AnswerAlike (p.checkCode b c code parent) (p.checkCode b' c' code parent) := by
  unfold checkCode
  split
  · split
    · exact ⟨rfl, h⟩
    · split
      · exact ⟨rfl, h⟩
      · refine (Bank.askCodeCheck_alike h).elim fun answer b b' banks => ?_
        cases answer <;> exact ⟨rfl, banks⟩
  · exact ⟨rfl, h⟩

end Purpose

namespace Attempt

variable {a a' : Attempt} {site site' : Site Backend}

theorem Alike.mayAuthorise (h : a.Alike a') (parent : Parent) :
    a'.mayAuthorise parent = a.mayAuthorise parent := by
  cases h with
  | @intro psu version ids =>
    have lists : parent.lists psu = parent.lists a.psu :=
      congrArg parent.psus.any (funext fun p => by rw [p.isSame_comm, ids.isSame, p.isSame_comm])
    unfold mayAuthorise
    rw [lists]

theorem Alike.isEmpty (h : a.Alike a') : a'.psu.isEmpty = a.psu.isEmpty := by
  cases h with
  | intro ids => exact ids.isEmpty

theorem Alike.reject (h : a.Alike a') (m : TppMessage) : a'.reject m = a.reject m :=
  h.same (·.reject m) fun _ _ => rfl

theorem withParent_alike (sim : Simulates R R' p a a') (sites : site.Alike R site')
    {next next' : Parent → Site Backend → Outcome × Site Backend}
    (steps : ∀ parent s t, parent.id = a.parentId → s.Alike R t →
      ResultAlike R (next parent s) (next' parent t)) :
    ResultAlike R (a.withParent p site next) (a'.withParent p site' next') := by
  have lookup := sim.parent _ _ sites.store
  have found (parent : Parent) (store : Backend)
      (h : p.findParent site.store a.parentId = (.ok (some parent), store)) :
      parent.id = a.parentId := (Purpose.findParent_ok h).id
  unfold withParent
  cases sim.alike
  revert found
  refine lookup.elim fun answer s t stores found => ?_
  rcases answer with e | parent
  · exact ⟨rfl, stores, sites.bank⟩
  · cases parent with
    | none => exact ⟨rfl, stores, sites.bank⟩
    | some parent => exact steps parent _ _ (found parent s rfl) ⟨stores, sites.bank⟩

theorem identify_alike (sim : Simulates R R' p a a') (sites : site.Alike R site') :
    ResultAlike R (a.identify p site) (a'.identify p site') := by
  have may := sim.alike.mayAuthorise
  unfold identify
  rw [sim.alike.isEmpty]
  split
  · cases sim.alike
    exact ⟨rfl, sites⟩
  · refine withParent_alike sim sites fun parent s t _ sites => ?_
    rw [may parent]
    cases sim.alike with
    | intro ids =>
      split
      · refine (Bank.askExemption_alike sites.bank).elim fun answer b b' banks => ?_
        rcases answer with fault | waived
        · exact ⟨rfl, sites.store, banks⟩
        · cases waived <;> exact ⟨rfl, sites.store, banks⟩
      · simp only [ids.text]
        exact ⟨rfl, sites⟩

theorem offerMethods_alike (alike : a.Alike a') (parent : Parent) (sites : site.Alike R site') :
    ResultAlike R (a.offerMethods parent site) (a'.offerMethods parent site') := by
  unfold offerMethods
  cases alike
  refine (Bank.askMethods_alike sites.bank).elim fun answer b b' banks => ?_
  rcases answer with fault | methods
  · exact ⟨rfl, sites.store, banks⟩
  · cases methods <;> exact ⟨rfl, sites.store, banks⟩

theorem authenticate_alike (sim : Simulates R R' p a a') (sites : site.Alike R site') :
    ResultAlike R (a.authenticate p site) (a'.authenticate p site') := by
  unfold authenticate
  have password : a'.password = a.password := sim.alike.same Attempt.password fun _ _ => rfl
  rw [password]
  cases a.password with
  | none =>
    cases sim.alike
    exact ⟨rfl, sites⟩
  | some password =>
    refine withParent_alike sim sites fun parent s t _ sites => ?_
    refine (Bank.askCredentials_alike sites.bank).elim fun answer b b' banks => ?_
    have banks : Site.Alike R { s with bank := b } { t with bank := b' } := ⟨sites.store, banks⟩
    rcases answer with fault | verdict
    · cases sim.alike
      exact ⟨rfl, banks⟩
    · cases verdict with
      | success => exact offerMethods_alike sim.alike parent banks
      | attemptFailure | failure =>
        cases sim.alike
        exact ⟨rfl, banks⟩

theorem startMethod_alike (alike : a.Alike a') (methodId : String) (methods : List Sca.Method)
    (parent : Parent) (sites : site.Alike R site') :
    ResultAlike R (a.startMethod methodId methods parent site)
      (a'.startMethod methodId methods parent site') := by
  unfold startMethod
  cases alike
  refine (Bank.askStartMethod_alike sites.bank).elim fun answer b b' banks => ?_
  cases answer <;> exact ⟨rfl, sites.store, banks⟩

theorem chooseMethod_alike (sim : Simulates R R' p a a') (sites : site.Alike R site') :
    ResultAlike R (a.chooseMethod p site) (a'.chooseMethod p site') := by
  unfold chooseMethod
  have methodId : a'.methodId = a.methodId := sim.alike.same Attempt.methodId fun _ _ => rfl
  rw [methodId]
  cases a.methodId with
  | none =>
    cases sim.alike
    exact ⟨rfl, sites⟩
  | some methodId =>
    refine withParent_alike sim sites fun parent s t _ sites => ?_
    refine (Bank.askMethods_alike sites.bank).elim fun answer b b' banks => ?_
    have banks : Site.Alike R { s with bank := b } { t with bank := b' } := ⟨sites.store, banks⟩
    rcases answer with fault | methods
    · cases sim.alike
      exact ⟨rfl, banks⟩
    · dsimp only
      split
      · exact startMethod_alike sim.alike methodId methods parent banks
      · cases sim.alike
        exact ⟨rfl, banks⟩

theorem verify_alike (sim : Simulates R R' p a a') (sites : site.Alike R site') :
    ResultAlike R (a.verify p site) (a'.verify p site') := by
  unfold verify
  have data : a'.data = a.data := sim.alike.same Attempt.data fun _ _ => rfl
  rw [data]
  cases a.data with
  | none =>
    cases sim.alike
    exact ⟨rfl, sites⟩
  | some data =>
    refine withParent_alike sim sites fun parent s t _ sites => ?_
    cases sim.alike
    refine (Bank.askVerification_alike sites.bank).elim fun answer b b' banks => ?_
    rcases answer with fault | verdict
    · exact ⟨rfl, sites.store, banks⟩
    · cases verdict <;> exact ⟨rfl, sites.store, banks⟩

theorem conclude_alike (sim : Simulates R R' p a a') (c : Config) (sites : site.Alike R site') :
    ResultAlike R (a.conclude c p site) (a'.conclude c p site') := by
  unfold conclude
  have approach : a'.approach = a.approach := sim.alike.same Attempt.approach fun _ _ => rfl
  rw [approach]
  split
  · cases sim.alike
    exact ⟨rfl, sites⟩
  · refine withParent_alike sim sites fun parent s t same sites => ?_
    have foresees (initiates : p = .initiation) :=
      sim.completes initiates _ _ sites.store parent same
    refine (Purpose.finalise_alike sites foresees).elim fun answer b b' banks => ?_
    cases sim.alike
    cases answer <;> exact ⟨rfl, sites.store, banks⟩

theorem step_alike (sim : Simulates R R' p a a') (c : Config) (sites : site.Alike R site') :
    ResultAlike R (a.step c p site) (a'.step c p site') := by
  have status : a'.status = a.status := sim.alike.same Attempt.status fun _ _ => rfl
  rw [step_eq_currentStep, step_eq_currentStep]
  unfold currentStep
  rw [status]
  cases a.status with
  | received => exact identify_alike sim sites
  | psuIdentified => exact authenticate_alike sim sites
  | psuAuthenticated => exact chooseMethod_alike sim sites
  | methodSelected => exact verify_alike sim sites
  | started => exact conclude_alike sim c sites
  | finalised | failed | exempted =>
    cases sim.alike
    exact ⟨rfl, sites⟩

theorem confirmAtBank_alike (sim : Simulates R R' p a a') (code : Secret)
    (sites : site.Alike R site') :
    ResultAlike R (a.confirmAtBank p code site) (a'.confirmAtBank p code site') := by
  have lookup := sim.parent _ _ sites.store
  unfold confirmAtBank
  cases sim.alike
  refine lookup.elim fun answer s t stores => ?_
  rcases answer with e | parent
  · exact ⟨rfl, stores, sites.bank⟩
  · cases parent with
    | none => exact ⟨rfl, stores, sites.bank⟩
    | some parent =>
      dsimp only
      refine (Purpose.checkCode_alike sites.bank p code parent).elim fun answer b b' banks => ?_
      cases answer <;> exact ⟨rfl, stores, banks⟩

theorem confirm_alike (sim : Simulates R R' p a a') (c : Config) (checker : CodeChecker)
    (sites : site.Alike R site') :
    ResultAlike R (a.confirm c p checker site) (a'.confirm c p checker site') := by
  have status : a'.status = a.status := sim.alike.same Attempt.status fun _ _ => rfl
  have approach : a'.approach = a.approach := sim.alike.same Attempt.approach fun _ _ => rfl
  have givenCode : a'.givenCode = a.givenCode := sim.alike.same Attempt.givenCode fun _ _ => rfl
  have rejected (m : TppMessage) : ResultAlike R (a.reject m, site) (a'.reject m, site') :=
    ⟨sim.alike.reject m, sites⟩
  have area : a'.area = a.area := sim.alike.same Attempt.area fun _ _ => rfl
  have id : a'.authorisationId = a.authorisationId :=
    sim.alike.same Attempt.authorisationId fun _ _ => rfl
  unfold confirm rejectBusiness rejectInvalid
  rw [status, approach, givenCode, area, id]
  split
  · exact rejected _
  · split
    · exact rejected _
    · split
      · exact rejected _
      · cases a.givenCode with
        | none => exact rejected _
        | some code =>
          match checker with
          | .local =>
            cases sim.alike
            exact ⟨rfl, sites⟩
          | .bank => exact confirmAtBank_alike sim code sites

end Attempt

namespace Engine

variable {c : Config} {now : Instant} {site site' : Site Backend} {a a' : Attempt}

theorem record_alike (sim : Simulates R R' p a a') (o : Outcome) (sites : site.Alike R site') :
    ResultAlike R' (record site p a o) (record site' p a' o) := by
  have wrote := sim.persist _ _ sites.store o
  have weaker := sim.weaken _ _ sites.store
  unfold record
  cases sim.alike
  split
  · exact ⟨rfl, weaker, sites.bank⟩
  · refine wrote.elim fun answer s t stores => ?_
    cases answer <;> exact ⟨rfl, stores, sites.bank⟩

theorem advance_alike (sim : Simulates R R' p a a') (c : Config) (sites : site.Alike R site') :
    ResultAlike R' (advance c site p a) (advance c site' p a') := by
  have coded := Attempt.confirm_alike sim c (.ofFlag c.checksCodesLocally) sites
  have stepped := Attempt.step_alike sim c sites
  have hasCode : a'.hasCode = a.hasCode := sim.alike.same Attempt.hasCode fun _ _ => rfl
  have incomplete : a'.incomplete = a.incomplete := sim.alike.same Attempt.incomplete fun _ _ => rfl
  unfold advance
  rw [hasCode, incomplete]
  split
  · exact coded.elim fun o s t sites => record_alike sim o sites
  · split
    · cases sim.alike
      exact ⟨rfl, sim.weaken _ _ sites.store, sites.bank⟩
    · exact stepped.elim fun o s t sites => record_alike sim o sites

/-- An update cannot tell stores apart that answer its questions alike. -/
theorem update_alike {u v : UpdateRequest} {stored stored' : Authorisation} (c : Config)
    (now : Instant) (sim : Simulates R R' stored.purpose (.of u stored) (.of v stored'))
    (request : v = { u with psu := v.psu })
    (found : Store.authorisation site.store u.authorisationId = .ok (some stored))
    (found' : Store.authorisation site'.store u.authorisationId = .ok (some stored'))
    (owner : Addressed site.store u stored → stored.isExpired now = false →
      (Attempt.of v stored').foreignPsu stored' = (Attempt.of u stored).foreignPsu stored)
    (sites : site.Alike R site') :
    ResultAlike R' (update c now site u) (update c now site' v) := by
  have rest : site.Alike R' site' := ⟨sim.weaken _ _ sites.store, sites.bank⟩
  have advanced := advance_alike sim c sites
  have rejected := sim.alike.reject
  have parent : stored'.parentId = stored.parentId :=
    sim.alike.same Attempt.parentId fun _ _ => rfl
  have purpose : stored'.purpose = stored.purpose := sim.alike.same Attempt.purpose fun _ _ => rfl
  have id : stored'.id = stored.id := sim.alike.same Attempt.authorisationId fun _ _ => rfl
  have expiry : stored'.expiresAt = stored.expiresAt :=
    sim.alike.same Attempt.expiresAt fun _ _ => rfl
  have late : (Attempt.of v stored').isExpired now = (Attempt.of u stored).isExpired now :=
    congrArg (Instant.isBefore · now) expiry
  have address : v.address = u.address := by rw [request]
  have named : v.authorisationId = u.authorisationId := by rw [request]
  have child : v.parentId = u.parentId := by rw [request]
  have fits (q : Purpose) : findFor site.store q u =
      if stored.parentId == u.parentId && stored.purpose == q then .ok stored
      else .error (.unknownAuthorisation u.authorisationId) := by
    simp only [findFor, found]
  have fits' (q : Purpose) : findFor site'.store q v =
      if stored.parentId == u.parentId && stored.purpose == q then .ok stored'
      else .error (.unknownAuthorisation u.authorisationId) := by
    simp only [findFor, named, found', parent, child, purpose]
  unfold update
  rw [address]
  cases served : resolve u.address with
  | error e => exact ⟨rfl, rest⟩
  | ok q =>
    dsimp only
    rw [fits, fits']
    cases fit : stored.parentId == u.parentId && stored.purpose == q with
    | false => exact ⟨rfl, rest⟩
    | true =>
      simp only [Bool.and_eq_true, beq_iff_eq] at fit
      obtain ⟨own, rfl⟩ := fit
      simp only [if_true]
      rw [late]
      split
      · exact ⟨by simp only [Attempt.of, id, expiry], rest⟩
      · next timely =>
        rw [owner ⟨resolve_eq_ok_iff.mp served, found, own⟩ (eq_false_of_ne_true timely)]
        split
        · exact ⟨by simp only [rejected], rest⟩
        · exact advanced.elim fun o s t sites => ⟨rfl, sites⟩

end Engine

end StrongAuth
