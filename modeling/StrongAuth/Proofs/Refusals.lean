import StrongAuth.Proofs.Engine.Results
import StrongAuth.Proofs.Responses

set_option autoImplicit false

namespace StrongAuth
open StrongAuth.Backend StrongAuth.Calendar StrongAuth.Store

/-- The field that the step needs is not there, and there is no code that could stand in for it. -/
def Attempt.lacksInput (a : Attempt) : Bool := !a.hasCode && a.incomplete.isSome

namespace Engine

section
variable {σ : Type} [Store σ] {now : Instant} {site : Site σ} {u : UpdateRequest}
  {a : Authorisation} {o : Outcome}

theorem update_result (c : Config) (addressed : Addressed site.store u a)
    (timely : a.isExpired now = false) (answered : (update c now site u).1 = .ok o) :
    (Attempt.of u a).Result c a.purpose (Secret.isGiven u.code) o := by
  rw [update_of_addressed c addressed timely] at answered
  split at answered
  · next m foreign =>
    obtain rfl := Except.ok.inj answered
    unfold Attempt.foreignPsu at foreign
    split at foreign
    · cases foreign
    · obtain rfl := Option.some.inj foreign
      exact Attempt.reject_result (Attempt.gives_business _ _)
  · obtain rfl := Except.ok.inj answered
    exact advance_result (.of u a) c a.purpose site

/-- An error comes with the stored status or with `failed`, and only a business error with another
status than the stored one. A success is one step ahead, or exempted at the first step, or finalised
by a code, or waits for one. The error is in the area of the authorisation, and none says that a move
is not in the table. Store and bank may answer anything. -/
theorem error_excludes_advance (c : Config) (now : Instant) (site : Site σ) (u : UpdateRequest)
    (o : Outcome) (answered : (update c now site u).1 = .ok o) :
    ∃ a, Addressed site.store u a ∧
      (∀ m, o.error = some m →
        (o.status = a.status ∨ o.status = .failed) ∧
        (o.status ≠ a.status → m.category = .business) ∧
        m.area = a.purpose.area ∧
        ∀ area current next, m ≠ .ofMove area current next) ∧
      (o.error = none →
        (Secret.isGiven u.code = false ∧ a.status.next? = some o.status) ∨
        (Secret.isGiven u.code = false ∧ a.status = .received ∧ o.status = .exempted) ∨
        (Secret.isGiven u.code = true ∧ a.purpose.needsCode c a.approach = true ∧
          (a.status = .methodSelected ∨ a.status = .started) ∧ o.status = .finalised) ∨
        (Secret.isGiven u.code = false ∧ a.purpose.needsCode c a.approach = true ∧
          a.status = .started ∧ o.status = .started)) := by
  obtain ⟨a, addressed, timely⟩ := addressed_of_answered answered
  have unmoved {m : TppMessage} (gives : (Attempt.of u a).Gives m) (area : Area)
      (current next : Sca.Status) : m ≠ .ofMove area current next := by
    intro same
    obtain ⟨fault, reason⟩ := gives.fault (congrArg TppMessage.category same)
    exact TppMessage.ofFault_ne_ofMove _ _ fault current next (reason.symm.trans same)
  have silent {P : Prop} {m : TppMessage} (success : o.error = none) (error : o.error = some m) :
      P := by
    rw [success] at error
    cases error
  refine ⟨a, addressed, ?_⟩
  have result := update_result c addressed timely answered
  generalize Secret.isGiven u.code = coded at result
  cases result with
  | @refused _ m _ _ gives =>
    refine ⟨?_, nofun⟩
    rintro m' ⟨⟩
    exact ⟨.inl rfl, fun moved => absurd rfl moved, gives.area, unmoved gives⟩
  | @failed _ m _ gives business live =>
    refine ⟨?_, nofun⟩
    rintro m' ⟨⟩
    exact ⟨.inr rfl, fun _ => business, gives.area, unmoved gives⟩
  | advanced success ahead =>
    exact ⟨fun _ error => silent success error, fun _ => .inl ⟨rfl, ahead⟩⟩
  | exempted success before after =>
    exact ⟨fun _ error => silent success error,
      fun _ => .inr (.inl ⟨rfl, before, after⟩)⟩
  | awaiting success needed before still =>
    exact ⟨fun _ error => silent success error,
      fun _ => .inr (.inr (.inr ⟨rfl, needed, before, still⟩))⟩
  | confirmed success needed before after =>
    exact ⟨fun _ error => silent success error,
      fun _ => .inr (.inr (.inl ⟨rfl, needed, before, after⟩))⟩

theorem locked_out_with_business_error :
    let site := run {} Samples.site (Samples.identified .initiation)
    let u := { UpdateRequest.toPurpose .initiation "payment" "auth1" with
      password := some ⟨"locked"⟩ }
    ∃ (o : Outcome) (a : Authorisation) (m : TppMessage),
      (update {} Samples.moment site u).1 = .ok o ∧ o.error = some m ∧
      Addressed site.store u a ∧ a.status = .psuIdentified ∧ o.status = .failed ∧
      m.category = .business ∧ m.area = a.purpose.area := by
  intro site u
  obtain ⟨o, answered, failed, m, error⟩ : ∃ o, (update {} Samples.moment site u).1 = .ok o ∧
      o.status = .failed ∧ ∃ m, o.error = some m := ⟨_, rfl, rfl, _, rfl⟩
  obtain ⟨a, addressed, errors, -⟩ := error_excludes_advance {} Samples.moment site u o answered
  obtain ⟨-, business, area, -⟩ := errors m error
  have before : a.status = .psuIdentified := by
    cases addressed.found
    rfl
  refine ⟨o, a, m, answered, error, addressed, before, failed, business ?_, area⟩
  rw [failed, before]
  decide

end

section
variable {now : Instant} {site : Site Backend} {u : UpdateRequest} {a : Authorisation}
  {o : Outcome} {m : TppMessage}

theorem due_of_invalid (c : Config) (addressed : Addressed site.store u a)
    (timely : a.isExpired now = false) (answered : (update c now site u).1 = .ok o)
    (error : o.error = some m) (invalid : m.category = .validation) :
    ((Attempt.of u a).lacksInput = true ∧ (update c now site u).2 = site) ∨
      ((Attempt.of u a).lacksInput = false ∧ (Attempt.of u a).isDue a = true) := by
  have offence {code : TppMessage.Code} {text : String}
      (same : o.error = some (.business (Attempt.of u a).area code text)) : False := by
    rw [error] at same
    obtain rfl := Option.some.inj same
    cases invalid
  rw [update_of_addressed c addressed timely] at answered ⊢
  cases owner : (Attempt.of u a).foreignPsu a with
  | some m' =>
    rw [owner] at answered
    unfold Attempt.foreignPsu at owner
    split at owner
    · cases owner
    · cases owner
      cases answered
      exact (offence rfl).elim
  | none =>
    rw [owner] at answered
    have answered := Except.ok.inj answered
    have live : (Attempt.of u a).status.isTerminal = false := by
      refine Bool.of_not_eq_true fun ended => ?_
      obtain ⟨code, text, refused⟩ := advance_terminal c site a.purpose ended
      rw [refused] at answered
      subst answered
      exact offence rfl
    cases coded : (Attempt.of u a).hasCode with
    | true =>
      exact .inr ⟨by simp [Attempt.lacksInput, coded], by simp [Attempt.isDue, live, owner, coded]⟩
    | false =>
      cases lacking : (Attempt.of u a).incomplete with
      | none =>
        exact .inr ⟨by simp [Attempt.lacksInput, lacking], by simp [Attempt.isDue, live, owner, lacking]⟩
      | some field =>
        refine .inl ⟨by simp [Attempt.lacksInput, coded, lacking], ?_⟩
        simp only [advance, coded, lacking, Bool.false_eq_true, if_false]

theorem updated_of_refusal (a : Authorisation) (u : UpdateRequest) (m : TppMessage)
    (methods : List Sca.Method) (parentStatus : Option Parent.Status) :
    a.updated u { (Attempt.of u a).reject m with methods, parentStatus } =
      { a with psu := (Attempt.of u a).psu, version := a.version + 1 } := by
  rw [← a.updated_psu u { (Attempt.of u a).reject m with methods, parentStatus }]
  rfl

theorem refusal_or_failure (c : Config) (addressed : Addressed site.store u a)
    (timely : a.isExpired now = false) (answered : (update c now site u).1 = .ok o)
    (error : o.error = some m) :
    (∃ methods parentStatus, o = { (Attempt.of u a).reject m with methods, parentStatus }) ∨
      o.status = .failed ∧ m.category = .business := by
  have result := update_result c addressed timely answered
  generalize Secret.isGiven u.code = coded at result
  cases result with
  | refused gives =>
    cases error
    exact .inl ⟨_, _, rfl⟩
  | failed gives business live =>
    cases error
    exact .inr ⟨rfl, business⟩
  | advanced success | exempted success | awaiting success | confirmed success =>
    rw [success] at error
    cases error

theorem refusal_of_invalid (c : Config) (addressed : Addressed site.store u a)
    (timely : a.isExpired now = false) (answered : (update c now site u).1 = .ok o)
    (error : o.error = some m) (invalid : m.category = .validation) :
    ∃ methods parentStatus, o = { (Attempt.of u a).reject m with methods, parentStatus } := by
  rcases refusal_or_failure c addressed timely answered error with refusal | ⟨-, business⟩
  · exact refusal
  · rw [business] at invalid
    cases invalid

/-- An error about the request leaves the store as it is exactly if the field was missing that the
step needs. Otherwise the refusal was written: the authorisation has a new version and belongs to
the PSU of the attempt. -/
theorem store_kept_of_invalid_iff (c : Config) (now : Instant) (site : Site Backend)
    (u : UpdateRequest) (o : Outcome) (m : TppMessage)
    (answered : (update c now site u).1 = .ok o) (error : o.error = some m)
    (invalid : m.category = .validation) :
    ∃ a, Addressed site.store u a ∧
      ((update c now site u).2.store = site.store ↔ (Attempt.of u a).lacksInput = true) ∧
      ((Attempt.of u a).lacksInput = false →
        Store.authorisation (update c now site u).2.store u.authorisationId =
          .ok (some { a with psu := (Attempt.of u a).psu, version := a.version + 1 })) := by
  obtain ⟨a, addressed, timely⟩ := addressed_of_answered answered
  refine ⟨a, addressed, ?_⟩
  rcases due_of_invalid c addressed timely answered error invalid with
    ⟨lacks, same⟩ | ⟨complete, due⟩
  · rw [lacks, same]
    exact ⟨iff_of_true rfl rfl, nofun⟩
  obtain ⟨methods, parentStatus, rfl⟩ :=
    refusal_of_invalid c addressed timely answered error invalid
  obtain ⟨o, answered', handled⟩ := update_handled c addressed timely
  obtain rfl := Except.ok.inj (answered.symm.trans answered')
  have written : Store.authorisation (update c now site u).2.store u.authorisationId =
      .ok (some { a with psu := (Attempt.of u a).psu, version := a.version + 1 }) := by
    rw [← updated_of_refusal a u m methods parentStatus, ← id_of_found addressed.found]
    generalize (update c now site u).2 = after at handled ⊢
    generalize (update c now (noted site) u).2.store.writes = writes at handled
    generalize reject : ({ (Attempt.of u a).reject m with methods, parentStatus } : Outcome) = o
      at handled
    cases handled with
    | idle idle =>
      rw [due] at idle
      cases idle
    | written _ lookup wrote =>
      exact (updateAuthorisation_found (found_after_lookup addressed lookup) wrote).1
    | refused _ lookup wrote =>
      have failed := congrArg Outcome.error reject
      cases failed
      cases invalid
  refine ⟨iff_of_false (fun same => ?_) ?_, fun _ => written⟩
  · rw [same, addressed.found] at written
    have version := congrArg Authorisation.version (Option.some.inj (Except.ok.inj written))
    change a.version = a.version + 1 at version
    omega
  · rw [complete]
    exact Bool.false_ne_true

theorem wrong_code_is_written :
    let c := Samples.coded true
    let site := run c Samples.site (Samples.selected .initiation)
    let u := { UpdateRequest.toPurpose .initiation "payment" "auth1" with code := some ⟨"1"⟩ }
    ∃ (o : Outcome) (m : TppMessage) (a : Authorisation),
      (update c Samples.moment site u).1 = .ok o ∧ o.error = some m ∧
      m.category = .validation ∧ m.code = .formatErrorScaStatus ∧ Addressed site.store u a ∧
      (update c Samples.moment site u).2.store ≠ site.store ∧
      Store.authorisation (update c Samples.moment site u).2.store u.authorisationId =
        .ok (some { a with psu := (Attempt.of u a).psu, version := a.version + 1 }) := by
  have told : (update (Samples.coded true) Samples.moment
      (run (Samples.coded true) Samples.site (Samples.selected .initiation))
      { UpdateRequest.toPurpose .initiation "payment" "auth1" with code := some ⟨"1"⟩ }).1.map
        (fun o => o.error.map fun m => (m.category, m.code)) =
      .ok (some (.validation, .formatErrorScaStatus)) := by rfl
  intro c site u
  obtain ⟨o, answered, told⟩ := Store.map_eq_ok told
  obtain ⟨m, error, told⟩ := Option.map_eq_some_iff.mp told
  obtain ⟨invalid, code⟩ := Prod.mk.inj told
  obtain ⟨a, addressed, kept, written⟩ :=
    store_kept_of_invalid_iff c Samples.moment site u o m answered error invalid
  have complete : (Attempt.of u a).lacksInput = false := rfl
  refine ⟨o, m, a, answered, error, invalid, code, addressed, fun same => ?_, written complete⟩
  rw [kept.mp same] at complete
  cases complete

theorem unnamed_update_is_written :
    let site := run {} Samples.site [Samples.anonymous .account "consent"]
    let u := { UpdateRequest.toPurpose .account "consent" "auth1" with
      password := some ⟨"secret"⟩ }
    ∃ (o : Outcome) (m : TppMessage) (a b : Authorisation),
      (update {} Samples.moment site u).1 = .ok o ∧ o.error = some m ∧
      m.category = .validation ∧ m.code = .formatError ∧
      Store.authorisation site.store "auth1" = .ok (some a) ∧
      Store.authorisation (update {} Samples.moment site u).2.store "auth1" = .ok (some b) ∧
      a.version = 0 ∧ b.version = 1 ∧ (update {} Samples.moment site u).2.store ≠ site.store := by
  intro site u
  refine ⟨_, _, _, _, rfl, rfl, rfl, rfl, rfl, rfl, rfl, rfl, fun same => ?_⟩
  have lookups := congrArg (fun s => (Store.authorisation s "auth1").map (·.map (·.version))) same
  cases lookups

end

end Engine

end StrongAuth
