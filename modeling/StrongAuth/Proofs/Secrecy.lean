import StrongAuth.Proofs.Judgement

set_option autoImplicit false

namespace StrongAuth
open StrongAuth.Calendar

/-- The deployment checks codes itself, and the one of this update is not the stored secret. -/
structure UpdateRequest.FailsLocalCheck (u : UpdateRequest) (c : Config) (s : Backend) : Prop where
  locally : c.checksCodesLocally = true
  given : Secret.isGiven u.code = true
  wrong : ∀ stored, Store.authorisation s u.authorisationId = .ok (some stored) →
    stored.secret ≠ u.code

/-- The same update with secrets that are judged alike at this site. -/
inductive UpdateRequest.JudgedAlike (u : UpdateRequest) (c : Config) (site : Site Backend) :
    UpdateRequest → Prop where
  | intro {password data code : Option Secret}
      (admitted : site.bank.verdictOnPassword password = site.bank.verdictOnPassword u.password)
      (verified : data = u.data ∨ site.bank.verdictOnData data = site.bank.verdictOnData u.data ∧
        site.bank.verdictOnData data ≠ some (.ok .success))
      (coded : code = u.code ∨ u.FailsLocalCheck c site.store ∧
        UpdateRequest.FailsLocalCheck { u with code } c site.store) :
      u.JudgedAlike c site { u with password, data, code }

namespace UpdateRequest.JudgedAlike

variable {c : Config} {site : Site Backend} {u v : UpdateRequest} {stored : Authorisation}

theorem refl (u : UpdateRequest) : u.JudgedAlike c site u := .intro rfl (.inl rfl) (.inl rfl)

theorem same {α : Type} (h : u.JudgedAlike c site v) (view : UpdateRequest → α)
    (blind : ∀ password data code, view { u with password, data, code } = view u) :
    view v = view u := by
  cases h
  exact blind _ _ _

theorem attempt (h : u.JudgedAlike c site v)
    (found : Store.authorisation site.store u.authorisationId = .ok (some stored)) :
    (Attempt.of u stored).JudgedAlike c site.bank (.of v stored) := by
  cases h with
  | intro admitted verified coded =>
    refine .intro admitted verified (coded.imp_right fun fails => ?_)
    obtain ⟨wrong, wrong'⟩ := fails
    exact ⟨⟨wrong.locally, wrong.given, wrong.wrong stored found⟩,
      ⟨wrong'.locally, wrong'.given, wrong'.wrong stored found⟩⟩

end UpdateRequest.JudgedAlike

namespace Engine

variable {c : Config} {site site' : Site Backend} {u v : UpdateRequest}

theorem update_judged (now : Instant) (h : u.JudgedAlike c site v) (sites : site.Alike Eq site') :
    ResultAlike Eq (update c now site u) (update c now site' v) := by
  have address : v.address = u.address := h.same UpdateRequest.address fun _ _ _ => rfl
  have fits (purpose : Purpose) : findFor site'.store purpose v = findFor site.store purpose u := by
    rw [← sites.store]
    exact h.same (findFor site.store purpose) fun _ _ _ => rfl
  unfold update
  rw [address]
  cases resolve u.address with
  | error e => exact ⟨rfl, sites⟩
  | ok purpose =>
    dsimp only
    rw [fits]
    cases found : findFor site.store purpose u with
    | error e => exact ⟨rfl, sites⟩
    | ok stored =>
      have judged := h.attempt (findFor_eq_ok_iff.mp found).1
      have late : (Attempt.of v stored).isExpired now = (Attempt.of u stored).isExpired now :=
        judged.same (·.isExpired now) fun _ _ _ => rfl
      have owner : (Attempt.of v stored).foreignPsu stored = (Attempt.of u stored).foreignPsu stored :=
        judged.same (·.foreignPsu stored) fun _ _ _ => rfl
      have rejected (m : TppMessage) : (Attempt.of v stored).reject m = (Attempt.of u stored).reject m :=
        judged.same (·.reject m) fun _ _ _ => rfl
      dsimp only
      rw [late, owner]
      split
      · exact ⟨rfl, sites⟩
      · split
        · exact ⟨congrArg Except.ok (rejected _), sites⟩
        · exact (advance_judged judged sites).elim fun o s t sites => ⟨rfl, sites⟩

/-- Two updates that differ in their passwords alone, on which the bank gives the same verdict, get
the same answer and leave the same store. So do two that differ in the answer to a challenge, if the
bank gives the same verdict on them and does not accept them, and two that differ in a code and
both fail the check of the deployment. Nor can the bank be told apart afterwards, except by what it
was told. A blank secret counts as absent, so there is no verdict on it. -/
theorem secrets_leave_no_trace (c : Config) (now : Instant) (site : Site Backend)
    (u : UpdateRequest) :
    (∀ password, site.bank.verdictOnPassword password = site.bank.verdictOnPassword u.password →
      ResultAlike Eq (update c now site u) (update c now site { u with password })) ∧
    (∀ data, site.bank.verdictOnData data = site.bank.verdictOnData u.data →
      site.bank.verdictOnData data ≠ some (.ok .success) →
      ResultAlike Eq (update c now site u) (update c now site { u with data })) ∧
    (∀ code, u.FailsLocalCheck c site.store →
      UpdateRequest.FailsLocalCheck { u with code } c site.store →
      ResultAlike Eq (update c now site u) (update c now site { u with code })) := by
  have sites : site.Alike Eq site := ⟨rfl, rfl, .refl _⟩
  refine ⟨fun password same => ?_, fun data same refused => ?_, fun code wrong wrong' => ?_⟩
  · exact update_judged now (.intro same (.inl rfl) (.inl rfl)) sites
  · exact update_judged now (.intro rfl (.inr ⟨same, refused⟩) (.inl rfl)) sites
  · exact update_judged now (.intro rfl (.inl rfl) (.inr ⟨wrong, wrong'⟩)) sites

theorem wrong_secrets_leave_no_trace :
    let c := Samples.coded true
    let identified := run {} Samples.site (Samples.identified .initiation)
    let selected := run {} Samples.site (Samples.selected .initiation)
    let started := run c Samples.site (Samples.started .initiation)
    let typed (s : String) : Option Secret := some ⟨s⟩
    let u := UpdateRequest.toPurpose .initiation "payment" "auth1"
    let coded (s : String) := { u with code := typed s }
    ((identified.bank.verdictOnPassword (typed "guess") = some (.ok .attemptFailure) ∧
        identified.bank.verdictOnPassword (typed "wrong") = some (.ok .attemptFailure)) ∧
      ResultAlike Eq (update {} Samples.moment identified { u with password := typed "wrong" })
        (update {} Samples.moment identified { u with password := typed "guess" })) ∧
    ((selected.bank.verdictOnData (typed "654321") = some (.ok .attemptFailure) ∧
        selected.bank.verdictOnData (typed "111111") = some (.ok .attemptFailure)) ∧
      ResultAlike Eq (update {} Samples.moment selected { u with data := typed "111111" })
        (update {} Samples.moment selected { u with data := typed "654321" })) ∧
    ((coded "111111").FailsLocalCheck c started.store ∧
        (coded "654321").FailsLocalCheck c started.store) ∧
      ResultAlike Eq (update c Samples.moment started (coded "111111"))
        (update c Samples.moment started (coded "654321")) := by
  obtain ⟨a, there, secret⟩ : ∃ a, Store.authorisation (run (Samples.coded true) Samples.site
      (Samples.started .initiation)).store "auth1" = .ok (some a) ∧
      a.secret = some ⟨"123456"⟩ := ⟨_, rfl, rfl⟩
  intro c identified selected started typed u coded
  have fails (s : String) (given : Secret.isGiven (typed s) = true)
      (other : some ⟨"123456"⟩ ≠ typed s) : (coded s).FailsLocalCheck c started.store := by
    refine ⟨rfl, given, fun stored found => ?_⟩
    obtain rfl := Option.some.inj (Except.ok.inj (there.symm.trans found))
    rw [secret]
    exact other
  have first := fails "111111" rfl (by decide)
  have second := fails "654321" rfl (by decide)
  have guess : identified.bank.verdictOnPassword (typed "guess") = some (.ok .attemptFailure) := rfl
  have wrong : identified.bank.verdictOnPassword (typed "wrong") = some (.ok .attemptFailure) := rfl
  have low : selected.bank.verdictOnData (typed "111111") = some (.ok .attemptFailure) := rfl
  have high : selected.bank.verdictOnData (typed "654321") = some (.ok .attemptFailure) := rfl
  have refused : selected.bank.verdictOnData (typed "654321") ≠ some (.ok .success) := by
    rw [high]
    nofun
  refine ⟨⟨⟨guess, wrong⟩, ?_⟩, ⟨⟨high, low⟩, ?_⟩, ⟨first, second⟩, ?_⟩
  · exact (secrets_leave_no_trace {} Samples.moment identified
      { u with password := typed "wrong" }).1 (typed "guess") (guess.trans wrong.symm)
  · exact (secrets_leave_no_trace {} Samples.moment selected
      { u with data := typed "111111" }).2.1 (typed "654321") (high.trans low.symm) refused
  · exact (secrets_leave_no_trace c Samples.moment started (coded "111111")).2.2 (typed "654321")
      first second

/-- An answer that is accepted is stored, so two of them can be told apart. -/
example :
    let site := run {} Samples.site
      (Samples.selected .initiation ++ [.bank {} { verification := [.ok .success] }])
    let u := UpdateRequest.toPurpose .initiation "payment" "auth1"
    let secretAfter (data : String) :=
      (Store.authorisation (update {} Samples.moment site { u with data := some ⟨data⟩ }).2.store
        "auth1").map (·.map (·.secret))
    secretAfter "1" = .ok (some (some ⟨"1"⟩)) ∧ secretAfter "2" = .ok (some (some ⟨"2"⟩)) :=
  ⟨rfl, rfl⟩

end Engine

/-- The same event, or an update whose secrets are judged alike at this site. -/
inductive Event.JudgedAlike (c : Config) (site : Site Backend) : Event → Event → Prop where
  | same (e : Event) : JudgedAlike c site e e
  | update (now : Instant) {u v : UpdateRequest} (judged : u.JudgedAlike c site v) :
      JudgedAlike c site (.update now u) (.update now v)

/-- Runs whose secrets are judged alike, each at the site that the first run has reached by then. -/
inductive RunsAlike (c : Config) : Site Backend → List Event → List Event → Prop where
  | nil {site : Site Backend} : RunsAlike c site [] []
  | cons {site : Site Backend} {e e' : Event} {events events' : List Event}
      (judged : e.JudgedAlike c site e') (later : RunsAlike c (Engine.next c site e) events events') :
      RunsAlike c site (e :: events) (e' :: events')

namespace Engine

variable {c : Config} {site site' : Site Backend} {e e' : Event} {events events' : List Event}

def answers (turns : List Turn) : List (Except EngineError Outcome) := turns.map (·.answer)

theorem next_judged (h : e.JudgedAlike c site e') (sites : site.Alike Eq site') :
    (next c site e).Alike Eq (next c site' e') ∧
      answers (turnsOf c site' e') = answers (turnsOf c site e) := by
  cases h with
  | update now judged =>
    obtain ⟨answer, after⟩ := update_judged now judged sites
    exact ⟨after, congrArg (fun o => [o]) answer⟩
  | same =>
    cases e with
    | update now u =>
      obtain ⟨answer, after⟩ := update_judged now (.refl u) sites
      exact ⟨after, congrArg (fun o => [o]) answer⟩
    | bank desk script => exact ⟨⟨sites.store, rfl, .refl desk⟩, rfl⟩
    | start now r => exact ⟨⟨congrArg (storeAfterStart c now · r) sites.store, sites.bank⟩, rfl⟩
    | addConsent d =>
      exact ⟨⟨congrArg (fun s => (Store.insertConsent s d).2) sites.store, sites.bank⟩, rfl⟩
    | addPayment p =>
      exact ⟨⟨congrArg (fun s => (Store.insertPayment s p).2) sites.store, sites.bank⟩, rfl⟩
    | failure change => exact ⟨⟨congrArg (Backend.suffer change) sites.store, sites.bank⟩, rfl⟩

/-- Neither the store nor any answer tells of the secrets of a run more than how they were judged. -/
theorem run_judged (h : RunsAlike c site events events') (sites : site.Alike Eq site') :
    (run c site events).Alike Eq (run c site' events') ∧
      answers (turns c site' events') = answers (turns c site events) := by
  induction h generalizing site' with
  | nil => exact ⟨sites, rfl⟩
  | cons judged later ih =>
    obtain ⟨after, first⟩ := next_judged judged sites
    obtain ⟨last, others⟩ := ih after
    refine ⟨last, ?_⟩
    simp only [answers, turns, List.map_append] at first others ⊢
    rw [first, others]

end Engine

end StrongAuth
