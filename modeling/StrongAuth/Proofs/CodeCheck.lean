import StrongAuth.Proofs.Responses
import StrongAuth.Proofs.Retries
import StrongAuth.Proofs.Store.Acceptance

set_option autoImplicit false

namespace StrongAuth
open StrongAuth.Backend StrongAuth.Calendar StrongAuth.Store

theorem Secret.matchesCode_iff {a b : Secret} : a.matchesCode b = true ↔ a = b := by
  cases a
  cases b
  simp [matchesCode]

namespace Attempt

variable {σ : Type} [Store σ] {a : Attempt} {c : Config} {p : Purpose}

structure Concludes (a : Attempt) (c : Config) (p : Purpose) : Prop where
  used : p.needsCode c a.approach = true
  waiting : a.status = .methodSelected ∨ a.status = .started
  right : a.storedSecret = a.code

theorem Concludes.live (h : a.Concludes c p) : a.status.isTerminal = false := by
  rcases h.waiting with waiting | waiting <;> rw [waiting] <;> rfl

theorem confirmLocally_cases {code : Secret} (given : a.code = some code) :
    (a.storedSecret = a.code ∧ a.confirmLocally code = a.advance .finalised) ∨
      a.storedSecret ≠ a.code ∧ ∃ m, a.confirmLocally code = a.reject m := by
  rw [given]
  unfold confirmLocally
  cases a.storedSecret with
  | none => exact .inr ⟨nofun, _, rfl⟩
  | some secret =>
    dsimp only
    split
    · next same => exact .inl ⟨congrArg some (Secret.matchesCode_iff.mp same), rfl⟩
    · next other =>
      exact .inr ⟨fun same => other (Secret.matchesCode_iff.mpr (Option.some.inj same)), _, rfl⟩

theorem confirm_local_cases (coded : a.hasCode = true) (site : Site σ) :
    (a.Concludes c p ∧ a.confirm c p .local site = (a.advance .finalised, site)) ∨
      ¬a.Concludes c p ∧ ∃ m, a.confirm c p .local site = (a.reject m, site) := by
  obtain ⟨code, given, spoken⟩ := code_of_hasCode coded
  have present : a.givenCode = some code := by simp [givenCode, given, spoken]
  unfold confirm
  split
  · next ended =>
    refine .inr ⟨fun concludes => ?_, _, rfl⟩
    rw [concludes.live] at ended
    cases ended
  · split
    · next unused =>
      refine .inr ⟨fun concludes => ?_, _, rfl⟩
      rw [concludes.used] at unused
      cases unused
    · next used =>
      split
      · next early =>
        refine .inr ⟨fun concludes => ?_, _, rfl⟩
        rcases concludes.waiting with waiting | waiting <;> rw [waiting] at early <;> cases early
      · next selected =>
        have waiting : a.status = .methodSelected ∨ a.status = .started := by
          simpa only [Bool.not_eq_true', Bool.not_eq_false, Bool.or_eq_true, beq_iff_eq]
            using selected
        rw [present]
        rcases confirmLocally_cases given with ⟨right, answer⟩ | ⟨wrong, m, answer⟩
        · exact .inl ⟨⟨by simpa using used, waiting, right⟩, congrArg (·, site) answer⟩
        · exact .inr ⟨fun concludes => wrong concludes.right, m, congrArg (·, site) answer⟩

theorem foreignPsu_eq_none_iff {u : UpdateRequest} {stored : Authorisation} :
    (Attempt.of u stored).foreignPsu stored = none ↔
      stored.psu.isEmpty = true ∨ u.psu.isEmpty = true ∨ u.psu.isSame stored.psu = true := by
  have refused : (Attempt.of u stored).foreignPsu stored = none ↔
      (stored.psu.isEmpty || (Attempt.of u stored).psu.isSame stored.psu) = true := by
    unfold foreignPsu
    split <;> simp_all
  rw [refused, Bool.or_eq_true]
  cases nobody : u.psu.isEmpty with
  | true =>
    rw [Engine.attempt_of_unnamed nobody]
    cases owned : stored.psu.isEmpty with
    | true => simp
    | false => simp [Psu.isSame_self owned]
  | false =>
    rw [Engine.attempt_of_named nobody]
    simp

end Attempt

/-- What it takes for a code to be accepted: codes are used for this authorisation, it waits for
one, and its own PSU brings the stored secret. -/
structure Authorisation.Accepts (stored : Authorisation) (c : Config) (u : UpdateRequest) :
    Prop where
  mandated : c.confirmationMandated = true
  payment : stored.purpose.isPayment = true
  approach : stored.approach = .embedded ∨ stored.approach = .decoupled
  waiting : stored.status = .methodSelected ∨ stored.status = .started
  owner : (Attempt.of u stored).foreignPsu stored = none
  right : stored.secret = u.code

theorem Authorisation.accepts_iff {stored : Authorisation} {c : Config} {u : UpdateRequest} :
    stored.Accepts c u ↔ (Attempt.of u stored).foreignPsu stored = none ∧
      (Attempt.of u stored).Concludes c stored.purpose := by
  constructor
  · intro h
    have used := Purpose.needsCode_iff.mpr ⟨h.payment, h.mandated, h.approach⟩
    exact ⟨h.owner, used, h.waiting, h.right⟩
  · rintro ⟨owner, used, waiting, right⟩
    obtain ⟨payment, mandated, approach⟩ := Purpose.needsCode_iff.mp used
    exact ⟨mandated, payment, approach, waiting, owner, right⟩

theorem Authorisation.Accepts.live {stored : Authorisation} {c : Config} {u : UpdateRequest}
    (h : stored.Accepts c u) : stored.status.isTerminal = false :=
  (Authorisation.accepts_iff.mp h).2.live

theorem Addressed.own {b : Backend} {u : UpdateRequest} {stored : Authorisation}
    (h : Addressed b u stored) : Store.authorisation b stored.id = .ok (some stored) :=
  own_of_found h.found

/-- The store takes the update that grants an authorisation of this payment. -/
structure Backend.TakesGrant (b : Backend) (p : Purpose) (i : String) : Prop where
  updates : b.takesUpdates = true
  progress : p = .initiation → TellsProgress b i

/-- An update of the same authorisation with another code than the stored one. If nobody owns the
authorisation yet, it does not come from another PSU, who would own it then. -/
structure UpdateRequest.Mistypes (w u : UpdateRequest) (stored : Authorisation) : Prop where
  same : w.authorisationId = u.authorisationId
  given : Secret.isGiven w.code = true
  wrong : w.code ≠ stored.secret
  owner : stored.psu.isEmpty = true →
    w.psu.isEmpty = true ∨ u.psu.isEmpty = true ∨ u.psu.isSame w.psu = true

namespace Engine

variable {c : Config} {now : Instant} {site : Site Backend} {u w : UpdateRequest}
  {stored a : Authorisation}

theorem ofFlag_local (locally : c.checksCodesLocally = true) :
    CodeChecker.ofFlag c.checksCodesLocally = .local := by
  rw [locally]
  rfl

theorem advance_local {p : Purpose} {a : Attempt} (locally : c.checksCodesLocally = true)
    (coded : a.hasCode = true) (site : Site Backend) :
    (a.Concludes c p ∧ advance c site p a = record site p a (a.advance .finalised)) ∨
      ¬a.Concludes c p ∧ ∃ m, advance c site p a = record site p a (a.reject m) := by
  unfold advance
  rw [if_pos coded, ofFlag_local locally]
  rcases Attempt.confirm_local_cases (c := c) (p := p) coded site with
    ⟨concludes, answer⟩ | ⟨refused, m, answer⟩
  · exact .inl ⟨concludes, by rw [answer]⟩
  · exact .inr ⟨refused, m, by rw [answer]⟩

theorem record_reject (site : Site Backend) (p : Purpose) (a : Attempt) (m : TppMessage) :
    ∃ m', (record site p a (a.reject m)).1 = a.reject m' := by
  unfold record
  split
  · exact ⟨m, rfl⟩
  · split
    · exact ⟨m, rfl⟩
    · exact ⟨_, rfl⟩

theorem updateOf_isPlain (p : Purpose) {a : Attempt} {o : Outcome} (silent : o.parentStatus = none)
    (unchallenged : o.challenge = none) : (p.updateOf a o).IsPlain := by
  refine ⟨?_, unchallenged⟩
  rw [Purpose.updateOf, silent]
  rfl

theorem record_finalised (addressed : Addressed site.store u stored)
    (payment : stored.purpose.isPayment = true) (live : stored.status.isTerminal = false)
    (takes : site.store.TakesGrant stored.purpose stored.parentId) :
    (record site stored.purpose (.of u stored) ((Attempt.of u stored).advance .finalised)).1 =
      (Attempt.of u stored).advance .finalised := by
  obtain ⟨after, wrote⟩ := updateAuthorisation_of_payment takes.updates addressed.own live
    (updateOf_isPlain stored.purpose (a := .of u stored)
      (o := (Attempt.of u stored).advance .finalised) rfl rfl) payment takes.progress
  rw [record_of_ok live wrote]

theorem answer_to_code (locally : c.checksCodesLocally = true)
    (given : Secret.isGiven u.code = true) (addressed : Addressed site.store u stored)
    (timely : stored.isExpired now = false)
    (takes : stored.Accepts c u → site.store.TakesGrant stored.purpose stored.parentId) :
    (update c now site u).2.bank = site.bank ∧
      ((stored.Accepts c u ∧
          (update c now site u).1 = .ok ((Attempt.of u stored).advance .finalised)) ∨
        ¬stored.Accepts c u ∧
          ∃ m, (update c now site u).1 = .ok ((Attempt.of u stored).reject m)) := by
  rw [update_of_addressed c addressed timely]
  cases owner : (Attempt.of u stored).foreignPsu stored with
  | some m =>
    refine ⟨rfl, .inr ⟨fun accepts => ?_, m, rfl⟩⟩
    rw [accepts.owner] at owner
    cases owner
  | none =>
    rcases advance_local (p := stored.purpose) locally (a := .of u stored) given site with
      ⟨concludes, result⟩ | ⟨refused, m, result⟩
    · have accepts : stored.Accepts c u := Authorisation.accepts_iff.mpr ⟨owner, concludes⟩
      simp only [result]
      refine ⟨record_bank _ _ _ _, .inl ⟨accepts, congrArg Except.ok ?_⟩⟩
      exact record_finalised addressed accepts.payment concludes.live (takes accepts)
    · simp only [result]
      refine ⟨record_bank _ _ _ _, .inr ⟨fun accepts => ?_, ?_⟩⟩
      · exact refused (Authorisation.accepts_iff.mp accepts).2
      · obtain ⟨m', answer⟩ := record_reject site stored.purpose (.of u stored) m
        exact ⟨m', congrArg Except.ok answer⟩

/-- A code is all that is read of the payload. -/
theorem update_ignores (locally : c.checksCodesLocally = true)
    (given : Secret.isGiven u.code = true) (addressed : Addressed site.store u stored)
    (timely : stored.isExpired now = false) (password : Option Secret) (methodId : Option String)
    (data : Option Secret) :
    update c now site { u with password, methodId, data } = update c now site u := by
  have addressed' : Addressed site.store { u with password, methodId, data } stored :=
    ⟨addressed.purpose, addressed.found, addressed.parent⟩
  have attempted : advance c site stored.purpose
      (.of { u with password, methodId, data } stored) =
      advance c site stored.purpose (.of u stored) := by
    have coded : (Attempt.of u stored).hasCode = true := given
    have coded' : (Attempt.of { u with password, methodId, data } stored).hasCode = true := given
    unfold advance
    rw [if_pos coded, if_pos coded', ofFlag_local locally]
    rfl
  rw [update_of_addressed c addressed timely, update_of_addressed c addressed' timely, attempted]
  rfl

/-- The store holds an authorisation that this update finalises. -/
structure Awaits (c : Config) (b : Backend) (u : UpdateRequest) (stored : Authorisation) :
    Prop where
  addressed : Addressed b u stored
  accepts : stored.Accepts c u
  takes : b.TakesGrant stored.purpose stored.parentId

theorem owner_of_mistyped {b : Authorisation} (psu : b.psu = (Attempt.of w a).psu)
    (mine : (Attempt.of u a).foreignPsu a = none) (theirs : (Attempt.of w a).foreignPsu a = none)
    (wrong : w.Mistypes u a) : (Attempt.of u b).foreignPsu b = none := by
  rw [Attempt.foreignPsu_eq_none_iff] at mine theirs ⊢
  rw [psu]
  cases nobody : w.psu.isEmpty with
  | true =>
    rw [attempt_of_unnamed nobody]
    exact mine
  | false =>
    rw [attempt_of_named nobody]
    rw [nobody] at theirs
    rcases theirs with anonymous | unnamed | same
    · rcases wrong.owner anonymous with unnamed | compatible
      · rw [nobody] at unnamed
        cases unnamed
      · exact .inr compatible
    · cases unnamed
    · rcases mine with anonymous | unnamed | mine
      · rw [Psu.given_of_isSame same] at anonymous
        cases anonymous
      · exact .inr (.inl unnamed)
      · rw [Psu.isSame_comm] at same
        exact .inr (.inr (Psu.isSame_trans mine same))

theorem mistypes_of_mistyped {b : Authorisation} (psu : b.psu = (Attempt.of w a).psu)
    (secret : b.secret = a.secret) {v : UpdateRequest} (wrong : v.Mistypes u a) :
    v.Mistypes u b := by
  refine ⟨wrong.same, wrong.given, secret ▸ wrong.wrong, fun anonymous => wrong.owner ?_⟩
  rw [psu] at anonymous
  cases nobody : w.psu.isEmpty with
  | true =>
    rw [attempt_of_unnamed nobody] at anonymous
    exact anonymous
  | false =>
    rw [attempt_of_named nobody, nobody] at anonymous
    cases anonymous

/-- After a refusal was written, the authorisation awaits the right code as before. -/
theorem awaits_of_refusal (h : Awaits c site.store u a) (wrong : w.Mistypes u a)
    (owner : (Attempt.of w a).foreignPsu a = none) (m : TppMessage) :
    ∃ b, Store.updateAuthorisation site.store a.id a.version
        (a.purpose.updateOf (.of w a) ((Attempt.of w a).reject m)) =
          (.ok (a.updated w ((Attempt.of w a).reject m)), b) ∧
      Awaits c b u (a.updated w ((Attempt.of w a).reject m)) := by
  have found := h.addressed.own
  have plain : (a.purpose.updateOf (.of w a) ((Attempt.of w a).reject m)).IsPlain :=
    updateOf_isPlain a.purpose rfl rfl
  have live := h.accepts.live
  obtain ⟨b, wrote, applied⟩ := updateAuthorisation_pending h.takes.updates found live plain
    (Sca.Status.not_isGranted_of_live live)
  have there := (updateAuthorisation_found found wrote).1
  rw [id_of_found h.addressed.found] at there
  have psu := a.updated_psu w ((Attempt.of w a).reject m)
  refine ⟨b, wrote, ⟨h.addressed.purpose, there, h.addressed.parent⟩, ?_, ?_⟩
  · exact { h.accepts with owner := owner_of_mistyped psu h.accepts.owner owner wrong }
  · exact ⟨applied.takesUpdates.trans h.takes.updates,
      fun initiates => applied.tellsProgress plain (h.takes.progress initiates)⟩

theorem awaits_of_mistyped (locally : c.checksCodesLocally = true) (h : Awaits c site.store u a)
    (wrong : w.Mistypes u a) (now : Instant) :
    ∃ b, Awaits c (update c now site w).2.store u b ∧ b.expiresAt = a.expiresAt ∧
      ∀ v : UpdateRequest, v.Mistypes u a → v.Mistypes u b := by
  by_cases served : ∃ stored, Addressed site.store w stored ∧ stored.isExpired now = false
  · obtain ⟨stored, addressed, timely⟩ := served
    have found := h.addressed.found
    rw [← wrong.same, addressed.found] at found
    obtain rfl : stored = a := Option.some.inj (Except.ok.inj found)
    rw [update_of_addressed c addressed timely]
    cases owner : (Attempt.of w stored).foreignPsu stored with
    | some m => exact ⟨stored, h, rfl, fun v => id⟩
    | none =>
      rcases advance_local (p := stored.purpose) locally (a := .of w stored) wrong.given site with
        ⟨concludes, -⟩ | ⟨-, m, result⟩
      · exact absurd concludes.right.symm wrong.wrong
      · obtain ⟨b, wrote, awaits⟩ := awaits_of_refusal h wrong owner m
        refine ⟨stored.updated w ((Attempt.of w stored).reject m), ?_, rfl, fun v => ?_⟩
        · simp only [result, record_of_ok (a := .of w stored) h.accepts.live wrote]
          exact awaits
        · exact mistypes_of_mistyped (stored.updated_psu w _) rfl
  · have late : ∀ stored, Addressed site.store w stored → stored.isExpired now = true :=
      fun stored addressed => Bool.of_not_eq_false fun timely => served ⟨stored, addressed, timely⟩
    obtain ⟨e, refused⟩ := update_unaddressed c late
    rw [refused]
    exact ⟨a, h, rfl, fun v => id⟩

theorem awaits_of_run (locally : c.checksCodesLocally = true) (ws : List (Instant × UpdateRequest))
    (h : Awaits c site.store u a) (wrong : ∀ w ∈ ws, w.2.Mistypes u a) :
    ∃ b, Awaits c (run c site (ws.map fun w => .update w.1 w.2)).store u b ∧
      b.expiresAt = a.expiresAt := by
  -- From the front: after one wrong code the others are still wrong ones.
  induction ws generalizing site a with
  | nil => exact ⟨a, h, rfl⟩
  | cons w ws ih =>
    obtain ⟨b, awaits, expires, still⟩ :=
      awaits_of_mistyped locally h (wrong w List.mem_cons_self) w.1
    have others : ∀ v ∈ ws, v.2.Mistypes u b :=
      fun v later => still v.2 (wrong v (List.mem_cons_of_mem w later))
    obtain ⟨d, last, expires'⟩ := ih awaits others
    exact ⟨d, last, expires'.trans expires⟩

/-- A code for an authorisation that is found in time is answered, and the bank hears nothing of it.
The answer is finalised and without an error exactly if the code is accepted, and has the old status
and an error otherwise, and its status is stored. The rest of the payload makes no difference. What
is accepted is accepted just as well after any number of wrong codes. All that is asked of the store
is to take the grant, if the code is accepted. -/
theorem local_code_check (c : Config) (locally : c.checksCodesLocally = true) (now : Instant)
    (site : Site Backend) (u : UpdateRequest) (given : Secret.isGiven u.code = true)
    (stored : Authorisation) (addressed : Addressed site.store u stored)
    (timely : stored.isExpired now = false)
    (takes : stored.Accepts c u → site.store.TakesGrant stored.purpose stored.parentId) :
    ∃ o, (update c now site u).1 = .ok o ∧
      (o.status = .finalised ∧ o.error = none ↔ stored.Accepts c u) ∧
      (¬stored.Accepts c u → o.status = stored.status ∧ o.error.isSome = true) ∧
      (∃ after, Store.authorisation (update c now site u).2.store u.authorisationId =
        .ok (some after) ∧ after.status = o.status) ∧
      (update c now site u).2.bank = site.bank ∧
      (∀ password methodId data,
        update c now site { u with password, methodId, data } = update c now site u) ∧
      (stored.Accepts c u → ∀ ws : List (Instant × UpdateRequest),
        (∀ w ∈ ws, w.2.Mistypes u stored) →
        ∃ o, (update c now (run c site (ws.map fun w => .update w.1 w.2)) u).1 = .ok o ∧
          o.status = .finalised ∧ o.error = none) := by
  obtain ⟨silent, answer⟩ := answer_to_code locally given addressed timely takes
  obtain ⟨o, answered, handled⟩ := update_handled c addressed timely
  obtain ⟨after, there, status, -⟩ := handled.resolved addressed
  rw [id_of_found addressed.found] at there
  have ignores := update_ignores locally given addressed timely
  refine ⟨o, answered, ?_, ?_, ⟨after, there, status⟩, silent, ignores, fun accepts ws wrong => ?_⟩
  · rcases answer with ⟨accepts, finalised⟩ | ⟨refused, m, rejected⟩
    · obtain rfl := Except.ok.inj (answered.symm.trans finalised)
      exact ⟨fun _ => accepts, fun _ => ⟨rfl, rfl⟩⟩
    · obtain rfl := Except.ok.inj (answered.symm.trans rejected)
      exact ⟨fun ends => (nomatch ends.2), fun accepts => absurd accepts refused⟩
  · intro refused
    rcases answer with ⟨accepts, -⟩ | ⟨-, m, rejected⟩
    · exact absurd accepts refused
    · obtain rfl := Except.ok.inj (answered.symm.trans rejected)
      exact ⟨rfl, rfl⟩
  · obtain ⟨b, awaits, expires⟩ :=
      awaits_of_run locally ws ⟨addressed, accepts, takes accepts⟩ wrong
    have timely : b.isExpired now = false := by
      rw [Authorisation.isExpired, expires]
      exact timely
    rcases (answer_to_code locally given awaits.addressed timely fun _ => awaits.takes).2 with
      ⟨-, finalised⟩ | ⟨refused, -⟩
    · exact ⟨_, finalised, rfl, rfl⟩
    · exact absurd awaits.accepts refused

theorem code_accepted_after_mistyped_ones :
    let c := Samples.coded true
    let site := run c Samples.site (Samples.started .initiation)
    let u := { UpdateRequest.toPurpose .initiation "payment" "auth1" with
      code := some ⟨"123456"⟩ }
    let w := { u with code := some ⟨"123465"⟩, password := some ⟨"secret"⟩ }
    ∃ stored o, (c.checksCodesLocally = true ∧ Secret.isGiven u.code = true ∧
        Addressed site.store u stored ∧ stored.isExpired Samples.moment = false ∧
        site.store.TakesGrant stored.purpose stored.parentId ∧ stored.Accepts c u ∧
        w.Mistypes u stored) ∧
      (update c Samples.moment
        (run c site [.update Samples.moment w, .update Samples.moment w]) u).1 = .ok o ∧
      o.status = .finalised ∧ o.error = none := by
  obtain ⟨stored, found, purpose, parent, approach, status, secret, timely⟩ : ∃ stored,
      Store.authorisation (run (Samples.coded true) Samples.site
        (Samples.started .initiation)).store "auth1" = .ok (some stored) ∧
      stored.purpose = .initiation ∧ stored.parentId = "payment" ∧ stored.approach = .embedded ∧
      stored.status = .started ∧ stored.secret = some ⟨"123456"⟩ ∧
      stored.isExpired Samples.moment = false := ⟨_, rfl, rfl, rfl, rfl, rfl, rfl, rfl⟩
  have takes : (run (Samples.coded true) Samples.site
      (Samples.started .initiation)).store.TakesGrant .initiation "payment" :=
    ⟨rfl, fun _ => ⟨_, rfl, fun _ => rfl⟩⟩
  intro c site u w
  have addressed : Addressed site.store u stored := ⟨by rw [purpose]; rfl, found, parent⟩
  have accepts : stored.Accepts c u := by
    refine ⟨rfl, by rw [purpose]; rfl, .inl approach, .inr status, ?_, secret⟩
    exact Attempt.foreignPsu_eq_none_iff.mpr (.inr (.inl rfl))
  have wrong : w.Mistypes u stored := by
    refine ⟨rfl, rfl, ?_, fun _ => .inl rfl⟩
    rw [secret]
    decide
  have takes : site.store.TakesGrant stored.purpose stored.parentId := by
    rw [purpose, parent]
    exact takes
  obtain ⟨-, -, -, -, -, -, -, again⟩ := local_code_check c rfl Samples.moment site u rfl stored
    addressed timely fun _ => takes
  obtain ⟨o, answered, finalised, plain⟩ :=
    again accepts [(Samples.moment, w), (Samples.moment, w)] (by simpa using wrong)
  exact ⟨stored, o, ⟨rfl, rfl, addressed, timely, takes, accepts, wrong⟩, answered, finalised,
    plain⟩

end Engine

end StrongAuth
