import StrongAuth.Proofs.Engine.Lookup
import StrongAuth.Proofs.Engine.Writes
import StrongAuth.Proofs.Progress
import StrongAuth.Samples

set_option autoImplicit false

namespace StrongAuth
open StrongAuth.Calendar StrongAuth.Store StrongAuth.Backend

namespace Calendar.Instant

def lastPlainSecond : Int := 253402300799

/-- An instant in the covered years up to 9999. -/
def isPlain (t : Instant) : Bool :=
  decide (firstSecond ≤ t.seconds) && decide (t.seconds ≤ lastPlainSecond)

theorem after?_of_isPlain {t : Instant} {l : Lifetime} (plain : (t.plus l).isPlain = true) :
    t.after? l = some (t.plus l) := by
  simp only [isPlain, Bool.and_eq_true, decide_eq_true_eq] at plain
  have covered : (t.plus l).isCovered = true := by
    have within : lastPlainSecond ≤ lastSecond := by decide
    simp only [isCovered, Bool.and_eq_true, decide_eq_true_eq]
    exact ⟨plain.1, Int.le_trans plain.2 within⟩
  exact if_pos covered

example : (ofText? "9999-12-31T23:59:59Z").map (·.seconds) = some lastPlainSecond := by
  decide +kernel

end Calendar.Instant

theorem Address.purpose?_eq_some_iff {address : Address} {p : Purpose} :
    address.purpose? = some p ↔ address = .ofPurpose p := by
  constructor
  · intro served
    obtain ⟨service, step⟩ := address
    cases service <;> rcases step with _ | _ | _ <;> cases served <;> rfl
  · rintro rfl
    exact purpose?_ofPurpose p

/-- The approach that a request asks for: the one that it names, or the default if it names none. -/
inductive Config.Wants (c : Config) : Option String → Sca.Approach → Prop where
  | default {requested : Option String} (silent : Text.isGiven requested = false) :
      Wants c requested c.defaultApproach
  | named {text : String} {approach : Sca.Approach} (spoken : Text.isBlank text = false)
      (known : Keyword.read text = .ok approach) : Wants c (some text) approach

structure Config.Suits (c : Config) (p : Purpose) (requested : Option String)
    (approach : Sca.Approach) : Prop where
  wants : c.Wants requested approach
  payments : p.isPayment = true → approach ≠ .oauth

/-- An authorisation of this parent and purpose was granted. -/
def Backend.IsGranted (b : Backend) (p : Purpose) (i : String) : Prop :=
  ∃ a ∈ b.records, a.parentId = i ∧ a.purpose = p ∧ a.status.isGranted = true

namespace Config

variable {c : Config} {p : Purpose} {requested : Option String} {approach : Sca.Approach}

theorem Wants.forAccount (h : c.Wants requested approach) :
    (Engine.approaches c).forAccount requested = .ok approach := by
  unfold ApproachChoice.forAccount
  cases h with
  | default silent =>
    have unasked : (requested.filter fun text => !Text.isBlank text) = none := by
      cases requested with
      | none => rfl
      | some text => simpa [Text.isGiven] using silent
    rw [unasked]
    rfl
  | named spoken known => simp only [Option.filter_some, spoken, Bool.not_false, if_true, known]

theorem Suits.forPurpose (h : c.Suits p requested approach) :
    (Engine.approaches c).forPurpose p requested = .ok approach := by
  unfold ApproachChoice.forPurpose ApproachChoice.forPayment
  rw [h.wants.forAccount]
  cases sort : p.isPayment with
  | false => rfl
  | true =>
    have suits : approach.suitsPayments = true := by
      cases approach <;> first
        | rfl
        | exact absurd rfl (h.payments sort)
    simp [suits]

end Config

namespace Engine

variable {c : Config} {now : Instant} {b : Backend} {r : StartRequest}

/-- All conditions of a start. -/
structure Startable (c : Config) (b : Backend) (r : StartRequest) (p : Purpose)
    (approach : Sca.Approach) : Prop where
  served : r.address = .ofPurpose p
  suited : c.Suits p r.approach approach
  spelt : b.Spells p r.parentId
  active : ∃ m, b.summary? p r.parentId = some m ∧ m.status.isTerminal = false ∧
    (m.multilevel = false → ¬b.IsGranted p r.parentId)

/-- The first condition of a start that fails, with the error that it gives. -/
inductive Unstartable (c : Config) (b : Backend) (r : StartRequest) : EngineError → Prop where
  | unserved (unserved : ∀ p, r.address ≠ .ofPurpose p) :
      Unstartable c b r
        (.configuration s!"No processor service is registered for {r.address.text}")
  | unknown {p : Purpose} {text : String} {word : UnknownWord} (served : r.address = .ofPurpose p)
      (named : r.approach = some text) (spoken : Text.isBlank text = false)
      (unknown : (Keyword.read text : Except UnknownWord Sca.Approach) = .error word) :
      Unstartable c b r (.unsupported word.message)
  | unsuited {p : Purpose} (served : r.address = .ofPurpose p) (payment : p.isPayment = true)
      (wanted : c.Wants r.approach .oauth) :
      Unstartable c b r (.unsupported "OAUTH is not supported for payments")
  | unspelt {approach : Sca.Approach} {q : Payment} {cause : PayloadError}
      (served : r.address = .ofPurpose .cancellation)
      (suited : c.Suits .cancellation r.approach approach)
      (there : Store.payment b r.parentId = .ok (some q)) (unspelt : q.orderOf = .error cause) :
      Unstartable c b r (.store (.corrupt cause.message))
  | inactive {p : Purpose} {approach : Sca.Approach} (served : r.address = .ofPurpose p)
      (suited : c.Suits p r.approach approach) (spelt : b.Spells p r.parentId)
      (inactive : ∀ m, b.summary? p r.parentId = some m → m.status.isTerminal = true) :
      Unstartable c b r (.noActiveParent r.parentId)
  | authorised {p : Purpose} {approach : Sca.Approach} {m : Parent.Summary}
      (served : r.address = .ofPurpose p) (suited : c.Suits p r.approach approach)
      (spelt : b.Spells p r.parentId) (there : b.summary? p r.parentId = some m)
      (active : m.status.isTerminal = false)
      (single : m.multilevel = false) (granted : b.IsGranted p r.parentId) :
      Unstartable c b r (.alreadyAuthorised r.parentId)

theorem complete_iff_isGranted {p : Purpose} {i : String} {parent : Parent} (same : parent.id = i)
    (single : parent.multilevel = false) :
    parent.progress (b.siblings i p) = .complete ↔ b.IsGranted p i := by
  rw [Parent.progress_eq_complete_iff, single]
  constructor
  · rintro ⟨some, -⟩
    obtain ⟨a, ha⟩ := List.exists_mem_of_ne_nil _ some
    obtain ⟨sibling, -, granted⟩ := Parent.mem_granted.mp ha
    obtain ⟨there, own⟩ := List.mem_filter.mp sibling
    simp only [isSibling, Bool.and_eq_true, beq_iff_eq] at own
    exact ⟨a, there, own.1, own.2, granted⟩
  · rintro ⟨a, there, child, purpose, granted⟩
    have sibling : a ∈ b.siblings i p :=
      List.mem_filter.mpr ⟨there, by simp [isSibling, child, purpose]⟩
    have member := Parent.mem_granted.mpr ⟨sibling, child.trans same.symm, granted⟩
    exact ⟨List.ne_nil_of_mem member, fun several => absurd several Bool.false_ne_true⟩

theorem isAuthorised_iff {p : Purpose} {i : String} {parent : Parent} (same : parent.id = i)
    (reads : parent.multilevel = false → (Store.authorisationsOf b i p).isOk = true) :
    ∃ x, isAuthorised b p parent i = .ok x ∧
      (x = true ↔ parent.multilevel = false ∧ b.IsGranted p i) := by
  unfold isAuthorised
  cases single : parent.multilevel with
  | true => exact ⟨false, rfl, by simp⟩
  | false =>
    obtain ⟨l, read⟩ := exists_of_isOk (reads single)
    refine ⟨decide (parent.progress l = .complete), by rw [read]; rfl, ?_⟩
    rw [decide_eq_true_eq, Parent.progress_perm (authorisationsOf_ok read),
      complete_iff_isGranted same single]
    exact (and_iff_right rfl).symm

theorem resolve_of_served {p : Purpose} (served : r.address = .ofPurpose p) :
    resolve r.address = .ok p :=
  resolve_eq_ok_iff.mpr (Address.purpose?_eq_some_iff.mpr served)

/-- What the store is like after a start that added nothing. -/
def Unopened (b : Backend) (r : StartRequest) (after : Backend) : Prop :=
  after = b ∨ ∃ p, r.address = .ofPurpose p ∧ Looked p r.parentId b after

theorem start_of_active {p : Purpose} {approach : Sca.Approach} {m : Parent.Summary}
    (now : Instant) (serves : b.Serves p r.parentId) (served : r.address = .ofPurpose p)
    (suited : c.Suits p r.approach approach) (spelt : b.Spells p r.parentId)
    (there : b.summary? p r.parentId = some m) (active : m.status.isTerminal = false) :
    ∃ s, Looked p r.parentId b s ∧ ∃ x : Bool,
      (x = true ↔ m.multilevel = false ∧ b.IsGranted p r.parentId) ∧
      start c now b r = if x then .ok (.error (.alreadyAuthorised r.parentId), s)
        else create c now s p approach r := by
  obtain ⟨parent, s, found, looked, rfl, same⟩ :=
    Purpose.findActiveParent_of_active serves spelt there active
  obtain ⟨records, -, -, -, siblings⟩ := looked.kept
  rw [Parent.summary_multilevel]
  have reads : parent.multilevel = false → (Store.authorisationsOf s r.parentId p).isOk = true := by
    rw [siblings, ← Parent.summary_multilevel]
    exact serves.siblings _ there active
  obtain ⟨x, asked, granted⟩ := isAuthorised_iff same reads
  rw [IsGranted, records] at granted
  refine ⟨s, looked, x, granted, ?_⟩
  simp only [start, resolve_of_served served, suited.forPurpose, found, asked]
  cases x <;> rfl

theorem wants_or_unknown (c : Config) (requested : Option String) :
    (∃ approach, c.Wants requested approach) ∨
      ∃ text word, requested = some text ∧ Text.isBlank text = false ∧
        (Keyword.read text : Except UnknownWord Sca.Approach) = .error word := by
  cases given : Text.isGiven requested with
  | false => exact .inl ⟨_, .default given⟩
  | true =>
    cases requested with
    | none => cases given
    | some text =>
      have spoken : Text.isBlank text = false := by simpa [Text.isGiven] using given
      cases read : (Keyword.read text : Except UnknownWord Sca.Approach) with
      | ok approach => exact .inl ⟨approach, .named spoken read⟩
      | error word => exact .inr ⟨text, word, rfl, spoken, read⟩

theorem startable_or_unstartable (c : Config) (b : Backend) (r : StartRequest) :
    (∃ p approach, Startable c b r p approach) ∨ ∃ e, Unstartable c b r e := by
  by_cases served : ∃ p, r.address = .ofPurpose p
  swap
  · exact .inr ⟨_, .unserved fun p same => served ⟨p, same⟩⟩
  obtain ⟨p, served⟩ := served
  rcases wants_or_unknown c r.approach with ⟨approach, wants⟩ | ⟨text, word, named, spoken, unknown⟩
  swap
  · exact .inr ⟨_, .unknown served named spoken unknown⟩
  by_cases unsuited : p.isPayment = true ∧ approach = .oauth
  · obtain ⟨payment, rfl⟩ := unsuited
    exact .inr ⟨_, .unsuited served payment wants⟩
  have suited : c.Suits p r.approach approach :=
    ⟨wants, fun payment oauth => unsuited ⟨payment, oauth⟩⟩
  by_cases spelt : b.Spells p r.parentId
  swap
  · simp only [Spells, not_forall] at spelt
    obtain ⟨rfl, q, there, unspelt⟩ := spelt
    cases order : q.orderOf with
    | ok o => exact absurd ⟨o, order⟩ unspelt
    | error cause => exact .inr ⟨_, .unspelt served suited there order⟩
  by_cases active : ∃ m, b.summary? p r.parentId = some m ∧ m.status.isTerminal = false
  swap
  · refine .inr ⟨_, .inactive served suited spelt fun m there => ?_⟩
    exact Bool.of_not_eq_false fun alive => active ⟨m, there, alive⟩
  obtain ⟨m, there, active⟩ := active
  by_cases authorised : m.multilevel = false ∧ b.IsGranted p r.parentId
  · exact .inr ⟨_, .authorised served suited spelt there active authorised.1 authorised.2⟩
  · refine .inl ⟨p, approach, served, suited, spelt, m, there, active, ?_⟩
    exact fun single granted => authorised ⟨single, granted⟩

theorem start_of_unstartable {e : EngineError} (now : Instant)
    (serves : ∀ p, r.address = .ofPurpose p → b.Serves p r.parentId) (h : Unstartable c b r e) :
    ∃ after, start c now b r = .ok (.error e, after) ∧ Unopened b r after := by
  cases h with
  | unserved unserved =>
    have unresolved : r.address.purpose? = none := by
      cases resolved : r.address.purpose? with
      | none => rfl
      | some p => exact absurd (Address.purpose?_eq_some_iff.mp resolved) (unserved p)
    refine ⟨b, ?_, .inl rfl⟩
    simp only [start, resolve, unresolved]
  | @unknown p text word served named spoken unknown =>
    refine ⟨b, ?_, .inl rfl⟩
    have refused : (approaches c).forPurpose p r.approach = .error (.unsupported word.message) := by
      unfold ApproachChoice.forPurpose ApproachChoice.forPayment ApproachChoice.forAccount
      simp only [named, Option.filter_some, spoken, Bool.not_false, if_true, unknown, ite_self]
    simp only [start, resolve_of_served served, refused]
  | @unsuited p served payment wanted =>
    refine ⟨b, ?_, .inl rfl⟩
    have refused : (approaches c).forPurpose p r.approach =
        .error (.unsupported "OAUTH is not supported for payments") := by
      simp only [ApproachChoice.forPurpose, ApproachChoice.forPayment, payment, wanted.forAccount]
      rfl
    simp only [start, resolve_of_served served, refused]
  | unspelt served suited there unspelt =>
    refine ⟨b, ?_, .inl rfl⟩
    simp only [start, resolve_of_served served, suited.forPurpose, Purpose.findActiveParent,
      Purpose.findParent_of_unspelt there unspelt, Except.map]
  | @inactive p approach served suited spelt inactive =>
    obtain ⟨s, found, looked⟩ :=
      Purpose.findActiveParent_of_inactive (serves p served) spelt inactive
    refine ⟨s, ?_, .inr ⟨p, served, looked⟩⟩
    simp only [start, resolve_of_served served, suited.forPurpose, found]
  | @authorised p approach m served suited spelt there active single granted =>
    obtain ⟨s, looked, x, asked, started⟩ :=
      start_of_active now (serves p served) served suited spelt there active
    refine ⟨s, ?_, .inr ⟨p, served, looked⟩⟩
    rw [started, if_pos (asked.mpr ⟨single, granted⟩)]

theorem start_of_startable {p : Purpose} {approach : Sca.Approach} {expiresAt : Instant}
    (serves : b.Serves p r.parentId) (reached : now.after? c.lifetime = some expiresAt)
    (h : Startable c b r p approach) :
    ∃ a s after, start c now b r = .ok (.ok a, after) ∧ Looked p r.parentId b s ∧
      Adds a s after ∧ a = .ofDraft b.nextId
        { parentId := r.parentId, purpose := p, approach, psu := r.psu, expiresAt } := by
  obtain ⟨m, there, active, ungranted⟩ := h.active
  obtain ⟨s, looked, x, asked, started⟩ :=
    start_of_active now serves h.served h.suited h.spelt there active
  obtain ⟨-, -, stays, next, -⟩ := looked.kept
  have free : x = false := by
    refine Bool.eq_false_iff.mpr fun authorised => ?_
    obtain ⟨single, granted⟩ := asked.mp authorised
    exact ungranted single granted
  have opened : s.isOpen = true := stays.trans serves.isOpen
  obtain ⟨after, inserted, adds⟩ := insertAuthorisation_adds opened
    { parentId := r.parentId, purpose := p, approach, psu := r.psu, expiresAt }
  rw [next] at inserted adds
  refine ⟨_, s, after, ?_, looked, adds, rfl⟩
  rw [started, free]
  simp only [Bool.false_eq_true, if_false, create, reached, inserted]

/-- What a start adds: one authorisation, as the request wants it, in the store that the lookup of
its parent left. -/
structure Adding (c : Config) (now : Instant) (b : Backend) (r : StartRequest) (p : Purpose)
    (approach : Sca.Approach) (a : Authorisation) (after : Backend) : Prop where
  fields : a = { id := a.id, parentId := r.parentId, purpose := p, status := .received, approach,
                 psu := r.psu, expiresAt := now.plus c.lifetime, version := 0 }
  expiry : now.nanos < 1000000000 →
    a.expiresAt.totalNanos = now.totalNanos + c.lifetime.totalNanos
  fresh : a.id ∉ b.labels.map Label.id
  keyed : b.IsKeyed → after.IsKeyed
  store : ∃ s, Looked p r.parentId b s ∧ Adds a s after
  records : after.records = b.records ++ [a]

theorem adding_of_adds {p : Purpose} {approach : Sca.Approach} {a : Authorisation}
    {s after : Backend} (looked : Looked p r.parentId b s) (adds : Adds a s after)
    (drawn : a = .ofDraft b.nextId { parentId := r.parentId, purpose := p, approach, psu := r.psu,
                                     expiresAt := now.plus c.lifetime }) :
    Adding c now b r p approach a after := by
  obtain ⟨records, labels, -, next, -⟩ := looked.kept
  have id : a.id = b.nextId := by rw [drawn]; rfl
  refine ⟨?_, fun ordinary => ?_, ?_, fun keyed => ?_, ⟨s, looked, adds⟩, records ▸ adds.records⟩
  · rw [id]
    exact drawn
  · rw [drawn]
    exact Instant.totalNanos_plus ordinary c.lifetime
  · rw [id]
    exact b.nextId_unused
  · have before : s.IsKeyed := by
      rw [IsKeyed, labels]
      exact keyed
    exact before.added adds (id.trans next.symm)

theorem Unopened.records {after : Backend} (h : Unopened b r after) :
    after.records = b.records := by
  rcases h with rfl | ⟨p, -, looked⟩
  · rfl
  · exact looked.kept.1

/-- A start succeeds if and only if all of its conditions are met, and is otherwise refused for the
first one that is not. It adds one authorisation if it succeeds and none if it is refused, saves at
most the order of a payment that is to be cancelled, and leaves the bank alone. -/
theorem start_succeeds_iff (c : Config) (now : Instant) (site : Site Backend) (r : StartRequest)
    (serves : ∀ p, r.address = .ofPurpose p → site.store.Serves p r.parentId)
    (plain : (now.plus c.lifetime).isPlain = true) :
    ∃ answer after, start c now site.store r = .ok (answer, after) ∧
      next c site (.start now r) = { site with store := after } ∧
      ((∃ a, answer = .ok a) ↔ ∃ p approach, Startable c site.store r p approach) ∧
      (∀ e, answer = .error e ↔ Unstartable c site.store r e) ∧
      (∀ a, answer = .ok a → ∃ p approach, Startable c site.store r p approach ∧
        Adding c now site.store r p approach a after) ∧
      ∀ e, answer = .error e → Unopened site.store r after ∧
        after.records = site.store.records := by
  have moves {answer after} (started : start c now site.store r = .ok (answer, after)) :
      next c site (.start now r) = { site with store := after } := by
    simp only [next, storeAfterStart, started]
  rcases startable_or_unstartable c site.store r with ⟨p, approach, h⟩ | ⟨e, h⟩
  · obtain ⟨a, s, after, started, looked, adds, drawn⟩ :=
      start_of_startable (serves p h.served) (Instant.after?_of_isPlain plain) h
    refine ⟨.ok a, after, started, moves started, ⟨fun _ => ⟨p, approach, h⟩, fun _ => ⟨a, rfl⟩⟩,
      fun e => ⟨nofun, fun failed => ?_⟩, ?_, nofun⟩
    · obtain ⟨_, refused, -⟩ := start_of_unstartable now serves failed
      rw [started] at refused
      cases refused
    · rintro _ ⟨⟩
      exact ⟨p, approach, h, adding_of_adds looked adds drawn⟩
  · obtain ⟨after, refused, unopened⟩ := start_of_unstartable now serves h
    refine ⟨.error e, after, refused, moves refused, ⟨?_, ?_⟩, fun e' => ⟨?_, fun failed => ?_⟩, ?_,
      fun _ _ => ⟨unopened, unopened.records⟩⟩
    · rintro ⟨a, same⟩
      cases same
    · rintro ⟨p, approach, met⟩
      obtain ⟨a, s, after', started, -⟩ :=
        start_of_startable (serves p met.served) (Instant.after?_of_isPlain plain) met
      rw [refused] at started
      cases started
    · intro same
      rw [← Except.error.inj same]
      exact h
    · obtain ⟨_, refused', -⟩ := start_of_unstartable now serves failed
      rw [refused] at refused'
      exact (Prod.mk.inj (Except.ok.inj refused')).1
    · intro a same
      cases same

theorem batch_cancellation_started :
    let site : Site Backend := { store := .memory { payments := [Samples.rawBatch "payment"] } }
    let r : StartRequest := .toPurpose .cancellation "payment"
    (∃ a after, start {} Samples.moment site.store r = .ok (.ok a, after) ∧
      after.records = [a] ∧ a.status = .received ∧ a.approach = .redirect ∧
      a.expiresAt = ⟨86400, 0⟩) ∧
    ∃ after, start {} Samples.moment site.store { r with approach := some " oauth " } =
      .ok (.error (.unsupported "OAUTH is not supported for payments"), after) := by
  intro site r
  have serves (requested : Option String) (p : Purpose)
      (served : ({ r with approach := requested } : StartRequest).address = .ofPurpose p) :
      site.store.Serves p r.parentId :=
    ⟨fun _ => rfl, fun _ => rfl, fun _ _ _ _ => rfl⟩
  constructor
  · obtain ⟨answer, after, started, -, accepts, -, adds, -⟩ :=
      start_succeeds_iff {} Samples.moment site r (serves none) rfl
    have suited : Config.Suits {} .cancellation r.approach .redirect := ⟨.default rfl, nofun⟩
    have startable : Startable {} site.store r .cancellation .redirect := by
      refine ⟨rfl, suited, ?_, ⟨⟨.payment .rcvd, false⟩, rfl, rfl, ?_⟩⟩
      · rintro - q read
        cases read
        have spelt : (Samples.rawBatch "payment").orderOf.isOk = true := by decide +kernel
        exact exists_of_isOk spelt
      · rintro - ⟨a, there, -⟩
        cases there
    obtain ⟨a, rfl⟩ := accepts.mpr ⟨_, _, startable⟩
    obtain ⟨p, approach, met, adding⟩ := adds a rfl
    have wants : Config.Wants {} none approach := met.suited.wants
    cases wants
    refine ⟨a, after, started, adding.records, ?_, ?_, ?_⟩
    · rw [adding.fields]
    · rw [adding.fields]
    · rw [adding.fields]
      rfl
  · obtain ⟨answer, after, started, -, -, refuses, -⟩ :=
      start_succeeds_iff {} Samples.moment site { r with approach := some " oauth " }
        (serves (some " oauth ")) rfl
    have wanted : Config.Wants {} (some " oauth ") .oauth :=
      .named (by decide) (by with_unfolding_all rfl)
    obtain rfl := (refuses _).mpr (.unsuited (p := .cancellation) rfl rfl wanted)
    exact ⟨after, started⟩

end Engine

end StrongAuth
