import StrongAuth.Proofs.Engine.Transcript

set_option autoImplicit false

namespace StrongAuth
open StrongAuth.Calendar StrongAuth.Backend

namespace Transcript

variable {a : Attempt} {xs : List Bank.Exchange} {o : Outcome}

theorem ofEffect_status (a : Attempt) (e : Purpose.Effect) :
    (a.ofEffect e).status = match e.verdict with
      | .success => .finalised
      | .attemptFailure => a.status
      | .failure => .failed := by
  obtain ⟨verdict, status⟩ := e
  cases verdict <;> rfl

theorem ofCodeCheck_status (a : Attempt) (check : Bank.CodeCheck) :
    (a.ofCodeCheck check).status = match check.scaStatus with
      | .finalised => .finalised
      | .failed => .failed
      | _ => a.status := by
  obtain ⟨status, payment⟩ := check
  cases status <;> rfl

theorem hasCode_of_given {code : Secret} (given : a.code = some code)
    (spoken : code.isBlank = false) : a.hasCode = true := by
  rw [Attempt.hasCode, given]
  simpa [Secret.isGiven, Text.isGiven, Secret.isBlank] using spoken

/-- An attempt takes a step of the table of moves, or is concluded by a code before its time. -/
theorem moves (h : Transcript a xs o) (live : a.status.isTerminal = false) :
    a.status.permits o.status = true ∨
      (a.status = .methodSelected ∧ o.status = .finalised ∧ a.hasCode = true) := by
  have stays : a.status.permits a.status = true := Sca.Status.permits_self _
  have fails : a.status.permits .failed = true := Sca.Status.permits_failed live
  cases h with
  | refused harmless still bare =>
    rcases still with still | still
    · rw [still]
      exact .inl stays
    · rw [still]
      exact .inl fails
  | exempted before named after bare =>
    rw [before, after]
    exact .inl rfl
  | identified before named after bare =>
    rw [before, after]
    exact .inl rfl
  | authenticated before after bare =>
    rw [before, after]
    exact .inl rfl
  | selected before chosen offered after method secret parentStatus =>
    rw [before, after]
    exact .inl rfl
  | verified before given after method secret parentStatus =>
    rw [before, after]
    exact .inl rfl
  | deferred before after bare =>
    rw [before, after]
    exact .inl rfl
  | @effected x e before context answered =>
    rw [ofEffect_status]
    left
    split
    · rw [before]
      rfl
    · exact stays
    · exact fails
  | unanswered context conclusive fault still bare =>
    rw [still]
    exact .inl stays
  | confirmedLocally before given spoken stored same after success bare =>
    rcases before with before | before
    · exact .inr ⟨before, after, hasCode_of_given given spoken⟩
    · rw [before, after]
      exact .inl rfl
  | @confirmedAtBank code order handle check before given spoken =>
    rw [ofCodeCheck_status]
    split
    · rcases before with before | before
      · exact .inr ⟨before, rfl, hasCode_of_given given spoken⟩
      · rw [before]
        exact .inl rfl
    · exact .inl fails
    · exact .inl stays

theorem conclusive_of_parentStatus (h : Transcript a xs o) {st : Parent.Status}
    (reported : o.parentStatus = some st) : ∃ x ∈ xs, x.isConclusive = true := by
  have silent (bare : o.IsBare) : False := by
    rw [bare.parentStatus] at reported
    cases reported
  cases h with
  | refused harmless still bare => exact (silent bare).elim
  | exempted before named after bare => exact (silent bare).elim
  | identified before named after bare => exact (silent bare).elim
  | authenticated before after bare => exact (silent bare).elim
  | selected before chosen offered after method secret parentStatus =>
    rw [parentStatus] at reported
    cases reported
  | verified before given after method secret parentStatus =>
    rw [parentStatus] at reported
    cases reported
  | deferred before after bare => exact (silent bare).elim
  | @effected x e before context answered =>
    refine ⟨x, List.mem_singleton_self x, ?_⟩
    cases x <;> first | rfl | cases answered
  | unanswered context conclusive fault still bare => exact (silent bare).elim
  | confirmedLocally before given spoken stored same after success bare => exact (silent bare).elim
  | confirmedAtBank before given spoken => exact ⟨_, List.mem_singleton_self _, rfl⟩

theorem context_of_mem (h : Transcript a xs o) {x : Bank.Exchange} (hx : x ∈ xs) :
    x.context = a.context := by
  cases h with
  | refused harmless still bare => exact (harmless x hx).1
  | exempted | identified | verified | confirmedAtBank =>
    obtain rfl := List.mem_singleton.mp hx
    rfl
  | authenticated | selected =>
    rcases List.mem_cons.mp hx with rfl | hx
    · rfl
    · obtain rfl := List.mem_singleton.mp hx
      rfl
  | deferred | confirmedLocally => exact absurd hx List.not_mem_nil
  | effected before context answered =>
    obtain rfl := List.mem_singleton.mp hx
    exact context
  | unanswered context conclusive fault still bare =>
    obtain rfl := List.mem_singleton.mp hx
    exact context

end Transcript

/-- An update that is for a stored authorisation, in time and not by a stranger. -/
structure Admitted (b : Backend) (now : Instant) (u : UpdateRequest) (stored : Authorisation) :
    Prop where
  purpose : u.address.purpose? = some stored.purpose
  found : Store.authorisation b u.authorisationId = .ok (some stored)
  parent : stored.parentId = u.parentId
  timely : stored.isExpired now = false
  owner : (Attempt.of u stored).foreignPsu stored = none

namespace Engine

variable {c : Config} {now : Instant} {site : Site Backend} {u : UpdateRequest}

theorem resolve_eq_ok_iff {address : Address} {p : Purpose} :
    resolve address = .ok p ↔ address.purpose? = some p := by
  unfold resolve
  split
  · next q served =>
    rw [served, Except.ok.injEq, Option.some.injEq]
  · next unserved =>
    rw [unserved]
    exact ⟨nofun, nofun⟩

theorem findFor_eq_ok_iff {σ : Type} [Store σ] {b : σ} {p : Purpose} {stored : Authorisation} :
    findFor b p u = .ok stored ↔ Store.authorisation b u.authorisationId = .ok (some stored) ∧
      stored.parentId = u.parentId ∧ stored.purpose = p := by
  unfold findFor
  cases found : Store.authorisation b u.authorisationId with
  | error e => simp
  | ok answer =>
    cases answer with
    | none => simp
    | some a =>
      by_cases fits : a.parentId = u.parentId ∧ a.purpose = p
      · simp only [fits.1, fits.2, beq_self_eq_true, Bool.and_self, if_true, Except.ok.injEq,
          Option.some.injEq]
        constructor
        · rintro rfl
          exact ⟨rfl, fits⟩
        · exact fun h => h.1
      · have refused : (a.parentId == u.parentId && a.purpose == p) = false := by
          simpa using fits
        simp only [refused, Bool.false_eq_true, if_false, Except.ok.injEq, Option.some.injEq]
        constructor
        · exact nofun
        · rintro ⟨rfl, same⟩
          exact absurd same fits

theorem update_of_admitted {stored : Authorisation} (h : Admitted site.store now u stored) :
    update c now site u = (.ok (advance c site stored.purpose (.of u stored)).1,
      (advance c site stored.purpose (.of u stored)).2) := by
  have served := resolve_eq_ok_iff.mpr h.purpose
  have fits := findFor_eq_ok_iff.mpr ⟨h.found, h.parent, rfl⟩
  have late : (Attempt.of u stored).isExpired now = false := h.timely
  simp only [update, served, fits, late, Bool.false_eq_true, if_false, h.owner]

theorem update_of_not_admitted (h : ∀ stored, ¬Admitted site.store now u stored) :
    (update c now site u).2 = site := by
  unfold update
  split
  · rfl
  · next purpose served =>
    split
    · rfl
    · next stored fits =>
      obtain ⟨found, parent, rfl⟩ := findFor_eq_ok_iff.mp fits
      by_cases late : (Attempt.of u stored).isExpired now = true
      · simp only [late, if_true]
      · have timely : (Attempt.of u stored).isExpired now = false := Bool.eq_false_iff.mpr late
        simp only [timely, Bool.false_eq_true, if_false]
        split
        · rfl
        · next owner =>
          exact absurd ⟨resolve_eq_ok_iff.mp served, found, parent, timely, owner⟩ (h stored)

theorem advance_cases (c : Config) (site : Site Backend) (p : Purpose) (a : Attempt) :
    ∃ xs o site', Conducted a p site xs o site' ∧
      xs.any (·.isConclusive) = a.reachesBank c p site.store ∧
      (a.hasCode = true → ∀ x ∈ xs, x.call = .codeCheck) ∧
      ((advance c site p a = (o, site') ∧ xs = []) ∨ advance c site p a = record site' p a o) := by
  unfold advance
  cases coded : a.hasCode with
  | true =>
    obtain ⟨xs, conducted, loud, calls⟩ := a.confirm_reaches c p site coded
    exact ⟨xs, _, _, conducted, loud, fun _ => calls, .inr rfl⟩
  | false =>
    cases lacking : a.incomplete with
    | some m =>
      have silent := a.not_reachesBank_of_incomplete c p site.store coded lacking
      exact ⟨[], a.reject m, site, a.refused_conducted (.inl rfl) (a.reject_isBare m)
        (KeepsCalm.refl _) rfl, silent.symm, nofun, .inl ⟨rfl, rfl⟩⟩
    | none =>
      obtain ⟨xs, conducted, loud⟩ := a.step_reaches c p site coded
      exact ⟨xs, _, _, conducted, loud, nofun, .inr rfl⟩

end Engine

def Authorisation.updated (a : Authorisation) (u : UpdateRequest) (o : Outcome) : Authorisation :=
  a.apply (a.purpose.updateOf (.of u a) o)

theorem Authorisation.updated_psu (a : Authorisation) (u : UpdateRequest) (o : Outcome) :
    (a.updated u o).psu = (Attempt.of u a).psu := by
  unfold updated apply Purpose.updateOf
  cases empty : (Attempt.of u a).psu.isEmpty with
  | false => rfl
  | true =>
    unfold Attempt.of at empty ⊢
    dsimp only at empty ⊢
    split at empty
    · next nobody =>
      rw [if_pos nobody]
      rfl
    · next named => exact absurd empty named

namespace Engine

variable {c : Config} {now : Instant} {site : Site Backend} {u : UpdateRequest}

/-- An update that moved the authorisation at this position. -/
structure Moved (site : Site Backend) (now : Instant) (u : UpdateRequest) (t : Turn) (n : Nat)
    (stored : Authorisation) (o : Outcome) (after : Backend) : Prop where
  position : site.store.records[n]? = some stored
  admitted : Admitted site.store now u stored
  live : stored.status.isTerminal = false
  transcript : Transcript (.of u stored) t.exchanges o
  answer : t.answer = .ok o
  records : after.records = site.store.records.set n (stored.updated u o)
  settled : Store.Settled (stored.purpose.ownStatus o.parentStatus) stored.parentId
    site.store.summary? after.summary?
  written : ∃ found, KeepsCalm site.store found ∧
    Store.updateAuthorisation found stored.id stored.version
      (stored.purpose.updateOf (.of u stored) o) = (.ok (stored.updated u o), after)
  sound : after.IsSound
  calm : site.store.isCalm = true → after.isCalm = true

theorem ownStatus_concerns {p : Purpose} {reported : Option Parent.Status} {st : Parent.Status}
    (h : p.ownStatus reported = some st) : reported = some st ∧ st.concerns p = true := by
  unfold Purpose.ownStatus at h
  split at h
  · split at h
    · cases h
    · next sort =>
      cases h
      exact ⟨rfl, by simp [Parent.Status.concerns, sort]⟩
  · split at h
    · next sort =>
      cases h
      exact ⟨rfl, sort⟩
    · cases h
  · cases h

theorem record_bank (site : Site Backend) (p : Purpose) (a : Attempt) (o : Outcome) :
    (record site p a o).2.bank = site.bank := by
  unfold record
  split
  · rfl
  · split <;> rfl

theorem update_conducted (c : Config) {stored : Authorisation}
    (h : Admitted site.store now u stored) :
    ∃ o site', Conducted (.of u stored) stored.purpose site (turn c now site u).exchanges o site' ∧
      (turn c now site u).exchanges.any (·.isConclusive) =
        (Attempt.of u stored).reachesBank c stored.purpose site.store ∧
      ((Attempt.of u stored).hasCode = true →
        ∀ x ∈ (turn c now site u).exchanges, x.call = .codeCheck) ∧
      (update c now site u).2.bank = site'.bank ∧
      ((advance c site stored.purpose (.of u stored) = (o, site') ∧
          (turn c now site u).exchanges = []) ∨
        advance c site stored.purpose (.of u stored) =
          record site' stored.purpose (.of u stored) o) := by
  obtain ⟨xs, o, site', conducted, loud, calls, result⟩ :=
    advance_cases c site stored.purpose (.of u stored)
  have bank : (update c now site u).2.bank = site'.bank := by
    rw [update_of_admitted h]
    rcases result with ⟨result, -⟩ | result
    · rw [result]
    · simp only [result, record_bank]
  have exchanges : (turn c now site u).exchanges = xs := by
    simp only [turn, bank, conducted.heard.log, List.drop_left]
  rw [exchanges]
  exact ⟨o, site', conducted, loud, calls, bank, result⟩

theorem exchanges_of_not_admitted (h : ∀ stored, ¬Admitted site.store now u stored) :
    (turn c now site u).exchanges = [] := by
  simp only [turn, update_of_not_admitted h, List.drop_length]

theorem admitted_of_mem {x : Bank.Exchange} (hx : x ∈ (turn c now site u).exchanges) :
    ∃ stored, Admitted site.store now u stored := by
  refine Classical.byContradiction fun none => ?_
  rw [exchanges_of_not_admitted (not_exists.mp none)] at hx
  cases hx

theorem turn_heard (c : Config) (now : Instant) (site : Site Backend) (u : UpdateRequest) :
    site.bank.Hears (turn c now site u).exchanges (update c now site u).2.bank := by
  by_cases h : ∃ stored, Admitted site.store now u stored
  · obtain ⟨stored, admitted⟩ := h
    obtain ⟨o, site', conducted, -, -, bank, -⟩ := update_conducted c admitted
    rw [bank]
    exact conducted.heard
  · rw [exchanges_of_not_admitted (not_exists.mp h), update_of_not_admitted (not_exists.mp h)]
    exact .refl _

/-- The bank granted what the authorisation was for. -/
def Granted (xs : List Bank.Exchange) : Prop :=
  ∃ x ∈ xs, x.isGrant = true

theorem not_granted_nil : ¬Granted [] := by
  rintro ⟨x, hx, -⟩
  cases hx

end Engine

namespace Transcript

variable {a : Attempt} {xs : List Bank.Exchange} {o : Outcome}

/-- What the bank grants, it grants to a started authorisation, which is finalised by it. It was
asked nothing else. -/
theorem of_granted (h : Transcript a xs o) (granted : Engine.Granted xs) :
    a.status = .started ∧ o.status = .finalised ∧ o.challenge = none ∧ xs.length = 1 := by
  obtain ⟨x, hx, grant⟩ := granted
  obtain ⟨e, answered, success⟩ := Bank.Exchange.effect_of_isGrant grant
  have loud (mild : x.isConclusive = false) : False := by
    cases x <;> first | cases answered | cases mild
  cases h with
  | refused harmless still bare => exact (loud (harmless x hx).2).elim
  | exempted | identified | verified | confirmedAtBank =>
    obtain rfl := List.mem_singleton.mp hx
    cases answered
  | authenticated | selected =>
    rcases List.mem_cons.mp hx with rfl | hx
    · cases answered
    · obtain rfl := List.mem_singleton.mp hx
      cases answered
  | deferred | confirmedLocally => exact absurd hx List.not_mem_nil
  | @effected y f before context same =>
    obtain rfl := List.mem_singleton.mp hx
    rw [answered] at same
    cases same
    rw [ofEffect_status, success]
    obtain ⟨verdict, status⟩ := e
    cases success
    exact ⟨before, rfl, rfl, rfl⟩
  | unanswered context conclusive fault still bare =>
    obtain rfl := List.mem_singleton.mp hx
    rw [fault] at answered
    cases answered

end Transcript

namespace Engine

variable {c : Config} {now : Instant} {site : Site Backend} {u : UpdateRequest}

theorem accepted_of_granted {stored : Authorisation} {xs : List Bank.Exchange} {o : Outcome}
    {site' : Site Backend} {n : Nat} (sound : site.store.IsSound)
    (calm : site.store.isCalm = true) (position : site.store.records[n]? = some stored)
    (conducted : Conducted (.of u stored) stored.purpose site xs o site')
    (granted : Granted xs) :
    ∃ written, (Store.updateAuthorisation site'.store stored.id stored.version
      (stored.purpose.updateOf (.of u stored) o)).1 = .ok written := by
  obtain ⟨before, -, plain, -⟩ := conducted.transcript.of_granted granted
  have asked : xs ≠ [] := by
    rintro rfl
    exact not_granted_nil granted
  have started : stored.status = .started := before
  have free : Store.writeConflict stored stored.version = none := by
    simp [Store.writeConflict, started, Sca.Status.isTerminal]
  have keeps := conducted.keeps
  have there : site'.store.records[n]? = some stored := by
    rw [keeps.records]
    exact position
  have found := authorisation_of_record (keeps.sound sound) (keeps.calm calm) there
  refine updateAuthorisation_accepted (keeps.calm calm) found free plain
    (authorisationsOf_answers (keeps.sound sound) (keeps.calm calm) _ _) (conducted.readable asked) ?_
  intro st reported
  exact (ownStatus_concerns reported).2

theorem persist_ok {b b' : Backend} {p : Purpose} {a : Attempt} {o : Outcome}
    (h : p.persist b a o = (.ok (), b')) : ∃ written,
      Store.updateAuthorisation b a.authorisationId a.version (p.updateOf a o) =
        (.ok written, b') := by
  unfold Purpose.persist at h
  split at h
  · next written b'' wrote =>
    cases h
    exact ⟨written, wrote⟩
  · cases h

theorem persist_error {b b' : Backend} {p : Purpose} {a : Attempt} {o : Outcome} {e : StoreError}
    (h : p.persist b a o = (.error e, b')) :
    Store.updateAuthorisation b a.authorisationId a.version (p.updateOf a o) = (.error e, b') := by
  unfold Purpose.persist at h
  split at h
  · cases h
  · next e' b'' refused =>
    cases h
    exact refused

theorem Moved.written_record {t : Turn} {n : Nat} {a : Authorisation} {o : Outcome}
    {after : Backend} (h : Moved site now u t n a o after) :
    after.records[n]? = some (a.updated u o) := by
  have bound : n < site.store.records.length := (List.getElem?_eq_some_iff.mp h.position).1
  rw [h.records, List.getElem?_set, if_pos rfl, if_pos bound]

theorem Moved.status_ne_finalised {t : Turn} {n : Nat} {a : Authorisation} {o : Outcome}
    {after : Backend} (h : Moved site now u t n a o after) : a.status ≠ .finalised := by
  intro finalised
  have live := h.live
  rw [finalised] at live
  cases live

theorem Moved.owed {t : Turn} {n : Nat} {a : Authorisation} {o : Outcome} {after : Backend}
    (sound : site.store.IsSound) (h : Moved site now u t n a o after) :
    Store.Owed (a.purpose.ownStatus o.parentStatus) (a.updated u o) after.records after.psusOf
        site.store.summary? after.summary? ∧ after.psusOf = site.store.psusOf := by
  obtain ⟨found, keeps, written⟩ := h.written
  obtain ⟨owed, psus⟩ := updateAuthorisation_parents (keeps.sound sound) written
  rw [psus, ← keeps.summary, ← keeps.lists]
  exact ⟨owed, rfl⟩

theorem Moved.mem_of_terminal {t : Turn} {n : Nat} {a d : Authorisation} {o : Outcome}
    {after : Backend} (h : Moved site now u t n a o after) (there : d ∈ site.store.records)
    (ended : d.status.isTerminal = true) : d ∈ after.records := by
  obtain ⟨k, position⟩ := List.getElem?_of_mem there
  have other : n ≠ k := by
    rintro rfl
    obtain rfl := Option.some.inj (position.symm.trans h.position)
    rw [h.live] at ended
    cases ended
  refine List.mem_of_getElem? (i := k) ?_
  rw [h.records, List.getElem?_set_ne other]
  exact position

section Written
variable {n : Nat} {stored written : Authorisation} {o : Outcome} {site' : Site Backend}
  {store : Backend}

theorem moved_of_accepted (sound : site.store.IsSound)
    (position : site.store.records[n]? = some stored) (admitted : Admitted site.store now u stored)
    (live : stored.status.isTerminal = false)
    (conducted : Conducted (.of u stored) stored.purpose site (turn c now site u).exchanges o site')
    (accepted : Store.updateAuthorisation site'.store stored.id stored.version
      (stored.purpose.updateOf (.of u stored) o) = (.ok written, store))
    (updated : update c now site u = (.ok o, { site' with store })) :
    Moved site now u (turn c now site u) n stored o (update c now site u).2.store := by
  have keeps := conducted.keeps
  obtain ⟨⟨m, old, there, named, free, rfl, records⟩, settled, sound', calm'⟩ :=
    updateAuthorisation_ok (keeps.sound sound) accepted
  rw [keeps.records] at there records
  obtain rfl : m = n := sound.distinct.unique there position named
  obtain rfl := Option.some.inj (there.symm.trans position)
  have answered : (turn c now site u).answer = .ok o := by
    simp only [turn, updated]
  have after : (update c now site u).2.store = store := by
    rw [updated]
  rw [after]
  exact {
    position, admitted, answer := answered, records, sound := sound', live
    transcript := conducted.transcript
    settled := settled.of_kept keeps.parents
    written := ⟨site'.store, keeps, accepted⟩
    calm := fun calm => calm' (keeps.calm calm) }

theorem not_granted_of_refused {xs : List Bank.Exchange} {e : StoreError}
    (sound : site.store.IsSound) (calm : site.store.isCalm = true)
    (position : site.store.records[n]? = some stored)
    (conducted : Conducted (.of u stored) stored.purpose site xs o site')
    (refused : Store.updateAuthorisation site'.store stored.id stored.version
      (stored.purpose.updateOf (.of u stored) o) = (.error e, store)) : ¬Granted xs := by
  intro granted
  obtain ⟨written, accepted⟩ := accepted_of_granted sound calm position conducted granted
  rw [refused] at accepted
  cases accepted

end Written

/-- An update moves one authorisation or leaves all of them as they are. In a calm store the bank
has granted nothing in the second case. -/
theorem update_cases (c : Config) (now : Instant) (u : UpdateRequest)
    (sound : site.store.IsSound) :
    (KeepsCalm site.store (update c now site u).2.store ∧
      (site.store.isCalm = true → ¬Granted (turn c now site u).exchanges)) ∨
    ∃ n stored o,
      Moved site now u (turn c now site u) n stored o (update c now site u).2.store := by
  by_cases h : ∃ stored, Admitted site.store now u stored
  · obtain ⟨stored, admitted⟩ := h
    obtain ⟨n, position, same⟩ := authorisation_ok sound admitted.found
    obtain ⟨o, site', conducted, -, -, -, result⟩ := update_conducted c admitted
    have updated := update_of_admitted (c := c) admitted
    have keeps := conducted.keeps
    rcases result with ⟨result, quiet⟩ | result
    · rw [result] at updated
      rw [updated, quiet]
      exact .inl ⟨keeps, fun _ => not_granted_nil⟩
    · rw [result] at updated
      unfold record at updated
      split at updated
      · next ended =>
        refine .inl ⟨?_, ?_⟩
        · rw [updated]
          exact keeps
        · intro _ granted
          rw [(conducted.transcript.of_granted granted).1] at ended
          cases ended
      · next live =>
        split at updated
        · next store persisted =>
          obtain ⟨written, accepted⟩ := persist_ok persisted
          exact .inr ⟨n, stored, o, moved_of_accepted sound position admitted
            (Bool.eq_false_iff.mpr live) conducted accepted updated⟩
        · next e store persisted =>
          have refused := persist_error persisted
          refine .inl ⟨?_, fun calm => not_granted_of_refused sound calm position conducted refused⟩
          rw [updated]
          exact keeps.trans (updateAuthorisation_error refused)
  · have still := update_of_not_admitted (c := c) (not_exists.mp h)
    rw [exchanges_of_not_admitted (not_exists.mp h), still]
    exact .inl ⟨KeepsCalm.refl _, fun _ => not_granted_nil⟩

/-- A start that added an authorisation under this id. -/
structure Opened (site : Site Backend) (id : String) (d : Authorisation.Draft) (after : Backend) :
    Prop where
  records : after.records = site.store.records ++ [Authorisation.ofDraft id d]
  approach : d.purpose.isPayment = true → d.approach.suitsPayments = true
  parent : ∃ m, after.summary? d.purpose d.parentId = some m ∧ m.status.isTerminal = false ∧
    (m.multilevel = false →
      ∀ a ∈ site.store.siblings d.parentId d.purpose, a.status.isGranted = false)
  parents : after.summary? = site.store.summary?
  psus : after.psusOf = site.store.psusOf
  sound : after.IsSound
  calm : site.store.isCalm = true → after.isCalm = true

theorem suitsPayments_of_forPurpose {r : ApproachChoice} {p : Purpose} {requested : Option String}
    {approach : Sca.Approach} (h : r.forPurpose p requested = .ok approach)
    (sort : p.isPayment = true) : approach.suitsPayments = true := by
  rw [ApproachChoice.forPurpose, if_pos sort, ApproachChoice.forPayment] at h
  split at h
  · cases h
  · split at h
    · next suits =>
      cases h
      exact suits
    · cases h

theorem ungranted_of_progress {parent : Parent} {l : List Authorisation}
    (single : parent.multilevel = false) (h : parent.progress l ≠ .complete) :
    ∀ a ∈ l, a.parentId = parent.id → a.status.isGranted = false := by
  intro a ha same
  cases granted : a.status.isGranted with
  | false => rfl
  | true =>
    have member : a ∈ parent.granted l := by
      simp [Parent.granted, ha, same, granted]
    have some : (parent.granted l).isEmpty = false := by
      rw [List.isEmpty_eq_false_iff]
      exact List.ne_nil_of_mem member
    exact absurd (by simp [Parent.progress, some, single]) h

theorem ungranted_of_isAuthorised {b : Backend} {p : Purpose} {parent : Parent} {i : String}
    (same : parent.id = i) (h : isAuthorised b p parent i = .ok false)
    (single : parent.multilevel = false) :
    ∀ a ∈ b.siblings i p, a.status.isGranted = false := by
  unfold isAuthorised at h
  rw [single] at h
  obtain ⟨l, read, progress⟩ := Store.map_eq_ok h
  rw [Parent.progress_perm (authorisationsOf_ok read)] at progress
  intro a ha
  have sibling : Store.isSibling i p a = true := (List.mem_filter.mp ha).2
  have child : a.parentId = i := by
    simp only [Store.isSibling, Bool.and_eq_true, beq_iff_eq] at sibling
    exact sibling.1
  exact ungranted_of_progress single (by simpa using progress) a ha (child.trans same.symm)

theorem create_cases {b b' : Backend} {p : Purpose} {approach : Sca.Approach} {r : StartRequest}
    {x : Except EngineError Authorisation} (sound : b.IsSound)
    (h : create c now b p approach r = .ok (x, b')) :
    b' = b ∨ ∃ d : Authorisation.Draft, d.parentId = r.parentId ∧ d.purpose = p ∧
      d.approach = approach ∧
      b'.records = b.records ++ [Authorisation.ofDraft b.nextId d] ∧ b'.summary? = b.summary? ∧
      b'.psusOf = b.psusOf ∧ b'.IsSound ∧ (b.isCalm = true → b'.isCalm = true) := by
  unfold create at h
  split at h
  · cases h
  · split at h
    · next expiresAt _ a s inserted =>
      cases h
      obtain ⟨rfl, records, parents, psus, sound', calm⟩ := insertAuthorisation_ok sound inserted
      exact .inr ⟨_, rfl, rfl, rfl, records, parents, psus, sound', calm⟩
    · next e s refused =>
      cases h
      exact .inl (insertAuthorisation_error refused)

theorem create_opened {b s b' : Backend} {bank : Bank} {p : Purpose} {approach : Sca.Approach}
    {choice : ApproachChoice} {r : StartRequest} {parent : Parent}
    {x : Except EngineError Authorisation} (sound : b.IsSound)
    (chosen : choice.forPurpose p r.approach = .ok approach)
    (found : p.findActiveParent b r.parentId = (.ok (some parent), s))
    (unauthorised : isAuthorised s p parent r.parentId = .ok false)
    (h : create c now s p approach r = .ok (x, b')) :
    KeepsCalm b b' ∨ ∃ id d, Opened { store := b, bank } id d b' := by
  have keeps := Purpose.findActiveParent_keeps found
  obtain ⟨there, live⟩ := Purpose.findActiveParent_ok found
  rcases create_cases (keeps.sound sound) h with
    rfl | ⟨d, child, rfl, rfl, records, parents, psus, sound', calm⟩
  · exact .inl keeps
  · rw [keeps.records] at records
    have alive : parent.summary.status.isTerminal = false := by
      cases parent <;> exact live
    have single : parent.summary.multilevel = parent.multilevel := by
      cases parent <;> rfl
    refine .inr ⟨_, d, records, suitsPayments_of_forPurpose chosen,
      ⟨parent.summary, ?_, alive, ?_⟩, ?_, ?_, sound', fun quiet => calm (keeps.calm quiet)⟩
    · rw [parents, child]
      exact there.summary
    · rw [single, child]
      intro one
      have ungranted := ungranted_of_isAuthorised there.id unauthorised one
      simp only [siblings, keeps.records] at ungranted
      exact ungranted
    · exact parents.trans keeps.summary
    · exact psus.trans keeps.lists

theorem start_cases (c : Config) (now : Instant) (b : Backend) (r : StartRequest) (bank : Bank)
    (sound : b.IsSound) :
    KeepsCalm b (storeAfterStart c now b r) ∨
      ∃ id d, Opened { store := b, bank } id d (storeAfterStart c now b r) := by
  unfold storeAfterStart
  split
  · next x b' started =>
    unfold start at started
    split at started
    · cases started
      exact .inl (KeepsCalm.refl b)
    · next purpose _ =>
      split at started
      · cases started
        exact .inl (KeepsCalm.refl b)
      · next approach chosen =>
        split at started
        · next found =>
          cases started
          exact .inl (Purpose.findActiveParent_keeps found)
        · next found =>
          cases started
          exact .inl (Purpose.findActiveParent_keeps found)
        · next parent s found =>
          split at started
          · cases started
            exact .inl (Purpose.findActiveParent_keeps found)
          · cases started
            exact .inl (Purpose.findActiveParent_keeps found)
          · next unauthorised => exact create_opened sound chosen found unauthorised started
  · split
    · next purpose _ => exact .inl (Purpose.findActiveParent_keeps rfl)
    · exact .inl (KeepsCalm.refl b)

end Engine

def Event.isAddition : Event → Bool
  | .addConsent _ | .addPayment _ => true
  | _ => false

namespace Engine

variable {c : Config} {now : Instant} {site : Site Backend} {u : UpdateRequest}

/-- What one event does to a store, seen from its authorisations. If it moves none of them, only a
failure that is asked for disturbs a calm store, the bank grants nothing to a calm one, and nothing
but an addition adds a parent. -/
inductive Change (c : Config) (site : Site Backend) : Event → Prop where
  | kept {e : Event} (keeps : Keeps site.store (next c site e).store)
      (calm : (∀ change, e ≠ .failure change) → site.store.isCalm = true →
        (next c site e).store.isCalm = true)
      (quiet : site.store.isCalm = true → ∀ t ∈ turnsOf c site e, ¬Granted t.exchanges)
      (same : e.isAddition = false → (next c site e).store.summary? = site.store.summary?) :
      Change c site e
  | opened {now : Instant} {r : StartRequest} {id : String} {d : Authorisation.Draft}
      (opened : Opened site id d (next c site (.start now r)).store) : Change c site (.start now r)
  | moved {now : Instant} {u : UpdateRequest} {n : Nat} {stored : Authorisation} {o : Outcome}
      (moved : Moved site now u (turn c now site u) n stored o
        (next c site (.update now u)).store) :
      Change c site (.update now u)

theorem change_of_keepsCalm {e : Event} (keeps : KeepsCalm site.store (next c site e).store)
    (silent : turnsOf c site e = []) : Change c site e := by
  refine .kept keeps.toKeeps (fun _ => keeps.calm) ?_ fun _ => keeps.summary
  intro _ t ht
  rw [silent] at ht
  cases ht

theorem change_of_addition {e : Event} (addition : e.isAddition = true)
    (keeps : Keeps site.store (next c site e).store ∧
      (site.store.isCalm = true → (next c site e).store.isCalm = true))
    (silent : turnsOf c site e = []) : Change c site e := by
  refine .kept keeps.1 (fun _ => keeps.2) ?_ ?_
  · intro _ t ht
    rw [silent] at ht
    cases ht
  · intro other
    rw [addition] at other
    cases other

theorem change_of_next (c : Config) (sound : site.store.IsSound) (e : Event) :
    Change c site e := by
  cases e with
  | start now r =>
    rcases start_cases c now site.store r site.bank sound with keeps | ⟨_, _, opened⟩
    · exact change_of_keepsCalm keeps rfl
    · exact .opened opened
  | update now u =>
    rcases update_cases c now u sound with ⟨keeps, quiet⟩ | ⟨n, stored, o, moved⟩
    · refine .kept keeps.toKeeps (fun _ => keeps.calm) ?_ fun _ => keeps.summary
      intro calm t ht
      obtain rfl := List.mem_singleton.mp ht
      exact quiet calm
    · exact .moved moved
  | addConsent d => exact change_of_addition rfl (insertConsent_keeps site.store d) rfl
  | addPayment q => exact change_of_addition rfl (insertPayment_keeps site.store q) rfl
  | failure change =>
    refine .kept (suffer_keeps site.store change) ?_ ?_ ?_
    · exact fun quiet => absurd rfl (quiet change)
    · exact fun _ t ht => absurd ht List.not_mem_nil
    · exact fun _ => suffer_summary site.store change
  | bank desk script => exact change_of_keepsCalm (KeepsCalm.refl site.store) rfl

namespace Change

variable {e : Event}

theorem sound (h : Change c site e) (sound : site.store.IsSound) :
    (next c site e).store.IsSound := by
  cases h with
  | kept keeps => exact keeps.sound sound
  | opened opened => exact opened.sound
  | moved moved => exact moved.sound

theorem calm (h : Change c site e) (quiet : ∀ change, e ≠ .failure change)
    (calm : site.store.isCalm = true) : (next c site e).store.isCalm = true := by
  cases h with
  | kept keeps stays => exact stays quiet calm
  | opened opened => exact opened.calm calm
  | moved moved => exact moved.calm calm

theorem psus (h : Change c site e) (before : site.store.IsSound) (p : Purpose) (i : String) :
    site.store.psusOf p i ⊆ (next c site e).store.psusOf p i := by
  cases h with
  | kept keeps => exact keeps.psus p i
  | opened opened =>
    rw [opened.psus]
    exact List.Subset.refl _
  | moved moved =>
    rw [(moved.owed before).2]
    exact List.Subset.refl _

theorem multilevel (h : Change c site e) {p : Purpose} {i : String} {m : Parent.Summary}
    (there : site.store.summary? p i = some m) :
    ∃ m', (next c site e).store.summary? p i = some m' ∧ m'.multilevel = m.multilevel := by
  cases h with
  | kept keeps => exact ⟨m, keeps.parents p i m there, rfl⟩
  | opened opened =>
    rw [opened.parents]
    exact ⟨m, there, rfl⟩
  | moved moved => exact moved.settled.multilevel p i m there

end Change

/-- Where an authorisation comes from that is stored after an event. -/
inductive Origin (c : Config) (site : Site Backend) : Event → Authorisation → Prop where
  | old {e : Event} {a : Authorisation} (there : a ∈ site.store.records) : Origin c site e a
  | new {now : Instant} {r : StartRequest} {id : String} {d : Authorisation.Draft}
      (opened : Opened site id d (next c site (.start now r)).store) :
      Origin c site (.start now r) (.ofDraft id d)
  | moved {now : Instant} {u : UpdateRequest} {n : Nat} {stored : Authorisation} {o : Outcome}
      (moved : Moved site now u (turn c now site u) n stored o
        (next c site (.update now u)).store) :
      Origin c site (.update now u) (stored.updated u o)

theorem origin_of_mem (c : Config) (sound : site.store.IsSound) {e : Event} {a : Authorisation}
    (ha : a ∈ (next c site e).store.records) : Origin c site e a := by
  cases change_of_next c sound e with
  | kept keeps =>
    rw [keeps.records] at ha
    exact .old ha
  | opened opened =>
    rw [opened.records] at ha
    rcases List.mem_append.mp ha with ha | ha
    · exact .old ha
    · obtain rfl := List.mem_singleton.mp ha
      exact .new opened
  | moved moved =>
    rw [moved.records] at ha
    rcases List.mem_or_eq_of_mem_set ha with ha | rfl
    · exact .old ha
    · exact .moved moved

theorem record_cases (c : Config) (sound : site.store.IsSound) {n : Nat} {a : Authorisation}
    (there : site.store.records[n]? = some a) (e : Event) :
    ∃ b, (next c site e).store.records[n]? = some b ∧
      (b = a ∨ ∃ now u o, e = .update now u ∧ b = a.updated u o ∧
        Moved site now u (turn c now site u) n a o (next c site (.update now u)).store) := by
  cases change_of_next c sound e with
  | kept keeps =>
    rw [keeps.records]
    exact ⟨a, there, .inl rfl⟩
  | opened opened =>
    rw [opened.records]
    have bound : n < site.store.records.length := (List.getElem?_eq_some_iff.mp there).1
    rw [List.getElem?_append_left bound]
    exact ⟨a, there, .inl rfl⟩
  | @moved now u m stored o moved =>
    rw [moved.records, List.getElem?_set]
    by_cases here : m = n
    · subst here
      have bound : m < site.store.records.length := (List.getElem?_eq_some_iff.mp there).1
      obtain rfl : stored = a := Option.some.inj (moved.position.symm.trans there)
      rw [if_pos rfl, if_pos bound]
      exact ⟨_, rfl, .inr ⟨now, u, o, rfl, rfl, moved⟩⟩
    · rw [if_neg here]
      exact ⟨a, there, .inl rfl⟩

theorem moved_of_status_ne (c : Config) (sound : site.store.IsSound) {n : Nat}
    {a b : Authorisation} (there : site.store.records[n]? = some a) {e : Event}
    (after : (next c site e).store.records[n]? = some b) (changed : b.status ≠ a.status) :
    ∃ now u o, e = .update now u ∧ b = a.updated u o ∧
      Moved site now u (turn c now site u) n a o (next c site (.update now u)).store := by
  obtain ⟨b', after', same | moved⟩ := record_cases c sound there e
  · obtain rfl := Option.some.inj (after.symm.trans after')
    exact absurd (congrArg Authorisation.status same) changed
  · obtain rfl := Option.some.inj (after.symm.trans after')
    exact moved

theorem exists_of_mem_turns {events : List Event} {t : Turn} (ht : t ∈ turns c site events) :
    ∃ early now u late, events = early ++ .update now u :: late ∧
      t = turn c now (run c site early) u := by
  induction events generalizing site with
  | nil => cases ht
  | cons e events ih =>
    rcases List.mem_append.mp ht with ht | ht
    · cases e with
      | update now u => exact ⟨[], now, u, events, rfl, List.mem_singleton.mp ht⟩
      | start | addConsent | addPayment | failure | bank => cases ht
    · obtain ⟨early, now, u, late, rfl, here⟩ := ih ht
      exact ⟨e :: early, now, u, late, rfl, here⟩

theorem run_sound (c : Config) (sound : site.store.IsSound) (events : List Event) :
    (run c site events).store.IsSound := by
  induction events generalizing site with
  | nil => exact sound
  | cons e events ih => exact ih ((change_of_next c sound e).sound sound)

/-- What holds of the past turns and of the site, and is preserved by every event of a run, holds at
its end. -/
theorem run_invariant (c : Config) {P : List Turn → Site Backend → Prop} (past : List Turn)
    (sound : site.store.IsSound) (events : List Event)
    (step : ∀ past' (s : Site Backend), ∀ e ∈ events, s.store.IsSound → P past' s →
      P (past' ++ turnsOf c s e) (next c s e))
    (start : P past site) : P (past ++ turns c site events) (run c site events) := by
  induction events generalizing site past with
  | nil =>
    rw [turns, List.append_nil]
    exact start
  | cons e events ih =>
    rw [turns, ← List.append_assoc]
    refine ih (past ++ turnsOf c site e) ((change_of_next c sound e).sound sound) ?_ ?_
    · exact fun past' s e' he' => step past' s e' (List.mem_cons_of_mem e he')
    · exact step past site e List.mem_cons_self sound start

theorem run_multilevel (c : Config) (sound : site.store.IsSound) (events : List Event)
    {p : Purpose} {i : String} {m : Parent.Summary} (there : site.store.summary? p i = some m) :
    ∃ m', (run c site events).store.summary? p i = some m' ∧ m'.multilevel = m.multilevel := by
  refine run_invariant c (P := fun _ s => ∃ m', s.store.summary? p i = some m' ∧
    m'.multilevel = m.multilevel) [] sound events ?_ ⟨m, there, rfl⟩
  rintro _ s e - sound' ⟨m', there', same⟩
  obtain ⟨m'', there'', same'⟩ := (change_of_next c sound' e).multilevel there'
  exact ⟨m'', there'', same'.trans same⟩

theorem multilevel_of_run (c : Config) (sound : site.store.IsSound) (events : List Event)
    {p : Purpose} {i : String} {m m' : Parent.Summary} (there : site.store.summary? p i = some m)
    (last : (run c site events).store.summary? p i = some m') : m.multilevel = m'.multilevel := by
  obtain ⟨m'', last', same⟩ := run_multilevel c sound events there
  obtain rfl := Option.some.inj (last.symm.trans last')
  exact same.symm

end Engine

end StrongAuth
