import StrongAuth.Engine.Writes
import StrongAuth.Proofs.Footprint
import StrongAuth.Proofs.Store.Replies
import StrongAuth.Samples

set_option autoImplicit false

namespace StrongAuth
open StrongAuth.Backend StrongAuth.Calendar StrongAuth.Store

namespace Engine

/-- The updates of this authorisation among the operations, with the versions that they quote. -/
def changesOf (id : String) (ops : List Operation) : List (Int × Authorisation.Update) :=
  ops.filterMap (Operation.updateOf? id)

/-- How an authorisation became another one through an update with this outcome: `ws` are the writes
that the store was asked for. -/
inductive Resolved (s : Backend) (u : UpdateRequest) (ws : List Operation) (o : Outcome)
    (a : Authorisation) : Authorisation → Prop where
  | idle (due : (Attempt.of u a).isDue a = false) (asked : changesOf a.id ws = [])
      (failed : o.isSuccess = false) : Resolved s u ws o a a
  | refused {w : Int × Authorisation.Update} (due : (Attempt.of u a).isDue a = true)
      (asked : changesOf a.id ws = [w]) (unheard : changesOf a.id (accepted s ws) = [])
      (failed : o.isSuccess = false) : Resolved s u ws o a a
  | written {w : Int × Authorisation.Update} {b : Authorisation}
      (due : (Attempt.of u a).isDue a = true) (asked : changesOf a.id ws = [w])
      (heard : changesOf a.id (accepted s ws) = [w]) (version : b.version = a.version + 1)
      (method : b.method = (o.method <|> a.method))
      (challenge : b.challenge = (o.challenge <|> a.challenge))
      (secret : b.secret = (o.secret <|> a.secret)) : Resolved s u ws o a b

variable {now : Instant} {site after : Site Backend} {u : UpdateRequest} {a : Authorisation}
  {o : Outcome} {ws looked : List Operation}

theorem changesOf_lookup (s : Backend) (id : String) {p : Purpose} {i : String}
    (lookup : looked = [] ∨ looked = p.lookupWrites s i) : changesOf id looked = [] := by
  rcases lookup with rfl | rfl
  · rfl
  · rcases p.lookupWrites_cases s i with silent | ⟨q, order, -, -, -, -, writes⟩
    · rw [silent]
      rfl
    · rw [writes]
      rfl

theorem changesOf_asked (s : Backend) (id : String) {p : Purpose} {i : String} {version : Int}
    {upd : Authorisation.Update} (lookup : looked = [] ∨ looked = p.lookupWrites s i) :
    changesOf id (looked ++ [.updateAuthorisation id version upd]) = [(version, upd)] := by
  rw [changesOf, List.filterMap_append, ← changesOf, changesOf_lookup s id lookup]
  simp [Operation.updateOf?]

theorem changesOf_accepted (s : Backend) (id : String) {p : Purpose} {i : String} {version : Int}
    {upd : Authorisation.Update} (lookup : looked = [] ∨ looked = p.lookupWrites s i) :
    changesOf id (accepted s (looked ++ [.updateAuthorisation id version upd])) =
      if (Store.updateAuthorisation (performed s looked) id version upd).1.isOk then
        [(version, upd)]
      else [] := by
  have quiet : changesOf id (accepted s looked) = [] := by
    have fewer := (accepted_sublist s looked).filterMap (Operation.updateOf? id)
    rw [← changesOf, ← changesOf, changesOf_lookup s id lookup] at fewer
    exact List.sublist_nil.mp fewer
  have answer :
      ((Operation.updateAuthorisation id version upd).perform (performed s looked)).1.isOk =
      (Store.updateAuthorisation (performed s looked) id version upd).1.isOk := by
    change ((Store.updateAuthorisation (performed s looked) id version upd).1.map _).isOk = _
    cases (Store.updateAuthorisation (performed s looked) id version upd).1 <;> rfl
  rw [accepted_append, accepted_cons, answer, changesOf, List.filterMap_append, ← changesOf, quiet]
  split <;> simp [accepted, Operation.updateOf?]

theorem Handled.resolved (h : Handled site u a o after ws) (addressed : Addressed site.store u a) :
    ∃ b, Store.authorisation after.store a.id = .ok (some b) ∧ b.status = o.status ∧
      Resolved site.store u ws o a b ∧
      ∀ st, a.purpose.isPayment = true → o.parentStatus = some (.payment st) →
        ∃ m, after.store.summary? a.purpose a.parentId = some m ∧ m.status = .payment st := by
  have own : a.id = u.authorisationId := id_of_found addressed.found
  have found : Store.authorisation site.store a.id = .ok (some a) := by
    rw [own]
    exact addressed.found
  cases h with
  | idle idle => exact ⟨a, found, rfl, .idle idle rfl rfl, nofun⟩
  | @written o looked written after due lookup wrote =>
    obtain ⟨there, status⟩ := updateAuthorisation_found (found_after_lookup addressed lookup) wrote
    refine ⟨_, there, rfl, ?_, fun st payment reported => ?_⟩
    · refine .written due (changesOf_asked site.store a.id lookup) ?_ rfl rfl rfl rfl
      rw [changesOf_accepted site.store a.id lookup, wrote]
      rfl
    · refine status (.payment st) a.purpose ?_ payment
      simp only [Purpose.updateOf, reported, Purpose.ownStatus, payment, if_true]
  | @refused o looked e after due lookup wrote =>
    refine ⟨a, ?_, rfl, ?_, nofun⟩
    · rw [authorisation_of_refused wrote]
      exact found_after_lookup addressed lookup
    · refine .refused due (changesOf_asked site.store a.id lookup) ?_ rfl
      rw [changesOf_accepted site.store a.id lookup, wrote]
      rfl

theorem update_expired (c : Config) (addressed : Addressed site.store u a)
    (late : a.isExpired now = true) :
    (update c now site u).1 = .error (.expired a.id a.expiresAt) := by
  have served := resolve_eq_ok_iff.mpr addressed.purpose
  have fits := findFor_eq_ok_iff.mpr ⟨addressed.found, addressed.parent, rfl⟩
  have late : (Attempt.of u a).isExpired now = true := late
  simp only [update, served, fits, late, if_true]
  rfl

/-- An update is an error, and then nothing has changed and the bank was not asked, or the store
agrees with the response: the stored status is that of the response, and so is the status of the
payment, where the response has one. The authorisation was written once if that was due and the store
accepted it, and then holds what the response has of method, challenge and secret, and the old ones
otherwise. An update of an authorisation that has expired is an error, and says so. -/
theorem response_matches_store (c : Config) (now : Instant) (site : Site Backend)
    (u : UpdateRequest) :
    (∀ a, Addressed site.store u a → a.expiresAt.isBefore now = true →
      (update c now site u).1 = .error (.expired a.id a.expiresAt)) ∧
    match (update c now site u).1 with
    | .error _ => (update c now site u).2 = site ∧
        ∀ a, Addressed site.store u a → a.expiresAt.isBefore now = true
    | .ok o => ∃ a b, Addressed site.store u a ∧ a.expiresAt.isBefore now = false ∧
        Store.authorisation (update c now site u).2.store u.authorisationId = .ok (some b) ∧
        b.status = o.status ∧
        Resolved site.store u (writesOf c site (.update now u)) o a b ∧
        ∀ st, a.purpose.isPayment = true → o.parentStatus = some (.payment st) →
          ∃ m, (update c now site u).2.store.summary? a.purpose a.parentId = some m ∧
            m.status = .payment st := by
  refine ⟨fun a addressed late => update_expired c addressed late, ?_⟩
  rcases update_outcomes c now site u with
    ⟨e, refused, -⟩ | ⟨a, o, addressed, timely, answer, handled⟩
  · have late (a : Authorisation) (addressed : Addressed site.store u a) :
        a.expiresAt.isBefore now = true := by
      refine Bool.of_not_eq_false fun timely => ?_
      obtain ⟨o, answer, -⟩ := update_handled c addressed timely
      rw [refused] at answer
      cases answer
    simp only [refused]
    exact ⟨trivial, late⟩
  · obtain ⟨b, there, status, resolved, paid⟩ := handled.resolved addressed
    rw [id_of_found addressed.found] at there
    simp only [answer]
    exact ⟨a, b, addressed, timely, there, status, resolved, paid⟩

theorem response_to_conclusion :
    let site := run {} Samples.site (Samples.started .initiation)
    let u := UpdateRequest.toPurpose .initiation "payment" "auth1"
    ∃ (o : Outcome) (a b : Authorisation),
      (update {} Samples.moment site u).1 = .ok o ∧ o.status = .finalised ∧
      o.parentStatus = some (.payment .acsp) ∧
      Store.authorisation (update {} Samples.moment site u).2.store "auth1" = .ok (some b) ∧
      b.status = o.status ∧ b.version = a.version + 1 ∧
      ∃ m, (update {} Samples.moment site u).2.store.summary? a.purpose a.parentId = some m ∧
        m.status = .payment .acsp := by
  intro site u
  obtain ⟨-, answered⟩ := response_matches_store {} Samples.moment site u
  obtain ⟨o, answer, status, paid, succeeds⟩ : ∃ o, (update {} Samples.moment site u).1 = .ok o ∧
      o.status = .finalised ∧ o.parentStatus = some (.payment .acsp) ∧ o.isSuccess = true :=
    ⟨_, rfl, rfl, rfl, rfl⟩
  rw [answer] at answered
  obtain ⟨a, b, addressed, -, there, same, resolved, settled⟩ := answered
  have payment : a.purpose.isPayment = true := by
    cases addressed.found
    rfl
  have version : b.version = a.version + 1 := by
    cases resolved with
    | idle due asked failed => exact absurd succeeds (Bool.eq_false_iff.mp failed)
    | refused due asked unheard failed => exact absurd succeeds (Bool.eq_false_iff.mp failed)
    | written due asked heard version => exact version
  exact ⟨o, a, b, answer, status, paid, there, same, version, settled _ payment paid⟩

end Engine

end StrongAuth
