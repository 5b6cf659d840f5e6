import StrongAuth.Proofs.Engine.Simulation
import StrongAuth.Proofs.Footprint
import StrongAuth.Proofs.Store.Views
import StrongAuth.Samples

set_option autoImplicit false

namespace StrongAuth
open StrongAuth.Backend StrongAuth.Calendar StrongAuth.Store

/-- Stores that differ at most in one parent answer alike for the authorisations of another. -/
theorem Backend.simulates_of_apart {k : Parent.Key} {a : Authorisation} (u : UpdateRequest)
    (apart : a.label.parentKey ≠ k) :
    Simulates (fun s t => s.SameBut k t ∧ a.label.IsNamed s.labels)
      (fun s t => s.SameBut k t ∧ a.label.IsNamed s.labels) a.purpose (.of u a) (.of u a) where
  alike := .refl _
  parent s t h := by
    refine Purpose.findParent_alike h (fun account => ?_) (fun payment => ?_)
      fun cancels order => ?_
    · rw [Label.parentKey, Authorisation.label, account] at apart
      exact h.1.consent apart
    · rw [Label.parentKey, Authorisation.label, payment] at apart
      exact h.1.payment apart
    · obtain ⟨answer, same⟩ := h.1.saveOrder (l := a.label) cancels apart order
      have labels : (Store.saveOrder s a.parentId order).2.labels = s.labels :=
        (s.saveOrder_touches (l := a.label) cancels order).labels h.2
      refine ⟨answer, same, ?_⟩
      change a.label.IsNamed (Store.saveOrder s a.parentId order).2.labels
      rw [labels]
      exact h.2
  completes initiates s t h parent own := by
    rw [Label.parentKey, Authorisation.label, initiates] at apart
    have same : Store.authorisationsOf t a.parentId .initiation =
        Store.authorisationsOf s a.parentId .initiation := h.1.authorisationsOf apart
    have named : parent.id = a.parentId := own
    unfold Purpose.completes
    rw [named, same]
  persist s t h o := by
    have sort (st : Parent.Status)
        (reported : (a.purpose.updateOf (.of u a) o).parentStatus = some st) :=
      (Engine.ownStatus_concerns reported).2
    obtain ⟨answer, same⟩ := h.1.updateAuthorisation h.2 apart a.version sort
    have own (b : Authorisation) (found : s.authorisation? a.id = some b) : b.label = a.label :=
      h.2 b.label (label_mem found) (id_of_authorisation? found)
    have labels : (Store.updateAuthorisation s a.id a.version
        (a.purpose.updateOf (.of u a) o)).2.labels = s.labels :=
      (updateAuthorisation_touches (l := a.label) own a.version sort).labels h.2
    have wrote : StoresAlike (fun s t => s.SameBut k t ∧ a.label.IsNamed s.labels)
        (Store.updateAuthorisation s a.id a.version (a.purpose.updateOf (.of u a) o))
        (Store.updateAuthorisation t a.id a.version (a.purpose.updateOf (.of u a) o)) := by
      refine ⟨answer, same, ?_⟩
      rw [labels]
      exact h.2
    unfold Purpose.persist
    refine wrote.elim fun answer s t stores => ?_
    cases answer <;> exact ⟨rfl, stores⟩
  weaken _ _ h := h

namespace Engine

variable {now : Instant} {site site' : Site Backend} {u v : UpdateRequest}
  {a b : Authorisation}

/-- The update names no authorisation that can be read. -/
def Misses (s : Backend) (u : UpdateRequest) : Prop :=
  ∀ a, Store.authorisation s u.authorisationId ≠ .ok (some a)

theorem Misses.not_addressed (h : Misses site.store u) (stored : Authorisation) :
    ¬Addressed site.store u stored :=
  fun addressed => h stored addressed.found

theorem update_of_misses (c : Config) (now : Instant) (h : Misses site.store u) :
    (update c now site u).2 = site := by
  have late (stored : Authorisation) (addressed : Addressed site.store u stored) :
      stored.isExpired now = true := absurd addressed (h.not_addressed stored)
  obtain ⟨e, refused⟩ := update_unaddressed c late
  rw [refused]

theorem answer_of_misses (c : Config) (now : Instant) (h : Misses site.store u)
    (same : Store.authorisation site'.store u.authorisationId =
      Store.authorisation site.store u.authorisationId) :
    (update c now site' u).1 = (update c now site u).1 := by
  unfold update
  cases resolve u.address with
  | error e => rfl
  | ok purpose =>
    have found : findFor site'.store purpose u = findFor site.store purpose u := by
      simp only [findFor, same]
    dsimp only
    rw [found]
    cases fits : findFor site.store purpose u with
    | error e => rfl
    | ok stored => exact absurd (findFor_eq_ok_iff.mp fits).1 (h stored)

/-- No authorisation of the one parent is also one of the other. -/
def Apart (s : Backend) (u v : UpdateRequest) : Prop :=
  ∀ a b, Store.authorisation s u.authorisationId = .ok (some a) →
    Store.authorisation s v.authorisationId = .ok (some b) →
    a.label.parentKey ≠ b.label.parentKey

theorem Apart.symm {s : Backend} (h : Apart s u v) : Apart s v u :=
  fun b a hb ha same => h a b ha hb same.symm

theorem Apart.ne {s : Backend} (h : Apart s u v)
    (found : Store.authorisation s v.authorisationId = .ok (some b)) :
    u.authorisationId ≠ v.authorisationId := by
  intro same
  refine h b b ?_ found rfl
  rw [same]
  exact found

section Calm
variable (c : Config) (now : Instant) (calm : site.store.isCalm = true)
include calm

theorem lookup_after (other : u.authorisationId ≠ v.authorisationId) :
    Store.authorisation (update c now site v).2.store u.authorisationId =
      Store.authorisation site.store u.authorisationId := by
  by_cases misses : Misses site.store v
  · rw [update_of_misses c now misses]
  · obtain ⟨b, found⟩ := not_forall_not.mp misses
    refine (update_touches c now found).authorisation calm ?_
    rw [← Backend.id_of_found found] at other
    exact other

/-- If one of the updates misses, there is nothing but the other one. -/
theorem store_of_misses (apart : Apart site.store u v) (misses : Misses site.store u) :
    (update c now (update c now site u).2 v).2 = (update c now (update c now site v).2 u).2 := by
  rw [update_of_misses c now misses]
  by_cases missing : Misses site.store v
  · rw [update_of_misses c now missing, update_of_misses c now misses]
  · obtain ⟨b, other⟩ := not_forall_not.mp missing
    refine (update_of_misses c now fun a => ?_).symm
    rw [lookup_after c now calm (apart.ne other)]
    exact misses a

section Keyed
variable (keyed : site.store.IsKeyed) (unscripted : site.bank.script = {})
include keyed unscripted

theorem update_after (found : Store.authorisation site.store u.authorisationId = .ok (some a))
    (other : Store.authorisation site.store v.authorisationId = .ok (some b))
    (apart : a.label.parentKey ≠ b.label.parentKey) :
    ResultAlike (fun s t => s.SameBut b.label.parentKey t ∧ a.label.IsNamed s.labels)
      (update c now site u) (update c now (update c now site v).2 u) := by
  have named := keyed.named (Backend.authorisation?_of_ok found)
  have differs : site.store.SameBut b.label.parentKey (update c now site v).2.store :=
    (update_touches c now other).sameBut (keyed.named (Backend.authorisation?_of_ok other)) calm
  have found' : Store.authorisation (update c now site v).2.store u.authorisationId =
      .ok (some a) := by
    rw [← found, ← Backend.id_of_found found]
    exact differs.authorisation (l := a.label) named apart
  exact update_alike c now (Backend.simulates_of_apart u apart) rfl found found' (fun _ _ => rfl)
    ⟨⟨differs, named⟩, (turn_heard c now site v).alike unscripted⟩

variable (apart : Apart site.store u v)
include apart

theorem answer_after :
    (update c now (update c now site v).2 u).1 = (update c now site u).1 := by
  by_cases missing : Misses site.store v
  · rw [update_of_misses c now missing]
  · obtain ⟨b, other⟩ := not_forall_not.mp missing
    by_cases misses : Misses site.store u
    · exact answer_of_misses c now misses (lookup_after c now calm (apart.ne other))
    · obtain ⟨a, found⟩ := not_forall_not.mp misses
      exact (update_after c now calm keyed unscripted found other (apart a b found other)).answer

theorem sameBut_after
    (found : Store.authorisation site.store u.authorisationId = .ok (some a))
    (other : Store.authorisation site.store v.authorisationId = .ok (some b)) :
    (update c now (update c now site u).2 v).2.store.SameBut b.label.parentKey
      (update c now (update c now site v).2 u).2.store := by
  have touched := update_touches c now found
  have named := keyed.named (Backend.authorisation?_of_ok found)
  have other' : Store.authorisation (update c now site u).2.store v.authorisationId =
      .ok (some b) := (lookup_after c now calm (apart.symm.ne found)).trans other
  have keyed' := touched.isKeyed named keyed
  have later := (update_touches c now other').sameBut
    (keyed'.named (Backend.authorisation?_of_ok other')) (touched.isCalm calm)
  have both := update_after c now calm keyed unscripted found other (apart a b found other)
  exact later.symm.trans both.site.store.1

end Keyed

end Calm

/-- Two updates of different parents, made at the same time, get the answers that they would get on
their own, and leave the same authorisations, consents and payments, whichever is made first. The
store does not fail, and its authorisations have different ids, as `IsSound.isKeyed` says of every
store whose records can all be read. The bank may have any settings. -/
theorem updates_commute (c : Config) (now : Instant) (site : Site Backend) (u v : UpdateRequest)
    (keyed : site.store.IsKeyed) (calm : site.store.isCalm = true)
    (unscripted : site.bank.script = {})
    (apart : ∀ a b, Store.authorisation site.store u.authorisationId = .ok (some a) →
      Store.authorisation site.store v.authorisationId = .ok (some b) →
      a.label.parentKey ≠ b.label.parentKey) :
    (update c now (update c now site v).2 u).1 = (update c now site u).1 ∧
    (update c now (update c now site u).2 v).1 = (update c now site v).1 ∧
    (update c now (update c now site u).2 v).2.store.SameRecords
      (update c now (update c now site v).2 u).2.store := by
  have apart : Apart site.store u v := apart
  refine ⟨answer_after c now calm keyed unscripted apart,
    answer_after c now calm keyed unscripted apart.symm, ?_⟩
  by_cases misses : Misses site.store u
  · rw [store_of_misses c now calm apart misses]
    exact .refl _
  by_cases missing : Misses site.store v
  · rw [store_of_misses c now calm apart.symm missing]
    exact .refl _
  obtain ⟨a, found⟩ := not_forall_not.mp misses
  obtain ⟨b, other⟩ := not_forall_not.mp missing
  have first := sameBut_after c now calm keyed unscripted apart found other
  have second := sameBut_after c now calm keyed unscripted apart.symm other found
  exact first.sameRecords second.symm (apart a b found other).symm

theorem namesakes_concluded_in_any_order :
    let site := run {} Samples.emptySite Samples.namesakes
    let u := UpdateRequest.toPurpose .account "shared" "auth1"
    let v := UpdateRequest.toPurpose .initiation "shared" "auth2"
    (site.store.IsKeyed ∧ site.store.isCalm = true ∧ site.bank.script = {} ∧
      Apart site.store u v) ∧
    (update {} Samples.moment site u).1.map Outcome.status = .ok .finalised ∧
    (update {} Samples.moment site v).1.map Outcome.status = .ok .finalised ∧
    (update {} Samples.moment (update {} Samples.moment site v).2 u).1 =
      (update {} Samples.moment site u).1 ∧
    (update {} Samples.moment (update {} Samples.moment site u).2 v).1 =
      (update {} Samples.moment site v).1 ∧
    (update {} Samples.moment (update {} Samples.moment site u).2 v).2.store.SameRecords
      (update {} Samples.moment (update {} Samples.moment site v).2 u).2.store := by
  intro site u v
  have sound : site.store.IsSound := run_sound {} (isSound_of_isFresh rfl) Samples.namesakes
  have apart : Apart site.store u v := by
    intro a b found other
    cases found
    cases other
    decide
  exact ⟨⟨sound.isKeyed, rfl, rfl, apart⟩, rfl, rfl,
    updates_commute {} Samples.moment site u v sound.isKeyed rfl rfl apart⟩

end Engine

end StrongAuth
