import StrongAuth.Proofs.Engine.Simulation
import StrongAuth.Proofs.Refusals
import StrongAuth.Proofs.Signatures
import StrongAuth.Proofs.Store.Drift

set_option autoImplicit false

/-!
# Updates after a refusal

A refusal is written like any other outcome. It counts the version on and leaves the PSU of the
attempt with the authorisation; otherwise an update that follows finds everything as it was.
-/
namespace StrongAuth
open StrongAuth.Backend StrongAuth.Calendar StrongAuth.Store

theorem MemoryStore.eq_of_refused {s t : MemoryStore} {i : String} {version : Int}
    {u : Authorisation.Update} {e : StoreError} (calm : s.isCalm = true)
    (refused : s.updateAuthorisation i version u = (.error e, t)) : t = s := by
  have quiet := (isCalm_iff s).mp calm
  unfold updateAuthorisation at refused
  rw [quiet.2.1] at refused
  dsimp only at refused
  split at refused
  · exact (Prod.mk.inj refused).2.symm
  · split at refused
    · exact (Prod.mk.inj refused).2.symm
    · rw [checkParentStatus_of_calm calm] at refused
      split at refused
      · next unfit =>
        rw [(Prod.mk.inj refused).2.symm, (Prod.mk.inj unfit).2]
      · cases refused

theorem Backend.eq_of_refused {s t : Backend} {i : String} {version : Int}
    {u : Authorisation.Update} {e : StoreError} (calm : s.isCalm = true)
    (refused : Store.updateAuthorisation s i version u = (.error e, t)) : t = s := by
  cases s with
  | memory s =>
    obtain ⟨s', rfl, inner⟩ := onWrite_memory refused
    rw [MemoryStore.eq_of_refused calm inner]
  | tables s =>
    obtain ⟨s', rfl, inner⟩ := onWrite_tables refused
    rw [TableStore.updateAuthorisation_error inner]

namespace Bank

theorem Desk.verdict_ne_attemptFailure (d : Desk) (done : Payment.Status) :
    (d.executionEndingIn done).verdict ≠ .attemptFailure := by
  unfold executionEndingIn
  split <;> nofun

/-- The desk leaves nothing that it is to do for another attempt. -/
theorem Exchange.verdict_of_isDesks {x : Exchange} {e : Purpose.Effect} (desks : x.IsDesks)
    (answered : x.effect? = some e) : e.verdict ≠ .attemptFailure := by
  cases x with
  | execution context order answer =>
    cases answer with
    | error fault => cases answered
    | ok execution =>
      obtain ⟨d, same⟩ := desks
      obtain rfl := Except.ok.inj (Desk.attend_ok same)
      cases answered
      exact d.verdict_ne_attemptFailure _
  | cancellation context order answer =>
    cases answer with
    | error fault => cases answered
    | ok execution =>
      obtain ⟨d, same⟩ := desks
      obtain rfl := Except.ok.inj (Desk.attend_ok same)
      cases answered
      exact d.verdict_ne_attemptFailure _
  | confirmation context consent answer =>
    cases answer with
    | error fault => cases answered
    | ok verdict =>
      obtain ⟨d, same⟩ := desks
      have verdict := Except.ok.inj (Desk.attend_ok same)
      split at verdict <;> (subst verdict; cases answered; nofun)
  | exemption | credentials | methods | startMethod | verification | codeCheck => cases answered

end Bank

theorem Transcript.silent_of_kept {a : Attempt} {xs : List Bank.Exchange} {o : Outcome}
    (h : Transcript a xs o) (desks : ∀ x ∈ xs, x.IsDesks) (kept : o.status = a.status)
    (live : a.status.isTerminal = false) : o.parentStatus = none := by
  rw [← kept] at live
  cases h with
  | refused _ _ bare | exempted _ _ _ bare | identified _ _ _ bare | authenticated _ _ bare
  | deferred _ _ bare | unanswered _ _ _ _ bare | confirmedLocally _ _ _ _ _ _ _ bare =>
    exact bare.parentStatus
  | selected _ _ _ _ _ _ none | verified _ _ _ _ _ none => exact none
  | @effected x e before context answered =>
    have decided := Bank.Exchange.verdict_of_isDesks (desks x (List.mem_singleton_self x)) answered
    rw [ofEffect_status] at live
    cases verdict : e.verdict with
    | attemptFailure => exact absurd verdict decided
    | success | failure =>
      rw [verdict] at live
      cases live
  | confirmedAtBank before given spoken =>
    rcases Bank.Exchange.codeCheck_of_isDesks (desks _ (List.mem_singleton_self _)) with
      rfl | rfl <;> cases live

theorem Purpose.persist_eq {σ : Type} [Store σ] (p : Purpose) (s : σ) (a : Attempt) (o : Outcome) :
    p.persist s a o =
      ((Store.updateAuthorisation s a.authorisationId a.version (p.updateOf a o)).1.map fun _ => (),
        (Store.updateAuthorisation s a.authorisationId a.version (p.updateOf a o)).2) := by
  unfold persist
  rcases Store.updateAuthorisation s a.authorisationId a.version (p.updateOf a o) with ⟨answer, s'⟩
  cases answer <;> rfl

namespace Backend

/-- The stores have drifted apart in this authorisation. The one holds it as `a`, the other as `b`. -/
structure Parted (a b : Authorisation) (s t : Backend) : Prop where
  drift : Drift a.label (fun p q => p = a.psu ∧ q = b.psu) s t
  here : Store.authorisation s a.id = .ok (some a)
  there : Store.authorisation t a.id = .ok (some b)

/-- The stores differ at most in the version of this authorisation, in its PSU, if that is still the
one of `a` and of `b`, and in an order that was to be read from a payload. -/
def Close (a b : Authorisation) : Backend → Backend → Prop :=
  Drift a.label fun p q => p = q ∨ p = a.psu ∧ q = b.psu

theorem Parted.close {a b : Authorisation} {s t : Backend} (h : Parted a b s t) : Close a b s t :=
  h.drift.mono fun _ _ => .inr

namespace Parted

variable {a b : Authorisation} {s t : Backend} (h : Parted a b s t)
include h

theorem saved_left {order : Order} {x : Except StoreError Payment} {s' : Backend}
    (saved : Store.saveOrder s a.parentId order = (x, s'))
    (drift : Drift a.label (fun p q => p = a.psu ∧ q = b.psu) s' t) : Parted a b s' t where
  drift
  here := by
    have kept := authorisation_saveOrder s a.parentId order
    rw [saved] at kept
    rw [kept]
    exact h.here
  there := h.there

theorem saved_right {order : Order} {x : Except StoreError Payment} {t' : Backend}
    (saved : Store.saveOrder t a.parentId order = (x, t'))
    (drift : Drift a.label (fun p q => p = a.psu ∧ q = b.psu) s t') : Parted a b s t' where
  drift
  here := h.here
  there := by
    have kept := authorisation_saveOrder t a.parentId order
    rw [saved] at kept
    rw [kept]
    exact h.there

theorem findOrderedPayment (cancels : a.purpose = .cancellation) :
    StoresAlike (Parted a b) (Purpose.findOrderedPayment s a.parentId)
      (Purpose.findOrderedPayment t a.parentId) := by
  have orders := h.drift.order
  change Payment.Saved (Store.payment s a.parentId) (Store.payment t a.parentId) at orders
  unfold Purpose.findOrderedPayment
  generalize here : Store.payment s a.parentId = x at orders
  generalize there : Store.payment t a.parentId = y at orders
  cases orders with
  | same =>
    cases x with
    | error e => exact ⟨rfl, h⟩
    | ok found =>
      cases found with
      | none => exact ⟨rfl, h⟩
      | some q =>
        dsimp only
        cases raw : q.isMaterialised with
        | true => exact ⟨rfl, h⟩
        | false =>
          cases spelt : q.orderOf with
          | error e => exact ⟨rfl, h⟩
          | ok order =>
            -- The other store is first, so that the one catches up with it.
            obtain ⟨t', saved', drift⟩ := h.drift.saveOrder_right cancels here there raw spelt
            have h := h.saved_right saved' drift
            obtain ⟨s', saved, drift⟩ := h.drift.saveOrder_left cancels here (saveOrder_ok saved')
            simp only [show Store.saveOrder s a.parentId order = _ from saved,
              show Store.saveOrder t a.parentId order = _ from saved']
            exact ⟨rfl, h.saved_left saved drift⟩
  | saved raw spelt =>
    obtain ⟨s', saved, drift⟩ := h.drift.saveOrder_left cancels here there
    simp only [raw, spelt, show Store.saveOrder s a.parentId _ = _ from saved]
    exact ⟨rfl, h.saved_left saved drift⟩

theorem findParent : StoresAlike (Parted a b) (a.purpose.findParent s a.parentId)
    (a.purpose.findParent t a.parentId) := by
  cases kind : a.purpose with
  | account => exact ⟨congrArg (Except.map _) (h.drift.consent a.parentId), h⟩
  | initiation =>
    have kept : a.label.purpose ≠ .cancellation := fun cancels => nomatch kind.symm.trans cancels
    exact ⟨congrArg (Except.map _) (h.drift.payment kept a.parentId), h⟩
  | cancellation =>
    obtain ⟨answer, stores⟩ := h.findOrderedPayment kind
    exact ⟨congrArg (Except.map _) answer, stores⟩

theorem completes {c c' : Bank.Context} (own : c.authorisationId = a.id)
    (own' : c'.authorisationId = a.id) (ids : c.psu.SameIds c'.psu) (parent : Parent) :
    Purpose.completes t c' parent = Purpose.completes s c parent := by
  unfold Purpose.completes
  rw [own, own']
  split
  · rfl
  · refine (h.drift.authorisationsOf parent.id .initiation).map_eq fun xs ys drifted => ?_
    refine congrArg (fun progress => decide (progress = Progress.complete))
      (Parent.progress_alike ?_).symm
    rw [List.forall₂_map_left_iff, List.forall₂_map_right_iff]
    refine drifted.imp fun x y pair => ?_
    cases pair with
    | other off =>
      have other : ¬(x.id == a.id) = true := mt eq_of_beq off
      rw [if_neg other, if_neg other]
      exact ⟨rfl, rfl, fun _ => rfl⟩
    | own on =>
      have here : (x.id == a.id) = true := beq_iff_eq.mpr on
      rw [if_pos here, if_pos here]
      exact ⟨rfl, rfl, fun psu => (ids.isSame psu).symm⟩

end Parted

/-- The updates `u` of `a` and `v` of `b` can stand for each other: they differ in nothing but the
PSU, the attempts are made by the same one, and what is left in the stores is the same PSU as well,
or is left as it is. -/
structure Counterparts (a b : Authorisation) (u v : UpdateRequest) : Prop where
  stored : b = { a with psu := b.psu, version := b.version }
  request : v = { u with psu := v.psu }
  ids : (Attempt.of u a).psu.SameIds (Attempt.of v b).psu
  fate : (Attempt.of u a).psu = (Attempt.of v b).psu ∨
    (Attempt.of u a).psu = a.psu ∧ (Attempt.of v b).psu = b.psu

namespace Counterparts

variable {a b : Authorisation} {u v : UpdateRequest} (h : Counterparts a b u v)
include h

theorem alike : (Attempt.of u a).Alike (.of v b) := by
  have same : Attempt.of v b =
      { Attempt.of u a with psu := (Attempt.of v b).psu, version := b.version } := by
    rw [h.request, h.stored]
    rfl
  rw [same]
  exact .intro h.ids

theorem id : b.id = a.id := by
  rw [h.stored]

theorem simulates : Simulates (Parted a b) (Close a b) a.purpose (.of u a) (.of v b) where
  alike := h.alike
  parent _ _ parted := parted.findParent
  completes _ _ _ parted parent _ := parted.completes rfl h.id h.ids parent
  persist s t parted o := by
    have left : (a.purpose.updateOf (.of u a) o).psu.getD a.psu = (Attempt.of u a).psu :=
      a.updated_psu u o
    have right : (a.purpose.updateOf (.of v b) o).psu.getD b.psu = (Attempt.of v b).psu :=
      b.updated_psu v o
    have wrote : (Store.updateAuthorisation t a.id b.version
          (a.purpose.updateOf (.of v b) o)).1.map (fun _ => ()) =
        (Store.updateAuthorisation s a.id a.version
          (a.purpose.updateOf (.of u a) o)).1.map (fun _ => ()) ∧
        Close a b (Store.updateAuthorisation s a.id a.version (a.purpose.updateOf (.of u a) o)).2
          (Store.updateAuthorisation t a.id b.version (a.purpose.updateOf (.of v b) o)).2 := by
      refine parted.drift.updateAuthorisation parted.here parted.there rfl rfl ?_ ?_
        fun _ _ => .inr
      · rintro p q ⟨rfl, rfl⟩
        rw [left, right]
        exact h.fate
      · rintro p q ⟨rfl, rfl⟩
        rw [left, right]
        exact h.ids
    have id : (Attempt.of v b).authorisationId = a.id := h.id
    rw [Purpose.persist_eq, Purpose.persist_eq, id]
    exact wrote
  weaken _ _ parted := parted.close

theorem foreignPsu
    (owner : (b.psu.isEmpty || (Attempt.of v b).psu.isSame b.psu) =
      (a.psu.isEmpty || (Attempt.of u a).psu.isSame a.psu)) :
    (Attempt.of v b).foreignPsu b = (Attempt.of u a).foreignPsu a := by
  have area : (Attempt.of v b).area = (Attempt.of u a).area :=
    congrArg Purpose.area (by rw [h.stored] : b.purpose = a.purpose)
  unfold Attempt.foreignPsu
  rw [owner, area, h.id]

theorem addressed {s t : Backend} (parted : Parted a b s t) (named : u.authorisationId = a.id)
    (addressed : Addressed s u a) : Addressed t v b where
  purpose := by
    rw [h.request, h.stored]
    exact addressed.purpose
  found := by
    rw [h.request]
    exact (congrArg (Store.authorisation t) named).trans parted.there
  parent := by
    rw [h.request, h.stored]
    exact addressed.parent

variable {site site' : Site Backend} {now : Instant}

theorem update (c : Config) (sites : site.Alike (Parted a b) site')
    (named : u.authorisationId = a.id)
    (owner : Addressed site.store u a → a.isExpired now = false →
      (Attempt.of v b).foreignPsu b = (Attempt.of u a).foreignPsu a) :
    ResultAlike (Close a b) (Engine.update c now site u) (Engine.update c now site' v) :=
  Engine.update_alike c now h.simulates h.request
    ((congrArg (Store.authorisation site.store) named).trans sites.store.here)
    ((congrArg (Store.authorisation site'.store) named).trans sites.store.there) owner sites

end Counterparts

end Backend

namespace Engine

variable {c : Config} {site site' : Site Backend} {a b : Authorisation}

theorem attempt_of_named {u : UpdateRequest} (named : u.psu.isEmpty = false) (a : Authorisation) :
    (Attempt.of u a).psu = u.psu := if_neg (ne_true_of_eq_false named)

theorem attempt_of_unnamed {u : UpdateRequest} (unnamed : u.psu.isEmpty = true)
    (a : Authorisation) : (Attempt.of u a).psu = a.psu := if_pos unnamed

theorem counterparts_of_named (stored : b = { a with psu := b.psu, version := b.version })
    {v : UpdateRequest} (somebody : v.psu.isEmpty = false) : Counterparts a b v v := by
  refine ⟨stored, rfl, ?_, ?_⟩ <;> rw [attempt_of_named somebody, attempt_of_named somebody]
  · exact .refl _
  · exact .inl rfl

section
variable (sites : site.Alike (Parted a b) site')
  (stored : b = { a with psu := b.psu, version := b.version })
include sites stored

theorem update_repeats (ids : a.psu.SameIds b.psu) (later : Instant) {v : UpdateRequest}
    (named : v.authorisationId = a.id) :
    ResultAlike (Close a b) (update c later site v) (update c later site' v) := by
  have attempts : (Attempt.of v a).psu.SameIds (Attempt.of v b).psu ∧
      ((Attempt.of v a).psu = (Attempt.of v b).psu ∨
        (Attempt.of v a).psu = a.psu ∧ (Attempt.of v b).psu = b.psu) := by
    cases nobody : v.psu.isEmpty with
    | true =>
      rw [attempt_of_unnamed nobody, attempt_of_unnamed nobody]
      exact ⟨ids, .inr ⟨rfl, rfl⟩⟩
    | false =>
      rw [attempt_of_named nobody, attempt_of_named nobody]
      exact ⟨.refl _, .inl rfl⟩
  have pair : Counterparts a b v v := ⟨stored, rfl, attempts.1, attempts.2⟩
  refine pair.update c sites named fun _ _ => pair.foreignPsu ?_
  rw [ids.isEmpty, attempts.1.isSame, Psu.isSame_comm, ids.isSame, Psu.isSame_comm]

/-- What is left to the updates of an authorisation that was anonymous before and belongs to a PSU
now: that PSU need not be named any more, and everybody else is turned away. -/
structure Bound (c : Config) (site site' : Site Backend) (a b : Authorisation) : Prop where
  owner : ∀ (later : Instant) (v : UpdateRequest), v.authorisationId = a.id →
    v.psu.isSame b.psu = true →
    ResultAlike (Close a b) (update c later site v) (update c later site' v)
  unnamed : ∀ (later : Instant) (v : UpdateRequest), v.authorisationId = a.id →
    v.psu.isEmpty = true →
    ResultAlike (Close a b) (update c later site { v with psu := b.psu }) (update c later site' v)
  stranger : ∀ (later : Instant) (v : UpdateRequest), v.authorisationId = a.id →
    v.psu.isEmpty = false → v.psu.isSame b.psu = false →
    ResultAlike (Close a b) (update c later site v) (update c later site' v) ∨
      ∃ text, update c later site' v =
        (.ok ((Attempt.of v b).rejectBusiness .psuCredentialsInvalid text), site')

theorem bound_of_anonymous (anonymous : a.psu.isEmpty = true) (named : b.psu.isEmpty = false) :
    Bound c site site' a b where
  owner later v own same := by
    have somebody : v.psu.isEmpty = false := ((Psu.isSame_iff _ _).mp same).1
    have pair := counterparts_of_named stored somebody
    refine pair.update c sites own fun _ _ => pair.foreignPsu ?_
    rw [anonymous, attempt_of_named somebody, same, Bool.or_true, Bool.true_or]
  unnamed later v own nobody := by
    have first : (Attempt.of { v with psu := b.psu } a).psu = b.psu := attempt_of_named named a
    have pair : Counterparts a b { v with psu := b.psu } v := by
      refine ⟨stored, rfl, ?_, ?_⟩ <;> rw [first, attempt_of_unnamed nobody]
      · exact .refl _
      · exact .inl rfl
    refine pair.update c sites own fun _ _ => pair.foreignPsu ?_
    have same : b.psu.isSame b.psu = true := (Psu.isSame_iff _ _).mpr ⟨named, rfl, rfl⟩
    rw [anonymous, attempt_of_unnamed nobody, same, Bool.or_true, Bool.true_or]
  stranger later v own somebody other := by
    have pair := counterparts_of_named stored somebody
    by_cases served : Addressed site.store v a ∧ a.isExpired later = false
    · right
      have timely : b.isExpired later = false := by
        rw [stored]
        exact served.2
      rw [update_of_addressed c (pair.addressed sites.store own served.1) timely]
      unfold Attempt.foreignPsu
      rw [attempt_of_named somebody, named, other]
      exact ⟨_, rfl⟩
    · exact .inl (pair.update c sites own fun addressed timely =>
        absurd ⟨addressed, timely⟩ served)

end

section
variable {now : Instant} {u : UpdateRequest} {o : Outcome} {m : TppMessage}

theorem refusal_of_kept (c : Config) (addressed : Addressed site.store u a)
    (timely : a.isExpired now = false) (answered : (update c now site u).1 = .ok o)
    (error : o.error = some m) (kept : o.status = a.status) (live : a.status.isTerminal = false) :
    ∃ methods parentStatus, o = { (Attempt.of u a).reject m with methods, parentStatus } := by
  rcases refusal_or_failure c addressed timely answered error with refusal | ⟨failed, -⟩
  · exact refusal
  · rw [← kept, failed] at live
    cases live

theorem parted_of_lookup (keyed : site.store.IsKeyed) (addressed : Addressed site.store u a)
    {looked : List Operation}
    (lookup : looked = [] ∨ looked = a.purpose.lookupWrites site.store a.parentId) :
    Parted a a site.store (performed site.store looked) ∧
      (performed site.store looked = site.store ∨
        ∃ order, performed site.store looked = (Store.saveOrder site.store a.parentId order).2) := by
  have found := addressed.found
  rw [← id_of_found found] at found
  have same : Parted a a site.store site.store := ⟨.refl keyed found, found, found⟩
  have idle : Parted a a site.store (performed site.store []) ∧ (performed site.store [] = site.store ∨
      ∃ order, performed site.store [] = (Store.saveOrder site.store a.parentId order).2) :=
    ⟨same, .inl rfl⟩
  rcases lookup with rfl | rfl
  · exact idle
  · rcases a.purpose.lookupWrites_cases site.store a.parentId with
      none | ⟨q, order, cancels, payment, raw, spelt, writes⟩
    · rw [none]
      exact idle
    · rw [writes]
      obtain ⟨t, saved, drift⟩ := same.drift.saveOrder_right cancels payment payment
        (by rw [Payment.isMaterialised, raw]; rfl) spelt
      have after : performed site.store [.saveOrder a.parentId order] = t := congrArg Prod.snd saved
      rw [after]
      exact ⟨same.saved_right saved drift, .inr ⟨order, (congrArg Prod.snd saved).symm⟩⟩

theorem psu_of_owner (owner : (Attempt.of u a).foreignPsu a = none) :
    a.psu.SameIds (Attempt.of u a).psu ∨
      a.psu.isEmpty = true ∧ u.psu.isEmpty = false ∧ (Attempt.of u a).psu = u.psu := by
  cases nobody : u.psu.isEmpty with
  | true =>
    rw [attempt_of_unnamed nobody]
    exact .inl (.refl _)
  | false =>
    unfold Attempt.foreignPsu at owner
    rw [attempt_of_named nobody] at owner ⊢
    split at owner
    · next own =>
      rcases Bool.or_eq_true_iff.mp own with anonymous | same
      · exact .inr ⟨anonymous, rfl, rfl⟩
      · rw [Psu.isSame_comm] at same
        exact .inl (.of_isSame same)
    · cases owner

/-- By its own desk the bank either does what it is asked for or ends the authorisation, so a refusal
that can be repeated reports nothing about the parent. -/
theorem silent_of_unscripted (c : Config) (addressed : Addressed site.store u a)
    (timely : a.isExpired now = false) (answered : (update c now site u).1 = .ok o)
    (kept : o.status = a.status) (live : a.status.isTerminal = false)
    (unscripted : site.bank.script = {}) : o.parentStatus = none := by
  cases owner : (Attempt.of u a).foreignPsu a with
  | some m =>
    rw [update_of_addressed c addressed timely, owner] at answered
    cases answered
    rfl
  | none =>
    have admitted : Admitted site.store now u a :=
      ⟨addressed.purpose, addressed.found, addressed.parent, timely, owner⟩
    obtain ⟨o', site', conducted, -, -, -, result⟩ := update_conducted c admitted
    have desks := (turn_heard c now site u).desks unscripted
    rw [update_of_admitted admitted] at answered
    have answered := Except.ok.inj answered
    rcases result with ⟨result, -⟩ | result
    · rw [result] at answered
      subst answered
      exact conducted.transcript.silent_of_kept desks kept live
    · rw [result] at answered
      unfold record at answered
      split at answered
      · subst answered
        exact conducted.transcript.silent_of_kept desks kept live
      · split at answered
        · subst answered
          exact conducted.transcript.silent_of_kept desks kept live
        · subst answered
          rfl

/-- A refusal that reports nothing about the parent leaves the stores apart in this authorisation
alone. It belongs to the same PSU then, unless it was anonymous and the update named one. -/
theorem parted_of_refusal (c : Config) (keyed : site.store.IsKeyed)
    (addressed : Addressed site.store u a) (timely : a.isExpired now = false)
    (answered : (update c now site u).1 = .ok o) (error : o.error = some m)
    (kept : o.status = a.status) (live : a.status.isTerminal = false)
    (silent : o.parentStatus = none)
    (calm : site.store.isCalm = true ∨ m.category ≠ .persistence) :
    ∃ b, Parted a b site.store (update c now site u).2.store ∧
      b = { a with psu := b.psu, version := b.version } ∧
      (a.psu.SameIds b.psu ∨
        a.psu.isEmpty = true ∧ u.psu.isEmpty = false ∧ b.psu = u.psu) := by
  obtain ⟨methods, parentStatus, rfl⟩ :=
    refusal_of_kept c addressed timely answered error kept live
  obtain rfl : parentStatus = none := silent
  obtain ⟨o, answered', handled⟩ := update_handled c addressed timely
  obtain rfl := Except.ok.inj (answered.symm.trans answered')
  generalize (update c now site u).2 = after at handled ⊢
  generalize (update c now (noted site) u).2.store.writes = writes at handled
  generalize reject : ({ (Attempt.of u a).reject m with methods, parentStatus := none } : Outcome) = o
    at handled
  cases handled with
  | idle idle =>
    exact ⟨a, (parted_of_lookup keyed addressed (.inl rfl)).1, rfl, .inl (.refl _)⟩
  | written due lookup wrote =>
    obtain ⟨looked, saved⟩ := parted_of_lookup keyed addressed lookup
    subst reject
    have drift := looked.drift.updated keyed looked.here saved
      (Sca.Status.not_isGranted_of_live live) wrote
    have there := (updateAuthorisation_found looked.there wrote).1
    refine ⟨a.updated u { (Attempt.of u a).reject m with methods, parentStatus := none },
      ⟨drift, looked.here, there⟩, ?_, ?_⟩
    · rw [updated_of_refusal]
    · simp only [Attempt.isDue, Bool.and_eq_true, Option.isNone_iff_eq_none] at due
      rw [a.updated_psu]
      exact psu_of_owner due.1.2
  | refused due lookup wrote =>
    obtain ⟨looked, saved⟩ := parted_of_lookup keyed addressed lookup
    have failed := congrArg Outcome.error reject
    cases failed
    have calm := (lookup_touches site.store a.label lookup).1.isCalm
      (calm.resolve_right fun other => other rfl)
    rw [eq_of_refused calm wrote]
    exact ⟨a, looked, rfl, .inl (.refl _)⟩

/-- An update that was refused and left the authorisation at a status that is not terminal leaves a
store in which the authorisation has another version and perhaps another PSU, with the same ids, or
the one that the update named for an authorisation without a PSU; and the order of a payment that is
to be cancelled may have been read from its payload. With the same bank, an update that follows gets
the response that it would have got before, and leaves the same store up to these differences. If the
authorisation is bound to a PSU now, this is so for the updates of that PSU, whether they name it or
not, and all others that get as far are turned away. The refusal is to report nothing about the parent,
and not to be a failure of the store that was asked for and is used up. -/
theorem update_after_refusal (c : Config) (now : Instant) (site : Site Backend) (u : UpdateRequest)
    (a : Authorisation) (o : Outcome) (m : TppMessage) (keyed : site.store.IsKeyed)
    (found : Store.authorisation site.store u.authorisationId = .ok (some a))
    (answered : (update c now site u).1 = .ok o) (error : o.error = some m)
    (kept : o.status = a.status) (live : a.status.isTerminal = false)
    (silent : site.bank.script = {} ∨ o.parentStatus = none)
    (calm : site.store.isCalm = true ∨ m.category ≠ .persistence) :
    ∃ b, Parted a b site.store (update c now site u).2.store ∧
      (site.bank.script = {} → site.bank.Alike (update c now site u).2.bank) ∧
      ∀ bank, site.bank.Alike bank →
        let site' : Site Backend := { store := (update c now site u).2.store, bank }
        (a.psu.SameIds b.psu ∧ ∀ (later : Instant) (v : UpdateRequest),
          v.authorisationId = u.authorisationId →
          ResultAlike (Close a b) (update c later site v) (update c later site' v)) ∨
        (a.psu.isEmpty = true ∧ u.psu.isEmpty = false ∧ b.psu = u.psu ∧
          Bound c site site' a b) := by
  obtain ⟨a', addressed, timely⟩ := addressed_of_answered answered
  obtain rfl : a' = a := Option.some.inj (Except.ok.inj (addressed.found.symm.trans found))
  have id := id_of_found found
  have silent : o.parentStatus = none := silent.elim
    (silent_of_unscripted c addressed timely answered kept live) fun silent => silent
  obtain ⟨b, parted, stored, psu⟩ :=
    parted_of_refusal c keyed addressed timely answered error kept live silent calm
  refine ⟨b, parted, (turn_heard c now site u).alike, fun bank banks => ?_⟩
  have sites : site.Alike (Parted a' b) { store := (update c now site u).2.store, bank } :=
    ⟨parted, banks⟩
  rcases psu with ids | ⟨anonymous, named, bound⟩
  · exact .inl ⟨ids, fun later v own => update_repeats sites stored ids later (own.trans id.symm)⟩
  · refine .inr ⟨anonymous, named, bound, bound_of_anonymous sites stored anonymous ?_⟩
    rw [bound]
    exact named

theorem right_password_after_wrong_one :
    let site := run {} Samples.site (Samples.identified .initiation)
    let u := { UpdateRequest.toPurpose .initiation "payment" "auth1" with
      password := some ⟨"wrong"⟩ }
    let v := { u with password := some ⟨"secret"⟩ }
    ∃ (a : Authorisation) (o : Outcome) (m : TppMessage),
      (site.store.IsKeyed ∧ Store.authorisation site.store "auth1" = .ok (some a) ∧
        (update {} Samples.moment site u).1 = .ok o ∧ o.error = some m ∧ o.status = a.status ∧
        a.status.isTerminal = false ∧ site.bank.script = {} ∧ site.store.isCalm = true) ∧
      (update {} Samples.moment site v).1.map Outcome.status = .ok .psuAuthenticated ∧
      (update {} Samples.moment (update {} Samples.moment site u).2 v).1 =
        (update {} Samples.moment site v).1 := by
  intro site u v
  have sound : site.store.IsSound :=
    run_sound {} (isSound_of_isFresh rfl) (Samples.identified .initiation)
  obtain ⟨a, found, named, waiting⟩ : ∃ a, Store.authorisation site.store "auth1" = .ok (some a) ∧
      a.psu.isEmpty = false ∧ a.status = .psuIdentified := ⟨_, rfl, rfl, rfl⟩
  obtain ⟨o, m, answered, error, status⟩ : ∃ o m, (update {} Samples.moment site u).1 = .ok o ∧
      o.error = some m ∧ o.status = .psuIdentified := ⟨_, _, rfl, rfl, rfl⟩
  have kept : o.status = a.status := status.trans waiting.symm
  have live : a.status.isTerminal = false := by
    rw [waiting]
    rfl
  refine ⟨a, o, m, ⟨sound.isKeyed, found, answered, error, kept, live, rfl, rfl⟩, rfl, ?_⟩
  obtain ⟨b, -, alike, repeats⟩ := update_after_refusal {} Samples.moment site u a o m
    sound.isKeyed found answered error kept live (.inl rfl) (.inl rfl)
  rcases repeats _ (alike rfl) with ⟨-, same⟩ | ⟨anonymous, -⟩
  · exact (same Samples.moment v rfl).answer
  · rw [named] at anonymous
    cases anonymous

/-- A refusal can decide whose an authorisation is, rewrite the types of its PSU, save an order, use up
a failure of the store, and pass on what the bank reported about the parent. -/
theorem refusals_leave_traces :
    (let site := run {} Samples.site [Samples.anonymous .account "consent"]
      let u := { UpdateRequest.toPurpose .account "consent" "auth1" with
        psu := .named "berta", code := some ⟨"1"⟩ }
      let v := { UpdateRequest.toPurpose .account "consent" "auth1" with
        psu := .named "anna", password := some ⟨"secret"⟩ }
      (update {} Samples.moment site u).1.map (fun o => (o.status, o.error.isSome)) =
          .ok (.received, true) ∧
        (update {} Samples.moment site v).1.map Outcome.status = .ok .psuIdentified ∧
        (update {} Samples.moment (update {} Samples.moment site u).2 v).1.map
          (fun o => o.error.map (·.code)) = .ok (some .psuCredentialsInvalid)) ∧
    (let site := run {} Samples.site [Samples.opening .account "consent"]
      let u := { UpdateRequest.toPurpose .account "consent" "auth1" with
        psu := { id := some "anna", idType := some "EMAIL" }, code := some ⟨"1"⟩ }
      let v := UpdateRequest.toPurpose .account "consent" "auth1"
      (update {} Samples.moment site u).1.map (fun o => (o.status, o.error.isSome)) =
          .ok (.received, true) ∧
        (Store.authorisation (update {} Samples.moment site v).2.store "auth1").map
          (·.map (·.psu.idType)) = .ok (some none) ∧
        (Store.authorisation (update {} Samples.moment
          (update {} Samples.moment site u).2 v).2.store "auth1").map
            (·.map (·.psu.idType)) = .ok (some (some "EMAIL"))) ∧
    (let site : Site Backend := {
        store := .memory {
          payments := [Samples.rawBatch "payment"]
          authorisations := [.ofDraft "auth1" {
            parentId := "payment", purpose := .cancellation, approach := .redirect,
            psu := .named "anna", expiresAt := Samples.moment }] }
        bank := { desk := { isUnavailable := true } } }
      let v := UpdateRequest.toPurpose .cancellation "payment" "auth1"
      let u := { v with password := some ⟨"secret"⟩ }
      (update {} Samples.moment site u).1.map (fun o => (o.status, o.error.isSome)) =
          .ok (.received, true) ∧
        (Store.payment (update {} Samples.moment site v).2.store "payment").map
          (·.map Payment.isMaterialised) = .ok (some false) ∧
        (Store.payment (update {} Samples.moment
          (update {} Samples.moment site u).2 v).2.store "payment").map
            (·.map Payment.isMaterialised) = .ok (some true)) ∧
    (let site := run {} Samples.site [Samples.opening .account "consent",
        .failure (.nextUpdate (.database "down"))]
      let u := { UpdateRequest.toPurpose .account "consent" "auth1" with
        password := some ⟨"secret"⟩ }
      (update {} Samples.moment site u).1.map (fun o => (o.status, o.error.isSome)) =
          .ok (.received, true) ∧
        (update {} Samples.moment (update {} Samples.moment site u).2 u).1.map Outcome.status =
          .ok .psuIdentified) ∧
    (let site := run {} Samples.site (Samples.started .initiation ++
        [.bank {} { execution := [.ok ⟨.attemptFailure, .patc⟩] }])
      let u := UpdateRequest.toPurpose .initiation "payment" "auth1"
      let v := { u with code := some ⟨"1"⟩ }
      (update {} Samples.moment site u).1.map (fun o => (o.status, o.error.isSome)) =
          .ok (.started, true) ∧
        (Store.payment (update {} Samples.moment site v).2.store "payment").map
          (·.map (·.status)) = .ok (some .rcvd) ∧
        (Store.payment (update {} Samples.moment
          (update {} Samples.moment site u).2 v).2.store "payment").map
            (·.map (·.status)) = .ok (some .patc)) :=
  ⟨⟨rfl, rfl, rfl⟩, ⟨rfl, rfl, rfl⟩, ⟨by decide +kernel, rfl, by decide +kernel⟩, ⟨rfl, rfl⟩,
    ⟨rfl, rfl, rfl⟩⟩

end

end Engine

end StrongAuth
