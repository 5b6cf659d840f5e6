import StrongAuth.Proofs.Progress
import StrongAuth.Proofs.Store.Settling

set_option autoImplicit false

/-!
# Stores that drift apart in one authorisation

Let two stores differ in the version and the PSU of one authorisation, and perhaps in the order of the
payment that it is to cancel: one of them has read it from the payload already. What an update of this
authorisation asks of the stores they answer alike, and what it writes makes no further difference.
-/
namespace StrongAuth
open StrongAuth.Store

theorem Store.map_commuted {α : Type} {view f : α → α} {xs ys : List α}
    (same : ys.map view = xs.map view) (g : α → α) (seen : ∀ x, view (f x) = g (view x)) :
    (ys.map f).map view = (xs.map f).map view := by
  have through (zs : List α) : (zs.map f).map view = (zs.map view).map g := by
    rw [List.map_map, List.map_map]
    exact List.map_congr_left fun z _ => seen z
  rw [through, through, same]

/-- What one store tells of a payment may be what the other one tells with the order saved. -/
inductive Payment.Saved :
    Except StoreError (Option Payment) → Except StoreError (Option Payment) → Prop where
  | same (found : Except StoreError (Option Payment)) : Saved found found
  | saved {q : Payment} {order : Order} (raw : q.isMaterialised = false)
      (spelt : q.orderOf = .ok order) :
      Saved (.ok (some q)) (.ok (some { q with order := some order }))

theorem Payment.Saved.status {x y : Except StoreError (Option Payment)} (h : Saved x y)
    (st : Status) : Saved (x.map fun found => found.map fun q => { q with status := st })
      (y.map fun found => found.map fun q => { q with status := st }) := by
  cases h with
  | same => exact .same _
  | saved raw spelt => exact .saved raw spelt

namespace Payment.Saved

variable {y : Except StoreError (Option Payment)} {e : StoreError} {q : Payment}

theorem eq_of_error (h : Saved (.error e) y) : y = .error e := by
  cases h
  rfl

theorem eq_of_none (h : Saved (.ok none) y) : y = .ok none := by
  cases h
  rfl

theorem exists_of_some (h : Saved (.ok (some q)) y) : ∃ r, y = .ok (some r) := by
  cases h with
  | same => exact ⟨q, rfl⟩
  | saved => exact ⟨_, rfl⟩

end Payment.Saved

/-- The authorisations are the same, or they are the one with this label, in another version and
with PSUs that may stand for each other. -/
inductive Authorisation.Drifted (l : Label) (may : Psu → Psu → Prop) (a : Authorisation) :
    Authorisation → Prop where
  | other (off : a.id ≠ l.id) : a.Drifted l may a
  | own {psu : Psu} {version : Int} (on : a.id = l.id) (psus : may a.psu psu) :
      a.Drifted l may { a with psu, version }

namespace Authorisation.Drifted

variable {l : Label} {may may' : Psu → Psu → Prop} {a b : Authorisation}

theorem mono (weaker : ∀ p q, may p q → may' p q) (h : a.Drifted l may b) :
    a.Drifted l may' b := by
  cases h with
  | other off => exact .other off
  | own on psus => exact .own on (weaker _ _ psus)

theorem apply (h : a.Drifted l may b) (on : a.id = l.id) {u v : Update}
    (same : v = { u with psu := v.psu })
    (psus : ∀ p q, may p q → may' (u.psu.getD p) (v.psu.getD q)) :
    (a.apply u).Drifted l may' (b.apply v) := by
  cases h with
  | other off => exact absurd on off
  | own on first =>
    rw [same]
    exact .own on (psus _ _ first)

theorem same {α : Type} (h : a.Drifted l may b) (view : Authorisation → α)
    (blind : ∀ psu version, view { a with psu, version } = view a) : view b = view a := by
  cases h with
  | other off => rfl
  | own on psus => exact blind _ _

theorem label (h : a.Drifted l may b) : b.label = a.label :=
  h.same Authorisation.label fun _ _ => rfl

theorem conflict (h : a.Drifted l may b) : writeConflict b b.version = writeConflict a a.version :=
  h.same (fun x => writeConflict x x.version) fun _ _ => by simp only [writeConflict, if_true]

theorem isSibling (h : a.Drifted l may b) (i : String) (p : Purpose) :
    Store.isSibling i p b = Store.isSibling i p a :=
  h.same (Store.isSibling i p) fun _ _ => rfl

theorem countsLike (h : a.Drifted l Psu.SameIds b) : a.CountsLike b := by
  cases h with
  | other off => exact ⟨rfl, rfl, fun _ => rfl⟩
  | own on psus => exact ⟨rfl, rfl, fun psu => (psus.isSame psu).symm⟩

end Authorisation.Drifted

section Lists
variable {l : Label} {may may' : Psu → Psu → Prop} {xs ys : List Authorisation}

theorem siblings_drifted (h : List.Forall₂ (Authorisation.Drifted l may) xs ys) (i : String)
    (p : Purpose) : List.Forall₂ (Authorisation.Drifted l may) (xs.filter (isSibling i p))
      (ys.filter (isSibling i p)) :=
  List.rel_filter (fun _ _ drifted => iff_of_eq (congrArg (· = true) (drifted.isSibling i p).symm)) h

theorem replaced_drifted {a b : Authorisation}
    (h : List.Forall₂ (Authorisation.Drifted l may) xs ys) (drifted : a.Drifted l may' b) :
    List.Forall₂ (Authorisation.Drifted l may') (xs.map fun x => if x.id == l.id then a else x)
      (ys.map fun y => if y.id == l.id then b else y) := by
  rw [List.forall₂_map_left_iff, List.forall₂_map_right_iff]
  refine h.imp fun x y first => ?_
  cases first with
  | other off =>
    rw [if_neg (mt beq_iff_eq.mp off), if_neg (mt beq_iff_eq.mp off)]
    exact .other off
  | own here psus =>
    rw [if_pos (beq_iff_eq.mpr here), if_pos (beq_iff_eq.mpr here)]
    exact drifted

end Lists

/-- The payment, and if it is the one that the authorisation is to cancel, without its order. -/
def Payment.orderless (l : Label) (q : Payment) : Payment :=
  if l.purpose = .cancellation ∧ q.id = l.parentId then { q with order := none } else q

namespace Payment
variable {l : Label}

theorem map_orderless (kept : l.purpose ≠ .cancellation) (qs : List Payment) :
    qs.map (orderless l) = qs :=
  (List.map_congr_left fun _ _ => if_neg fun own => kept own.1).trans (List.map_id _)

theorem orderless_status (i : String) (st : Payment.Status) (q : Payment) :
    orderless l (if q.id == i then { q with status := st } else q) =
      if (orderless l q).id == i then { orderless l q with status := st } else orderless l q := by
  unfold orderless
  split <;> split <;> simp_all

theorem orderless_saved (cancels : l.purpose = .cancellation) (order : Order) (q : Payment) :
    orderless l (if q.id == l.parentId then { q with order := some order } else q) =
      orderless l q := by
  unfold orderless
  by_cases own : q.id = l.parentId <;> simp [own, cancels]

end Payment

namespace MemoryStore

theorem saveOrder_answer (s : MemoryStore) {i : String} {q : Payment}
    (found : s.findPayment i = some q) (order : Order) :
    (s.saveOrder i order).1 = .ok { q with order := some order } := by
  unfold saveOrder
  rw [found]

theorem findPayment_saveOrder (s : MemoryStore) {i : String} {q : Payment}
    (found : s.findPayment i = some q) (order : Order) :
    (s.saveOrder i order).2.findPayment i = some { q with order := some order } :=
  saveOrder_ok (Prod.ext (s.saveOrder_answer found order) rfl)

theorem authorisations_saveOrder (s : MemoryStore) {i : String} (order : Order) :
    (s.saveOrder i order).2.authorisations = s.authorisations := by
  unfold saveOrder
  split <;> rfl

theorem orderless_saveOrder (s : MemoryStore) {l : Label} (cancels : l.purpose = .cancellation)
    (order : Order) : (s.saveOrder l.parentId order).2.payments.map (Payment.orderless l) =
      s.payments.map (Payment.orderless l) := by
  unfold saveOrder
  split
  · rfl
  · rw [List.map_map]
    exact List.map_congr_left fun q _ => Payment.orderless_saved cancels order q

/-- Nothing but the version and the PSU of this authorisation, and the order of its payment if it is
for a cancellation, is different. -/
structure Drift (l : Label) (may : Psu → Psu → Prop) (s t : MemoryStore) : Prop where
  authorisations : List.Forall₂ (Authorisation.Drifted l may) s.authorisations t.authorisations
  consents : t.consents = s.consents
  payments : t.payments.map (Payment.orderless l) = s.payments.map (Payment.orderless l)
  order : Payment.Saved (.ok (s.findPayment l.parentId)) (.ok (t.findPayment l.parentId))
  failReads : t.failReads = s.failReads
  failUpdate : t.failUpdate = s.failUpdate
  failParentStatus : t.failParentStatus = s.failParentStatus

namespace Drift

variable {l : Label} {may may' : Psu → Psu → Prop} {s t : MemoryStore}

theorem mono (weaker : ∀ p q, may p q → may' p q) (h : Drift l may s t) : Drift l may' s t :=
  { h with authorisations := h.authorisations.imp fun _ _ drifted => drifted.mono weaker }

section
variable (h : Drift l may s t)
include h

theorem findAuthorisation {i : String} {a : Authorisation} (here : s.findAuthorisation i = some a) :
    ∃ b, t.findAuthorisation i = some b ∧ a.Drifted l may b := by
  have ids (x y : Authorisation) (drifted : x.Drifted l may y) : y.id = x.id :=
    congrArg Label.id drifted.label
  unfold MemoryStore.findAuthorisation at here ⊢
  rcases find?_related h.authorisations ids i with ⟨x, y, first, second, drifted⟩ | ⟨none, -⟩
  · rw [here] at first
    cases first
    exact ⟨y, second, drifted⟩
  · rw [here] at none
    cases none

theorem findConsent (i : String) : t.findConsent i = s.findConsent i := by
  rw [MemoryStore.findConsent, h.consents]
  rfl

theorem findPayment (kept : l.purpose ≠ .cancellation) (i : String) :
    t.findPayment i = s.findPayment i := by
  have payments := h.payments
  rw [Payment.map_orderless kept, Payment.map_orderless kept] at payments
  rw [MemoryStore.findPayment, payments]
  rfl

theorem isSome_findPayment :
    (t.findPayment l.parentId).isSome = (s.findPayment l.parentId).isSome := by
  have order := h.order
  generalize t.findPayment l.parentId = y at order
  generalize s.findPayment l.parentId = x at order
  cases order <;> rfl

theorem hasParent (st : Parent.Status) :
    t.hasParent l.parentId st = s.hasParent l.parentId st := by
  cases st with
  | consent st => simp only [MemoryStore.hasParent, h.findConsent]
  | payment st => simp only [MemoryStore.hasParent, h.isSome_findPayment]

theorem putPaymentStatus (st : Payment.Status) :
    Drift l may (s.putPaymentStatus l.parentId st) (t.putPaymentStatus l.parentId st) := by
  have order : Payment.Saved (.ok ((s.putPaymentStatus l.parentId st).findPayment l.parentId))
      (.ok ((t.putPaymentStatus l.parentId st).findPayment l.parentId)) := by
    simp only [findPayment_putPaymentStatus, if_true]
    exact h.order.status st
  have orders := h.order
  revert order
  unfold MemoryStore.putPaymentStatus
  cases found : s.findPayment l.parentId with
  | none =>
    rw [found] at orders
    rw [Except.ok.inj orders.eq_of_none]
    exact fun _ => h
  | some q =>
    rw [found] at orders
    obtain ⟨r, found'⟩ := orders.exists_of_some
    rw [Except.ok.inj found']
    exact fun order => { h with
      payments := map_commuted h.payments
        (fun q => if q.id == l.parentId then { q with status := st } else q)
        (Payment.orderless_status l.parentId st)
      order }

theorem putParentStatus (st : Parent.Status) :
    Drift l may (s.putParentStatus l.parentId st) (t.putParentStatus l.parentId st) := by
  cases st with
  | consent st =>
    simp only [MemoryStore.putParentStatus, putConsentStatus, h.findConsent]
    split
    · exact h
    · exact { h with consents := by rw [h.consents] }
  | payment st => exact h.putPaymentStatus st

theorem checkParentStatus (reported : Option Parent.Status) :
    (t.checkParentStatus l.parentId reported).1 = (s.checkParentStatus l.parentId reported).1 ∧
      Drift l may (s.checkParentStatus l.parentId reported).2
        (t.checkParentStatus l.parentId reported).2 := by
  unfold MemoryStore.checkParentStatus
  cases reported with
  | none => exact ⟨rfl, h⟩
  | some st =>
    simp only [h.failParentStatus, h.hasParent]
    split
    · exact ⟨rfl, { h with failParentStatus := rfl }⟩
    · exact ⟨rfl, h⟩

theorem statusByProgress (ids : ∀ p q, may p q → p.SameIds q) {a b : Authorisation}
    (drifted : a.Drifted l may b) (own : a.label = l) :
    t.statusByProgress b = s.statusByProgress a := by
  have parent : b.parentId = a.parentId := congrArg Label.parentId drifted.label
  have purpose : b.purpose = a.purpose := congrArg Label.purpose drifted.label
  have counted (p : Parent) : p.progress (t.siblings a.parentId a.purpose) =
      p.progress (s.siblings a.parentId a.purpose) :=
    (Parent.progress_alike ((siblings_drifted h.authorisations _ _).imp fun x y drifted =>
      (drifted.mono ids).countsLike)).symm
  unfold MemoryStore.statusByProgress
  rw [parent, purpose]
  dsimp only
  simp only [counted, h.findConsent]
  cases kind : a.purpose with
  | account | cancellation => rfl
  | initiation =>
    have kept : l.purpose ≠ .cancellation := by
      rw [← own]
      exact fun cancels => nomatch kind.symm.trans cancels
    simp only [h.findPayment kept]

theorem settleParent (ids : ∀ p q, may p q → p.SameIds q) {a b : Authorisation}
    (drifted : a.Drifted l may b) (own : a.label = l) :
    Drift l may (s.settleParent a) (t.settleParent b) := by
  have parent : b.parentId = a.parentId := congrArg Label.parentId drifted.label
  have status : b.status = a.status := drifted.same Authorisation.status fun _ _ => rfl
  unfold MemoryStore.settleParent
  rw [h.statusByProgress ids drifted own, parent, status]
  split
  · subst own
    exact h.putParentStatus _
  · exact h

theorem writeUpdate {a b : Authorisation} (drifted : a.Drifted l may b) (own : a.label = l)
    {u v : Authorisation.Update} (same : v = { u with psu := v.psu })
    (psus : ∀ p q, may p q → may' (u.psu.getD p) (v.psu.getD q))
    (ids : ∀ p q, may' p q → p.SameIds q) :
    Drift l may' (s.writeUpdate a u).2 (t.writeUpdate b v).2 := by
  have here : a.id = l.id := congrArg Label.id own
  have applied := drifted.apply here same psus
  have id : b.id = a.id := congrArg Label.id drifted.label
  have parent : b.parentId = a.parentId := congrArg Label.parentId drifted.label
  have reported : v.parentStatus = u.parentStatus := by rw [same]
  have advanced : Drift l may' (s.advanced a u) (t.advanced b v) := by
    refine settleParent ?_ ids applied own
    refine { h with authorisations := ?_ }
    simp only [modifyAuthorisation, id, here]
    exact replaced_drifted h.authorisations applied
  have parent' : a.parentId = l.parentId := congrArg Label.parentId own
  rw [writeUpdate_eq, writeUpdate_eq, reported, parent, parent']
  cases u.parentStatus with
  | none => exact advanced
  | some st => exact advanced.putParentStatus st

/-- Both stores accept an update that quotes the versions they hold, or refuse it alike. -/
theorem updateAuthorisation {a b : Authorisation} (here : s.findAuthorisation l.id = some a)
    (there : t.findAuthorisation l.id = some b) (own : a.label = l)
    {u v : Authorisation.Update} (same : v = { u with psu := v.psu })
    (psus : ∀ p q, may p q → may' (u.psu.getD p) (v.psu.getD q))
    (ids : ∀ p q, may p q → (u.psu.getD p).SameIds (v.psu.getD q))
    (weaker : ∀ p q, may p q → may' p q) :
    (t.updateAuthorisation l.id b.version v).1.map (fun _ => ()) =
        (s.updateAuthorisation l.id a.version u).1.map (fun _ => ()) ∧
      Drift l may' (s.updateAuthorisation l.id a.version u).2
        (t.updateAuthorisation l.id b.version v).2 := by
  obtain ⟨b', there', drifted⟩ := h.findAuthorisation here
  obtain rfl : b' = b := Option.some.inj (there'.symm.trans there)
  have rest := h.mono weaker
  have parent : b'.parentId = a.parentId := congrArg Label.parentId drifted.label
  have reported : v.parentStatus = u.parentStatus := by rw [same]
  have parent' : a.parentId = l.parentId := congrArg Label.parentId own
  unfold MemoryStore.updateAuthorisation
  rw [h.failUpdate, here, there]
  cases s.failUpdate with
  | some e => exact ⟨rfl, { rest with failUpdate := rfl }⟩
  | none =>
    dsimp only
    rw [drifted.conflict]
    cases writeConflict a a.version with
    | some e => exact ⟨rfl, rest⟩
    | none =>
      obtain ⟨answers, after⟩ := h.checkParentStatus u.parentStatus
      rw [reported, parent, parent']
      cases checked : s.checkParentStatus l.parentId u.parentStatus with
      | mk answer s₁ =>
        cases checked' : t.checkParentStatus l.parentId u.parentStatus with
        | mk answer' t₁ =>
          rw [checked, checked'] at answers after
          obtain rfl : answer' = answer := answers
          cases answer' with
          | error e => exact ⟨rfl, after.mono weaker⟩
          | ok =>
            have written : Drift l (fun p q => may' p q ∧ p.SameIds q) (s₁.writeUpdate a u).2
                (t₁.writeUpdate b' v).2 := after.writeUpdate drifted own same
              (fun p q pair => ⟨psus p q pair, ids p q pair⟩) fun _ _ => And.right
            exact ⟨rfl, written.mono fun _ _ => And.left⟩

theorem saveOrder_left (cancels : l.purpose = .cancellation) {q : Payment} {order : Order}
    (here : s.findPayment l.parentId = some q)
    (there : t.findPayment l.parentId = some { q with order := some order }) :
    Drift l may (s.saveOrder l.parentId order).2 t := by
  have saved := s.findPayment_saveOrder here order
  have payments := s.orderless_saveOrder cancels order
  have orders : Payment.Saved (.ok ((s.saveOrder l.parentId order).2.findPayment l.parentId))
      (.ok (t.findPayment l.parentId)) := by
    rw [saved, there]
    exact .same _
  revert orders payments
  unfold MemoryStore.saveOrder
  rw [here]
  exact fun payments orders => { h with payments := h.payments.trans payments.symm, order := orders }

theorem saveOrder_right (cancels : l.purpose = .cancellation) {q : Payment} {order : Order}
    (here : s.findPayment l.parentId = some q) (there : t.findPayment l.parentId = some q)
    (raw : q.isMaterialised = false) (spelt : q.orderOf = .ok order) :
    Drift l may s (t.saveOrder l.parentId order).2 := by
  have saved := t.findPayment_saveOrder there order
  have payments := t.orderless_saveOrder cancels order
  have orders : Payment.Saved (.ok (s.findPayment l.parentId))
      (.ok ((t.saveOrder l.parentId order).2.findPayment l.parentId)) := by
    rw [saved, here]
    exact .saved raw spelt
  revert orders payments
  unfold MemoryStore.saveOrder
  rw [there]
  exact fun payments orders => { h with payments := payments.trans h.payments, order := orders }

end

section
variable {a written : Authorisation} (keyed : (s.authorisations.map Authorisation.id).Nodup)
  (here : s.findAuthorisation l.id = some a)
include keyed here

theorem eq_of_keyed {x : Authorisation} (hx : x ∈ s.authorisations) (on : x.id = l.id) : x = a := by
  have found : a.id = l.id := by simpa using List.find?_some here
  exact List.inj_on_of_nodup_map keyed hx (List.mem_of_find?_eq_some here) (on.trans found.symm)

theorem refl : Drift l (fun p q => p = a.psu ∧ q = a.psu) s s where
  authorisations := by
    refine List.forall₂_same.mpr fun x hx => ?_
    by_cases on : x.id = l.id
    · obtain rfl := eq_of_keyed keyed here hx on
      exact .own on ⟨rfl, rfl⟩
    · exact .other on
  consents := rfl
  payments := rfl
  order := .same _
  failReads := rfl
  failUpdate := rfl
  failParentStatus := rfl

theorem updated (h : Drift l may s t) (same : t.authorisations = s.authorisations)
    (ungranted : a.status.isGranted = false) {psu : Option Psu} {version : Int} {t' : MemoryStore}
    (wrote : t.updateAuthorisation l.id version { status := a.status, psu } = (.ok written, t')) :
    Drift l (fun p q => p = a.psu ∧ q = psu.getD a.psu) s t' := by
  have there : t.findAuthorisation l.id = some a := by
    rw [MemoryStore.findAuthorisation, same]
    exact here
  obtain ⟨-, rfl⟩ := updateAuthorisation_written there wrote
  rw [writeUpdate_eq]
  unfold advanced MemoryStore.settleParent
  have quiet : ¬(a.apply { status := a.status, psu }).status.isGranted = true :=
    ne_true_of_eq_false ungranted
  rw [if_neg quiet]
  refine { h with authorisations := ?_ }
  simp only [modifyAuthorisation, same]
  refine List.forall₂_map_right_iff.mpr (List.forall₂_same.mpr fun x hx => ?_)
  have found : a.id = l.id := by simpa using List.find?_some here
  by_cases on : x.id = l.id
  · obtain rfl := eq_of_keyed keyed here hx on
    rw [if_pos (beq_self_eq_true _)]
    exact .own on ⟨rfl, rfl⟩
  · rw [found, if_neg (mt eq_of_beq on)]
    exact .other on

end

end Drift

end MemoryStore

inductive AuthorisationRow.Drifted (l : Label) (may : Psu → Psu → Prop) (r : AuthorisationRow) :
    AuthorisationRow → Prop where
  | other (off : r.id ≠ l.id) : r.Drifted l may r
  | own {text : String} {version : Int} {p q : Psu} (on : r.id = l.id)
      (left : TableStore.column Psu.ofJson? r.psu = .ok p)
      (right : TableStore.column Psu.ofJson? text = .ok q) (psus : may p q) :
      r.Drifted l may { r with psu := text, version }

namespace AuthorisationRow.Drifted
open TableStore

variable {l : Label} {may may' : Psu → Psu → Prop} {r q : AuthorisationRow}

theorem mono (weaker : ∀ p q, may p q → may' p q) (h : r.Drifted l may q) :
    r.Drifted l may' q := by
  cases h with
  | other off => exact .other off
  | own on left right psus => exact .own on left right (weaker _ _ psus)

theorem label (h : r.Drifted l may q) : q.label = r.label := by
  cases h <;> rfl

theorem createdAt (h : r.Drifted l may q) : q.createdAt = r.createdAt := by
  cases h <;> rfl

theorem read (h : r.Drifted l may q) : Matches (Authorisation.Drifted l may) r.read q.read := by
  cases h with
  | other off =>
    cases read : r.read with
    | error e => exact .error e
    | ok a =>
      refine .ok (.other ?_)
      rw [(id_of_read read).1]
      exact off
  | own on left right psus =>
    unfold AuthorisationRow.read
    rw [left, right]
    cases optionalColumn Sca.Method.ofJson? r.method with
    | error e => exact .error e
    | ok method =>
      cases optionalColumn Sca.Challenge.ofJson? r.challenge with
      | error e => exact .error e
      | ok challenge => exact .ok (.own on psus)

theorem apply (h : r.Drifted l may q) (on : r.id = l.id) {u v : Authorisation.Update}
    (same : v = { u with psu := v.psu })
    (psus : ∀ p q, may p q → may' (u.psu.getD p) (v.psu.getD q)) :
    (r.apply u).Drifted l may' (q.apply v) := by
  cases h with
  | other off => exact absurd on off
  | @own text version _ _ _ left right first =>
    have right' := psu_apply (r := { r with psu := text, version }) right v
    rw [same] at right' ⊢
    exact .own on (psu_apply left u) right' (psus _ _ first)

theorem insertByAge (h : r.Drifted l may q) {xs ys : List AuthorisationRow}
    (rows : List.Forall₂ (AuthorisationRow.Drifted l may) xs ys) :
    List.Forall₂ (AuthorisationRow.Drifted l may) (r.insertByAge xs) (q.insertByAge ys) := by
  induction rows with
  | nil => exact .cons h .nil
  | cons first rest ih =>
    rw [AuthorisationRow.insertByAge, AuthorisationRow.insertByAge, h.createdAt, first.createdAt]
    split
    · exact .cons h (.cons first rest)
    · exact .cons first ih

theorem oldestFirst {xs ys : List AuthorisationRow}
    (rows : List.Forall₂ (AuthorisationRow.Drifted l may) xs ys) :
    List.Forall₂ (AuthorisationRow.Drifted l may) (AuthorisationRow.oldestFirst xs)
      (AuthorisationRow.oldestFirst ys) := by
  induction rows with
  | nil => exact .nil
  | cons first _ ih => exact first.insertByAge ih

end AuthorisationRow.Drifted

def PaymentRow.orderless (l : Label) (r : PaymentRow) : PaymentRow :=
  if l.purpose = .cancellation ∧ r.id = l.parentId then { r with order := none } else r

namespace PaymentRow
variable {l : Label}

theorem map_orderless (kept : l.purpose ≠ .cancellation) (rows : List PaymentRow) :
    rows.map (orderless l) = rows :=
  (List.map_congr_left fun _ _ => if_neg fun own => kept own.1).trans (List.map_id _)

theorem orderless_status (i : String) (st : Payment.Status) (r : PaymentRow) :
    orderless l (if r.id == i then { r with status := st } else r) =
      if (orderless l r).id == i then { orderless l r with status := st } else orderless l r := by
  unfold orderless
  split <;> split <;> simp_all

theorem orderless_saved (cancels : l.purpose = .cancellation) (text : String) (r : PaymentRow) :
    orderless l (if r.id == l.parentId then { r with order := some text } else r) =
      orderless l r := by
  unfold orderless
  by_cases own : r.id = l.parentId <;> simp [own, cancels]

end PaymentRow

namespace TableStore

/-- Inside a transaction a payment takes a status if it can be read, and is read with it then. -/
theorem putParentStatus_payment (s : TableStore) (i : String) (st : Payment.Status) :
    s.putParentStatus i (.payment st) = match s.readPayment i with
      | .ok none => .error (.unknownPayment i)
      | .ok (some _) => .ok { s with
          payments := s.payments.map fun r => if r.id == i then { r with status := st } else r }
      | .error e => .error e := by
  unfold putParentStatus putPaymentStatus writePayment readPayment
  cases s.payments.find? fun r => r.id == i with
  | none => rfl
  | some r =>
    dsimp only
    rw [PaymentRow.withPsus_status_eq]
    cases r.withPsus (s.psusOf i) <;> rfl

theorem readPayment_restated {s : TableStore} {i : String} {q : Payment}
    (read : s.readPayment i = .ok (some q)) (st : Payment.Status) :
    { s with payments := s.payments.map fun r => if r.id == i then { r with status := st } else r
      : TableStore }.readPayment i = .ok (some { q with status := st }) := by
  have written : (s.writePayment i fun r => { r with status := st }).2.readPayment i = _ :=
    readPayment_writePayment (f := fun r => { r with status := st })
      (g := fun q => { q with status := st }) (fun _ => rfl)
      (fun _ _ _ built => PaymentRow.withPsus_status built st) read
  rw [Option.map_some, if_pos rfl] at written
  obtain ⟨r, row, -⟩ := readPayment_some_iff.mp read
  rw [writePayment, row] at written
  exact written

def withOrder (s : TableStore) (i : String) (order : Order) : TableStore :=
  { s with payments := s.payments.map fun r =>
      if r.id == i then { r with order := some order.toJson.write } else r }

theorem readPayment_withOrder {s : TableStore} {i : String} {q : Payment}
    (read : s.readPayment i = .ok (some q)) (order : Order) :
    (s.withOrder i order).readPayment i = .ok (some { q with order := some order }) := by
  have written : (s.writePayment i fun r => { r with order := some order.toJson.write }).2.readPayment
      i = _ := readPayment_writePayment (f := fun r => { r with order := some order.toJson.write })
    (g := fun q => { q with order := some order }) (fun _ => rfl)
    (fun _ _ _ built => PaymentRow.withPsus_order built order) read
  rw [Option.map_some, if_pos rfl] at written
  obtain ⟨r, row, -⟩ := readPayment_some_iff.mp read
  rw [writePayment, row] at written
  exact written

theorem orderless_withOrder (s : TableStore) {l : Label} (cancels : l.purpose = .cancellation)
    (order : Order) : (s.withOrder l.parentId order).payments.map (PaymentRow.orderless l) =
      s.payments.map (PaymentRow.orderless l) := by
  unfold withOrder
  rw [List.map_map]
  exact List.map_congr_left fun r _ => PaymentRow.orderless_saved cancels _ r

theorem saveOrder_eq {s : TableStore} {i : String} {q : Payment} (opened : s.isClosed = false)
    (read : s.readPayment i = .ok (some q)) (order : Order) :
    s.saveOrder i order = (.ok { q with order := some order }, s.withOrder i order) := by
  obtain ⟨r, row, built⟩ := readPayment_some_iff.mp read
  unfold saveOrder writing writePayment
  rw [if_neg (ne_true_of_eq_false opened), row]
  exact Prod.ext (PaymentRow.withPsus_order built order) rfl

theorem authorisations_saveOrder {s : TableStore} (opened : s.isClosed = false) {i : String}
    (order : Order) : (s.saveOrder i order).2.authorisations = s.authorisations := by
  unfold saveOrder writing
  rw [if_neg (ne_true_of_eq_false opened)]
  exact (s.writePayment_frame _ _).2.1

/-- Nothing but the version and the PSU of this authorisation, and the order of its payment if it is
for a cancellation, is different. -/
structure Drift (l : Label) (may : Psu → Psu → Prop) (s t : TableStore) : Prop where
  authorisations : List.Forall₂ (AuthorisationRow.Drifted l may) s.authorisations t.authorisations
  consents : t.consents = s.consents
  payments : t.payments.map (PaymentRow.orderless l) = s.payments.map (PaymentRow.orderless l)
  order : Payment.Saved (s.readPayment l.parentId) (t.readPayment l.parentId)
  psus : t.psus = s.psus
  isClosed : t.isClosed = s.isClosed
  database : t.toDatabase = s.toDatabase

theorem reading_ok {α : Type} {s : TableStore} {x : Except StoreError α} {a : α}
    (h : s.reading x = .ok a) : s.isClosed = false ∧ x = .ok a := by
  unfold reading at h
  split at h
  · cases h
  · next opened => exact ⟨eq_false_of_ne_true opened, h⟩

theorem Matches.mapM {α β : Type} {related : α → α → Prop} {related' : β → β → Prop} {xs ys : List α}
    {f : α → Except StoreError β} (h : List.Forall₂ related xs ys)
    (each : ∀ x y, related x y → Matches related' (f x) (f y)) :
    Matches (List.Forall₂ related') (xs.mapM f) (ys.mapM f) := by
  induction h with
  | nil => exact .ok .nil
  | cons first rest ih =>
    rw [List.mapM_cons, List.mapM_cons]
    exact (each _ _ first).bind fun a b read => ih.bind fun as bs others => .ok (.cons read others)

theorem Matches.map_eq {α β : Type} {related : α → α → Prop} {x y : Except StoreError α}
    {f g : α → β} (h : Matches related x y) (alike : ∀ a b, related a b → g b = f a) :
    (do let b ← y; return g b) = (do let a ← x; return f a) := by
  cases h with
  | error e => rfl
  | ok results => exact congrArg Except.ok (alike _ _ results)

namespace Drift

variable {l : Label} {may may' : Psu → Psu → Prop} {s t : TableStore}

theorem mono (weaker : ∀ p q, may p q → may' p q) (h : Drift l may s t) : Drift l may' s t :=
  { h with authorisations := h.authorisations.imp fun _ _ drifted => drifted.mono weaker }

section
variable (h : Drift l may s t)
include h

theorem psusOf (i : String) : t.psusOf i = s.psusOf i := by
  simp only [TableStore.psusOf, h.psus]

theorem readConsent (i : String) : t.readConsent i = s.readConsent i := by
  simp only [TableStore.readConsent, h.consents, h.psusOf]

theorem readPayment (kept : l.purpose ≠ .cancellation) (i : String) :
    t.readPayment i = s.readPayment i := by
  have payments := h.payments
  rw [PaymentRow.map_orderless kept, PaymentRow.map_orderless kept] at payments
  simp only [TableStore.readPayment, payments, h.psusOf]

theorem readSiblings (i : String) (p : Purpose) : Matches
    (List.Forall₂ (Authorisation.Drifted l may)) (s.readSiblings i p) (t.readSiblings i p) := by
  refine Matches.mapM (AuthorisationRow.Drifted.oldestFirst
    (List.rel_filter (fun x y drifted => ?_) h.authorisations)) fun _ _ drifted => drifted.read
  have parent : y.parentId = x.parentId := congrArg Label.parentId drifted.label
  have purpose : y.purpose = x.purpose := congrArg Label.purpose drifted.label
  simp only [parent, purpose]

theorem statusByProgress (ids : ∀ p q, may p q → p.SameIds q) {a b : Authorisation}
    (drifted : a.Drifted l may b) (own : a.label = l) :
    t.statusByProgress b = s.statusByProgress a := by
  have parent : b.parentId = a.parentId := congrArg Label.parentId drifted.label
  have purpose : b.purpose = a.purpose := congrArg Label.purpose drifted.label
  have siblings := h.readSiblings a.parentId a.purpose
  have counted (p : Parent) (x y : List Authorisation)
      (drifted : List.Forall₂ (Authorisation.Drifted l may) x y) : p.progress y = p.progress x :=
    (Parent.progress_alike (drifted.imp fun _ _ own => (own.mono ids).countsLike)).symm
  unfold TableStore.statusByProgress
  rw [parent, purpose, h.readConsent]
  cases kind : a.purpose with
  | cancellation => rfl
  | account =>
    rw [kind] at siblings
    dsimp only
    split
    · rfl
    · exact siblings.map_eq fun x y drifted => by rw [counted _ x y drifted]
  | initiation =>
    have kept : l.purpose ≠ .cancellation := by
      rw [← own]
      exact fun cancels => nomatch kind.symm.trans cancels
    rw [kind] at siblings
    rw [h.readPayment kept]
    refine bind_congr fun found => ?_
    cases found with
    | none => rfl
    | some q => exact siblings.map_eq fun x y drifted => by rw [counted _ x y drifted]

theorem putPaymentStatus (st : Payment.Status) : Matches (Drift l may)
    (s.putParentStatus l.parentId (.payment st)) (t.putParentStatus l.parentId (.payment st)) := by
  have payments := map_commuted h.payments
    (fun r => if r.id == l.parentId then { r with status := st } else r)
    (PaymentRow.orderless_status l.parentId st)
  have written {q r : Payment} (read : s.readPayment l.parentId = .ok (some q))
      (read' : t.readPayment l.parentId = .ok (some r)) : Drift l may
        { s with payments := s.payments.map fun r =>
            if r.id == l.parentId then { r with status := st } else r }
        { t with payments := t.payments.map fun r =>
            if r.id == l.parentId then { r with status := st } else r } := by
    have orders := h.order.status st
    rw [read, read'] at orders
    exact { h with
      payments
      order := by rwa [readPayment_restated read st, readPayment_restated read' st] }
  have orders := h.order
  rw [putParentStatus_payment, putParentStatus_payment]
  cases read : s.readPayment l.parentId with
  | error e =>
    rw [read] at orders
    rw [orders.eq_of_error]
    exact .error e
  | ok found =>
    rw [read] at orders
    cases found with
    | none =>
      rw [orders.eq_of_none]
      exact .error _
    | some q =>
      obtain ⟨r, read'⟩ := orders.exists_of_some
      rw [read']
      exact .ok (written read read')

theorem putParentStatus (st : Parent.Status) : Matches (Drift l may)
    (s.putParentStatus l.parentId st) (t.putParentStatus l.parentId st) := by
  cases st with
  | payment st => exact h.putPaymentStatus st
  | consent st =>
    simp only [TableStore.putParentStatus, putConsentStatus, writeConsent, h.consents]
    cases s.consents.find? fun r => r.id == l.parentId with
    | none => exact .error _
    | some r => exact .ok { h with consents := rfl }

theorem putOptionalStatus (reported : Option Parent.Status) : Matches (Drift l may)
    (s.putOptionalStatus l.parentId reported) (t.putOptionalStatus l.parentId reported) := by
  cases reported with
  | none => exact .ok h
  | some st => exact h.putParentStatus st

theorem settleParent (ids : ∀ p q, may p q → p.SameIds q) {a b : Authorisation}
    (drifted : a.Drifted l may b) (own : a.label = l) :
    Matches (Drift l may) (s.settleParent a) (t.settleParent b) := by
  have parent : b.parentId = a.parentId := congrArg Label.parentId drifted.label
  have status : b.status = a.status := drifted.same Authorisation.status fun _ _ => rfl
  unfold TableStore.settleParent
  rw [h.statusByProgress ids drifted own, parent, status]
  split
  · cases s.statusByProgress a with
    | error e => exact .error e
    | ok due =>
      subst own
      exact h.putOptionalStatus due
  · exact .ok h

theorem modifyRow {u v : Authorisation.Update} (same : v = { u with psu := v.psu })
    (psus : ∀ p q, may p q → may' (u.psu.getD p) (v.psu.getD q)) :
    Drift l may' (s.modifyRow l.id fun r => r.apply u) (t.modifyRow l.id fun r => r.apply v) := by
  refine { h with authorisations := ?_ }
  refine List.forall₂_map_left_iff.mpr (List.forall₂_map_right_iff.mpr
    (h.authorisations.imp fun x y drifted => ?_))
  have id : y.id = x.id := congrArg Label.id drifted.label
  rw [id]
  split
  · next on => exact drifted.apply (eq_of_beq on) same psus
  · next off =>
    cases drifted with
    | other other => exact .other other
    | own on => exact absurd (beq_iff_eq.mpr on) off

theorem transact {a b : Authorisation} (here : s.readAuthorisation l.id = .ok (some a))
    (there : t.readAuthorisation l.id = .ok (some b)) (own : a.label = l)
    {u v : Authorisation.Update} (same : v = { u with psu := v.psu })
    (psus : ∀ p q, may p q → may' (u.psu.getD p) (v.psu.getD q))
    (ids : ∀ p q, may' p q → p.SameIds q) :
    Matches (fun x y => Drift l may' x.2 y.2) (s.transact l.id a.version u)
      (t.transact l.id b.version v) := by
  have keys (x y : AuthorisationRow) (drifted : x.Drifted l may y) : y.id = x.id :=
    congrArg Label.id drifted.label
  have rewritten := h.modifyRow same psus
  have reported : v.parentStatus = u.parentStatus := by rw [same]
  unfold readAuthorisation at here there
  unfold TableStore.transact
  rcases find?_related h.authorisations keys l.id with ⟨r, q, row, row', drifted⟩ | ⟨none, -⟩
  · rw [row] at here ⊢
    rw [row'] at there ⊢
    obtain ⟨a', read, same'⟩ := map_eq_ok here
    obtain rfl := Option.some.inj same'
    obtain ⟨b', read', same'⟩ := map_eq_ok there
    obtain rfl := Option.some.inj same'
    have on : r.id = l.id := by simpa using List.find?_some row
    have label : r.label = l := (label_of_read read).symm.trans own
    have reread := (drifted.apply on same psus).read
    have drifted := drifted.read
    dsimp only
    rw [read, read'] at drifted ⊢
    have conflict : writeConflict b' b'.version = writeConflict a' a'.version := by
      cases drifted with
      | ok drifted => exact drifted.conflict
    dsimp only [bind, Except.bind]
    rw [conflict]
    cases writeConflict a' a'.version with
    | some e => exact .error e
    | none =>
      dsimp only
      generalize written : (r.apply u).read = x at reread
      generalize (q.apply v).read = y at reread
      cases reread with
      | error e => exact .error e
      | @ok a₁ b₁ drifted =>
        have own₁ : a₁.label = l := (label_of_read written).trans label
        have parent : a₁.parentId = l.parentId := congrArg Label.parentId own₁
        have parent' : b₁.parentId = l.parentId := by
          rw [← parent]
          exact congrArg Label.parentId drifted.label
        dsimp only
        rw [reported, parent, parent']
        refine (rewritten.settleParent ids drifted own₁).bind fun s₁ t₁ settled => ?_
        exact (settled.putOptionalStatus _).bind fun s₂ t₂ after => .ok after
  · rw [none] at here
    cases here

theorem reading {α : Type} {x y : Except StoreError α} (same : y = x) :
    t.reading y = s.reading x := by
  rw [TableStore.reading, TableStore.reading, h.isClosed, same]

theorem updateAuthorisation {a b : Authorisation}
    (here : s.readAuthorisation l.id = .ok (some a))
    (there : t.readAuthorisation l.id = .ok (some b)) (own : a.label = l)
    {u v : Authorisation.Update} (same : v = { u with psu := v.psu })
    (psus : ∀ p q, may p q → may' (u.psu.getD p) (v.psu.getD q))
    (ids : ∀ p q, may p q → (u.psu.getD p).SameIds (v.psu.getD q))
    (weaker : ∀ p q, may p q → may' p q) :
    (t.updateAuthorisation l.id b.version v).1.map (fun _ => ()) =
        (s.updateAuthorisation l.id a.version u).1.map (fun _ => ()) ∧
      Drift l may' (s.updateAuthorisation l.id a.version u).2
        (t.updateAuthorisation l.id b.version v).2 := by
  have transacted : Matches (fun x y => Drift l (fun p q => may' p q ∧ p.SameIds q) x.2 y.2)
      (s.transact l.id a.version u) (t.transact l.id b.version v) :=
    h.transact here there own same (fun p q pair => ⟨psus p q pair, ids p q pair⟩)
      fun _ _ => And.right
  unfold TableStore.updateAuthorisation TableStore.writing
  rw [h.isClosed]
  split
  · exact ⟨rfl, h.mono weaker⟩
  · generalize s.transact l.id a.version u = x at transacted ⊢
    generalize t.transact l.id b.version v = y at transacted ⊢
    cases transacted with
    | error e => exact ⟨rfl, h.mono weaker⟩
    | ok after => exact ⟨rfl, after.mono fun _ _ => And.left⟩

theorem saveOrder_left (cancels : l.purpose = .cancellation) {q : Payment} {order : Order}
    (here : s.readPayment l.parentId = .ok (some q))
    (there : t.readPayment l.parentId = .ok (some { q with order := some order })) :
    Drift l may (s.withOrder l.parentId order) t :=
  { h with
    payments := h.payments.trans (s.orderless_withOrder cancels order).symm
    order := by
      rw [readPayment_withOrder here, there]
      exact .same _ }

theorem saveOrder_right (cancels : l.purpose = .cancellation) {q : Payment} {order : Order}
    (here : s.readPayment l.parentId = .ok (some q))
    (there : t.readPayment l.parentId = .ok (some q)) (raw : q.isMaterialised = false)
    (spelt : q.orderOf = .ok order) : Drift l may s (t.withOrder l.parentId order) :=
  { h with
    payments := (t.orderless_withOrder cancels order).trans h.payments
    order := by
      rw [readPayment_withOrder there, here]
      exact .saved raw spelt }

end

section
variable {a written : Authorisation} (keyed : (s.authorisations.map AuthorisationRow.id).Nodup)
  (here : s.readAuthorisation l.id = .ok (some a))
include keyed here

theorem read_of_keyed {r : AuthorisationRow} (hr : r ∈ s.authorisations) (on : r.id = l.id) :
    r.read = .ok a := by
  unfold readAuthorisation at here
  split at here
  · cases here
  · next q row =>
    obtain ⟨b, read, same⟩ := map_eq_ok here
    obtain rfl := Option.some.inj same
    have found : q.id = l.id := by simpa using List.find?_some row
    rwa [List.inj_on_of_nodup_map keyed hr (List.mem_of_find?_eq_some row) (on.trans found.symm)]

theorem refl : Drift l (fun p q => p = a.psu ∧ q = a.psu) s s where
  authorisations := by
    refine List.forall₂_same.mpr fun r hr => ?_
    by_cases on : r.id = l.id
    · obtain ⟨psu, -, -, read, -, -, rfl⟩ := AuthorisationRow.read_ok_iff.mp
        (read_of_keyed keyed here hr on)
      exact .own on read read ⟨rfl, rfl⟩
    · exact .other on
  consents := rfl
  payments := rfl
  order := .same _
  psus := rfl
  isClosed := rfl
  database := rfl

theorem updated (h : Drift l may s t) (same : t.authorisations = s.authorisations)
    (ungranted : a.status.isGranted = false) {psu : Option Psu} {version : Int} {t' : TableStore}
    (wrote : t.transact l.id version { status := a.status, psu } = .ok (written, t')) :
    Drift l (fun p q => p = a.psu ∧ q = psu.getD a.psu) s t' := by
  have there : t.readAuthorisation l.id = .ok (some a) := by
    rw [readAuthorisation, same]
    exact here
  obtain ⟨r, t₁, row, read, reread, settled, put⟩ := transact_written there wrote
  cases put
  unfold TableStore.settleParent at settled
  have quiet : ¬(a.apply { status := a.status, psu }).status.isGranted = true :=
    ne_true_of_eq_false ungranted
  rw [if_neg quiet] at settled
  cases settled
  refine { h with authorisations := ?_ }
  simp only [TableStore.modifyRow, same]
  refine List.forall₂_map_right_iff.mpr (List.forall₂_same.mpr fun x hx => ?_)
  by_cases on : x.id = l.id
  · obtain ⟨first, -, -, left, -, -, rfl⟩ := AuthorisationRow.read_ok_iff.mp
      (read_of_keyed keyed here hx on)
    rw [if_pos (beq_iff_eq.mpr on)]
    exact .own on left (AuthorisationRow.psu_apply left { status := x.status, psu }) ⟨rfl, rfl⟩
  · rw [if_neg (mt eq_of_beq on)]
    exact .other on

end

end Drift

end TableStore

namespace Backend

variable {l : Label} {may may' : Psu → Psu → Prop} {s t : Backend}

/-- Nothing but the version and the PSU of this authorisation, and the order of its payment if it is
for a cancellation, is different. -/
inductive Drift (l : Label) (may : Psu → Psu → Prop) : Backend → Backend → Prop where
  | memory {s t : MemoryStore} (h : s.Drift l may t) : Drift l may (.memory s) (.memory t)
  | tables {s t : TableStore} (h : s.Drift l may t) : Drift l may (.tables s) (.tables t)

namespace Drift

theorem mono (weaker : ∀ p q, may p q → may' p q) (h : Drift l may s t) : Drift l may' s t := by
  cases h with
  | memory h => exact .memory (h.mono weaker)
  | tables h => exact .tables (h.mono weaker)

section
variable (h : Drift l may s t)
include h

theorem consent (i : String) : Store.consent t i = Store.consent s i := by
  cases h with
  | memory h => exact congrArg Except.ok (h.findConsent i)
  | tables h => exact h.reading (congrArg Except.ok (h.readConsent i))

theorem payment (kept : l.purpose ≠ .cancellation) (i : String) :
    Store.payment t i = Store.payment s i := by
  cases h with
  | memory h => exact congrArg Except.ok (h.findPayment kept i)
  | tables h => exact h.reading (h.readPayment kept i)

theorem order : Payment.Saved (Store.payment s l.parentId) (Store.payment t l.parentId) := by
  cases h with
  | memory h => exact h.order
  | @tables s t h =>
    change Payment.Saved (s.reading (s.readPayment l.parentId)) (t.reading (t.readPayment l.parentId))
    unfold TableStore.reading
    rw [h.isClosed]
    split
    · exact .same _
    · exact h.order

theorem authorisationsOf (i : String) (p : Purpose) : TableStore.Matches
    (List.Forall₂ (Authorisation.Drifted l may)) (Store.authorisationsOf s i p)
    (Store.authorisationsOf t i p) := by
  cases h with
  | @memory s t h =>
    change TableStore.Matches _ (s.authorisationsOf i p) (t.authorisationsOf i p)
    unfold MemoryStore.authorisationsOf
    rw [h.failReads]
    split
    · exact .error _
    · exact .ok (siblings_drifted h.authorisations i p)
  | @tables s t h =>
    change TableStore.Matches _ (s.reading (s.readSiblings i p)) (t.reading (t.readSiblings i p))
    unfold TableStore.reading
    rw [h.isClosed]
    split
    · exact .error _
    · exact h.readSiblings i p

theorem updateAuthorisation {a b : Authorisation}
    (here : Store.authorisation s l.id = .ok (some a))
    (there : Store.authorisation t l.id = .ok (some b)) (own : a.label = l)
    {u v : Authorisation.Update} (same : v = { u with psu := v.psu })
    (psus : ∀ p q, may p q → may' (u.psu.getD p) (v.psu.getD q))
    (ids : ∀ p q, may p q → (u.psu.getD p).SameIds (v.psu.getD q))
    (weaker : ∀ p q, may p q → may' p q) :
    (Store.updateAuthorisation t l.id b.version v).1.map (fun _ => ()) =
        (Store.updateAuthorisation s l.id a.version u).1.map (fun _ => ()) ∧
      Drift l may' (Store.updateAuthorisation s l.id a.version u).2
        (Store.updateAuthorisation t l.id b.version v).2 := by
  cases h with
  | memory h =>
    obtain ⟨answer, after⟩ := h.updateAuthorisation (authorisation?_of_ok here)
      (authorisation?_of_ok there) own same psus ids weaker
    exact ⟨answer, .memory after⟩
  | tables h =>
    obtain ⟨answer, after⟩ := h.updateAuthorisation (TableStore.reading_ok here).2
      (TableStore.reading_ok there).2 own same psus ids weaker
    exact ⟨answer, .tables after⟩

theorem saveOrder_left (cancels : l.purpose = .cancellation) {q : Payment} {order : Order}
    (here : Store.payment s l.parentId = .ok (some q))
    (there : Store.payment t l.parentId = .ok (some { q with order := some order })) :
    ∃ s', Store.saveOrder s l.parentId order = (.ok { q with order := some order }, s') ∧
      Drift l may s' t := by
  cases h with
  | @memory s t h =>
    have found := Except.ok.inj here
    exact ⟨.memory (s.saveOrder l.parentId order).2,
      Prod.ext (s.saveOrder_answer found order) rfl,
      .memory (h.saveOrder_left cancels found (Except.ok.inj there))⟩
  | @tables s t h =>
    obtain ⟨opened, read⟩ := TableStore.reading_ok here
    exact ⟨.tables (s.withOrder l.parentId order),
      congrArg (Prod.map id Backend.tables) (TableStore.saveOrder_eq opened read order),
      .tables (h.saveOrder_left cancels read (TableStore.reading_ok there).2)⟩

theorem saveOrder_right (cancels : l.purpose = .cancellation) {q : Payment} {order : Order}
    (here : Store.payment s l.parentId = .ok (some q))
    (there : Store.payment t l.parentId = .ok (some q)) (raw : q.isMaterialised = false)
    (spelt : q.orderOf = .ok order) :
    ∃ t', Store.saveOrder t l.parentId order = (.ok { q with order := some order }, t') ∧
      Drift l may s t' := by
  cases h with
  | @memory s t h =>
    have found := Except.ok.inj there
    exact ⟨.memory (t.saveOrder l.parentId order).2,
      Prod.ext (t.saveOrder_answer found order) rfl,
      .memory (h.saveOrder_right cancels (Except.ok.inj here) found raw spelt)⟩
  | @tables s t h =>
    obtain ⟨opened, read⟩ := TableStore.reading_ok there
    exact ⟨.tables (t.withOrder l.parentId order),
      congrArg (Prod.map id Backend.tables) (TableStore.saveOrder_eq opened read order),
      .tables (h.saveOrder_right cancels (TableStore.reading_ok here).2 read raw spelt)⟩

end

section
variable {a written : Authorisation} (keyed : s.IsKeyed)
  (here : Store.authorisation s l.id = .ok (some a))
include keyed here

theorem refl : Drift l (fun p q => p = a.psu ∧ q = a.psu) s s := by
  cases s with
  | memory s =>
    rw [IsKeyed, labels, List.map_map] at keyed
    exact .memory (.refl keyed (authorisation?_of_ok here))
  | tables s =>
    rw [IsKeyed, labels, List.map_map] at keyed
    exact .tables (.refl keyed (TableStore.reading_ok here).2)

/-- The other store, where an order may have been saved, takes an update that leaves the status as it
is. -/
theorem updated (h : Drift l may s t)
    (looked : t = s ∨ ∃ order, t = (Store.saveOrder s l.parentId order).2)
    (ungranted : a.status.isGranted = false) {psu : Option Psu} {version : Int} {t' : Backend}
    (wrote : Store.updateAuthorisation t l.id version { status := a.status, psu } =
      (.ok written, t')) : Drift l (fun p q => p = a.psu ∧ q = psu.getD a.psu) s t' := by
  cases h with
  | @memory s t h =>
    rw [IsKeyed, labels, List.map_map] at keyed
    have same : t.authorisations = s.authorisations := by
      rcases looked with same | ⟨order, saved⟩
      · rw [memory.inj same]
      · rw [memory.inj saved]
        exact s.authorisations_saveOrder order
    obtain ⟨t', rfl, inner⟩ := onWrite_memory wrote
    exact .memory (.updated keyed (authorisation?_of_ok here) h same ungranted inner)
  | @tables s t h =>
    rw [IsKeyed, labels, List.map_map] at keyed
    obtain ⟨opened, read⟩ := TableStore.reading_ok here
    have same : t.authorisations = s.authorisations := by
      rcases looked with same | ⟨order, saved⟩
      · rw [tables.inj same]
      · rw [tables.inj saved]
        exact TableStore.authorisations_saveOrder opened order
    obtain ⟨t', rfl, inner⟩ := onWrite_tables wrote
    have transacted := TableStore.transact_of_updateAuthorisation inner
    exact .tables (.updated keyed read h same ungranted transacted)

end

end Drift

end Backend

end StrongAuth
