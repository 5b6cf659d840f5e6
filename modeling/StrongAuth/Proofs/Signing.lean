import StrongAuth.Proofs.Engine.Routes
import StrongAuth.Proofs.Evidence
import StrongAuth.Proofs.Progress
import StrongAuth.Proofs.SingleGrant

set_option autoImplicit false

namespace StrongAuth
open StrongAuth.Calendar StrongAuth.Backend

namespace Backend

/-- An authorisation of the initiation of this payment was granted to this PSU. -/
def IsSignedBy (b : Backend) (i : String) (psu : Psu) : Prop :=
  ∃ a ∈ b.records, a.isGrantFor .initiation i = true ∧ a.psu.isSame psu = true

def SignedByAll (b : Backend) (i : String) (psus : List Psu) : Prop :=
  ∀ psu ∈ psus, b.IsSignedBy i psu

end Backend

/-- The authorisation as it will be once the one of the context is finalised. -/
def Bank.Context.anticipate (c : Bank.Context) (a : Authorisation) : Authorisation :=
  if a.id == c.authorisationId then { a with status := .finalised, psu := c.psu } else a

namespace Bank.Context

variable {c : Bank.Context} {a : Authorisation}

theorem anticipate_own (own : a.id = c.authorisationId) :
    c.anticipate a = { a with status := .finalised, psu := c.psu } := by
  rw [anticipate, own, beq_self_eq_true, if_pos rfl]

theorem anticipate_other (other : a.id ≠ c.authorisationId) : c.anticipate a = a := by
  rw [anticipate, beq_eq_false_iff_ne.mpr other]
  rfl

end Bank.Context

namespace Purpose

variable {b b' : Backend} {i : String} {context : Bank.Context} {parent : Parent} {q : Payment}

theorem findParent_initiation (h : Purpose.initiation.findParent b i = (.ok (some parent), b')) :
    b' = b ∧ ∃ q, parent = .payment q ∧ Store.payment b i = .ok (some q) := by
  obtain ⟨answer, same⟩ := Prod.mk.inj h
  obtain ⟨found, read, e⟩ := Store.map_eq_ok answer
  obtain ⟨q, rfl, rfl⟩ := Option.map_eq_some_iff.mp e
  exact ⟨same.symm, q, rfl, read⟩

theorem completes_of_isReady (h : Purpose.initiation.isReady b context (.payment q) = true) :
    completes b context (.payment q) = .ok true := by
  simp only [isReady, Bool.and_eq_true, beq_iff_eq] at h
  cases answer : completes b context (.payment q) with
  | error e =>
    rw [answer] at h
    cases h.1
  | ok all =>
    rw [answer] at h
    cases h.1
    rfl

theorem multilevel_of_incomplete (h : completes b context parent = .ok false) :
    parent.multilevel = true := by
  unfold completes at h
  cases single : parent.multilevel with
  | true => rfl
  | false =>
    rw [single] at h
    cases h

theorem mem_granted_anticipated {n : Nat} {a : Authorisation} (there : b.records[n]? = some a)
    (sibling : Store.isSibling q.id .initiation a = true) (about : context.authorisationId = a.id) :
    context.anticipate a ∈
      (Parent.payment q).granted ((b.siblings q.id .initiation).map context.anticipate) := by
  have own : a ∈ b.siblings q.id .initiation :=
    List.mem_filter.mpr ⟨List.mem_of_getElem? there, sibling⟩
  refine List.mem_filter.mpr ⟨List.mem_map_of_mem own, ?_⟩
  rw [Store.isSibling, Bool.and_eq_true] at sibling
  rw [Bank.Context.anticipate_own about.symm, Bool.and_eq_true]
  exact ⟨sibling.1, rfl⟩

theorem exists_granted_anticipated {n : Nat} {a : Authorisation} {psu : Psu} (sound : b.IsSound)
    (there : b.records[n]? = some a) (sibling : Store.isSibling q.id .initiation a = true)
    (live : a.status.isTerminal = false) (about : context.authorisationId = a.id) :
    (∃ d ∈ (Parent.payment q).granted ((b.siblings q.id .initiation).map context.anticipate),
      d.psu.isSame psu = true) ↔ context.psu.isSame psu = true ∨ b.IsSignedBy q.id psu := by
  constructor
  · rintro ⟨d, hd, same⟩
    obtain ⟨hd, grant⟩ := List.mem_filter.mp hd
    obtain ⟨e, he, rfl⟩ := List.mem_map.mp hd
    obtain ⟨member, child⟩ := List.mem_filter.mp he
    by_cases own : e.id = context.authorisationId
    · rw [Bank.Context.anticipate_own own] at same
      exact .inl same
    · rw [Bank.Context.anticipate_other own] at same grant
      rw [Bool.and_eq_true] at grant
      exact .inr ⟨e, member, by rw [Authorisation.isGrantFor, child, grant.2]; rfl, same⟩
  · rintro (same | ⟨e, he, grant, same⟩)
    · refine ⟨_, mem_granted_anticipated there sibling about, ?_⟩
      rw [Bank.Context.anticipate_own about.symm]
      exact same
    · -- What was granted is not live, so it is stored as it will be.
      have other : e.id ≠ context.authorisationId := by
        rw [about]
        intro together
        obtain ⟨k, hk⟩ := List.getElem?_of_mem he
        obtain rfl := sound.distinct.unique hk there together
        obtain rfl := Option.some.inj (hk.symm.trans there)
        rw [Authorisation.terminal_of_isGrantFor grant] at live
        cases live
      rw [Authorisation.isGrantFor, Bool.and_eq_true] at grant
      have member : e ∈ b.siblings q.id .initiation := List.mem_filter.mpr ⟨he, grant.1⟩
      refine ⟨e, List.mem_filter.mpr ⟨?_, ?_⟩, same⟩
      · rw [← Bank.Context.anticipate_other other]
        exact List.mem_map_of_mem member
      · have child := grant.1
        rw [Store.isSibling, Bool.and_eq_true] at child
        rw [Bool.and_eq_true]
        exact ⟨child.1, grant.2⟩

theorem completes_eq {all : Bool} (several : q.multilevel = true)
    (answer : completes b context (.payment q) = .ok all) :
    ∃ l, Store.authorisationsOf b q.id .initiation = .ok l ∧
      all = decide ((Parent.payment q).progress (l.map context.anticipate) = .complete) := by
  unfold completes at answer
  simp only [Parent.multilevel, several, Bool.not_true, Bool.false_eq_true, if_false] at answer
  obtain ⟨l, read, answer⟩ := Store.bind_eq_ok answer
  exact ⟨l, read, (Except.ok.inj answer).symm⟩

/-- The question that is asked before the write: everybody has signed, if the authorisation that is
about to be finalised is counted. -/
theorem completes_iff {n : Nat} {a : Authorisation} {all : Bool} (sound : b.IsSound)
    (there : b.records[n]? = some a) (sibling : Store.isSibling i .initiation a = true)
    (live : a.status.isTerminal = false) (found : Store.payment b i = .ok (some q))
    (several : q.multilevel = true) (about : context.authorisationId = a.id)
    (answer : completes b context (.payment q) = .ok all) :
    all = true ↔ ∀ psu ∈ q.psus, context.psu.isSame psu = true ∨ b.IsSignedBy i psu := by
  obtain ⟨l, read, rfl⟩ := completes_eq several answer
  obtain rfl := (payment_ok found).1
  have own := mem_granted_anticipated there sibling about
  rw [decide_eq_true_iff,
    Parent.progress_perm ((authorisationsOf_ok read).map context.anticipate),
    Parent.progress_eq_complete_iff]
  constructor
  · intro complete psu listed
    exact (exists_granted_anticipated sound there sibling live about).mp
      (complete.2 several psu listed)
  · intro signed
    refine ⟨List.ne_nil_of_mem own, fun _ psu listed => ?_⟩
    exact (exists_granted_anticipated sound there sibling live about).mpr (signed psu listed)

end Purpose

namespace Engine

variable {c : Config} {now : Instant} {site : Site Backend} {u : UpdateRequest} {n : Nat}
  {a : Authorisation} {o : Outcome} {after : Backend} {t : Turn} {i : String} {psu : Psu}
  {psus : List Psu}

theorem signed_later (c : Config) (sound : site.store.IsSound) (events : List Event)
    (h : site.store.SignedByAll i psus) : (run c site events).store.SignedByAll i psus := by
  intro psu listed
  obtain ⟨d, hd, grant, same⟩ := h psu listed
  obtain ⟨k, position⟩ := List.getElem?_of_mem hd
  exact ⟨d, List.mem_of_getElem? (run_granted c sound position grant events), grant, same⟩

theorem Moved.isSignedBy_iff (h : Moved site now u t n a o after)
    (sibling : Store.isSibling i .initiation a = true) (granted : o.status.isGranted = true) :
    after.IsSignedBy i psu ↔
      (Attempt.of u a).psu.isSame psu = true ∨ site.store.IsSignedBy i psu := by
  have grant : (a.updated u o).isGrantFor .initiation i = true := by
    change (Store.isSibling i .initiation a && o.status.isGranted) = true
    rw [sibling, granted]
    rfl
  unfold IsSignedBy
  constructor
  · rintro ⟨d, hd, grantD, same⟩
    rw [h.records] at hd
    rcases List.mem_or_eq_of_mem_set hd with hd | rfl
    · exact .inr ⟨d, hd, grantD, same⟩
    · rw [Authorisation.updated_psu] at same
      exact .inl same
  · rintro (same | ⟨d, hd, grantD, same⟩)
    · refine ⟨a.updated u o, List.mem_of_getElem? h.written_record, grant, ?_⟩
      rw [Authorisation.updated_psu]
      exact same
    · have ended := Authorisation.terminal_of_isGrantFor grantD
      exact ⟨d, h.mem_of_terminal hd ended, grantD, same⟩

theorem Moved.completes_iff_signed {all : Bool} {q : Payment} (sound : site.store.IsSound)
    (h : Moved site now u t n a o after) (sibling : Store.isSibling i .initiation a = true)
    (granted : o.status.isGranted = true) (found : Store.payment site.store i = .ok (some q))
    (several : q.multilevel = true)
    (answer : Purpose.completes site.store (Attempt.of u a).context (.payment q) = .ok all) :
    all = true ↔ after.SignedByAll i (site.store.psusOf .initiation i) := by
  rw [Purpose.completes_iff sound h.position sibling h.live found several rfl answer,
    ((payment_ok found).2 .initiation rfl).2]
  exact forall₂_congr fun psu _ => (h.isSignedBy_iff sibling granted).symm

/-- When the bank executes a payment of several PSUs, everybody has signed it. -/
theorem Moved.signed_of_execution (sound : site.store.IsSound)
    (h : Moved site now u (turn c now site u) n a o after) (granted : o.status.isGranted = true)
    (several : ∀ m, site.store.summary? .initiation a.parentId = some m → m.multilevel = true)
    {x : Bank.Exchange} (hx : x ∈ (turn c now site u).exchanges) (call : x.call = .execution) :
    a.purpose = .initiation ∧ Purpose.initiation.needsCode c a.approach = false ∧
      after.SignedByAll a.parentId (site.store.psusOf .initiation a.parentId) := by
  have route := h.route granted
  generalize asked : (turn c now site u).exchanges = xs at route hx
  cases route with
  | waived | confirmedAtBank =>
    obtain rfl := List.mem_singleton.mp hx
    cases call
  | deferred | confirmedLocally => cases hx
  | @effected parent store y e uncoded found ready context asks answered success =>
    obtain rfl := List.mem_singleton.mp hx
    have initiates : a.purpose = .initiation := by
      rw [call] at asks
      cases kind : a.purpose <;> first | rfl | (rw [kind] at asks; cases asks)
    have sibling : Store.isSibling a.parentId .initiation a = true := by
      simp [Store.isSibling, initiates]
    rw [initiates] at found ready uncoded
    obtain ⟨rfl, q, rfl, payment⟩ := Purpose.findParent_initiation found
    have multilevel : q.multilevel = true := several _ ((payment_ok payment).2 .initiation rfl).1
    have agrees := h.completes_iff_signed sound sibling granted payment multilevel
      (Purpose.completes_of_isReady ready)
    exact ⟨initiates, uncoded, agrees.mp rfl⟩

end Engine

end StrongAuth
