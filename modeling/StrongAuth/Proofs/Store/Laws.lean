import StrongAuth.Proofs.Store.Keyed
import StrongAuth.Store.Contents

set_option autoImplicit false

namespace StrongAuth

namespace Parent.Status

def concerns : Status → Purpose → Bool
  | .consent _, p => !p.isPayment
  | .payment _, p => p.isPayment

theorem concerns_congr {st : Status} {p q : Purpose} (hp : st.concerns p = true)
    (hq : st.concerns q = true) : p.isPayment = q.isPayment := by
  cases st <;> simp_all [concerns]

end Parent.Status

theorem Consent.live_of_statusAfter {c : Consent} {progress : Progress} {st : Consent.Status}
    (h : c.statusAfter progress = some st) : c.status.isTerminal = false := by
  unfold Consent.statusAfter at h
  split at h
  · cases h
  · next live => exact Bool.eq_false_iff.mpr live

theorem Payment.live_of_statusAfter {p : Payment} {progress : Progress} {st : Payment.Status}
    (h : p.statusAfter progress = some st) : p.status.isTerminal = false := by
  unfold Payment.statusAfter at h
  split at h
  · next pending =>
    cases hs : p.status <;> simp_all [Payment.Status.isPending, Payment.Status.isTerminal]
  · cases h

namespace Parent

def statusAfter : Parent → Progress → Option Status
  | .consent c, progress => (c.statusAfter progress).map .consent
  | .payment q, progress => (q.statusAfter progress).map .payment

theorem live_of_statusAfter {parent : Parent} {progress : Progress} {st : Status}
    (h : parent.statusAfter progress = some st) : parent.summary.status.isTerminal = false := by
  cases parent with
  | consent c =>
    obtain ⟨next, after, -⟩ := Option.map_eq_some_iff.mp h
    exact Consent.live_of_statusAfter after
  | payment q =>
    obtain ⟨next, after, -⟩ := Option.map_eq_some_iff.mp h
    exact Payment.live_of_statusAfter after

theorem concerns_statusAfter {parent : Parent} {progress : Progress} {st : Status}
    (h : parent.statusAfter progress = some st) (p : Purpose) :
    st.concerns p = parent.summary.status.concerns p := by
  cases parent with
  | consent c =>
    obtain ⟨next, -, rfl⟩ := Option.map_eq_some_iff.mp h
    rfl
  | payment q =>
    obtain ⟨next, -, rfl⟩ := Option.map_eq_some_iff.mp h
    rfl

end Parent

namespace Store

theorem bind_eq_ok {ε α β : Type} {x : Except ε α} {f : α → Except ε β} {b : β}
    (h : (x >>= f) = .ok b) : ∃ a, x = .ok a ∧ f a = .ok b := by
  cases x with
  | error e => cases h
  | ok a => exact ⟨a, rfl, h⟩

theorem map_eq_ok {ε α β : Type} {x : Except ε α} {f : α → β} {b : β}
    (h : x.map f = .ok b) : ∃ a, x = .ok a ∧ f a = b := by
  cases x with
  | error e => cases h
  | ok a => exact ⟨a, rfl, Except.ok.inj h⟩

theorem writeConflict_eq_none_iff {a : Authorisation} {version : Int} :
    writeConflict a version = none ↔ a.status.isTerminal = false ∧ a.version = version := by
  unfold writeConflict
  cases a.status.isTerminal with
  | true => simp
  | false => simp

/-- One authorisation was rewritten, at the version that was quoted. -/
def Rewrites (id : String) (version : Int) (u : Authorisation.Update) (written : Authorisation)
    (before after : List Authorisation) : Prop :=
  ∃ (n : Nat) (a : Authorisation), before[n]? = some a ∧ a.id = id ∧
    writeConflict a version = none ∧ written = a.apply u ∧ after = before.set n written

theorem Rewrites.distinct {id : String} {version : Int} {u : Authorisation.Update}
    {written : Authorisation} {before after : List Authorisation}
    (h : Rewrites id version u written before after) (distinct : Distinct before) :
    Distinct after := by
  obtain ⟨n, a, there, -, -, rfl, rfl⟩ := h
  exact distinct.set there rfl

abbrev Parents := Purpose → String → Option Parent.Summary

/-- A status was written to one parent. -/
def Parents.put (parents : Parents) (id : String) (st : Parent.Status) : Parents := fun p i =>
  if i = id ∧ st.concerns p = true then (parents p i).map fun m => { m with status := st }
  else parents p i

def Parents.putOptional (parents : Parents) (id : String) : Option Parent.Status → Parents
  | none => parents
  | some st => parents.put id st

def Parents.Adds (before after : Parents) (payment : Bool) (id : String) (new : Parent.Summary) :
    Prop :=
  ∀ p i, after p i = before p i ∨
    (p.isPayment = payment ∧ i = id ∧ before p i = none ∧ after p i = some new)

theorem Parents.Adds.refl (parents : Parents) (payment : Bool) (id : String)
    (new : Parent.Summary) : parents.Adds parents payment id new := fun _ _ => .inl rfl

abbrev Lists := Purpose → String → List Psu

/-- The status that is due to the parent of an authorisation, from the progress of its siblings. None
is due unless it was granted, and none after a cancellation. -/
inductive Due (parents : Parents) (lists : Lists) (records : List Authorisation)
    (a : Authorisation) : Option Parent.Status → Prop where
  | ungranted (status : a.status.isGranted = false) : Due parents lists records a none
  | cancellation (purpose : a.purpose = .cancellation) : Due parents lists records a none
  | orphan (missing : parents a.purpose a.parentId = none) : Due parents lists records a none
  | progress {parent : Parent} (status : a.status.isGranted = true)
      (purpose : a.purpose ≠ .cancellation) (id : parent.id = a.parentId)
      (summary : parents a.purpose a.parentId = some parent.summary)
      (psus : parent.psus = lists a.purpose a.parentId)
      (sort : parent.summary.status.concerns a.purpose = true) :
      Due parents lists records a (parent.statusAfter
        (parent.progress (records.filter (isSibling a.parentId a.purpose))))

theorem Due.concerns {parents : Parents} {lists : Lists} {records : List Authorisation}
    {a : Authorisation} {st : Parent.Status} (h : Due parents lists records a (some st)) :
    a.purpose ≠ .cancellation ∧ st.concerns a.purpose = true := by
  generalize written : some st = due at h
  cases h with
  | ungranted | cancellation | orphan => cases written
  | @progress parent status purpose id summary psus sort =>
    refine ⟨purpose, ?_⟩
    rw [Parent.concerns_statusAfter written.symm]
    exact sort

theorem Due.of_parent {parents : Parents} {lists : Lists} {records : List Authorisation}
    {a : Authorisation} {p : Purpose} (parent : Parent) (kind : a.purpose = p)
    (granted : a.status.isGranted = true) (other : p ≠ .cancellation)
    (id : parent.id = a.parentId) (summary : parents p a.parentId = some parent.summary)
    (psus : parent.psus = lists p a.parentId)
    (sort : parent.summary.status.concerns p = true) :
    Due parents lists records a (parent.statusAfter
      (parent.progress (records.filter (isSibling a.parentId p)))) := by
  subst kind
  exact .progress granted other id summary psus sort

/-- The parents after an update of this authorisation: the status that is due was written, and then
the one that was reported. -/
def Owed (reported : Option Parent.Status) (a : Authorisation) (records : List Authorisation)
    (lists : Lists) (before after : Parents) : Prop :=
  ∃ due, Due before lists records a due ∧
    after = (before.putOptional a.parentId due).putOptional a.parentId reported

theorem Parents.putOptional_cases {parents : Parents} {id : String} {written : Option Parent.Status}
    {p : Purpose} {i : String} {m : Parent.Summary}
    (there : parents.putOptional id written p i = some m) :
    parents p i = some m ∨
      (i = id ∧ written = some m.status ∧ m.status.concerns p = true) := by
  cases written with
  | none => exact .inl there
  | some st =>
    change parents.put id st p i = some m at there
    unfold put at there
    split at there
    · next here =>
      obtain ⟨old, -, rfl⟩ := Option.map_eq_some_iff.mp there
      exact .inr ⟨here.1, rfl, here.2⟩
    · exact .inl there

theorem Parents.putOptional_other {parents : Parents} {id : String} {written : Option Parent.Status}
    {p : Purpose} {i : String} (other : i = id → ∀ st, written = some st → st.concerns p = false) :
    parents.putOptional id written p i = parents p i := by
  cases written with
  | none => rfl
  | some st =>
    have elsewhere : ¬(i = id ∧ st.concerns p = true) := by
      rintro ⟨here, concerns⟩
      rw [other here st rfl] at concerns
      cases concerns
    exact if_neg elsewhere

theorem Parents.putOptional_none {parents : Parents} {id : String} {written : Option Parent.Status}
    {p : Purpose} {i : String} (absent : parents p i = none) :
    parents.putOptional id written p i = none := by
  cases written with
  | none => exact absent
  | some st =>
    change parents.put id st p i = none
    unfold put
    split
    · rw [absent]
      rfl
    · exact absent

theorem Parents.putOptional_own {parents : Parents} {id : String} {written : Option Parent.Status}
    {p : Purpose} {m : Parent.Summary} (there : parents p id = some m)
    (concerns : ∀ st, written = some st → st.concerns p = true) :
    parents.putOptional id written p id = some { m with status := written.getD m.status } := by
  cases written with
  | none => exact there
  | some st =>
    refine (if_pos ⟨rfl, concerns st rfl⟩).trans ?_
    rw [there]
    rfl

theorem Owed.cases {reported : Option Parent.Status} {a : Authorisation}
    {records : List Authorisation} {lists : Lists} {before after : Parents} {p : Purpose}
    {i : String} {m : Parent.Summary} (h : Owed reported a records lists before after)
    (there : after p i = some m) :
    before p i = some m ∨ (i = a.parentId ∧ m.status.concerns p = true ∧
      (reported = some m.status ∨ Due before lists records a (some m.status))) := by
  obtain ⟨due, follows, rfl⟩ := h
  rcases Parents.putOptional_cases there with there | ⟨here, written, concerns⟩
  · rcases Parents.putOptional_cases there with there | ⟨here, rfl, concerns⟩
    · exact .inl there
    · exact .inr ⟨here, concerns, .inr follows⟩
  · exact .inr ⟨here, concerns, .inl written⟩

/-- No parent was lost, and a lifecycle that is over can change by a reported status only. -/
structure Settled (reported : Option Parent.Status) (id : String) (before after : Parents) :
    Prop where
  multilevel : ∀ p i m, before p i = some m →
    ∃ m', after p i = some m' ∧ m'.multilevel = m.multilevel
  terminal : ∀ p i m, before p i = some m → m.status.isTerminal = true →
    (i = id → ∀ st, reported = some st → st.concerns p = false) → after p i = some m

namespace Settled

theorem refl (reported : Option Parent.Status) (id : String) (parents : Parents) :
    Settled reported id parents parents := by
  refine ⟨?_, ?_⟩
  · intro p i m there
    exact ⟨m, there, rfl⟩
  · intro p i m there _ _
    exact there

theorem put (parents : Parents) (id : String) (st : Parent.Status) :
    Settled (some st) id parents (parents.put id st) := by
  refine ⟨?_, ?_⟩
  · intro p i m there
    unfold Parents.put
    split
    · exact ⟨{ m with status := st }, by rw [there]; rfl, rfl⟩
    · exact ⟨m, there, rfl⟩
  · intro p i m there _ silent
    have other : ¬(i = id ∧ st.concerns p = true) := by
      rintro ⟨here, concerns⟩
      rw [silent here st rfl] at concerns
      cases concerns
    unfold Parents.put
    rw [if_neg other]
    exact there

theorem put_live {parents : Parents} {id : String} {st : Parent.Status}
    (live : ∀ p, st.concerns p = true →
      ∃ m, parents p id = some m ∧ m.status.isTerminal = false) :
    Settled none id parents (parents.put id st) := by
  refine ⟨(put parents id st).multilevel, ?_⟩
  intro p i m there ended _
  refine (put parents id st).terminal p i m there ended ?_
  intro here _ e
  cases e
  cases concerns : st.concerns p with
  | false => rfl
  | true =>
    obtain ⟨m', there', live'⟩ := live p concerns
    rw [here, there'] at there
    cases there
    rw [live'] at ended
    cases ended

theorem trans {reported : Option Parent.Status} {id : String} {first second third : Parents}
    (h : Settled none id first second) (k : Settled reported id second third) :
    Settled reported id first third := by
  refine ⟨?_, ?_⟩
  · intro p i m there
    obtain ⟨m', there', same'⟩ := h.multilevel p i m there
    obtain ⟨m'', there'', same''⟩ := k.multilevel p i m' there'
    exact ⟨m'', there'', same''.trans same'⟩
  · intro p i m there ended silent
    have kept := h.terminal p i m there ended nofun
    exact k.terminal p i m kept ended silent

theorem putOptional (parents : Parents) (id : String) (reported : Option Parent.Status) :
    Settled reported id parents (parents.putOptional id reported) := by
  cases reported with
  | none => exact refl none id parents
  | some st => exact put parents id st

theorem of_due {parents : Parents} {lists : Lists} {records : List Authorisation}
    {a : Authorisation} {due : Option Parent.Status} (h : Due parents lists records a due)
    (congr : ∀ p q : Purpose, p.isPayment = q.isPayment → parents p = parents q) :
    Settled none a.parentId parents (parents.putOptional a.parentId due) := by
  cases h with
  | ungranted | cancellation | orphan => exact refl none _ parents
  | @progress parent status purpose id summary psus sort =>
    cases after : parent.statusAfter _ with
    | none => exact refl none _ parents
    | some st =>
      refine put_live fun p concerns => ?_
      have same : p.isPayment = a.purpose.isPayment := by
        rw [Parent.concerns_statusAfter after] at concerns
        exact Parent.Status.concerns_congr concerns sort
      rw [congr p a.purpose same]
      exact ⟨parent.summary, summary, Parent.live_of_statusAfter after⟩

theorem of_owed {reported : Option Parent.Status} {a : Authorisation}
    {records : List Authorisation} {lists : Lists} {before after : Parents}
    (h : Owed reported a records lists before after)
    (congr : ∀ p q : Purpose, p.isPayment = q.isPayment → before p = before q) :
    Settled reported a.parentId before after := by
  obtain ⟨due, follows, rfl⟩ := h
  exact (of_due follows congr).trans (putOptional _ _ reported)

theorem of_kept {reported : Option Parent.Status} {id : String} {first second third : Parents}
    (h : ∀ p i m, first p i = some m → second p i = some m)
    (k : Settled reported id second third) : Settled reported id first third :=
  ⟨fun p i m there => k.multilevel p i m (h p i m there),
    fun p i m there => k.terminal p i m (h p i m there)⟩

end Settled

theorem Owed.reported {st : Parent.Status} {a : Authorisation} {records : List Authorisation}
    {lists : Lists} {before after : Parents} {p : Purpose} {m : Parent.Summary}
    (h : Owed (some st) a records lists before after) (concerns : st.concerns p = true)
    (there : before p a.parentId = some m) :
    ∃ m', after p a.parentId = some m' ∧ m'.status = st := by
  obtain ⟨due, -, rfl⟩ := h
  obtain ⟨m', between, -⟩ := (Settled.putOptional before a.parentId due).multilevel p _ m there
  refine ⟨{ m' with status := st }, ?_, rfl⟩
  change (Parents.putOptional before a.parentId due).put a.parentId st p a.parentId = _
  rw [Parents.put, if_pos ⟨rfl, concerns⟩]
  exact congrArg (Option.map fun m => { m with status := st }) between

end Store

end StrongAuth
