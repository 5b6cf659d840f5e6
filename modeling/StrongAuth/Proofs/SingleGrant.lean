import StrongAuth.Proofs.Lifecycle
import StrongAuth.Proofs.Progress
import StrongAuth.Samples

set_option autoImplicit false

/-!
# One grant for a parent that needs only one

Whether a consent or payment is authorised already is asked when an authorisation of it is started,
and not again. Once one authorisation is granted none can be added, so everything depends on the
ones that were open at that moment.
-/
namespace StrongAuth
open StrongAuth.Calendar StrongAuth.Backend

namespace Authorisation

def isGrantFor (p : Purpose) (i : String) (a : Authorisation) : Bool :=
  Store.isSibling i p a && a.status.isGranted

theorem not_isGrantFor {p : Purpose} {i : String} {a : Authorisation}
    (h : a.status.isGranted = false) : a.isGrantFor p i = false := by
  rw [isGrantFor, h, Bool.and_false]

theorem terminal_of_isGrantFor {p : Purpose} {i : String} {a : Authorisation}
    (h : a.isGrantFor p i = true) : a.status.isTerminal = true := by
  rw [isGrantFor, Bool.and_eq_true] at h
  cases status : a.status <;> first
    | rfl
    | (rw [status] at h; cases h.2)

end Authorisation

def Bank.Exchange.isGrantFor (p : Purpose) (i : String) (x : Bank.Exchange) : Bool :=
  x.context.parentId == i && x.context.purpose == p && x.isGrant

namespace Backend

theorem mem_granted_siblings {b : Backend} {parent : Parent} {p : Purpose} {a : Authorisation} :
    a ∈ parent.granted (b.siblings parent.id p) ↔ a ∈ b.records ∧ a.isGrantFor p parent.id = true := by
  rw [Parent.mem_granted, siblings, List.mem_filter, Authorisation.isGrantFor, Bool.and_eq_true]
  constructor
  · rintro ⟨⟨there, sibling⟩, -, granted⟩
    exact ⟨there, sibling, granted⟩
  · rintro ⟨there, sibling, granted⟩
    have child := sibling
    rw [Store.isSibling, Bool.and_eq_true, beq_iff_eq] at child
    exact ⟨⟨there, sibling⟩, child.1, granted⟩

/-- How many authorisations for this purpose and parent were granted. -/
def grants (b : Backend) (p : Purpose) (i : String) : Nat :=
  b.records.countP (·.isGrantFor p i)

theorem grants_le_one_iff {b : Backend} {p : Purpose} {i : String} :
    b.grants p i ≤ 1 ↔ ∀ (m n : Nat) (a d : Authorisation), b.records[m]? = some a →
      b.records[n]? = some d → a.isGrantFor p i = true → d.isGrantFor p i = true → m = n := by
  unfold grants
  induction b.records with
  | nil => simp
  | cons x l ih =>
    rw [List.countP_cons]
    constructor
    · intro few j k a d ha hd ga gd
      have rest : l.countP (·.isGrantFor p i) ≤ 1 := by omega
      have alone (grant : x.isGrantFor p i = true) {e : Authorisation} (he : e ∈ l) :
          e.isGrantFor p i ≠ true := by
        rw [grant, if_pos rfl] at few
        have none : l.countP (·.isGrantFor p i) = 0 := by omega
        exact List.countP_eq_zero.mp none e he
      cases j with
      | zero =>
        obtain rfl := Option.some.inj ha
        cases k with
        | zero => rfl
        | succ k => exact absurd gd (alone ga (List.mem_of_getElem? hd))
      | succ j =>
        cases k with
        | zero =>
          obtain rfl := Option.some.inj hd
          exact absurd ga (alone gd (List.mem_of_getElem? ha))
        | succ k => exact congrArg (· + 1) (ih.mp rest j k a d ha hd ga gd)
    · intro only
      cases grant : x.isGrantFor p i with
      | false =>
        refine ih.mpr fun j k a d ha hd ga gd => ?_
        exact Nat.succ.inj (only (j + 1) (k + 1) a d ha hd ga gd)
      | true =>
        have none : l.countP (·.isGrantFor p i) = 0 := by
          rw [List.countP_eq_zero]
          intro e he ge
          obtain ⟨k, hk⟩ := List.getElem?_of_mem he
          exact Nat.zero_ne_add_one k (only 0 (k + 1) x e rfl hk grant ge)
        rw [none]
        exact Nat.le_refl _

theorem grants_ne_zero_iff {b : Backend} {p : Purpose} {i : String} :
    b.grants p i ≠ 0 ↔ ∃ a ∈ b.records, a.isGrantFor p i = true := by
  rw [grants, ← Nat.pos_iff_ne_zero, List.countP_pos_iff]

end Backend

namespace Engine

variable {c : Config} {now : Instant} {site : Site Backend} {u : UpdateRequest} {n : Nat}
  {a : Authorisation} {o : Outcome} {after : Backend} {p : Purpose} {i : String}
  {m : Parent.Summary}

/-- How often the bank did what was asked for this purpose and parent. -/
def bankGrants (p : Purpose) (i : String) (l : List Turn) : Nat :=
  (l.flatMap (·.exchanges)).countP (·.isGrantFor p i)

/-- At every moment at most one authorisation of the parent is granted, and in the whole run the
bank does what was asked at most once. -/
structure GrantedOnce (c : Config) (site : Site Backend) (events : List Event) (p : Purpose)
    (i : String) : Prop where
  records : ∀ early late, events = early ++ late → (run c site early).store.grants p i ≤ 1
  bank : bankGrants p i (turns c site events) ≤ 1

/-- No authorisation that is open when the first one of the parent is granted is granted later. -/
def OpenOnesLapse (c : Config) (site : Site Backend) (events : List Event) (p : Purpose)
    (i : String) : Prop :=
  ∀ early e late, events = early ++ e :: late → (run c site early).store.grants p i = 0 →
    (run c site (early ++ [e])).store.grants p i ≠ 0 →
    ∀ a ∈ (run c site (early ++ [e])).store.records, a.status.isTerminal = false →
      ∀ b ∈ (run c site events).store.records, b.id = a.id → b.isGrantFor p i = false

theorem bankGrants_append (l l' : List Turn) :
    bankGrants p i (l ++ l') = bankGrants p i l + bankGrants p i l' := by
  rw [bankGrants, List.flatMap_append, List.countP_append]
  rfl

theorem bankGrants_singleton (t : Turn) :
    bankGrants p i [t] = t.exchanges.countP (·.isGrantFor p i) := by
  rw [bankGrants, List.flatMap_singleton]

theorem bankGrants_of_not_granted {xs : List Bank.Exchange} (h : ¬Granted xs) :
    xs.countP (·.isGrantFor p i) = 0 := by
  rw [List.countP_eq_zero]
  intro x hx grant
  rw [Bank.Exchange.isGrantFor, Bool.and_eq_true] at grant
  exact h ⟨x, hx, grant.2⟩

theorem bankGrants_of_quiet {l : List Turn} (h : ∀ t ∈ l, ¬Granted t.exchanges) :
    bankGrants p i l = 0 := by
  induction l with
  | nil => rfl
  | cons t l ih =>
    have first := bankGrants_of_not_granted (p := p) (i := i) (h t List.mem_cons_self)
    have rest := ih fun t' ht' => h t' (List.mem_cons_of_mem t ht')
    rw [← List.singleton_append, bankGrants_append, bankGrants_singleton, first, rest]

theorem bankGrants_of_transcript {xs : List Bank.Exchange}
    (h : Transcript (.of u a) xs o) :
    xs.countP (·.isGrantFor p i) ≤
      if (a.updated u o).isGrantFor p i then 1 else 0 := by
  by_cases granted : Granted xs
  · obtain ⟨-, finalised, -, single⟩ := h.of_granted granted
    cases sibling : Store.isSibling i p a with
    | true =>
      have grant : (a.updated u o).isGrantFor p i = true := by
        change (Store.isSibling i p a && o.status.isGranted) = true
        rw [sibling, finalised]
        rfl
      rw [if_pos grant, ← single]
      exact List.countP_le_length
    | false =>
      have none : xs.countP (·.isGrantFor p i) = 0 := by
        rw [List.countP_eq_zero]
        intro x hx
        have elsewhere : (x.context.parentId == i && x.context.purpose == p) = false := by
          rw [h.context_of_mem hx]
          exact sibling
        rw [Bank.Exchange.isGrantFor, elsewhere, Bool.false_and]
        exact Bool.false_ne_true
      rw [none]
      exact Nat.zero_le _
  · rw [bankGrants_of_not_granted granted]
    exact Nat.zero_le _

theorem grants_of_moved {t : Turn} (h : Moved site now u t n a o after) :
    after.grants p i = site.store.grants p i +
      if (a.updated u o).isGrantFor p i then 1 else 0 := by
  obtain ⟨bound, there⟩ := List.getElem?_eq_some_iff.mp h.position
  have live := h.live
  have before : a.isGrantFor p i = false := by
    cases grant : a.isGrantFor p i with
    | false => rfl
    | true =>
      rw [Authorisation.terminal_of_isGrantFor grant] at live
      cases live
  rw [grants, h.records, List.countP_set bound, there, before]
  rfl

theorem grants_of_opened {id : String} {d : Authorisation.Draft} (h : Opened site id d after) :
    after.grants p i = site.store.grants p i := by
  have fresh (id : String) : (Authorisation.ofDraft id d).isGrantFor p i = false :=
    Authorisation.not_isGrantFor rfl
  rw [grants, h.records, List.countP_append, List.countP_singleton, fresh]
  rfl

theorem next_bankGrants (c : Config) (sound : site.store.IsSound)
    (calm : site.store.isCalm = true) (e : Event) :
    bankGrants p i (turnsOf c site e) + site.store.grants p i ≤
      (next c site e).store.grants p i := by
  cases change_of_next c sound e with
  | kept keeps _ quiet =>
    refine Nat.le_of_eq ?_
    rw [bankGrants_of_quiet (quiet calm), Nat.zero_add, grants, grants, keeps.records]
  | opened opened =>
    refine Nat.le_of_eq ?_
    rw [grants_of_opened opened]
    exact Nat.zero_add _
  | @moved now u n stored o moved =>
    have few := bankGrants_of_transcript (p := p) (i := i) moved.transcript
    have counted := grants_of_moved (p := p) (i := i) moved
    change bankGrants p i [turn c now site u] + _ ≤ _
    rw [bankGrants_singleton, counted]
    omega

theorem run_bankGrants (c : Config) (sound : site.store.IsSound)
    (calm : site.store.isCalm = true) (events : List Event)
    (quiet : ∀ e ∈ events, ∀ change, e ≠ .failure change) :
    bankGrants p i (turns c site events) ≤ (run c site events).store.grants p i := by
  have counted := run_invariant c
    (P := fun past s => s.store.isCalm = true ∧ bankGrants p i past ≤ s.store.grants p i)
    [] sound events ?_ ⟨calm, Nat.zero_le _⟩
  · exact counted.2
  · intro past s e he sound' ⟨calm', fewer⟩
    have step := next_bankGrants (p := p) (i := i) c sound' calm' e
    refine ⟨(change_of_next c sound' e).calm (quiet e he) calm', ?_⟩
    rw [bankGrants_append]
    omega

theorem run_granted (c : Config) (sound : site.store.IsSound)
    (there : site.store.records[n]? = some a) (grant : a.isGrantFor p i = true)
    (events : List Event) : (run c site events).store.records[n]? = some a := by
  obtain ⟨b, there', becomes⟩ := run_record c sound there events
  rw [becomes.terminal (Authorisation.terminal_of_isGrantFor grant)] at there'
  exact there'

theorem next_added (c : Config) (sound : site.store.IsSound) (e : Event)
    (single : ∀ m, (next c site e).store.summary? p i = some m → m.multilevel = false)
    (granted : site.store.grants p i ≠ 0) (there : (next c site e).store.records[n]? = some a)
    (sibling : Store.isSibling i p a = true) :
    ∃ b, site.store.records[n]? = some b ∧ b.Becomes a := by
  cases old : site.store.records[n]? with
  | some b =>
    obtain ⟨a', there', becomes⟩ := run_record c sound old [e]
    obtain rfl := Option.some.inj (there.symm.trans there')
    exact ⟨b, rfl, becomes⟩
  | none =>
    exfalso
    have beyond : site.store.records.length ≤ n := List.getElem?_eq_none_iff.mp old
    have bound := (List.getElem?_eq_some_iff.mp there).1
    cases change_of_next c sound e with
    | kept keeps =>
      rw [keeps.records] at bound
      omega
    | moved moved =>
      rw [moved.records, List.length_set] at bound
      omega
    | @opened now r id d opened =>
      rw [opened.records, List.getElem?_append_right beyond] at there
      obtain rfl := List.mem_singleton.mp (List.mem_of_getElem? there)
      rw [Store.isSibling, Bool.and_eq_true, beq_iff_eq, beq_iff_eq] at sibling
      obtain ⟨rfl, rfl⟩ := sibling
      obtain ⟨m, parent, -, ungranted⟩ := opened.parent
      obtain ⟨g, hg, grant⟩ := grants_ne_zero_iff.mp granted
      rw [Authorisation.isGrantFor, Bool.and_eq_true] at grant
      have refused := ungranted (single m parent) g (List.mem_filter.mpr ⟨hg, grant.1⟩)
      rw [grant.2] at refused
      cases refused

theorem run_added (c : Config) (sound : site.store.IsSound) (events : List Event)
    (last : (run c site events).store.summary? p i = some m) (single : m.multilevel = false)
    (granted : site.store.grants p i ≠ 0)
    (there : (run c site events).store.records[n]? = some a)
    (sibling : Store.isSibling i p a = true) :
    ∃ b, site.store.records[n]? = some b ∧ b.Becomes a := by
  -- From the front, since the parent is known at the end of the run only.
  induction events generalizing site with
  | nil => exact ⟨a, there, .refl a⟩
  | cons e events ih =>
    have sound' := (change_of_next c sound e).sound sound
    have granted' : (next c site e).store.grants p i ≠ 0 := by
      obtain ⟨g, hg, grant⟩ := grants_ne_zero_iff.mp granted
      obtain ⟨k, position⟩ := List.getElem?_of_mem hg
      have stays := run_granted c sound position grant [e]
      exact grants_ne_zero_iff.mpr ⟨g, List.mem_of_getElem? stays, grant⟩
    obtain ⟨b, hb, becomes⟩ := ih sound' last granted' there
    rw [Store.isSibling, becomes.parentId, becomes.purpose] at sibling
    have single' (m' : Parent.Summary) (parent : (next c site e).store.summary? p i = some m') :
        m'.multilevel = false :=
      (multilevel_of_run c sound' events parent last).trans single
    obtain ⟨d, hd, becomes'⟩ := next_added c sound e single' granted hb sibling
    exact ⟨d, hd, becomes'.trans becomes⟩

theorem first_grant (c : Config) (site : Site Backend) (start : site.store.grants p i = 0)
    (events : List Event) (granted : (run c site events).store.grants p i ≠ 0) :
    ∃ early e late, events = early ++ e :: late ∧ (run c site early).store.grants p i = 0 ∧
      (run c site (early ++ [e])).store.grants p i ≠ 0 := by
  induction events generalizing site with
  | nil => exact absurd start granted
  | cons e events ih =>
    by_cases here : (next c site e).store.grants p i = 0
    · obtain ⟨early, e', late, rfl, before, after⟩ := ih (next c site e) here granted
      exact ⟨e :: early, e', late, rfl, before, after⟩
    · exact ⟨[], e, events, rfl, start, here⟩

theorem next_grants (c : Config) (sound : site.store.IsSound) (e : Event) :
    site.store.grants p i ≤ (next c site e).store.grants p i ∧
      (next c site e).store.grants p i ≤ site.store.grants p i + 1 := by
  cases change_of_next c sound e with
  | kept keeps =>
    have same : (next c site e).store.grants p i = site.store.grants p i := by
      rw [grants, grants, keeps.records]
    omega
  | opened opened =>
    have same := grants_of_opened (p := p) (i := i) opened
    omega
  | @moved now u n stored o moved =>
    have counted := grants_of_moved (p := p) (i := i) moved
    split at counted <;> omega

theorem run_grants_le (c : Config) (sound : site.store.IsSound) (events : List Event) :
    site.store.grants p i ≤ (run c site events).store.grants p i := by
  refine run_invariant c (P := fun _ s => site.store.grants p i ≤ s.store.grants p i)
    [] sound events ?_ (Nat.le_refl _)
  intro _ s e _ sound' fewer
  have step := (next_grants (p := p) (i := i) c sound' e).1
  omega

/-- If the open ones lapse, what is granted at the end was granted by the first grant. -/
theorem granted_by_first (c : Config) (sound : site.store.IsSound) {early late : List Event}
    {e : Event} (there : (run c site (early ++ e :: late)).store.summary? p i = some m)
    (single : m.multilevel = false) (h : OpenOnesLapse c site (early ++ e :: late) p i)
    (before : (run c site early).store.grants p i = 0)
    (first : (run c site (early ++ [e])).store.grants p i ≠ 0)
    (last : (run c site (early ++ e :: late)).store.records[n]? = some a)
    (grant : a.isGrantFor p i = true) :
    (run c site (early ++ [e])).store.records[n]? = some a := by
  have sibling : Store.isSibling i p a = true := by
    rw [Authorisation.isGrantFor, Bool.and_eq_true] at grant
    exact grant.1
  have sound' := run_sound c sound (early ++ [e])
  have last' := last
  rw [run_append_cons] at last' there
  obtain ⟨b, hb, becomes⟩ := run_added c sound' late there single first last' sibling
  cases ended : b.status.isTerminal with
  | false =>
    have lapsed := h early e late rfl before first b (List.mem_of_getElem? hb) ended a
      (List.mem_of_getElem? last) becomes.id
    rw [grant] at lapsed
    cases lapsed
  | true =>
    rw [becomes.terminal ended]
    exact hb

theorem grants_of_openOnesLapse (c : Config) (sound : site.store.IsSound)
    (start : site.store.grants p i = 0) (events : List Event)
    (there : (run c site events).store.summary? p i = some m) (single : m.multilevel = false)
    (h : OpenOnesLapse c site events p i) : (run c site events).store.grants p i ≤ 1 := by
  by_cases silent : (run c site events).store.grants p i = 0
  · omega
  · obtain ⟨early, e, late, rfl, before, first⟩ := first_grant c site start events silent
    have one : (run c site (early ++ [e])).store.grants p i ≤ 1 := by
      have step := (next_grants (p := p) (i := i) c (run_sound c sound early) e).2
      rw [run_append]
      change (next c (run c site early) e).store.grants p i ≤ 1
      omega
    refine grants_le_one_iff.mpr fun j k a b ha hb ga gb => ?_
    have ha' := granted_by_first c sound there single h before first ha ga
    have hb' := granted_by_first c sound there single h before first hb gb
    exact grants_le_one_iff.mp one j k a b ha' hb' ga gb

theorem grantedOnce_of_openOnesLapse (c : Config) (sound : site.store.IsSound)
    (calm : site.store.isCalm = true) (start : site.store.grants p i = 0) (events : List Event)
    (quiet : ∀ e ∈ events, ∀ change, e ≠ .failure change)
    (there : (run c site events).store.summary? p i = some m) (single : m.multilevel = false)
    (h : OpenOnesLapse c site events p i) : GrantedOnce c site events p i := by
  have last := grants_of_openOnesLapse c sound start events there single h
  refine ⟨?_, Nat.le_trans (run_bankGrants c sound calm events quiet) last⟩
  rintro early late rfl
  have fewer := run_grants_le (p := p) (i := i) c (run_sound c sound early) late
  rw [run_append] at last
  omega

theorem openOnesLapse_of_grantedOnce (c : Config) (sound : site.store.IsSound)
    (events : List Event) (h : GrantedOnce c site events p i) :
    OpenOnesLapse c site events p i := by
  rintro early e late rfl - first a ha live b hb same
  cases grant : b.isGrantFor p i with
  | false => rfl
  | true =>
    have sound' := run_sound c sound (early ++ [e])
    have once := h.records (early ++ e :: late) [] (List.append_nil _).symm
    rw [run_append_cons] at hb once
    obtain ⟨g, hg, gg⟩ := grants_ne_zero_iff.mp first
    obtain ⟨j, hj⟩ := List.getElem?_of_mem hg
    obtain ⟨k, hk⟩ := List.getElem?_of_mem ha
    obtain ⟨l, hl⟩ := List.getElem?_of_mem hb
    obtain ⟨a', ha', becomes⟩ := run_record c sound' hk late
    have place : l = k :=
      (run_sound c sound' late).distinct.unique hl ha' (same.trans becomes.id.symm)
    have together : j = l :=
      grants_le_one_iff.mp once j l g b (run_granted c sound' hj gg late) hl gg grant
    rw [together, place, hk] at hj
    cases hj
    rw [Authorisation.terminal_of_isGrantFor gg] at live
    cases live

/-- Along every run without failures of the store, a consent or payment that needs one authorisation
is authorised once, if and only if no authorisation of it that was open when the first one was
granted is granted later. -/
theorem granted_once_iff (c : Config) (site : Site Backend) (fresh : site.store.isFresh = true)
    (calm : site.store.isCalm = true) (events : List Event)
    (quiet : ∀ e ∈ events, ∀ change, e ≠ .failure change) {p : Purpose} {i : String}
    {m : Parent.Summary} (there : (run c site events).store.summary? p i = some m)
    (single : m.multilevel = false) :
    GrantedOnce c site events p i ↔ OpenOnesLapse c site events p i := by
  have sound := isSound_of_isFresh fresh
  have start : site.store.grants p i = 0 := by
    rw [grants, records_of_isFresh fresh]
    rfl
  exact ⟨openOnesLapse_of_grantedOnce c sound events,
    grantedOnce_of_openOnesLapse c sound calm start events quiet there single⟩

theorem payment_executed_twice :
    Samples.site.store.isFresh = true ∧ Samples.site.store.isCalm = true ∧
      (∀ e ∈ Samples.executedTwice, ∀ change, e ≠ .failure change) ∧
      (run {} Samples.site Samples.executedTwice).store.summary? .initiation "payment" =
        some ⟨.payment .acsp, false⟩ ∧
      (run {} Samples.site Samples.executedTwice).store.grants .initiation "payment" = 2 ∧
      bankGrants .initiation "payment" (turns {} Samples.site Samples.executedTwice) = 2 ∧
      ¬GrantedOnce {} Samples.site Samples.executedTwice .initiation "payment" := by
  have twice : bankGrants .initiation "payment"
      (turns {} Samples.site Samples.executedTwice) = 2 := rfl
  refine ⟨rfl, rfl, ?_, rfl, rfl, twice, ?_⟩
  · rintro e he change rfl
    simp [Samples.executedTwice, Samples.opening, Samples.signing, Samples.updates] at he
  · intro once
    have few := once.bank
    rw [twice] at few
    exact absurd few (by decide)

theorem payment_executed_once_iff :
    GrantedOnce {} Samples.site Samples.executed .initiation "payment" ↔
      OpenOnesLapse {} Samples.site Samples.executed .initiation "payment" := by
  refine granted_once_iff {} Samples.site rfl rfl Samples.executed ?_
    (m := ⟨.payment .acsp, false⟩) rfl rfl
  rintro e he change rfl
  simp [Samples.executed, Samples.opening, Samples.signing, Samples.updates] at he

end Engine

end StrongAuth
