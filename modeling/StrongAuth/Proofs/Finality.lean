import StrongAuth.Proofs.Lifecycle
import StrongAuth.Samples

set_option autoImplicit false

namespace StrongAuth
open StrongAuth.Calendar StrongAuth.Backend

namespace Engine

variable {c : Config} {now : Instant} {site : Site Backend} {u : UpdateRequest}

/-- The update is admitted and gets as far as to have the bank act on the consent or payment. -/
def ReachesBank (c : Config) (now : Instant) (site : Site Backend) (u : UpdateRequest) : Prop :=
  ∃ stored, Admitted site.store now u stored ∧
    (Attempt.of u stored).reachesBank c stored.purpose site.store = true

theorem reachesBank_iff :
    ReachesBank c now site u ↔ ∃ x ∈ (turn c now site u).exchanges, x.isConclusive = true := by
  rw [← List.any_eq_true]
  constructor
  · rintro ⟨stored, admitted, reaches⟩
    obtain ⟨o, site', -, loud, -⟩ := update_conducted c admitted
    rw [loud]
    exact reaches
  · intro loud
    by_cases h : ∃ stored, Admitted site.store now u stored
    · obtain ⟨stored, admitted⟩ := h
      obtain ⟨o, site', -, same, -⟩ := update_conducted c admitted
      rw [same] at loud
      exact ⟨stored, admitted, loud⟩
    · rw [exchanges_of_not_admitted (not_exists.mp h)] at loud
      cases loud

theorem live_of_reachesBank {a : Attempt} {p : Purpose} {s : Backend}
    (h : a.reachesBank c p s = true) : a.status.isTerminal = false := by
  cases ended : a.status.isTerminal with
  | false => rfl
  | true =>
    have late : (a.status == .methodSelected) = false ∧ (a.status == .started) = false := by
      cases status : a.status <;> first
        | exact ⟨rfl, rfl⟩
        | (rw [status] at ended; cases ended)
    simp only [Attempt.reachesBank, late, Bool.or_self, Bool.and_false, Bool.false_and, ite_self,
      Purpose.ifFound_false] at h
    cases h

def Concerns (p : Purpose) (i : String) (x : Bank.Exchange) : Prop :=
  x.context.parentId = i ∧ x.context.purpose.isPayment = p.isPayment

/-- From here on the parent stays as it is and the bank is not asked to act on it. -/
structure LeftAlone (c : Config) (site : Site Backend) (after : List Event) (p : Purpose)
    (i : String) (m : Parent.Summary) : Prop where
  still : ∀ early late, after = early ++ late →
    (run c site early).store.summary? p i = some m
  quiet : ∀ t ∈ turns c site after, ∀ x ∈ t.exchanges, x.isConclusive = true → ¬Concerns p i x

/-- No authorisation of the parent that is open now gets as far as to have the bank act on it. -/
def OpenOnesStall (c : Config) (site : Site Backend) (after : List Event) (p : Purpose)
    (i : String) : Prop :=
  ∀ early now u late, after = early ++ .update now u :: late → ∀ a ∈ site.store.records,
    a.id = u.authorisationId → a.status.isTerminal = false → a.parentId = i →
    a.purpose.isPayment = p.isPayment → ¬ReachesBank c now (run c site early) u

variable {p : Purpose} {i : String} {m : Parent.Summary}

theorem open_of_conclusive (sound : site.store.IsSound) {x : Bank.Exchange}
    (hx : x ∈ (turn c now site u).exchanges) (loud : x.isConclusive = true)
    (about : Concerns p i x) :
    ReachesBank c now site u ∧ ∃ a ∈ site.store.records, a.id = u.authorisationId ∧
      a.status.isTerminal = false ∧ a.parentId = i ∧ a.purpose.isPayment = p.isPayment := by
  have reaches : ReachesBank c now site u := reachesBank_iff.mpr ⟨x, hx, loud⟩
  refine ⟨reaches, ?_⟩
  obtain ⟨stored, admitted, goes⟩ := reaches
  obtain ⟨o, site', conducted, -, -⟩ := update_conducted c admitted
  obtain ⟨n, position, named⟩ := authorisation_ok sound admitted.found
  have context := conducted.transcript.context_of_mem hx
  obtain ⟨parent, sort⟩ := about
  rw [context] at parent sort
  exact ⟨stored, List.mem_of_getElem? position, named, live_of_reachesBank goes, parent, sort⟩

theorem open_before (sound : site.store.IsSound) {e : Event} {a : Authorisation}
    (there : (next c site e).store.summary? p i = some m) (ended : m.status.isTerminal = true)
    (ha : a ∈ (next c site e).store.records) (live : a.status.isTerminal = false)
    (parent : a.parentId = i) (sort : a.purpose.isPayment = p.isPayment) :
    ∃ b ∈ site.store.records, b.id = a.id ∧ b.status.isTerminal = false ∧ b.parentId = i ∧
      b.purpose.isPayment = p.isPayment := by
  cases origin_of_mem c sound ha with
  | old there' => exact ⟨a, there', rfl, live, parent, sort⟩
  | @new now r id d opened =>
    change d.parentId = i at parent
    change d.purpose.isPayment = p.isPayment at sort
    obtain ⟨m', there', alive, -⟩ := opened.parent
    rw [Backend.summary?_congr _ _ _ sort, parent, there] at there'
    cases there'
    rw [ended] at alive
    cases alive
  | @moved now u n stored o moved =>
    exact ⟨stored, List.mem_of_getElem? moved.position, rfl, moved.live, parent, sort⟩

theorem next_finished (c : Config) (sound : site.store.IsSound) (e : Event)
    (there : site.store.summary? p i = some m) (ended : m.status.isTerminal = true)
    (quiet : ∀ t ∈ turnsOf c site e, ∀ x ∈ t.exchanges, x.isConclusive = true → ¬Concerns p i x) :
    (next c site e).store.summary? p i = some m := by
  cases change_of_next c sound e with
  | kept keeps => exact keeps.parents p i m there
  | opened opened =>
    rw [opened.parents]
    exact there
  | @moved now u n stored o moved =>
    refine moved.settled.terminal p i m there ended ?_
    intro here st reported
    obtain ⟨reported, sort⟩ := ownStatus_concerns reported
    cases concerns : st.concerns p with
    | false => rfl
    | true =>
      obtain ⟨x, hx, loud⟩ := moved.transcript.conclusive_of_parentStatus reported
      have context := moved.transcript.context_of_mem hx
      have about : Concerns p i x := by
        rw [Concerns, context]
        exact ⟨here.symm, Parent.Status.concerns_congr sort concerns⟩
      exact absurd about (quiet _ (List.mem_singleton_self _) x hx loud)

theorem openOnesStall_tail {e : Event} {after : List Event} (sound : site.store.IsSound)
    (there : (next c site e).store.summary? p i = some m) (ended : m.status.isTerminal = true)
    (h : OpenOnesStall c site (e :: after) p i) : OpenOnesStall c (next c site e) after p i := by
  intro early now u late cut a ha named live parent sort
  obtain ⟨b, hb, same, live', parent', sort'⟩ :=
    open_before sound there ended ha live parent sort
  refine h (e :: early) now u late ?_ b hb (same.trans named) live' parent' sort'
  rw [cut]
  rfl

theorem leftAlone_of_openOnesStall (c : Config) (sound : site.store.IsSound)
    (there : site.store.summary? p i = some m) (ended : m.status.isTerminal = true)
    (after : List Event) (h : OpenOnesStall c site after p i) : LeftAlone c site after p i m := by
  -- Nothing is asked in the first event, so the parent stays; what is open then was open before.
  induction after generalizing site with
  | nil =>
    refine ⟨?_, fun t ht => absurd ht List.not_mem_nil⟩
    intro early late cut
    have none : early = [] := (List.append_eq_nil_iff.mp cut.symm).1
    rw [none]
    exact there
  | cons e after ih =>
    have quiet : ∀ t ∈ turnsOf c site e, ∀ x ∈ t.exchanges, x.isConclusive = true →
        ¬Concerns p i x := by
      intro t ht x hx loud about
      cases e with
      | update now u =>
        obtain rfl := List.mem_singleton.mp ht
        obtain ⟨reaches, a, ha, named, live, parent, sort⟩ :=
          open_of_conclusive sound hx loud about
        exact h [] now u after rfl a ha named live parent sort reaches
      | start | addConsent | addPayment | failure | bank => cases ht
    have there' := next_finished c sound e there ended quiet
    have rest := ih ((change_of_next c sound e).sound sound) there'
      (openOnesStall_tail sound there' ended h)
    refine ⟨?_, ?_⟩
    · intro early late cut
      cases early with
      | nil => exact there
      | cons e' early =>
        obtain ⟨rfl, tail⟩ := List.cons.inj cut
        exact rest.still early late tail
    · intro t ht
      rcases List.mem_append.mp ht with ht | ht
      · exact quiet t ht
      · exact rest.quiet t ht

theorem openOnesStall_of_leftAlone (c : Config) (sound : site.store.IsSound) (after : List Event)
    (h : LeftAlone c site after p i m) : OpenOnesStall c site after p i := by
  rintro early now u late rfl a ha named live rfl sort reaches
  obtain ⟨x, hx, loud⟩ := reachesBank_iff.mp reaches
  obtain ⟨n, position⟩ := List.getElem?_of_mem ha
  have sound' := run_sound c sound early
  obtain ⟨b, there, becomes⟩ := run_record c sound position early
  obtain ⟨stored, admitted, -⟩ := reaches
  obtain ⟨k, found, same⟩ := authorisation_ok sound' admitted.found
  have position' : k = n :=
    sound'.distinct.unique found there (by rw [same, becomes.id, named])
  rw [position', there] at found
  cases found
  obtain ⟨o, site', conducted, -, -⟩ := update_conducted c admitted
  have context := conducted.transcript.context_of_mem hx
  have about : Concerns p a.parentId x := by
    rw [Concerns, context]
    exact ⟨becomes.parentId, (congrArg Purpose.isPayment becomes.purpose).trans sort⟩
  refine h.quiet (turn c now (run c site early) u) ?_ x hx loud about
  rw [turns_append]
  exact List.mem_append_right _ List.mem_cons_self

/-- Along every run, a consent or payment that has come to its end is left alone from then on if and
only if no authorisation of it that was open at that moment gets as far as to have the bank act. -/
theorem finished_parent_left_alone_iff (c : Config) (site : Site Backend)
    (fresh : site.store.isFresh = true) (before after : List Event) {p : Purpose} {i : String}
    {m : Parent.Summary} (there : (run c site before).store.summary? p i = some m)
    (ended : m.status.isTerminal = true) :
    LeftAlone c (run c site before) after p i m ↔
      OpenOnesStall c (run c site before) after p i := by
  have sound := run_sound c (isSound_of_isFresh fresh) before
  exact ⟨openOnesStall_of_leftAlone c sound after,
    leftAlone_of_openOnesStall c sound there ended after⟩

/-- An authorisation that was open when the payment was cancelled has the bank execute it. -/
theorem cancelled_payment_executed :
    Samples.site.store.isFresh = true ∧
      (run {} Samples.site Samples.cancelled).store.summary? .initiation "payment" =
        some ⟨.payment .canc, false⟩ ∧
      (∃ t ∈ turns {} (run {} Samples.site Samples.cancelled) Samples.conclusion,
        ∃ x ∈ t.exchanges, x.call = .execution) ∧
      ¬LeftAlone {} (run {} Samples.site Samples.cancelled) Samples.conclusion .initiation "payment"
        ⟨.payment .canc, false⟩ := by
  refine ⟨rfl, rfl, by decide, ?_⟩
  intro h
  have still := h.still Samples.conclusion [] (List.append_nil _).symm
  have executed : (run {} (run {} Samples.site Samples.cancelled) Samples.conclusion).store.summary?
      .initiation "payment" = some ⟨.payment .acsp, false⟩ := rfl
  rw [executed] at still
  cases still

theorem cancelled_payment_left_alone_iff :
    LeftAlone {} (run {} Samples.site Samples.cancelled) Samples.conclusion .initiation "payment"
        ⟨.payment .canc, false⟩ ↔
      OpenOnesStall {} (run {} Samples.site Samples.cancelled) Samples.conclusion .initiation
        "payment" :=
  finished_parent_left_alone_iff {} Samples.site rfl Samples.cancelled Samples.conclusion rfl rfl

end Engine

end StrongAuth
