import StrongAuth.Proofs.Engine.Handling
import StrongAuth.Proofs.Signing
import StrongAuth.Proofs.Store.Settling
import StrongAuth.Samples

set_option autoImplicit false

/-!
# The prediction before a payment is executed

Before the bank is asked to execute a payment, the engine counts the authorisation at hand as if it
were finalised already. That is what the store counts after the write, so the payment is executed in
the very update that completes it. Any other update just finalises the authorisation, and the payment
waits for the other PSUs.
-/
namespace StrongAuth
open StrongAuth.Calendar StrongAuth.Store StrongAuth.Backend

/-- How far a payment is once this authorisation of it is finalised for this PSU. -/
def Backend.foreseen (b : Backend) (q : Payment) (id : String) (psu : Psu) : Progress :=
  (Parent.payment q).progress ((b.siblings q.id .initiation).map fun a =>
    if a.id == id then { a with status := .finalised, psu } else a)

theorem Payment.status_of_incomplete (q : Payment) (pending : q.status = .rcvd ∨ q.status = .patc) :
    (q.statusAfter .incomplete).getD q.status = .patc := by
  unfold statusAfter
  rcases pending with pending | pending <;> rw [pending] <;> rfl

namespace Backend

variable {s t : Backend} {id : String} {version : Int} {a written : Authorisation} {q : Payment}
  {psu : Psu}

theorem foreseen_ne_notStarted (there : a ∈ s.siblings q.id .initiation) (named : a.id = id) :
    s.foreseen q id psu ≠ .notStarted := by
  intro none
  have own := List.mem_map_of_mem (f := fun a =>
    if a.id == id then { a with status := .finalised, psu } else a) there
  rw [if_pos (beq_iff_eq.mpr named)] at own
  have parent : a.parentId = q.id := by
    have sibling := (List.mem_filter.mp there).2
    rw [isSibling, Bool.and_eq_true, beq_iff_eq] at sibling
    exact sibling.1
  have counted : _ ∈ (Parent.payment q).granted _ := Parent.mem_granted.mpr ⟨own, parent, rfl⟩
  rw [Parent.progress_eq_notStarted_iff.mp none] at counted
  cases counted

theorem foreseen_incomplete (there : a ∈ s.siblings q.id .initiation) (named : a.id = id)
    (lacking : s.foreseen q id psu ≠ .complete) : s.foreseen q id psu = .incomplete :=
  Parent.progress_eq_incomplete_iff.mpr ⟨fun none =>
    foreseen_ne_notStarted there named (Parent.progress_eq_notStarted_iff.mpr none), lacking⟩

/-- What was foreseen is what is counted after a write that finalises the authorisation. -/
theorem progress_of_replaced {b : Authorisation} (only : ∀ x ∈ s.records, x.id = id → x = a)
    (records : t.records = s.records.map fun x => if x.id == id then b else x)
    (parent : b.parentId = a.parentId) (purpose : b.purpose = a.purpose)
    (finalised : b.status = .finalised) :
    (Parent.payment q).progress (t.siblings q.id .initiation) = s.foreseen q id b.psu := by
  have kept : ∀ x ∈ s.records, isSibling q.id .initiation (if x.id == id then b else x) =
      isSibling q.id .initiation x := by
    intro x hx
    by_cases own : x.id = id
    · rw [if_pos (beq_iff_eq.mpr own), only x hx own, isSibling, isSibling, parent, purpose]
    · rw [if_neg (mt beq_iff_eq.mp own)]
  have siblings : t.siblings q.id .initiation =
      (s.siblings q.id .initiation).map fun x => if x.id == id then b else x := by
    rw [siblings, siblings, records, List.filter_map]
    exact congrArg _ (List.filter_congr kept)
  rw [siblings, foreseen]
  refine Parent.progress_alike ?_
  rw [List.forall₂_map_left_iff, List.forall₂_map_right_iff, List.forall₂_same]
  intro x hx
  by_cases own : x.id = id
  · rw [if_pos (beq_iff_eq.mpr own), if_pos (beq_iff_eq.mpr own)]
    obtain rfl := only x (List.mem_filter.mp hx).1 own
    exact ⟨parent, finalised, fun _ => rfl⟩
  · rw [if_neg (mt beq_iff_eq.mp own), if_neg (mt beq_iff_eq.mp own)]
    exact ⟨rfl, rfl, fun _ => rfl⟩

end Backend

namespace Purpose

variable {s : Backend} {c : Bank.Context} {q : Payment} {a : Authorisation}

theorem completes_eq_foreseen {all : Bool} (there : a ∈ s.siblings q.id .initiation)
    (named : a.id = c.authorisationId) (answer : completes s c (.payment q) = .ok all) :
    all = true ↔ s.foreseen q c.authorisationId c.psu = .complete := by
  cases several : q.multilevel with
  | true =>
    obtain ⟨l, read, rfl⟩ := completes_eq several answer
    rw [decide_eq_true_iff,
      Parent.progress_perm ((Backend.authorisationsOf_ok read).map c.anticipate)]
    rfl
  | false =>
    have all_eq : all = true := by
      unfold completes at answer
      simp only [Parent.multilevel, several, Bool.not_false, if_true] at answer
      exact (Except.ok.inj answer).symm
    have complete : s.foreseen q c.authorisationId c.psu = .complete := by
      have begun : s.foreseen q c.authorisationId c.psu ≠ .notStarted :=
        Backend.foreseen_ne_notStarted there named
      unfold Backend.foreseen Parent.progress at begun ⊢
      simp only [Parent.multilevel, several, Bool.not_false, Bool.true_or, if_true] at begun ⊢
      split
      · next none =>
        rw [if_pos none] at begun
        exact absurd rfl begun
      · rfl
    exact iff_of_true all_eq complete

theorem completes_answers (siblings : ∃ l, Store.authorisationsOf s q.id .initiation = .ok l) :
    ∃ all, completes s c (.payment q) = .ok all := by
  obtain ⟨l, read⟩ := siblings
  unfold completes
  split
  · exact ⟨true, rfl⟩
  · exact ⟨_, by rw [show (Parent.payment q).id = q.id from rfl, read]; rfl⟩

end Purpose

namespace Engine

variable {c : Config} {now : Instant} {site : Site Backend} {u : UpdateRequest} {q : Payment}
  {order : Order}

/-- The last step of an initiation that needs no code: an incomplete payment is left alone, and a
complete one is executed. Whatever the bank answers, the outcome can be written. -/
inductive Concluded (site : Site Backend) (a : Attempt) (q : Payment) (order : Order) :
    Outcome × Site Backend → Prop where
  | postponed (lacking : Purpose.completes site.store a.context (.payment q) = .ok false) :
      Concluded site a q order (a.advance .finalised, site)
  | executed {o : Outcome} {x : Bank.Answer Bank.Execution} {bank : Bank}
      (complete : Purpose.completes site.store a.context (.payment q) = .ok true)
      (log : bank.log = site.bank.log ++ [.execution a.context order x])
      (unchallenged : o.challenge = none)
      (unfailed : ∀ m, o.error = some m → m.category ≠ .persistence) :
      Concluded site a q order (o, { site with bank })

theorem conclude_initiation {a : Attempt}
    (needless : Purpose.initiation.needsCode c a.approach = false)
    (payment : Store.payment site.store a.parentId = .ok (some q)) (readable : q.orderOf = .ok order)
    (answers : ∃ all, Purpose.completes site.store a.context (.payment q) = .ok all) :
    Concluded site a q order (a.conclude c .initiation site) := by
  have found : Purpose.initiation.findParent site.store a.parentId =
      (.ok (some (.payment q)), site.store) := by
    simp only [Purpose.findParent, payment, Except.map, Option.map_some]
  simp only [Attempt.conclude, needless, Bool.false_eq_true, if_false, Attempt.withParent, found,
    Purpose.finalise, Purpose.executePayment]
  obtain ⟨all, asked⟩ := answers
  rw [asked]
  cases all with
  | false => exact .postponed asked
  | true =>
    simp only [readable]
    cases answer : site.bank.askExecution a.context order with
    | mk x bank =>
      have log := (Bank.askExecution_heard answer).log
      cases x with
      | ok x =>
        obtain ⟨verdict, status⟩ := x
        cases verdict with
        | success =>
          refine .executed asked log rfl ?_
          rintro m ⟨⟩
        | attemptFailure | failure =>
          refine .executed asked log rfl ?_
          rintro m ⟨⟩ ⟨⟩
      | error fault =>
        refine .executed asked log rfl ?_
        rintro m ⟨⟩ ⟨⟩

namespace Concluded
variable {a : Attempt} {o : Outcome} {site' : Site Backend}

theorem writable (h : Concluded site a q order (o, site')) : site'.store = site.store ∧
    o.challenge = none ∧ ∀ m, o.error = some m → m.category ≠ .persistence := by
  cases h with
  | postponed => exact ⟨rfl, rfl, nofun⟩
  | executed _ _ unchallenged unfailed => exact ⟨rfl, unchallenged, unfailed⟩

theorem foreseen {d : Authorisation} (h : Concluded site a q order (o, site'))
    (there : d ∈ site.store.siblings q.id .initiation) (named : d.id = a.authorisationId) :
    (site.store.foreseen q a.authorisationId a.psu = .complete ∧
        ∃ x, site'.bank.log = site.bank.log ++ [.execution a.context order x]) ∨
      (site.store.foreseen q a.authorisationId a.psu ≠ .complete ∧
        site'.bank.log = site.bank.log ∧ o = a.advance .finalised) := by
  cases h with
  | postponed lacking =>
    have agrees := Purpose.completes_eq_foreseen (c := a.context) there named lacking
    exact .inr ⟨fun complete => Bool.false_ne_true (agrees.mpr complete), rfl, rfl⟩
  | executed complete log =>
    exact .inl ⟨(Purpose.completes_eq_foreseen (c := a.context) there named complete).mp rfl,
      _, log⟩

end Concluded

/-- What was foreseen about an update that finalises the initiation of a payment came true. -/
structure Foretold (before : Backend) (q : Payment) (a : Authorisation) (t : Turn) (o : Outcome)
    (b : Authorisation) (after : Backend) : Prop where
  answer : t.answer = .ok o
  unfailed : ∀ m, o.error = some m → m.category ≠ .persistence
  stored : Store.authorisation after a.id = .ok (some b)
  status : b.status = o.status
  version : b.version = a.version + 1
  executes : (∃ x ∈ t.exchanges, x.call = .execution) ↔ before.foreseen q a.id b.psu = .complete
  counts : b.status = .finalised → (Parent.payment q).progress
    (after.siblings a.parentId .initiation) = before.foreseen q a.id b.psu
  waits : before.foreseen q a.id b.psu ≠ .complete → t.exchanges = [] ∧ o.error = none ∧
    o.status = .finalised ∧ b.status = .finalised
  pends : before.foreseen q a.id b.psu ≠ .complete → q.status = .rcvd ∨ q.status = .patc →
    Store.payment after a.parentId = .ok (some { q with status := .patc })

section Started
variable {a : Authorisation}

theorem update_of_started (admitted : Admitted site.store now u a) (started : a.status = .started)
    (uncoded : Secret.isGiven u.code = false) :
    update c now site u =
      (.ok (record ((Attempt.of u a).conclude c a.purpose site).2 a.purpose (.of u a)
        ((Attempt.of u a).conclude c a.purpose site).1).1,
      (record ((Attempt.of u a).conclude c a.purpose site).2 a.purpose (.of u a)
        ((Attempt.of u a).conclude c a.purpose site).1).2) := by
  have status : (Attempt.of u a).status = .started := started
  have silent : (Attempt.of u a).hasCode = false := uncoded
  have full : (Attempt.of u a).incomplete = none := by
    rw [Attempt.incomplete, Attempt.missingField, status]
    rfl
  have step : (Attempt.of u a).step c a.purpose site =
      (Attempt.of u a).conclude c a.purpose site := by
    rw [Attempt.step_eq_currentStep, Attempt.currentStep, status]
  rw [update_of_admitted admitted]
  simp only [advance, silent, Bool.false_eq_true, if_false, full, step]

theorem started_written (calm : site.store.isCalm = true)
    (siblings : ∃ l, Store.authorisationsOf site.store a.parentId .initiation = .ok l)
    (admitted : Admitted site.store now u a)
    (initiates : a.purpose = .initiation) (started : a.status = .started)
    (uncoded : Secret.isGiven u.code = false)
    (needless : Purpose.initiation.needsCode c a.approach = false)
    (payment : Store.payment site.store a.parentId = .ok (some q))
    (readable : q.orderOf = .ok order) :
    ∃ o site' written after, Concluded site (.of u a) q order (o, site') ∧
      Store.updateAuthorisation site.store a.id a.version (a.purpose.updateOf (.of u a) o) =
        (.ok written, after) ∧
      update c now site u = (.ok o, { site' with store := after }) := by
  have live : (Attempt.of u a).status.isTerminal = false := congrArg Sca.Status.isTerminal started
  have answers : ∃ all, Purpose.completes site.store (Attempt.of u a).context (.payment q) =
      .ok all := Purpose.completes_answers (by rw [(payment_ok payment).1]; exact siblings)
  have concluded := conclude_initiation (a := .of u a) needless payment readable answers
  have updated := update_of_started (c := c) admitted started uncoded
  rw [initiates] at updated ⊢
  generalize (Attempt.of u a).conclude c .initiation site = result at concluded updated
  obtain ⟨o, site'⟩ := result
  obtain ⟨kept, unchallenged, -⟩ := concluded.writable
  have found := own_of_found admitted.found
  have free : writeConflict a a.version = none := writeConflict_eq_none_iff.mpr ⟨live, rfl⟩
  have there : site.store.HasReadable a.purpose a.parentId := by
    rw [initiates]
    exact ⟨nofun, fun _ => ⟨q, payment⟩⟩
  obtain ⟨written, accepted⟩ := updateAuthorisation_accepted
    (u := Purpose.initiation.updateOf (.of u a) o) calm found free unchallenged
    (by rw [initiates]; exact siblings) there fun st reported => by
      rw [initiates]
      exact (ownStatus_concerns reported).2
  have wrote : Store.updateAuthorisation site.store a.id a.version
      (Purpose.initiation.updateOf (.of u a) o) = (.ok written, _) := Prod.ext accepted rfl
  rw [← kept] at wrote
  rw [record_of_ok live wrote] at updated
  rw [kept] at wrote updated
  exact ⟨o, site', written, _, concluded, wrote, updated⟩

/-- A payment is executed in the update that completes it, and what is counted before the write is
what is counted after it. -/
theorem execution_foreseen (calm : site.store.isCalm = true) (keyed : site.store.IsKeyed)
    (siblings : ∃ l, Store.authorisationsOf site.store a.parentId .initiation = .ok l)
    (admitted : Admitted site.store now u a)
    (initiates : a.purpose = .initiation) (started : a.status = .started)
    (uncoded : Secret.isGiven u.code = false)
    (needless : Purpose.initiation.needsCode c a.approach = false)
    (payment : Store.payment site.store a.parentId = .ok (some q))
    (readable : q.orderOf = .ok order) :
    ∃ o b, Foretold site.store q a (turn c now site u) o b (update c now site u).2.store := by
  have found := own_of_found admitted.found
  obtain ⟨member, only⟩ := keyed.record found
  have parent : a.parentId = q.id := (payment_ok payment).1.symm
  have sibling : a ∈ site.store.siblings q.id .initiation :=
    List.mem_filter.mpr ⟨member, by simp [isSibling, initiates, parent]⟩
  obtain ⟨o, site', written, after, concluded, wrote, updated⟩ :=
    started_written calm siblings admitted initiates started uncoded needless payment readable
  obtain ⟨-, -, unfailed⟩ := concluded.writable
  have foreseen := concluded.foreseen sibling rfl
  have answer : (turn c now site u).answer = .ok o := congrArg Prod.fst updated
  have exchanges : (turn c now site u).exchanges = site'.bank.log.drop site.bank.log.length := by
    rw [turn, updated]
  rw [updated]
  have there := (updateAuthorisation_found found wrote).1
  have counts (finalised : (a.updated u o).status = .finalised) :
      (Parent.payment q).progress (after.siblings a.parentId .initiation) =
        site.store.foreseen q a.id (a.updated u o).psu := by
    rw [parent]
    exact progress_of_replaced only (updateAuthorisation_replaces keyed found wrote) rfl rfl finalised
  have persisted : (a.updated u o).psu = (Attempt.of u a).psu := a.updated_psu u o
  refine ⟨o, a.updated u o, ?_⟩
  rcases foreseen with ⟨complete, x, log⟩ | ⟨lacking, log, rfl⟩
  · change site.store.foreseen q a.id _ = _ at complete
    rw [← persisted] at complete
    refine ⟨answer, unfailed, there, rfl, rfl, iff_of_true ?_ complete, counts,
      fun lacking => absurd complete lacking, fun lacking => absurd complete lacking⟩
    refine ⟨.execution (Attempt.of u a).context order x, ?_, rfl⟩
    rw [exchanges, log, List.drop_left]
    exact List.mem_singleton_self _
  · change site.store.foreseen q a.id _ ≠ _ at lacking
    rw [← persisted] at lacking
    have silent : (turn c now site u).exchanges = [] := by
      rw [exchanges, log, List.drop_length]
    refine ⟨answer, unfailed, there, rfl, rfl, iff_of_false ?_ lacking, counts,
      fun _ => ⟨silent, rfl, rfl, rfl⟩, fun _ pending => ?_⟩
    · rintro ⟨x, hx, -⟩
      rw [silent] at hx
      cases hx
    · have settled := updateAuthorisation_settles found wrote rfl rfl initiates payment
      rw [counts rfl, foreseen_incomplete sibling rfl lacking,
        q.status_of_incomplete pending] at settled
      exact settled

theorem last_signature_executes :
    let sole := run {} Samples.site (Samples.started .initiation)
    let first := run {} Samples.sharedSite (Samples.started .initiation)
    let u := UpdateRequest.toPurpose .initiation "payment" "auth1"
    let second := run {} Samples.sharedSite
      (Samples.signature "anna" "auth1" ++ (Samples.signature "berta" "auth2").take 5)
    let v := UpdateRequest.toPurpose .initiation "payment" "auth2"
    (∃ q a o b, Admitted sole.store Samples.moment u a ∧
      Foretold sole.store q a (turn {} Samples.moment sole u) o b
        (update {} Samples.moment sole u).2.store ∧
      sole.store.foreseen q a.id b.psu = .complete ∧ q.multilevel = false) ∧
    (∃ q a o b, Admitted first.store Samples.moment u a ∧
      Foretold first.store q a (turn {} Samples.moment first u) o b
        (update {} Samples.moment first u).2.store ∧
      first.store.foreseen q a.id b.psu ≠ .complete ∧ q.status = .rcvd) ∧
    (∃ q a o b, Admitted second.store Samples.moment v a ∧
      Foretold second.store q a (turn {} Samples.moment second v) o b
        (update {} Samples.moment second v).2.store ∧
      second.store.foreseen q a.id b.psu = .complete ∧ q.status = .patc) := by
  have calls : (turn {} Samples.moment (run {} Samples.site (Samples.started .initiation))
        (.toPurpose .initiation "payment" "auth1")).exchanges.map (·.call) = [.execution] ∧
      (turn {} Samples.moment (run {} Samples.sharedSite (Samples.started .initiation))
        (.toPurpose .initiation "payment" "auth1")).exchanges.map (·.call) = [] ∧
      (turn {} Samples.moment (run {} Samples.sharedSite
        (Samples.signature "anna" "auth1" ++ (Samples.signature "berta" "auth2").take 5))
        (.toPurpose .initiation "payment" "auth2")).exchanges.map (·.call) = [.execution] :=
    ⟨by rfl, by rfl, by rfl⟩
  intro sole first u second v
  obtain ⟨executed, silent, executed'⟩ := calls
  have execution {t : Turn} (called : t.exchanges.map (·.call) = [.execution]) :
      ∃ x ∈ t.exchanges, x.call = .execution :=
    List.mem_map.mp (called ▸ List.mem_singleton_self _)
  refine ⟨?_, ?_, ?_⟩
  · have admitted : Admitted sole.store Samples.moment u _ := ⟨rfl, rfl, rfl, rfl, rfl⟩
    have sound : sole.store.IsSound := run_sound {} (isSound_of_isFresh rfl) _
    obtain ⟨o, b, foretold⟩ := execution_foreseen (c := {}) (by rfl) sound.isKeyed ⟨_, rfl⟩ admitted
      rfl rfl rfl rfl rfl rfl
    exact ⟨_, _, o, b, admitted, foretold, foretold.executes.mp (execution executed), rfl⟩
  · have admitted : Admitted first.store Samples.moment u _ := ⟨rfl, rfl, rfl, rfl, rfl⟩
    have sound : first.store.IsSound := run_sound {} (isSound_of_isFresh rfl) _
    obtain ⟨o, b, foretold⟩ := execution_foreseen (c := {}) (by rfl) sound.isKeyed ⟨_, rfl⟩ admitted
      rfl rfl rfl rfl rfl rfl
    refine ⟨_, _, o, b, admitted, foretold, fun complete => ?_, rfl⟩
    obtain ⟨x, hx, -⟩ := foretold.executes.mpr complete
    rw [List.map_eq_nil_iff.mp silent] at hx
    cases hx
  · have admitted : Admitted second.store Samples.moment v _ := ⟨rfl, rfl, rfl, rfl, rfl⟩
    have sound : second.store.IsSound := run_sound {} (isSound_of_isFresh rfl) _
    obtain ⟨o, b, foretold⟩ := execution_foreseen (c := {}) (by rfl) sound.isKeyed ⟨_, rfl⟩ admitted
      rfl rfl rfl rfl rfl rfl
    exact ⟨_, _, o, b, admitted, foretold, foretold.executes.mp (execution executed'), rfl⟩

end Started

end Engine

end StrongAuth
