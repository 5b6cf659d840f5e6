import StrongAuth.Proofs.Evidence

set_option autoImplicit false

namespace StrongAuth

namespace Sca.Status

/-- No method has been chosen yet, or none is needed. -/
def precedesMethod : Status → Bool
  | .received | .psuIdentified | .psuAuthenticated | .exempted => true
  | _ => false

/-- A method has been chosen. An authorisation may fail before or after that. -/
def followsMethod : Status → Bool
  | .methodSelected | .started | .finalised => true
  | _ => false

/-- How many updates it takes at least to get here. -/
def leastVersion : Status → Int
  | .received | .failed => 0
  | .psuIdentified | .exempted => 1
  | .psuAuthenticated => 2
  | .methodSelected => 3
  | .started | .finalised => 4

theorem leastVersion_of_permits {s t : Status} (h : s.permits t = true) :
    t.leastVersion ≤ s.leastVersion + 1 := by
  revert h
  cases s <;> cases t <;> decide

end Sca.Status

namespace Authorisation

/-- What the record of an authorisation holds at its stage. -/
structure HasShape (a : Authorisation) : Prop where
  untouched : a.status.precedesMethod = true →
    a.method = none ∧ a.challenge = none ∧ a.secret = none
  chosen : a.status.followsMethod = true → a.method.isSome = true
  answered : a.status = .started → ∃ secret, a.secret = some secret ∧ secret.isBlank = false
  version : a.status.leastVersion ≤ a.version

/-- What was stored is there at the later time as well, though another value may have taken its
place. -/
structure Retains (a b : Authorisation) : Prop where
  method : a.method.isSome = true → b.method.isSome = true
  challenge : a.challenge.isSome = true → b.challenge.isSome = true
  secret : a.secret.isSome = true → b.secret.isSome = true

theorem Retains.refl (a : Authorisation) : a.Retains a where
  method there := there
  challenge there := there
  secret there := there

theorem Retains.trans {a b d : Authorisation} (h : a.Retains b) (k : b.Retains d) :
    a.Retains d where
  method there := k.method (h.method there)
  challenge there := k.challenge (h.challenge there)
  secret there := k.secret (h.secret there)

theorem retains_apply (a : Authorisation) (u : Update) : a.Retains (a.apply u) := by
  have kept {α : Type} (new old : Option α) (there : old.isSome = true) :
      (new <|> old).isSome = true := by
    cases new with
    | none => exact there
    | some _ => rfl
  exact ⟨kept u.method a.method, kept u.challenge a.challenge, kept u.secret a.secret⟩

theorem hasShape_ofDraft (id : String) (d : Draft) : (ofDraft id d).HasShape :=
  ⟨fun _ => ⟨rfl, rfl, rfl⟩, nofun, nofun, Int.le_refl 0⟩

end Authorisation

inductive Attempt.Adds (a : Attempt) (xs : List Bank.Exchange) (o : Outcome) : Prop where
  | nothing (method : o.method = none) (challenge : o.challenge = none) (secret : o.secret = none)
      (stage : o.status = .failed ∨
        (o.status.precedesMethod = a.status.precedesMethod ∧
          o.status.followsMethod = a.status.followsMethod ∧
          (o.status = .started → a.status = .started)))
  | method (after : o.status = .methodSelected) (chosen : o.method.isSome = true)
  | answer {data : Secret} {parent : Parent} (before : a.status = .methodSelected)
      (after : o.status = .started) (given : a.data = some data) (kept : o.secret = some data)
      (asked : .verification a.context data parent (.ok .success) ∈ xs)

theorem Outcome.IsBare.adds {a : Attempt} {xs : List Bank.Exchange} {o : Outcome} (bare : o.IsBare)
    (stage : o.status = .failed ∨
      (o.status.precedesMethod = a.status.precedesMethod ∧
        o.status.followsMethod = a.status.followsMethod ∧
        (o.status = .started → a.status = .started))) : a.Adds xs o :=
  .nothing bare.method bare.challenge bare.secret stage

namespace Transcript

variable {a : Attempt} {xs : List Bank.Exchange} {o : Outcome}

theorem ofEffect_challenge (a : Attempt) (e : Purpose.Effect) :
    (a.ofEffect e).challenge = none := by
  obtain ⟨verdict, status⟩ := e
  cases verdict <;> rfl

theorem ofCodeCheck_challenge (a : Attempt) (check : Bank.CodeCheck) :
    (a.ofCodeCheck check).challenge = none := by
  obtain ⟨status, payment⟩ := check
  cases status <;> rfl

theorem adds (h : Transcript a xs o) : a.Adds xs o := by
  have stays {t : Sca.Status} (same : t = a.status) :
      t.precedesMethod = a.status.precedesMethod ∧ t.followsMethod = a.status.followsMethod ∧
        (t = .started → a.status = .started) := by
    rw [same]
    exact ⟨rfl, rfl, id⟩
  have ends (before : a.status = .methodSelected ∨ a.status = .started) :
      Sca.Status.finalised.precedesMethod = a.status.precedesMethod ∧
        Sca.Status.finalised.followsMethod = a.status.followsMethod ∧
        (Sca.Status.finalised = .started → a.status = .started) := by
    rcases before with before | before <;> (rw [before]; exact ⟨rfl, rfl, nofun⟩)
  cases h with
  | refused harmless still bare =>
    rcases still with still | failed
    · exact bare.adds (.inr (stays still))
    · exact bare.adds (.inl failed)
  | exempted before named after bare | identified before named after bare
  | authenticated before after bare =>
    refine bare.adds (.inr ?_)
    rw [before, after]
    exact ⟨rfl, rfl, nofun⟩
  | selected before chosen offered after method secret parentStatus =>
    refine .method after ?_
    rw [method]
    rfl
  | verified before given after method secret parentStatus =>
    exact .answer before after given secret (List.mem_singleton_self _)
  | deferred before after bare =>
    refine bare.adds (.inr ?_)
    rw [after]
    exact ends (.inr before)
  | @effected x e before context answered =>
    have plain := a.ofEffect_isPlain e
    refine .nothing plain.1 (ofEffect_challenge a e) plain.2 ?_
    rw [ofEffect_status]
    cases e.verdict with
    | success => exact .inr (ends (.inr before))
    | attemptFailure => exact .inr (stays rfl)
    | failure => exact .inl rfl
  | unanswered context conclusive fault still bare => exact bare.adds (.inr (stays still))
  | confirmedLocally before given spoken stored same after success bare =>
    refine bare.adds (.inr ?_)
    rw [after]
    exact ends before
  | @confirmedAtBank code order handle check before given spoken =>
    have plain := a.ofCodeCheck_isPlain check
    refine .nothing plain.1 (ofCodeCheck_challenge a check) plain.2 ?_
    rw [ofCodeCheck_status]
    split
    · exact .inr (ends before)
    · exact .inl rfl
    · exact .inr (stays rfl)

end Transcript

namespace Engine
open StrongAuth.Calendar StrongAuth.Backend

variable {c : Config} {now : Instant} {site : Site Backend} {u : UpdateRequest} {n : Nat}
  {a : Authorisation} {o : Outcome} {after : Backend}

namespace Moved

variable (h : Moved site now u (turn c now site u) n a o after)
include h

theorem complete (uncoded : (Attempt.of u a).hasCode = false) (changed : o.status ≠ a.status) :
    (Attempt.of u a).incomplete = none := by
  have answer := h.answer
  simp only [turn, update_of_admitted h.admitted, Except.ok.injEq] at answer
  cases lacking : (Attempt.of u a).incomplete with
  | none => rfl
  | some m =>
    unfold advance at answer
    simp only [uncoded, lacking, Bool.false_eq_true, if_false] at answer
    rw [← answer] at changed
    exact absurd rfl changed

/-- The answer that was verified was not blank: with a code the bank would not have been asked, and
without one a blank answer counts as missing. -/
theorem answer_spoken {context : Bank.Context} {data : Secret} {parent : Parent}
    {answer : Bank.Answer Bank.Verdict} (before : a.status = .methodSelected)
    (after : o.status = .started)
    (asked : .verification context data parent answer ∈ (turn c now site u).exchanges) :
    (Attempt.of u a).hasData = true := by
  have uncoded : (Attempt.of u a).hasCode = false := by
    obtain ⟨-, -, -, -, calls, -⟩ := update_conducted c h.admitted
    exact Bool.eq_false_iff.mpr fun coded => nomatch calls coded _ asked
  have changed : o.status ≠ a.status := by
    rw [before, after]
    nofun
  have complete := h.complete uncoded changed
  have selected : (Attempt.of u a).status = .methodSelected := before
  simpa [Attempt.incomplete, Attempt.missingField, selected] using complete

/-- A stage is reached one update after a stage before it. Only a code leads on without the answer of
the PSU, and from the third stage. -/
theorem leastVersion_le (least : a.status.leastVersion ≤ a.version) :
    o.status.leastVersion ≤ a.version + 1 := by
  rcases h.transcript.moves h.live with permitted | ⟨before, finished, -⟩
  · have step := Sca.Status.leastVersion_of_permits permitted
    change _ ≤ a.status.leastVersion + 1 at step
    omega
  · change a.status = .methodSelected at before
    rw [before] at least
    rw [finished]
    change (3 : Int) ≤ _ at least
    change (4 : Int) ≤ _
    omega

theorem hasShape (shape : a.HasShape) : (a.updated u o).HasShape := by
  have version : o.status.leastVersion ≤ a.version + 1 := h.leastVersion_le shape.version
  cases h.transcript.adds with
  | nothing method challenge secret stage =>
    have method' : (a.updated u o).method = a.method := Authorisation.updated_method_of_none method
    have secret' : (a.updated u o).secret = a.secret := Authorisation.updated_secret_of_none secret
    have challenge' : (a.updated u o).challenge = a.challenge := by
      change (o.challenge <|> a.challenge) = _
      rw [challenge]
      rfl
    rcases stage with failed | ⟨precedes, follows, started⟩
    · have status : (a.updated u o).status = .failed := failed
      refine ⟨?_, ?_, ?_, version⟩ <;> (rw [status]; nofun)
    · refine ⟨fun early => ?_, fun late => ?_, fun now => ?_, version⟩
      · rw [method', challenge', secret']
        exact shape.untouched (precedes.symm.trans early)
      · rw [method']
        exact shape.chosen (follows.symm.trans late)
      · rw [secret']
        exact shape.answered (started now)
  | method after chosen =>
    have status : (a.updated u o).status = .methodSelected := after
    refine ⟨?_, fun _ => ?_, ?_, version⟩
    · rw [status]
      nofun
    · rw [Authorisation.updated_method]
      cases method : o.method with
      | none =>
        rw [method] at chosen
        cases chosen
      | some _ => rfl
    · rw [status]
      nofun
  | @answer data parent before after given kept asked =>
    have status : (a.updated u o).status = .started := after
    have spoken := h.answer_spoken before after asked
    rw [Attempt.hasData, given] at spoken
    refine ⟨?_, fun _ => ?_, fun _ => ⟨data, ?_, ?_⟩, version⟩
    · rw [status]
      nofun
    · refine (a.retains_apply _).method (shape.chosen ?_)
      change a.status = .methodSelected at before
      rw [before]
      rfl
    · rw [Authorisation.updated_secret, kept]
      rfl
    · simpa [Secret.isGiven, Text.isGiven, Secret.isBlank] using spoken

end Moved

def AllShaped (b : Backend) : Prop :=
  ∀ a ∈ b.records, a.HasShape

theorem next_allShaped (c : Config) (sound : site.store.IsSound) (h : AllShaped site.store)
    (e : Event) : AllShaped (next c site e).store := by
  intro a ha
  cases origin_of_mem c sound ha with
  | old there => exact h a there
  | new opened => exact Authorisation.hasShape_ofDraft _ _
  | @moved now u n stored o moved =>
    exact moved.hasShape (h stored (List.mem_of_getElem? moved.position))

theorem run_allShaped (c : Config) (fresh : site.store.isFresh = true) (events : List Event) :
    AllShaped (run c site events).store := by
  have start : AllShaped site.store := by
    intro a ha
    rw [records_of_isFresh fresh] at ha
    cases ha
  exact run_invariant c (P := fun _ s => AllShaped s.store) [] (isSound_of_isFresh fresh) events
    (fun _ _ e _ sound h => next_allShaped c sound h e) start

theorem run_retains (c : Config) (sound : site.store.IsSound)
    (there : site.store.records[n]? = some a) (events : List Event) :
    ∃ b, (run c site events).store.records[n]? = some b ∧ b.id = a.id ∧ a.Retains b := by
  refine run_invariant c (P := fun _ s => ∃ b, s.store.records[n]? = some b ∧ b.id = a.id ∧
    a.Retains b) [] sound events ?_ ⟨a, there, rfl, .refl a⟩
  rintro _ s e - sound' ⟨b, there', id, retained⟩
  obtain ⟨d, there'', kept | ⟨now, u, o, rfl, rfl, moved⟩⟩ := record_cases c sound' there' e
  · rw [kept] at there''
    exact ⟨b, there'', id, retained⟩
  · exact ⟨_, there'', id, retained.trans (b.retains_apply _)⟩

/-- Along every run, whatever the bank answers, an authorisation holds what belongs to its stage: it
has no method, challenge or secret before a method is chosen or when it is exempted, a method from
then on, an answer that is not blank when it is started, and as many versions as it took to get
there. A method, challenge or secret that is stored once is never removed, neither by the rest of
the run nor by any other write that the store accepts. -/
theorem records_have_shape (c : Config) (site : Site Backend) (fresh : site.store.isFresh = true)
    (before after : List Event) {n : Nat} {a : Authorisation}
    (there : (run c site before).store.records[n]? = some a) :
    a.HasShape ∧
    (∃ b, (run c site (before ++ after)).store.records[n]? = some b ∧ b.id = a.id ∧
      a.Retains b) ∧
    ∀ id version u written store,
      Store.updateAuthorisation (run c site before).store id version u = (.ok written, store) →
      ∃ b, store.records[n]? = some b ∧ b.id = a.id ∧ a.Retains b := by
  have sound := run_sound c (isSound_of_isFresh fresh) before
  refine ⟨run_allShaped c fresh before a (List.mem_of_getElem? there), ?_, ?_⟩
  · rw [run_append]
    exact run_retains c sound there after
  · intro id version u written store accepted
    obtain ⟨⟨m, b, position, named, free, rfl, records⟩, -⟩ := updateAuthorisation_ok sound accepted
    rw [records, List.getElem?_set]
    by_cases here : m = n
    · subst here
      obtain rfl := Option.some.inj (position.symm.trans there)
      have bound := (List.getElem?_eq_some_iff.mp there).1
      rw [if_pos rfl, if_pos bound]
      exact ⟨_, rfl, rfl, b.retains_apply u⟩
    · rw [if_neg here]
      exact ⟨a, there, rfl, .refl a⟩

theorem started_payment_has_shape :
    ∃ a b, (run {} Samples.site (Samples.started .initiation)).store.records[0]? = some a ∧
      a.status = .started ∧ a.HasShape ∧ a.secret = some ⟨"123456"⟩ ∧
      (run {} Samples.site (Samples.started .initiation ++ Samples.conclusion)).store.records[0]? =
        some b ∧
      b.id = a.id ∧ a.Retains b := by
  obtain ⟨shape, ⟨b, there, id, retained⟩, -⟩ := records_have_shape {} Samples.site rfl
    (Samples.started .initiation) Samples.conclusion (n := 0) rfl
  exact ⟨_, b, rfl, rfl, shape, rfl, there, id, retained⟩

end Engine

end StrongAuth
