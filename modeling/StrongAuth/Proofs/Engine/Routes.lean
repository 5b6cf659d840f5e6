import StrongAuth.Proofs.Engine.Changes

set_option autoImplicit false

namespace StrongAuth
open StrongAuth.Calendar StrongAuth.Backend

namespace Sca.Status

theorem not_isGranted_of_live {s : Status} (live : s.isTerminal = false) :
    s.isGranted = false := by
  cases s <;> first | rfl | cases live

theorem isGranted_iff {s : Status} : s.isGranted = true ↔ s = .finalised ∨ s = .exempted := by
  cases s <;> simp [isGranted]

end Sca.Status

theorem Purpose.needsCode_iff {p : Purpose} {c : Config} {approach : Sca.Approach} :
    p.needsCode c approach = true ↔ p.isPayment = true ∧ c.confirmationMandated = true ∧
      (approach = .embedded ∨ approach = .decoupled) := by
  simp [needsCode, and_assoc]

inductive Route (c : Config) (p : Purpose) (s : Backend) (a : Attempt) :
    List Bank.Exchange → Outcome → Prop where
  | waived {parent : Parent} {o : Outcome} (after : o.status = .exempted) :
      Route c p s a [.exemption a.context parent (.ok true)] o
  | deferred {parent : Parent} {store : Backend} {o : Outcome}
      (uncoded : p.needsCode c a.approach = false)
      (found : p.findParent s a.parentId = (.ok (some parent), store))
      (others : p.AwaitsOthers store a.context parent) (after : o.status = .finalised) :
      Route c p s a [] o
  | effected {parent : Parent} {store : Backend} {x : Bank.Exchange} {e : Purpose.Effect}
      (uncoded : p.needsCode c a.approach = false)
      (found : p.findParent s a.parentId = (.ok (some parent), store))
      (ready : p.isReady store a.context parent = true) (context : x.context = a.context)
      (call : x.call = p.effectCall) (answered : x.effect? = some e)
      (success : e.verdict = .success) : Route c p s a [x] (a.ofEffect e)
  | confirmedLocally {code secret : Secret} {o : Outcome}
      (before : a.status = .methodSelected ∨ a.status = .started)
      (coded : p.needsCode c a.approach = true) (checker : c.checksCodesLocally = true)
      (given : a.code = some code) (spoken : code.isBlank = false)
      (stored : a.storedSecret = some secret) (same : secret.matchesCode code = true)
      (after : o.status = .finalised) : Route c p s a [] o
  | confirmedAtBank {code : Secret} {order : Order} {handle : String} {check : Bank.CodeCheck}
      (before : a.status = .methodSelected ∨ a.status = .started)
      (coded : p.needsCode c a.approach = true) (checker : c.checksCodesLocally = false)
      (given : a.code = some code) (spoken : code.isBlank = false)
      (verdict : check.scaStatus = .finalised) :
      Route c p s a [.codeCheck a.context code order handle (.ok check)] (a.ofCodeCheck check)

def Attempt.IsRouted (a : Attempt) (c : Config) (p : Purpose) (site : Site Backend)
    (result : Outcome × Site Backend) : Prop :=
  result.1.status.isGranted = true →
    ∃ xs, site.bank.Hears xs result.2.bank ∧ Route c p site.store a xs result.1

theorem Transcript.waived_of_exempted {a : Attempt} {xs : List Bank.Exchange} {o : Outcome}
    (h : Transcript a xs o) (live : a.status.isTerminal = false) (after : o.status = .exempted) :
    ∃ parent, xs = [.exemption a.context parent (.ok true)] := by
  have other {s : Sca.Status} (there : o.status = s) (wrong : s ≠ .exempted) : False :=
    wrong (there.symm.trans after)
  have alive : a.status ≠ .exempted := by
    intro ended
    rw [ended] at live
    cases live
  cases h with
  | refused harmless still bare =>
    rcases still with still | still
    · exact (other still alive).elim
    · exact (other still nofun).elim
  | @exempted parent => exact ⟨parent, rfl⟩
  | identified _ _ there | authenticated _ there | selected _ _ _ there | verified _ _ there
  | deferred _ there | confirmedLocally _ _ _ _ _ there => exact (other there nofun).elim
  | unanswered _ _ _ still => exact (other still alive).elim
  | effected =>
    rw [ofEffect_status] at after
    split at after
    · cases after
    · exact (alive after).elim
    · cases after
  | confirmedAtBank =>
    rw [ofCodeCheck_status] at after
    split at after
    · cases after
    · cases after
    · exact (alive after).elim

namespace Attempt

variable {a : Attempt} {c : Config} {p : Purpose} {site site' : Site Backend}

theorem still_isRouted {o : Outcome} (live : a.status.isTerminal = false)
    (still : o.status = a.status) : a.IsRouted c p site (o, site') := by
  intro granted
  have ungranted := Sca.Status.not_isGranted_of_live live
  rw [← still] at ungranted
  rw [ungranted] at granted
  cases granted

theorem conclude_isRouted (live : a.status = .started) :
    a.IsRouted c p site (a.conclude c p site) := by
  have alive : a.status.isTerminal = false := by
    rw [live]
    rfl
  unfold conclude
  cases coded : p.needsCode c a.approach with
  | true => exact still_isRouted alive rfl
  | false =>
    simp only [Bool.false_eq_true, if_false]
    unfold withParent
    split
    · next parent store found =>
      dsimp only
      split
      · next e bank finalised =>
        rcases Purpose.finalise_cases finalised with ⟨ready, x, asked⟩ | ⟨-, quiet, same⟩
        · have status := Transcript.ofEffect_status a e
          cases verdict : e.verdict with
          | success =>
            intro _
            exact ⟨[x], asked.heard,
              .effected coded found ready asked.context asked.call asked.answered verdict⟩
          | attemptFailure =>
            rw [verdict] at status
            exact still_isRouted alive status
          | failure =>
            rw [verdict] at status
            intro granted
            simp only [status] at granted
            cases granted
        · obtain ⟨rfl, others⟩ := same e rfl
          intro _
          refine ⟨[], ?_, .deferred coded found others rfl⟩
          rw [quiet]
          exact .refl _
      · exact still_isRouted alive rfl
    · exact still_isRouted alive rfl
    · exact still_isRouted alive rfl

theorem step_isRouted (live : a.status.isTerminal = false) :
    a.IsRouted c p site (a.step c p site) := by
  rw [step_eq_currentStep]
  cases status : a.status with
  | started =>
    unfold currentStep
    rw [status]
    exact conclude_isRouted status
  | finalised | failed | exempted =>
    rw [status] at live
    cases live
  | received | psuIdentified | psuAuthenticated | methodSelected =>
    intro granted
    have steps : a.StepsTo p site _ (a.currentStep c p site) := currentStep_steps c
    obtain ⟨xs, conducted, -⟩ := steps
    have permits := (currentStep_result a c p site).permits
    -- The table of moves leaves nothing but the exemption, and that from `received` only.
    have after : (a.currentStep c p site).1.status = .exempted := by
      rw [status] at permits
      rcases Sca.Status.isGranted_iff.mp granted with after | after
      · rw [after] at permits
        cases permits
      · exact after
    obtain ⟨parent, rfl⟩ := conducted.transcript.waived_of_exempted live after
    exact ⟨_, conducted.heard, .waived after⟩

theorem confirmAtBank_isRouted {code : Secret} (live : a.status.isTerminal = false)
    (before : a.status = .methodSelected ∨ a.status = .started)
    (coded : p.needsCode c a.approach = true) (checker : c.checksCodesLocally = false)
    (given : a.code = some code) (spoken : code.isBlank = false) :
    a.IsRouted c p site (a.confirmAtBank p code site) := by
  unfold confirmAtBank
  split
  · exact still_isRouted live rfl
  · exact still_isRouted live rfl
  · next parent store found =>
    split
    · next check bank checked =>
      intro granted
      have verdict : check.scaStatus = .finalised := by
        have status := Transcript.ofCodeCheck_status a check
        have ungranted := Sca.Status.not_isGranted_of_live live
        simp only [status] at granted
        cases verdict : check.scaStatus <;> simp_all [Sca.Status.isGranted]
      rcases Purpose.checkCode_cases checked with
        ⟨-, order, handle, answer, heard, answered⟩ | ⟨-, -, silent⟩
      · cases answer with
        | error fault => cases answered
        | ok check' =>
          cases answered
          exact ⟨_, heard, .confirmedAtBank before coded checker given spoken verdict⟩
      · cases silent
    · exact still_isRouted live rfl

theorem confirm_isRouted (live : a.status.isTerminal = false) :
    a.IsRouted c p site (a.confirm c p (.ofFlag c.checksCodesLocally) site) := by
  unfold confirm
  split
  · exact still_isRouted live rfl
  · split
    · exact still_isRouted live rfl
    · next coded =>
      split
      · exact still_isRouted live rfl
      · next selected =>
        have used : p.needsCode c a.approach = true := by simpa using coded
        have before : a.status = .methodSelected ∨ a.status = .started := by
          rw [Bool.not_eq_true, Bool.not_eq_false'] at selected
          simpa using selected
        split
        · exact still_isRouted live rfl
        · next code found =>
          obtain ⟨given, spoken⟩ := givenCode_eq_some found
          cases checker : c.checksCodesLocally with
          | false => exact confirmAtBank_isRouted live before used checker given spoken
          | true =>
            simp only [CodeChecker.ofFlag, if_true, confirmLocally]
            split
            · next secret stored =>
              split
              · next same =>
                intro _
                exact ⟨[], .refl _,
                  .confirmedLocally before used checker given spoken stored same rfl⟩
              · exact still_isRouted live rfl
            · exact still_isRouted live rfl

end Attempt

namespace Engine

variable {c : Config} {now : Instant} {site site' : Site Backend} {u : UpdateRequest} {n : Nat}
  {stored : Authorisation} {o : Outcome} {after : Backend} {p : Purpose} {a : Attempt}

theorem record_isRouted (live : a.status.isTerminal = false)
    (h : a.IsRouted c p site (o, site')) : a.IsRouted c p site (record site' p a o) := by
  unfold record
  rw [live]
  simp only [Bool.false_eq_true, if_false]
  split
  · exact h
  · exact Attempt.still_isRouted live rfl

theorem advance_isRouted (c : Config) (site : Site Backend) (p : Purpose)
    (live : a.status.isTerminal = false) : a.IsRouted c p site (advance c site p a) := by
  unfold advance
  cases a.hasCode with
  | true => exact record_isRouted live (Attempt.confirm_isRouted live)
  | false =>
    cases a.incomplete with
    | some m => exact Attempt.still_isRouted live rfl
    | none => exact record_isRouted live (Attempt.step_isRouted live)

/-- An update that granted an authorisation did so by one of the routes. -/
theorem Moved.route (h : Moved site now u (turn c now site u) n stored o after)
    (granted : o.status.isGranted = true) :
    Route c stored.purpose site.store (.of u stored) (turn c now site u).exchanges o := by
  have answer := h.answer
  simp only [turn, update_of_admitted h.admitted, Except.ok.injEq] at answer
  subst answer
  obtain ⟨xs, heard, route⟩ := advance_isRouted c site stored.purpose h.live granted
  have exchanges : (turn c now site u).exchanges = xs := by
    simp only [turn, update_of_admitted h.admitted, heard.log, List.drop_left]
  rw [exchanges]
  exact route

/-- The bank is asked to act on a parent without a code only where no code is used. -/
theorem call_of_conclusive (admitted : Admitted site.store now u stored) {x : Bank.Exchange}
    (hx : x ∈ (turn c now site u).exchanges) (loud : x.isConclusive = true) :
    x.call = .codeCheck ∨ stored.purpose.needsCode c stored.approach = false := by
  obtain ⟨_, _, -, reaches, calls, -⟩ := update_conducted c admitted
  cases coded : (Attempt.of u stored).hasCode with
  | true => exact .inl (calls coded x hx)
  | false =>
    right
    have asked : (turn c now site u).exchanges.any (·.isConclusive) = true :=
      List.any_eq_true.mpr ⟨x, hx, loud⟩
    rw [reaches, Attempt.reachesBank] at asked
    simp only [coded, Bool.false_eq_true, if_false, Purpose.ifFound_and, Bool.and_eq_true,
      Bool.not_eq_true'] at asked
    exact asked.2.1

end Engine

end StrongAuth
