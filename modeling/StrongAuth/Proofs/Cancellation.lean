import StrongAuth.Proofs.Engine.Routes
import StrongAuth.Samples

set_option autoImplicit false

namespace StrongAuth
open StrongAuth.Calendar StrongAuth.Backend

/-- What an update did that granted a cancellation, and the status that it led to. -/
inductive Turn.Grants (t : Turn) (c : Config) (a : Authorisation) : Sca.Status → Prop where
  | cancelled {context : Bank.Context} {order : Order} {x : Bank.Execution}
      (asked : .cancellation context order (.ok x) ∈ t.exchanges)
      (about : context.authorisationId = a.id ∧ context.parentId = a.parentId)
      (verdict : x.verdict = .success) : Grants t c a .finalised
  | checkedByBank {context : Bank.Context} {code : Secret} {order : Order} {handle : String}
      {check : Bank.CodeCheck} (checker : c.checksCodesLocally = false)
      (asked : .codeCheck context code order handle (.ok check) ∈ t.exchanges)
      (about : context.authorisationId = a.id ∧ context.parentId = a.parentId)
      (given : t.request.code = some code) (spoken : code.isBlank = false)
      (verdict : check.scaStatus = .finalised) : Grants t c a .finalised
  | waived {context : Bank.Context} {parent : Parent}
      (asked : t.exchanges = [.exemption context parent (.ok true)])
      (about : context.authorisationId = a.id ∧ context.parentId = a.parentId) :
      Grants t c a .exempted
  | checkedHere {code secret : Secret} (mandated : c.confirmationMandated = true)
      (checker : c.checksCodesLocally = true)
      (approach : a.approach = .embedded ∨ a.approach = .decoupled) (quiet : t.exchanges = [])
      (given : t.request.code = some code) (spoken : code.isBlank = false)
      (stored : a.secret = some secret) (same : secret.reveal = code.reveal) :
      Grants t c a .finalised

theorem Bank.Exchange.cancellation_of_call {x : Bank.Exchange} {e : Purpose.Effect}
    (call : x.call = .cancellation) (answered : x.effect? = some e) :
    ∃ context order y, x = .cancellation context order (.ok y) ∧ y.verdict = e.verdict := by
  cases x with
  | cancellation context order answer =>
    cases answer with
    | ok y =>
      cases answered
      exact ⟨context, order, y, rfl, rfl⟩
    | error fault => cases answered
  | exemption | credentials | methods | startMethod | verification | confirmation | execution
  | codeCheck => cases call

theorem Route.grants {c : Config} {s : Backend} {u : UpdateRequest} {a : Authorisation} {t : Turn}
    {o : Outcome} (route : Route c a.purpose s (.of u a) t.exchanges o) (request : t.request = u)
    (cancels : a.purpose = .cancellation) : t.Grants c a o.status := by
  generalize asked : t.exchanges = xs at route
  cases route with
  | waived after =>
    rw [after]
    exact .waived asked ⟨rfl, rfl⟩
  | deferred uncoded found others =>
    rw [cancels] at others
    cases others.1
  | @effected parent store x e uncoded found ready context call answered success =>
    rw [cancels] at call
    obtain ⟨about, order, y, rfl, verdict⟩ := Bank.Exchange.cancellation_of_call call answered
    have finalised : ((Attempt.of u a).ofEffect e).status = .finalised := by
      rw [Transcript.ofEffect_status, success]
    change about = (Attempt.of u a).context at context
    rw [finalised]
    refine .cancelled (asked.symm ▸ List.mem_singleton_self _) ?_ (verdict.trans success)
    rw [context]
    exact ⟨rfl, rfl⟩
  | confirmedLocally before coded checker given spoken stored same after =>
    obtain ⟨-, mandated, approach⟩ := Purpose.needsCode_iff.mp coded
    rw [after]
    exact .checkedHere mandated checker approach asked (request ▸ given) spoken stored
      (eq_of_beq same)
  | @confirmedAtBank code order handle check before coded checker given spoken verdict =>
    have finalised : ((Attempt.of u a).ofCodeCheck check).status = .finalised := by
      rw [Transcript.ofCodeCheck_status, verdict]
    rw [finalised]
    exact .checkedByBank checker (asked.symm ▸ List.mem_singleton_self _) ⟨rfl, rfl⟩
      (request ▸ given) spoken verdict

namespace Engine

variable {c : Config} {site : Site Backend} {n : Nat} {a b : Authorisation}

/-- Along every run, whatever grants a cancellation is an update in which the bank cancelled the
payment, the bank found the code right, the bank waived strong authentication, or the deployment
itself found the code to be the stored secret. -/
theorem granted_cancellation (c : Config) (site : Site Backend)
    (fresh : site.store.isFresh = true) (events : List Event) (e : Event)
    (there : (run c site events).store.records[n]? = some a) (cancels : a.purpose = .cancellation)
    (before : a.status.isGranted = false)
    (after : (run c site (events ++ [e])).store.records[n]? = some b)
    (granted : b.status.isGranted = true) :
    ∃ now u, e = .update now u ∧ (turn c now (run c site events) u).Grants c a b.status := by
  have sound := run_sound c (isSound_of_isFresh fresh) events
  rw [run_append] at after
  have changed : b.status ≠ a.status := by
    intro same
    rw [same, before] at granted
    cases granted
  obtain ⟨now, u, o, rfl, rfl, moved⟩ := moved_of_status_ne c sound there after changed
  exact ⟨now, u, rfl, (moved.route granted).grants rfl cancels⟩

theorem cancellation_granted_by_code :
    ∃ a b, (run (Samples.coded true) Samples.site (Samples.started .cancellation)).store.records[0]?
        = some a ∧
      (run (Samples.coded true) Samples.site (Samples.started .cancellation ++
        [Samples.confirming .cancellation "123456"])).store.records[0]? = some b ∧
      a.status = .started ∧ b.status = .finalised ∧
      ∃ now u, Samples.confirming .cancellation "123456" = .update now u ∧
        (turn (Samples.coded true) now
          (run (Samples.coded true) Samples.site (Samples.started .cancellation)) u).Grants
          (Samples.coded true) a b.status :=
  ⟨_, _, rfl, rfl, rfl, rfl, granted_cancellation (Samples.coded true) Samples.site rfl
    (Samples.started .cancellation) (Samples.confirming .cancellation "123456") (n := 0)
    rfl rfl rfl rfl rfl⟩

/-- A cancellation that is exempted, or confirmed by a code that the deployment checks, counts as
authorised and stands in the way of another one, although the bank was never asked to cancel the
payment and never checked a code. -/
theorem granted_cancellation_untold :
    Samples.site.store.isFresh = true ∧
      (run {} Samples.site (Samples.waived .cancellation)).store.records.map (·.status) =
        [.exempted] ∧
      (∀ t ∈ turns {} Samples.site (Samples.waived .cancellation), ∀ x ∈ t.exchanges,
        x.call ≠ .cancellation ∧ x.call ≠ .codeCheck) ∧
      (start {} Samples.moment (run {} Samples.site (Samples.waived .cancellation)).store
        (.toPurpose .cancellation "payment")).toOption.map (·.1) =
        some (.error (.alreadyAuthorised "payment")) ∧
      (run (Samples.coded true) Samples.site (Samples.started .cancellation ++
        [Samples.confirming .cancellation "123456"])).store.records.map (·.status) =
        [.finalised] ∧
      ∀ t ∈ turns (Samples.coded true) Samples.site (Samples.started .cancellation ++
        [Samples.confirming .cancellation "123456"]), ∀ x ∈ t.exchanges,
        x.call ≠ .cancellation ∧ x.call ≠ .codeCheck :=
  ⟨rfl, rfl, by decide, rfl, rfl, by decide⟩

end Engine

end StrongAuth
