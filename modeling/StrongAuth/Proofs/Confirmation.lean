import StrongAuth.Proofs.Engine.Routes
import StrongAuth.Proofs.Lifecycle
import StrongAuth.Samples

set_option autoImplicit false

namespace StrongAuth
open StrongAuth.Calendar StrongAuth.Backend

/-- The turn brought a code for this authorisation while one could be accepted, and it was right: it
is the stored secret to the letter, or the bank found it to be the right one. -/
structure Turn.Confirms (t : Turn) (c : Config) (a : Authorisation) (code : Secret) : Prop where
  named : t.request.authorisationId = a.id
  given : t.request.code = some code
  spoken : code.isBlank = false
  before : a.status = .methodSelected ∨ a.status = .started
  stored : c.checksCodesLocally = true → ∃ secret, a.secret = some secret ∧
    secret.reveal = code.reveal
  checked : c.checksCodesLocally = false →
    ∃ (context : Bank.Context) (order : Order) (handle : String) (check : Bank.CodeCheck),
      .codeCheck context code order handle (.ok check) ∈ t.exchanges ∧
      context.authorisationId = a.id ∧ check.scaStatus = .finalised

theorem Route.confirms {c : Config} {s : Backend} {u : UpdateRequest} {a : Authorisation}
    {t : Turn} {o : Outcome} (route : Route c a.purpose s (.of u a) t.exchanges o)
    (named : u.authorisationId = a.id) (request : t.request = u)
    (coded : a.purpose.needsCode c a.approach = true) (finalised : o.status = .finalised) :
    ∃ code, t.Confirms c a code := by
  generalize asked : t.exchanges = xs at route
  rw [← request] at named
  have used (uncoded : a.purpose.needsCode c a.approach = false) : False := by
    rw [coded] at uncoded
    cases uncoded
  cases route with
  | waived after =>
    rw [finalised] at after
    cases after
  | deferred uncoded => exact (used uncoded).elim
  | effected uncoded => exact (used uncoded).elim
  | @confirmedLocally code secret _ before _ checker given spoken stored same after =>
    refine ⟨code, named, request ▸ given, spoken, before, fun _ => ?_, fun atBank => ?_⟩
    · exact ⟨secret, stored, eq_of_beq same⟩
    · rw [checker] at atBank
      cases atBank
  | @confirmedAtBank code order handle check before _ checker given spoken verdict =>
    refine ⟨code, named, request ▸ given, spoken, before, fun locally => ?_, fun _ => ?_⟩
    · rw [checker] at locally
      cases locally
    · refine ⟨(Attempt.of u a).context, order, handle, check, ?_, rfl, verdict⟩
      rw [asked]
      exact List.mem_singleton_self _

namespace Engine

variable {c : Config} {site : Site Backend} {n : Nat} {a b : Authorisation}

theorem next_confirms (c : Config) (sound : site.store.IsSound)
    (there : site.store.records[n]? = some a) (coded : a.purpose.needsCode c a.approach = true)
    {e : Event} (after : (next c site e).store.records[n]? = some b)
    (before : a.status ≠ .finalised) (finalised : b.status = .finalised) :
    ∃ now u code, e = .update now u ∧ (turn c now site u).Confirms c a code := by
  have changed : b.status ≠ a.status := by
    rw [finalised]
    exact before.symm
  obtain ⟨now, u, o, rfl, rfl, moved⟩ := moved_of_status_ne c sound there after changed
  have granted : o.status.isGranted = true := Sca.Status.isGranted_iff.mpr (.inl finalised)
  have named := (steps_of_moved sound moved).named
  obtain ⟨code, confirms⟩ := (moved.route granted).confirms named rfl coded finalised
  exact ⟨now, u, code, rfl, confirms⟩

theorem run_unconfirmed (c : Config) (sound : site.store.IsSound)
    (there : site.store.records[n]? = some a) (coded : a.purpose.needsCode c a.approach = true)
    (before : a.status ≠ .finalised) (events : List Event)
    (uncoded : ∀ now u, .update now u ∈ events → u.authorisationId = a.id →
      Secret.isGiven u.code = false)
    (after : (run c site events).store.records[n]? = some b) : b.status ≠ .finalised := by
  -- From the front: after one event it is still the same authorisation, and not finalised.
  induction events generalizing site a with
  | nil =>
    obtain rfl := Option.some.inj (there.symm.trans after)
    exact before
  | cons e events ih =>
    obtain ⟨d, there', becomes⟩ := run_record c sound there [e]
    have still : d.status ≠ .finalised := by
      intro finalised
      obtain ⟨now, u, code, rfl, confirms⟩ :=
        next_confirms c sound there coded there' before finalised
      have blank := uncoded now u List.mem_cons_self confirms.named
      have given := confirms.given
      have spoken := confirms.spoken
      change u.code = some code at given
      rw [given] at blank
      simp [Secret.isGiven, Text.isGiven] at blank
      rw [Secret.isBlank, blank] at spoken
      cases spoken
    refine ih ((change_of_next c sound e).sound sound) there' ?_ still ?_ after
    · rw [becomes.purpose, becomes.approach]
      exact coded
    · intro now u later named
      exact uncoded now u (List.mem_cons_of_mem e later) (named.trans becomes.id)

theorem calls_of_coded (c : Config) (sound : site.store.IsSound) (events : List Event)
    (last : (run c site events).store.records[n]? = some a)
    (coded : a.purpose.needsCode c a.approach = true) {t : Turn} (ht : t ∈ turns c site events)
    {x : Bank.Exchange} (hx : x ∈ t.exchanges) (about : x.context.authorisationId = a.id) :
    x.call ≠ .execution ∧ x.call ≠ .cancellation := by
  obtain ⟨early, now, u, late, rfl, rfl⟩ := exists_of_mem_turns ht
  have sound' := run_sound c sound early
  obtain ⟨stored, admitted⟩ := admitted_of_mem hx
  obtain ⟨o, site', conducted, -⟩ := update_conducted c admitted
  obtain ⟨k, position, -⟩ := authorisation_ok sound' admitted.found
  obtain ⟨d, there, becomes⟩ := run_record c sound' position (.update now u :: late)
  rw [← run_append] at there
  have named : d.id = a.id := by
    rw [becomes.id, ← about, conducted.transcript.context_of_mem hx]
    rfl
  obtain rfl : k = n := (run_sound c sound _).distinct.unique there last named
  obtain rfl := Option.some.inj (there.symm.trans last)
  rw [becomes.purpose, becomes.approach] at coded
  have acts (loud : x.isConclusive = true) : x.call = .codeCheck := by
    rcases call_of_conclusive admitted hx loud with check | uncoded
    · exact check
    · rw [coded] at uncoded
      cases uncoded
  refine ⟨fun executes => ?_, fun cancels => ?_⟩
  · have loud : x.isConclusive = true := by cases x <;> first | rfl | cases executes
    rw [acts loud] at executes
    cases executes
  · have loud : x.isConclusive = true := by cases x <;> first | rfl | cases cancels
    rw [acts loud] at cancels
    cases cancels

/-- Where codes are mandated, along every run and for an embedded or decoupled authorisation of a
payment: what finalises it is an update with the right code; updates that bring it none, or blank
ones, never do; and the bank is never asked to execute or cancel the payment on its behalf. -/
theorem coded_payment_finalised_by_code (c : Config) (mandated : c.confirmationMandated = true)
    (site : Site Backend) (fresh : site.store.isFresh = true) (before after : List Event)
    (there : (run c site before).store.records[n]? = some a) (sort : a.purpose.isPayment = true)
    (approach : a.approach = .embedded ∨ a.approach = .decoupled) :
    (∀ e b, (next c (run c site before) e).store.records[n]? = some b →
      a.status ≠ .finalised → b.status = .finalised →
      ∃ now u code, e = .update now u ∧ (turn c now (run c site before) u).Confirms c a code) ∧
    ((∀ now u, .update now u ∈ after → u.authorisationId = a.id →
        Secret.isGiven u.code = false) →
      a.status ≠ .finalised →
      ∀ b, (run c site (before ++ after)).store.records[n]? = some b → b.status ≠ .finalised) ∧
    (∀ t ∈ turns c site (before ++ after), ∀ x ∈ t.exchanges,
      x.context.authorisationId = a.id → x.call ≠ .execution ∧ x.call ≠ .cancellation) := by
  have coded := Purpose.needsCode_iff.mpr ⟨sort, mandated, approach⟩
  have start := isSound_of_isFresh fresh
  have sound := run_sound c start before
  refine ⟨?_, ?_, ?_⟩
  · intro e b later unfinished finalised
    exact next_confirms c sound there coded later unfinished finalised
  · intro uncoded unfinished b later
    rw [run_append] at later
    exact run_unconfirmed c sound there coded unfinished after uncoded later
  · intro t ht x hx about
    obtain ⟨d, last, becomes⟩ := run_record c sound there after
    rw [← run_append] at last
    rw [← becomes.id] at about
    refine calls_of_coded c start (before ++ after) last ?_ ht hx about
    rw [becomes.purpose, becomes.approach]
    exact coded

theorem started_payment_finalised_by_code :
    ∃ a b, (run (Samples.coded true) Samples.site (Samples.started .initiation)).store.records[0]? =
        some a ∧
      (next (Samples.coded true)
        (run (Samples.coded true) Samples.site (Samples.started .initiation))
        (Samples.confirming .initiation "123456")).store.records[0]? = some b ∧
      a.status = .started ∧ b.status = .finalised ∧
      (∃ now u code, Samples.confirming .initiation "123456" = .update now u ∧
        (turn (Samples.coded true) now
          (run (Samples.coded true) Samples.site (Samples.started .initiation)) u).Confirms
          (Samples.coded true) a code) ∧
      (∀ d, (run (Samples.coded true) Samples.site (Samples.started .initiation ++
          [Samples.confirming .initiation " "])).store.records[0]? = some d →
        d.status ≠ .finalised) ∧
      ∀ t ∈ turns (Samples.coded true) Samples.site (Samples.started .initiation ++
          [Samples.confirming .initiation " "]), ∀ x ∈ t.exchanges,
        x.context.authorisationId = a.id → x.call ≠ .execution ∧ x.call ≠ .cancellation := by
  obtain ⟨finalises, blank, calls⟩ := coded_payment_finalised_by_code (Samples.coded true) rfl
    Samples.site rfl (Samples.started .initiation) [Samples.confirming .initiation " "]
    (n := 0) rfl rfl (.inl rfl)
  refine ⟨_, _, rfl, rfl, rfl, rfl, finalises _ _ rfl nofun rfl, blank ?_ nofun, calls⟩
  intro now u event _
  cases List.mem_singleton.mp event
  rfl

end Engine

end StrongAuth
