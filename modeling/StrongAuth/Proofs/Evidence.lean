import StrongAuth.Proofs.Lifecycle

set_option autoImplicit false

/-!
# No authorisation without evidence

Whatever status an authorisation has reached, the history of its updates holds the answers of the
bank that it was reached by. The stored secret needs care: it is the code that the bank issued until
the answer of the PSU has been verified, and that answer from then on.
-/
namespace StrongAuth

namespace Psu

theorem isSame_self {p : Psu} (h : p.isEmpty = false) : p.isSame p = true := by
  rw [isSame_iff]
  exact ⟨h, rfl, rfl⟩

theorem isSame_trans {p q r : Psu} (h : p.isSame q = true) (k : q.isSame r = true) :
    p.isSame r = true := by
  rw [isSame_iff] at h k ⊢
  exact ⟨h.1, h.2.1.trans k.2.1, h.2.2.trans k.2.2⟩

theorem given_of_isSame {p q : Psu} (h : p.isSame q = true) : q.isEmpty = false := by
  rw [isSame_comm, isSame_iff] at h
  exact h.1

end Psu

structure Turn.IsOf (t : Turn) (id : String) (past : List Turn) : Prop where
  earlier : t ∈ past
  named : t.request.authorisationId = id

namespace Evidence

variable {past more : List Turn} {a b : Authorisation}

/-- The bank accepted the credentials of the PSU. -/
def Authenticated (past : List Turn) (a : Authorisation) : Prop :=
  ∃ (t : Turn) (context : Bank.Context) (password : Secret) (parent : Parent),
    t.IsOf a.id past ∧ .credentials context password parent (.ok .success) ∈ t.exchanges ∧
    context.authorisationId = a.id ∧ context.psu.isSame a.psu = true

/-- The bank started this method, which it had offered and the PSU had named. -/
def Selected (past : List Turn) (a : Authorisation) (started : Bank.MethodStart) : Prop :=
  a.method = some started.method ∧
    ∃ (t : Turn) (context : Bank.Context) (parent : Parent) (methodId : String)
      (methods : List Sca.Method), t.IsOf a.id past ∧ context.authorisationId = a.id ∧
      t.request.methodId = some methodId ∧ (∃ m ∈ methods, m.id = methodId) ∧
      .methods context parent (.ok methods) ∈ t.exchanges ∧
      .startMethod context methodId parent (.ok started) ∈ t.exchanges

/-- The bank verified this answer of the PSU. -/
def Verified (past : List Turn) (a : Authorisation) (data : Secret) : Prop :=
  ∃ (t : Turn) (context : Bank.Context) (parent : Parent), t.IsOf a.id past ∧
    context.authorisationId = a.id ∧
    .verification context data parent (.ok .success) ∈ t.exchanges

/-- The authorisation was finalised by an update with a confirmation code: the one that was issued
with the method, or one that the bank accepted itself. -/
def Confirmed (past : List Turn) (a : Authorisation) : Prop :=
  ∃ (t : Turn) (o : Outcome) (code : Secret), t.IsOf a.id past ∧ t.answer = .ok o ∧
    o.status = .finalised ∧ o.error = none ∧ t.request.code = some code ∧ code.isBlank = false ∧
    ((∃ started, Selected past a started ∧ started.confirmationCode = some code) ∨
      ∃ (context : Bank.Context) (order : Order) (handle : String) (check : Bank.CodeCheck),
        context.authorisationId = a.id ∧
        .codeCheck context code order handle (.ok check) ∈ t.exchanges ∧
        check.scaStatus = .finalised)

/-- The bank waived strong authentication. -/
def Exempted (past : List Turn) (a : Authorisation) : Prop :=
  ∃ (t : Turn) (context : Bank.Context) (parent : Parent), t.IsOf a.id past ∧
    context.authorisationId = a.id ∧
    .exemption context parent (.ok true) ∈ t.exchanges

end Evidence

/-- What the past tells about an authorisation in this status. -/
def Evidence (past : List Turn) (a : Authorisation) : Sca.Status → Prop
  | .received => a.secret = none
  | .psuIdentified => a.secret = none ∧ a.psu.isEmpty = false
  | .psuAuthenticated => a.secret = none ∧ Evidence.Authenticated past a
  | .methodSelected => Evidence.Authenticated past a ∧
      ∃ started, Evidence.Selected past a started ∧ a.secret = started.confirmationCode
  | .started => Evidence.Authenticated past a ∧ (∃ started, Evidence.Selected past a started) ∧
      ∃ data, a.secret = some data ∧ Evidence.Verified past a data
  | .finalised => Evidence.Authenticated past a ∧ (∃ started, Evidence.Selected past a started) ∧
      ((∃ data, Evidence.Verified past a data) ∨ Evidence.Confirmed past a)
  | .failed => True
  | .exempted => Evidence.Exempted past a

namespace Evidence

variable {past more : List Turn} {a b : Authorisation}

theorem isOf_append {t : Turn} {id : String} (h : t.IsOf id past) (more : List Turn) :
    t.IsOf id (past ++ more) :=
  ⟨List.mem_append_left more h.earlier, h.named⟩

theorem Authenticated.later (h : Authenticated past a) (more : List Turn) (id : b.id = a.id)
    (psu : a.psu.isSame b.psu = true) : Authenticated (past ++ more) b := by
  obtain ⟨t, context, password, parent, isOf, asked, about, same⟩ := h
  rw [← id] at isOf about
  exact ⟨t, context, password, parent, isOf_append isOf more, asked, about,
    Psu.isSame_trans same psu⟩

theorem Authenticated.given (h : Authenticated past a) : a.psu.isEmpty = false := by
  obtain ⟨t, context, password, parent, isOf, asked, about, same⟩ := h
  exact Psu.given_of_isSame same

theorem Selected.later {started : Bank.MethodStart} (h : Selected past a started)
    (more : List Turn) (id : b.id = a.id) (method : b.method = a.method) :
    Selected (past ++ more) b started := by
  obtain ⟨chosen, t, context, parent, methodId, methods, isOf, about, rest⟩ := h
  rw [← id] at isOf about
  exact ⟨method.trans chosen, t, context, parent, methodId, methods, isOf_append isOf more, about,
    rest⟩

theorem Verified.later {data : Secret} (h : Verified past a data) (more : List Turn)
    (id : b.id = a.id) : Verified (past ++ more) b data := by
  obtain ⟨t, context, parent, isOf, about, asked⟩ := h
  rw [← id] at isOf about
  exact ⟨t, context, parent, isOf_append isOf more, about, asked⟩

theorem Confirmed.later (h : Confirmed past a) (more : List Turn) (id : b.id = a.id)
    (method : b.method = a.method) : Confirmed (past ++ more) b := by
  obtain ⟨t, o, code, isOf, answer, finalised, success, given, spoken, checked⟩ := h
  rw [← id] at isOf
  refine ⟨t, o, code, isOf_append isOf more, answer, finalised, success, given, spoken, ?_⟩
  rcases checked with ⟨started, selected, issued⟩ | ⟨context, order, handle, check, about, rest⟩
  · exact .inl ⟨started, selected.later more id method, issued⟩
  · rw [← id] at about
    exact .inr ⟨context, order, handle, check, about, rest⟩

/-- Evidence does not expire, and holds for the same status of the same person. -/
theorem later (h : Evidence past a a.status) (more : List Turn) (id : b.id = a.id)
    (method : b.method = a.method) (secret : b.secret = a.secret)
    (psu : a.psu.isEmpty = false → a.psu.isSame b.psu = true) :
    Evidence (past ++ more) b a.status := by
  cases status : a.status with
  | received =>
    rw [status] at h
    exact secret.trans h
  | psuIdentified =>
    rw [status] at h
    exact ⟨secret.trans h.1, Psu.given_of_isSame (psu h.2)⟩
  | psuAuthenticated =>
    rw [status] at h
    exact ⟨secret.trans h.1, h.2.later more id (psu h.2.given)⟩
  | methodSelected =>
    rw [status] at h
    obtain ⟨auth, started, selected, issued⟩ := h
    exact ⟨auth.later more id (psu auth.given), started, selected.later more id method,
      secret.trans issued⟩
  | started =>
    rw [status] at h
    obtain ⟨auth, ⟨started, selected⟩, data, kept, verified⟩ := h
    exact ⟨auth.later more id (psu auth.given), ⟨started, selected.later more id method⟩, data,
      secret.trans kept, verified.later more id⟩
  | finalised =>
    rw [status] at h
    obtain ⟨auth, ⟨started, selected⟩, concluded⟩ := h
    refine ⟨auth.later more id (psu auth.given), ⟨started, selected.later more id method⟩, ?_⟩
    rcases concluded with ⟨data, verified⟩ | confirmed
    · exact .inl ⟨data, verified.later more id⟩
    · exact .inr (confirmed.later more id method)
  | failed => trivial
  | exempted =>
    rw [status] at h
    obtain ⟨t, context, parent, isOf, about, asked⟩ := h
    rw [← id] at isOf about
    exact ⟨t, context, parent, isOf_append isOf more, about, asked⟩

end Evidence

namespace Attempt

variable {u : UpdateRequest} {a : Authorisation}

theorem psu_given (h : a.psu.isEmpty = false) : (Attempt.of u a).psu.isEmpty = false := by
  simp only [Attempt.of]
  split
  · exact h
  · next given => exact Bool.eq_false_iff.mpr given

theorem psu_isSame (owner : (Attempt.of u a).foreignPsu a = none) (h : a.psu.isEmpty = false) :
    a.psu.isSame (Attempt.of u a).psu = true := by
  unfold foreignPsu at owner
  split at owner
  · next same =>
    rw [h, Bool.false_or] at same
    rw [Psu.isSame_comm]
    exact same
  · cases owner

theorem ofEffect_isPlain (a : Attempt) (e : Purpose.Effect) :
    (a.ofEffect e).method = none ∧ (a.ofEffect e).secret = none := by
  obtain ⟨verdict, status⟩ := e
  cases verdict <;> exact ⟨rfl, rfl⟩

theorem ofCodeCheck_isPlain (a : Attempt) (check : Bank.CodeCheck) :
    (a.ofCodeCheck check).method = none ∧ (a.ofCodeCheck check).secret = none := by
  obtain ⟨status, payment⟩ := check
  cases status <;> exact ⟨rfl, rfl⟩

end Attempt

namespace Authorisation

variable {u : UpdateRequest} {a : Authorisation} {o : Outcome}

theorem updated_method (a : Authorisation) (u : UpdateRequest) (o : Outcome) :
    (a.updated u o).method = (o.method <|> a.method) := rfl

theorem updated_secret (a : Authorisation) (u : UpdateRequest) (o : Outcome) :
    (a.updated u o).secret = (o.secret <|> a.secret) := rfl

theorem updated_method_of_none (h : o.method = none) : (a.updated u o).method = a.method := by
  rw [updated_method, h]
  rfl

theorem updated_secret_of_none (h : o.secret = none) : (a.updated u o).secret = a.secret := by
  rw [updated_secret, h]
  rfl

end Authorisation

theorem Evidence.Selected.updated {past : List Turn} {t : Turn} {u : UpdateRequest}
    {a : Authorisation} {o : Outcome} {started : Bank.MethodStart} (h : Selected past a started)
    (method : o.method = none) : Selected (past ++ [t]) (a.updated u o) started :=
  h.later _ rfl (Authorisation.updated_method_of_none method)

namespace Engine
open StrongAuth.Calendar StrongAuth.Backend StrongAuth.Evidence StrongAuth.Authorisation

variable {c : Config} {now : Instant} {site : Site Backend} {u : UpdateRequest} {n : Nat}
  {a : Authorisation} {o : Outcome} {after : Backend} {past : List Turn}

namespace Moved

theorem isOf (sound : site.store.IsSound) (h : Moved site now u (turn c now site u) n a o after)
    (past : List Turn) : (turn c now site u).IsOf a.id (past ++ [turn c now site u]) :=
  ⟨List.mem_append_right _ (List.mem_singleton_self _), (steps_of_moved sound h).named⟩

variable {t : Turn}

section
variable (h : Moved site now u t n a o after)
include h

theorem isSame (given : a.psu.isEmpty = false) : a.psu.isSame (a.updated u o).psu = true := by
  rw [updated_psu]
  exact Attempt.psu_isSame h.admitted.owner given

theorem authenticated (auth : Authenticated past a) :
    Authenticated (past ++ [t]) (a.updated u o) :=
  auth.later _ rfl (h.isSame auth.given)

theorem still (evidence : Evidence past a a.status) (method : o.method = none)
    (secret : o.secret = none) (same : o.status = a.status) :
    Evidence (past ++ [t]) (a.updated u o) o.status := by
  rw [same]
  exact evidence.later _ rfl (updated_method_of_none method) (updated_secret_of_none secret)
    h.isSame

theorem finished (evidence : Evidence past a .started) (method : o.method = none) :
    Evidence (past ++ [t]) (a.updated u o) .finalised := by
  obtain ⟨auth, ⟨started, selected⟩, data, -, verified⟩ := evidence
  exact ⟨h.authenticated auth, ⟨started, selected.updated method⟩,
    .inl ⟨data, verified.later _ rfl⟩⟩

theorem confirmed (evidence : Evidence past a .methodSelected) (method : o.method = none)
    (right : ∀ started, Selected (past ++ [t]) (a.updated u o) started →
      a.secret = started.confirmationCode → Confirmed (past ++ [t]) (a.updated u o)) :
    Evidence (past ++ [t]) (a.updated u o) .finalised := by
  obtain ⟨auth, started, selected, issued⟩ := evidence
  have selected' : Selected (past ++ [t]) (a.updated u o) started := selected.updated method
  exact ⟨h.authenticated auth, ⟨started, selected'⟩, .inr (right started selected' issued)⟩

theorem confirmedLocally {code secret : Secret} (evidence : Evidence past a a.status)
    (before : a.status = .methodSelected ∨ a.status = .started)
    (isOf : t.IsOf a.id (past ++ [t])) (given : t.request.code = some code)
    (spoken : code.isBlank = false) (stored : a.secret = some secret)
    (equal : secret.matchesCode code = true) (finished : o.status = .finalised)
    (success : o.error = none) (method : o.method = none) :
    Evidence (past ++ [t]) (a.updated u o) .finalised := by
  rcases before with before | before
  -- As long as no answer was verified, the stored secret is the code that was issued.
  · rw [before] at evidence
    refine h.confirmed evidence method fun started selected issued => ?_
    have same : secret = code := by
      obtain ⟨revealed⟩ := secret
      obtain ⟨typed⟩ := code
      simpa [Secret.matchesCode] using equal
    have kept : started.confirmationCode = some code := by
      rw [← issued, stored, same]
    exact ⟨t, o, code, isOf, h.answer, finished, success, given, spoken,
      .inl ⟨started, selected, kept⟩⟩
  · rw [before] at evidence
    exact h.finished evidence method

end

theorem effected {e : Purpose.Effect}
    (h : Moved site now u t n a ((Attempt.of u a).ofEffect e) after)
    (evidence : Evidence past a a.status) (before : a.status = .started) :
    Evidence (past ++ [t]) (a.updated u ((Attempt.of u a).ofEffect e))
      ((Attempt.of u a).ofEffect e).status := by
  have plain := (Attempt.of u a).ofEffect_isPlain e
  have status := Transcript.ofEffect_status (.of u a) e
  cases verdict : e.verdict with
  | success =>
    rw [verdict] at status
    rw [before] at evidence
    rw [status]
    exact h.finished evidence plain.1
  | attemptFailure =>
    rw [verdict] at status
    exact h.still evidence plain.1 plain.2 status
  | failure =>
    rw [verdict] at status
    rw [status]
    trivial

theorem confirmedAtBank {code : Secret} {order : Order} {handle : String} {check : Bank.CodeCheck}
    (h : Moved site now u t n a ((Attempt.of u a).ofCodeCheck check) after)
    (evidence : Evidence past a a.status)
    (before : a.status = .methodSelected ∨ a.status = .started)
    (isOf : t.IsOf a.id (past ++ [t])) (given : t.request.code = some code)
    (spoken : code.isBlank = false)
    (asked : .codeCheck (Attempt.of u a).context code order handle (.ok check) ∈ t.exchanges) :
    Evidence (past ++ [t]) (a.updated u ((Attempt.of u a).ofCodeCheck check))
      ((Attempt.of u a).ofCodeCheck check).status := by
  have plain := (Attempt.of u a).ofCodeCheck_isPlain check
  have status := Transcript.ofCodeCheck_status (.of u a) check
  cases verdict : check.scaStatus with
  | finalised =>
    have success : ((Attempt.of u a).ofCodeCheck check).error = none := by
      simp only [Attempt.ofCodeCheck, verdict]
      rfl
    rw [verdict] at status
    rw [status]
    rcases before with before | before
    · rw [before] at evidence
      refine h.confirmed evidence plain.1 fun _ _ _ => ?_
      exact ⟨t, _, code, isOf, h.answer, status, success, given, spoken,
        .inr ⟨(Attempt.of u a).context, order, handle, check, rfl, asked, verdict⟩⟩
    · rw [before] at evidence
      exact h.finished evidence plain.1
  | failed =>
    rw [verdict] at status
    rw [status]
    trivial
  | received | psuIdentified | psuAuthenticated | methodSelected | started | exempted =>
    rw [verdict] at status
    exact h.still evidence plain.1 plain.2 status

end Moved

theorem evidence_of_moved (sound : site.store.IsSound)
    (h : Moved site now u (turn c now site u) n a o after) (evidence : Evidence past a a.status) :
    Evidence (past ++ [turn c now site u]) (a.updated u o) o.status := by
  have isOf := h.isOf sound past
  have exchanges := h.transcript
  generalize asked : (turn c now site u).exchanges = xs at exchanges
  cases exchanges with
  | refused harmless still bare =>
    rcases still with still | still
    · exact h.still evidence bare.method bare.secret still
    · rw [still]
      trivial
  | @exempted parent _ before given finished bare =>
    rw [finished]
    refine ⟨_, (Attempt.of u a).context, parent, isOf, rfl, ?_⟩
    rw [asked]
    exact List.mem_singleton_self _
  | identified before given finished bare =>
    change a.status = .received at before
    rw [before] at evidence
    rw [finished]
    refine ⟨(updated_secret_of_none bare.secret).trans evidence, ?_⟩
    rw [updated_psu]
    exact given
  | @authenticated password parent _ _ before finished bare =>
    change a.status = .psuIdentified at before
    rw [before] at evidence
    have given := Attempt.psu_given (u := u) evidence.2
    rw [finished]
    refine ⟨(updated_secret_of_none bare.secret).trans evidence.1, _, (Attempt.of u a).context,
      password, parent, isOf, ?_, rfl, ?_⟩
    · rw [asked]
      exact List.mem_cons_self
    · rw [updated_psu]
      exact Psu.isSame_self given
  | @selected methodId methods parent started _ before chosen offered finished picked secret _ =>
    change a.status = .psuAuthenticated at before
    rw [before] at evidence
    have method : (a.updated u o).method = some started.method := by
      rw [updated_method, picked]
      rfl
    have issued : (a.updated u o).secret = started.confirmationCode := by
      rw [updated_secret, secret, evidence.1]
      cases started.confirmationCode <;> rfl
    rw [finished]
    refine ⟨h.authenticated evidence.2, started, ⟨method, _, (Attempt.of u a).context, parent,
      methodId, methods, isOf, rfl, chosen, offered, ?_, ?_⟩, issued⟩
    · rw [asked]
      exact List.mem_cons_self
    · rw [asked]
      exact List.mem_cons_of_mem _ (List.mem_singleton_self _)
  | @verified data parent _ before given finished unchanged secret _ =>
    change a.status = .methodSelected at before
    rw [before] at evidence
    obtain ⟨auth, started, selected, -⟩ := evidence
    have kept : (a.updated u o).secret = some data := by
      rw [updated_secret, secret]
      rfl
    rw [finished]
    refine ⟨h.authenticated auth, ⟨started, selected.updated unchanged⟩, data, kept, _,
      (Attempt.of u a).context, parent, isOf, rfl, ?_⟩
    rw [asked]
    exact List.mem_singleton_self _
  | deferred before finished bare =>
    change a.status = .started at before
    rw [before] at evidence
    rw [finished]
    exact h.finished evidence bare.method
  | @effected x e before context answered => exact h.effected evidence before
  | unanswered context conclusive fault still bare =>
    exact h.still evidence bare.method bare.secret still
  | @confirmedLocally code secret _ before given spoken stored equal finished success bare =>
    rw [finished]
    exact h.confirmedLocally evidence before isOf given spoken stored equal finished success
      bare.method
  | @confirmedAtBank code order handle check before given spoken =>
    have question : .codeCheck (Attempt.of u a).context code order handle (.ok check) ∈
        (turn c now site u).exchanges := by
      rw [asked]
      exact List.mem_singleton_self _
    exact h.confirmedAtBank evidence before isOf given spoken question

def AllEvident (past : List Turn) (b : Backend) : Prop :=
  ∀ a ∈ b.records, Evidence past a a.status

theorem AllEvident.later {b : Backend} (h : AllEvident past b) (more : List Turn) :
    AllEvident (past ++ more) b := fun a ha =>
  (h a ha).later more rfl rfl rfl Psu.isSame_self

theorem next_allEvident (c : Config) (sound : site.store.IsSound) (h : AllEvident past site.store)
    (e : Event) : AllEvident (past ++ turnsOf c site e) (next c site e).store := by
  intro a ha
  cases origin_of_mem c sound ha with
  | old there => exact h.later _ a there
  | new opened => rfl
  | @moved now u n stored o moved =>
    exact evidence_of_moved sound moved (h stored (List.mem_of_getElem? moved.position))

/-- No authorisation gets around strong authentication. The past updates of an authorisation tell:
beyond the password, that the bank accepted the credentials of the PSU who is stored; beyond the
choice of a method, that the bank started one which it had offered; that it verified the stored
answer; that it verified an answer or that the right confirmation code was given, before the end;
and that it waived all this, where nothing of it took place. -/
theorem sca_is_evidenced (c : Config) (site : Site Backend) (fresh : site.store.isFresh = true)
    (events : List Event) {a : Authorisation} (ha : a ∈ (run c site events).store.records) :
    (a.status ∈ [.psuAuthenticated, .methodSelected, .started, .finalised] →
      Authenticated (turns c site events) a) ∧
    (a.status ∈ [.methodSelected, .started, .finalised] →
      ∃ started, Selected (turns c site events) a started) ∧
    (a.status = .started →
      ∃ data, a.secret = some data ∧ Verified (turns c site events) a data) ∧
    (a.status = .finalised →
      (∃ data, Verified (turns c site events) a data) ∨ Confirmed (turns c site events) a) ∧
    (a.status = .exempted → Exempted (turns c site events) a) := by
  have sound := isSound_of_isFresh fresh
  have start : AllEvident [] site.store := by
    intro b hb
    rw [records_of_isFresh fresh] at hb
    cases hb
  have evidence : Evidence (turns c site events) a a.status :=
    run_invariant c (P := fun past s => AllEvident past s.store) [] sound events
      (fun _ _ e _ sound' h => next_allEvident c sound' h e) start a ha
  cases status : a.status with
  | received | psuIdentified | failed => simp
  | psuAuthenticated =>
    rw [status] at evidence
    simpa using evidence.2
  | methodSelected =>
    rw [status] at evidence
    obtain ⟨auth, started, selected, -⟩ := evidence
    simpa using ⟨auth, started, selected⟩
  | started =>
    rw [status] at evidence
    obtain ⟨auth, selected, verified⟩ := evidence
    simpa using ⟨auth, selected, verified⟩
  | finalised =>
    rw [status] at evidence
    obtain ⟨auth, selected, concluded⟩ := evidence
    simpa using ⟨auth, selected, concluded⟩
  | exempted =>
    rw [status] at evidence
    have waived : Exempted (turns c site events) a := evidence
    simpa using waived

theorem executed_payment_is_evidenced :
    ∃ a ∈ (run {} Samples.site Samples.executed).store.records, a.status = .finalised ∧
      Authenticated (turns {} Samples.site Samples.executed) a ∧
      (∃ started, Selected (turns {} Samples.site Samples.executed) a started) ∧
      ((∃ data, Verified (turns {} Samples.site Samples.executed) a data) ∨
        Confirmed (turns {} Samples.site Samples.executed) a) := by
  obtain ⟨a, ha, finalised⟩ : ∃ a ∈ (run {} Samples.site Samples.executed).store.records,
      a.status = .finalised := by decide
  obtain ⟨authenticated, selected, -, concluded, -⟩ :=
    sca_is_evidenced {} Samples.site rfl Samples.executed ha
  refine ⟨a, ha, finalised, authenticated ?_, selected ?_, concluded finalised⟩
  · rw [finalised]
    decide
  · rw [finalised]
    decide

end Engine

end StrongAuth
