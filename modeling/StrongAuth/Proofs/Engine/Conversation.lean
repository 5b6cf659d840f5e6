import StrongAuth.Bank

set_option autoImplicit false

namespace StrongAuth.Bank

namespace Desk

def SameSettings (d d' : Desk) : Prop := ∃ calls, d' = { d with calls }

theorem SameSettings.refl (d : Desk) : d.SameSettings d := ⟨d.calls, rfl⟩

theorem SameSettings.trans {d d' d'' : Desk} (h : d.SameSettings d') (k : d'.SameSettings d'') :
    d.SameSettings d'' := by
  obtain ⟨_, rfl⟩ := h
  obtain ⟨calls, rfl⟩ := k
  exact ⟨calls, rfl⟩

theorem attend_desk {α : Type} (d : Desk) (call : Call) (answer : Answer α) :
    (d.attend call answer).2 = { d with calls := d.calls ++ [call] } := by
  unfold attend
  split <;> rfl

/-- The answer to a question depends on the settings alone, and leaves them as they are. -/
def IsSteady {α : Type} (ask : Desk → Answer α × Desk) : Prop :=
  ∀ d d', d.SameSettings d' → (ask d').1 = (ask d).1 ∧ (ask d).2.SameSettings (ask d').2

theorem isSteady_attend {α : Type} {call : Call} {answer : Desk → Answer α}
    (steady : ∀ (d : Desk) (calls : List Call), answer { d with calls } = answer d) :
    IsSteady fun d => d.attend call (answer d) := by
  rintro d _ ⟨calls, rfl⟩
  refine ⟨?_, calls ++ [call], ?_⟩
  · simp only [steady, attend]
    split <;> rfl
  · simp only [attend_desk]

end Desk

def Exchange.IsDesks : Exchange → Prop
  | .exemption _ parent answer => ∃ d : Desk, answer = (d.exemption parent).1
  | .credentials _ password _ answer => ∃ d : Desk, answer = (d.credentials password).1
  | .methods _ _ answer => ∃ d : Desk, answer = d.offered.1
  | .startMethod _ methodId _ answer => ∃ d : Desk, answer = (d.startMethod methodId).1
  | .verification _ data _ answer => ∃ d : Desk, answer = (d.verification data).1
  | .confirmation _ _ answer => ∃ d : Desk, answer = d.confirmation.1
  | .execution _ _ answer => ∃ d : Desk, answer = d.execution.1
  | .cancellation _ _ answer => ∃ d : Desk, answer = d.cancellation.1
  | .codeCheck _ code _ _ answer => ∃ d : Desk, answer = (d.codeCheck code).1

structure Hears (before : Bank) (xs : List Exchange) (after : Bank) : Prop where
  log : after.log = before.log ++ xs
  unscripted : before.script = {} → after.script = {}
  settings : before.script = {} → before.desk.SameSettings after.desk
  desks : before.script = {} → ∀ x ∈ xs, x.IsDesks

namespace Hears

variable {b b' b'' : Bank} {x : Exchange} {xs ys : List Exchange}

theorem refl (b : Bank) : b.Hears [] b :=
  ⟨(List.append_nil _).symm, fun plain => plain, fun _ => .refl b.desk,
    fun _ _ hx => absurd hx List.not_mem_nil⟩

theorem trans (h : b.Hears xs b') (k : b'.Hears ys b'') : b.Hears (xs ++ ys) b'' := by
  refine ⟨?_, fun plain => k.unscripted (h.unscripted plain),
    fun plain => (h.settings plain).trans (k.settings (h.unscripted plain)), ?_⟩
  · rw [k.log, h.log, List.append_assoc]
  · intro plain x hx
    rcases List.mem_append.mp hx with hx | hx
    · exact h.desks plain x hx
    · exact k.desks (h.unscripted plain) x hx

theorem one (log : b'.log = b.log ++ [x])
    (desk : b.script = {} → b'.script = {} ∧ b.desk.SameSettings b'.desk ∧ x.IsDesks) :
    b.Hears [x] b' := by
  refine ⟨log, fun plain => (desk plain).1, fun plain => (desk plain).2.1, ?_⟩
  intro plain y hy
  obtain rfl := List.mem_singleton.mp hy
  exact (desk plain).2.2

end Hears

section Asking
variable {b b' : Bank} {c : Context} {p : Parent}

theorem askExemption_heard {x : Answer Bool} (h : b.askExemption c p = (x, b')) :
    b.Hears [.exemption c p x] b' := by
  obtain ⟨rfl, rfl⟩ := Prod.mk.inj h
  refine .one rfl fun plain => ?_
  rw [plain]
  exact ⟨rfl, ⟨_, Desk.attend_desk _ _ _⟩, b.desk, rfl⟩

theorem askCredentials_heard {password : Secret} {x : Answer Verdict}
    (h : b.askCredentials c password p = (x, b')) :
    b.Hears [.credentials c password p x] b' := by
  obtain ⟨rfl, rfl⟩ := Prod.mk.inj h
  refine .one rfl fun plain => ?_
  rw [plain]
  exact ⟨rfl, ⟨_, Desk.attend_desk _ _ _⟩, b.desk, rfl⟩

theorem askMethods_heard {x : Answer (List Sca.Method)} (h : b.askMethods c p = (x, b')) :
    b.Hears [.methods c p x] b' := by
  obtain ⟨rfl, rfl⟩ := Prod.mk.inj h
  refine .one rfl fun plain => ?_
  rw [plain]
  exact ⟨rfl, ⟨_, Desk.attend_desk _ _ _⟩, b.desk, rfl⟩

theorem askStartMethod_heard {methodId : String} {x : Answer MethodStart}
    (h : b.askStartMethod c methodId p = (x, b')) :
    b.Hears [.startMethod c methodId p x] b' := by
  obtain ⟨rfl, rfl⟩ := Prod.mk.inj h
  refine .one rfl fun plain => ?_
  rw [plain]
  exact ⟨rfl, ⟨_, Desk.attend_desk _ _ _⟩, b.desk, rfl⟩

theorem askVerification_heard {data : Secret} {x : Answer Verdict}
    (h : b.askVerification c data p = (x, b')) : b.Hears [.verification c data p x] b' := by
  obtain ⟨rfl, rfl⟩ := Prod.mk.inj h
  refine .one rfl fun plain => ?_
  rw [plain]
  exact ⟨rfl, ⟨_, Desk.attend_desk _ _ _⟩, b.desk, rfl⟩

theorem askConfirmation_heard {consent : Consent} {x : Answer Verdict}
    (h : b.askConfirmation c consent = (x, b')) : b.Hears [.confirmation c consent x] b' := by
  obtain ⟨rfl, rfl⟩ := Prod.mk.inj h
  refine .one rfl fun plain => ?_
  rw [plain]
  exact ⟨rfl, ⟨_, Desk.attend_desk _ _ _⟩, b.desk, rfl⟩

theorem askExecution_heard {order : Order} {x : Answer Execution}
    (h : b.askExecution c order = (x, b')) : b.Hears [.execution c order x] b' := by
  obtain ⟨rfl, rfl⟩ := Prod.mk.inj h
  refine .one rfl fun plain => ?_
  rw [plain]
  exact ⟨rfl, ⟨_, Desk.attend_desk _ _ _⟩, b.desk, rfl⟩

theorem askCancellation_heard {order : Order} {x : Answer Execution}
    (h : b.askCancellation c order = (x, b')) : b.Hears [.cancellation c order x] b' := by
  obtain ⟨rfl, rfl⟩ := Prod.mk.inj h
  refine .one rfl fun plain => ?_
  rw [plain]
  exact ⟨rfl, ⟨_, Desk.attend_desk _ _ _⟩, b.desk, rfl⟩

theorem askCodeCheck_heard {code : Secret} {order : Order} {handle : String} {x : Answer CodeCheck}
    (h : b.askCodeCheck c code order handle = (x, b')) :
    b.Hears [.codeCheck c code order handle x] b' := by
  obtain ⟨rfl, rfl⟩ := Prod.mk.inj h
  refine .one rfl fun plain => ?_
  rw [plain]
  exact ⟨rfl, ⟨_, Desk.attend_desk _ _ _⟩, b.desk, rfl⟩

end Asking

/-- The banks have the same script and, but for the lists of their calls, the same desk. -/
structure Alike (b b' : Bank) : Prop where
  script : b'.script = b.script
  desk : b.desk.SameSettings b'.desk

theorem Hears.alike {b b' : Bank} {xs : List Exchange} (h : b.Hears xs b')
    (unscripted : b.script = {}) : b.Alike b' :=
  ⟨(h.unscripted unscripted).trans unscripted.symm, h.settings unscripted⟩

def AnswerAlike {α : Type} (x y : α × Bank) : Prop := y.1 = x.1 ∧ x.2.Alike y.2

@[elab_as_elim]
theorem AnswerAlike.elim {α : Type} {motive : α × Bank → α × Bank → Prop} {x y : α × Bank}
    (h : AnswerAlike x y)
    (each : ∀ (answer : α) (b b' : Bank), b.Alike b' → motive (answer, b) (answer, b')) :
    motive x y := by
  obtain ⟨answer, bank⟩ := x
  obtain ⟨answer', bank'⟩ := y
  obtain ⟨rfl, banks⟩ := h
  exact each answer' bank bank' banks

section Asking
variable {b b' : Bank} {c c' : Context} {p : Parent}

theorem Alike.consult {α : Type} (h : b.Alike b') (part : Script → List (Answer α))
    (put : Script → List (Answer α) → Script) (note note' : Answer α → Exchange)
    (ask : Desk → Answer α × Desk) (steady : Desk.IsSteady ask) :
    AnswerAlike
      ((Bank.consult (part b.script) b.desk ask).1,
        { desk := (Bank.consult (part b.script) b.desk ask).2.2
          script := put b.script (Bank.consult (part b.script) b.desk ask).2.1
          log := b.log ++ [note (Bank.consult (part b.script) b.desk ask).1] })
      ((Bank.consult (part b'.script) b'.desk ask).1,
        { desk := (Bank.consult (part b'.script) b'.desk ask).2.2
          script := put b'.script (Bank.consult (part b'.script) b'.desk ask).2.1
          log := b'.log ++ [note' (Bank.consult (part b'.script) b'.desk ask).1] }) := by
  rw [h.script]
  unfold Bank.consult
  cases part b.script with
  | nil =>
    obtain ⟨answer, desk⟩ := steady _ _ h.desk
    exact ⟨answer, rfl, desk⟩
  | cons answer rest => exact ⟨rfl, rfl, h.desk⟩

theorem askExemption_alike (h : b.Alike b') :
    AnswerAlike (b.askExemption c p) (b'.askExemption c' p) :=
  h.consult Script.exemption (fun script rest => { script with exemption := rest })
    (.exemption c p) (.exemption c' p) (·.exemption p) (Desk.isSteady_attend fun _ _ => rfl)

theorem askCredentials_alike {password : Secret} (h : b.Alike b') :
    AnswerAlike (b.askCredentials c password p) (b'.askCredentials c' password p) :=
  h.consult Script.credentials (fun script rest => { script with credentials := rest })
    (.credentials c password p) (.credentials c' password p)
    (·.credentials password) (Desk.isSteady_attend fun _ _ => rfl)

theorem askMethods_alike (h : b.Alike b') :
    AnswerAlike (b.askMethods c p) (b'.askMethods c' p) :=
  h.consult Script.methods (fun script rest => { script with methods := rest })
    (.methods c p) (.methods c' p) (·.offered) (Desk.isSteady_attend fun _ _ => rfl)

theorem askStartMethod_alike {methodId : String} (h : b.Alike b') :
    AnswerAlike (b.askStartMethod c methodId p) (b'.askStartMethod c' methodId p) :=
  h.consult Script.startMethod (fun script rest => { script with startMethod := rest })
    (.startMethod c methodId p) (.startMethod c' methodId p)
    (·.startMethod methodId) (Desk.isSteady_attend fun _ _ => rfl)

theorem askVerification_alike {data : Secret} (h : b.Alike b') :
    AnswerAlike (b.askVerification c data p) (b'.askVerification c' data p) :=
  h.consult Script.verification (fun script rest => { script with verification := rest })
    (.verification c data p) (.verification c' data p)
    (·.verification data) (Desk.isSteady_attend fun _ _ => rfl)

theorem askConfirmation_alike {consent : Consent} (h : b.Alike b') :
    AnswerAlike (b.askConfirmation c consent) (b'.askConfirmation c' consent) :=
  h.consult Script.confirmation (fun script rest => { script with confirmation := rest })
    (.confirmation c consent) (.confirmation c' consent)
    (·.confirmation) (Desk.isSteady_attend fun _ _ => rfl)

theorem askExecution_alike {order : Order} (h : b.Alike b') :
    AnswerAlike (b.askExecution c order) (b'.askExecution c' order) :=
  h.consult Script.execution (fun script rest => { script with execution := rest })
    (.execution c order) (.execution c' order) (·.execution) (Desk.isSteady_attend fun _ _ => rfl)

theorem askCancellation_alike {order : Order} (h : b.Alike b') :
    AnswerAlike (b.askCancellation c order) (b'.askCancellation c' order) :=
  h.consult Script.cancellation (fun script rest => { script with cancellation := rest })
    (.cancellation c order) (.cancellation c' order)
    (·.cancellation) (Desk.isSteady_attend fun _ _ => rfl)

theorem askCodeCheck_alike {code : Secret} {order : Order} {handle : String} (h : b.Alike b') :
    AnswerAlike (b.askCodeCheck c code order handle) (b'.askCodeCheck c' code order handle) :=
  h.consult Script.codeCheck (fun script rest => { script with codeCheck := rest })
    (.codeCheck c code order handle) (.codeCheck c' code order handle)
    (·.codeCheck code) (Desk.isSteady_attend fun _ _ => rfl)

end Asking

end StrongAuth.Bank
