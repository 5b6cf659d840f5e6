import StrongAuth.Bank.Call

set_option autoImplicit false

namespace StrongAuth.Bank

structure Desk where
  password : Secret := ⟨"secret"⟩
  lockedPassword : Secret := ⟨"locked"⟩
  tan : Secret := ⟨"123456"⟩
  blockingTan : Secret := ⟨"000000"⟩
  confirmationCode : Secret := ⟨"654321"⟩
  methods : List Sca.Method := [
    { sort := "SMS_OTP", id := "sms", name := some "SMS to +49 *** 1234" },
    { sort := "PUSH_OTP", id := "push", name := some "Banking app", decoupled := true }]
  /-- The ids of the consents and payments that need no strong authentication. -/
  exempted : List String := []
  isUnavailable : Bool := false
  refusesEffects : Bool := false
  calls : List Call := []
  deriving Repr

namespace Desk

def attend {α : Type} (d : Desk) (call : Call) (answer : Answer α) : Answer α × Desk :=
  let noted := { d with calls := d.calls ++ [call] }
  if d.isUnavailable then (.error (.unavailable s!"{call.name} timed out"), noted)
  else (answer, noted)

def judge (given expected blocking : Secret) : Verdict :=
  if given.matchesCode expected then .success
  else if given.matchesCode blocking then .failure
  else .attemptFailure

def findMethod (d : Desk) (id : String) : Option Sca.Method :=
  d.methods.find? fun m => m.id == id

/-- A decoupled method hands out the confirmation code; any other asks for the TAN. -/
def startOf (d : Desk) (m : Sca.Method) : MethodStart :=
  if m.decoupled then
    { method := m, psuMessage := some "Please confirm the request in your banking app",
      confirmationCode := some d.confirmationCode }
  else
    { method := m
      challenge := some {
        otpFormat := some "integer"
        otpMaxLength := some d.tan.reveal.utf8ByteSize
        information := some "Enter the TAN sent to your phone" } }

def exemption (d : Desk) (p : Parent) : Answer Bool × Desk :=
  d.attend .exemption (.ok (d.exempted.contains p.id))

def credentials (d : Desk) (password : Secret) : Answer Verdict × Desk :=
  d.attend .credentials (.ok (judge password d.password d.lockedPassword))

def offered (d : Desk) : Answer (List Sca.Method) × Desk :=
  d.attend .methods (.ok d.methods)

def startMethod (d : Desk) (id : String) : Answer MethodStart × Desk :=
  d.attend .startMethod <| match d.findMethod id with
    | some m => .ok (d.startOf m)
    | none => .error (.rejected s!"Unknown SCA method {id}")

def verification (d : Desk) (data : Secret) : Answer Verdict × Desk :=
  d.attend .verification (.ok (judge data d.tan d.blockingTan))

def confirmation (d : Desk) : Answer Verdict × Desk :=
  d.attend .confirmation (.ok (if d.refusesEffects then .failure else .success))

def executionEndingIn (d : Desk) (done : Payment.Status) : Execution :=
  if d.refusesEffects then ⟨.failure, .rjct⟩ else ⟨.success, done⟩

def execution (d : Desk) : Answer Execution × Desk :=
  d.attend .execution (.ok (d.executionEndingIn .acsp))

def cancellation (d : Desk) : Answer Execution × Desk :=
  d.attend .cancellation (.ok (d.executionEndingIn .canc))

def codeCheck (d : Desk) (code : Secret) : Answer CodeCheck × Desk :=
  d.attend .codeCheck
    (.ok (if code.matchesCode d.confirmationCode then ⟨.finalised, .acsp⟩ else ⟨.failed, .rjct⟩))

end Desk

end StrongAuth.Bank
