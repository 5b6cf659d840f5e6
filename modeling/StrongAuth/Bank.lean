import StrongAuth.Bank.Desk

set_option autoImplicit false

/-!
# The bank

A bank is its desk with a script in front of it: for each question, answers that are given first,
in their order, without troubling the desk. The script may hold any answers, so whatever holds for
every bank holds however the bank behaves. The log keeps every exchange, scripted or not.
-/
namespace StrongAuth

namespace Bank

structure Script where
  exemption : List (Answer Bool) := []
  credentials : List (Answer Verdict) := []
  methods : List (Answer (List Sca.Method)) := []
  startMethod : List (Answer MethodStart) := []
  verification : List (Answer Verdict) := []
  confirmation : List (Answer Verdict) := []
  execution : List (Answer Execution) := []
  cancellation : List (Answer Execution) := []
  codeCheck : List (Answer CodeCheck) := []
  deriving Repr

end Bank

structure Bank where
  desk : Bank.Desk := {}
  script : Bank.Script := {}
  log : List Bank.Exchange := []
  deriving Repr

namespace Bank

/-- The first scripted answer, or else what the desk answers; the rest of the script, and the desk
as it is afterwards. -/
def consult {α : Type} (script : List (Answer α)) (desk : Desk)
    (ask : Desk → Answer α × Desk) : Answer α × List (Answer α) × Desk :=
  match script with
  | answer :: rest => (answer, rest, desk)
  | [] => ((ask desk).1, [], (ask desk).2)

def askExemption (b : Bank) (c : Context) (p : Parent) : Answer Bool × Bank :=
  let (answer, rest, desk) := consult b.script.exemption b.desk (·.exemption p)
  (answer, { desk, script := { b.script with exemption := rest },
             log := b.log ++ [.exemption c p answer] })

def askCredentials (b : Bank) (c : Context) (password : Secret) (p : Parent) :
    Answer Verdict × Bank :=
  let (answer, rest, desk) := consult b.script.credentials b.desk (·.credentials password)
  (answer, { desk, script := { b.script with credentials := rest },
             log := b.log ++ [.credentials c password p answer] })

def askMethods (b : Bank) (c : Context) (p : Parent) : Answer (List Sca.Method) × Bank :=
  let (answer, rest, desk) := consult b.script.methods b.desk (·.offered)
  (answer, { desk, script := { b.script with methods := rest },
             log := b.log ++ [.methods c p answer] })

def askStartMethod (b : Bank) (c : Context) (methodId : String) (p : Parent) :
    Answer MethodStart × Bank :=
  let (answer, rest, desk) := consult b.script.startMethod b.desk (·.startMethod methodId)
  (answer, { desk, script := { b.script with startMethod := rest },
             log := b.log ++ [.startMethod c methodId p answer] })

def askVerification (b : Bank) (c : Context) (data : Secret) (p : Parent) :
    Answer Verdict × Bank :=
  let (answer, rest, desk) := consult b.script.verification b.desk (·.verification data)
  (answer, { desk, script := { b.script with verification := rest },
             log := b.log ++ [.verification c data p answer] })

def askConfirmation (b : Bank) (c : Context) (consent : Consent) : Answer Verdict × Bank :=
  let (answer, rest, desk) := consult b.script.confirmation b.desk (·.confirmation)
  (answer, { desk, script := { b.script with confirmation := rest },
             log := b.log ++ [.confirmation c consent answer] })

def askExecution (b : Bank) (c : Context) (order : Order) : Answer Execution × Bank :=
  let (answer, rest, desk) := consult b.script.execution b.desk (·.execution)
  (answer, { desk, script := { b.script with execution := rest },
             log := b.log ++ [.execution c order answer] })

def askCancellation (b : Bank) (c : Context) (order : Order) : Answer Execution × Bank :=
  let (answer, rest, desk) := consult b.script.cancellation b.desk (·.cancellation)
  (answer, { desk, script := { b.script with cancellation := rest },
             log := b.log ++ [.cancellation c order answer] })

def askCodeCheck (b : Bank) (c : Context) (code : Secret) (order : Order) (handle : String) :
    Answer CodeCheck × Bank :=
  let (answer, rest, desk) := consult b.script.codeCheck b.desk (·.codeCheck code)
  (answer, { desk, script := { b.script with codeCheck := rest },
             log := b.log ++ [.codeCheck c code order handle answer] })

end Bank

end StrongAuth
