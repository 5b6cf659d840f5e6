import StrongAuth.Bank
import StrongAuth.Json.Records

set_option autoImplicit false

namespace StrongAuth.Bank
open StrongAuth.Json

namespace Fault

def ofJson? (v : Json) : Option Fault := do
  let fields ← v.fields? ["kind", "text"] 0
  let kind ← fields.required? "kind" asString?
  let text ← fields.required? "text" asString?
  match kind with
  | "Unavailable" => some (.unavailable text)
  | "Rejected" => some (.rejected text)
  | "Unsupported" => some (.unsupported text)
  | _ => none

end Fault

namespace MethodStart

def ofJson? (v : Json) : Option MethodStart := do
  let fields ← v.fields? ["chosenScaMethod", "challengeData", "psuMessage", "confirmationCode"] 0
  some {
    method := ← fields.required? "chosenScaMethod" Sca.Method.ofJson?
    challenge := ← fields.optional? "challengeData" Sca.Challenge.ofJson?
    psuMessage := ← fields.optional? "psuMessage" asString?
    confirmationCode := ← fields.optional? "confirmationCode" Secret.ofJson? }

end MethodStart

namespace Execution

def ofJson? (v : Json) : Option Execution := do
  let fields ← v.fields? ["outcome", "transactionStatus"] 0
  some ⟨← fields.required? "outcome" asNamed?, ← fields.required? "transactionStatus" asNamed?⟩

end Execution

namespace CodeCheck

def ofJson? (v : Json) : Option CodeCheck := do
  let fields ← v.fields? ["scaStatus", "transactionStatus"] 0
  some ⟨← fields.required? "scaStatus" asNamed?, ← fields.required? "transactionStatus" asNamed?⟩

end CodeCheck

/-- An answer to a question whose values are decoded by `value?`. -/
def answerOfJson? {α : Type} (value? : Json → Option α) (v : Json) : Option (Answer α) :=
  match v with
  | .object [(some "spiError", fault)] => (Fault.ofJson? fault).map .error
  | _ => (value? v).map .ok

namespace Script

def extend? (s : Script) (call : Call) (v : Json) : Option Script :=
  let answers {α : Type} (value? : Json → Option α) : Option (List (Answer α)) :=
    v.asList? (answerOfJson? value?)
  match call with
  | .exemption => (answers asBool?).map fun xs => { s with exemption := s.exemption ++ xs }
  | .credentials => (answers asNamed?).map fun xs => { s with credentials := s.credentials ++ xs }
  | .methods =>
    (answers (asList? Sca.Method.ofJson?)).map fun xs => { s with methods := s.methods ++ xs }
  | .startMethod =>
    (answers MethodStart.ofJson?).map fun xs => { s with startMethod := s.startMethod ++ xs }
  | .verification =>
    (answers asNamed?).map fun xs => { s with verification := s.verification ++ xs }
  | .confirmation =>
    (answers asNamed?).map fun xs => { s with confirmation := s.confirmation ++ xs }
  | .execution =>
    (answers Execution.ofJson?).map fun xs => { s with execution := s.execution ++ xs }
  | .cancellation =>
    (answers Execution.ofJson?).map fun xs => { s with cancellation := s.cancellation ++ xs }
  | .codeCheck =>
    (answers CodeCheck.ofJson?).map fun xs => { s with codeCheck := s.codeCheck ++ xs }

def extendAll? (s : Script) : Json → Option Script
  | .object members => members.foldlM (fun s m => do
      let call ← m.1.bind Named.find?
      s.extend? call m.2) s
  | .null => some s
  | _ => none

end Script

end StrongAuth.Bank
