import StrongAuth.Json.Buffered
import StrongAuth.Json.Reader
import StrongAuth.Json.Records
import StrongAuth.Order

set_option autoImplicit false

namespace StrongAuth

namespace Account

def fieldNames : List String := ["iban", "bban", "pan", "currency"]

def ofJson? (v : Json) : Option Account := do
  let fields ← v.fields? fieldNames 0
  some {
    iban := ← fields.optional? "iban" Json.asString?
    bban := ← fields.optional? "bban" Json.asString?
    pan := ← fields.optional? "pan" Json.asString?
    currency := ← fields.optional? "currency" Json.asString? }

def toJson (a : Account) : Json :=
  Json.record [
    ("iban", Json.orNull Json.text a.iban),
    ("bban", Json.orNull Json.text a.bban),
    ("pan", Json.orNull Json.text a.pan),
    ("currency", Json.orNull Json.text a.currency)]

end Account

namespace Money

def fieldNames : List String := ["currency", "amount"]

def ofJson? (v : Json) : Option Money := do
  let fields ← v.fields? fieldNames 0
  some {
    currency := ← fields.required? "currency" Json.asString?
    amount := ← fields.required? "amount" Json.asString? }

def toJson (m : Money) : Json :=
  Json.record [("currency", Json.text m.currency), ("amount", Json.text m.amount)]

end Money

def dateJson (d : Calendar.Date) : Json := Json.text d.text

namespace Transfer

def fieldNames : List String :=
  ["endToEndIdentification", "debtorAccount", "instructedAmount", "creditorAccount",
    "creditorAgent", "creditorName", "remittanceInformationUnstructured",
    "requestedExecutionDate"]

def ofFields? (fields : Json.Fields) : Option Transfer := do
  some {
    endToEndId := ← fields.optional? "endToEndIdentification" Json.asString?
    debtor := ← fields.required? "debtorAccount" Account.ofJson?
    amount := ← fields.required? "instructedAmount" Money.ofJson?
    creditor := ← fields.required? "creditorAccount" Account.ofJson?
    creditorAgent := ← fields.optional? "creditorAgent" Json.asString?
    creditorName := ← fields.required? "creditorName" Json.asString?
    remittance := ← fields.optional? "remittanceInformationUnstructured" Json.asString?
    executionDate := ← fields.optional? "requestedExecutionDate" Json.asDate? }

def ofJson? (v : Json) : Option Transfer := (v.fields? fieldNames 0).bind ofFields?

def members (t : Transfer) : List (String × Json) :=
  [("endToEndIdentification", Json.orNull Json.text t.endToEndId),
    ("debtorAccount", t.debtor.toJson),
    ("instructedAmount", t.amount.toJson),
    ("creditorAccount", t.creditor.toJson),
    ("creditorAgent", Json.orNull Json.text t.creditorAgent),
    ("creditorName", Json.text t.creditorName),
    ("remittanceInformationUnstructured", Json.orNull Json.text t.remittance),
    ("requestedExecutionDate", Json.orNull dateJson t.executionDate)]

def toJson (t : Transfer) : Json := Json.record t.members

end Transfer

namespace StandingOrder

def fieldNames : List String :=
  ["startDate", "endDate", "executionRule", "frequency", "dayOfExecution"]

def isOwn (m : Option String × Json) : Bool :=
  match m.1 with
  | some name => fieldNames.contains name
  | none => false

/-- Reads an object inside `depth` open brackets, its own included. There is no array form. -/
def ofJson? (depth : Nat) : Json → Option StandingOrder
  | .object members => do
    let fields ← Json.known? fieldNames members
    let others := members.filter fun m => !isOwn m
    if others.all fun m => m.2.isBufferable depth then
      some {
        transfer := ← Transfer.ofJson? (.object others)
        startDate := ← fields.required? "startDate" Json.asDate?
        endDate := ← fields.optional? "endDate" Json.asDate?
        executionRule := ← fields.optional? "executionRule" Json.asString?
        frequency := ← fields.required? "frequency" Json.asString?
        dayOfExecution := ← fields.optional? "dayOfExecution" Json.asString? }
    else none
  | _ => none

def members (s : StandingOrder) : List (String × Json) :=
  s.transfer.members ++
    [("startDate", dateJson s.startDate),
      ("endDate", Json.orNull dateJson s.endDate),
      ("executionRule", Json.orNull Json.text s.executionRule),
      ("frequency", Json.text s.frequency),
      ("dayOfExecution", Json.orNull Json.text s.dayOfExecution)]

def toJson (s : StandingOrder) : Json := Json.record s.members

end StandingOrder

namespace Batch

def fieldNames : List String :=
  ["batchBookingPreferred", "debtorAccount", "requestedExecutionDate", "payments"]

def ofJson? (v : Json) : Option Batch := do
  let fields ← v.fields? fieldNames 0
  some {
    batchBooking := ← fields.optional? "batchBookingPreferred" Json.asBool?
    debtor := ← fields.required? "debtorAccount" Account.ofJson?
    executionDate := ← fields.optional? "requestedExecutionDate" Json.asDate?
    transfers := ← fields.required? "payments" (Json.asList? Transfer.ofJson?) }

def toJson (b : Batch) : Json :=
  Json.record [
    ("batchBookingPreferred", Json.orNull Json.bool b.batchBooking),
    ("debtorAccount", b.debtor.toJson),
    ("requestedExecutionDate", Json.orNull dateJson b.executionDate),
    ("payments", Json.array (b.transfers.map Transfer.toJson))]

end Batch

namespace Order

def tag : Kind → String
  | .single => "single"
  | .periodic => "periodic"
  | .bulk => "bulk"

def ofTag? (text : String) : Option Kind :=
  [Kind.single, Kind.periodic, Kind.bulk].find? fun k => tag k == text

/-- The `type` member: a name, or an object whose only member is the name with `null`. -/
def kindOfJson? : Json → Option Kind
  | .string (some s) => ofTag? s
  | .object [(some s, .null)] => ofTag? s
  | _ => none

def ofBody? (depth : Nat) (kind : Kind) (v : Json) : Option Order :=
  match kind with
  | .single => (Transfer.ofJson? v).map .single
  | .periodic => (StandingOrder.ofJson? depth v).map .periodic
  | .bulk => (Batch.ofJson? v).map .bulk

def ofPayload? (kind : Kind) (payload : List UInt8) : Option Order :=
  (Json.ofBytes? payload).bind (ofBody? 1 kind)

def body : Order → Json
  | .single t => t.toJson
  | .periodic s => s.toJson
  | .bulk b => b.toJson

def isBodyFirst (members : List (Option String × Json)) : Bool :=
  (members.filterMap (·.1)).idxOf "payment" < (members.filterMap (·.1)).idxOf "type"

/-- Reads the stored form. A body that comes before its type is set aside until the type is known. -/
def ofJson? : Json → Option Order
  | .object members => do
    let fields ← Json.known? ["type", "payment"] members
    let kind ← fields.required? "type" kindOfJson?
    let body ← fields.find? "payment"
    if isBodyFirst members && !body.isBufferable 1 then none else ofBody? 2 kind body
  | .array [.string (some s), body] => (ofTag? s).bind fun kind => ofBody? 2 kind body
  | _ => none

def toJson (o : Order) : Json :=
  Json.record [("type", Json.text (tag o.kind)), ("payment", o.body)]

end Order

end StrongAuth
