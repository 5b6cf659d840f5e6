import StrongAuth.Authorisation
import StrongAuth.Bank.Answer
import StrongAuth.Json.Records

set_option autoImplicit false

namespace StrongAuth
open StrongAuth.Calendar

structure StartRequest where
  parentId : String
  address : Address
  psu : Psu := {}
  approach : Option String := none
  deriving DecidableEq, Repr

namespace StartRequest

def toPurpose (purpose : Purpose) (parentId : String) : StartRequest :=
  { parentId, address := .ofPurpose purpose }

def fieldNames : List String :=
  ["businessObjectId", "serviceType", "paymentAuthorisationType", "psuIdData", "scaApproach"]

def ofJson? (v : Json) : Option StartRequest := do
  let fields ← v.fields? fieldNames 0
  let parentId ← fields.required? "businessObjectId" Json.asString?
  let service ← fields.required? "serviceType" Json.asNamed?
  let step ← fields.optional? "paymentAuthorisationType" Json.asNamed?
  let psu ← fields.defaulted? "psuIdData" {} Psu.ofJson?
  let approach ← fields.optional? "scaApproach" Json.asString?
  some { parentId, address := ⟨service, step⟩, psu, approach }

end StartRequest

structure UpdateRequest where
  authorisationId : String
  parentId : String
  address : Address
  psu : Psu := {}
  password : Option Secret := none
  methodId : Option String := none
  data : Option Secret := none
  code : Option Secret := none
  deriving DecidableEq, Repr

namespace UpdateRequest

def toPurpose (purpose : Purpose) (parentId authorisationId : String) : UpdateRequest :=
  { parentId, authorisationId, address := .ofPurpose purpose }

def fieldNames : List String :=
  ["authorisationId", "businessObjectId", "serviceType", "paymentAuthorisationType", "psuIdData",
    "password", "authenticationMethodId", "scaAuthenticationData", "confirmationCode"]

def ofJson? (v : Json) : Option UpdateRequest := do
  let fields ← v.fields? fieldNames 0
  let authorisationId ← fields.required? "authorisationId" Json.asString?
  let parentId ← fields.required? "businessObjectId" Json.asString?
  let service ← fields.required? "serviceType" Json.asNamed?
  let step ← fields.optional? "paymentAuthorisationType" Json.asNamed?
  let psu ← fields.defaulted? "psuIdData" {} Psu.ofJson?
  let password ← fields.optional? "password" Secret.ofJson?
  let methodId ← fields.optional? "authenticationMethodId" Json.asString?
  let data ← fields.optional? "scaAuthenticationData" Secret.ofJson?
  let code ← fields.optional? "confirmationCode" Secret.ofJson?
  some { authorisationId, parentId, address := ⟨service, step⟩, psu, password, methodId, data, code }

end UpdateRequest

/-- An update merged with the authorisation it is for. -/
structure Attempt where
  address : Address
  purpose : Purpose
  authorisationId : String
  parentId : String
  psu : Psu
  approach : Sca.Approach
  status : Sca.Status
  password : Option Secret
  methodId : Option String
  data : Option Secret
  code : Option Secret
  storedSecret : Option Secret
  version : Int
  expiresAt : Instant
  deriving DecidableEq, Repr

namespace Attempt

/-- The PSU named in the update counts, unless it names none. -/
def of (u : UpdateRequest) (a : Authorisation) : Attempt :=
  { address := u.address
    purpose := a.purpose
    authorisationId := a.id
    parentId := a.parentId
    psu := if u.psu.isEmpty then a.psu else u.psu
    approach := a.approach
    status := a.status
    password := u.password
    methodId := u.methodId
    data := u.data
    code := u.code
    storedSecret := a.secret
    version := a.version
    expiresAt := a.expiresAt }

def area (a : Attempt) : Area := a.purpose.area

def hasPassword (a : Attempt) : Bool := Secret.isGiven a.password

def hasMethodId (a : Attempt) : Bool := Text.isGiven a.methodId

def hasData (a : Attempt) : Bool := Secret.isGiven a.data

def hasCode (a : Attempt) : Bool := Secret.isGiven a.code

def isExpired (a : Attempt) (now : Instant) : Bool := a.expiresAt.isBefore now

def context (a : Attempt) : Bank.Context :=
  { authorisationId := a.authorisationId, parentId := a.parentId, purpose := a.purpose,
    approach := a.approach, psu := a.psu }

end Attempt

end StrongAuth
