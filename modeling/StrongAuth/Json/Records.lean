import StrongAuth.Json.Decoder
import StrongAuth.Json.Writer
import StrongAuth.Psu
import StrongAuth.Sca.Method
import StrongAuth.Secret

set_option autoImplicit false

namespace StrongAuth

namespace Secret

def ofJson? (v : Json) : Option Secret := v.asString?.map Secret.mk

end Secret

namespace Psu

def fieldNames : List String := ["psuId", "psuIdType", "psuCorporateId", "psuCorporateIdType"]

def ofJson? (v : Json) : Option Psu := do
  let fields ← v.fields? fieldNames 0
  some {
    id := ← fields.optional? "psuId" Json.asString?
    idType := ← fields.optional? "psuIdType" Json.asString?
    corporateId := ← fields.optional? "psuCorporateId" Json.asString?
    corporateIdType := ← fields.optional? "psuCorporateIdType" Json.asString? }

def toJson (p : Psu) : Json :=
  Json.record [
    ("psuId", Json.orNull Json.text p.id),
    ("psuIdType", Json.orNull Json.text p.idType),
    ("psuCorporateId", Json.orNull Json.text p.corporateId),
    ("psuCorporateIdType", Json.orNull Json.text p.corporateIdType)]

end Psu

namespace Sca.Method

def fieldNames : List String :=
  ["authenticationType", "authenticationMethodId", "name", "explanation", "decoupled"]

/-- A missing `decoupled` means false, also at the end of an array. -/
def ofJson? (v : Json) : Option Method := do
  let fields ← v.fields? fieldNames 1
  some {
    sort := ← fields.required? "authenticationType" Json.asString?
    id := ← fields.required? "authenticationMethodId" Json.asString?
    name := ← fields.optional? "name" Json.asString?
    explanation := ← fields.optional? "explanation" Json.asString?
    decoupled := ← fields.defaulted? "decoupled" false Json.asBool? }

def toJson (m : Method) : Json :=
  Json.record [
    ("authenticationType", Json.text m.sort),
    ("authenticationMethodId", Json.text m.id),
    ("name", Json.orNull Json.text m.name),
    ("explanation", Json.orNull Json.text m.explanation),
    ("decoupled", Json.bool m.decoupled)]

end Sca.Method

namespace Sca.Challenge

def fieldNames : List String :=
  ["data", "otpFormat", "otpMaxLength", "additionalInformation", "imageLink"]

def ofJson? (v : Json) : Option Challenge := do
  let fields ← v.fields? fieldNames 0
  some {
    data := ← fields.defaulted? "data" [] (Json.asList? Json.asString?)
    otpFormat := ← fields.optional? "otpFormat" Json.asString?
    otpMaxLength := ← fields.optional? "otpMaxLength" Json.asInt32?
    information := ← fields.optional? "additionalInformation" Json.asString?
    imageLink := ← fields.optional? "imageLink" Json.asString? }

/-- The length limit, if there is one, is a number of 32 bits. Its field holds no other. -/
def fits (c : Challenge) : Bool :=
  c.otpMaxLength.all fun n => decide (-2147483648 ≤ n) && decide (n ≤ 2147483647)

def toJson (c : Challenge) : Json :=
  Json.record [
    ("data", Json.array (c.data.map Json.text)),
    ("otpFormat", Json.orNull Json.text c.otpFormat),
    ("otpMaxLength", Json.orNull Json.int c.otpMaxLength),
    ("additionalInformation", Json.orNull Json.text c.information),
    ("imageLink", Json.orNull Json.text c.imageLink)]

end Sca.Challenge

end StrongAuth
