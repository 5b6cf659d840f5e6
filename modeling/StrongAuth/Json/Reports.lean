import StrongAuth.Bank
import StrongAuth.Config
import StrongAuth.Engine.Outcome
import StrongAuth.Json.Orders

set_option autoImplicit false

namespace StrongAuth

namespace Json

def ofName {α : Type} [Named α] (a : α) : Json := Json.text (Named.name a)

def listOf {α : Type} (encode : α → Json) (items : List α) : Json := .array (items.map encode)

end Json

open Json

namespace Secret

def toJson (s : Secret) : Json := Json.text s.reveal

end Secret

namespace Authorisation

def members (a : Authorisation) : List (String × Json) :=
  [("id", text a.id),
    ("parentId", text a.parentId),
    ("kind", ofName a.purpose),
    ("scaStatus", ofName a.status),
    ("scaApproach", ofName a.approach),
    ("psuIdData", a.psu.toJson),
    ("chosenScaMethod", orNull Sca.Method.toJson a.method),
    ("challengeData", orNull Sca.Challenge.toJson a.challenge),
    ("scaAuthenticationData", orNull Secret.toJson a.secret),
    ("version", int a.version)]

end Authorisation

namespace Consent

def toJson (c : Consent) : Json :=
  record [
    ("consentId", text c.id),
    ("consentStatus", ofName c.status),
    ("psuData", listOf Psu.toJson c.psus),
    ("multilevelScaRequired", bool c.multilevel),
    ("recurringIndicator", bool c.recurring),
    ("frequencyPerDay", int c.frequencyPerDay),
    ("validUntil", dateJson c.validUntil)]

end Consent

namespace Payment

def members (p : Payment) : List (String × Json) :=
  [("paymentId", text p.id),
    ("paymentType", ofName p.kind),
    ("paymentProduct", text p.product),
    ("transactionStatus", ofName p.status),
    ("psuData", listOf Psu.toJson p.psus),
    ("multilevelScaRequired", bool p.multilevel),
    ("materialised", bool p.isMaterialised),
    ("payloadHex", orNull (fun bytes => text (Text.hexText bytes)) p.payload)]

end Payment

namespace Parent.Status

def toJson : Parent.Status → Json
  | .consent status => record [("consent", ofName status)]
  | .payment status => record [("transaction", ofName status)]

def ofJson? : Json → Option Parent.Status
  | .object [(some "consent", v)] => v.asNamed?.map .consent
  | .object [(some "transaction", v)] => v.asNamed?.map .payment
  | _ => none

end Parent.Status

namespace UpdateRequest

def toJson (u : UpdateRequest) : Json :=
  record [
    ("authorisationId", text u.authorisationId),
    ("businessObjectId", text u.parentId),
    ("serviceType", ofName u.address.service),
    ("paymentAuthorisationType", orNull ofName u.address.step),
    ("psuIdData", u.psu.toJson),
    ("password", orNull Secret.toJson u.password),
    ("authenticationMethodId", orNull text u.methodId),
    ("scaAuthenticationData", orNull Secret.toJson u.data),
    ("confirmationCode", orNull Secret.toJson u.code)]

end UpdateRequest

namespace StartRequest

def toJson (r : StartRequest) : Json :=
  record [
    ("businessObjectId", text r.parentId),
    ("serviceType", ofName r.address.service),
    ("paymentAuthorisationType", orNull ofName r.address.step),
    ("psuIdData", r.psu.toJson),
    ("scaApproach", orNull text r.approach)]

end StartRequest

namespace Attempt

def toJson (a : Attempt) : Json :=
  record [
    ("serviceType", ofName a.address.service),
    ("paymentAuthorisationType", orNull ofName a.address.step),
    ("kind", ofName a.purpose),
    ("namespace", ofName a.area),
    ("authorisationId", text a.authorisationId),
    ("businessObjectId", text a.parentId),
    ("psuIdData", a.psu.toJson),
    ("scaApproach", ofName a.approach),
    ("currentScaStatus", ofName a.status),
    ("password", orNull Secret.toJson a.password),
    ("authenticationMethodId", orNull text a.methodId),
    ("scaAuthenticationData", orNull Secret.toJson a.data),
    ("confirmationCode", orNull Secret.toJson a.code),
    ("storedScaAuthenticationData", orNull Secret.toJson a.storedSecret),
    ("version", int a.version),
    ("hasPassword", bool a.hasPassword),
    ("hasAuthenticationMethodId", bool a.hasMethodId),
    ("hasScaAuthenticationData", bool a.hasData),
    ("hasConfirmationCode", bool a.hasCode)]

end Attempt

namespace TppMessage

def toJson (m : TppMessage) : Json :=
  record [
    ("namespace", ofName m.area),
    ("category", ofName m.category),
    ("code", ofName m.code),
    ("text", orNull Json.text m.text),
    ("display", Json.text m.line)]

end TppMessage

namespace Outcome

def toJson (o : Outcome) : Json :=
  record [
    ("businessObjectId", text o.parentId),
    ("authorisationId", text o.authorisationId),
    ("scaStatus", ofName o.status),
    ("availableScaMethods", listOf Sca.Method.toJson o.methods),
    ("chosenScaMethod", orNull Sca.Method.toJson o.method),
    ("challengeData", orNull Sca.Challenge.toJson o.challenge),
    ("psuMessage", orNull text o.psuMessage),
    ("parentStatus", orNull Parent.Status.toJson o.parentStatus),
    ("scaAuthenticationData", orNull Secret.toJson o.secret),
    ("successful", bool o.isSuccess),
    ("error", orNull TppMessage.toJson o.error)]

end Outcome

namespace Bank

namespace Context

def toJson (c : Context) : Json :=
  record [
    ("authorisationId", text c.authorisationId),
    ("businessObjectId", text c.parentId),
    ("kind", ofName c.purpose),
    ("scaApproach", ofName c.approach),
    ("psuIdData", c.psu.toJson)]

end Context

namespace MethodStart

def toJson (m : MethodStart) : Json :=
  record [
    ("chosenScaMethod", m.method.toJson),
    ("challengeData", orNull Sca.Challenge.toJson m.challenge),
    ("psuMessage", orNull text m.psuMessage),
    ("confirmationCode", orNull Secret.toJson m.confirmationCode)]

end MethodStart

namespace CodeCheck

def toJson (c : CodeCheck) : Json :=
  record [("scaStatus", ofName c.scaStatus), ("transactionStatus", ofName c.paymentStatus)]

end CodeCheck

namespace Exchange

def details : Exchange → List (String × Json)
  | exemption _ p _ => [("parent", text p.id)]
  | credentials _ password p _ => [("parent", text p.id), ("password", password.toJson)]
  | methods _ p _ => [("parent", text p.id)]
  | startMethod _ methodId p _ => [("parent", text p.id), ("methodId", text methodId)]
  | verification _ data p _ => [("parent", text p.id), ("data", data.toJson)]
  | confirmation _ c _ => [("consent", text c.id)]
  | execution _ o _ => [("payment", o.toJson)]
  | cancellation _ o _ => [("payment", o.toJson)]
  | codeCheck _ code o handle _ =>
    [("code", code.toJson), ("payment", o.toJson), ("handle", text handle)]

def toJson (e : Exchange) : Json :=
  record [("call", ofName e.call), ("ctx", e.context.toJson), ("args", record e.details)]

end Exchange

end Bank

namespace Config

def toJson (c : Config) : Json :=
  record [
    ("databaseUrl", text c.databaseUrl),
    ("maxConnections", int c.maxConnections),
    ("confirmationMandated", bool c.confirmationMandated),
    ("checkByXs2a", bool c.checksCodesLocally),
    ("defaultScaApproach", ofName c.defaultApproach),
    ("expirySecs", int c.lifetime.wholeSeconds)]

end Config

end StrongAuth
