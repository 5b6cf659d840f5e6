import StrongAuth.Engine.Run
import StrongAuth.Json.Reader
import StrongAuth.Store.Operation

set_option autoImplicit false

namespace StrongAuth.Samples

def validUntil : Calendar.Date := ⟨2035, 12, 31, by decide⟩

def psus (names : List String) : List Psu := names.map Psu.named

def line (name value : String) : String := "    \"" ++ name ++ "\": " ++ value

def accountText (iban : String) : String :=
  "\x7b\"iban\": \"" ++ iban ++ "\", \"currency\": \"EUR\"\x7d"

def transferText : String :=
  "\x7b\n" ++ String.intercalate ",\n" [
    line "endToEndIdentification" "\"WBG-123456789\"",
    line "debtorAccount" (accountText "DE40100100103307118608"),
    line "instructedAmount" "\x7b\"currency\": \"EUR\", \"amount\": \"1520.00\"\x7d",
    line "creditorAccount" (accountText "DE02100100109307118603"),
    line "creditorAgent" "\"AAAADEBBXXX\"",
    line "creditorName" "\"WBG\"",
    line "remittanceInformationUnstructured" "\"Ref. Number WBG-1222\""] ++ "\n\x7d"

def order : Order := .single {
  endToEndId := some "WBG-123456789"
  debtor := { iban := some "DE40100100103307118608", currency := some "EUR" }
  amount := { currency := "EUR", amount := "1520.00" }
  creditor := { iban := some "DE02100100109307118603", currency := some "EUR" }
  creditorAgent := some "AAAADEBBXXX"
  creditorName := "WBG"
  remittance := some "Ref. Number WBG-1222"
  executionDate := none }

def consent (id : String) (names : List String) (multilevel : Bool) : Consent.Draft :=
  { id, psus := psus names, multilevel, validUntil }

def payment (id : String) (names : List String) (multilevel : Bool) : Payment :=
  { Payment.ofOrder id order with psus := psus names, multilevel }

def rawPayment (id : String) (names : List String) : Payment :=
  { Payment.ofPayload id .single (Text.bytes transferText) with psus := psus names }

def site : Site Backend :=
  { store := .memory {
      consents := [Consent.ofDraft (consent "consent" ["anna"] false)]
      payments := [payment "payment" ["anna"] false] } }

def moment : Calendar.Instant := ⟨0, 0⟩

def opening (p : Purpose) (parentId : String) : Event :=
  .start moment { StartRequest.toPurpose p parentId with psu := .named "anna" }

def anonymous (p : Purpose) (parentId : String) : Event :=
  .start moment (StartRequest.toPurpose p parentId)

def updates (p : Purpose) (parentId id : String) : List UpdateRequest :=
  let u := UpdateRequest.toPurpose p parentId id
  [{ u with password := some ⟨"secret"⟩ }, { u with password := some ⟨"secret"⟩ },
    { u with methodId := some "sms" }, { u with data := some ⟨"123456"⟩ }, u]

def signing (p : Purpose) (parentId id : String) : List Event :=
  (updates p parentId id).map (.update moment)

def executed : List Event :=
  opening .initiation "payment" :: signing .initiation "payment" "auth1"

/-- Two authorisations of the payment are open at the same time, and both are signed. -/
def executedTwice : List Event :=
  opening .initiation "payment" :: opening .initiation "payment" ::
    (signing .initiation "payment" "auth1" ++ signing .initiation "payment" "auth2")

def cancelled : List Event :=
  opening .initiation "payment" :: opening .cancellation "payment" ::
    ((signing .initiation "payment" "auth1").take 4 ++ signing .cancellation "payment" "auth2")

def conclusion : List Event := (signing .initiation "payment" "auth1").drop 4

/-- A deployment that ends the authorisation of payments with codes. -/
def coded (locally : Bool) : Config :=
  { confirmationMandated := true, checksCodesLocally := locally, defaultApproach := .embedded }

def identified (p : Purpose) : List Event :=
  opening p "payment" :: (signing p "payment" "auth1").take 1

def selected (p : Purpose) : List Event :=
  opening p "payment" :: (signing p "payment" "auth1").take 3

def started (p : Purpose) : List Event :=
  opening p "payment" :: (signing p "payment" "auth1").take 4

def intrusion : List Event :=
  .update moment { UpdateRequest.toPurpose .initiation "payment" "auth1" with
    psu := .named "berta" } :: conclusion

def confirming (p : Purpose) (code : String) : Event :=
  .update moment { UpdateRequest.toPurpose p "payment" "auth1" with code := some ⟨code⟩ }

def waived (p : Purpose) : List Event :=
  [.bank { exempted := ["payment"] } {}, opening p "payment"] ++
    (signing p "payment" "auth1").take 1

def sharedSite : Site Backend :=
  { store := .memory { payments := [payment "payment" ["anna", "berta"] true] } }

def signature (name id : String) : List Event :=
  .start moment { StartRequest.toPurpose .initiation "payment" with psu := .named name } ::
    signing .initiation "payment" id

def signedByAll : List Event := signature "anna" "auth1" ++ signature "berta" "auth2"

def signedAgain : List Event := signedByAll ++ signature "anna" "auth3"

/-- One PSU is redirected and signs, and the other one has the bank check the code. -/
def signedThenChecked : List Event :=
  selected .initiation ++ [.start moment { StartRequest.toPurpose .initiation "payment" with
      psu := .named "berta", approach := some "REDIRECT" }] ++
    signing .initiation "payment" "auth2" ++ [confirming .initiation "654321"]

/-- The bank checks the code of one PSU while nobody else has signed. -/
def checkedEarly : List Event := selected .initiation ++ [confirming .initiation "654321"]

def emptySite : Site Backend := { store := .memory {} }

def signedByOne : List Event :=
  .addConsent (consent "consent" ["anna"] false) ::
    .addPayment (payment "payment" ["anna", "berta"] true) ::
    (started .initiation ++ [confirming .initiation "123456"])

/-- The payment is read and authorised. On the way a consent is inserted twice, a version is out of
date, and a consent is asked for that is not there. -/
def bookkeeping : List Store.Operation := [
  .insertConsent (consent "consent" ["anna"] false),
  .insertConsent (consent "consent" ["berta"] false),
  .insertPayment (rawPayment "payment" ["anna"]),
  .saveOrder "payment" order,
  .insertAuthorisation {
    parentId := "payment", purpose := .initiation, approach := .embedded, psu := .named "anna",
    expiresAt := moment },
  .updateAuthorisation "auth1" 0 { status := .started, challenge := some { otpMaxLength := some 6 } },
  .updateAuthorisation "auth1" 0 { status := .finalised },
  .updateAuthorisation "auth1" 1 { status := .finalised, parentStatus := some (.payment .accp) },
  .insertAuthorisation {
    parentId := "payment", purpose := .initiation, approach := .redirect, psu := .named "berta",
    expiresAt := moment },
  .authorisationsOf "payment" .initiation,
  .payment "payment",
  .consent "consent",
  .setConsentStatus "other" .valid]

def insertions (consentId paymentId : String) : List Store.Operation := [
  .insertConsent (consent consentId ["anna"] false), .insertPayment (rawPayment paymentId ["berta"])]

def rawBatch (id : String) : Payment := Payment.ofPayload id .bulk
  (Text.bytes "\x7b\"debtorAccount\": \x7b\x7d, \"payments\": []\x7d")

/-- The batch is added, and two authorisations of its cancellation are opened. -/
def recalledTwice : List Event :=
  [.addPayment (rawBatch "payment"), opening .cancellation "payment",
    opening .cancellation "payment"]

/-- A consent and a payment of one id, each with an authorisation that lacks its last update. -/
def namesakes : List Event :=
  [.addConsent (consent "shared" ["anna"] false), .addPayment (payment "shared" ["anna"] false),
    opening .account "shared", opening .initiation "shared"] ++
    (signing .account "shared" "auth1").take 4 ++ (signing .initiation "shared" "auth2").take 4

def granted (id name : String) : Authorisation :=
  { Authorisation.ofDraft id {
      parentId := "payment", purpose := .initiation, approach := .redirect, psu := .named name,
      expiresAt := moment } with status := .finalised }

def tables : Backend := .tables { url := "sqlite::memory:" }

/-- Tables with a payment whose order is not the text of one. -/
def damaged : Backend := .tables {
  url := "sqlite::memory:"
  payments := [{ PaymentRow.ofPayment (rawPayment "payment" ["anna"]) with order := some "?" }]
  psus := [{ parentId := "payment", psu := .named "anna" }] }

end StrongAuth.Samples
