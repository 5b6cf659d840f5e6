import StrongAuth.Engine.Purpose

set_option autoImplicit false

namespace StrongAuth

inductive CodeChecker where
  | local
  | bank
  deriving DecidableEq, Repr

namespace CodeChecker

instance : Named CodeChecker where
  all := [.local, .bank]
  name
    | .local => "Local"
    | .bank => "Backend"

def ofFlag (checksLocally : Bool) : CodeChecker := if checksLocally then .local else .bank

end CodeChecker

namespace Attempt

variable {σ : Type} [Store σ]

/-- Finalises the authorisation if the code is the stored secret, to the letter. -/
def confirmLocally (a : Attempt) (code : Secret) : Outcome :=
  match a.storedSecret with
  | some secret =>
    if secret.matchesCode code then a.advance .finalised
    else a.rejectInvalid .formatErrorScaStatus "The confirmation code does not match"
  | none => a.rejectInvalid .formatErrorScaStatus "The confirmation code does not match"

def ofCodeCheck (a : Attempt) (check : Bank.CodeCheck) : Outcome :=
  let outcome := match check.scaStatus with
    | .finalised => a.advance .finalised
    | .failed => a.failBusiness .scaInvalid "The confirmation code was refused"
    | other => a.rejectInvalid .formatErrorScaStatus
        s!"The confirmation code check ended in {other.name}"
  { outcome with parentStatus := some (.payment check.paymentStatus) }

def confirmAtBank (a : Attempt) (p : Purpose) (code : Secret) (site : Site σ) :
    Outcome × Site σ :=
  match p.findParent site.store a.parentId with
  | (.error e, store) => (a.rejectStore e, { site with store })
  | (.ok none, store) =>
    (a.rejectBusiness .resourceUnknown s!"{a.parentId} does not exist", { site with store })
  | (.ok (some parent), store) =>
    match p.checkCode site.bank a.context code parent with
    | (.ok check, bank) => (a.ofCodeCheck check, { store, bank })
    | (.error e, bank) => (a.reject (e.toTppMessage a.area), { store, bank })

def givenCode (a : Attempt) : Option Secret := a.code.filter fun code => !code.isBlank

/-- A code is accepted only for a live authorisation that uses codes and has selected its method. -/
def confirm (a : Attempt) (c : Config) (p : Purpose) (checker : CodeChecker) (site : Site σ) :
    Outcome × Site σ :=
  if a.status.isTerminal then
    (a.rejectBusiness .statusInvalid
      s!"Authorisation {a.authorisationId} is already {a.status.name}", site)
  else if !p.needsCode c a.approach then
    (a.rejectBusiness .serviceInvalid
      s!"Confirmation codes are not used for {a.approach.name} authorisations", site)
  else if !(a.status == .methodSelected || a.status == .started) then
    (a.rejectBusiness .statusInvalid
      s!"A confirmation code cannot be accepted while the authorisation is {a.status.name}", site)
  else match a.givenCode with
    | none => (a.rejectInvalid .formatError "The confirmation code is missing", site)
    | some code =>
      match checker with
      | .local => (a.confirmLocally code, site)
      | .bank => a.confirmAtBank p code site

end Attempt

end StrongAuth
