import StrongAuth.Parent

set_option autoImplicit false

/-!
# Progress towards authorisation

How far the PSUs of a parent have come, over all of its authorisations, and the status that follows
from it. An exempted authorisation counts like a finalised one.
-/
namespace StrongAuth

inductive Progress where
  | notStarted
  /-- Some of the PSUs have authorised, and the parent needs the others as well. -/
  | incomplete
  | complete
  deriving DecidableEq, Repr

instance : Named Progress where
  all := [.notStarted, .incomplete, .complete]
  name
    | .notStarted => "NotStarted"
    | .incomplete => "Partial"
    | .complete => "Complete"

namespace Parent

def granted (parent : Parent) (authorisations : List Authorisation) : List Authorisation :=
  authorisations.filter fun a => a.parentId == parent.id && a.status.isGranted

/-- Someone among the authorisations is this PSU. -/
def signedBy (psu : Psu) (authorisations : List Authorisation) : Bool :=
  authorisations.any fun a => a.psu.isSame psu

def progress (parent : Parent) (authorisations : List Authorisation) : Progress :=
  let granted := parent.granted authorisations
  if granted.isEmpty then .notStarted
  else if !parent.multilevel || parent.psus.isEmpty then .complete
  else if parent.psus.all fun psu => signedBy psu granted then .complete
  else .incomplete

end Parent

namespace Consent

def statusAfter (c : Consent) (progress : Progress) : Option Status :=
  if c.status.isTerminal then none
  else match progress with
    | .notStarted => none
    | .incomplete => if c.status = .partiallyAuthorised then none else some .partiallyAuthorised
    | .complete => if c.status = .valid then none else some .valid

end Consent

namespace Payment

/-- The status a payment takes after the progress, if it changes. Only a pending payment is affected. -/
def statusAfter (p : Payment) (progress : Progress) : Option Status :=
  if p.status.isPending then
    match progress with
    | .notStarted => none
    | .incomplete => if p.status = .patc then none else some .patc
    | .complete => some .actc
  else none

end Payment

end StrongAuth
