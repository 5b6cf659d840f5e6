import StrongAuth.Text.Keyword

set_option autoImplicit false

namespace StrongAuth

namespace Consent

inductive Status where
  | received
  /-- Some of the PSUs of a consent that needs all of them have authorised it. -/
  | partiallyAuthorised
  | valid
  | rejected
  | revokedByPsu
  | expired
  | terminatedByTpp
  | terminatedByAspsp
  deriving DecidableEq, Repr

namespace Status

instance : Keyword Status where
  title := "ConsentStatus"
  all := [.received, .partiallyAuthorised, .valid, .rejected, .revokedByPsu, .expired,
    .terminatedByTpp, .terminatedByAspsp]
  name
    | .received => "RECEIVED"
    | .partiallyAuthorised => "PARTIALLY_AUTHORISED"
    | .valid => "VALID"
    | .rejected => "REJECTED"
    | .revokedByPsu => "REVOKED_BY_PSU"
    | .expired => "EXPIRED"
    | .terminatedByTpp => "TERMINATED_BY_TPP"
    | .terminatedByAspsp => "TERMINATED_BY_ASPSP"

def name (s : Status) : String := Named.name s

def isTerminal : Status → Bool
  | .received | .partiallyAuthorised | .valid => false
  | _ => true

end Status

end Consent

namespace Payment

inductive Status where
  | accc
  | accp
  | acsc
  | acsp
  | actc
  | acwc
  | acwp
  | rcvd
  | pdng
  | rjct
  | canc
  | acfc
  | patc
  | part
  deriving DecidableEq, Repr

namespace Status

instance : Keyword Status where
  title := "TransactionStatus"
  all := [.accc, .accp, .acsc, .acsp, .actc, .acwc, .acwp, .rcvd, .pdng, .rjct, .canc, .acfc,
    .patc, .part]
  name
    | .accc => "ACCC"
    | .accp => "ACCP"
    | .acsc => "ACSC"
    | .acsp => "ACSP"
    | .actc => "ACTC"
    | .acwc => "ACWC"
    | .acwp => "ACWP"
    | .rcvd => "RCVD"
    | .pdng => "PDNG"
    | .rjct => "RJCT"
    | .canc => "CANC"
    | .acfc => "ACFC"
    | .patc => "PATC"
    | .part => "PART"

def name (s : Status) : String := Named.name s

def isTerminal : Status → Bool
  | .accc | .acsc | .rjct | .canc => true
  | _ => false

/-- The bank has not picked the payment up yet. -/
def isPending : Status → Bool
  | .rcvd | .patc => true
  | _ => false

end Status

end Payment

namespace Parent

inductive Status where
  | consent (status : Consent.Status)
  | payment (status : Payment.Status)
  deriving DecidableEq, Repr

end Parent

end StrongAuth
