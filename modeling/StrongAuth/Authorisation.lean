import StrongAuth.Calendar.Instant
import StrongAuth.Parent.Status
import StrongAuth.Psu
import StrongAuth.Sca.Approach
import StrongAuth.Sca.Method
import StrongAuth.Sca.Status
import StrongAuth.Secret
import StrongAuth.Service

set_option autoImplicit false

namespace StrongAuth
open StrongAuth.Calendar

structure Authorisation where
  id : String
  parentId : String
  purpose : Purpose
  status : Sca.Status
  approach : Sca.Approach
  psu : Psu
  method : Option Sca.Method := none
  challenge : Option Sca.Challenge := none
  secret : Option Secret := none
  expiresAt : Instant
  /-- Not bounded here. A column of 64 bits would overflow after 2^63 writes. -/
  version : Int := 0
  deriving DecidableEq, Repr

namespace Authorisation

/-- An authorisation is valid up to and including its last instant. -/
def isExpired (a : Authorisation) (now : Instant) : Bool := a.expiresAt.isBefore now

structure Draft where
  parentId : String
  purpose : Purpose
  approach : Sca.Approach
  psu : Psu
  expiresAt : Instant
  deriving DecidableEq, Repr

def ofDraft (id : String) (d : Draft) : Authorisation :=
  { id, parentId := d.parentId, purpose := d.purpose, status := .received, approach := d.approach,
    psu := d.psu, expiresAt := d.expiresAt }

/-- What a step may change. A field that is `none` keeps its stored value. -/
structure Update where
  status : Sca.Status
  psu : Option Psu := none
  method : Option Sca.Method := none
  challenge : Option Sca.Challenge := none
  secret : Option Secret := none
  /-- Written to the consent or payment together with the authorisation. -/
  parentStatus : Option Parent.Status := none
  deriving DecidableEq, Repr

def apply (a : Authorisation) (u : Update) : Authorisation :=
  { a with
    status := u.status
    psu := u.psu.getD a.psu
    method := u.method <|> a.method
    challenge := u.challenge <|> a.challenge
    secret := u.secret <|> a.secret
    version := a.version + 1 }

theorem apply_version (a : Authorisation) (u : Update) :
    (a.apply u).version = a.version + 1 := rfl

end Authorisation

end StrongAuth
