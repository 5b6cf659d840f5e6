import StrongAuth.Calendar.Instant
import StrongAuth.Flag
import StrongAuth.Sca.Approach
import StrongAuth.Text.Numeral

set_option autoImplicit false

namespace StrongAuth
open StrongAuth.Calendar

/-- A time beyond what the calendar can express. There is no answer to give. -/
inductive Halt where
  | lifetime
  | expiry
  deriving DecidableEq, Repr

namespace Halt

def message : Halt → String
  | lifetime => "TimeDelta::seconds out of bounds"
  | expiry => "\x60DateTime + TimeDelta\x60 overflowed"

end Halt

structure Config where
  databaseUrl : String := "sqlite://data/xs2a_store.db"
  maxConnections : Nat := 5
  confirmationMandated : Bool := false
  /-- Confirmation codes are compared with the stored secret; otherwise the bank checks them. -/
  checksCodesLocally : Bool := true
  defaultApproach : Sca.Approach := .redirect
  lifetime : Lifetime := .day
  deriving Repr

namespace Config

def lifetimeOf (seconds : Int) : Except Halt Lifetime :=
  match Lifetime.ofSeconds? seconds with
  | some l => .ok l
  | none => .error .lifetime

/-- The number of seconds that a variable asks for; it has to be positive. -/
def expirySeconds (env : Environment) : Int :=
  let written := (env.find? "XS2A_AUTHORISATION_EXPIRY_SECS").bind
    (Text.signed? Text.leastInt64 Text.greatestInt64)
  match written with
  | some n => if 0 < n then n else 86400
  | none => 86400

def readApproach (env : Environment) : Sca.Approach :=
  match env.find? "XS2A_DEFAULT_SCA_APPROACH" with
  | none => .redirect
  | some text =>
    match Keyword.read text with
    | .ok approach => approach
    | .error _ => .redirect

def ofEnvironment (env : Environment) : Except Halt Config := do
  let lifetime ← lifetimeOf (expirySeconds env)
  return {
    databaseUrl := (env.find? "XS2A_DATABASE_URL").getD "sqlite://data/xs2a_store.db"
    maxConnections := ((env.find? "XS2A_DATABASE_MAX_CONNECTIONS").bind
      (Text.unsigned? Text.greatestUInt32)).getD 5
    confirmationMandated :=
      Flag.ofEnvironment env "XS2A_AUTHORISATION_CONFIRMATION_MANDATED" false
    checksCodesLocally := Flag.ofEnvironment env "XS2A_CONFIRMATION_CHECK_BY_XS2A" true
    defaultApproach := readApproach env
    lifetime }

end Config

end StrongAuth
