import StrongAuth.Text.Keyword

set_option autoImplicit false

namespace StrongAuth.Sca

inductive Approach where
  | redirect
  | embedded
  | decoupled
  | oauth
  deriving DecidableEq, Repr

namespace Approach

instance : Keyword Approach where
  title := "ScaApproach"
  all := [.redirect, .embedded, .decoupled, .oauth]
  name
    | .redirect => "REDIRECT"
    | .embedded => "EMBEDDED"
    | .decoupled => "DECOUPLED"
    | .oauth => "OAUTH"

def name (a : Approach) : String := Named.name a

def suitsPayments : Approach → Bool
  | .oauth => false
  | _ => true

end Approach

end StrongAuth.Sca
