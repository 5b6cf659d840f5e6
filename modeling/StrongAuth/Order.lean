import StrongAuth.Calendar.Date
import StrongAuth.Text.Keyword

set_option autoImplicit false

namespace StrongAuth

structure Account where
  iban : Option String := none
  bban : Option String := none
  pan : Option String := none
  currency : Option String := none
  deriving DecidableEq, Repr

structure Money where
  currency : String
  amount : String
  deriving DecidableEq, Repr

structure Transfer where
  endToEndId : Option String
  debtor : Account
  amount : Money
  creditor : Account
  creditorAgent : Option String
  creditorName : String
  remittance : Option String
  executionDate : Option Calendar.Date
  deriving DecidableEq, Repr

structure StandingOrder where
  transfer : Transfer
  startDate : Calendar.Date
  endDate : Option Calendar.Date
  executionRule : Option String
  frequency : String
  dayOfExecution : Option String
  deriving DecidableEq, Repr

structure Batch where
  batchBooking : Option Bool
  debtor : Account
  executionDate : Option Calendar.Date
  transfers : List Transfer
  deriving DecidableEq, Repr

inductive Order where
  | single (transfer : Transfer)
  | periodic (standing : StandingOrder)
  | bulk (batch : Batch)
  deriving DecidableEq, Repr

namespace Order

inductive Kind where
  | single
  | periodic
  | bulk
  deriving DecidableEq, Repr

namespace Kind

instance : Keyword Kind where
  title := "PaymentType"
  all := [.single, .periodic, .bulk]
  name
    | .single => "SINGLE"
    | .periodic => "PERIODIC"
    | .bulk => "BULK"

def name (k : Kind) : String := Named.name k

end Kind

def kind : Order → Kind
  | .single _ => .single
  | .periodic _ => .periodic
  | .bulk _ => .bulk

end Order

end StrongAuth
