import StrongAuth.Text.Keyword

set_option autoImplicit false

/-!
# The status of an authorisation

An authorisation moves forward one step at a time, from `received` to `finalised`. It may fail at
every step, and the bank may exempt it at the first one. `permits` is the whole table of moves; a
terminal status permits nothing but itself.
-/
namespace StrongAuth.Sca

inductive Status where
  | received
  | psuIdentified
  | psuAuthenticated
  | methodSelected
  /-- The bank accepted the answer; consent or payment have not been touched yet. -/
  | started
  | finalised
  | failed
  /-- The bank waived strong authentication. -/
  | exempted
  deriving DecidableEq, Repr

namespace Status

instance : Keyword Status where
  title := "ScaStatus"
  all := [.received, .psuIdentified, .psuAuthenticated, .methodSelected, .started, .finalised,
    .failed, .exempted]
  name
    | .received => "RECEIVED"
    | .psuIdentified => "PSUIDENTIFIED"
    | .psuAuthenticated => "PSUAUTHENTICATED"
    | .methodSelected => "SCAMETHODSELECTED"
    | .started => "STARTED"
    | .finalised => "FINALISED"
    | .failed => "FAILED"
    | .exempted => "EXEMPTED"

def name (s : Status) : String := Named.name s

def isTerminal : Status → Bool
  | .finalised | .failed | .exempted => true
  | _ => false

/-- The two statuses in which the PSU has given the consent or payment what it needed. -/
def isGranted : Status → Bool
  | .finalised | .exempted => true
  | _ => false

def next? : Status → Option Status
  | .received => some .psuIdentified
  | .psuIdentified => some .psuAuthenticated
  | .psuAuthenticated => some .methodSelected
  | .methodSelected => some .started
  | .started => some .finalised
  | .finalised | .failed | .exempted => none

/-- A live authorisation may stay, fail, take one step, or be exempted while it is `received`. -/
def permits (current next : Status) : Bool :=
  current == next ||
    (!current.isTerminal &&
      (next == .failed || current.next? == some next ||
        (current == .received && next == .exempted)))

theorem permits_self (s : Status) : s.permits s = true := by
  simp [permits]

theorem permits_failed {s : Status} (h : s.isTerminal = false) : s.permits .failed = true := by
  simp [permits, h]

end Status

end StrongAuth.Sca
