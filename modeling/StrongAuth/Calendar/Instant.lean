import StrongAuth.Calendar.Date

set_option autoImplicit false

/-!
# Instants and lifetimes

An instant counts seconds from 1970-01-01T00:00:00 UTC and nanoseconds within the second. A second
that is followed by a leap second lasts up to two thousand million nanoseconds. Adding a lifetime to an
instant yields nothing when the sum leaves the covered years.
-/
namespace StrongAuth.Calendar

structure Instant where
  seconds : Int
  nanos : Nat
  deriving DecidableEq, Repr

namespace Instant

def isBefore (a b : Instant) : Bool :=
  decide (a.seconds < b.seconds) || (a.seconds == b.seconds && decide (a.nanos < b.nanos))

def firstSecond : Int := -8334601228800

def lastSecond : Int := 8210266876799

def isCovered (t : Instant) : Bool :=
  decide (firstSecond ≤ t.seconds) && decide (t.seconds ≤ lastSecond)

def pred (t : Instant) : Instant := { t with seconds := t.seconds - 1 }

end Instant

def nanosIn (seconds nanos : Int) : Int := seconds * 1000000000 + nanos

/-- The longest lifetime, in nanoseconds and either direction, is 2^63 - 1 milliseconds. -/
def longestNanos : Int := 9223372036854775807 * 1000000

def longestLifetime : Int := 9223372036854775

/-- A time span. If it is negative, the nanoseconds still count upwards from the second below. -/
structure Lifetime where
  seconds : Int
  nanos : Nat
  within_second : nanos < 1000000000
  bounded : -longestNanos ≤ nanosIn seconds nanos ∧ nanosIn seconds nanos ≤ longestNanos
  deriving DecidableEq, Repr

namespace Lifetime

def day : Lifetime := ⟨86400, 0, by decide, by decide, by decide⟩

def ofSeconds? (n : Int) : Option Lifetime :=
  if h : -longestLifetime ≤ n ∧ n ≤ longestLifetime then
    some ⟨n, 0, by decide, by unfold longestLifetime at h; unfold nanosIn longestNanos; omega⟩
  else none

theorem ofSeconds?_eq_none_iff (n : Int) :
    ofSeconds? n = none ↔ n < -longestLifetime ∨ longestLifetime < n := by
  unfold ofSeconds?
  split
  · simp; omega
  · simp; omega

def totalNanos (l : Lifetime) : Int := nanosIn l.seconds l.nanos

/-- The whole seconds of the lifetime, rounded towards zero. -/
def wholeSeconds (l : Lifetime) : Int :=
  if l.seconds < 0 ∧ 0 < l.nanos then l.seconds + 1 else l.seconds

def restNanos (l : Lifetime) : Int :=
  if l.seconds < 0 ∧ 0 < l.nanos then l.nanos - 1000000000 else l.nanos

theorem totalNanos_eq (l : Lifetime) : l.totalNanos = nanosIn l.wholeSeconds l.restNanos := by
  unfold totalNanos wholeSeconds restNanos nanosIn
  split <;> omega

end Lifetime

namespace Instant

def totalNanos (t : Instant) : Int := nanosIn t.seconds t.nanos

def ofNanos (seconds nanos : Int) : Instant :=
  ⟨seconds + nanos / 1000000000, (nanos % 1000000000).toNat⟩

theorem totalNanos_ofNanos (seconds nanos : Int) :
    (ofNanos seconds nanos).totalNanos = nanosIn seconds nanos := by
  simp only [totalNanos, ofNanos, nanosIn]
  omega

/-- The instant after the lifetime has passed, in whatever year it is. Out of a leap second it counts
on from the second before or back from the second after, and a short lifetime stays in it. -/
def plus (t : Instant) (l : Lifetime) : Instant :=
  let nanos := t.nanos % 1000000000 + l.restNanos
  if t.nanos < 1000000000 ∨ 0 < l.wholeSeconds ∨
      0 < l.restNanos ∧ 2000000000 ≤ t.nanos + l.restNanos then
    ofNanos (t.seconds + l.wholeSeconds) nanos
  else if l.wholeSeconds < 0 then ofNanos (t.seconds + 1 + l.wholeSeconds) nanos
  else ⟨t.seconds, (t.nanos + l.restNanos).toNat⟩

/-- Outside leap seconds, an instant and a lifetime add up to the nanosecond. -/
theorem totalNanos_plus {t : Instant} (ordinary : t.nanos < 1000000000) (l : Lifetime) :
    (t.plus l).totalNanos = t.totalNanos + l.totalNanos := by
  rw [plus, if_pos (.inl ordinary), totalNanos_ofNanos, l.totalNanos_eq]
  unfold totalNanos nanosIn
  omega

theorem seconds_plus (t : Instant) {l : Lifetime} (whole : l.nanos = 0) (positive : 0 < l.seconds) :
    (t.plus l).seconds = t.seconds + l.seconds := by
  have sum : l.wholeSeconds = l.seconds ∧ l.restNanos = 0 := by
    simp [Lifetime.wholeSeconds, Lifetime.restNanos, whole]
  rw [plus, sum.1, sum.2, if_pos (.inr (.inl positive))]
  simp only [ofNanos]
  omega

def after? (t : Instant) (l : Lifetime) : Option Instant :=
  if (t.plus l).isCovered then some (t.plus l) else none

end Instant

end StrongAuth.Calendar
