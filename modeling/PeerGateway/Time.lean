import PeerGateway.Binary64.Decimal

/-!
# Time

Two clocks: a steady one, whose readings only serve to tell how long ago something was,
and the wall clock, counted from the Unix epoch and free to jump in any direction. Both
are counted in nanoseconds. `Span.text` writes a span in the largest unit that leaves a
whole part, `Span.seconds` and `Span.ofSeconds` pass to binary64 and back.
-/

namespace PeerGateway

/-- A length of time in nanoseconds. -/
abbrev Span := Nat

/-- A reading of the steady clock in nanoseconds. -/
abbrev Instant := Int

/-- A reading of the wall clock in nanoseconds since the Unix epoch. -/
abbrev WallTime := Int

/-- The readings of both clocks at one moment. -/
structure Moment where
  steady : Instant
  wall : WallTime
  deriving DecidableEq, Repr, Inhabited

namespace Span

def nanosPerSecond : Nat := 1000000000
def nanosPerMilli : Nat := 1000000
def nanosPerMicro : Nat := 1000

def ofSecs (n : Nat) : Span := n * nanosPerSecond
def ofMillis (n : Nat) : Span := n * nanosPerMilli

/-- The whole seconds of a span. -/
def secs (d : Span) : Nat := d / nanosPerSecond

/-- A span in seconds: its whole seconds plus its remaining nanoseconds. -/
def seconds (d : Span) : Binary64 :=
  .ofNat (d / nanosPerSecond) + .ofNat (d % nanosPerSecond) / .ofNat nanosPerSecond

/-- A number of seconds, finite and not negative, to the nearest nanosecond. -/
def ofSeconds (x : Binary64) : Span :=
  roundedQuotient (x.quanta * nanosPerSecond) Binary64.quantaPerUnit

/-- The digits of a fraction `part / 10 ^ places` without trailing zeros. -/
def fractionDigits (part places : Nat) : List Char :=
  let digits := Nat.toDigits 10 part
  let padded := List.replicate (places - digits.length) '0' ++ digits
  (padded.reverse.dropWhile (· = '0')).reverse

/-- A span in units of `10 ^ places` nanoseconds. -/
def inUnit (d : Span) (places : Nat) (unit : String) : String :=
  let part := d % tenTo places
  let point := if part = 0 then "" else "." ++ String.ofList (fractionDigits part places)
  toString (d / tenTo places) ++ point ++ unit

/-- A span in the largest of seconds, milliseconds, microseconds and nanoseconds of
which it holds at least one. -/
def text (d : Span) : String :=
  if nanosPerSecond ≤ d then inUnit d 9 "s"
  else if nanosPerMilli ≤ d then inUnit d 6 "ms"
  else if nanosPerMicro ≤ d then inUnit d 3 "µs"
  else inUnit d 0 "ns"

end Span

/-- How long before `now` the reading `earlier` was taken; none at all if it was not. -/
def Instant.since (now earlier : Instant) : Span := (now - earlier).toNat

namespace WallTime

/-- How long before `now` the reading `earlier` was taken, if it was. -/
def since? (now earlier : WallTime) : Option Span :=
  if earlier ≤ now then some (now - earlier).toNat else none

/-- The earliest reading of the wall clock: its seconds are a signed word. -/
def earliest : WallTime := -(0x8000000000000000 * Span.nanosPerSecond)

/-- The reading a span before; the epoch when there is none so early. -/
def before (now : WallTime) (d : Span) : WallTime :=
  if earliest ≤ now - d then now - d else 0

/-- Milliseconds since the epoch, zero before it, as a 64-bit word. -/
def epochMillis (t : WallTime) : UInt64 := UInt64.ofNat (t.toNat / Span.nanosPerMilli)

end WallTime

end PeerGateway
