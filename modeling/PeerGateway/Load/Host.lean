import PeerGateway.Binary64.Arithmetic

/-!
# Readings of the machine

CPU and memory use as percentages from zero to a hundred, from the counters that a
machine gives: its load average over its processors, and its memory.
-/

namespace PeerGateway

/-- CPU and memory use in percent. -/
structure HostLoad where
  cpu : Binary64
  memory : Binary64
  deriving DecidableEq, Inhabited

namespace HostLoad

/-- The percentage nearest to `x` from zero to a hundred. -/
def clamped (x : Binary64) : Binary64 :=
  if x.lt 0 then 0 else if (100 : Binary64).lt x then 100 else x

/-- A percentage from zero to a hundred. -/
def inRange (x : Binary64) : Bool := (0 : Binary64).le x && x.le 100

/-- The use of the processors, from the load average of the last minute; zero if there
is none. One processor is assumed when their number is not known. -/
def ofLoadAverage (average : Option Binary64) (processors : Nat) : Binary64 :=
  match average with
  | none => 0
  | some a => clamped (a / .ofNat (max processors 1) * 100)

/-- The use of the memory, from its size and how much of it is free or a buffer. -/
def ofMemory (total free buffers : Nat) : Binary64 :=
  if total = 0 then 0
  else
    let all := Binary64.ofNat total
    clamped ((all - (.ofNat free + .ofNat buffers)) / all * 100)

end HostLoad

end PeerGateway
