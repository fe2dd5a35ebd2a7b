import PeerGateway.Message.Basic

/-!
# Scores

The load of a node as one number, the lower the better. `Load.score` weighs four shares
of full load; it is stated over any type of numbers (`LoadNumber`), and `Score.ofSnapshot`
is that sum in binary64.
-/

namespace PeerGateway

/-- Numbers that a load is measured in. -/
class LoadNumber (α : Type) extends Add α, Mul α, Div α where
  ofNat : Nat → α
  /-- The lesser of a number and a cap. -/
  cappedAt : α → α → α

instance : LoadNumber Binary64 where
  ofNat := Binary64.ofNat
  cappedAt := Binary64.cappedAt

/-- How much each share of the load counts. -/
structure WeightsOf (α : Type) where
  cpu : α
  memory : α
  rps : α
  latency : α
  deriving DecidableEq

/-- The shares of the load and their weighted sum. -/
structure ScoreOf (α : Type) where
  cpu : α
  memory : α
  rps : α
  latency : α
  total : α
  deriving DecidableEq

abbrev Weights := WeightsOf Binary64
abbrev Score := ScoreOf Binary64

namespace Load

variable {α : Type} [LoadNumber α]

/-- The score of a load: percentages as fractions, requests per second as a fraction of
a thousand and the latency as one of a second, both at most one. The sum is taken in the
order of the shares. -/
def score (weights : WeightsOf α) (cpuUsage memoryUsage requestsPerSec latencyMs : α) :
    ScoreOf α :=
  let number : Nat → α := LoadNumber.ofNat
  let cpu := cpuUsage / number 100
  let memory := memoryUsage / number 100
  let rps := LoadNumber.cappedAt (requestsPerSec / number 1000) (number 1)
  let latency := LoadNumber.cappedAt (latencyMs / number 1000) (number 1)
  { cpu, memory, rps, latency
    total := cpu * weights.cpu + memory * weights.memory + rps * weights.rps +
      latency * weights.latency }

end Load

/-- Equal weights that sum to one. -/
def Weights.default : Weights :=
  let quarter := Binary64.ofFraction false 1 4
  ⟨quarter, quarter, quarter, quarter⟩

namespace Score

/-- The score of a node whose load is not known: full in every share. -/
def unknown : Score := ⟨1, 1, 1, 1, 1⟩

/-- A span in milliseconds. -/
def milliseconds (d : Span) : Binary64 := d.seconds * 1000

/-- The score of a snapshot with a latency. -/
def ofSnapshot (weights : Weights) (m : Snapshot) (latency : Span) : Score :=
  Load.score weights m.cpuUsage m.memoryUsage m.requestsPerSec (milliseconds latency)

end Score

end PeerGateway
