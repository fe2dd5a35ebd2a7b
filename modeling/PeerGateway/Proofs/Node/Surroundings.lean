import PeerGateway.Proofs.Directory.Consistent
import PeerGateway.Node.Basic
import Mathlib.Data.Finset.Card
import Mathlib.Logic.Function.Iterate

/-!
# Kinds of surroundings

All surroundings here keep the node as it is put (`Surroundings.Lawful`). In orderly ones
(`Surroundings.Orderly`) others act on the node at any time, by operations on its directory.
In quiet ones (`Surroundings.Quiet`) they do not act between two accesses of the node to its
directory, and in undisturbed ones (`Surroundings.Undisturbed`) nobody else touches it at all
while the node walks, whatever the answers are. Orderly and undisturbed ones are orderly for a
walk (`Surroundings.OrderlyWalk`).

`Surroundings.recorded` adds a record of the requests that are sent.
-/

namespace PeerGateway

variable {σ : Type}

namespace Surroundings

/-- Surroundings that keep the node as it is put. -/
structure Lawful (s : Surroundings σ) : Prop where
  node_setNode : ∀ n state, s.node (s.setNode n state) = n

/-- Surroundings in which others change the directory of a walking node by operations only,
whatever they answer. -/
structure OrderlyWalk (s : Surroundings σ) : Prop extends s.Lawful where
  meanwhile : ∀ state, (s.directory state).Becomes (s.directory (s.meanwhile state))
  request : ∀ address (r : JoinRequest) state, r.nodeId = (s.directory state).localId →
    (s.directory state).Becomes (s.directory (s.request address (.joinRequest r) state).2)
  punch : ∀ address port state,
    (s.directory state).Becomes (s.directory (s.punch address port state).2)

/-- Surroundings in which others change the directory by operations only, whatever they
answer. -/
structure Orderly (s : Surroundings σ) : Prop extends s.Lawful where
  meanwhile : ∀ state, (s.directory state).Becomes (s.directory (s.meanwhile state))
  request : ∀ address message state,
    (s.directory state).Becomes (s.directory (s.request address message state).2)
  punch : ∀ address port state,
    (s.directory state).Becomes (s.directory (s.punch address port state).2)
  forget : ∀ address state, (s.directory state).Becomes (s.directory (s.forget address state))

/-- Surroundings in which nobody else touches the directory between two accesses of the node to
it. -/
structure Quiet (s : Surroundings σ) : Prop extends s.Lawful where
  meanwhile : ∀ state, s.directory (s.meanwhile state) = s.directory state

/-- Surroundings in which nobody else touches the directory of a node that walks, whatever
the answers to its requests are. -/
structure Undisturbed (s : Surroundings σ) : Prop extends s.Quiet where
  request : ∀ address (r : JoinRequest) state, r.nodeId = (s.directory state).localId →
    s.directory (s.request address (.joinRequest r) state).2 = s.directory state
  punch : ∀ address port state,
    s.directory (s.punch address port state).2 = s.directory state

/-- Surroundings in which the answers to join requests offer peers at these addresses only. -/
def OffersWithin (s : Surroundings σ) (addresses : Finset String) : Prop :=
  ∀ address (r : JoinRequest) state response,
    (s.request address (.joinRequest r) state).1 = .ok (.joinResponse response) →
      ∀ p ∈ response.alternatives, p.address ∈ addresses

/-- Surroundings with a record of the requests that are sent in them. -/
def recorded (s : Surroundings σ) : Surroundings (σ × List (String × Message)) where
  node state := s.node state.1
  setNode n state := (s.setNode n state.1, state.2)
  now state := s.now state.1
  meanwhile state := (s.meanwhile state.1, state.2)
  request address message state :=
    let r := s.request address message state.1
    (r.1, r.2, state.2 ++ [(address, message)])
  notify address message state :=
    let r := s.notify address message state.1
    (r.1, r.2, state.2)
  forget address state := (s.forget address state.1, state.2)
  punch address port state :=
    let r := s.punch address port state.1
    (r.1, r.2, state.2)

variable {s : Surroundings σ}

namespace Lawful

theorem directory_setNode (hs : s.Lawful) (n : Node) (state : σ) :
    s.directory (s.setNode n state) = n.directory := by
  rw [directory, hs.node_setNode]

theorem directory_setDirectory (hs : s.Lawful) (d : Directory) (state : σ) :
    s.directory (s.setDirectory d state) = d := by
  rw [setDirectory, hs.directory_setNode, Node.withDirectory]

end Lawful

section Recorded

variable (s) (x : σ × List (String × Message))

@[simp] theorem node_recorded : s.recorded.node x = s.node x.1 :=
  rfl

@[simp] theorem now_recorded : s.recorded.now x = s.now x.1 :=
  rfl

@[simp] theorem directory_recorded : s.recorded.directory x = s.directory x.1 :=
  rfl

@[simp] theorem setDirectory_recorded (d : Directory) :
    s.recorded.setDirectory d x = (s.setDirectory d x.1, x.2) :=
  rfl

@[simp] theorem meanwhile_recorded : s.recorded.meanwhile x = (s.meanwhile x.1, x.2) :=
  rfl

@[simp] theorem request_recorded (address : String) (message : Message) :
    s.recorded.request address message x = ((s.request address message x.1).1,
      (s.request address message x.1).2, x.2 ++ [(address, message)]) :=
  rfl

end Recorded

theorem Orderly.orderlyWalk (hs : s.Orderly) : s.OrderlyWalk where
  node_setNode := hs.node_setNode
  meanwhile := hs.meanwhile
  request address r state _ := hs.request address (.joinRequest r) state
  punch := hs.punch

theorem Undisturbed.orderlyWalk (hs : s.Undisturbed) : s.OrderlyWalk where
  node_setNode := hs.node_setNode
  meanwhile state := hs.meanwhile state ▸ .refl _
  request address r state hr := hs.request address r state hr ▸ .refl _
  punch address port state := hs.punch address port state ▸ .refl _

end Surroundings

end PeerGateway
