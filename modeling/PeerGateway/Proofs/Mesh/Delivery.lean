import PeerGateway.Proofs.Directory.Link
import PeerGateway.Proofs.Walk.Course
import PeerGateway.Mesh

/-!
# Delivery in a mesh

A mesh is seen through its nodes (`Mesh.node`) and what is between them. Whatever a node does to
its own directory leaves the rest of the mesh alone (`Mesh.Updated`), and nobody acts between two
accesses of a node to its directory (`Mesh.quiet_around`).

In an honest mesh (`Mesh.Honest`) every node runs under its own identifier and answers for
itself, so a join request gets the answer of the directory at the address, or there is nobody
there (`Mesh.request_unrouted`, `Mesh.request_routed`).
-/

namespace PeerGateway

namespace Mesh

variable {m m' m'' : Mesh} {id k : NodeId}

@[simp] theorem node_setNode (n : Node) :
    (m.setNode id n).node k = if id = k then n else m.node k := by
  by_cases h : id = k <;> simp [node, setNode, Std.ExtTreeMap.getElem?_insert, h]

theorem node_setNode_self :
    (m.setNode id ((m.node id).withDirectory (m.node id).directory)).node k = m.node k := by
  rw [node_setNode]
  split_ifs with h
  · rw [← h]
    rfl
  · rfl

theorem quiet_around (id : NodeId) : (around id).Quiet where
  node_setNode n state := by simp [around]
  meanwhile state := rfl

theorem meanwhile_iterate_around (i : ℕ) : (around id).meanwhile^[i] m = m := by
  induction i with
  | zero => rfl
  | succ i ih => rw [Function.iterate_succ_apply', ih]; rfl

/-! ## The joiner's own directory -/

/-- The mesh is as before, but for the directory of one node. -/
structure Updated (id : NodeId) (d : Directory) (m m' : Mesh) : Prop where
  routes : m'.routes = m.routes
  canned : m'.canned = m.canned
  hosts : m'.hosts = m.hosts
  holes : m'.holes = m.holes
  log : m'.log = m.log
  self : m'.node id = (m.node id).withDirectory d
  other : ∀ k ≠ id, m'.node k = m.node k

namespace Updated

variable {d d' : Directory}

theorem refl (id : NodeId) (m : Mesh) : Updated id (m.node id).directory m m :=
  ⟨rfl, rfl, rfl, rfl, rfl, rfl, fun _ _ => rfl⟩

theorem trans (h : Updated id d m m') (h' : Updated id d' m' m'') : Updated id d' m m'' where
  routes := h'.routes.trans h.routes
  canned := h'.canned.trans h.canned
  hosts := h'.hosts.trans h.hosts
  holes := h'.holes.trans h.holes
  log := h'.log.trans h.log
  self := by rw [h'.self, h.self]; rfl
  other k hk := (h'.other k hk).trans (h.other k hk)

theorem directory (h : Updated id d m m') : (m'.node id).directory = d := by
  rw [h.self, Node.withDirectory]

theorem setDirectory (d : Directory) (m : Mesh) :
    Updated id d m ((around id).setDirectory d m) where
  routes := rfl
  canned := rfl
  hosts := rfl
  holes := rfl
  log := rfl
  self := by simp [Surroundings.setDirectory, around]
  other k hk := by simp [Surroundings.setDirectory, around, Ne.symm hk]

theorem giveBack (id : NodeId) (c : Candidate) (m : Mesh) :
    Updated id (Walk.releaseOffered (m.node id).directory c) m (Walk.giveBack (around id) c m) :=
  setDirectory _ _

theorem enrol {peer : Peer} {placed : Directory}
    (hplace : (m.node id).directory.place peer .connected m.clock.steady = .ok placed)
    (hconfirm : placed.confirm peer.nodeId m.clock.steady = .ok d) :
    ∃ m', Walk.enrol (around id) peer m = (.ok (), m') ∧ Updated id d m m' := by
  refine ⟨(around id).setDirectory d ((around id).setDirectory placed m), ?_,
    (setDirectory placed m).trans (setDirectory d _)⟩
  refine Walk.enrol_eq_ok hplace ?_
  show ((around id).directory ((around id).setDirectory placed m)).confirm _ _ = _
  rw [(quiet_around id).directory_setDirectory]
  exact hconfirm

end Updated

/-! ## Honest meshes -/

/-- What an honest mesh asks of a node : it runs under its own identifier, it is not behind a
NAT, and the address that it has of a peer leads to the peer or to nobody. -/
structure HonestAt (m : Mesh) (id : NodeId) (n : Node) : Prop where
  runs : n.id = id
  behindNat : n.policy.behindNat = false
  consistent : n.directory.Consistent
  leads : ∀ k e, n.directory.find? k = some e →
    m.routes[e.peer.address]? = none ∨ m.routes[e.peer.address]? = some k

/-- A mesh of honest nodes with nothing between them : no address has replies of its own, no
node is told where its messages come from, and no hole is open. -/
structure Honest (m : Mesh) : Prop where
  nodes : ∀ id n, m.nodes[id]? = some n → m.HonestAt id n
  canned : m.canned = ∅
  hosts : m.hosts = ∅
  holes : m.holes = []

theorem Honest.honestAt (hm : m.Honest) (id : NodeId) : m.HonestAt id (m.node id) := by
  unfold node
  cases hn : m.nodes[id]? with
  | some n => exact hm.nodes id n hn
  | none => exact ⟨rfl, rfl, Directory.consistent_empty _ _ _, by simp [lone, Directory.find?]⟩

/-- A walk can come upon the addresses that nodes have of their peers. -/
theorem mem_reachable {e : Entry} (he : (m.node id).directory.find? k = some e)
    (seeds : List String) : e.peer.address ∈ m.reachable seeds := by
  unfold node at he
  cases hn : m.nodes[id]? with
  | none => simp [hn, lone, Directory.find?] at he
  | some n =>
    rw [hn, Option.getD_some] at he
    refine List.mem_append_left _ (List.mem_append_right _ (List.mem_flatMap.mpr ⟨(id, n), ?_, ?_⟩))
    · exact Std.ExtTreeMap.mem_toList_iff_getElem?_eq_some.mpr hn
    · exact List.mem_cons_of_mem _ (List.mem_map_of_mem (Directory.mem_list.mpr ⟨k, he⟩))

theorem settle_of_holes_eq_nil (hholes : m.holes = []) : m.settle = m := by
  rw [settle, hholes, List.foldl_nil, ← hholes]

/-! ## Join requests -/

/-- The mesh in which a join request arrives at an address. -/
def arrived (m : Mesh) (address : String) (r : JoinRequest) : Mesh :=
  (m.logged (.request address (.joinRequest r))).advance ((m.latencies[address]?).getD 0)

variable {address : String} {r : JoinRequest}

@[simp] theorem node_arrived : (m.arrived address r).node k = m.node k :=
  rfl

theorem takeCanned_eq (hcanned : m.canned = ∅) : m.takeCanned address = (none, m) := by
  simp [takeCanned, hcanned]

theorem request_unrouted (hcanned : m.canned = ∅) (hroute : m.routes[address]? = none) :
    m.request id address (.joinRequest r) =
      (.error (.io (.other address)), m.arrived address r) := by
  have hc : (m.logged (.request address (.joinRequest r))).canned = ∅ := hcanned
  have hd : (m.logged (.request address (.joinRequest r))).deliver id address (.joinRequest r) =
      (.error (.io (.other address)), m.arrived address r) := by
    have hr : (m.arrived address r).routes[address]? = none := hroute
    unfold arrived at hr ⊢
    simp only [deliver, logged] at hr ⊢
    simp only [hr]
  simp only [request, takeCanned_eq hc, hd]

/-- A node that waits for no traversal answers a join request as its directory does. -/
theorem receive_joinRequest (hnat : (m.node k).policy.behindNat = false)
    {response : JoinResponse} {d : Directory}
    (ht : (m.node k).directory.takeIn r false m.clock.steady = (response, d)) :
    m.receive k (.joinRequest r) none =
      (some (.joinResponse response), m.setNode k ((m.node k).withDirectory d)) := by
  simp [receive, Node.receive, Node.replyToJoin, hnat, ht]

theorem request_routed (hcanned : m.canned = ∅) (hhosts : m.hosts = ∅)
    (hroute : m.routes[address]? = some k) (hnat : (m.node k).policy.behindNat = false)
    {response : JoinResponse} {d : Directory}
    (ht : (m.node k).directory.takeIn r false (m.arrived address r).clock.steady = (response, d)) :
    m.request id address (.joinRequest r) = (.ok (.joinResponse response),
      (m.arrived address r).setNode k ((m.node k).withDirectory d)) := by
  have hc : (m.logged (.request address (.joinRequest r))).canned = ∅ := hcanned
  have hd : (m.logged (.request address (.joinRequest r))).deliver id address (.joinRequest r) =
      (.ok (some (.joinResponse response)),
        (m.arrived address r).setNode k ((m.node k).withDirectory d)) := by
    have hr : (m.arrived address r).routes[address]? = some k := hroute
    have hh : (m.arrived address r).hosts[id]? = none := by
      simp [arrived, advance, logged, hhosts]
    have hreceive : (m.arrived address r).receive k (.joinRequest r) none =
        (some (.joinResponse response),
          (m.arrived address r).setNode k ((m.node k).withDirectory d)) := by
      rw [← node_arrived] at hnat ht ⊢
      exact receive_joinRequest hnat ht
    unfold arrived at hr hh hreceive ⊢
    simp only [deliver]
    simp only [logged] at hr hh hreceive ⊢
    simp only [hr, hh, hreceive]
  simp only [request, takeCanned_eq hc, hd]

end Mesh

end PeerGateway
