import PeerGateway.Proofs.Mesh.Delivery

/-!
# Nodes that took a joiner in

While a node walks through an honest mesh, the nodes that took it in have it as connected, and
all others are as they were (`Mesh.TookIn`). One request keeps this, and the answer to it is a
loop if the node took the joiner in or was visited before (`Mesh.TookIn.request`).

The answers that an honest mesh gives (`Mesh.Answer`) name the nodes at the addresses they come
from, and offer only peers of these nodes.
-/

namespace PeerGateway

variable {m₀ m m' : Mesh} {joiner : NodeId} {ids : List NodeId}

namespace Mesh

/-! ## Answers -/

/-- A candidate that was found in a mesh : a seed, or a peer at an address that leads to it or to
nobody. -/
structure FoundIn (m : Mesh) (seeds : List String) (c : Candidate) : Prop where
  address : c.address ∈ m.reachable seeds
  leads : ∀ id, c.nodeId = some id →
    m.routes[c.address]? = none ∨ m.routes[c.address]? = some id

/-- How a join request is answered at an address of a mesh, and who takes the joiner in. -/
inductive Answer (m : Mesh) (r : JoinRequest) (address : String) :
    Except NetworkError Message → Option NodeId → Prop
  | nobody (route : m.routes[address]? = none) (e : NetworkError) :
    Answer m r address (.error e) none
  | loop {id : NodeId} (route : m.routes[address]? = some id) :
    Answer m r address
      (.ok (.joinResponse ((m.node id).directory.reject .networkJoinLoop []))) none
  | full {id : NodeId} (route : m.routes[address]? = some id) (new : id ∉ r.visited)
    {offered : List Peer} (known : (m.node id).directory.OffersKnown r.nodeId offered) :
    Answer m r address
      (.ok (.joinResponse ((m.node id).directory.reject .networkFull offered))) none
  | takenIn {id : NodeId} (route : m.routes[address]? = some id) (new : id ∉ r.visited)
    (other : id ≠ r.nodeId) {offered : List Peer}
    (known : (m.node id).directory.OffersKnown r.nodeId offered) :
    Answer m r address (.ok (.joinResponse ((m.node id).directory.accept offered))) (some id)

namespace Answer

variable {a : Attempt} {taken : Option NodeId}

/-- Who did not answer as to a loop is visited. -/
theorem visited?_eq_some_iff (hm : m.Honest) (h : m.Answer a.request a.address a.reply taken)
    {id : NodeId} :
    a.visited? = some id ↔ m.routes[a.address]? = some id ∧ a.isLoop = false := by
  have hlocal : ∀ k, (m.node k).directory.localId = k := fun k => (hm.honestAt k).runs
  unfold Attempt.visited? Attempt.isLoop
  generalize a.reply = reply at h
  cases h with
  | nobody route => simp [Walk.followed?, route]
  | loop => simp [Walk.followed?, Directory.reject, JoinResponse.rejected]
  | full route =>
    simp [Walk.followed?, Directory.reject, JoinResponse.rejected, route, hlocal]
  | takenIn route =>
    simp [Walk.followed?, Directory.accept, JoinResponse.accepted, route, hlocal]

/-- Nobody is visited twice. -/
theorem visited?_ne_some (hm : m.Honest) (h : m.Answer a.request a.address a.reply taken)
    {id : NodeId} (hid : id ∈ a.request.visited) : a.visited? ≠ some id := by
  intro hvisited
  obtain ⟨hroute, hloop⟩ := (h.visited?_eq_some_iff hm).mp hvisited
  unfold Attempt.isLoop at hloop
  generalize a.reply = reply at h hloop
  cases h with
  | nobody route => simp [route] at hroute
  | loop => simp [Directory.reject, JoinResponse.rejected] at hloop
  | full route new | takenIn route new =>
    rw [route, Option.some.injEq] at hroute
    exact new (hroute ▸ hid)

/-- The joiner is taken in by the one whose answer says so, which asks for no punching. -/
theorem taken_cases (hm : m.Honest) (h : m.Answer a.request a.address a.reply taken) :
    (a.isAccepted = false ∧ taken = none) ∨
    ∃ r, a.reply = .ok (.joinResponse r) ∧ r.success = true ∧ r.natPort = none ∧
      m.routes[a.address]? = some r.nodeId ∧ r.nodeId ≠ a.request.nodeId ∧
        taken = some r.nodeId := by
  have hlocal : ∀ k, (m.node k).directory.localId = k := fun k => (hm.honestAt k).runs
  unfold Attempt.isAccepted
  generalize a.reply = reply at h
  cases h with
  | nobody | loop | full => exact Or.inl ⟨rfl, rfl⟩
  | takenIn route new other =>
    refine Or.inr ⟨_, rfl, rfl, rfl, ?_⟩
    show m.routes[_]? = some (m.node _).directory.localId ∧ (m.node _).directory.localId ≠ _ ∧
      some _ = some (m.node _).directory.localId
    rw [hlocal]
    exact ⟨route, other, rfl⟩

/-- The peers that an answer offers were found in the mesh. -/
theorem foundIn (hm : m.Honest) (h : m.Answer a.request a.address a.reply taken)
    (seeds : List String) {r : JoinResponse} (hr : Walk.followed? a.reply = some r) :
    ∀ p ∈ r.alternatives,
      m.FoundIn seeds { nodeId := some p.nodeId, address := p.address } := by
  have hfound : ∀ id offered, (m.node id).directory.OffersKnown a.request.nodeId offered →
      ∀ p ∈ offered, m.FoundIn seeds { nodeId := some p.nodeId, address := p.address } := by
    intro id offered hknown p hp
    obtain ⟨e, he, rfl, -⟩ := hknown p hp
    refine ⟨mem_reachable he seeds, ?_⟩
    rintro k ⟨⟩
    exact (hm.honestAt id).leads _ e he
  generalize a.reply = reply at h hr
  cases h with
  | nobody | loop => simp [Walk.followed?, Directory.reject, JoinResponse.rejected] at hr
  | full route new known | takenIn route new other known =>
    obtain rfl := Message.joinResponse.inj (Except.ok.inj (Walk.eq_of_followed? hr))
    exact hfound _ _ known

end Answer

/-! ## The nodes that took the joiner in -/

/-- The mesh after these nodes and no others took the joiner in. They have it as connected at the
address that it tells. -/
structure TookIn (m₀ : Mesh) (joiner : NodeId) (ids : List NodeId) (m : Mesh) : Prop where
  routes : m.routes = m₀.routes
  canned : m.canned = m₀.canned
  hosts : m.hosts = m₀.hosts
  holes : m.holes = m₀.holes
  nodes : ∀ id, ∃ d, (m₀.node id).directory.SameNode d ∧ m.node id = (m₀.node id).withDirectory d
  took : ∀ id ∈ ids, id ≠ joiner ∧
    (m.node id).directory.ConnectedAt joiner (m₀.node joiner).address
  other : ∀ id ∉ ids, id ≠ joiner → m.node id = m₀.node id

namespace TookIn

theorem refl (m : Mesh) (joiner : NodeId) : m.TookIn joiner [] m :=
  ⟨rfl, rfl, rfl, rfl, fun _ => ⟨_, .refl _, rfl⟩, by simp, fun _ _ _ => rfl⟩

/-- What holds for a mesh holds for one with the same nodes. -/
theorem of_node_eq (h : m₀.TookIn joiner ids m) (hnode : ∀ id, m'.node id = m.node id)
    (hroutes : m'.routes = m.routes) (hcanned : m'.canned = m.canned)
    (hhosts : m'.hosts = m.hosts) (hholes : m'.holes = m.holes) : m₀.TookIn joiner ids m' where
  routes := hroutes.trans h.routes
  canned := hcanned.trans h.canned
  hosts := hhosts.trans h.hosts
  holes := hholes.trans h.holes
  nodes id := by rw [hnode]; exact h.nodes id
  took id hid := by rw [hnode]; exact h.took id hid
  other id hid hne := by rw [hnode]; exact h.other id hid hne

theorem arrived (h : m₀.TookIn joiner ids m) (address : String) (r : JoinRequest) :
    m₀.TookIn joiner ids (m.arrived address r) :=
  h.of_node_eq (fun _ => rfl) rfl rfl rfl rfl

/-- The joiner may do as it likes with its own directory. -/
theorem updated (h : m₀.TookIn joiner ids m) {d : Directory} (hm : Updated joiner d m m')
    (hd : (m.node joiner).directory.SameNode d) : m₀.TookIn joiner ids m' where
  routes := hm.routes.trans h.routes
  canned := hm.canned.trans h.canned
  hosts := hm.hosts.trans h.hosts
  holes := hm.holes.trans h.holes
  nodes id := by
    by_cases hid : id = joiner
    · subst hid
      obtain ⟨d₀, hsame, hd₀⟩ := h.nodes id
      rw [hd₀] at hd
      exact ⟨d, hsame.trans hd, by rw [hm.self, hd₀]; rfl⟩
    · rw [hm.other id hid]
      exact h.nodes id
  took id hid := by
    rw [hm.other id (h.took id hid).1]
    exact h.took id hid
  other id hid hne := by rw [hm.other id hne, h.other id hid hne]

theorem unchanged (h : m₀.TookIn joiner ids m) (id : NodeId) :
    m₀.TookIn joiner ids (m.setNode id ((m.node id).withDirectory (m.node id).directory)) :=
  h.of_node_eq (fun _ => node_setNode_self) rfl rfl rfl rfl

/-- One more node takes the joiner in. -/
theorem snoc (h : m₀.TookIn joiner ids m) {id : NodeId} {d : Directory} (hne : id ≠ joiner)
    (hsame : (m.node id).directory.SameNode d)
    (hd : d.ConnectedAt joiner (m₀.node joiner).address) :
    m₀.TookIn joiner (ids ++ [id]) (m.setNode id ((m.node id).withDirectory d)) where
  routes := h.routes
  canned := h.canned
  hosts := h.hosts
  holes := h.holes
  nodes k := by
    by_cases hk : id = k
    · subst hk
      obtain ⟨d₀, hsame₀, hd₀⟩ := h.nodes id
      rw [hd₀] at hsame ⊢
      exact ⟨d, hsame₀.trans hsame, by simp [Node.withDirectory]⟩
    · rw [node_setNode, if_neg hk]
      exact h.nodes k
  took k hk := by
    by_cases hid : id = k
    · subst hid
      simpa [Node.withDirectory] using ⟨hne, hd⟩
    · rw [node_setNode, if_neg hid]
      exact h.took k (by simpa [Ne.symm hid] using hk)
  other k hk hne := by
    simp only [List.mem_append, List.mem_singleton, not_or] at hk
    rw [node_setNode, if_neg (Ne.symm hk.2)]
    exact h.other k hk.1 hne

/-- What a join request comes to at an address keeps to the nodes that took the joiner in, if the
request tells of all of them. -/
theorem request (hm : m₀.Honest) (h : m₀.TookIn joiner ids m) {r : JoinRequest}
    (hid : r.nodeId = joiner) (haddress : r.address = (m₀.node joiner).address)
    (hvisited : ∀ id ∈ ids, id ∈ r.visited) (address : String) :
    ∃ reply taken m', m.request joiner address (.joinRequest r) = (reply, m') ∧
      m₀.Answer r address reply taken ∧ m'.log = .request address (.joinRequest r) :: m.log ∧
      m'.node joiner = m.node joiner ∧ m₀.TookIn joiner (ids ++ taken.toList) m' := by
  have hcanned := h.canned.trans hm.canned
  have hhosts := h.hosts.trans hm.hosts
  cases hroute : m₀.routes[address]? with
  | none =>
    have hroute' : m.routes[address]? = none := by rw [h.routes, hroute]
    exact ⟨_, none, _, request_unrouted hcanned hroute', .nobody hroute _, rfl, rfl,
      by simpa using h.arrived address r⟩
  | some id =>
    have hroute' : m.routes[address]? = some id := by rw [h.routes, hroute]
    obtain ⟨d, hsame, hd⟩ := h.nodes id
    have hlocal : d.localId = id := hsame.localId.trans (hm.honestAt id).runs
    have hnat : (m.node id).policy.behindNat = false := by
      rw [hd]
      exact (hm.honestAt id).behindNat
    by_cases hbeen : id ∈ r.visited ∨ joiner = id
    · have hloops : r.loopsAt d.localId = true := by
        rwa [JoinRequest.loopsAt_iff, hlocal, hid]
      have hd' : (m.node id).directory = d := by rw [hd, Node.withDirectory]
      have ht : (m.node id).directory.takeIn r false (m.arrived address r).clock.steady =
          (d.reject .networkJoinLoop [], (m.node id).directory) := by
        rw [hd']
        exact if_pos hloops
      have hreject : (m₀.node id).directory.reject .networkJoinLoop [] =
          d.reject .networkJoinLoop [] := by
        unfold Directory.reject
        rw [hsame.localId, hsame.localAddress]
      exact ⟨_, none, _, request_routed hcanned hhosts hroute' hnat ht, hreject ▸ .loop hroute,
        rfl, node_setNode_self (m := m.arrived address r),
        by simpa using (h.arrived address r).unchanged id⟩
    · obtain ⟨hnew, hne⟩ := not_or.mp hbeen
      -- The node has not taken the joiner in, so it is as it was.
      have hn : m.node id = m₀.node id :=
        h.other id (fun hmem => hnew (hvisited id hmem)) (Ne.symm hne)
      have hnot : ¬ r.loopsAt (m₀.node id).directory.localId = true := by
        rwa [JoinRequest.loopsAt_iff, ← hsame.localId, hlocal, hid]
      rcases (hm.honestAt id).consistent.takeIn_answer r (m.arrived address r).clock.steady with
        ⟨hl, -⟩ | ⟨-, offered, hknown, ht⟩ | ⟨-, offered, d', hknown, ht, hsame', hjoined⟩
      · exact absurd hl hnot
      · rw [← hn] at ht
        exact ⟨_, none, _, request_routed hcanned hhosts hroute' hnat ht,
          hn ▸ .full hroute hnew (hn ▸ hknown), rfl, node_setNode_self (m := m.arrived address r),
          by simpa using (h.arrived address r).unchanged id⟩
      · rw [← hn] at ht hsame'
        rw [hid, haddress] at hjoined
        exact ⟨_, some id, _, request_routed hcanned hhosts hroute' hnat ht,
          hn ▸ .takenIn hroute hnew (hid ▸ Ne.symm hne) (hn ▸ hknown), rfl, by simp [Ne.symm hne],
          (h.arrived address r).snoc (Ne.symm hne) hsame' hjoined⟩

end TookIn

end Mesh

end PeerGateway
