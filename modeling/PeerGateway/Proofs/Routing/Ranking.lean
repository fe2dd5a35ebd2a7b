import PeerGateway.Proofs.Directory.States
import PeerGateway.Routing

/-!
# Who is ranked

The ranking is an order in which no two peers share a place (`Ranked.fst_eq_of_precedes`), and its
head is the first of all connected peers (`Directory.head?_ranked_iff`).

In a consistent directory the peers that are ranked are those that are connected
(`Directory.Consistent.mem_ranked_iff`), so only a connected peer is selected
(`Directory.Consistent.stateOf?_of_select`) and only to one a request is forwarded
(`Directory.Consistent.stateOf?_of_route`). The exchanges of a round are those with the connected
and stale ones (`Directory.Consistent.mem_known_iff`).
-/

namespace PeerGateway

/-! ## The order of the ranking -/

namespace Ranked

variable {a b c : NodeId × Score}

/-- The ranking as a comparison: by place in the order of all numbers, then by identifier. -/
def order : NodeId × Score → NodeId × Score → Ordering :=
  compareLex (compareOn fun e => e.2.total.orderKey) (compareOn Prod.fst)

instance : Std.TransCmp order :=
  inferInstanceAs (Std.TransCmp (compareLex _ _))

theorem precedes_eq : precedes a b = (order a b).isLE :=
  rfl

theorem precedes_trans (h : precedes a b = true) (h' : precedes b c = true) :
    precedes a c = true := by
  rw [precedes_eq] at h h' ⊢
  exact Std.TransCmp.isLE_trans h h'

theorem precedes_total (a b : NodeId × Score) : (precedes a b || precedes b a) = true := by
  have hswap : order b a = (order a b).swap := Std.OrientedCmp.eq_swap
  rw [precedes_eq, precedes_eq, hswap]
  cases order a b <;> rfl

theorem precedes_self (a : NodeId × Score) : precedes a a = true := by
  simpa using precedes_total a a

/-- No two peers share a place in the ranking. -/
theorem fst_eq_of_precedes (h : precedes a b = true) (h' : precedes b a = true) : a.1 = b.1 := by
  rw [precedes_eq] at h h'
  have heq : order a b = .eq := Std.OrientedCmp.isLE_antisymm h h'
  exact Std.LawfulEqOrd.eq_of_compare (Ordering.then_eq_eq.mp heq).2

end Ranked

namespace LoadRecord

/-- A peer stands before another in the ranking. -/
def Prefers (c : LoadRecord) (id k : NodeId) : Prop :=
  Ranked.precedes (id, c.scoreOf id) (k, c.scoreOf k) = true

instance (c : LoadRecord) (id k : NodeId) : Decidable (c.Prefers id k) :=
  inferInstanceAs (Decidable (Ranked.precedes (id, c.scoreOf id) (k, c.scoreOf k) = true))

/-- The first in the ranking of all that have a property. -/
structure IsFirst (c : LoadRecord) (p : NodeId → Prop) (id : NodeId) : Prop where
  holds : p id
  prefers : ∀ k, p k → c.Prefers id k

variable {c : LoadRecord} {p : NodeId → Prop} {id j k : NodeId}

theorem Prefers.trans (h : c.Prefers id j) (h' : c.Prefers j k) : c.Prefers id k :=
  Ranked.precedes_trans h h'

theorem prefers_total (c : LoadRecord) (id k : NodeId) : c.Prefers id k ∨ c.Prefers k id :=
  Bool.or_eq_true _ _ ▸ Ranked.precedes_total (id, c.scoreOf id) (k, c.scoreOf k)

theorem Prefers.antisymm (h : c.Prefers id k) (h' : c.Prefers k id) : id = k :=
  Ranked.fst_eq_of_precedes h h'

theorem prefers_of_lt (h : (c.scoreOf id).total.totalCompare (c.scoreOf k).total = .lt) :
    c.Prefers id k := by
  simp [Prefers, Ranked.precedes, h]

theorem IsFirst.unique (h : c.IsFirst p id) (h' : c.IsFirst p k) : id = k :=
  (h.prefers k h'.holds).antisymm (h'.prefers id h.holds)

end LoadRecord

/-! ## Who is ranked -/

namespace Directory

variable {d : Directory} {c : LoadRecord} {id : NodeId}

/-- The peers in some states, by their identifiers. -/
theorem Consistent.mem_filter_list_iff (hd : d.Consistent) (p : PeerState → Bool) :
    id ∈ ((d.list.filter fun e => p e.state).map Entry.peer).map Peer.nodeId ↔
      ∃ state, d.stateOf? id = some state ∧ p state = true := by
  simp only [List.mem_map, List.mem_filter, mem_list]
  constructor
  · rintro ⟨-, ⟨e, ⟨⟨k, he⟩, hp⟩, rfl⟩, rfl⟩
    rw [(hd.entry k e he).nodeId]
    exact ⟨e.state, by rw [stateOf?, he]; rfl, hp⟩
  · rintro ⟨state, hstate, hp⟩
    obtain ⟨e, he, rfl⟩ := Option.map_eq_some_iff.mp hstate
    exact ⟨e.peer, ⟨e, ⟨⟨id, he⟩, hp⟩, rfl⟩, (hd.entry id e he).nodeId⟩

theorem Consistent.mem_connected_iff (hd : d.Consistent) :
    id ∈ d.connected.map Peer.nodeId ↔ d.stateOf? id = some .connected := by
  refine (hd.mem_filter_list_iff fun state => state = .connected).trans ?_
  simp only [decide_eq_true_eq, exists_eq_right]

theorem Consistent.mem_known_iff (hd : d.Consistent) : id ∈ d.known.map Peer.nodeId ↔
    d.stateOf? id = some .connected ∨ d.stateOf? id = some .stale := by
  refine (hd.mem_filter_list_iff fun state => state ≠ .joining).trans ?_
  constructor
  · rintro ⟨_ | _ | _, hstate, hp⟩
    · simp at hp
    · exact Or.inl hstate
    · exact Or.inr hstate
  · rintro (hstate | hstate)
    · exact ⟨_, hstate, rfl⟩
    · exact ⟨_, hstate, rfl⟩

/-- The ranking puts the connected peers in order. -/
theorem perm_ranked : ((ranked d c).map Prod.fst).Perm
    ((d.connected.map Peer.nodeId).filter (· ≠ d.localId)) := by
  have hperm := (List.mergeSort_perm (((d.connected.map Peer.nodeId).filter (· ≠ d.localId)).map
    fun id => (id, c.scoreOf id)) Ranked.precedes).map Prod.fst
  rwa [List.map_map, Function.comp_def, List.map_id'] at hperm

theorem mem_ranked : id ∈ (ranked d c).map Prod.fst ↔
    id ∈ d.connected.map Peer.nodeId ∧ id ≠ d.localId := by
  simp only [perm_ranked.mem_iff, List.mem_filter, decide_eq_true_eq]

theorem Consistent.mem_ranked_iff (hd : d.Consistent) :
    id ∈ (ranked d c).map Prod.fst ↔ d.stateOf? id = some .connected := by
  rw [mem_ranked, hd.mem_connected_iff, and_iff_left_iff_imp]
  -- The node itself is never in its directory.
  rintro hstate rfl
  simp [stateOf?_eq_none_iff.mpr hd.localId_absent] at hstate

theorem snd_of_mem_ranked {e : NodeId × Score} (h : e ∈ ranked d c) : e.2 = c.scoreOf e.1 := by
  simp only [ranked, List.mem_mergeSort, List.mem_map] at h
  obtain ⟨k, -, rfl⟩ := h
  rfl

/-- The best of those that are ranked. -/
theorem mem_ranked_of_head? {score : Score} (h : (ranked d c).head? = some (id, score)) :
    id ∈ (ranked d c).map Prod.fst :=
  List.mem_map_of_mem (List.mem_of_mem_head? h)

theorem Consistent.stateOf?_of_select (hd : d.Consistent) (h : select d c = .peer id) :
    d.stateOf? id = some .connected := by
  unfold select at h
  split at h
  · rename_i id' score hhead
    obtain rfl := Selection.peer.inj h
    exact hd.mem_ranked_iff.mp (mem_ranked_of_head? hhead)
  · simp at h

theorem Consistent.stateOf?_of_route (hd : d.Consistent) {rule : RelayRule} {fromPeer : Bool}
    {now : WallTime} {address : String} (h : rule.route d c fromPeer now = .forward id address) :
    d.stateOf? id = some .connected := by
  unfold RelayRule.route at h
  split at h
  · simp at h
  split at h
  · simp at h
  rename_i id' score hhead
  split_ifs at h
  split at h
  · split_ifs at h
    obtain ⟨rfl, -⟩ := Route.forward.inj h
    exact hd.mem_ranked_iff.mp (mem_ranked_of_head? hhead)
  · simp at h

/-! ## The best of those that are ranked -/

variable {score : Score}

/-- A connected peer, but not the node itself. -/
def IsCandidate (d : Directory) (id : NodeId) : Prop :=
  id ∈ d.connected.map Peer.nodeId ∧ id ≠ d.localId

theorem pairwise_ranked : (ranked d c).Pairwise fun a b => Ranked.precedes a b = true :=
  List.pairwise_mergeSort (fun a b _ (h : Ranked.precedes a b = true) h' =>
    Ranked.precedes_trans h h') Ranked.precedes_total _

theorem isCandidate_of_mem_ranked {e : NodeId × Score} (h : e ∈ ranked d c) : d.IsCandidate e.1 :=
  mem_ranked.mp (List.mem_map_of_mem h)

theorem mem_ranked_of_isCandidate (h : d.IsCandidate id) : (id, c.scoreOf id) ∈ ranked d c := by
  obtain ⟨⟨k, s⟩, hmem, rfl⟩ := List.mem_map.mp (mem_ranked (c := c).mpr h)
  rwa [← snd_of_mem_ranked hmem]

/-- The first of the ranked peers with a property is the first of all candidates with it. -/
theorem isFirst_of_head?_filter {p : NodeId → Bool}
    (h : ((ranked d c).filter (p ·.1)).head? = some (id, score)) :
    c.IsFirst (fun k => d.IsCandidate k ∧ p k = true) id ∧ score = c.scoreOf id := by
  obtain ⟨rest, hlist⟩ := List.head?_eq_some_iff.mp h
  have hmem : (id, score) ∈ (ranked d c).filter (p ·.1) := hlist ▸ List.mem_cons_self
  obtain ⟨hranked, hp⟩ := List.mem_filter.mp hmem
  have hscore : score = c.scoreOf id := snd_of_mem_ranked hranked
  refine ⟨⟨⟨isCandidate_of_mem_ranked hranked, hp⟩, fun k hk => ?_⟩, hscore⟩
  have hother : (k, c.scoreOf k) ∈ (id, score) :: rest :=
    hlist ▸ List.mem_filter.mpr ⟨mem_ranked_of_isCandidate hk.1, hk.2⟩
  have hpairwise := (pairwise_ranked (d := d) (c := c)).filter (p ·.1)
  rw [hlist] at hpairwise
  rcases List.mem_cons.mp hother with heq | hrest
  · obtain ⟨rfl, -⟩ := Prod.mk.inj heq
    exact Ranked.precedes_self _
  · have hbefore := List.rel_of_pairwise_cons hpairwise hrest
    rwa [hscore] at hbefore

/-- If some candidate has a property, one of them is the first. -/
theorem exists_isFirst (p : NodeId → Bool) (h : d.IsCandidate id ∧ p id = true) :
    ∃ k, c.IsFirst (fun k => d.IsCandidate k ∧ p k = true) k := by
  have hmem : (id, c.scoreOf id) ∈ (ranked d c).filter (p ·.1) :=
    List.mem_filter.mpr ⟨mem_ranked_of_isCandidate h.1, h.2⟩
  cases hhead : ((ranked d c).filter (p ·.1)).head? with
  | none => exact absurd hmem (List.head?_eq_none_iff.mp hhead ▸ List.not_mem_nil)
  | some e => exact ⟨e.1, (isFirst_of_head?_filter hhead).1⟩

/-- The head of the ranking is the first of all candidates. -/
theorem head?_ranked_iff : (ranked d c).head? = some (id, score) ↔
    c.IsFirst d.IsCandidate id ∧ score = c.scoreOf id := by
  have hfirst : ∀ {k s}, (ranked d c).head? = some (k, s) →
      c.IsFirst d.IsCandidate k ∧ s = c.scoreOf k := fun {k s} hhead => by
    have hall : ((ranked d c).filter fun _ => true).head? = some (k, s) := by
      rwa [List.filter_eq_self.mpr fun _ _ => rfl]
    have hfiltered := isFirst_of_head?_filter (p := fun _ => true) hall
    simpa only [and_true] using hfiltered
  refine ⟨hfirst, ?_⟩
  rintro ⟨hid, rfl⟩
  cases hhead : (ranked d c).head? with
  | none =>
    have hmem := mem_ranked_of_isCandidate (c := c) hid.holds
    exact absurd hmem (List.head?_eq_none_iff.mp hhead ▸ List.not_mem_nil)
  | some e =>
    obtain ⟨he, hscore⟩ := hfirst hhead
    obtain rfl := he.unique hid
    exact congrArg some (Prod.ext rfl hscore)

end Directory

end PeerGateway
