import PeerGateway.Proofs.Gateway.Relaying

/-!
# Where requests go

The peer of last resort is the first of all connected peers, if it has told its HTTP address
(`Gateway.fallbackPeer_eq_some_iff`), and a request of a client goes to it if it beats the node or
there is no backend (`Gateway.relayTarget_eq_some_iff`). No other peer is asked. So a gateway
without a backend turns requests away while some peer could take them, if one that has told nothing
comes before all of those in the ranking (`Gateway.relayTarget_relayOnly`).
-/

namespace PeerGateway

open Http

/-! ## Peers that can take requests -/

namespace Node

/-- The HTTP address that a peer has told. An empty one tells nothing. -/
def toldAddress? (n : Node) (id : NodeId) : Option String :=
  ((n.load.snapshotOf? id).map Snapshot.address).filter fun a => !a.isEmpty

/-- A connected peer that has told its HTTP address. -/
def CanTake (n : Node) (id : NodeId) : Prop :=
  n.directory.IsCandidate id ∧ (n.toldAddress? id).isSome = true

/-- A connected peer that has not told its HTTP address. -/
def IsSilent (n : Node) (id : NodeId) : Prop :=
  n.directory.IsCandidate id ∧ n.toldAddress? id = none

variable {n : Node} {id : NodeId} {a : String}

theorem toldAddress?_eq_some_iff : n.toldAddress? id = some a ↔
    ∃ m, n.load.snapshotOf? id = some m ∧ m.address = a ∧ a.isEmpty = false := by
  simp only [toldAddress?, Option.filter_eq_some_iff, Option.map_eq_some_iff, Bool.not_eq_true']
  constructor
  · rintro ⟨⟨m, hm, rfl⟩, ha⟩
    exact ⟨m, hm, rfl, ha⟩
  · rintro ⟨m, hm, rfl, ha⟩
    exact ⟨⟨m, hm, rfl⟩, ha⟩

theorem canTake_or_isSilent (h : n.directory.IsCandidate id) : n.CanTake id ∨ n.IsSilent id := by
  cases hid : n.toldAddress? id with
  | none => exact Or.inr ⟨h, hid⟩
  | some a => exact Or.inl ⟨h, by rw [hid]; rfl⟩

theorem CanTake.not_isSilent (h : n.CanTake id) : ¬n.IsSilent id := fun hsilent => by
  simpa [hsilent.2] using h.2

/-- The first of all peers, if it has told an address, is the first of those that have, and comes
before all that have not. -/
theorem isFirst_isCandidate_iff (h : n.toldAddress? id = some a) :
    n.load.IsFirst n.directory.IsCandidate id ↔
      n.load.IsFirst n.CanTake id ∧ ∀ k, n.IsSilent k → n.load.Prefers id k := by
  constructor
  · intro hfirst
    exact ⟨⟨⟨hfirst.holds, by rw [h]; rfl⟩, fun k hk => hfirst.prefers k hk.1⟩,
      fun k hk => hfirst.prefers k hk.1⟩
  · rintro ⟨hfirst, hsilent⟩
    refine ⟨hfirst.holds.1, fun k hk => ?_⟩
    rcases canTake_or_isSilent hk with htakes | hnone
    · exact hfirst.prefers k htakes
    · exact hsilent k hnone

/-- If some peer can take requests, one of those is the first. -/
theorem exists_isFirst_canTake (h : n.CanTake id) : ∃ k, n.load.IsFirst n.CanTake k :=
  Directory.exists_isFirst (fun k => (n.toldAddress? k).isSome) h

end Node

/-! ## Where requests go -/

/-- A peer scores better than this node by more than the threshold. -/
def RelayRule.Beats (rule : RelayRule) (n : Node) (now : WallTime) (id : NodeId) : Prop :=
  ((n.load.ownScore now).total - (n.load.scoreOf id).total).le rule.threshold = false

namespace Gateway

variable {g : Gateway} {n : Node} {r : Request} {id : NodeId} {a : String} {now : Moment}

/-- The peer of last resort is the first of all peers, if that one has told its address. -/
theorem fallbackPeer_eq_some_iff : fallbackPeer n = some (id, a) ↔
    n.load.IsFirst n.directory.IsCandidate id ∧ n.toldAddress? id = some a := by
  rw [Node.toldAddress?_eq_some_iff]
  unfold fallbackPeer select
  cases hhead : (ranked n.directory n.load).head? with
  | none =>
    refine iff_of_false (by simp) ?_
    rintro ⟨hfirst, -⟩
    simp [Directory.head?_ranked_iff.mpr ⟨hfirst, rfl⟩] at hhead
  | some best =>
    obtain ⟨k, score⟩ := best
    obtain ⟨hk, -⟩ := Directory.head?_ranked_iff.mp hhead
    have hsame : n.load.IsFirst n.directory.IsCandidate id ↔ id = k :=
      ⟨fun hid => hid.unique hk, fun hid => hid ▸ hk⟩
    rw [hsame]
    cases hm : n.load.snapshotOf? k with
    | none =>
      refine iff_of_false (by simp [hm]) ?_
      rintro ⟨rfl, m, hm', -⟩
      simp [hm] at hm'
    | some m =>
      cases hempty : m.address.isEmpty with
      | true =>
        refine iff_of_false (by simp [hm, hempty]) ?_
        rintro ⟨rfl, m', hm', rfl, ha⟩
        obtain rfl := Option.some.inj (hm.symm.trans hm')
        simp [hempty] at ha
      | false =>
        simp only [hm, hempty, Bool.false_eq_true, if_false, Option.some.injEq, Prod.mk.injEq]
        constructor
        · rintro ⟨rfl, rfl⟩
          exact ⟨rfl, m, hm, rfl, hempty⟩
        · rintro ⟨rfl, m', hm', rfl, -⟩
          obtain rfl := Option.some.inj (hm.symm.trans hm')
          exact ⟨rfl, rfl⟩

/-- A request of a client is forwarded to the peer of last resort, if that one beats this node. -/
theorem route_eq_forward_iff {rule : RelayRule} {now : WallTime} :
    rule.route n.directory n.load false now = .forward id a ↔
      fallbackPeer n = some (id, a) ∧ rule.Beats n now id := by
  unfold RelayRule.route fallbackPeer select RelayRule.Beats
  simp only [Bool.false_eq_true, if_false]
  cases hhead : (ranked n.directory n.load).head? with
  | none => simp
  | some best =>
    obtain ⟨k, score⟩ := best
    obtain ⟨-, rfl⟩ := Directory.head?_ranked_iff.mp hhead
    dsimp only
    cases hm : n.load.snapshotOf? k with
    | none => simp
    | some m =>
      dsimp only
      by_cases hle :
          ((n.load.ownScore now).total - (n.load.scoreOf k).total).le rule.threshold = true
      · rw [if_pos hle]
        refine iff_of_false (by simp) ?_
        rintro ⟨hfallback, hbeats⟩
        split_ifs at hfallback
        obtain ⟨rfl, -⟩ := Prod.mk.inj (Option.some.inj hfallback)
        simp [hle] at hbeats
      · rw [if_neg hle]
        split_ifs
        · simp
        · simp only [Route.forward.injEq, Option.some.injEq, Prod.mk.injEq, iff_self_and]
          rintro ⟨rfl, -⟩
          exact Bool.not_eq_true _ ▸ hle

/-- A request of a client goes to the peer of last resort, if that one beats this node or there is
no backend. -/
theorem relayTarget_eq_some_iff (hclient : r.isFromPeer = false) :
    g.relayTarget n r now = some (id, a) ↔
      fallbackPeer n = some (id, a) ∧ (g.rule.Beats n now.wall id ∨ g.hasBackend = false) := by
  unfold relayTarget
  rw [hclient]
  cases hroute : g.rule.route n.directory n.load false now.wall with
  | forward k b =>
    obtain ⟨hfallback, hbeats⟩ := route_eq_forward_iff.mp hroute
    simp only [hfallback, Option.some.injEq, Prod.mk.injEq, iff_self_and]
    rintro ⟨rfl, -⟩
    exact Or.inl hbeats
  | here =>
    have hnot : ∀ {k b}, fallbackPeer n = some (k, b) → ¬g.rule.Beats n now.wall k :=
      fun hfallback hbeats => by
        simp [route_eq_forward_iff.mpr ⟨hfallback, hbeats⟩] at hroute
    cases hbackend : g.hasBackend with
    | true =>
      refine iff_of_false (by simp) ?_
      rintro ⟨hfallback, hbeats | hnone⟩
      · exact hnot hfallback hbeats
      · simp at hnone
    | false => simp

/-- What stays on a gateway without a backend is turned away. -/
theorem plan_eq_noBackend_iff (hbackend : g.hasBackend = false) :
    g.plan n r now = .settle (.answer noBackend) ↔ g.relayTarget n r now = none := by
  unfold plan
  cases g.relayTarget n r now with
  | none => simp [keep, hbackend]
  | some target =>
    refine iff_of_false ?_ (by simp)
    dsimp only
    split_ifs
    · intro h
      have hstatus := congrArg Response.status (Settlement.answer.inj (Plan.settle.inj h))
      simp [bodyTooLarge, noBackend, Response.ofText] at hstatus
    · simp

/-- A gateway without a backend relays a request of a client to the first of the peers that have
told an address, unless a peer that has told none comes before it in the ranking: then it turns the
request away. If no peer has told an empty address and all that have told one score below full
load, it turns away a request only if there is nobody to relay it to. -/
theorem relayTarget_relayOnly (hbackend : g.hasBackend = false) (hclient : r.isFromPeer = false) :
    (∀ id a, g.relayTarget n r now = some (id, a) ↔ n.load.IsFirst n.CanTake id ∧
      n.toldAddress? id = some a ∧ ∀ k, n.IsSilent k → n.load.Prefers id k) ∧
    (g.plan n r now = .settle (.answer noBackend) ↔
      ∀ id, n.CanTake id → ∃ k, n.IsSilent k ∧ n.load.Prefers k id) ∧
    ((∀ k, n.IsSilent k → n.load.snapshotOf? k = none) →
      (∀ id, n.CanTake id → (n.load.scoreOf id).total.totalCompare 1 = .lt) →
      (g.plan n r now = .settle (.answer noBackend) ↔ ∀ id, ¬n.CanTake id)) := by
  have htarget : ∀ id a, g.relayTarget n r now = some (id, a) ↔ n.load.IsFirst n.CanTake id ∧
      n.toldAddress? id = some a ∧ ∀ k, n.IsSilent k → n.load.Prefers id k := fun id a => by
    rw [relayTarget_eq_some_iff hclient, fallbackPeer_eq_some_iff]
    simp only [hbackend, or_true, and_true]
    constructor
    · rintro ⟨hfirst, htold⟩
      obtain ⟨htakes, hsilent⟩ := (Node.isFirst_isCandidate_iff htold).mp hfirst
      exact ⟨htakes, htold, hsilent⟩
    · rintro ⟨htakes, htold, hsilent⟩
      exact ⟨(Node.isFirst_isCandidate_iff htold).mpr ⟨htakes, hsilent⟩, htold⟩
  have hrefused : g.plan n r now = .settle (.answer noBackend) ↔
      ∀ id, n.CanTake id → ∃ k, n.IsSilent k ∧ n.load.Prefers k id := by
    rw [plan_eq_noBackend_iff hbackend, Option.eq_none_iff_forall_ne_some]
    constructor
    · intro hnone id hid
      -- A silent peer comes before the first of those that can take requests.
      obtain ⟨j, hj⟩ := Node.exists_isFirst_canTake hid
      obtain ⟨a, htold⟩ := Option.isSome_iff_exists.mp hj.holds.2
      obtain ⟨k, hk, hbehind⟩ : ∃ k, n.IsSilent k ∧ ¬n.load.Prefers j k := by
        by_contra hall
        push Not at hall
        exact hnone (j, a) ((htarget j a).mpr ⟨hj, htold, hall⟩)
      have hbefore := (n.load.prefers_total j k).resolve_left hbehind
      exact ⟨k, hk, hbefore.trans (hj.prefers id hid)⟩
    · rintro hsilent ⟨id, a⟩ hsome
      obtain ⟨hfirst, -, hlast⟩ := (htarget id a).mp hsome
      obtain ⟨k, hk, hbefore⟩ := hsilent id hfirst.holds
      obtain rfl := hbefore.antisymm (hlast k hk)
      exact hfirst.holds.not_isSilent hk
  refine ⟨htarget, hrefused, fun hsilent hlight => hrefused.trans ⟨fun h id hid => ?_,
    fun h id hid => absurd hid (h id)⟩⟩
  obtain ⟨k, hk, hbefore⟩ := h id hid
  have hfull : n.load.scoreOf k = .unknown := by
    rw [LoadRecord.scoreOf, hsilent k hk]
  have hlt : (n.load.scoreOf id).total.totalCompare (n.load.scoreOf k).total = .lt := by
    rw [hfull]
    exact hlight id hid
  obtain rfl := hbefore.antisymm (LoadRecord.prefers_of_lt hlt)
  exact hid.not_isSilent hk

/-- A node that knows two peers: `a` has told nothing, and `p` how busy its processors are. -/
def besideBusy (cpu : Binary64) : Node where
  directory :=
    (((Directory.mk ⟨"n"⟩ "n:7400" 8 ∅).takeIn ⟨⟨"a"⟩, "a:7400", [], false⟩ false 0).2.takeIn
      ⟨⟨"p"⟩, "p:7400", [], false⟩ false 0).2
  load := LoadRecord.update
    { nodeId := ⟨"n"⟩, address := "n:8080", window := 1, weights := ⟨1, 0, 0, 0⟩, host := ⟨0, 0⟩ }
    ⟨⟨"p"⟩, "p:8080", cpu, 0, 0, 0, 0, 0, 0⟩ 0 0
  policy := ⟨1, 1, false, 0⟩

theorem isCandidate_besideBusy {cpu : Binary64} {id : NodeId} :
    (besideBusy cpu).directory.IsCandidate id ↔ id = ⟨"a"⟩ ∨ id = ⟨"p"⟩ := by
  have hconnected : (besideBusy cpu).directory.connected.map Peer.nodeId = [⟨"a"⟩, ⟨"p"⟩] := by
    show (besideBusy 0).directory.connected.map Peer.nodeId = _
    decide
  rw [Directory.IsCandidate, hconnected, List.mem_cons, List.mem_singleton, and_iff_left_iff_imp]
  rintro (rfl | rfl)
  · show NodeId.mk "a" ≠ ⟨"n"⟩
    decide
  · show NodeId.mk "p" ≠ ⟨"n"⟩
    decide

/-- A gateway without a backend. -/
def relayOnly : Gateway := { rule := ⟨0⟩, started := 0 }

/-- A request of a client for a path. -/
def clientRequest : Request := { target := { path := "/x" } }

theorem relayTarget_relayOnly_besideBusy :
    relayOnly.hasBackend = false ∧ clientRequest.isFromPeer = false ∧
    relayOnly.plan (besideBusy 100) clientRequest ⟨0, 0⟩ = .settle (.answer noBackend) ∧
    relayOnly.relayTarget (besideBusy 99) clientRequest ⟨0, 0⟩ = some (⟨"p"⟩, "p:8080") := by
  have hbackend : relayOnly.hasBackend = false := by decide
  have hclient : clientRequest.isFromPeer = false := by decide
  refine ⟨hbackend, hclient, ?_, ?_⟩
  · refine (relayTarget_relayOnly hbackend hclient).2.1.mpr fun id hid => ?_
    refine ⟨⟨"a"⟩, ⟨isCandidate_besideBusy.mpr (Or.inl rfl), by decide +kernel⟩, ?_⟩
    rcases isCandidate_besideBusy.mp hid.1 with rfl | rfl
    · exact absurd hid.2 (by decide +kernel)
    · decide +kernel
  · refine ((relayTarget_relayOnly hbackend hclient).1 _ _).mpr ⟨⟨⟨?_, ?_⟩, ?_⟩, ?_, ?_⟩
    · exact isCandidate_besideBusy.mpr (Or.inr rfl)
    · decide +kernel
    · intro k hk
      rcases isCandidate_besideBusy.mp hk.1 with rfl | rfl
      · exact absurd hk.2 (by decide +kernel)
      · exact Ranked.precedes_self _
    · decide +kernel
    · intro k hk
      rcases isCandidate_besideBusy.mp hk.1 with rfl | rfl
      · decide +kernel
      · exact absurd hk.2 (by decide +kernel)

/-- A gateway without a backend may turn a request away although a connected peer has told its
address. -/
theorem not_relayed_if_canTake :
    ¬ ∀ (g : Gateway) (n : Node) (r : Request) (now : Moment), g.hasBackend = false →
      r.isFromPeer = false → (∃ id, n.CanTake id) →
        ∃ id a, g.relayTarget n r now = some (id, a) := by
  intro h
  have hcan : (besideBusy 100).CanTake ⟨"p"⟩ :=
    ⟨isCandidate_besideBusy.mpr (Or.inr rfl), by decide +kernel⟩
  obtain ⟨id, a, htarget⟩ :=
    h relayOnly (besideBusy 100) clientRequest ⟨0, 0⟩ (by decide) (by decide) ⟨_, hcan⟩
  rw [relayTarget_eq_some_iff (by decide), fallbackPeer_eq_some_iff] at htarget
  obtain ⟨⟨hfirst, htold⟩, -⟩ := htarget
  rcases isCandidate_besideBusy.mp hfirst.holds with rfl | rfl
  · have hnone : (besideBusy 100).toldAddress? ⟨"a"⟩ = none := by decide +kernel
    simp [hnone] at htold
  · have hbefore := hfirst.prefers ⟨"a"⟩ (isCandidate_besideBusy.mpr (Or.inl rfl))
    exact absurd hbefore (by decide +kernel)

end Gateway

end PeerGateway
