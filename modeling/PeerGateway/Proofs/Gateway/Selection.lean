import PeerGateway.Proofs.Gateway.Targets
import PeerGateway.Proofs.Schema.RoundTrip
import PeerGateway.Proofs.Text.Bytes

/-!
# What a gateway tells of its choice

A gateway tells which peer is the best and where a request would run. The best peer that it tells is
the one that requests are relayed to, if they are (`Gateway.select_of_fallbackPeer`). The route that
it tells is that of a rule which does not know of the backend, so a gateway without a backend that
relays all requests tells that they run here. `Gateway.route_told` says when the route is the one
that a request takes.
-/

namespace PeerGateway

open Http

/-- What an answer tells of a selection, if it is one that does. -/
def selectionTold? (answer : Response) : Option SelectionReport.schema.Value :=
  (SelectionReport.schema.parse answer.body.toList).toOption

/-- The body of a JSON answer is its text. -/
theorem Http.Response.toList_body_ofJson (text : Bytes) : (ofJson text).body.toList = text :=
  toList_mk_toArray text

/-- A route names the peer that a request is relayed to. A request that is not relayed takes the
route `local`. -/
def RouteHolds (route : String) : Plan → Prop
  | .relay relay => route = relay.peer.text ∧ route ≠ "local"
  | .settle _ => route = "local"

namespace Gateway

variable {g : Gateway} {n : Node} {r : Request} {id : NodeId} {a : String} {now : Moment}

/-! ## Requests that are entered -/

section Entered

variable {token : String} {q : Request} {began : WallTime}

/-- The requests under way do not count in the choice of a peer. -/
theorem selectionReport_begun :
    g.selectionReport (begun n token q began) now = g.selectionReport n now :=
  rfl

theorem plan_begun : g.plan (begun n token q began) r now = g.plan n r now :=
  rfl

end Entered

/-! ## What is told -/

theorem selectionTold?_ask :
    selectionTold? (g.ask n .select "GET" now).2 = some (g.selectionReport n now) := by
  have hread : SelectionReport.schema.parse (SelectionReport.schema.bytes
      (g.selectionReport n now)) = .ok (g.selectionReport n now) :=
    Schema.parse_bytes (by simp) (by simp [Presence.values])
  rw [selectionTold?, ask, Response.toList_body_ofJson, hread]
  rfl

theorem select_of_fallbackPeer (h : fallbackPeer n = some (id, a)) :
    select n.directory n.load = .peer id := by
  unfold fallbackPeer at h
  split at h
  · simp at h
  · rename_i k hselect
    split at h
    · split_ifs at h
      obtain ⟨rfl, -⟩ := Prod.mk.inj (Option.some.inj h)
      exact hselect
    · simp at h

/-- The selection that is told is the peer of last resort, if there is one. -/
theorem fst_selectionReport (h : fallbackPeer n = some (id, a)) :
    (g.selectionReport n now).1 = ("peer", some id.text, ()) := by
  simp only [selectionReport, select_of_fallbackPeer h]

/-- The route that is told is the peer of last resort, if that one beats this node. -/
theorem route_of_beats (h : fallbackPeer n = some (id, a)) (hbeats : g.rule.Beats n now.wall id) :
    (g.selectionReport n now).2.1 = id.text := by
  simp only [selectionReport, route_eq_forward_iff.mpr ⟨h, hbeats⟩]

theorem route_of_not_beats
    (h : ∀ id a, fallbackPeer n = some (id, a) → ¬g.rule.Beats n now.wall id) :
    (g.selectionReport n now).2.1 = "local" := by
  unfold selectionReport
  cases hroute : g.rule.route n.directory n.load false now.wall with
  | here => rfl
  | forward id a =>
    obtain ⟨hfallback, hbeats⟩ := route_eq_forward_iff.mp hroute
    exact absurd hbeats (h id a hfallback)

/-- A request of a client is relayed to the peer of last resort, if that one beats this node or
there is no backend, and if the body is not too large. -/
theorem plan_eq_relay_iff (hclient : r.isFromPeer = false) {relay : Relay} :
    g.plan n r now = .relay relay ↔ fallbackPeer n = some (relay.peer, relay.address) ∧
      (g.rule.Beats n now.wall relay.peer ∨ g.hasBackend = false) ∧
      r.body.size ≤ maxRelayedBody ∧ relay.request = r := by
  rw [← and_assoc, ← relayTarget_eq_some_iff hclient]
  unfold plan
  cases g.relayTarget n r now with
  | none => simp
  | some target =>
    obtain ⟨id, a⟩ := target
    obtain ⟨peer, address, request⟩ := relay
    dsimp only
    split_ifs with hsize
    · exact iff_of_false (by simp) fun h => absurd h.2.1 (Nat.not_le_of_lt hsize)
    · simp only [Plan.relay.injEq, Relay.mk.injEq, Option.some.injEq, Prod.mk.injEq,
        Nat.le_of_not_lt hsize, true_and, and_assoc, eq_comm]

/-- What does not stand for a relay leaves the request here. -/
theorem routeHolds_of_not_relay {route : String} (h : ∀ relay, g.plan n r now ≠ .relay relay) :
    RouteHolds route (g.plan n r now) ↔ route = "local" := by
  cases hplan : g.plan n r now with
  | settle => rfl
  | relay relay => exact absurd hplan (h relay)

/-- The route of a gateway whose first peer has told an address. -/
theorem routeHolds_iff (hclient : r.isFromPeer = false) (h : fallbackPeer n = some (id, a)) :
    RouteHolds (g.selectionReport n now).2.1 (g.plan n r now) ↔
      (g.rule.Beats n now.wall id → (id.text = "local" ↔ maxRelayedBody < r.body.size)) ∧
      (¬g.rule.Beats n now.wall id → g.hasBackend = true ∨ maxRelayedBody < r.body.size) := by
  have hrelay : ∀ relay, g.plan n r now = .relay relay ↔ (id, a) = (relay.peer, relay.address) ∧
      (g.rule.Beats n now.wall relay.peer ∨ g.hasBackend = false) ∧
        r.body.size ≤ maxRelayedBody ∧ relay.request = r := fun relay => by
    rw [plan_eq_relay_iff hclient, h, Option.some.injEq]
  by_cases hgoes : (g.rule.Beats n now.wall id ∨ g.hasBackend = false) ∧
      r.body.size ≤ maxRelayedBody
  · rw [(hrelay ⟨id, a, r⟩).mpr ⟨rfl, hgoes.1, hgoes.2, rfl⟩]
    have hsmall : ¬maxRelayedBody < r.body.size := Nat.not_lt_of_le hgoes.2
    by_cases hbeats : g.rule.Beats n now.wall id
    · simp [RouteHolds, route_of_beats h hbeats, hbeats, hsmall]
    · have hnone : g.hasBackend = false := hgoes.1.resolve_left hbeats
      have hroute : (g.selectionReport n now).2.1 = "local" := route_of_not_beats fun k b hk => by
        obtain ⟨rfl, -⟩ := Prod.mk.inj (Option.some.inj (h.symm.trans hk))
        exact hbeats
      simp [RouteHolds, hroute, hbeats, hnone, hsmall]
  · have hstays : ∀ relay, g.plan n r now ≠ .relay relay := fun relay hplan => by
      obtain ⟨htarget, hwhy, hsize, -⟩ := (hrelay relay).mp hplan
      obtain ⟨rfl, -⟩ := Prod.mk.inj htarget
      exact hgoes ⟨hwhy, hsize⟩
    rw [routeHolds_of_not_relay hstays]
    by_cases hbeats : g.rule.Beats n now.wall id
    · have hlarge : maxRelayedBody < r.body.size :=
        Nat.lt_of_not_le fun hsize => hgoes ⟨Or.inl hbeats, hsize⟩
      simp [route_of_beats h hbeats, hbeats, hlarge]
    · have hroute : (g.selectionReport n now).2.1 = "local" := route_of_not_beats fun k b hk => by
        obtain ⟨rfl, -⟩ := Prod.mk.inj (Option.some.inj (h.symm.trans hk))
        exact hbeats
      refine iff_of_true hroute ⟨fun h => absurd h hbeats, fun _ => ?_⟩
      by_contra hneither
      rw [not_or, Bool.not_eq_true, Nat.not_lt] at hneither
      exact hgoes ⟨Or.inr hneither.1, hneither.2⟩

/-- The best peer that a gateway tells is the one that it relays a request of a client to and the
one that it tells as its route, if it does. The route is the one that the request takes unless the
first of all peers has told an address and this peer does not beat the node, which has no backend,
or its name is `local`. -/
theorem route_told (hclient : r.isFromPeer = false) (asking : Request) (token token' : String)
    (began began' : WallTime) :
    ∃ selection route,
      selectionTold? (g.ask (begun n token asking began) .select "GET" now).2 =
        some (selection, route, ()) ∧
      (RouteHolds route (g.plan (begun n token' r began') r now) ↔
        ∀ id a, n.load.IsFirst n.directory.IsCandidate id → n.toldAddress? id = some a →
          (g.rule.Beats n now.wall id → (id.text = "local" ↔ maxRelayedBody < r.body.size)) ∧
          (¬g.rule.Beats n now.wall id → g.hasBackend = true ∨ maxRelayedBody < r.body.size)) ∧
      (∀ relay, g.plan (begun n token' r began') r now = .relay relay →
        selection = ("peer", some relay.peer.text, ())) ∧
      (route ≠ "local" → selection = ("peer", some route, ())) := by
  simp only [plan_begun, selectionTold?_ask, selectionReport_begun]
  refine ⟨(g.selectionReport n now).1, (g.selectionReport n now).2.1, rfl, ?_,
    fun relay hrelay => ?_, fun hroute => ?_⟩
  · cases hfallback : fallbackPeer n with
    | none =>
      have hstays : ∀ relay, g.plan n r now ≠ .relay relay := fun relay hplan => by
        simpa [hfallback] using (plan_eq_relay_iff hclient).mp hplan
      rw [routeHolds_of_not_relay hstays]
      refine iff_of_true (route_of_not_beats fun id a h => by simp [hfallback] at h) ?_
      intro id a hfirst htold
      simp [fallbackPeer_eq_some_iff.mpr ⟨hfirst, htold⟩] at hfallback
    | some target =>
      obtain ⟨id, a⟩ := target
      rw [routeHolds_iff hclient hfallback]
      obtain ⟨hid, htold⟩ := fallbackPeer_eq_some_iff.mp hfallback
      refine ⟨fun h k b hk _ => ?_, fun h => h id a hid htold⟩
      obtain rfl := hid.unique hk
      exact h
  · exact fst_selectionReport ((plan_eq_relay_iff hclient).mp hrelay).1
  · -- A route that is told is the peer of last resort, which beats the node.
    by_contra hne
    refine hroute (route_of_not_beats fun id a hfallback hbeats => hne ?_)
    rw [fst_selectionReport hfallback, route_of_beats hfallback hbeats]

/-- The busy peer is the best one, has told its address and does not beat the node. -/
theorem best_besideBusy :
    fallbackPeer (besideBusy 99) = some (⟨"p"⟩, "p:8080") ∧
      ¬relayOnly.rule.Beats (besideBusy 99) 0 ⟨"p"⟩ := by
  refine ⟨fallbackPeer_eq_some_iff.mpr ⟨⟨isCandidate_besideBusy.mpr (Or.inr rfl), fun k hk => ?_⟩,
    by decide +kernel⟩, ?_⟩
  · rcases isCandidate_besideBusy.mp hk with rfl | rfl <;> decide +kernel
  · show ¬Binary64.le _ _ = false
    decide +kernel

/-- The route is told rightly where there is a backend, and wrongly where there is none. -/
theorem route_told_besideBusy :
    clientRequest.isFromPeer = false ∧
    (∃ selection route,
      selectionTold? ({ relayOnly with backend := .application }.ask
        (begun (besideBusy 99) "1" clientRequest 0) .select "GET" ⟨0, 0⟩).2 =
          some (selection, route, ()) ∧
      RouteHolds route ({ relayOnly with backend := .application }.plan
        (begun (besideBusy 99) "2" clientRequest 0) clientRequest ⟨0, 0⟩)) ∧
    ∃ selection route,
      selectionTold? (relayOnly.ask (begun (besideBusy 99) "1" clientRequest 0) .select "GET"
        ⟨0, 0⟩).2 = some (selection, route, ()) ∧
      ¬RouteHolds route (relayOnly.plan (begun (besideBusy 99) "2" clientRequest 0) clientRequest
        ⟨0, 0⟩) := by
  have hclient : clientRequest.isFromPeer = false := by decide
  obtain ⟨hbest, hweak⟩ := best_besideBusy
  obtain ⟨hfirst, htold⟩ := fallbackPeer_eq_some_iff.mp hbest
  refine ⟨hclient, ?_, ?_⟩
  · obtain ⟨selection, route, hanswer, hroute, -⟩ :=
      @route_told { relayOnly with backend := .application } (besideBusy 99) _ ⟨0, 0⟩ hclient
        clientRequest "1" "2" 0 0
    refine ⟨selection, route, hanswer, hroute.mpr fun id a hid ha => ?_⟩
    obtain rfl := hid.unique hfirst
    exact ⟨fun hbeats => absurd hbeats hweak, fun _ => Or.inl (by decide)⟩
  · obtain ⟨selection, route, hanswer, hroute, -⟩ :=
      @route_told relayOnly (besideBusy 99) _ ⟨0, 0⟩ hclient clientRequest "1" "2" 0 0
    refine ⟨selection, route, hanswer, fun hholds => ?_⟩
    rcases (hroute.mp hholds _ _ hfirst htold).2 hweak with hbackend | hlarge
    · exact absurd hbackend (by decide)
    · exact absurd hlarge (by decide)

/-- A gateway may tell that requests run here and relay them. -/
theorem not_route_told :
    ¬ ∀ (g : Gateway) (n : Node) (r : Request) (now : Moment), r.isFromPeer = false →
      ∀ selection route,
        selectionTold? (g.ask n .select "GET" now).2 = some (selection, route, ()) →
          RouteHolds route (g.plan n r now) := by
  intro h
  have hclient : clientRequest.isFromPeer = false := by decide
  obtain ⟨hbest, hweak⟩ := best_besideBusy
  have hholds := h relayOnly (besideBusy 99) clientRequest ⟨0, 0⟩ hclient _ _ selectionTold?_ask
  rcases ((routeHolds_iff hclient hbest).mp hholds).2 hweak with hbackend | hlarge
  · exact absurd hbackend (by decide)
  · exact absurd hlarge (by decide)

end Gateway

end PeerGateway
