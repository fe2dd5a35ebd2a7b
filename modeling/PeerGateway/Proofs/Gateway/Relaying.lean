import PeerGateway.Proofs.Routing.Ranking
import PeerGateway.Gateway.Fleet

/-!
# What a gateway does with a request

A request that a peer relayed is not relayed again (`Gateway.relayTarget_of_isFromPeer`), and a
request that is relayed says that it was if the node's identifier can be the value of a header field
(`Relay.isFromPeer_prepared`). A gateway whose backend is a server is one with an application in the
same process that calls the server (`Gateway.handle_fronting`).
-/

namespace PeerGateway

open Http

namespace Http

namespace Headers

variable {h : Headers} {name value : String}

theorem has_append (h k : Headers) : (h ++ k).has name = (h.has name || k.has name) :=
  List.any_append

theorem has_without {names : List String} :
    (h.without names).has name = (h.has name && !names.contains name) := by
  unfold has without
  rw [List.any_filter]
  induction h with
  | nil => rfl
  | cons f h ih =>
    simp only [List.any_cons, ih]
    by_cases hname : f.1 = name <;> simp [hname]

@[simp] theorem has_set_self : (h.set name value).has name = true := by
  simp [set, add, has]

end Headers

/-- Fields that are added leave the mark of a peer. -/
theorem Request.isFromPeer_append {r : Request} {added : Headers} (h : r.isFromPeer = true) :
    ({ r with headers := r.headers ++ added } : Request).isFromPeer = true := by
  unfold isFromPeer at h ⊢
  rw [Headers.has_append, h, Bool.true_or]

end Http

/-- What is sent has the fields that it was given. -/
theorem Outgoing.has_of_prepare? {o : Outgoing} {url : Url} {request : Request} {name : String}
    (h : o.prepare? = some (url, request)) (hname : name ≠ "accept") :
    request.headers.has name = o.headers.has name := by
  unfold prepare? at h
  split at h
  · simp at h
  · split_ifs at h with hsendable haccept
    · obtain ⟨-, rfl⟩ := Prod.mk.inj (Option.some.inj h)
      rfl
    · obtain ⟨-, rfl⟩ := Prod.mk.inj (Option.some.inj h)
      simp [Headers.add, Headers.has, Ne.symm hname]

/-- A request that is not sent failed, or was given up, before anything was delivered. -/
theorem Outlets.deliver_cases {σ : Type} (s : Outlets σ) (o : Outgoing) (state : σ) :
    s.deliver o state = (.broken, state) ∨ s.deliver o state = (.timedOut, state) ∨
    ∃ url request, o.prepare? = some (url, request) ∧
      s.deliver o state = s.send url request o.timeout state := by
  unfold deliver
  cases hprepared : o.prepare? with
  | none => exact Or.inl rfl
  | some prepared =>
    obtain ⟨url, request⟩ := prepared
    dsimp only
    split_ifs
    · exact Or.inr (Or.inl rfl)
    · exact Or.inr (Or.inr ⟨url, request, rfl, rfl⟩)

theorem Outlets.deliver_of_prepare? {σ : Type} (s : Outlets σ) {o : Outgoing} {url : Url}
    {request : Request} (h : o.prepare? = some (url, request)) (htimeout : o.timeout ≠ 0)
    (state : σ) : s.deliver o state = s.send url request o.timeout state := by
  simp only [deliver, h, if_neg htimeout]

namespace Relay

variable {relay : Relay} {sender : NodeId} {timeout : Span} {url : Url} {request : Request}

theorem isFromPeer_prepared (h : (relay.outgoing sender timeout).prepare? = some (url, request)) :
    request.isFromPeer = (Headers.isValue sender.text || relay.request.isFromPeer) := by
  rw [Request.isFromPeer, Outgoing.has_of_prepare? h (by decide)]
  unfold outgoing
  dsimp only
  split_ifs with hvalue
  · simp [hvalue]
  · have hhop : hopFields.contains fromPeerField = false := by decide
    rw [Headers.has_without, hhop]
    simp [hvalue, Request.isFromPeer]

end Relay

namespace Gateway

variable {g : Gateway} {n : Node} {r : Request} {now : Moment}

theorem relayTarget_of_isFromPeer (h : r.isFromPeer = true) : g.relayTarget n r now = none := by
  simp [relayTarget, RelayRule.route, h]

theorem plan_of_isFromPeer (h : r.isFromPeer = true) : g.plan n r now = .settle (g.keep r) := by
  simp only [plan, relayTarget_of_isFromPeer h]

/-- A gateway without a backend relays to the best peer, whatever the scores are. -/
theorem relayTarget_of_best {id : NodeId} {score : Score} {m : Snapshot}
    (hbackend : g.hasBackend = false) (hclient : r.isFromPeer = false)
    (hbest : (ranked n.directory n.load).head? = some (id, score))
    (hsnapshot : n.load.snapshotOf? id = some m) (haddress : m.address.isEmpty = false) :
    g.relayTarget n r now = some (id, m.address) := by
  have hfallback : fallbackPeer n = some (id, m.address) := by
    simp [fallbackPeer, select, hbest, hsnapshot, haddress]
  unfold relayTarget
  have hroute : g.rule.route n.directory n.load r.isFromPeer now.wall = .here ∨
      g.rule.route n.directory n.load r.isFromPeer now.wall = .forward id m.address := by
    simp only [RelayRule.route, hclient, hbest, hsnapshot, haddress, Bool.false_eq_true, if_false]
    split_ifs
    · exact Or.inl rfl
    · exact Or.inr rfl
  rcases hroute with hroute | hroute
  · rw [hroute]
    simp [hbackend, hclient, hfallback]
  · rw [hroute]

/-- A request is left to the backend, refused for its size, or relayed as it is. -/
theorem plan_cases : g.plan n r now = .settle (g.keep r) ∨
    g.plan n r now = .settle (.answer bodyTooLarge) ∨
    ∃ peer address, g.plan n r now = .relay ⟨peer, address, r⟩ := by
  unfold plan
  split
  · exact Or.inl rfl
  · split_ifs
    · exact Or.inr (Or.inl rfl)
    · exact Or.inr (Or.inr ⟨_, _, rfl⟩)

/-- A request is relayed as it is. -/
theorem request_of_plan {relay : Relay} (h : g.plan n r now = .relay relay) :
    relay.request = r := by
  rcases (plan_cases : g.plan n r now = _ ∨ _) with hplan | hplan | ⟨peer, address, hplan⟩
  · simp [h] at hplan
  · simp [h] at hplan
  · obtain rfl := Plan.relay.inj (h.symm.trans hplan)
    rfl

/-! ## Backends -/

theorem hasBackend_fronting : g.fronting.hasBackend = g.hasBackend := by
  unfold fronting hasBackend
  cases g.backend <;> rfl

variable {σ : Type} (s : Outlets σ)

theorem serve_fronting (request : Request) (state : σ) :
    serve (s.fronting g) g.fronting request state = serve s g request state := by
  have hfront : g.fronting.backend = if g.hasBackend then .application else .absent := rfl
  unfold hasBackend at hfront
  cases hbackend : g.backend with
  | absent =>
    rw [hbackend] at hfront
    simp [serve, hfront, hbackend]
  | application =>
    rw [hbackend] at hfront
    simp [serve, hfront, hbackend, Outlets.fronting]
  | server address =>
    rw [hbackend] at hfront
    simp [serve, hfront, hbackend, Outlets.fronting]

theorem settle_fronting (x : Settlement) (state : σ) :
    settle (s.fronting g) g.fronting x state = settle s g x state := by
  cases x with
  | answer => rfl
  | serve request => exact serve_fronting s request state

theorem keep_fronting (request : Request) : g.fronting.keep request = g.keep request := by
  simp only [keep, hasBackend_fronting]

theorem plan_fronting : g.fronting.plan n r now = g.plan n r now := by
  have htarget : g.fronting.relayTarget n r now = g.relayTarget n r now := by
    simp only [relayTarget, hasBackend_fronting]
    rfl
  simp only [plan, htarget, keep_fronting]

theorem relayed_fronting (relay : Relay) (delivery : Delivery) :
    g.fronting.relayed relay delivery = g.relayed relay delivery := by
  cases delivery <;> simp only [relayed, keep_fronting]

theorem deliver_fronting (o : Outgoing) (state : σ) :
    (s.fronting g).deliver o state = s.deliver o state := rfl

theorem carry_fronting (state : σ) :
    carry (s.fronting g) g.fronting r state = carry s g r state := by
  simp only [carry, plan_fronting, relayed_fronting, settle_fronting, deliver_fronting]
  rfl

theorem ask_fronting (endpoint : Endpoint) (method : String) :
    g.fronting.ask n endpoint method now = g.ask n endpoint method now := by
  cases endpoint with
  | status => simp only [ask, statusReport, hasBackend_fronting]; rfl
  | peers => rfl
  | peer => rfl
  | metrics => rfl
  | scores => rfl
  | select => rfl

theorem respond_fronting (state : σ) :
    respond (s.fronting g) g.fronting r state = respond s g r state := by
  simp only [respond, carry_fronting, ask_fronting]
  rfl

/-- A gateway treats its backend as an application that does what the backend does. -/
theorem handle_fronting (token : String) (state : σ) :
    handle (s.fronting g) g.fronting token r state = handle s g token r state := by
  simp only [handle, respond_fronting]
  rfl

end Gateway

end PeerGateway
