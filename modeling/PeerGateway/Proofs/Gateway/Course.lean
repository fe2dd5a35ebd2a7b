import PeerGateway.Proofs.Gateway.Relaying

/-!
# The way of a request through a fleet

A request is sent from one gateway to the next until a backend runs it, or until it gets another
answer. `Course` is what may be done with it on this way : after it was sent on under a mark nobody
sends it on any more, and once a backend has it nothing is done with it. `Fleet.visit_follows` is
the run over any number of gateways, from the step of one gateway (`Fleet.follows_handle`).

A gateway marks a request with its identifier, but only one that can be the value of a header field.
The course of a request that was sent on without a mark is that of a request of a client.
-/

namespace PeerGateway

open Http

/-- The request is neither a question about what is allowed nor one for the interface. -/
def Http.Request.isTraffic (r : Request) : Bool :=
  r.method ≠ "OPTIONS" && (Endpoint.ofPath? r.target.pathText).isNone

variable {ι σ : Type}

/-- What may be done with a request on its way, if it is marked as one that a peer relayed, or if it
is not. -/
inductive Course (w : Fleet ι σ) : Bool → List (Deed ι) → Prop
  | nothing (marked : Bool) : Course w marked []
  | served (marked : Bool) (place : ι) (request : Request) : Course w marked [.served place request]
  | forwarded {place : ι} {state : σ} {request : Request} {later : List (Deed ι)}
    (h : Course w (Headers.isValue (w.node place state).load.nodeId.text) later) :
    Course w false (.forwarded place (w.node place state).load.nodeId request :: later)

namespace Course

variable {w : Fleet ι σ} {marked : Bool} {deeds : List (Deed ι)}

/-- Less may be done with a marked request. -/
theorem mono {marked' : Bool} (h : Course w marked deeds)
    (hmarked : marked' = true → marked = true) : Course w marked' deeds := by
  cases h with
  | nothing => exact .nothing marked'
  | served => exact .served marked' _ _
  | forwarded h =>
    cases marked' with
    | false => exact .forwarded h
    | true => exact absurd (hmarked rfl) Bool.false_ne_true

theorem countP_isServed_le (h : Course w marked deeds) : deeds.countP Deed.isServed ≤ 1 := by
  induction h with
  | nothing => simp
  | served => simp [Deed.isServed]
  | forwarded h ih => simpa [Deed.isServed] using ih

theorem countP_isForwarded_of_marked (h : Course w true deeds) :
    deeds.countP Deed.isForwarded = 0 := by
  cases h with
  | nothing => rfl
  | served => rfl

end Course

/-- A record has come from another one by what may be done with a request. -/
def Follows (w : Fleet ι σ) (marked : Bool) (x y : σ × List (Deed ι)) : Prop :=
  ∃ deeds, y.2 = x.2 ++ deeds ∧ Course w marked deeds

namespace Follows

variable {w : Fleet ι σ} {marked : Bool} {x y z : σ × List (Deed ι)} {place : ι} {state : σ}
  {request : Request}

theorem nothing (h : y.2 = x.2) : Follows w marked x y :=
  ⟨[], by rw [h, List.append_nil], .nothing marked⟩

theorem forwarded
    (hsent : y.2 = x.2 ++ [.forwarded place (w.node place state).load.nodeId request])
    (h : Follows w marked y z)
    (hmark : Headers.isValue (w.node place state).load.nodeId.text = true → marked = true) :
    Follows w false x z := by
  obtain ⟨deeds, hdeeds, hcourse⟩ := h
  refine ⟨.forwarded place (w.node place state).load.nodeId request :: deeds, ?_,
    .forwarded (hcourse.mono hmark)⟩
  rw [hdeeds, hsent, List.append_assoc, List.singleton_append]

end Follows

namespace Fleet

variable {w : Fleet ι σ} {next : Visits ι σ} {p : ι} {r : Request} {x : σ × List (Deed ι)}

/-- A request that is left to the backend is served, if there is one. -/
theorem settle_keep : Gateway.settle (w.outlets next p) (w.gateway p).fronting
    ((w.gateway p).keep r) x =
      if (w.gateway p).hasBackend then
        ((Gateway.serve (w.behind p) (w.gateway p) r x.1).1,
          (Gateway.serve (w.behind p) (w.gateway p) r x.1).2, x.2 ++ [.served p r])
      else (some Gateway.noBackend, x) := by
  unfold Gateway.keep
  cases hbackend : (w.gateway p).hasBackend with
  | false => rfl
  | true =>
    have hfront : (w.gateway p).fronting.backend = .application := by
      rw [Gateway.fronting, hbackend]
      rfl
    simp only [if_true, Gateway.settle, Gateway.serve, hfront]
    rfl

theorem follows_keep (marked : Bool) : Follows w marked x (Gateway.settle (w.outlets next p)
    (w.gateway p).fronting ((w.gateway p).keep r) x).2 := by
  rw [settle_keep]
  split_ifs
  · exact ⟨_, rfl, .served marked p r⟩
  · exact ⟨[], (List.append_nil _).symm, .nothing marked⟩

/-- What the sending of a request comes to, and the record after it. -/
inductive Sent (w : Fleet ι σ) (next : Visits ι σ) (p : ι) (o : Outgoing) (x : σ × List (Deed ι)) :
    Delivery → σ × List (Deed ι) → Prop
  /-- It could not be sent, or not in time. -/
  | unsent {delivery : Delivery} (h : delivery = .broken ∨ delivery = .timedOut) :
    Sent w next p o x delivery x
  | refused {url : Url} {request : Request} (h : o.prepare? = some (url, request)) (state : σ) :
    Sent w next p o x .unreachable
      (state, x.2 ++ [.forwarded p (w.node p x.1).load.nodeId request])
  | strays {url : Url} {request : Request} (h : o.prepare? = some (url, request)) (back : Return)
    (state : σ) : Sent w next p o x back.delivery
      (state, x.2 ++ [.forwarded p (w.node p x.1).load.nodeId request])
  | arrives {url : Url} {request : Request} (h : o.prepare? = some (url, request)) (back : Return)
    {q : ι} {token : String} {added : Headers} {state : σ}
    (hpassage : w.passage p url request o.timeout x.1 = (.arrives q token added, state))
    (state' : σ) : Sent w next p o x back.delivery
      (state', (next q token { request with headers := request.headers ++ added }
        (state, x.2 ++ [.forwarded p (w.node p x.1).load.nodeId request])).2.2)

theorem sent_deliver (o : Outgoing) : Sent w next p o x ((w.outlets next p).deliver o x).1
    ((w.outlets next p).deliver o x).2 := by
  rcases (w.outlets next p).deliver_cases o x with hdelivered | hdelivered |
    ⟨url, request, hprepared, hdelivered⟩
  · rw [hdelivered]
    exact .unsent (Or.inl rfl)
  · rw [hdelivered]
    exact .unsent (Or.inr rfl)
  · rw [hdelivered]
    show Sent w next p o x (w.send next p url request o.timeout x).1
      (w.send next p url request o.timeout x).2
    unfold send
    dsimp only
    rcases hpassage : w.passage p url request o.timeout x.1 with ⟨passage, state⟩
    cases passage with
    | refused => exact .refused hprepared state
    | strays back => exact .strays hprepared back state
    | arrives q token added => exact .arrives hprepared _ hpassage _

/-- What a gateway does with a request : it leaves it to the backend, refuses it for its size, or
relays it and goes on from what that came to. -/
inductive Carried (w : Fleet ι σ) (next : Visits ι σ) (p : ι) (r : Request)
    (x : σ × List (Deed ι)) :
    Option Response × (σ × List (Deed ι)) → Prop
  | kept (h : (w.gateway p).plan (w.node p x.1) r (w.now p x.1) = .settle ((w.gateway p).keep r)) :
    Carried w next p r x (Gateway.settle (w.outlets next p) (w.gateway p).fronting
      ((w.gateway p).keep r) x)
  | tooLarge (h : (w.gateway p).plan (w.node p x.1) r (w.now p x.1) =
    .settle (.answer Gateway.bodyTooLarge)) : Carried w next p r x (some Gateway.bodyTooLarge, x)
  | relayed {relay : Relay} {delivery : Delivery} {y : σ × List (Deed ι)}
    (h : (w.gateway p).plan (w.node p x.1) r (w.now p x.1) = .relay relay)
    (hrequest : relay.request = r)
    (hsent : Sent w next p
      (relay.outgoing (w.node p x.1).load.nodeId (w.gateway p).relayTimeout) x delivery y) :
    Carried w next p r x (Gateway.settle (w.outlets next p) (w.gateway p).fronting
      ((w.gateway p).relayed relay delivery) y)

theorem carry_eq : Gateway.carry (w.outlets next p) (w.gateway p).fronting r x =
    match (w.gateway p).plan (w.node p x.1) r (w.now p x.1) with
    | .settle settlement => Gateway.settle (w.outlets next p) (w.gateway p).fronting settlement x
    | .relay relay =>
      Gateway.settle (w.outlets next p) (w.gateway p).fronting
        ((w.gateway p).relayed relay ((w.outlets next p).deliver
          (relay.outgoing (w.node p x.1).load.nodeId (w.gateway p).relayTimeout) x).1)
        ((w.outlets next p).deliver
          (relay.outgoing (w.node p x.1).load.nodeId (w.gateway p).relayTimeout) x).2 := by
  simp only [Gateway.carry, Gateway.plan_fronting, Gateway.relayed_fronting]
  rfl

theorem carried_carry :
    Carried w next p r x (Gateway.carry (w.outlets next p) (w.gateway p).fronting r x) := by
  rw [carry_eq]
  rcases (Gateway.plan_cases : (w.gateway p).plan (w.node p x.1) r (w.now p x.1) = _ ∨ _) with
    hplan | hplan | ⟨peer, address, hplan⟩
  · rw [hplan]
    exact .kept hplan
  · rw [hplan]
    exact .tooLarge hplan
  · rw [hplan]
    exact .relayed hplan rfl (sent_deliver _)

/-- What comes back to a gateway is its answer. -/
theorem relayed_delivery (g : Gateway) (relay : Relay) (back : Return) :
    ∃ answer, g.relayed relay back.delivery = .answer answer := by
  cases back <;> exact ⟨_, rfl⟩

/-- A request that arrives at another gateway goes on from there. -/
theorem carry_of_arrives {relay : Relay} {url : Url} {request : Request} {q : ι} {token : String}
    {added : Headers} {state : σ}
    (hplan : (w.gateway p).plan (w.node p x.1) r (w.now p x.1) = .relay relay)
    (hprepared : (relay.outgoing (w.node p x.1).load.nodeId (w.gateway p).relayTimeout).prepare? =
      some (url, request))
    (htimeout : (w.gateway p).relayTimeout ≠ 0)
    (hpassage : w.passage p url request (w.gateway p).relayTimeout x.1 =
      (.arrives q token added, state)) :
    (Gateway.carry (w.outlets next p) (w.gateway p).fronting r x).2.2 =
      (next q token { request with headers := request.headers ++ added }
        (state, x.2 ++ [.forwarded p (w.node p x.1).load.nodeId request])).2.2 := by
  have hsent : (w.outlets next p).deliver
      (relay.outgoing (w.node p x.1).load.nodeId (w.gateway p).relayTimeout) x =
        w.send next p url request (w.gateway p).relayTimeout x :=
    (w.outlets next p).deliver_of_prepare? hprepared htimeout x
  rw [carry_eq, hplan]
  dsimp only
  rw [hsent, send, hpassage]
  dsimp only
  obtain ⟨answer, hanswer⟩ := relayed_delivery (w.gateway p) relay (w.wayBack p q (next q token
    { request with headers := request.headers ++ added }
    (state, x.2 ++ [.forwarded p (w.node p x.1).load.nodeId request])).1
    (w.gateway p).relayTimeout (next q token { request with headers := request.headers ++ added }
      (state, x.2 ++ [.forwarded p (w.node p x.1).load.nodeId request])).2.1).1
  rw [hanswer]
  rfl

section Step

variable (hnext : ∀ q token r x, Follows w r.isFromPeer x (next q token r x).2)

include hnext

/-- The step of one gateway : what it does with a request is what may be done. -/
theorem follows_carry : Follows w r.isFromPeer x
    (Gateway.carry (w.outlets next p) (w.gateway p).fronting r x).2 := by
  have hcarried : Carried w next p r x _ := carried_carry
  generalize Gateway.carry (w.outlets next p) (w.gateway p).fronting r x = result at hcarried ⊢
  cases hcarried with
  | kept => exact follows_keep _
  | tooLarge => exact .nothing rfl
  | @relayed relay delivery y hplan hrequest hsent =>
    -- A request that is relayed is not marked yet.
    have hclient : r.isFromPeer = false := by
      by_contra hmarked
      rw [Gateway.plan_of_isFromPeer (by simpa using hmarked)] at hplan
      simp at hplan
    have hmark : ∀ {url request},
        (relay.outgoing (w.node p x.1).load.nodeId (w.gateway p).relayTimeout).prepare? =
          some (url, request) →
        request.isFromPeer = Headers.isValue (w.node p x.1).load.nodeId.text := fun hprepared => by
      rw [Relay.isFromPeer_prepared hprepared, hrequest, hclient, Bool.or_false]
    rw [hclient]
    cases hsent with
    | unsent hfailed => rcases hfailed with rfl | rfl <;> exact .nothing rfl
    | @refused url request hprepared state =>
      have hkept : Follows w true (state, x.2 ++ [.forwarded p (w.node p x.1).load.nodeId request])
          (Gateway.settle (w.outlets next p) (w.gateway p).fronting
            ((w.gateway p).keep relay.request) _).2 := follows_keep true
      exact .forwarded rfl hkept fun _ => rfl
    | strays hprepared back state =>
      obtain ⟨answer, hanswer⟩ := relayed_delivery (w.gateway p) relay back
      rw [hanswer]
      exact .forwarded rfl (.nothing rfl) fun _ => rfl
    | @arrives url request hprepared back q token added state hpassage state' =>
      obtain ⟨answer, hanswer⟩ := relayed_delivery (w.gateway p) relay back
      rw [hanswer]
      refine .forwarded rfl (hnext q token _ _) fun hvalue => ?_
      exact Request.isFromPeer_append ((hmark hprepared).trans hvalue)

/-- Whatever a gateway does with a request is what may be done with it. -/
theorem follows_handle (token : String) : Follows w r.isFromPeer x
    (Gateway.handle (w.outlets next p) (w.gateway p).fronting token r x).2 := by
  have hresponded : ∀ y : σ × List (Deed ι), Follows w r.isFromPeer y
      (Gateway.respond (w.outlets next p) (w.gateway p).fronting r y).2 := fun y => by
    unfold Gateway.respond
    dsimp only
    split_ifs
    · exact .nothing rfl
    · split
      · exact follows_carry hnext
      · split_ifs
        · exact .nothing rfl
        · exact .nothing rfl
  exact hresponded _

end Step

/-- A gateway with a request entered. -/
def entered (w : Fleet ι σ) (p : ι) (token : String) (r : Request) (x : σ × List (Deed ι)) :
    σ × List (Deed ι) :=
  (w.setNode p (Gateway.begun (w.node p x.1) token r (w.now p x.1).wall) x.1, x.2)

/-- A request that is not for the interface is carried once it is entered. -/
theorem visit_succ (n : ℕ) (token : String) (htraffic : r.isTraffic = true) :
    (w.visit (n + 1) p token r x).1 =
      (Gateway.carry (w.outlets (w.visit n) p) (w.gateway p).fronting r
        (w.entered p token r x)).1.map
          (fun answer => Gateway.dressed (Gateway.bodiless r.method answer)) ∧
    (w.visit (n + 1) p token r x).2.2 =
      (Gateway.carry (w.outlets (w.visit n) p) (w.gateway p).fronting r
        (w.entered p token r x)).2.2 := by
  simp only [Request.isTraffic, Bool.and_eq_true, Option.isNone_iff_eq_none, decide_eq_true_eq]
    at htraffic
  have hresponded : ∀ y, Gateway.respond (w.outlets (w.visit n) p) (w.gateway p).fronting r y =
      Gateway.carry (w.outlets (w.visit n) p) (w.gateway p).fronting r y := fun y => by
    simp only [Gateway.respond, if_neg htraffic.1, htraffic.2]
  simp only [visit, Gateway.handle, hresponded]
  exact ⟨rfl, rfl⟩

/-- Whatever is done with a request on its way is what may be done with it. -/
theorem visit_follows (n : ℕ) (p : ι) (token : String) (r : Request) (x : σ × List (Deed ι)) :
    Follows w r.isFromPeer x (w.visit n p token r x).2 := by
  induction n generalizing p token r x with
  | zero => exact .nothing rfl
  | succ n ih => exact follows_handle ih token

end Fleet

end PeerGateway
