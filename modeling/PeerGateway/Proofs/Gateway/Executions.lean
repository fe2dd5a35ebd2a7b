import PeerGateway.Proofs.Gateway.Forwards

/-!
# Requests that run

Of all the backends of a fleet at most one gets a request on its way (`Course.countP_isServed_le`).
What a gateway does once a relay has come to something says why (`Fleet.Relays`) : after a request
was sent its backend is left alone and the answer is a failure (`Fleet.Relays.visit_of_failed`), and
only if no connection was made the backend runs the request, which nobody has got and which is still
as it came (`Fleet.Relays.visit_of_unreachable`).

A request that is sent under a mark runs where it arrives or nowhere (`Fleet.visit_marked`). So if a
relay does not lead back to the gateway it comes from, the backend of that gateway does not run the
request there either (`Fleet.Relays.not_served_of_abroad`).

`served_once` has all of this.
-/

namespace PeerGateway

open Http

variable {ι σ : Type}

/-- An answer to a request as the client gets it. -/
def Http.Request.shown (r : Request) (answer : Response) : Response :=
  Gateway.dressed (Gateway.bodiless r.method answer)

@[simp] theorem Http.Request.status_shown (r : Request) (answer : Response) :
    (r.shown answer).status = answer.status := by
  unfold shown Gateway.dressed Gateway.bodiless
  dsimp only
  split_ifs <;> rfl

namespace Fleet

/-- A gateway relays a request that arrives at it, and that comes to something. -/
def Relays (w : Fleet ι σ) (next : Visits ι σ) (p : ι) (token : String) (r : Request)
    (x : σ × List (Deed ι)) (delivery : Delivery) (y : σ × List (Deed ι)) : Prop :=
  let x := w.entered p token r x
  r.isTraffic = true ∧ ∃ relay,
    (w.gateway p).plan (w.node p x.1) r (w.now p x.1) = .relay relay ∧
    (w.outlets next p).deliver
      (relay.outgoing (w.node p x.1).load.nodeId (w.gateway p).relayTimeout) x = (delivery, y)

/-- No request of a gateway arrives at the same one. -/
def LeadsAbroad (w : Fleet ι σ) (p : ι) : Prop :=
  ∀ url request timeout state token added,
    (w.passage p url request timeout state).1 ≠ .arrives p token added

variable {w : Fleet ι σ} {n : ℕ} {next : Visits ι σ} {p : ι} {token : String} {r : Request}
  {x y : σ × List (Deed ι)} {delivery : Delivery}

/-! ## Requests that are not relayed -/

/-- Nothing is done with a request that is for the interface. -/
theorem visit_of_not_isTraffic (htraffic : r.isTraffic = false) :
    (w.visit n p token r x).2.2 = x.2 := by
  cases n with
  | zero => rfl
  | succ n =>
    have hresponded : ∀ z,
        (Gateway.respond (w.outlets (w.visit n) p) (w.gateway p).fronting r z).2.2 = z.2 := by
      intro z
      unfold Gateway.respond
      dsimp only
      split_ifs with hmethod
      · rfl
      · split
        · rename_i hendpoint
          simp [Request.isTraffic, hmethod, hendpoint] at htraffic
        · split_ifs <;> rfl
    exact hresponded _

/-- A request that a peer relayed runs where it arrives, or nowhere. -/
theorem visit_marked (hmarked : r.isFromPeer = true) : (w.visit n p token r x).2.2 = x.2 ∨
    (w.visit n p token r x).2.2 = x.2 ++ [.served p r] := by
  cases n with
  | zero => exact Or.inl rfl
  | succ n =>
    cases htraffic : r.isTraffic with
    | false => exact Or.inl (visit_of_not_isTraffic htraffic)
    | true =>
      rw [(visit_succ n token htraffic).2, carry_eq, Gateway.plan_of_isFromPeer hmarked]
      dsimp only
      rw [settle_keep]
      split_ifs
      · exact Or.inr rfl
      · exact Or.inl rfl

/-- A request that has a peer to go to, but is too large to be relayed, does not run. -/
theorem visit_of_tooLarge (htraffic : r.isTraffic = true)
    (htarget : (w.gateway p).relayTarget (w.node p (w.entered p token r x).1) r
      (w.now p (w.entered p token r x).1) ≠ none) (hsize : maxRelayedBody < r.body.size) :
    (w.visit (n + 1) p token r x).1.map Response.status = some 413 ∧
      (w.visit (n + 1) p token r x).2.2 = x.2 := by
  obtain ⟨peer, hpeer⟩ := Option.ne_none_iff_exists'.mp htarget
  have hplan : (w.gateway p).plan (w.node p (w.entered p token r x).1) r
      (w.now p (w.entered p token r x).1) = .settle (.answer Gateway.bodyTooLarge) := by
    simp [Gateway.plan, hpeer, hsize]
  rw [(visit_succ n token htraffic).1, (visit_succ n token htraffic).2, carry_eq, hplan]
  exact ⟨congrArg some (r.status_shown Gateway.bodyTooLarge), rfl⟩

/-! ## Requests that are relayed -/

namespace Relays

/-- A gateway goes on with a request from what the relay came to. -/
theorem visit_eq (h : w.Relays (w.visit n) p token r x delivery y) : ∃ relay : Relay,
    relay.request = r ∧
    (w.visit (n + 1) p token r x).1 = (Gateway.settle (w.outlets (w.visit n) p)
      (w.gateway p).fronting ((w.gateway p).relayed relay delivery) y).1.map r.shown ∧
    (w.visit (n + 1) p token r x).2.2 = (Gateway.settle (w.outlets (w.visit n) p)
      (w.gateway p).fronting ((w.gateway p).relayed relay delivery) y).2.2 := by
  obtain ⟨htraffic, relay, hplan, hdelivered⟩ := h
  refine ⟨relay, Gateway.request_of_plan hplan, ?_⟩
  rw [(visit_succ n token htraffic).1, (visit_succ n token htraffic).2, carry_eq, hplan]
  dsimp only
  rw [hdelivered]
  exact ⟨rfl, rfl⟩

theorem sent (h : w.Relays next p token r x delivery y) : ∃ relay,
    (w.gateway p).plan (w.node p (w.entered p token r x).1) r
      (w.now p (w.entered p token r x).1) = .relay relay ∧
    Sent w next p (relay.outgoing (w.node p (w.entered p token r x).1).load.nodeId
      (w.gateway p).relayTimeout) (w.entered p token r x) delivery y := by
  obtain ⟨-, relay, hplan, hdelivered⟩ := h
  have hsent : Sent w next p (relay.outgoing (w.node p (w.entered p token r x).1).load.nodeId
    (w.gateway p).relayTimeout) (w.entered p token r x) _ _ := sent_deliver _
  rw [hdelivered] at hsent
  exact ⟨relay, hplan, hsent⟩

/-- The answer of a peer is passed on, and nothing else is done. -/
theorem visit_of_answered {answer : Response}
    (h : w.Relays (w.visit n) p token r x (.answered answer) y) :
    (w.visit (n + 1) p token r x).1 = some (r.shown (passedOn answer)) ∧
      (w.visit (n + 1) p token r x).2.2 = y.2 := by
  obtain ⟨relay, -, hanswer, hdeeds⟩ := h.visit_eq
  exact ⟨hanswer, hdeeds⟩

/-- After a request was sent in vain the answer is a failure, and nothing else is done. -/
theorem visit_of_failed (h : w.Relays (w.visit n) p token r x delivery y) :
    (delivery = .timedOut → (w.visit (n + 1) p token r x).1.map Response.status = some 504 ∧
      (w.visit (n + 1) p token r x).2.2 = y.2) ∧
    (delivery = .broken → (w.visit (n + 1) p token r x).1.map Response.status = some 502 ∧
      (w.visit (n + 1) p token r x).2.2 = y.2) := by
  obtain ⟨relay, -, hanswer, hdeeds⟩ := h.visit_eq
  constructor
  · rintro rfl
    rw [hanswer]
    exact ⟨congrArg some (r.status_shown (Gateway.relayFailed 504)), hdeeds⟩
  · rintro rfl
    rw [hanswer]
    exact ⟨congrArg some (r.status_shown (Gateway.relayFailed 502)), hdeeds⟩

/-- A request that could not be delivered to a peer is left to the backend as it came, and nobody
else has got it. -/
theorem visit_of_unreachable (h : w.Relays (w.visit n) p token r x .unreachable y) :
    (∃ sender request, y.2 = x.2 ++ [.forwarded p sender request]) ∧
    (w.visit (n + 1) p token r x).1 =
      (if (w.gateway p).hasBackend then (Gateway.serve (w.behind p) (w.gateway p) r y.1).1
        else some Gateway.noBackend).map r.shown ∧
    (w.visit (n + 1) p token r x).2.2 =
      if (w.gateway p).hasBackend then y.2 ++ [.served p r] else y.2 := by
  constructor
  · obtain ⟨relay, -, hsent⟩ := h.sent
    generalize hdelivery : Delivery.unreachable = delivery at hsent
    -- What comes back from where a request went is never that it could not go there.
    have hback : ∀ back : Return, Delivery.unreachable ≠ back.delivery := fun back => by
      cases back <;> simp [Return.delivery]
    cases hsent with
    | unsent hfailed => rcases hfailed with rfl | rfl <;> simp at hdelivery
    | refused => exact ⟨_, _, rfl⟩
    | strays _ back => exact absurd hdelivery (hback back)
    | arrives _ back => exact absurd hdelivery (hback back)
  · obtain ⟨relay, hrequest, hanswer, hdeeds⟩ := h.visit_eq
    rw [hanswer, hdeeds, Gateway.relayed, hrequest, settle_keep]
    split_ifs
    · exact ⟨rfl, rfl⟩
    · exact ⟨rfl, rfl⟩

/-- The backend of a gateway does not run a request while it is away, unless the gateway gets it
back. -/
theorem not_served_of_abroad (h : w.Relays (w.visit n) p token r x delivery y)
    (habroad : w.LeadsAbroad p)
    (hvalue : Headers.isValue (w.node p (w.entered p token r x).1).load.nodeId.text = true) :
    ∃ deeds, y.2 = x.2 ++ deeds ∧ ∀ request, .served p request ∉ deeds := by
  obtain ⟨relay, -, hsent⟩ := h.sent
  cases hsent with
  | unsent => exact ⟨[], (List.append_nil _).symm, fun _ => List.not_mem_nil⟩
  | refused => exact ⟨_, rfl, by simp⟩
  | strays => exact ⟨_, rfl, by simp⟩
  | @arrives url request hprepared back q token' added state hpassage state' =>
    have hq : p ≠ q := by
      rintro rfl
      exact habroad _ _ _ _ token' added (congrArg Prod.fst hpassage)
    have hmarked : request.isFromPeer = true := by
      rw [Relay.isFromPeer_prepared hprepared, hvalue, Bool.true_or]
    have harrived : ({ request with headers := request.headers ++ added } : Request).isFromPeer =
      true := Request.isFromPeer_append hmarked
    rcases visit_marked harrived with hdeeds | hdeeds
    · exact ⟨_, hdeeds, by simp⟩
    · exact ⟨_, hdeeds.trans (List.append_assoc _ _ _), by simp [hq]⟩

end Relays

end Fleet

/-! ## Two nodes that do not reach each other -/

/-- A node that is busy and knows one peer, which is idle. -/
def busy : Node :=
  { acquainted ⟨"a"⟩ ⟨"b"⟩ with load := { (acquainted ⟨"a"⟩ ⟨"b"⟩).load with host := ⟨100, 0⟩ } }

/-- Two gateways with backends. Requests from one to the other are lost, or cannot be sent. -/
def stranded (back : Option Return) : Fleet Bool (Bool → Node) :=
  { pingPong with
    gateway := fun _ => { rule := ⟨0⟩, started := 0, backend := .application }
    passage := fun _ _ _ _ nodes => (back.elim .refused .strays, nodes)
    application := fun _ _ nodes => (some (.ofText 200 "done"), nodes) }

/-- A request set out from a gateway whose node is busy. -/
def setOut (back : Option Return) (r : Request) :
    Option Response × ((Bool → Node) × List (Deed Bool)) :=
  (stranded back).visit 1 false "" r (fun _ => busy, [])

/-- A busy node relays a request of a client to an idle one. -/
theorem relayTarget_busy {g : Gateway} {r : Request} (hthreshold : g.rule.threshold = 0)
    (hclient : r.isFromPeer = false)
    (hentry : Gateway.begun busy "" r 0 = Gateway.begun busy "" inquiry 0) :
    g.relayTarget (Gateway.begun busy "" r 0) r ⟨0, 0⟩ = some (⟨"b"⟩, "[::1]") := by
  have hbest : (ranked (acquainted ⟨"a"⟩ ⟨"b"⟩).directory
      (Gateway.begun busy "" inquiry 0).load).head? = _ :=
    head?_ranked_acquainted (by decide) _
  have hbeats : (((Gateway.begun busy "" inquiry 0).load.ownScore 0).total -
      ((Gateway.begun busy "" inquiry 0).load.scoreOf ⟨"b"⟩).total).le 0 = false := by
    decide +kernel
  have hsnapshot :
      (Gateway.begun busy "" inquiry 0).load.snapshotOf? ⟨"b"⟩ = some (idle ⟨"b"⟩) := by
    show (Std.ExtTreeMap.insert ∅ (⟨"b"⟩ : NodeId) (idle ⟨"b"⟩) : Std.ExtTreeMap NodeId Snapshot
      compare)[(⟨"b"⟩ : NodeId)]? = _
    simp
  have hroute : g.rule.route (acquainted ⟨"a"⟩ ⟨"b"⟩).directory
      (Gateway.begun busy "" inquiry 0).load r.isFromPeer 0 = .forward ⟨"b"⟩ "[::1]" := by
    simp only [RelayRule.route, hclient, hbest, hthreshold, hbeats, hsnapshot, Bool.false_eq_true,
      if_false]
    exact if_neg (by decide)
  have hdirectory : (Gateway.begun busy "" inquiry 0).directory =
      (acquainted ⟨"a"⟩ ⟨"b"⟩).directory := rfl
  simp only [Gateway.relayTarget, hentry, hdirectory, hroute]

theorem node_stranded (back : Option Return) (r : Request) : (stranded back).node false
    ((stranded back).entered false "" r (fun _ => busy, [])).1 = Gateway.begun busy "" r 0 :=
  Function.update_self (β := fun _ => Node) false (Gateway.begun busy "" r 0) fun _ => busy

/-- A request of a client is relayed between nodes that do not reach each other. -/
theorem relays_stranded (back : Option Return) (next : Fleet.Visits Bool (Bool → Node)) :
    ∃ request nodes, (stranded back).Relays next false "" inquiry (fun _ => busy, [])
      (back.elim .unreachable Return.delivery) (nodes, [.forwarded false ⟨"a"⟩ request]) := by
  obtain ⟨headers, hprepared⟩ := prepare?_meeting (r := inquiry) rfl ⟨"b"⟩ ⟨"a"⟩ (.ofSecs 10)
  let x := (stranded back).entered false "" inquiry (fun _ => busy, [])
  have hself : (stranded back).node false x.1 = _ := node_stranded back inquiry
  have htarget : ((stranded back).gateway false).relayTarget _ inquiry ⟨0, 0⟩ = _ :=
    relayTarget_busy rfl rfl rfl
  have hplan : ((stranded back).gateway false).plan ((stranded back).node false x.1) inquiry
      ⟨0, 0⟩ = .relay ⟨⟨"b"⟩, "[::1]", inquiry⟩ := by
    rw [hself, Gateway.plan, htarget]
    exact if_neg (by decide)
  have hid : ((stranded back).node false x.1).load.nodeId = ⟨"a"⟩ := by
    rw [hself]
    rfl
  have hdelivered : ((stranded back).outlets next false).deliver
      (Relay.outgoing ⟨⟨"b"⟩, "[::1]", inquiry⟩ ⟨"a"⟩ (.ofSecs 10)) x =
        (back.elim .unreachable Return.delivery,
          (x.1, [.forwarded false ⟨"a"⟩ { inquiry with headers }])) := by
    rw [Outlets.deliver_of_prepare? _ hprepared (show Span.ofSecs 10 ≠ 0 by decide), ← hid]
    cases back with
    | none => rfl
    | some back => rfl
  refine ⟨{ inquiry with headers }, x.1, by decide +kernel, _, hplan, ?_⟩
  rw [hid]
  exact hdelivered

/-- A request of more bytes than may be relayed. -/
def lengthy : Request := { inquiry with body := ⟨Array.replicate (maxRelayedBody + 1) 0⟩ }

/-! ## How often a request runs -/

/-- Of all the backends at most one gets a request on its way. One that is too large to be relayed
gets the answer 413 and does not run. Once a relay has come to something, a gateway passes the
answer of the peer on, or answers 504 if there was none in time and 502 if it failed otherwise, and
leaves its backend alone in each case; so the backend does not run the request at all, unless the
relay led back to its gateway. If the peer could not be reached, then nobody else got the request,
and the backend runs it as it came. -/
theorem served_once (w : Fleet ι σ) (n : ℕ) (p : ι) (token : String) (r : Request)
    (x : σ × List (Deed ι)) :
    (∃ deeds, (w.visit n p token r x).2.2 = x.2 ++ deeds ∧ deeds.countP Deed.isServed ≤ 1) ∧
    (r.isTraffic = true →
      (w.gateway p).relayTarget (w.node p (w.entered p token r x).1) r
        (w.now p (w.entered p token r x).1) ≠ none →
      maxRelayedBody < r.body.size →
        (w.visit (n + 1) p token r x).1.map Response.status = some 413 ∧
          (w.visit (n + 1) p token r x).2.2 = x.2) ∧
    ∀ delivery y, w.Relays (w.visit n) p token r x delivery y →
      (∀ answer, delivery = .answered answer →
        (w.visit (n + 1) p token r x).1 = some (r.shown (passedOn answer)) ∧
          (w.visit (n + 1) p token r x).2.2 = y.2) ∧
      (delivery = .timedOut → (w.visit (n + 1) p token r x).1.map Response.status = some 504 ∧
        (w.visit (n + 1) p token r x).2.2 = y.2) ∧
      (delivery = .broken → (w.visit (n + 1) p token r x).1.map Response.status = some 502 ∧
        (w.visit (n + 1) p token r x).2.2 = y.2) ∧
      (delivery = .unreachable →
        (∃ sender request, y.2 = x.2 ++ [.forwarded p sender request]) ∧
        (w.visit (n + 1) p token r x).1 =
          (if (w.gateway p).hasBackend then (Gateway.serve (w.behind p) (w.gateway p) r y.1).1
            else some Gateway.noBackend).map r.shown ∧
        (w.visit (n + 1) p token r x).2.2 =
          if (w.gateway p).hasBackend then y.2 ++ [.served p r] else y.2) ∧
      (w.LeadsAbroad p →
        Headers.isValue (w.node p (w.entered p token r x).1).load.nodeId.text = true →
          ∃ deeds, y.2 = x.2 ++ deeds ∧ ∀ request, .served p request ∉ deeds) := by
  refine ⟨?_, Fleet.visit_of_tooLarge, fun delivery y h => ?_⟩
  · obtain ⟨deeds, hdeeds, hcourse⟩ := Fleet.visit_follows (w := w) n p token r x
    exact ⟨deeds, hdeeds, hcourse.countP_isServed_le⟩
  · refine ⟨?_, h.visit_of_failed.1, h.visit_of_failed.2, ?_, h.not_served_of_abroad⟩
    · rintro answer rfl
      exact h.visit_of_answered
    · rintro rfl
      exact h.visit_of_unreachable

/-- A busy node with a backend relays a request. It answers 504 or 502 if that gets lost, and passes
an answer on; it lets its backend run the request if the peer cannot be reached; and it refuses a
request of more bytes than may be relayed. -/
theorem served_once_stranded :
    ((setOut (some .late) inquiry).1.map Response.status = some 504 ∧
      ∀ request, .served false request ∉ (setOut (some .late) inquiry).2.2) ∧
    ((setOut (some .broken) inquiry).1.map Response.status = some 502 ∧
      ∃ request, (setOut (some .broken) inquiry).2.2 = [.forwarded false ⟨"a"⟩ request]) ∧
    (setOut (some (.answered (.ofText 201 "there"))) inquiry).1 =
      some (inquiry.shown (passedOn (.ofText 201 "there"))) ∧
    (∃ request, (setOut none inquiry).1 = some (inquiry.shown (.ofText 200 "done")) ∧
      (setOut none inquiry).2.2 = [.forwarded false ⟨"a"⟩ request, .served false inquiry]) ∧
    ((setOut none lengthy).1.map Response.status = some 413 ∧ (setOut none lengthy).2.2 = []) ∧
    ∃ deeds, (setOut none inquiry).2.2 = [] ++ deeds ∧ deeds.countP Deed.isServed ≤ 1 := by
  refine ⟨?_, ?_, ?_, ?_, ?_, (served_once (stranded none) 1 false "" inquiry _).1⟩
  · obtain ⟨request, nodes, h⟩ := relays_stranded (some .late) ((stranded (some .late)).visit 0)
    obtain ⟨-, htimedOut, -, -, habroad⟩ := (served_once _ 0 false "" inquiry _).2.2 _ _ h
    obtain ⟨hstatus, hdeeds⟩ := htimedOut rfl
    obtain ⟨deeds, hnew, hserved⟩ := habroad (fun _ _ _ _ _ _ => by simp [stranded])
      (by rw [node_stranded]; exact (by decide : Headers.isValue "a" = true))
    refine ⟨hstatus, fun request' => ?_⟩
    rw [show (setOut (some .late) inquiry).2.2 = _ from hdeeds, hnew]
    exact hserved request'
  · obtain ⟨request, nodes, h⟩ := relays_stranded (some .broken) ((stranded (some .broken)).visit 0)
    obtain ⟨hstatus, hdeeds⟩ := ((served_once _ 0 false "" inquiry _).2.2 _ _ h).2.2.1 rfl
    exact ⟨hstatus, request, hdeeds⟩
  · obtain ⟨request, nodes, h⟩ := relays_stranded (some (.answered (.ofText 201 "there")))
      ((stranded (some (.answered (.ofText 201 "there")))).visit 0)
    exact (((served_once _ 0 false "" inquiry _).2.2 _ _ h).1 _ rfl).1
  · obtain ⟨request, nodes, h⟩ := relays_stranded none ((stranded none).visit 0)
    obtain ⟨-, hanswer, hdeeds⟩ := ((served_once _ 0 false "" inquiry _).2.2 _ _ h).2.2.2.1 rfl
    exact ⟨request, hanswer, hdeeds⟩
  · refine (served_once (stranded none) 0 false "" lengthy (fun _ => busy, [])).2.1
      (by decide +kernel) ?_ ?_
    · have htarget : ((stranded none).gateway false).relayTarget _ lengthy ⟨0, 0⟩ = _ :=
        relayTarget_busy rfl rfl rfl
      rw [node_stranded]
      exact Option.ne_none_iff_exists'.mpr ⟨_, htarget⟩
    · show maxRelayedBody < (Array.replicate (maxRelayedBody + 1) (0 : UInt8)).size
      rw [Array.size_replicate]
      exact Nat.lt_succ_self _

end PeerGateway
