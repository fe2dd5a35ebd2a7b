import PeerGateway.Proofs.Gateway.Course
import PeerGateway.Mesh

/-!
# Requests that are sent on

A gateway marks a request with its identifier before it sends it on, but only if the identifier can
be the value of a header field. So a request is sent on at most once where all identifiers can
(`Course.countP_isForwarded_le`), and a node whose identifier cannot may have its request sent on
again : `pingPong` is two nodes without backends that know each other. `forwarded_once` has both.
-/

namespace PeerGateway

open Http

variable {ι σ : Type}

namespace Course

variable {w : Fleet ι σ} {marked : Bool} {deeds : List (Deed ι)}

/-- A request that was sent on under an identifier that can be the value of a field is not sent on
again. -/
theorem countP_isForwarded_later (h : Course w marked deeds) {before later : List (Deed ι)}
    {place : ι} {sender : NodeId} {request : Request}
    (hsplit : deeds = before ++ .forwarded place sender request :: later)
    (hvalue : Headers.isValue sender.text = true) : later.countP Deed.isForwarded = 0 := by
  induction h generalizing before with
  | nothing => simp at hsplit
  | served =>
    cases before with
    | nil => simp at hsplit
    | cons deed before => simp at hsplit
  | @forwarded place state request later' h ih =>
    cases before with
    | nil =>
      obtain ⟨hdeed, rfl⟩ := List.cons.inj hsplit
      obtain ⟨-, rfl, -⟩ := Deed.forwarded.inj hdeed
      rw [hvalue] at h
      exact h.countP_isForwarded_of_marked
    | cons deed before => exact ih (List.cons.inj hsplit).2

theorem countP_isForwarded_le (h : Course w marked deeds)
    (hids : ∀ place state, Headers.isValue (w.node place state).load.nodeId.text = true) :
    deeds.countP Deed.isForwarded ≤ 1 := by
  cases h with
  | nothing => simp
  | served => simp [Deed.isForwarded]
  | forwarded h =>
    rw [hids] at h
    rw [List.countP_cons, h.countP_isForwarded_of_marked]
    simp [Deed.isForwarded]

end Course

/-! ## Two nodes that know each other -/

/-- The address that both nodes have of each other. -/
def meetingUrl : Url := { host := .ip (.v6 0 0 0 0 0 0 0 1) }

/-- A snapshot of a node that is idle. -/
def idle (id : NodeId) : Snapshot where
  nodeId := id
  address := "[::1]"
  cpuUsage := 0
  memoryUsage := 0
  requestsPerSec := 0
  averageLatencyMs := 0
  activeRequests := 0
  errorRate := 0
  timestamp := 0

/-- A node that knows one peer, which is idle. -/
def acquainted (id other : NodeId) : Node :=
  { Mesh.lone id with
    directory := Directory.put ⟨id, "", 8, ∅⟩ other (.fresh ⟨other, "", true⟩ .connected 0)
    load := { (Mesh.lone id).load with snapshots := Std.ExtTreeMap.insert ∅ other (idle other) } }

/-- Two gateways without backends, between which requests and answers go as they are sent. -/
def pingPong : Fleet Bool (Bool → Node) where
  gateway _ := { rule := ⟨0⟩, started := 0 }
  node p nodes := nodes p
  setNode p n nodes := Function.update nodes p n
  now _ _ := ⟨0, 0⟩
  passage p _ _ _ nodes := (.arrives (!p) "" [], nodes)
  wayBack _ _ answer _ nodes := (answer.elim .late .answered, nodes)
  upstream _ _ _ _ nodes := (.unreachable, nodes)
  application _ _ nodes := (none, nodes)

/-- Two nodes that know each other, the first one under an identifier. -/
def partners (id : NodeId) : Bool → Node
  | false => acquainted id ⟨"b"⟩
  | true => acquainted ⟨"b"⟩ id

/-- A request of a client. -/
def inquiry : Request := { target := meetingUrl.target }

section Acquainted

variable {id other : NodeId}

/-- The one peer is the best, whatever the load is. -/
theorem head?_ranked_acquainted (hother : other ≠ id) (c : LoadRecord) :
    (ranked (acquainted id other).directory c).head? = some (other, c.scoreOf other) := by
  have hempty : Directory.Consistent ⟨id, "", 8, ∅⟩ := Directory.consistent_empty _ _ _
  have hconsistent : (acquainted id other).directory.Consistent :=
    hempty.put hother (Entry.consistentAt_fresh ⟨other, "", true⟩ (by decide))
      (Or.inr (by simp [Directory.size]))
  have hstate : ∀ k, (acquainted id other).directory.stateOf? k = some .connected ↔ other = k :=
    fun k => by
      rw [acquainted, Directory.stateOf?_put]
      split_ifs with hk
      · exact iff_of_true rfl hk
      · simp [hk, Directory.stateOf?, Directory.find?]
  have hmem : other ∈ (ranked (acquainted id other).directory c).map Prod.fst :=
    hconsistent.mem_ranked_iff.mpr ((hstate other).mpr rfl)
  cases hranked : (ranked (acquainted id other).directory c) with
  | nil => simp [hranked] at hmem
  | cons best rest =>
    obtain ⟨k, score⟩ := best
    have hbest : (k, score) ∈ ranked (acquainted id other).directory c := by simp [hranked]
    have hk : k ∈ (ranked (acquainted id other).directory c).map Prod.fst := by simp [hranked]
    obtain rfl : other = k := (hstate k).mp (hconsistent.mem_ranked_iff.mp hk)
    obtain rfl : score = c.scoreOf other := Directory.snd_of_mem_ranked hbest
    rfl

/-- A node that knows one peer relays a request of a client to it, if it has no backend. -/
theorem plan_acquainted {g : Gateway} {r : Request} {token : String} {now : Moment}
    (hother : other ≠ id) (hbackend : g.hasBackend = false) (hclient : r.isFromPeer = false)
    (hsize : r.body.size ≤ maxRelayedBody) (entered : WallTime) :
    g.plan (Gateway.begun (acquainted id other) token r entered) r now =
      .relay ⟨other, "[::1]", r⟩ := by
  have hbest := head?_ranked_acquainted hother
    (Gateway.begun (acquainted id other) token r entered).load
  have htarget : g.relayTarget (Gateway.begun (acquainted id other) token r entered) r now =
      some (other, "[::1]") := by
    refine Gateway.relayTarget_of_best (m := idle other) hbackend hclient hbest ?_ rfl
    show (Std.ExtTreeMap.insert ∅ other (idle other) : Std.ExtTreeMap NodeId Snapshot
      compare)[other]? = _
    simp
  simp [Gateway.plan, htarget, hsize]

/-- What is sent to the other node asks for the same. -/
theorem prepare?_meeting {r : Request} (htarget : r.target = meetingUrl.target)
    (other sender : NodeId) (timeout : Span) : ∃ headers,
      (Relay.outgoing ⟨other, "[::1]", r⟩ sender timeout).prepare? =
        some (meetingUrl, { r with headers }) := by
  have hurl : (Relay.outgoing ⟨other, "[::1]", r⟩ sender timeout).url = "http://[::1]/" := by
    simp only [Relay.outgoing, Request.urlAt, htarget]
    decide
  have hparsed : Url.parse? "http://[::1]/" = some meetingUrl := by decide
  unfold Outgoing.prepare?
  rw [hurl, hparsed]
  obtain ⟨method, target, headers, body⟩ := r
  obtain rfl : target = meetingUrl.target := htarget
  exact ⟨_, rfl⟩

/-- A request of a client is relayed by a node that knows the other one, and marked if the node's
identifier can be the value of a field. -/
theorem visit_pingPong (n : ℕ) {p : Bool} (token : String) {r : Request} {nodes : Bool → Node}
    (deeds : List (Deed Bool)) (hother : other ≠ id) (hnode : nodes p = acquainted id other)
    (hclient : r.isFromPeer = false) (hmethod : r.method = "GET")
    (htarget : r.target = meetingUrl.target) (hsize : r.body.size ≤ maxRelayedBody) :
    ∃ headers nodes', ({ r with headers } : Request).isFromPeer = Headers.isValue id.text ∧
      nodes' (!p) = nodes (!p) ∧
      (pingPong.visit (n + 1) p token r (nodes, deeds)).2.2 =
        (pingPong.visit n (!p) "" { r with headers }
          (nodes', deeds ++ [.forwarded p id { r with headers }])).2.2 := by
  obtain ⟨headers, hprepared⟩ := prepare?_meeting htarget other id (.ofSecs 10)
  let x := pingPong.entered p token r (nodes, deeds)
  have hself : pingPong.node p x.1 = Gateway.begun (acquainted id other) token r 0 := by
    show Function.update nodes p (Gateway.begun (nodes p) token r 0) p = _
    rw [Function.update_self, hnode]
  have hid : (pingPong.node p x.1).load.nodeId = id := by
    rw [hself]
    rfl
  have hplan : (pingPong.gateway p).plan (pingPong.node p x.1) r (pingPong.now p x.1) =
      .relay ⟨other, "[::1]", r⟩ := by
    rw [hself]
    exact plan_acquainted hother rfl hclient hsize 0
  have htraffic : r.isTraffic = true := by
    rw [Request.isTraffic, hmethod, htarget]
    decide +kernel
  refine ⟨headers, x.1, ?_, ?_, ?_⟩
  · rw [Relay.isFromPeer_prepared hprepared, hclient, Bool.or_false]
  · exact Function.update_of_ne (by simp) _ _
  · have htimeout : (pingPong.gateway p).relayTimeout ≠ 0 :=
      show Span.ofSecs 10 ≠ 0 by decide
    rw [(Fleet.visit_succ n token htraffic).2,
      Fleet.carry_of_arrives hplan (by rw [hid]; exact hprepared) htimeout rfl, hid,
      List.append_nil]
    rfl

/-- A node whose identifier cannot be the value of a field sends a request on without a mark, and
the other node sends it back. -/
theorem countP_isForwarded_pingPong {id : NodeId} {n : ℕ} (hid : Headers.isValue id.text = false)
    (hn : 1 < n) :
    1 < (pingPong.visit n false "" inquiry (partners id, [])).2.2.countP Deed.isForwarded := by
  -- The identifier of the other node can be the value of a field.
  have hne : id ≠ ⟨"b"⟩ := by
    rintro rfl
    exact absurd hid (by decide)
  obtain ⟨n, rfl⟩ : ∃ k, n = k + 2 := ⟨n - 2, by omega⟩
  obtain ⟨headers, nodes, hmark, hnodes, hfirst⟩ := visit_pingPong (n + 1) "" []
    (r := inquiry) hne.symm (show partners id false = _ from rfl) rfl rfl rfl (Nat.zero_le _)
  obtain ⟨headers', nodes', -, -, hsecond⟩ := visit_pingPong n ""
    ([] ++ [.forwarded false id { inquiry with headers }]) (r := { inquiry with headers }) hne
    (hnodes.trans (show partners id true = _ from rfl)) (hmark.trans hid) rfl rfl (Nat.zero_le _)
  rw [hfirst.trans hsecond]
  obtain ⟨deeds, hdeeds, -⟩ := Fleet.visit_follows (w := pingPong) n (!!false) ""
    { inquiry with headers := headers' }
    (nodes', [.forwarded false id { inquiry with headers },
      .forwarded true ⟨"b"⟩ { inquiry with headers := headers' }])
  refine lt_of_lt_of_eq ?_ (congrArg (List.countP Deed.isForwarded) hdeeds).symm
  simp only [List.cons_append, List.nil_append, List.countP_cons, Deed.isForwarded, if_true]
  omega

end Acquainted

/-! ## How often a request is sent on -/

/-- On its way through any gateways, a marked request is not sent on, one that was sent on under an
identifier that can be the value of a field is not sent on again, and so a request is sent on at
most once if all identifiers can. Each other identifier may have a request of a client sent on
again. -/
theorem forwarded_once (w : Fleet ι σ) (n : ℕ) (p : ι) (token : String) (r : Request)
    (x : σ × List (Deed ι)) :
    (∃ deeds, (w.visit n p token r x).2.2 = x.2 ++ deeds ∧
      (r.isFromPeer = true → deeds.countP Deed.isForwarded = 0) ∧
      (∀ (before : List (Deed ι)) place sender request later,
        deeds = before ++ .forwarded place sender request :: later →
          Headers.isValue sender.text = true → later.countP Deed.isForwarded = 0) ∧
      ((∀ q state, Headers.isValue (w.node q state).load.nodeId.text = true) →
        deeds.countP Deed.isForwarded ≤ 1)) ∧
    ∀ id : NodeId, Headers.isValue id.text = false → 1 < n →
      1 < (pingPong.visit n false "" inquiry (partners id, [])).2.2.countP Deed.isForwarded := by
  refine ⟨?_, fun id => countP_isForwarded_pingPong⟩
  obtain ⟨deeds, hdeeds, hcourse⟩ := Fleet.visit_follows (w := w) n p token r x
  refine ⟨deeds, hdeeds, fun hmarked => ?_, fun _ _ _ _ _ hsplit hvalue =>
    hcourse.countP_isForwarded_later hsplit hvalue, fun hids => hcourse.countP_isForwarded_le hids⟩
  rw [hmarked] at hcourse
  exact hcourse.countP_isForwarded_of_marked

/-- A request that starts at the node whose identifier has a control character is sent on twice, one
that starts at the other node is not sent back, and a marked one is not sent on. Where both
identifiers can be the value of a field no request is sent on twice. -/
theorem forwarded_once_unprintable :
    Headers.isValue "a\x01" = false ∧
    1 < (pingPong.visit 3 false "" inquiry (partners ⟨"a\x01"⟩, [])).2.2.countP Deed.isForwarded ∧
    (∃ request later, (pingPong.visit 3 true "" inquiry (partners ⟨"a\x01"⟩, [])).2.2 =
      .forwarded true ⟨"b"⟩ request :: later ∧ later.countP Deed.isForwarded = 0) ∧
    (∃ deeds, (pingPong.visit 3 false "" { inquiry with headers := [(fromPeerField, "c")] }
      (partners ⟨"a\x01"⟩, [])).2.2 = [] ++ deeds ∧ deeds.countP Deed.isForwarded = 0) ∧
    ∃ deeds, ({ pingPong with node := fun p _ => partners ⟨"a"⟩ p }.visit 3 false "" inquiry
      (partners ⟨"a"⟩, [])).2.2 = [] ++ deeds ∧ deeds.countP Deed.isForwarded ≤ 1 := by
  have hid : Headers.isValue "a\x01" = false := by decide
  refine ⟨hid, (forwarded_once pingPong 3 false "" inquiry (partners ⟨"a\x01"⟩, [])).2 _ hid
    (by omega), ?_, ?_, ?_⟩
  · obtain ⟨headers, nodes, -, -, hfirst⟩ := visit_pingPong 2 "" [] (p := true) (r := inquiry)
      (by decide) (show partners ⟨"a\x01"⟩ true = _ from rfl) rfl rfl rfl (Nat.zero_le _)
    obtain ⟨later, hlater, -⟩ := Fleet.visit_follows (w := pingPong) 2 (!true) ""
      { inquiry with headers } (nodes, [.forwarded true ⟨"b"⟩ { inquiry with headers }])
    have hrecord := hfirst.trans hlater
    obtain ⟨⟨deeds, hdeeds, -, hsplit, -⟩, -⟩ := forwarded_once pingPong 3 true "" inquiry
      (partners ⟨"a\x01"⟩, [])
    refine ⟨_, later, hrecord, ?_⟩
    exact hsplit [] true ⟨"b"⟩ _ later (hdeeds.symm.trans hrecord) (by decide)
  · obtain ⟨⟨deeds, hdeeds, hmarked, -⟩, -⟩ := forwarded_once pingPong 3 false ""
      { inquiry with headers := [(fromPeerField, "c")] } (partners ⟨"a\x01"⟩, [])
    exact ⟨deeds, hdeeds, hmarked (by decide)⟩
  · obtain ⟨⟨deeds, hdeeds, -, -, hle⟩, -⟩ := forwarded_once
      { pingPong with node := fun p _ => partners ⟨"a"⟩ p } 3 false "" inquiry (partners ⟨"a"⟩, [])
    refine ⟨deeds, hdeeds, hle fun q _ => ?_⟩
    cases q with
    | false => exact (by decide : Headers.isValue "a" = true)
    | true => exact (by decide : Headers.isValue "b" = true)

/-- A request of a client may be sent on more than once. -/
theorem not_forwarded_at_most_once :
    ¬ ∀ {ι σ : Type} (w : Fleet ι σ) (n : ℕ) (p : ι) (token : String) (r : Request) (state : σ),
      r.isFromPeer = false →
        (w.visit n p token r (state, [])).2.2.countP Deed.isForwarded ≤ 1 := by
  intro h
  have honce := h pingPong 2 false "" inquiry (partners ⟨"a\x01"⟩) rfl
  have htwice : 1 < (pingPong.visit 2 false "" inquiry
      (partners ⟨"a\x01"⟩, [])).2.2.countP Deed.isForwarded :=
    countP_isForwarded_pingPong (by decide) (by decide)
  omega

end PeerGateway
