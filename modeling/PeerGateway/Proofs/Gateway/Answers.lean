import PeerGateway.Control.Answer
import PeerGateway.Gateway.Daemon
import PeerGateway.Proofs.Gateway.Selection
import PeerGateway.Proofs.Gateway.Tracking
import PeerGateway.Proofs.Load.Bounds
import PeerGateway.Proofs.Message.Finite
import PeerGateway.Proofs.Schema.Retold
import PeerGateway.Settings.File

/-!
# What is read of a gateway's answers

The command line reads the answers of a gateway with the schemas that they are written with, so it
reads what was told, its numbers as their texts are read, unless one that must be there is not
finite. In a node that runs from settings (`Tracking.isBounded_after`) only the total of a score and
the threshold may be so. `Gateway.answers_read` says for each of the four answers when it is read.
-/

namespace PeerGateway

open Http

/-! ## Reports retold -/

/-- What a schema reads in the body of an answer. -/
def Http.Response.readAs (r : Response) (s : Schema) : Except Json.Fault s.Value :=
  s.parse r.body.toList

theorem Http.Response.readAs_ofJson {s : Schema} (hs : s.IsSound) (v : s.Value) :
    (ofJson (s.bytes v)).readAs s =
      if s.isTold v then .ok (s.retold v) else .error .mismatched := by
  rw [readAs, toList_body_ofJson, Schema.parse_bytes_eq_ite hs]

namespace Score

/-- A score as it is read. -/
def retold (s : Score) : Score :=
  ⟨s.cpu.retold, s.memory.retold, s.rps.retold, s.latency.retold, s.total.retold⟩

/-- Every number of a score is finite. -/
def isFinite (s : Score) : Bool :=
  s.cpu.isFinite && s.memory.isFinite && s.rps.isFinite && s.latency.isFinite && s.total.isFinite

theorem SharesAreBounded.isFinite_eq {s : Score} (h : s.SharesAreBounded) :
    s.isFinite = s.total.isFinite := by
  simp [Score.isFinite, h.cpu.isFinite, h.memory.isFinite, h.rps.isFinite, h.latency.isFinite]

theorem isTold_value (s : Score) : Score.schema.isTold s.value = s.isFinite := by
  simp [Schema.isTold, Fields.isTold, Presence.isTold, value, isFinite, Bool.and_assoc]

theorem retold_value (s : Score) : Score.schema.retold s.value = s.retold.value := rfl

end Score

namespace Snapshot

/-- A snapshot as it is read. -/
def retold (m : Snapshot) : Snapshot :=
  { m with
    cpuUsage := m.cpuUsage.retold
    memoryUsage := m.memoryUsage.retold
    requestsPerSec := m.requestsPerSec.retold
    averageLatencyMs := m.averageLatencyMs.retold
    errorRate := m.errorRate.retold }

theorem isTold_value (m : Snapshot) : Snapshot.schema.isTold m.value = m.isFinite := by
  simp [Schema.isTold, Fields.isTold, Presence.isTold, value, isFinite, Bool.and_assoc]

theorem retold_value (m : Snapshot) : Snapshot.schema.retold m.value = m.retold.value := rfl

end Snapshot

/-- A status as it is read. -/
def StatusReport.retold (r : StatusReport) : StatusReport :=
  { r with ownScore := r.ownScore.retold, scoreThreshold := r.scoreThreshold.retold }

/-- A report of a peer as it is read. -/
def PeerReport.retold (r : PeerReport) : PeerReport :=
  { r with rttMs := r.rttMs.map Binary64.retold, score := r.score.retold }

/-- A report of loads as it is read. -/
def LoadReport.retold (r : LoadReport) : LoadReport := ⟨r.here.retold, r.peers.map Snapshot.retold⟩

/-- A report of scores as it is read. -/
def ScoreReport.retold (r : ScoreReport) : ScoreReport :=
  ⟨r.here.retold, r.peers.map fun p => (p.1, p.2.retold)⟩

theorem StatusReport.isTold_value (r : StatusReport) :
    StatusReport.schema.isTold r.value = (r.ownScore.isFinite && r.scoreThreshold.isFinite) := by
  simp [Schema.isTold, Fields.isTold, Presence.isTold, value, PeerTally.value, Score.value,
    Score.isFinite, Bool.and_assoc]

theorem StatusReport.retold_value (r : StatusReport) :
    StatusReport.schema.retold r.value = r.retold.value :=
  rfl

theorem LoadReport.isTold_value (r : LoadReport) :
    LoadReport.schema.isTold r.value = (r.here.isFinite && r.peers.all Snapshot.isFinite) := by
  have hpeers : (r.peers.map Snapshot.value).all Snapshot.schema.isTold =
      r.peers.all Snapshot.isFinite := by
    rw [List.all_map]
    exact congrArg _ (funext Snapshot.isTold_value)
  show (Snapshot.schema.isTold r.here.value && (_ && true)) = _
  rw [Snapshot.isTold_value, Bool.and_true]
  exact congrArg _ hpeers

theorem LoadReport.retold_value (r : LoadReport) :
    LoadReport.schema.retold r.value = r.retold.value := by
  simp only [LoadReport.retold, LoadReport.value, List.map_map]
  show (_, (r.peers.map Snapshot.value).map Snapshot.schema.retold, ()) = _
  rw [List.map_map]
  rfl

theorem ScoreReport.isTold_value (r : ScoreReport) :
    ScoreReport.schema.isTold r.value = (r.here.isFinite && r.peers.all fun p => p.2.isFinite) := by
  have hpeers : (r.peers.map fun p => (p.1, p.2.value, ())).all ScoredPeer.schema.isTold =
      r.peers.all fun p => p.2.isFinite := by
    rw [List.all_map]
    refine congrArg _ (funext fun p => ?_)
    show (true && (Score.schema.isTold p.2.value && true)) = _
    rw [Score.isTold_value, Bool.and_true, Bool.true_and]
  show (Score.schema.isTold r.here.value && (_ && true)) = _
  rw [Score.isTold_value, Bool.and_true]
  exact congrArg _ hpeers

theorem ScoreReport.retold_value (r : ScoreReport) :
    ScoreReport.schema.retold r.value = r.retold.value := by
  simp only [ScoreReport.retold, ScoreReport.value, List.map_map]
  show (_, (r.peers.map fun p => (p.1, p.2.value, ())).map ScoredPeer.schema.retold, ()) = _
  rw [List.map_map]
  rfl

namespace PeerReport

variable {r : PeerReport}

theorem isTold_value (h : ∀ x ∈ r.rttMs, x.isFinite = true) :
    PeerReport.schema.isTold r.value = r.score.isFinite := by
  cases hrtt : r.rttMs with
  | none => simp [Schema.isTold, Fields.isTold, Presence.isTold, value, hrtt]
  | some x =>
    have hx := h x hrtt
    simp [Schema.isTold, Fields.isTold, Presence.isTold, value, hrtt, hx]

theorem retold_value (h : ∀ x ∈ r.rttMs, x.isFinite = true) :
    PeerReport.schema.retold r.value = r.retold.value := by
  have hseen : ∀ n : UInt64, Schema.word64.bytes n ≠ Json.nullText := fun n =>
    Schema.word64.bytes_ne_null n trivial
  have htext : ∀ t : String, Schema.text.bytes t ≠ Json.nullText := fun t =>
    Schema.text.bytes_ne_null t trivial
  have hrtt : ∀ x ∈ r.rttMs, Schema.real.bytes x ≠ Json.nullText := fun x hx =>
    Binary64.realText_ne_null (h x hx)
  simp only [Schema.retold, Fields.retold, value, retold, Presence.retold_nullable hrtt,
    Presence.retold_nullable fun n _ => hseen n, Presence.retold_nullable fun t _ => htext t]
  simp [Presence.retold]

end PeerReport

/-! ## The threshold -/

/-- Of all thresholds only infinity leaves a gateway with one that is not finite. -/
theorem Binary64.isFinite_atLeast_zero (x : Binary64) :
    (x.atLeast 0).isFinite = decide (x ≠ infinity) := by
  unfold atLeast
  split_ifs with hpos
  · simp only [lt, Bool.and_eq_true, Bool.not_eq_true', decide_eq_true_eq] at hpos
    obtain ⟨⟨-, hnan⟩, hpos⟩ := hpos
    have hzero : (0 : Binary64).place = 0 := by decide +kernel
    rw [hzero, place] at hpos
    have hneg : x.negative = false := by
      cases hneg : x.negative with
      | false => rfl
      | true => rw [hneg, if_pos rfl] at hpos; omega
    have hword : x.bits.toNat = x.magnitude := by
      have hlt : x.bits.toNat < signWeight := Nat.lt_of_not_le (of_decide_eq_false hneg)
      exact (Nat.mod_eq_of_lt hlt).symm
    have hle : x.magnitude ≤ infiniteMagnitude := Nat.le_of_not_lt (of_decide_eq_false hnan)
    refine decide_eq_decide.mpr ⟨?_, fun hne => ?_⟩
    · rintro hlt rfl
      exact absurd hlt (by decide)
    · refine Nat.lt_of_le_of_ne hle fun heq => hne ?_
      have hbits : x.bits = infinity.bits :=
        UInt64.toNat_inj.mp (hword.trans (heq.trans (by decide)))
      cases x
      exact congrArg mk hbits
  · have hfinite : (0 : Binary64).isFinite = true := by decide +kernel
    rw [hfinite]
    refine (decide_eq_true ?_).symm
    rintro rfl
    exact hpos (by decide +kernel)

/-! ## Nodes that run -/

/-- The numbers of a snapshot that comes in a message are finite. -/
theorem Snapshot.isFinite_of_ofBytes {text : Bytes} {m : Snapshot}
    (h : Message.ofBytes text = .ok (.metrics m)) : m.isFinite = true := by
  have hnumbers := Message.numbersAreFinite_of_ofBytes h
  simpa [Message.NumbersAreFinite, Message.numbers, isFinite, and_assoc] using hnumbers

namespace Tracking

/-- What a node hears comes in messages: the snapshot of a peer was read from a text, and its round
trip took a span that fits. -/
def Event.IsHeard : Event → Prop
  | .updates m latency _ => (∃ text, Message.ofBytes text = .ok (.metrics m)) ∧ latency.Fits
  | _ => True

theorem isBounded_of_call? {x : Tracking} {e : Event} (he : e.IsHeard) {call : LoadRecord.Event}
    (h : x.call? e = some call) : call.IsBounded := by
  have hrelease : ∀ guard now, releaseCall? guard now = some call → call.IsBounded := by
    intro guard now hcall
    unfold releaseCall? at hcall
    split_ifs at hcall
    exact Option.some.inj hcall ▸ trivial
  cases e with
  | arrives | directs => cases h
  | purges now => exact Option.some.inj h ▸ trivial
  | updates m latency now =>
    obtain rfl := Option.some.inj h
    obtain ⟨⟨text, htext⟩, hlatency⟩ := he
    exact ⟨Snapshot.isFinite_of_ofBytes htext, hlatency⟩
  | begins k now =>
    simp only [call?] at h
    split at h
    · exact Option.some.inj h ▸ trivial
    · cases h
  | returns k answer now =>
    simp only [call?] at h
    split at h
    · exact Option.some.inj h ▸ trivial
    · cases h
  | goes k now =>
    simp only [call?] at h
    split at h
    · exact hrelease _ _ h
    · exact hrelease _ _ h
    · cases h

/-- What the record is told in a run, in order. -/
def calls : Tracking → List Event → List LoadRecord.Event
  | _, [] => []
  | x, e :: events => (x.call? e).toList ++ calls (x.step e) events

theorem load_after (x : Tracking) (events : List Event) :
    (x.after events).node.load = x.node.load.run (x.calls events) := by
  induction events generalizing x with
  | nil => rfl
  | cons e events ih =>
    rw [after_cons, ih, load_step, calls]
    cases x.call? e <;> rfl

theorem isBounded_of_mem_calls {x : Tracking} {events : List Event}
    (hevents : ∀ e ∈ events, e.IsHeard) : ∀ call ∈ x.calls events, call.IsBounded := by
  induction events generalizing x with
  | nil => simp [calls]
  | cons e events ih =>
    obtain ⟨he, hevents⟩ := List.forall_mem_cons.mp hevents
    intro call hcall
    rcases List.mem_append.mp hcall with hcall | hcall
    · exact isBounded_of_call? he (Option.mem_toList.mp hcall)
    · exact ih hevents call hcall

theorem isBounded_after {x : Tracking} {events : List Event} (h : x.node.load.IsBounded)
    (hevents : ∀ e ∈ events, e.IsHeard) : (x.after events).node.load.IsBounded := by
  rw [load_after]
  exact h.run (isBounded_of_mem_calls hevents)

end Tracking

theorem Settings.secs_window (s : Settings) : s.window.secs = max s.windowSecs.toNat 1 :=
  Nat.mul_div_cancel _ (by decide)

theorem Settings.isBounded_node (s : Settings) (fresh : NodeId) {host : HostLoad}
    (hhost : host.InRange) : (s.node fresh host).load.IsBounded where
  host := hhost
  window_secs := s.secs_window ▸ Nat.le_max_right _ _
  window_fits := by
    show s.window.secs < UInt64.size
    rw [s.secs_window]
    exact Nat.max_lt.mpr ⟨s.windowSecs.toNat_lt, by decide⟩
  snapshots id m hm := by simp [LoadRecord.snapshotOf?, node] at hm
  latencies id d hd := by simp [LoadRecord.latencyOf?, node] at hd

theorem Settings.fit_totals_node (s : Settings) (fresh : NodeId) (host : HostLoad)
    (now : WallTime) : ((s.node fresh host).load.totals now).Fit :=
  ⟨show 0 < UInt64.size by decide, show Span.Fits 0 by decide⟩

/-! ## Answers -/

namespace Gateway

section Answers

variable {g : Gateway} {n : Node} {now : Moment}

theorem readAs_metrics (h : n.load.IsBounded) (hfit : (n.load.totals now.wall).Fit) :
    (g.ask n .metrics "GET" now).2.readAs LoadReport.schema =
      .ok (loadReport n now).retold.value := by
  have hpeers : n.load.peerSnapshots.all Snapshot.isFinite = true := by
    refine List.all_eq_true.mpr fun m hm => ?_
    obtain ⟨⟨id, m⟩, hmem, rfl⟩ := List.mem_map.mp hm
    exact h.snapshots id m (Std.ExtTreeMap.mem_toList_iff_getElem?_eq_some.mp hmem)
  have htold : LoadReport.schema.isTold (loadReport n now).value = true := by
    rw [LoadReport.isTold_value, loadReport, h.isFinite_snapshot hfit, hpeers, Bool.and_true]
  rw [ask, Response.readAs_ofJson (by simp), if_pos htold, LoadReport.retold_value]

theorem readAs_status (h : n.load.IsBounded) (hfit : (n.load.totals now.wall).Fit) :
    (g.ask n .status "GET" now).2.readAs StatusReport.schema =
      if (n.load.ownScore now.wall).total.isFinite && g.rule.threshold.isFinite then
        .ok (g.statusReport n now).retold.value
      else .error .mismatched := by
  rw [ask, Response.readAs_ofJson (by simp), StatusReport.isTold_value, StatusReport.retold_value,
    statusReport, (h.shares_ownScore hfit).isFinite_eq]

theorem readAs_peers (h : n.load.IsBounded) :
    (g.ask n .peers "GET" now).2.readAs PeersReport.schema =
      if n.directory.list.all fun e => (n.load.scoreOf e.peer.nodeId).total.isFinite then
        .ok (n.directory.list.map fun e => (peerReport n e now).retold.value, ())
      else .error .mismatched := by
  have hrtt : ∀ e, ∀ x ∈ (peerReport n e now).rttMs, x.isFinite = true := by
    intro e x hx
    obtain ⟨d, hd, rfl⟩ := Option.map_eq_some_iff.mp hx
    have hfits := h.latencies _ d hd
    exact (@Span.isWithin_milliseconds d 64 (by decide) (by decide) hfits.le).isFinite
  have htold : PeersReport.schema.isTold (peersReport n now) =
      n.directory.list.all fun e => (n.load.scoreOf e.peer.nodeId).total.isFinite := by
    show ((n.directory.list.map _).all PeerReport.schema.isTold && true) = _
    rw [List.all_map, Bool.and_true]
    exact congrArg _ (funext fun e => PeerReport.isTold_value (hrtt e))
  have hretold : PeersReport.schema.retold (peersReport n now) =
      (n.directory.list.map fun e => (peerReport n e now).retold.value, ()) := by
    show ((n.directory.list.map _).map PeerReport.schema.retold, ()) = _
    rw [List.map_map]
    have heach := funext fun e => PeerReport.retold_value (hrtt e)
    exact congrArg (·, ()) (congrArg (List.map · _) heach)
  rw [ask, Response.readAs_ofJson (by simp), htold, hretold]

theorem readAs_scores (h : n.load.IsBounded) (hfit : (n.load.totals now.wall).Fit) :
    (g.ask n .scores "GET" now).2.readAs ScoreReport.schema =
      if (n.load.ownScore now.wall).total.isFinite &&
          (ranked n.directory n.load).all fun r => r.2.total.isFinite then
        .ok (scoreReport n now).retold.value
      else .error .mismatched := by
  have hpeers : ((ranked n.directory n.load).map fun r => (r.1.text, r.2)).all (·.2.isFinite) =
      (ranked n.directory n.load).all fun r => r.2.total.isFinite := by
    rw [List.all_map, Bool.eq_iff_iff, List.all_eq_true, List.all_eq_true]
    refine forall₂_congr fun r hr => ?_
    have hshares : r.2.SharesAreBounded := Directory.snd_of_mem_ranked hr ▸ h.shares_scoreOf r.1
    show r.2.isFinite = true ↔ _
    rw [hshares.isFinite_eq]
  rw [ask, Response.readAs_ofJson (by simp), ScoreReport.isTold_value, ScoreReport.retold_value,
    scoreReport, (h.shares_ownScore hfit).isFinite_eq, hpeers]

end Answers

/-- Whatever the settings of a gateway are and whatever its node has heard and answered, the command
line reads its report of loads as it was told, and each of the others unless a total in it is not
finite or, for the status, the threshold is infinite. With weights of magnitude four or less every
total is finite. -/
theorem answers_read (s : Settings) (fresh : NodeId) {host : HostLoad} (hhost : host.InRange)
    (started : Instant) {events : List Tracking.Event} (hheard : ∀ e ∈ events, e.IsHeard)
    (now : Moment)
    (hfit : ((Tracking.after ⟨s.node fresh host, []⟩ events).node.load.totals now.wall).Fit) :
    let g := s.gateway started
    let n := (Tracking.after ⟨s.node fresh host, []⟩ events).node
    let own := (n.load.ownScore now.wall).total
    (g.ask n .metrics "GET" now).2.readAs LoadReport.schema =
      .ok (loadReport n now).retold.value ∧
    (g.ask n .status "GET" now).2.readAs StatusReport.schema =
      (if own.isFinite && decide (s.scoreThreshold ≠ .infinity) then
        .ok (g.statusReport n now).retold.value
      else .error .mismatched) ∧
    (g.ask n .peers "GET" now).2.readAs PeersReport.schema =
      (if n.directory.list.all fun e => (n.load.scoreOf e.peer.nodeId).total.isFinite then
        .ok (n.directory.list.map fun e => (peerReport n e now).retold.value, ())
      else .error .mismatched) ∧
    (g.ask n .scores "GET" now).2.readAs ScoreReport.schema =
      (if own.isFinite && (ranked n.directory n.load).all fun r => r.2.total.isFinite then
        .ok (scoreReport n now).retold.value
      else .error .mismatched) ∧
    (s.weights.AreModerate →
      own.isFinite = true ∧ ∀ id, (n.load.scoreOf id).total.isFinite = true) := by
  intro g n own
  have hbounded : n.load.IsBounded := Tracking.isBounded_after (s.isBounded_node fresh hhost) hheard
  have hthreshold : g.rule.threshold.isFinite = decide (s.scoreThreshold ≠ .infinity) :=
    Binary64.isFinite_atLeast_zero s.scoreThreshold
  refine ⟨readAs_metrics hbounded hfit, ?status, readAs_peers hbounded, readAs_scores hbounded hfit,
    fun hmoderate => ?totals⟩
  case status => rw [readAs_status hbounded hfit, hthreshold]
  case totals =>
    have hweights : n.load.weights.AreModerate := by
      rw [Tracking.load_after, (LoadRecord.sameNode_run _ _).weights]
      exact hmoderate
    exact ⟨hbounded.isFinite_total_ownScore hfit hweights,
      hbounded.isFinite_total_scoreOf hweights⟩

/-- A peer of which a snapshot has come, and a request that took two seconds. -/
def onePeer : List Tracking.Event :=
  [.directs ⟨⟨"n"⟩, "n:7400", 8, .ofList
      [(⟨"p"⟩, ⟨⟨⟨"p"⟩, "p:7400", true⟩, .connected, 0, none⟩)] compare⟩,
    .updates ⟨⟨"p"⟩, "p:8080", 50, 50, 10, 20, 1, 0, 0⟩ 3000000 0,
    .arrives "a" { target := ⟨"", "/a", none⟩ }, .begins 0 0,
    .returns 0 { status := 200 } 2000000000]

/-- With the default settings all answers are read. -/
theorem answers_read_onePeer :
    (⟨50, 50⟩ : HostLoad).InRange ∧ (∀ e ∈ onePeer, e.IsHeard) ∧
    (let g := Settings.default.gateway 0
    let n := (Tracking.after ⟨Settings.default.node ⟨"n"⟩ ⟨50, 50⟩, []⟩ onePeer).node
    let now : Moment := ⟨0, 3000000000⟩
    (n.load.totals now.wall).Fit ∧
    (g.ask n .metrics "GET" now).2.readAs LoadReport.schema =
      .ok (loadReport n now).retold.value ∧
    (g.ask n .status "GET" now).2.readAs StatusReport.schema =
      .ok (g.statusReport n now).retold.value ∧
    (g.ask n .peers "GET" now).2.readAs PeersReport.schema =
      .ok (n.directory.list.map fun e => (peerReport n e now).retold.value, ()) ∧
    (g.ask n .scores "GET" now).2.readAs ScoreReport.schema =
      .ok (scoreReport n now).retold.value) := by
  have hhost : (⟨50, 50⟩ : HostLoad).InRange := by decide +kernel
  have hheard : ∀ e ∈ onePeer, e.IsHeard := by
    have htext : Message.ofBytes (Message.bytes
        (.metrics ⟨⟨"p"⟩, "p:8080", 50, 50, 10, 20, 1, 0, 0⟩)) =
          .ok (.metrics ⟨⟨"p"⟩, "p:8080", 50, 50, 10, 20, 1, 0, 0⟩) := by decide +kernel
    simp only [onePeer, List.forall_mem_cons]
    exact ⟨trivial, ⟨⟨_, htext⟩, by decide⟩, trivial, trivial, trivial, by simp⟩
  have hfit : ((Tracking.after ⟨Settings.default.node ⟨"n"⟩ ⟨50, 50⟩, []⟩ onePeer).node.load.totals
      3000000000).Fit := by
    have htotals : (Tracking.after ⟨Settings.default.node ⟨"n"⟩ ⟨50, 50⟩, []⟩
        onePeer).node.load.totals 3000000000 = ⟨1, 0, 2000000000⟩ := by decide +kernel
    rw [htotals]
    exact ⟨by decide, by decide⟩
  obtain ⟨hmetrics, hstatus, hpeers, hscores, htotals⟩ :=
    answers_read .default ⟨"n"⟩ hhost 0 hheard ⟨0, 3000000000⟩ hfit
  obtain ⟨hown, hpeer⟩ := htotals Weights.areModerate_default
  refine ⟨hhost, hheard, hfit, hmetrics, ?_, ?_, ?_⟩
  · rw [hstatus, if_pos]
    rw [hown, Bool.true_and]
    decide +kernel
  · rw [hpeers, if_pos (List.all_eq_true.mpr fun e _ => hpeer e.peer.nodeId)]
  · rw [hscores, if_pos]
    rw [hown, Bool.true_and, List.all_eq_true]
    exact fun r hr => Directory.snd_of_mem_ranked hr ▸ hpeer r.1

/-- A threshold that the settings may have makes the command line fail. -/
theorem not_answers_read :
    ¬ ∀ env files s, Settings.load env files = .ok s →
      ∀ (fresh : NodeId) (host : HostLoad), host.InRange → ∀ (started : Instant) (now : Moment),
        ∃ lines, Control.Command.status.read
          ((s.gateway started).ask (s.node fresh host) .status "GET" now).2 = .printed lines := by
  intro h
  have hload : (Settings.load [("GATEMESH_BALANCER__SCORE_THRESHOLD", Bytes.ofString "inf")] []).map
      (·.scoreThreshold) = .ok .infinity := by decide +kernel
  cases hs : Settings.load [("GATEMESH_BALANCER__SCORE_THRESHOLD", Bytes.ofString "inf")] [] with
  | error f => simp [hs, Except.map] at hload
  | ok s =>
    have hinfinite : s.scoreThreshold = .infinity := by simpa [hs, Except.map] using hload
    have hhost : (⟨0, 0⟩ : HostLoad).InRange := by decide +kernel
    have hread := @readAs_status (s.gateway 0) (s.node ⟨"n"⟩ ⟨0, 0⟩) ⟨0, 0⟩
      (s.isBounded_node _ hhost) (s.fit_totals_node _ _ _)
    have hthreshold : (s.gateway 0).rule.threshold.isFinite = false := by
      rw [show (s.gateway 0).rule.threshold = s.scoreThreshold.atLeast 0 from rfl,
        Binary64.isFinite_atLeast_zero, hinfinite]
      rfl
    rw [hthreshold, Bool.and_false, if_neg Bool.false_ne_true, Response.readAs] at hread
    obtain ⟨lines, hlines⟩ := h _ _ s hs ⟨"n"⟩ ⟨0, 0⟩ hhost 0 ⟨0, 0⟩
    simp [Control.Command.read, Control.Command.method, Control.Command.lines?, hread,
      Except.toOption, Control.Outcome.failed, Control.Outcome.printed] at hlines

end Gateway

end PeerGateway
