import PeerGateway.Proofs.Load.Snapshots
import PeerGateway.Proofs.Node.Reached

/-!
# What comes of an exchange

A `Talk` is all that an exchange with a peer comes to hear : the answers to its two messages, or the
errors in their place. A node hears a peer (`Talk.isPonged`) and takes a snapshot from it
(`Talk.told?`) only if the answers have the identifier of that peer, whatever else they say.

Each event of an exchange moves it to the next stage, and does to the node what the talk says
(`Activity.step_talk`). So what an event does to the directory, what it tells the record of load and
whether it concludes the exchange can be read off the talks of the round
(`Activity.directory_effect`, `Activity.load_effect`, `Activity.concludes?_talk`).
-/

namespace PeerGateway

/-- What comes of an exchange : when the ping was sent, the answers to the ping and to the snapshot,
or the errors in their place, and when they came. -/
structure Talk where
  pingedAt : Instant
  pong : Except NetworkError Message
  pongedAt : Moment
  metrics : Except NetworkError Message
  tradedAt : Moment

namespace Talk

/-- The ping was answered by a pong with the identifier of the peer. -/
def isPonged (t : Talk) (p : Peer) : Bool :=
  match t.pong with
  | .ok (.pong beat) => decide (beat.nodeId = p.nodeId)
  | _ => false

/-- The time from the ping to its answer. -/
def roundTrip (t : Talk) : Span := t.pongedAt.steady.since t.pingedAt

/-- The snapshot in the second answer, if it has the identifier of the peer. Its address has the
host of the peer where it has none. -/
def snapshot? (t : Talk) (p : Peer) : Option Snapshot :=
  match t.metrics with
  | .ok (.metrics m) =>
    if m.nodeId = p.nodeId then some { m with address := pinned m.address (hostPart p.address) }
    else none
  | _ => none

/-- The snapshot of a peer that has answered both times under its own identifier. -/
def told? (t : Talk) (p : Peer) : Option Snapshot := if t.isPonged p then t.snapshot? p else none

/-- The events of an exchange. A snapshot is sent only to a peer that has answered the ping. -/
def events (t : Talk) (p : Peer) (k i : ℕ) : List Activity.Event :=
  .pings k i t.pingedAt :: .ponged k i t.pong t.pongedAt ::
    if t.isPonged p then [.traded k i t.metrics t.tradedAt] else []

/-- The stage of an exchange after some of its events. -/
def stage (t : Talk) (p : Peer) : ℕ → Exchange.Stage
  | 0 => .due
  | 1 => .pinged t.pingedAt
  | 2 => if t.isPonged p then .trading t.roundTrip else .over
  | _ => .over

/-- What an event of an exchange does to the node. -/
def effect (t : Talk) (p : Peer) (n : Node) : ℕ → Node
  | 1 =>
    if t.isPonged p then n.withDirectory (n.directory.hear p.nodeId t.pongedAt.steady).2 else n
  | 2 =>
    match t.snapshot? p with
    | some m => n.withLoad (n.load.update m t.roundTrip t.tradedAt.wall)
    | none => n
  | _ => n

variable {t : Talk} {p : Peer} {m : Snapshot} {e : Activity.Event} {k i n : ℕ}

theorem isPonged_of_told? (h : t.told? p = some m) : t.isPonged p = true := by
  unfold told? at h
  split_ifs at h with hponged
  exact hponged

theorem nodeId_of_told? (h : t.told? p = some m) : m.nodeId = p.nodeId := by
  unfold told? snapshot? at h
  split_ifs at h
  split at h
  · split_ifs at h with hid
    obtain rfl := Option.some.inj h
    exact hid
  · cases h

theorem event_cases (h : (t.events p k i)[n]? = some e) :
    (n = 0 ∧ e = .pings k i t.pingedAt) ∨ (n = 1 ∧ e = .ponged k i t.pong t.pongedAt) ∨
      (n = 2 ∧ t.isPonged p = true ∧ e = .traded k i t.metrics t.tradedAt) := by
  unfold events at h
  rcases n with _ | _ | n
  · exact Or.inl ⟨rfl, (Option.some.inj h).symm⟩
  · exact Or.inr (Or.inl ⟨rfl, (Option.some.inj h).symm⟩)
  · refine Or.inr (Or.inr ?_)
    split_ifs at h with hponged
    · rcases n with _ | n
      · exact ⟨rfl, hponged, (Option.some.inj h).symm⟩
      · cases h
    · cases h

theorem stage_length_events : t.stage p (t.events p k i).length = .over := by
  unfold events
  split_ifs with hponged
  · rfl
  · exact if_neg hponged

/-! ## One exchange -/

theorem ponged_of_isPonged (h : t.isPonged p = true) (n : Node) :
    Exchange.ponged p t.pingedAt t.pong n t.pongedAt =
      (.ok t.roundTrip, n.withDirectory (n.directory.hear p.nodeId t.pongedAt.steady).2) := by
  unfold isPonged at h
  split at h
  · rename_i beat hpong
    rw [hpong, Exchange.ponged]
    exact if_pos (of_decide_eq_true h)
  · cases h

theorem exists_ponged_of_not_isPonged (h : t.isPonged p = false) (n : Node) :
    ∃ error, Exchange.ponged p t.pingedAt t.pong n t.pongedAt = (.error error, n) := by
  unfold isPonged at h
  split at h
  · rename_i beat hpong
    rw [hpong, Exchange.ponged, if_neg (of_decide_eq_false h)]
    exact ⟨_, rfl⟩
  · rename_i hother
    unfold Exchange.ponged
    split
    · exact ⟨_, rfl⟩
    · rename_i beat hpong
      exact absurd hpong (hother beat)
    · exact ⟨_, rfl⟩

theorem traded_of_snapshot? (h : t.snapshot? p = some m) (n : Node) :
    Exchange.traded p t.roundTrip t.metrics n t.tradedAt =
      (.ok (), n.withLoad (n.load.update m t.roundTrip t.tradedAt.wall)) := by
  unfold snapshot? at h
  split at h
  · rename_i told hmetrics
    split_ifs at h with hid
    obtain rfl := Option.some.inj h
    rw [hmetrics, Exchange.traded]
    exact if_pos hid
  · cases h

theorem exists_traded_of_snapshot? (h : t.snapshot? p = none) (n : Node) :
    ∃ error, Exchange.traded p t.roundTrip t.metrics n t.tradedAt = (.error error, n) := by
  unfold snapshot? at h
  split at h
  · rename_i told hmetrics
    split_ifs at h with hid
    rw [hmetrics, Exchange.traded, if_neg hid]
    exact ⟨_, rfl⟩
  · rename_i hother
    unfold Exchange.traded
    split
    · exact ⟨_, rfl⟩
    · rename_i told hmetrics
      exact absurd hmetrics (hother told)
    · exact ⟨_, rfl⟩

end Talk

namespace Activity

variable {x y : Activity} {t : Talk} {p : Peer} {e : Event} {k i n : ℕ}

/-- An event of an exchange moves it to the next stage, and does to the node what it does. -/
theorem step_talk (hexchange : y.exchange? k i = some ⟨p, t.stage p n⟩)
    (he : (t.events p k i)[n]? = some e) :
    y.step e = (y.withNode (t.effect p y.node n)).setStage k i (t.stage p (n + 1)) := by
  rcases Talk.event_cases he with ⟨rfl, rfl⟩ | ⟨rfl, rfl⟩ | ⟨rfl, hponged, rfl⟩
  · simp only [step, hexchange, Talk.stage]
    rfl
  · have hstage : y.exchange? k i = some ⟨p, .pinged t.pingedAt⟩ := hexchange
    cases hponged : t.isPonged p with
    | true => simp [step, hstage, Talk.ponged_of_isPonged hponged, Talk.effect, Talk.stage, hponged]
    | false =>
      obtain ⟨error, herror⟩ := Talk.exists_ponged_of_not_isPonged hponged y.node
      simp [step, hstage, herror, Talk.effect, Talk.stage, hponged]
  · have hstage : y.exchange? k i = some ⟨p, .trading t.roundTrip⟩ := by
      rw [hexchange, Talk.stage, if_pos hponged]
    cases hm : t.snapshot? p with
    | some m => simp [step, hstage, Talk.traded_of_snapshot? hm, Talk.effect, Talk.stage, hm]
    | none =>
      obtain ⟨error, herror⟩ := Talk.exists_traded_of_snapshot? hm y.node
      simp [step, hstage, herror, Talk.effect, Talk.stage, hm]

/-! ## What events make of the answers -/

section Answers

variable {talks : List (Peer × Talk)}

/-- What an event does to the directory. -/
def heard? (talks : List (Peer × Talk)) : Event → Option Directory.Operation
  | .ponged _ i _ _ =>
    (talks[i]?.filter fun c => c.2.isPonged c.1).map fun c =>
      .hear c.1.nodeId c.2.pongedAt.steady
  | _ => none

/-- What an event tells the record of load. -/
def told? (talks : List (Peer × Talk)) : Event → Option LoadRecord.Event
  | .traded _ i _ _ =>
    talks[i]?.bind fun c => (c.2.told? c.1).map fun m =>
      .update m c.2.roundTrip c.2.tradedAt.wall
  | _ => none

/-- The exchange that an event concludes. -/
def concluded? (talks : List (Peer × Talk)) : Event → Option (Peer × Talk)
  | .ponged _ i _ _ => talks[i]?.filter fun c => !c.2.isPonged c.1
  | .traded _ i _ _ => talks[i]?
  | _ => none

/-- The peer with which an event concludes an exchange of a round, and what came of it. -/
def concludes? (k : ℕ) (x : Activity) : Event → Option (NodeId × Except NetworkError Unit)
  | .ponged l i reply now =>
    match x.exchange? l i with
    | some ⟨peer, .pinged sentAt⟩ =>
      match (Exchange.ponged peer sentAt reply x.node now).1 with
      | .ok _ => none
      | .error e => if l = k then some (peer.nodeId, .error e) else none
    | _ => none
  | .traded l i reply now =>
    match x.exchange? l i with
    | some ⟨peer, .trading roundTrip⟩ =>
      if l = k then some (peer.nodeId, (Exchange.traded peer roundTrip reply x.node now).1)
      else none
    | _ => none
  | _ => none

theorem directory_effect (hi : talks[i]? = some (p, t)) (he : (t.events p k i)[n]? = some e)
    (node : Node) :
    (t.effect p node n).directory = node.directory.after (heard? talks e).toList := by
  rcases Talk.event_cases he with ⟨rfl, rfl⟩ | ⟨rfl, rfl⟩ | ⟨rfl, -, rfl⟩
  · rfl
  · have hheard : heard? talks (.ponged k i t.pong t.pongedAt) =
        if t.isPonged p then some (.hear p.nodeId t.pongedAt.steady) else none := by
      rw [heard?, hi, Option.filter_some]
      split_ifs <;> rfl
    rw [hheard, Talk.effect]
    split_ifs <;> rfl
  · simp only [Talk.effect]
    split <;> rfl

theorem load_effect (hi : talks[i]? = some (p, t)) (he : (t.events p k i)[n]? = some e)
    (node : Node) : (t.effect p node n).load = node.load.run (told? talks e).toList := by
  rcases Talk.event_cases he with ⟨rfl, rfl⟩ | ⟨rfl, rfl⟩ | ⟨rfl, hponged, rfl⟩
  · rfl
  · simp only [Talk.effect]
    split_ifs <;> rfl
  · have htold : told? talks (.traded k i t.metrics t.tradedAt) =
        (t.snapshot? p).map fun m => .update m t.roundTrip t.tradedAt.wall := by
      rw [told?, hi, Option.bind_some, Talk.told?, if_pos hponged]
    rw [htold, Talk.effect]
    cases t.snapshot? p <;> rfl

theorem concludes?_talk (hi : talks[i]? = some (p, t))
    (hexchange : y.exchange? k i = some ⟨p, t.stage p n⟩) (he : (t.events p k i)[n]? = some e) :
    (y.concludes? k e).map (fun r => (r.1, r.2.isOk)) =
      (concluded? talks e).map fun c => (c.1.nodeId, (c.2.told? c.1).isSome) := by
  rcases Talk.event_cases he with ⟨rfl, rfl⟩ | ⟨rfl, rfl⟩ | ⟨rfl, hponged, rfl⟩
  · rfl
  · have hstage : y.exchange? k i = some ⟨p, .pinged t.pingedAt⟩ := hexchange
    cases hponged : t.isPonged p with
    | true =>
      simp [concludes?, concluded?, hstage, hi, hponged, Talk.ponged_of_isPonged hponged]
    | false =>
      obtain ⟨error, herror⟩ := Talk.exists_ponged_of_not_isPonged hponged y.node
      simp [concludes?, concluded?, hstage, hi, hponged, herror, Talk.told?, Except.isOk,
        Except.toBool]
  · have hstage : y.exchange? k i = some ⟨p, .trading t.roundTrip⟩ := by
      rw [hexchange, Talk.stage, if_pos hponged]
    have htold : t.told? p = t.snapshot? p := if_pos hponged
    cases hm : t.snapshot? p with
    | some m =>
      simp [concludes?, concluded?, hstage, hi, htold, hm, Talk.traded_of_snapshot? hm,
        Except.isOk, Except.toBool]
    | none =>
      obtain ⟨error, herror⟩ := Talk.exists_traded_of_snapshot? hm y.node
      simp [concludes?, concluded?, hstage, hi, htold, hm, herror, Except.isOk, Except.toBool]

end Answers

end Activity

end PeerGateway
