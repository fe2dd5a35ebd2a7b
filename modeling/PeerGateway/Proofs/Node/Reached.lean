import PeerGateway.Proofs.Node.Liveness
import PeerGateway.Proofs.Node.Pending
import PeerGateway.Proofs.Time

/-!
# Peers that answer a round

A round counts a peer as reached if both its answers were the peer's own (`Activity.reached`). The
first of them is a sign of life at the instant at which it arrives (`Activity.exists_pong`), and the
second is none. But the round sweeps the directory only when its slowest exchange is over, and a
sweep asks how long ago each peer was heard.

So a peer that was reached may be stale after the round (`Activity.not_reached_connected`), and
`Activity.reached_connected_iff` says exactly when it is connected.
-/

namespace PeerGateway

/-! ## One sweep -/

namespace Directory

variable {d : Directory} {j : NodeId} {now t : Instant} {window grace : Span}

/-- A sweep spares a connected peer exactly if it was heard less than a window ago. -/
theorem spared_iff : ((d.sweep now window grace).2.stateOf? j = some .connected ∧
      j ∉ (d.sweep now window grace).1.map Transition.nodeId) ↔
    ∃ t, d.heardAt? j = some t ∧ now.since t < window := by
  rw [mem_map_nodeId_sweep_iff, not_not, stateOf?]
  constructor
  · rintro ⟨hstate, hsame⟩
    rw [hsame] at hstate
    obtain ⟨e, he, hconnected⟩ := Option.map_eq_some_iff.mp hstate
    refine ⟨e.lastSeen, heardAt?_eq_some_iff.mpr ⟨e, he, hconnected, rfl⟩, ?_⟩
    rw [find?_sweep, he, Option.bind_some, Entry.swept?_eq_some_iff] at hsame
    obtain ⟨hfate, -⟩ | ⟨-, heq⟩ := hsame
    · exact Nat.not_le.mp ((Entry.fate_eq_stays_iff.mp hfate).2 (by simp [hconnected]))
    · rw [heq] at hconnected
      cases hconnected
  · rintro ⟨t, hheard, hrecent⟩
    obtain ⟨e, he, hconnected, rfl⟩ := heardAt?_eq_some_iff.mp hheard
    have hfate : e.fate now window grace = .stays :=
      Entry.fate_eq_stays_iff.mpr ⟨by simp [hconnected], fun _ => Nat.not_le.mpr hrecent⟩
    have hsame : (d.sweep now window grace).2.find? j = d.find? j := by
      rw [find?_sweep, he, Option.bind_some]
      exact Entry.swept?_eq_some_iff.mpr (Or.inl ⟨hfate, rfl⟩)
    refine ⟨?_, hsame⟩
    rw [hsame, he]
    exact congrArg some hconnected

/-- A sweep makes a connected peer stale that was heard longer ago. -/
theorem stale_of_silent (hheard : d.heardAt? j = some t) (hsilent : window ≤ now.since t) :
    (d.sweep now window grace).2.stateOf? j = some .stale ∧
      .stale j ∈ (d.sweep now window grace).1 := by
  obtain ⟨e, he, hconnected, rfl⟩ := heardAt?_eq_some_iff.mp hheard
  have hfate : e.fate now window grace = .goesStale :=
    Entry.fate_eq_goesStale_iff.mpr ⟨hconnected, hsilent⟩
  refine ⟨?_, stale_mem_sweep_iff.mpr ⟨e, he, hfate⟩⟩
  have hswept : e.swept? now window grace = some (e.moved .stale now) :=
    Entry.swept?_eq_some_iff.mpr (Or.inr ⟨hfate, rfl⟩)
  rw [stateOf?, find?_sweep, he, Option.bind_some, hswept]
  rfl

end Directory

namespace Activity

/-! ## The peers that a round reaches -/

/-- The peer with which an event completes an exchange of a round, if both answers were its own. -/
def reaches? (k : ℕ) (x : Activity) : Event → Option NodeId
  | .traded l i reply now =>
    match x.exchange? l i with
    | some ⟨peer, .trading roundTrip⟩ =>
      if l = k ∧ (Exchange.traded peer roundTrip reply x.node now).1.isOk then some peer.nodeId
      else none
    | _ => none
  | _ => none

/-- The peers that a round counts as reached. -/
def reached (k : ℕ) : Activity → List Event → List NodeId
  | _, [] => []
  | x, e :: events => (x.reaches? k e).toList ++ reached k (x.step e) events

section Exchanges

variable {x : Activity} {e : Event} {events : List Event} {k i : ℕ} {peer : Peer} {p : NodeId}
  {roundTrip : Span}

theorem exists_of_mem_reached (h : p ∈ x.reached k events) : ∃ before e later,
    events = before ++ e :: later ∧ (x.after before).reaches? k e = some p := by
  induction events generalizing x with
  | nil => simp [reached] at h
  | cons e events ih =>
    rcases List.mem_append.mp h with hhere | hlater
    · exact ⟨[], e, events, rfl, Option.mem_toList.mp hhere⟩
    · obtain ⟨before, e', later, rfl, hreaches⟩ := ih hlater
      exact ⟨e :: before, e', later, rfl, hreaches⟩

theorem trading_of_reaches? (h : x.reaches? k e = some p) :
    ∃ i peer roundTrip, x.exchange? k i = some ⟨peer, .trading roundTrip⟩ ∧ peer.nodeId = p := by
  unfold reaches? at h
  split at h
  · rename_i l i reply now
    split at h
    · rename_i peer roundTrip hexchange
      split_ifs at h with hreached
      obtain ⟨rfl, -⟩ := hreached
      exact ⟨i, peer, roundTrip, hexchange, Option.some.inj h⟩
    · cases h
  · cases h

/-- An exchange that is moved on to another stage does not come to trade snapshots by it. -/
theorem trading_of_setStage {l n : ℕ} {stage : Exchange.Stage}
    (hstage : ∀ roundTrip, stage ≠ .trading roundTrip)
    (h : (x.setStage l n stage).exchange? k i = some ⟨peer, .trading roundTrip⟩) :
    x.exchange? k i = some ⟨peer, .trading roundTrip⟩ := by
  rw [exchange?_setStage] at h
  split_ifs at h with hplace
  · obtain ⟨c, -, hc⟩ := Option.map_eq_some_iff.mp h
    injection hc with _ hc
    exact absurd hc (hstage roundTrip)
  · exact h

theorem ponged_eq_ok {sentAt : Instant} {reply : Except NetworkError Message} {n n' : Node}
    {now : Moment} (h : Exchange.ponged peer sentAt reply n now = (.ok roundTrip, n')) :
    ∃ beat, reply = .ok (.pong beat) ∧ beat.nodeId = peer.nodeId := by
  unfold Exchange.ponged at h
  split at h
  · cases h
  · rename_i beat
    split_ifs at h with hid
    · exact ⟨beat, rfl, hid⟩
    · cases h
  · cases h

/-- Only the peer's own answer to the ping lets an exchange come to trade snapshots. -/
theorem trading_of_step (h : (x.step e).exchange? k i = some ⟨peer, .trading roundTrip⟩) :
    x.exchange? k i = some ⟨peer, .trading roundTrip⟩ ∨ x.pongFrom? e = some peer.nodeId := by
  cases e with
  | happens => exact Or.inl h
  | unopened => exact Or.inl h
  | roundBegins =>
    left
    unfold exchange? round? step at h
    dsimp only at h
    rw [List.getElem?_append] at h
    split_ifs at h
    · exact h
    · obtain ⟨round, hround, hc⟩ := Option.bind_eq_some_iff.mp h
      rw [Option.join_eq_some_iff, List.getElem?_singleton] at hround
      split_ifs at hround
      rw [← Option.some.inj (Option.some.inj hround), List.getElem?_map] at hc
      obtain ⟨q, -, hq⟩ := Option.map_eq_some_iff.mp hc
      cases hq
  | pings l n now =>
    left
    unfold step at h
    dsimp only at h
    split at h
    · exact trading_of_setStage (by simp) h
    · exact h
  | ponged l n reply now =>
    unfold step at h
    dsimp only at h
    split at h
    · rename_i q sentAt hexchange
      split at h
      · rename_i time m hponged
        rw [exchange?_setStage] at h
        split_ifs at h with hplace
        · obtain ⟨rfl, rfl⟩ := hplace
          obtain ⟨c, hc, heq⟩ := Option.map_eq_some_iff.mp h
          obtain rfl := Option.some.inj (hexchange.symm.trans hc)
          obtain ⟨beat, rfl, hid⟩ := ponged_eq_ok hponged
          injection heq with hpeer _
          refine Or.inr ?_
          simp only [pongFrom?, hexchange]
          rw [if_pos hid]
          exact congrArg (fun p : Peer => some p.nodeId) hpeer
        · exact Or.inl h
      · exact Or.inl (trading_of_setStage (by simp) h)
    · exact Or.inl h
  | traded l n reply now =>
    left
    unfold step at h
    dsimp only at h
    split at h
    · exact trading_of_setStage (by simp) h
    · exact h
  | roundEnds l now =>
    left
    unfold step at h
    dsimp only at h
    split at h
    · split_ifs at h
      · unfold exchange? round? at h ⊢
        dsimp only at h
        rw [List.getElem?_set] at h
        split_ifs at h
        · simp at h
        · simp at h
        · exact h
      · exact h
    · exact h
  | reserves => exact Or.inl (exchange?_withDirectory _ ▸ h)
  | places => exact Or.inl (exchange?_withDirectory _ ▸ h)
  | confirms => exact Or.inl (exchange?_withDirectory _ ▸ h)
  | releases => exact Or.inl h
  | drops => exact Or.inl (exchange?_withDirectory _ ▸ h)

/-- An exchange that trades snapshots and did not at first had its ping answered meanwhile. -/
theorem exists_pong (hfirst : ∀ roundTrip, x.exchange? k i ≠ some ⟨peer, .trading roundTrip⟩)
    (h : (x.after events).exchange? k i = some ⟨peer, .trading roundTrip⟩) :
    ∃ before answer later, events = before ++ answer :: later ∧
      (x.after before).pongFrom? answer = some peer.nodeId := by
  induction events generalizing x with
  | nil => exact absurd h (hfirst roundTrip)
  | cons e events ih =>
    by_cases htrading : ∃ time, (x.step e).exchange? k i = some ⟨peer, .trading time⟩
    · obtain ⟨time, htrading⟩ := htrading
      have hpong := (trading_of_step htrading).resolve_left (hfirst time)
      exact ⟨[], e, events, rfl, hpong⟩
    · obtain ⟨before, answer, later, rfl, hpong⟩ := ih (not_exists.mp htrading) h
      exact ⟨e :: before, answer, later, rfl, hpong⟩

/-- No exchange of a round that begins trades snapshots. -/
theorem exchange?_begun : (x.step .roundBegins).exchange? x.rounds.length i ≠
    some ⟨peer, .trading roundTrip⟩ := by
  intro h
  have hround : (x.step .roundBegins).round? x.rounds.length =
      some (x.node.directory.known.map (⟨·, .due⟩)) := by
    simp [round?, step]
  rw [exchange?, hround, Option.bind_some, List.getElem?_map] at h
  obtain ⟨q, -, hq⟩ := Option.map_eq_some_iff.mp h
  cases hq

/-- A peer that a round reaches has answered its ping. -/
theorem exists_pong_of_mem_reached (h : p ∈ (x.step .roundBegins).reached x.rounds.length events) :
    ∃ before answer later, events = before ++ answer :: later ∧
      ((x.step .roundBegins).after before).pongFrom? answer = some p := by
  obtain ⟨soon, e, rest, rfl, hreaches⟩ := exists_of_mem_reached h
  obtain ⟨i, peer, roundTrip, htrading, rfl⟩ := trading_of_reaches? hreaches
  obtain ⟨before, answer, later, rfl, hpong⟩ := exists_pong (fun _ => exchange?_begun) htrading
  exact ⟨before, answer, later ++ e :: rest, by simp, hpong⟩

end Exchanges

section Round

variable {x : Activity} {e : Event} {events : List Event} {k : ℕ} {p : NodeId}

/-! ## The policy of a node -/

theorem policy_receive (n : Node) (m : Message) (port : Option UInt16) (now : Moment) :
    (n.receive m port now).node.policy = n.policy := by
  cases m with
  | joinRequest r =>
    simp only [Node.receive, Node.replyToJoin]
    split_ifs
    · cases port <;> rfl
    · rfl
  | leave id =>
    simp only [Node.receive, Node.receiveLeave]
    split <;> rfl
  | _ => rfl

theorem policy_withDirectory (result : Except ProtocolError Directory) :
    (x.withDirectory result).node.policy = x.node.policy := by
  cases result <;> rfl

theorem policy_ponged (peer : Peer) (sentAt : Instant) (reply : Except NetworkError Message)
    (n : Node) (now : Moment) :
    (Exchange.ponged peer sentAt reply n now).2.policy = n.policy := by
  unfold Exchange.ponged
  split
  · rfl
  · split_ifs <;> rfl
  · rfl

theorem policy_traded (peer : Peer) (roundTrip : Span) (reply : Except NetworkError Message)
    (n : Node) (now : Moment) :
    (Exchange.traded peer roundTrip reply n now).2.policy = n.policy := by
  unfold Exchange.traded
  split
  · rfl
  · dsimp only
    split_ifs <;> rfl
  · rfl

/-- The policy of a node is settled from the start. -/
theorem policy_step : (x.step e).node.policy = x.node.policy := by
  cases e with
  | happens event =>
    show (x.toResponder.step event).node.policy = _
    cases event with
    | received m port now => exact policy_receive _ m _ now
    | probed k now =>
      simp only [Responder.step]
      split
      · simp only [Responder.close, Node.holeProbed]
        split <;> rfl
      · rfl
    | expired k =>
      simp only [Responder.step]
      split <;> rfl
  | unopened r now => exact policy_receive _ _ _ now
  | roundBegins => rfl
  | pings k i now =>
    simp only [step]
    split <;> rfl
  | ponged k i reply now =>
    simp only [step]
    split
    · rename_i peer sentAt _
      have hpolicy := policy_ponged peer sentAt reply x.node now
      split <;> rename_i hponged <;> rw [hponged] at hpolicy <;> exact hpolicy
    · rfl
  | traded k i reply now =>
    simp only [step]
    split
    · exact policy_traded _ _ _ _ _
    · rfl
  | roundEnds k now =>
    simp only [step]
    split
    · split_ifs <;> rfl
    · rfl
  | reserves => exact policy_withDirectory _
  | places => exact policy_withDirectory _
  | confirms => exact policy_withDirectory _
  | releases => rfl
  | drops => exact policy_withDirectory _

theorem policy_after : (x.after events).node.policy = x.node.policy := by
  induction events generalizing x with
  | nil => rfl
  | cons e events ih => exact ih.trans policy_step

/-! ## A round -/

/-- What the end of a round comes to, if its exchanges are over. -/
theorem node_roundEnds {exchanges : List OngoingExchange} {now : Moment}
    (hround : x.round? k = some exchanges) (hover : ∀ c ∈ exchanges, c.stage = .over) :
    (x.step (.roundEnds k now)).node = (x.node.closeRound (exchanges.map (·.peer)) now).1 := by
  have hall : (exchanges.all fun c => c.stage = .over) = true :=
    List.all_eq_true.mpr fun c hc => decide_eq_true (hover c hc)
  simp only [step, hround, hall, if_true]
  rfl

theorem exists_instant?_of_pong (hpong : x.pongFrom? e = some p) : ∃ t, e.instant? = some t := by
  unfold pongFrom? at hpong
  split at hpong
  · exact ⟨_, rfl⟩
  · cases hpong

/-- The answer to a ping is a sign of life of a peer that is known. -/
theorem heardAfter_of_pong {t : Option Instant} {t₀ : Instant} (hpong : x.pongFrom? e = some p)
    (hknown : x.knows p = true) (ht₀ : e.instant? = some t₀) : x.heardAfter p t e = some t₀ := by
  have hhears : x.hears p e = true := by simp [hears, connects, pongs, hpong, hknown]
  have hremoves : e.removes p = false := by
    unfold pongFrom? at hpong
    split at hpong
    · rfl
    · cases hpong
  simp [heardAfter, hremoves, hhears, ht₀]

/-- A peer that a round reaches is connected after it, and not in its transitions, exactly if the
last sign of life of it, with no leave of it since, came less than a window before the sweep.

Its answer to the ping is a sign of life if it was still in the directory then. From there on
nothing but a leave, an operator or the end of another round makes it unheard. So it is spared if
the round ends less than a window after that answer. If its last sign of life is longer ago, it is
stale, and in the transitions, however promptly it has answered. -/
theorem reached_connected_iff {exchanges : List OngoingExchange} {now : Moment}
    (hd : x.node.directory.Consistent)
    (hround : ((x.step .roundBegins).after events).round? x.rounds.length = some exchanges)
    (hover : ∀ c ∈ exchanges, c.stage = .over)
    (hreached : p ∈ (x.step .roundBegins).reached x.rounds.length events) :
    let y := (x.step .roundBegins).after events
    let closed := y.node.closeRound (exchanges.map (·.peer)) now
    let heard? := (x.step .roundBegins).lastHeard? p (x.node.directory.heardAt? p) events
    let Spared := closed.1.directory.stateOf? p = some .connected ∧
      p ∉ closed.2.1.map Transition.nodeId
    (y.step (.roundEnds x.rounds.length now)).node = closed.1 ∧
    (Spared ↔ ∃ t, heard? = some t ∧ now.steady.since t < x.node.policy.window) ∧
    ∃ before answer later t₀, events = before ++ answer :: later ∧ answer.instant? = some t₀ ∧
      ((x.step .roundBegins).after before).pongFrom? answer = some p ∧
      (((x.step .roundBegins).after before).knows p = true →
        (∀ e ∈ later, e.removes p = false ∧ e.endsRound = false) →
        ∃ t, heard? = some t ∧ (t = t₀ ∨ t ∈ later.filterMap Event.instant?) ∧
          ((∀ s ∈ later.filterMap Event.instant?, t₀ ≤ s) →
            now.steady.since t₀ < x.node.policy.window → Spared) ∧
          (x.node.policy.window ≤ now.steady.since t →
            closed.1.directory.stateOf? p = some .stale ∧ .stale p ∈ closed.2.1)) := by
  intro y closed heard? Spared
  have hpolicy : y.node.policy = x.node.policy := policy_after.trans policy_step
  have hheard : y.node.directory.heardAt? p = heard? :=
    heardAt?_after (x := x.step .roundBegins) hd
  have hswept : closed.1.directory =
      (y.node.directory.sweep now.steady x.node.policy.window y.node.policy.staleGrace).2 :=
    hpolicy ▸ rfl
  have htransitions : closed.2.1 =
      (y.node.directory.sweep now.steady x.node.policy.window y.node.policy.staleGrace).1 :=
    hpolicy ▸ rfl
  have hspared : Spared ↔ ∃ t, heard? = some t ∧ now.steady.since t < x.node.policy.window := by
    show (closed.1.directory.stateOf? p = _ ∧ p ∉ closed.2.1.map _) ↔ _
    rw [hswept, htransitions, ← hheard]
    exact Directory.spared_iff
  refine ⟨node_roundEnds hround hover, hspared, ?_⟩
  obtain ⟨before, answer, later, rfl, hpong⟩ := exists_pong_of_mem_reached hreached
  obtain ⟨t₀, ht₀⟩ := exists_instant?_of_pong hpong
  refine ⟨before, answer, later, t₀, rfl, ht₀, hpong, fun hknown hkept => ?_⟩
  -- The answer sets the last sign of life, and only later ones replace it.
  have hset := heardAfter_of_pong hpong hknown ht₀
    (t := (x.step .roundBegins).lastHeard? p (x.node.directory.heardAt? p) before)
  obtain ⟨t, hlast, ht⟩ := lastHeard?_of_spared
    (x := ((x.step .roundBegins).after before).step answer) (t := t₀) hkept
  have heq : heard? = some t := by
    show lastHeard? _ _ _ (before ++ answer :: later) = _
    rw [lastHeard?_append, lastHeard?, hset]
    exact hlast
  refine ⟨t, heq, ht, fun horder hsoon => hspared.mpr ⟨t, heq, ?_⟩, fun hsilent => ?_⟩
  · have hle : t₀ ≤ t := ht.elim (fun h => h ▸ Int.le_refl t₀) (horder t)
    exact Nat.lt_of_le_of_lt (Instant.since_le_since hle) hsoon
  · rw [hswept, htransitions]
    exact Directory.stale_of_silent (hheard.trans heq) hsilent

/-- A node with a window of a second that knows two peers. -/
def besideTwo : Activity where
  node := { Mesh.lone ⟨"n"⟩ with
    directory := Directory.after ⟨⟨"n"⟩, "n:7400", 8, ∅⟩
      [.takeIn ⟨⟨"p"⟩, "p:7400", [], false⟩ false 0, .takeIn ⟨⟨"q"⟩, "q:7400", [], false⟩ false 0]
    policy := ⟨Span.ofSecs 1, Span.ofSecs 120, false, 0⟩ }

/-- The readings of both clocks after some milliseconds. -/
def atMillis (millis : ℕ) : Moment := ⟨Span.ofMillis millis, Span.ofMillis millis⟩

/-- In a round of `besideTwo` the peer `p` answers at once and `q` not at all, which is known some
milliseconds later. -/
def answeredByOne (millis : ℕ) : List Event :=
  [.pings 0 0 0, .pings 0 1 0, .ponged 0 0 (.ok (.pong ⟨⟨"p"⟩, 0⟩)) ⟨0, 0⟩,
    .traded 0 0 (.ok (.metrics ⟨⟨"p"⟩, "p:8080", 0, 0, 0, 0, 0, 0, 0⟩)) ⟨0, 0⟩,
    .ponged 0 1 (.error (.timeout (Span.ofMillis millis))) (atMillis millis)]

/-- Both exchanges of that round are over. -/
def bothOver : List OngoingExchange :=
  [⟨⟨⟨"p"⟩, "p:7400", true⟩, .over⟩, ⟨⟨⟨"q"⟩, "q:7400", true⟩, .over⟩]

/-- The node at the end of that round, and what changed. -/
def closedAfter (millis : ℕ) : Node × List Transition × List String :=
  ((besideTwo.step .roundBegins).after (answeredByOne millis)).node.closeRound
    (bothOver.map (·.peer)) (atMillis millis)

theorem consistent_besideTwo : besideTwo.node.directory.Consistent :=
  (Directory.consistent_empty _ _ _).after _

/-- A peer that has answered at once is connected if another one is waited for less than a second,
and stale if it is waited for three. -/
theorem reached_connected_iff_answeredByOne :
    besideTwo.node.directory.Consistent ∧
    ⟨"p"⟩ ∈ (besideTwo.step .roundBegins).reached 0 (answeredByOne 999) ∧
    ⟨"p"⟩ ∈ (besideTwo.step .roundBegins).reached 0 (answeredByOne 3000) ∧
    (closedAfter 999).1.directory.stateOf? ⟨"p"⟩ = some .connected ∧
    ¬ ((closedAfter 3000).1.directory.stateOf? ⟨"p"⟩ = some .connected ∧
      ⟨"p"⟩ ∉ (closedAfter 3000).2.1.map Transition.nodeId) := by
  have hpunctual : ⟨"p"⟩ ∈ (besideTwo.step .roundBegins).reached 0 (answeredByOne 999) := by
    decide +kernel
  have hlate : ⟨"p"⟩ ∈ (besideTwo.step .roundBegins).reached 0 (answeredByOne 3000) := by
    decide +kernel
  refine ⟨consistent_besideTwo, hpunctual, hlate, ?_, fun hspared => ?_⟩
  · have h := @reached_connected_iff _ _ _ bothOver (atMillis 999) consistent_besideTwo
      (by decide +kernel) (by decide) hpunctual
    exact (h.2.1.mpr ⟨0, by decide +kernel, by decide +kernel⟩).1
  · have h := @reached_connected_iff _ _ _ bothOver (atMillis 3000) consistent_besideTwo
      (by decide +kernel) (by decide) hlate
    obtain ⟨t, ht, hrecent⟩ := h.2.1.mp hspared
    have hfirst : (besideTwo.step .roundBegins).lastHeard? ⟨"p"⟩
        (besideTwo.node.directory.heardAt? ⟨"p"⟩) (answeredByOne 3000) = some 0 := by
      decide +kernel
    obtain rfl := Option.some.inj (hfirst.symm.trans ht)
    exact absurd hrecent (by decide +kernel)

/-- A peer that a round reaches need not be connected after it, though its window is a second and it
has not left. -/
theorem not_reached_connected :
    ¬ ∀ (x : Activity) (events : List Event) (exchanges : List OngoingExchange) (now : Moment)
      (p : NodeId), x.node.directory.Consistent → Span.ofSecs 1 ≤ x.node.policy.window →
      ((x.step .roundBegins).after events).round? x.rounds.length = some exchanges →
      (∀ c ∈ exchanges, c.stage = .over) →
      p ∈ (x.step .roundBegins).reached x.rounds.length events →
      (∀ e ∈ events, e.removes p = false) →
      let closed := ((x.step .roundBegins).after events).node.closeRound
        (exchanges.map (·.peer)) now
      closed.1.directory.stateOf? p = some .connected ∧
        p ∉ closed.2.1.map Transition.nodeId := by
  intro h
  have hspared := h besideTwo (answeredByOne 3000) bothOver
    (atMillis 3000) ⟨"p"⟩ consistent_besideTwo (Nat.le_refl _)
    (by decide +kernel) (by decide) (by decide +kernel) (by decide)
  exact absurd hspared.1 (by decide +kernel)

end Round

end Activity

end PeerGateway
