import PeerGateway.Proofs.Node.Presence
import PeerGateway.Proofs.Routing.Ranking

/-!
# Joiners whose way is not proven

A joiner that has to punch is joining, and not used for anything, until something connects it.
`Activity.connects` says what does : the way is proven (`Activity.provesWay`), the joiner sends a
ping or a snapshot before that (`Activity.greets`), or it answers the ping of an exchange
(`Activity.pongs`). The last needs an exchange from before the joiner became joining, since no round
that begins meanwhile has one with it (`Activity.awaits_of_step`).

So a joiner may be used before the way to it is proven (`Activity.not_used_only_proven`), and
`Activity.used_iff` says exactly when it is.
-/

namespace PeerGateway

/-- Whether the ping of an exchange has not been answered. -/
def OngoingExchange.isUnanswered (c : OngoingExchange) : Bool :=
  match c.stage with
  | .due => true
  | .pinged _ => true
  | .trading _ => false
  | .over => false

namespace Activity

/-- A round has an exchange with the peer whose ping has not been answered. -/
def Awaits (j : NodeId) (x : Activity) : Prop :=
  ∃ k i c, x.exchange? k i = some c ∧ c.peer.nodeId = j ∧ c.isUnanswered = true

/-! ## Exchanges -/

section Exchanges

variable {j : NodeId} {x : Activity} {e : Event} {k i k' i' : ℕ} {c : OngoingExchange}

theorem exchange?_withDirectory (result : Except ProtocolError Directory) :
    (x.withDirectory result).exchange? k i = x.exchange? k i := by
  cases result <;> rfl

theorem exchange?_setStage (stage : Exchange.Stage) :
    (x.setStage k i stage).exchange? k' i' =
      if k = k' ∧ i = i' then (x.exchange? k' i').map ({ · with stage })
      else x.exchange? k' i' := by
  unfold exchange? round? setStage
  rw [List.getElem?_modify]
  by_cases hk : k = k'
  · subst hk
    by_cases hi : i = i'
    · subst hi
      rcases x.rounds[k]? with _ | _ | round <;> simp
    · rcases x.rounds[k]? with _ | _ | round <;> simp [hi]
  · simp [hk]

/-- An exchange that is moved on awaits an answer if it did before and its new stage does. -/
theorem awaits_of_setStage {peer : Peer} {stage stage' : Exchange.Stage}
    (hexchange : x.exchange? k i = some ⟨peer, stage⟩)
    (hstage : OngoingExchange.isUnanswered ⟨peer, stage'⟩ = true →
      OngoingExchange.isUnanswered ⟨peer, stage⟩ = true)
    (h : (x.setStage k i stage').Awaits j) : x.Awaits j := by
  obtain ⟨k', i', c, hc, hpeer, hunanswered⟩ := h
  rw [exchange?_setStage] at hc
  split_ifs at hc with hplace
  · obtain ⟨rfl, rfl⟩ := hplace
    rw [hexchange] at hc
    obtain rfl := Option.some.inj hc
    exact ⟨k, i, _, hexchange, hpeer, hstage hunanswered⟩
  · exact ⟨k', i', c, hc, hpeer, hunanswered⟩

/-- Only a round that begins adds an exchange whose ping has not been answered. -/
theorem awaits_of_step (h : (x.step e).Awaits j) :
    x.Awaits j ∨ j ∈ x.node.directory.known.map Peer.nodeId := by
  cases e with
  | happens => exact Or.inl h
  | unopened => exact Or.inl h
  | roundBegins =>
    obtain ⟨k, i, c, hc, rfl, hunanswered⟩ := h
    unfold exchange? round? step at hc
    dsimp only at hc
    rw [List.getElem?_append] at hc
    split_ifs at hc
    · exact Or.inl ⟨k, i, c, hc, rfl, hunanswered⟩
    · obtain ⟨round, hround, hc⟩ := Option.bind_eq_some_iff.mp hc
      rw [Option.join_eq_some_iff, List.getElem?_singleton] at hround
      split_ifs at hround
      rw [← Option.some.inj (Option.some.inj hround)] at hc
      rw [List.getElem?_map] at hc
      obtain ⟨peer, hpeer, rfl⟩ := Option.map_eq_some_iff.mp hc
      exact Or.inr (List.mem_map_of_mem (List.mem_of_getElem? hpeer))
  | pings k i now =>
    left
    unfold step at h
    dsimp only at h
    split at h
    · rename_i peer hexchange
      exact awaits_of_setStage hexchange (fun _ => rfl) h
    · exact h
  | ponged k i reply now =>
    left
    unfold step at h
    dsimp only at h
    split at h
    · rename_i peer sentAt hexchange
      split at h
      · exact awaits_of_setStage hexchange (fun _ => rfl) h
      · exact awaits_of_setStage hexchange (fun _ => rfl) h
    · exact h
  | traded k i reply now =>
    left
    unfold step at h
    dsimp only at h
    split at h
    · rename_i peer roundTrip hexchange
      exact awaits_of_setStage hexchange
        (fun hover : OngoingExchange.isUnanswered ⟨peer, .over⟩ = true => hover) h
    · exact h
  | roundEnds k now =>
    left
    obtain ⟨k', i, c, hc, hpeer, hunanswered⟩ := h
    refine ⟨k', i, c, ?_, hpeer, hunanswered⟩
    unfold step at hc
    dsimp only at hc
    split at hc
    · split_ifs at hc
      · unfold exchange? round? at hc ⊢
        dsimp only at hc
        rw [List.getElem?_set] at hc
        split_ifs at hc
        · simp at hc
        · simp at hc
        · exact hc
      · exact hc
    · exact hc
  | reserves => simpa only [Awaits, step, exchange?_withDirectory] using Or.inl h
  | places => simpa only [Awaits, step, exchange?_withDirectory] using Or.inl h
  | confirms => simpa only [Awaits, step, exchange?_withDirectory] using Or.inl h
  | releases => exact Or.inl h
  | drops => simpa only [Awaits, step, exchange?_withDirectory] using Or.inl h

/-- Only the answer to a ping that has not been answered is a pong of the peer. -/
theorem awaits_of_pongs (h : x.pongs j e = true) : x.Awaits j := by
  obtain ⟨hpong, -⟩ := Bool.and_eq_true_iff.mp h
  have hpong := of_decide_eq_true hpong
  unfold pongFrom? at hpong
  split at hpong
  · rename_i k i beat now _
    split at hpong
    · rename_i peer sentAt hexchange
      split_ifs at hpong
      exact ⟨k, i, _, hexchange, Option.some.inj hpong, rfl⟩
    · simp at hpong
  · simp at hpong

end Exchanges

/-! ## Joiners -/

section Joiners

variable {j : NodeId} {x : Activity} {e : Event} {events : List Event}

/-- A joiner that is not connected, of a consistent directory, with no exchange whose ping it has
still to answer. -/
structure Waiting (j : NodeId) (x : Activity) : Prop where
  consistent : x.node.directory.Consistent
  state : x.stateOf? j = some .joining ∨ x.stateOf? j = none
  quiet : ¬ x.Awaits j

theorem Waiting.ne_connected (h : x.Waiting j) : x.stateOf? j ≠ some .connected := by
  rcases h.state with hstate | hstate <;> simp [hstate]

/-- The way to a joiner is proven, or the joiner sends something. -/
def provesOrGreets (j : NodeId) (x : Activity) (e : Event) : Bool :=
  x.provesWay j e || x.greets j e

theorem Waiting.connects_iff (h : x.Waiting j) :
    x.connects j e = true ↔ x.provesOrGreets j e = true := by
  have hpongs : x.pongs j e = false := by
    rw [← Bool.not_eq_true]
    exact fun hpongs => h.quiet (awaits_of_pongs hpongs)
  rw [connects, hpongs, Bool.or_false, provesOrGreets]

theorem stateOf?_step_eq_connected_iff (hne : x.stateOf? j ≠ some .connected) :
    (x.step e).stateOf? j = some .connected ↔ x.connects j e = true := by
  rcases outcome e hne with ⟨hconnects, -, hafter⟩ | ⟨hconnects, -, hafter⟩ |
    ⟨hconnects, -, hafter⟩
  · simp [hconnects, hafter]
  · simp [hconnects, hafter]
  · rcases hafter with hafter | hafter <;> simp [hconnects, hafter, hne]

/-- A joiner goes on waiting unless something connects it. -/
theorem Waiting.step (h : x.Waiting j) (hconnects : x.provesOrGreets j e = false) :
    (x.step e).Waiting j where
  consistent := becomes_step.consistent h.consistent
  state := by
    have hnot : x.connects j e ≠ true := fun hc => by simp [h.connects_iff.mp hc] at hconnects
    rcases outcome e h.ne_connected with ⟨hc, -, -⟩ | ⟨-, -, hafter⟩ | ⟨-, -, hafter⟩
    · exact absurd hc hnot
    · exact Or.inl hafter
    · rcases hafter with hafter | hafter
      · exact hafter ▸ h.state
      · exact Or.inr hafter
  quiet hawaits := by
    rcases awaits_of_step hawaits with hbefore | hknown
    · exact h.quiet hbefore
    · rcases h.state with hstate | hstate <;>
        rcases h.consistent.mem_known_iff.mp hknown with hk | hk <;>
          simp [show x.node.directory.stateOf? j = _ from hstate] at hk

/-- A peer is not used : it is not ranked, it is not selected, and no request is forwarded to it,
whatever the load is. -/
structure Unused (j : NodeId) (n : Node) : Prop where
  ranked : ∀ c, j ∉ (ranked n.directory c).map Prod.fst
  select : ∀ c, select n.directory c ≠ .peer j
  route : ∀ (rule : RelayRule) c fromPeer now address,
    rule.route n.directory c fromPeer now ≠ .forward j address

theorem unused_of_ne_connected {n : Node} (hn : n.directory.Consistent)
    (hne : n.directory.stateOf? j ≠ some .connected) : Unused j n where
  ranked _ hmem := hne (hn.mem_ranked_iff.mp hmem)
  select _ hselect := hne (hn.stateOf?_of_select hselect)
  route _ _ _ _ _ hroute := hne (hn.stateOf?_of_route hroute)

theorem consistent_after (h : x.node.directory.Consistent) :
    (x.after events).node.directory.Consistent := by
  induction events generalizing x with
  | nil => exact h
  | cons e events ih => exact ih (becomes_step.consistent h)

/-- The activity after a join request for which a hole can be opened. -/
def requested (x : Activity) (r : JoinRequest) (port : UInt16) (now : Moment) : Activity :=
  x.step (.happens (.received (.joinRequest r) port now))

/-- A joiner for whom a hole is opened is joining, unless it was connected before. It gets connected
exactly when something connects it : the way to it is proven, it sends a ping or a snapshot, or it
answers a ping. The last does not happen if no answer of it was awaited when it asked. While it is
not connected it is not used. -/
theorem used_iff {r : JoinRequest} {port : UInt16} {now : Moment}
    (hx : x.node.directory.Consistent) (hne : x.stateOf? r.nodeId ≠ some .connected)
    (hopened : (x.node.receive (.joinRequest r) (some port) now).hole = some ⟨r.nodeId, port⟩) :
    (x.requested r port now).stateOf? r.nodeId = some .joining ∧
    ((∃ soon, soon <+: events ∧
      ((x.requested r port now).after soon).stateOf? r.nodeId = some .connected) ↔
        (x.requested r port now).meets (connects r.nodeId) events = true) ∧
    (¬ x.Awaits r.nodeId → ((∃ soon, soon <+: events ∧
      ((x.requested r port now).after soon).stateOf? r.nodeId = some .connected) ↔
        (x.requested r port now).meets (provesOrGreets r.nodeId) events = true)) ∧
    (((x.requested r port now).after events).stateOf? r.nodeId ≠ some .connected →
      Unused r.nodeId ((x.requested r port now).after events).node) := by
  have hjoining : (x.requested r port now).stateOf? r.nodeId = some .joining := by
    refine (Responder.stateOf?_of_opened hopened).trans ?_
    rw [if_neg hne]
  have hconsistent : (x.requested r port now).node.directory.Consistent :=
    becomes_step.consistent hx
  refine ⟨hjoining, ?_, fun hquiet => ?_, fun hfree =>
    unused_of_ne_connected (consistent_after hconsistent) hfree⟩
  · exact exists_after_iff (fun y => y.stateOf? r.nodeId ≠ some .connected)
      (fun y => y.stateOf? r.nodeId = some .connected) (fun _ hy => hy)
      (fun _ _ => stateOf?_step_eq_connected_iff)
      (fun y e hy hp hconnected => by
        simp [(stateOf?_step_eq_connected_iff hy).mp hconnected] at hp)
      (by simp [hjoining])
  · have hwaiting : (x.requested r port now).Waiting r.nodeId :=
      ⟨hconsistent, Or.inl hjoining, hquiet⟩
    exact exists_after_iff (Waiting r.nodeId) (fun y => y.stateOf? r.nodeId = some .connected)
      (fun _ hy => hy.ne_connected)
      (fun _ _ hy => (stateOf?_step_eq_connected_iff hy.ne_connected).trans hy.connects_iff)
      (fun _ _ hy => hy.step) hwaiting

/-- A joiner that sends a ping is used at once, and one that is silent is not, though a round goes
on and its hole is open. -/
theorem used_iff_greeting :
    let x : Activity := { node := (Responder.natted none).node }
    x.node.directory.Consistent ∧ x.stateOf? ⟨"j"⟩ ≠ some .connected ∧
    (x.node.receive (.joinRequest Responder.punching) (some 1) ⟨0, 0⟩).hole = some ⟨⟨"j"⟩, 1⟩ ∧
    (∃ soon, soon <+: [.happens (.received (.ping ⟨⟨"j"⟩, 0⟩) 1 ⟨0, 0⟩)] ∧
      ((x.requested Responder.punching 1 ⟨0, 0⟩).after soon).stateOf? ⟨"j"⟩ = some .connected) ∧
    ¬ ∃ soon, soon <+: [.roundBegins, .happens (.received (.ping ⟨⟨"k"⟩, 0⟩) 1 ⟨0, 0⟩),
        .roundEnds 0 ⟨0, 0⟩] ∧
      ((x.requested Responder.punching 1 ⟨0, 0⟩).after soon).stateOf? ⟨"j"⟩ = some .connected := by
  intro x
  have hx : x.node.directory.Consistent := Directory.consistent_empty _ _ _
  have hquiet : ¬ x.Awaits ⟨"j"⟩ := by
    rintro ⟨k, i, c, hc, -⟩
    simp [x, exchange?, round?] at hc
  refine ⟨hx, by decide, by decide, ?_, fun h => ?_⟩
  · exact (used_iff hx (r := Responder.punching) (by decide) (by decide)).2.1.mpr (by decide)
  · have hproven := ((used_iff hx (r := Responder.punching) (by decide) (by decide)).2.2.1
      hquiet).mp h
    exact absurd hproven (by decide)

/-- A joiner need not wait for its way to be proven : it is connected by a ping of its own. -/
theorem not_used_only_proven :
    ¬ ∀ (x : Activity) (r : JoinRequest) (port : UInt16) (now : Moment) (events : List Event),
      x.node.directory.Consistent → x.stateOf? r.nodeId ≠ some .connected →
      (x.node.receive (.joinRequest r) (some port) now).hole = some ⟨r.nodeId, port⟩ →
      (x.requested r port now).meets (provesWay r.nodeId) events = false →
      ((x.requested r port now).after events).stateOf? r.nodeId ≠ some .connected := by
  intro h
  have hfree := h { node := (Responder.natted none).node } Responder.punching 1 ⟨0, 0⟩
    [.happens (.received (.ping ⟨⟨"j"⟩, 0⟩) 1 ⟨0, 0⟩)] (Directory.consistent_empty _ _ _)
    (by decide) (by decide) (by decide)
  exact absurd (by decide) hfree

end Joiners

end Activity

end PeerGateway
