import PeerGateway.Overlay
import PeerGateway.Proofs.Directory.Link
import PeerGateway.Proofs.Node.Presence

/-!
# Addresses that a node holds

An address gets into a directory by a join request or by a walk that places a peer, and it is
offered to joiners from there. All else that happens to a node leaves addresses as they are
(`Activity.within_own`). So what holds of the addresses that are brought in holds of all addresses
of the directory (`Directory.Within`) and of all that are offered (`JoinResponse.Within`).
-/

namespace PeerGateway

variable (P : String → Prop)

/-- The addresses of all entries have a property. -/
def Directory.Within (d : Directory) : Prop := ∀ id e, d.find? id = some e → P e.peer.address

/-- The addresses of all peers that an answer offers have a property. -/
def JoinResponse.Within (r : JoinResponse) : Prop := ∀ p ∈ r.alternatives, P p.address

variable {P}

namespace Entry

variable {e e' : Entry} {now : Instant}

theorem address_seen (e : Entry) (now : Instant) : (e.seen now).peer.address = e.peer.address := by
  dsimp only [seen]
  split_ifs <;> rfl

theorem address_swept {window grace : Span} (h : e.swept? now window grace = some e') :
    e'.peer.address = e.peer.address := by
  unfold swept? at h
  split at h
  · rw [Option.some.inj h]
  · rw [← Option.some.inj h]
    rfl
  · cases h

end Entry

namespace Directory

variable {d d' : Directory} {id : NodeId} {peer : Peer} {state : PeerState} {now : Instant}

theorem within_empty (h : d.entries = ∅) : d.Within P := by
  intro id e he
  simp [find?, h] at he

namespace Within

variable (h : d.Within P)

include h

theorem put {e : Entry} (he : P e.peer.address) : (d.put id e).Within P := by
  intro k e' hfind
  rw [find?_put] at hfind
  split_ifs at hfind
  · exact Option.some.inj hfind ▸ he
  · exact h k e' hfind

theorem drop : (d.drop id).Within P := by
  intro k e hfind
  rw [find?_drop] at hfind
  split_ifs at hfind
  exact h k e hfind

theorem place (hpeer : P peer.address) (hplace : d.place peer state now = .ok d') :
    d'.Within P := by
  obtain ⟨-, ⟨-, rfl⟩ | ⟨-, -, rfl⟩⟩ := place_eq_ok_iff.mp hplace
  · exact h
  · exact h.put hpeer

theorem hear : (d.hear id now).2.Within P := by
  rcases hear_eq d id now with ⟨heq, -⟩ | ⟨e, hfind, heq⟩ <;> rw [heq]
  · exact h
  · exact h.put (e.address_seen now ▸ h id e hfind)

theorem confirm (hconfirm : d.confirm id now = .ok d') : d'.Within P := by
  obtain ⟨e, hfind, rfl⟩ := confirm_eq_ok_iff.mp hconfirm
  exact h.put (e.address_seen now ▸ h id e hfind)

theorem release : (d.release id).Within P := by
  rcases release_eq d id with ⟨heq, -⟩ | ⟨heq, -⟩ <;> rw [heq]
  · exact h.drop
  · exact h

theorem remove {removed : Peer} (hremove : d.remove id = .ok (removed, d')) : d'.Within P := by
  obtain ⟨-, -, -, rfl⟩ := remove_eq_ok_iff.mp hremove
  exact h.drop

theorem sweep {window grace : Span} : (d.sweep now window grace).2.Within P := by
  intro k e' hfind
  rw [find?_sweep] at hfind
  obtain ⟨e, he, hswept⟩ := Option.bind_eq_some_iff.mp hfind
  exact Entry.address_swept hswept ▸ h k e he

theorem alternatives {joiner : NodeId} : ∀ p ∈ d.alternatives joiner, P p.address := by
  intro p hp
  obtain ⟨id, e, hfind, rfl, -⟩ := mem_alternatives hp
  exact h id e hfind

/-- A joiner is taken in at the address of its request, and is offered addresses of entries. -/
theorem takeIn {r : JoinRequest} (hr : P r.address) (await : Bool) (now : Instant) :
    (d.takeIn r await now).2.Within P ∧ (d.takeIn r await now).1.Within P := by
  have hnone : (d.reject .networkJoinLoop []).Within P := fun p hp => absurd hp List.not_mem_nil
  rcases takeIn_cases d r await now with ⟨-, heq⟩ | ⟨e, d', -, -, rfl, heq⟩ |
    ⟨-, -, -, -, heq⟩ | ⟨victim, -, -, -, -, heq⟩ | ⟨-, -, -, heq⟩ <;> rw [heq]
  · exact ⟨h, hnone⟩
  · have hd : (d.put r.nodeId (rejoined e r (joinerState await) now)).Within P :=
      h.put ((address_rejoined r).symm ▸ hr)
    exact ⟨hd, hd.alternatives⟩
  · exact ⟨h, h.alternatives⟩
  · exact ⟨h.drop.put hr, h.drop.alternatives⟩
  · exact ⟨h.put hr, h.alternatives⟩

end Within

end Directory

/-! ## What happens to a node -/

namespace Node

theorem reply_receiveLeave (n : Node) (id : NodeId) : (n.receiveLeave id).reply = none := by
  unfold receiveLeave
  split <;> rfl

variable {n : Node} (h : n.directory.Within P)

include h

theorem within_receiveLeave (id : NodeId) : (n.receiveLeave id).node.directory.Within P := by
  unfold receiveLeave
  split
  case h_1 removed d hremove => exact h.remove hremove
  case h_2 => exact h

theorem within_replyToJoin {r : JoinRequest} (hr : P r.address) (port : Option UInt16)
    (now : Moment) : (n.replyToJoin r port now).node.directory.Within P ∧
      ∀ answer, (n.replyToJoin r port now).reply = some (.joinResponse answer) →
        answer.Within P := by
  obtain ⟨hd, hresponse⟩ := h.takeIn hr (r.behindNat && n.policy.behindNat) now.steady
  unfold replyToJoin
  dsimp only
  split_ifs
  · cases port with
    | some p => exact ⟨hd, by rintro answer ⟨⟩; exact hresponse⟩
    | none => exact ⟨hd.release, by rintro answer ⟨⟩; exact hresponse⟩
  · exact ⟨hd, by rintro answer ⟨⟩; exact hresponse⟩

/-- A message brings in the address of a join request and no other. -/
theorem within_receive {m : Message} (hm : ∀ r, m = .joinRequest r → P r.address)
    (port : Option UInt16) (now : Moment) : (n.receive m port now).node.directory.Within P ∧
      ∀ answer, (n.receive m port now).reply = some (.joinResponse answer) → answer.Within P := by
  cases m with
  | joinRequest r => exact within_replyToJoin h (hm r rfl) port now
  | joinResponse => exact ⟨h, nofun⟩
  | metrics => exact ⟨h.hear, nofun⟩
  | ping => exact ⟨h.hear, nofun⟩
  | pong => exact ⟨h, nofun⟩
  | leave id =>
    have hreply : (n.receive (.leave id) port now).reply = none := reply_receiveLeave n id
    exact ⟨within_receiveLeave h id, fun answer hanswer => by simp [hreply] at hanswer⟩

theorem within_holeProbed (joiner : NodeId) (now : Instant) :
    (n.holeProbed joiner now).directory.Within P := by
  unfold holeProbed
  split
  case h_1 d hconfirm => exact h.confirm hconfirm
  case h_2 => exact h

end Node

/-- Neither a message nor a move of a walk : this brings in no address. -/
theorem Activity.within_own {x : Activity} {e : Event} (he : e.isOwn = true)
    (h : x.node.directory.Within P) : (x.step e).node.directory.Within P := by
  cases e with
  | happens event =>
    cases event with
    | received => cases he
    | probed k now =>
      show (x.toResponder.step _).node.directory.Within P
      unfold Responder.step
      dsimp only
      split
      · exact Node.within_holeProbed h _ now
      · exact h
    | expired k =>
      show (x.toResponder.step _).node.directory.Within P
      unfold Responder.step
      dsimp only
      split
      · exact h.release
      · exact h
  | roundBegins => exact h
  | pings k i now => exact x.directory_pings k i now ▸ h
  | ponged k i reply now =>
    rw [directory_ponged]
    split
    · exact h.hear
    · exact h
  | traded k i reply now => exact x.directory_traded k i reply now ▸ h
  | roundEnds k now =>
    rcases x.directory_roundEnds k now with heq | heq <;> rw [heq]
    · exact h
    · exact h.sweep
  | drops id =>
    show (x.withDirectory ((x.node.directory.remove id).map Prod.snd)).node.directory.Within P
    rw [directory_withDirectory]
    cases hremove : x.node.directory.remove id with
    | ok removed => exact h.remove hremove
    | error => exact h
  | unopened => cases he
  | reserves => cases he
  | places => cases he
  | confirms => cases he
  | releases => cases he

end PeerGateway
