import PeerGateway.Proofs.Node.Operations
import PeerGateway.Proofs.Node.Traversal
import PeerGateway.Node.Activity

/-!
# Who is in the directory

Messages, holes, heartbeat rounds and walks of a node go on at the same time, and each of them may
still hold the identifier of a peer that has left the directory meanwhile.

`Activity.bringsIn` says which events put a peer in : an accepted join request of its own, and a
walk of the node that keeps a place for it or places it. `Activity.stateOf?_step_ne_none_iff` is the
step, that no other event does, and `Activity.exists_after_iff` the induction over a run, for any
property that a first event of some kind brings about. So a peer that is gone stays away until it is
brought in (`Activity.stays_away`).
-/

namespace PeerGateway

/-! ## Messages and holes -/

namespace Responder

variable {x : Responder} {j : NodeId} {e : Happening}

/-- A peer that an event takes out is gone after it. -/
theorem stateOf?_of_takesOut (h : x.takesOut j e = true) :
    (x.step e).stateOf? j = none ∧ x.takesIn j e = false ∧ x.vouches j e = false := by
  cases e with
  | probed => simp [takesOut] at h
  | expired => simp [takesOut] at h
  | received m port now =>
    cases m with
    | joinRequest r =>
      simp only [takesOut, Bool.and_eq_true, decide_eq_true_eq, Bool.not_eq_true'] at h
      obtain ⟨⟨hne, -⟩, hgone⟩ := h
      exact ⟨by simpa [knows] using hgone, by simp [takesIn, hne], by simp [vouches, hne]⟩
    | leave id =>
      obtain rfl : id = j := by simpa [takesOut] using h
      refine ⟨?_, rfl, rfl⟩
      show (x.node.receiveLeave id).node.directory.stateOf? id = none
      unfold Node.receiveLeave
      split
      · rename_i peer d hremove
        obtain ⟨-, -, -, rfl⟩ := Directory.remove_eq_ok_iff.mp hremove
        exact Directory.stateOf?_drop.trans (if_pos rfl)
      · rename_i error hremove
        cases hfind : x.node.directory.find? id with
        | none => exact Directory.stateOf?_eq_none_iff.mpr hfind
        | some entry => simp [Directory.remove, hfind] at hremove
    | joinResponse => simp [takesOut] at h
    | metrics => simp [takesOut] at h
    | ping => simp [takesOut] at h
    | pong => simp [takesOut] at h

/-- A peer that is not connected becomes so exactly if it is vouched for. -/
theorem stateOf?_step_of_ne_connected (h : x.stateOf? j ≠ some .connected) :
    (x.step e).stateOf? j = some .connected ↔ x.vouches j e = true := by
  cases hout : x.takesOut j e with
  | true =>
    obtain ⟨hnone, -, hvouches⟩ := stateOf?_of_takesOut hout
    simp [hnone, hvouches]
  | false =>
    rw [stateOf?_step_eq_connected_iff hout]
    simp only [h, false_or]

end Responder

/-! ## Operations on the directory -/

namespace Directory

variable {d : Directory} {peer : Peer} {id k : NodeId} {state : PeerState} {now : Instant}

theorem stateOf?_place : ((d.place peer state now).toOption.getD d).stateOf? k =
    if peer.nodeId = k ∧ d.stateOf? k = none ∧ (d.place peer state now).isOk = true then some state
    else d.stateOf? k := by
  cases hplace : d.place peer state now with
  | error => simp [Except.toOption, Except.isOk, Except.toBool]
  | ok d' =>
    obtain ⟨-, ⟨hknown, rfl⟩ | ⟨hnone, -, rfl⟩⟩ := place_eq_ok_iff.mp hplace
    · rw [if_neg]
      · rfl
      · rintro ⟨rfl, hnone, -⟩
        exact hknown (stateOf?_eq_none_iff.mp hnone)
    · simp only [Except.toOption, Option.getD_some, stateOf?_put, Except.isOk, Except.toBool,
        and_true]
      by_cases hid : peer.nodeId = k
      · subst hid
        rw [if_pos rfl, if_pos ⟨rfl, stateOf?_eq_none_iff.mpr hnone⟩]
        rfl
      · rw [if_neg hid, if_neg fun h => hid h.1]

theorem confirm_eq_hear : (d.confirm id now).toOption.getD d = (d.hear id now).2 := by
  unfold confirm hear
  cases d.find? id <;> rfl

theorem stateOf?_remove : (((d.remove id).map Prod.snd).toOption.getD d).stateOf? k =
    if id = k then none else d.stateOf? k := by
  unfold remove
  cases hfind : d.find? id with
  | some e => exact stateOf?_drop
  | none =>
    show d.stateOf? k = _
    split_ifs with hid
    · exact hid ▸ stateOf?_eq_none_iff.mpr hfind
    · rfl

/-- A sweep leaves a peer in its state, makes a connected one stale, or takes it out. -/
theorem stateOf?_sweep (d : Directory) (now : Instant) (window grace : Span) (k : NodeId) :
    (d.sweep now window grace).2.stateOf? k = d.stateOf? k ∨
    d.stateOf? k = some .connected ∧ (d.sweep now window grace).2.stateOf? k = some .stale ∨
    (d.sweep now window grace).2.stateOf? k = none := by
  simp only [stateOf?, find?_sweep]
  cases hfind : d.find? k with
  | none => exact Or.inl rfl
  | some e =>
    simp only [Option.bind_some, Option.map_some, Entry.swept?]
    cases hfate : e.fate now window grace with
    | stays => exact Or.inl rfl
    | leaves => exact Or.inr (Or.inr rfl)
    | goesStale =>
      refine Or.inr (Or.inl ⟨?_, rfl⟩)
      -- Only a connected entry goes stale.
      unfold Entry.fate at hfate
      cases hstate : e.state with
      | connected => rfl
      | stale => rw [hstate] at hfate; dsimp only at hfate; split_ifs at hfate
      | joining => rw [hstate] at hfate; dsimp only at hfate; split_ifs at hfate

end Directory

namespace Activity

/-- Some event has a property where it happens. -/
def meets (p : Activity → Event → Bool) : Activity → List Event → Bool
  | _, [] => false
  | x, e :: events => p x e || meets p (x.step e) events

/-! ## What an event is to a peer -/

section Peer

variable (j : NodeId) (x : Activity)

/-- The joiner has not to punch, and is accepted. A hole is not needed for it. -/
def acceptsOutright (r : JoinRequest) (now : Moment) : Bool :=
  r.nodeId = j && x.node.admits r now && !x.node.traverses r

/-- The peer that answers the ping of an exchange under its own identifier. -/
def pongFrom? : Event → Option NodeId
  | .ponged k i (.ok (.pong beat)) _ =>
    match x.exchange? k i with
    | some ⟨peer, .pinged _⟩ => if beat.nodeId = peer.nodeId then some peer.nodeId else none
    | _ => none
  | _ => none

/-- The way to the peer is proven, or need not be : a hole that was opened for it is probed, it is
accepted without having to punch, or a walk places or confirms it. -/
def provesWay : Event → Bool
  | .happens (.received (.joinRequest r) _ now) => x.acceptsOutright j r now
  | .happens (.probed k _) => x.isOpenFor j k && x.knows j
  | .unopened r now => x.acceptsOutright j r now
  | .places peer now =>
    peer.nodeId = j && !x.knows j && (x.node.directory.place peer .connected now).isOk
  | .confirms id _ => id = j && x.knows j
  | _ => false

/-- The peer is known and sends a ping or a snapshot. -/
def greets : Event → Bool
  | .happens (.received (.ping beat) _ _) => beat.nodeId = j && x.knows j
  | .happens (.received (.metrics m) _ _) => m.nodeId = j && x.knows j
  | _ => false

/-- The peer is known and answers the ping of an exchange. -/
def pongs (e : Event) : Bool := x.pongFrom? e = some j && x.knows j

/-- A join request of the peer is accepted, or a walk keeps a place for it or places it. -/
def bringsIn : Event → Bool
  | .happens e => x.takesIn j e
  | .unopened r now => x.acceptsOutright j r now
  | .reserves peer now =>
    peer.nodeId = j && !x.knows j && (x.node.directory.reserve peer now).isOk
  | .places peer now =>
    peer.nodeId = j && !x.knows j && (x.node.directory.place peer .connected now).isOk
  | _ => false

end Peer

/-! ## What an event does to a peer -/

section Step

variable {j : NodeId} {x : Activity} {e : Event}

theorem directory_withDirectory (result : Except ProtocolError Directory) :
    (x.withDirectory result).node.directory = result.toOption.getD x.node.directory := by
  cases result <;> rfl

/-- Whether an event connects a peer that is not connected. -/
def connects (j : NodeId) (x : Activity) (e : Event) : Bool :=
  x.provesWay j e || x.greets j e || x.pongs j e

/-- What an event comes to for a peer that is not connected : the peer gets connected, or it is
brought in and has to punch, or it is at most taken out. -/
inductive Outcome (j : NodeId) (x : Activity) (e : Event) : Prop
  | connected (hconnects : x.connects j e = true)
    (hin : x.stateOf? j = none → x.bringsIn j e = true)
    (hafter : (x.step e).stateOf? j = some .connected)
  | joining (hconnects : x.connects j e = false) (hin : x.bringsIn j e = true)
    (hafter : (x.step e).stateOf? j = some .joining)
  | spared (hconnects : x.connects j e = false) (hin : x.bringsIn j e = false)
    (hafter : (x.step e).stateOf? j = x.stateOf? j ∨ (x.step e).stateOf? j = none)

theorem connects_happens (event : Happening) :
    x.connects j (.happens event) = x.vouches j event := by
  cases event with
  | received m port now =>
    cases m <;>
      simp [connects, provesWay, greets, pongs, pongFrom?, acceptsOutright, Responder.vouches]
  | probed => simp [connects, provesWay, greets, pongs, pongFrom?, Responder.vouches]
  | expired => simp [connects, provesWay, greets, pongs, pongFrom?, Responder.vouches]

theorem outcome_happens (event : Happening) (hne : x.stateOf? j ≠ some .connected) :
    Outcome j x (.happens event) := by
  cases hvouches : x.vouches j event with
  | true =>
    exact .connected (by rw [connects_happens, hvouches])
      (fun hnone => Responder.takesIn_of_vouches hvouches hnone)
      ((Responder.stateOf?_step_of_ne_connected hne).mpr hvouches)
  | false =>
    have hconnects : x.connects j (.happens event) = false := by rw [connects_happens, hvouches]
    cases hout : x.takesOut j event with
    | true =>
      obtain ⟨hnone, hin, -⟩ := Responder.stateOf?_of_takesOut hout
      exact .spared hconnects hin (Or.inr hnone)
    | false =>
      have hstep := Responder.stateOf?_step hout
      cases hin : x.takesIn j event with
      | true =>
        refine .joining hconnects hin (hstep.trans ?_)
        simp [hvouches, hin, hne]
      | false =>
        refine .spared hconnects hin ?_
        have hafter : (x.step (.happens event)).stateOf? j =
            (x.toResponder.step event).stateOf? j := rfl
        rw [hafter, hstep]
        cases x.drops j event <;> simp [hvouches, hin]

/-- A joiner that has to punch is given up where no hole can be opened for it. -/
theorem directory_unopened (n : Node) (r : JoinRequest) (now : Moment) :
    (n.receive (.joinRequest r) none now).node.directory =
      if n.traverses r && n.admits r now then
        (n.directory.takeIn r (n.traverses r) now.steady).2.release r.nodeId
      else (n.directory.takeIn r (n.traverses r) now.steady).2 := by
  simp only [Node.receive, Node.replyToJoin, Node.admits, Node.traverses]
  split_ifs with h <;> simp only [h, if_true, if_false, Bool.false_eq_true] <;> rfl

theorem outcome_unopened (r : JoinRequest) (now : Moment) (hne : x.stateOf? j ≠ some .connected) :
    Outcome j x (.unopened r now) := by
  have hconnects : x.connects j (.unopened r now) = x.acceptsOutright j r now := by
    simp [connects, provesWay, greets, pongs, pongFrom?]
  have hafter : (x.step (.unopened r now)).stateOf? j =
      (x.node.receive (.joinRequest r) none now).node.directory.stateOf? j := rfl
  rw [directory_unopened] at hafter
  by_cases hid : r.nodeId = j
  · subst hid
    have hjoined : (x.node.directory.takeIn r (x.node.traverses r) now.steady).2.stateOf? r.nodeId =
        if x.node.admits r now = true then some (Directory.joinerState (x.node.traverses r))
        else x.stateOf? r.nodeId := by
      have hstate : x.node.directory.stateOf? r.nodeId ≠ some .connected := hne
      rw [Directory.stateOf?_takeIn_joiner, if_neg hstate]
      rfl
    cases hadmits : x.node.admits r now with
    | false =>
      refine .spared (by simp [hconnects, acceptsOutright, hadmits])
        (by simp [bringsIn, acceptsOutright, hadmits]) (Or.inl ?_)
      rw [hafter, hadmits, Bool.and_false, if_neg Bool.false_ne_true, hjoined, hadmits,
        if_neg Bool.false_ne_true]
    | true =>
      rw [hadmits, if_pos rfl] at hjoined
      cases htraverses : x.node.traverses r with
      | true =>
        refine .spared (by simp [hconnects, acceptsOutright, htraverses])
          (by simp [bringsIn, acceptsOutright, htraverses]) (Or.inr ?_)
        rw [htraverses] at hjoined
        rw [hafter, hadmits, htraverses, Bool.and_self, if_pos rfl, Directory.stateOf?_release,
          if_pos ⟨rfl, hjoined⟩]
      | false =>
        have houtright : x.acceptsOutright r.nodeId r now = true := by
          simp [acceptsOutright, hadmits, htraverses]
        refine .connected (by rw [hconnects, houtright]) (fun _ => houtright) ?_
        rw [htraverses] at hjoined
        rw [hafter, hadmits, htraverses, Bool.false_and, if_neg Bool.false_ne_true, hjoined]
        rfl
  · refine .spared (by simp [hconnects, acceptsOutright, hid])
      (by simp [bringsIn, acceptsOutright, hid]) ?_
    have hrelease : ∀ d : Directory, (d.release r.nodeId).stateOf? j = d.stateOf? j := fun d => by
      rw [Directory.stateOf?_release, if_neg fun h => hid h.1]
    have hother : (x.node.directory.takeIn r (x.node.traverses r) now.steady).2.stateOf? j =
        x.node.directory.stateOf? j ∨
        (x.node.directory.takeIn r (x.node.traverses r) now.steady).2.stateOf? j = none :=
      Directory.stateOf?_takeIn_other hid
    rw [hafter]
    split_ifs
    · rw [hrelease]
      exact hother
    · exact hother

/-- A sign of life connects a peer that is known. -/
theorem outcome_of_hear {e : Event} {id : NodeId} {now : Instant}
    (hheard : (x.step e).node.directory = (x.node.directory.hear id now).2)
    (hconnects : x.connects j e = (id = j && x.knows j)) (hin : x.bringsIn j e = false) :
    Outcome j x e := by
  have hafter := Responder.stateOf?_of_hear (j := j) (x := x.toResponder) hheard
  cases hsign : (id = j && x.knows j : Bool) with
  | true =>
    rw [if_pos hsign] at hafter
    refine .connected (hconnects.trans hsign) (fun hnone => ?_) hafter
    have hknown : x.knows j = true := (Bool.and_eq_true_iff.mp hsign).2
    simp [Responder.knows, hnone] at hknown
  | false =>
    rw [if_neg (Bool.not_eq_true _ ▸ hsign)] at hafter
    exact .spared (hconnects.trans hsign) hin (Or.inl hafter)

/-- Only the answer of the peer itself to a ping is a sign of life in an exchange. -/
theorem directory_ponged (k i : ℕ) (reply : Except NetworkError Message) (now : Moment) :
    (x.step (.ponged k i reply now)).node.directory =
      match x.pongFrom? (.ponged k i reply now) with
      | some id => (x.node.directory.hear id now.steady).2
      | none => x.node.directory := by
  rcases hexchange : x.exchange? k i with _ | ⟨peer, _ | sentAt | roundTrip | _⟩
  · cases reply with
    | error => simp [step, pongFrom?, hexchange]
    | ok m => cases m <;> simp [step, pongFrom?, hexchange]
  · cases reply with
    | error => simp [step, pongFrom?, hexchange]
    | ok m => cases m <;> simp [step, pongFrom?, hexchange]
  · simp only [step, hexchange]
    cases reply with
    | error => rfl
    | ok m =>
      cases m with
      | pong beat =>
        by_cases hid : beat.nodeId = peer.nodeId
        · simp only [pongFrom?, hexchange, Exchange.ponged, if_pos hid]
          rfl
        · simp only [pongFrom?, hexchange, Exchange.ponged, if_neg hid]
          rfl
      | joinRequest => rfl
      | joinResponse => rfl
      | metrics => rfl
      | ping => rfl
      | leave => rfl
  · cases reply with
    | error => simp [step, pongFrom?, hexchange]
    | ok m => cases m <;> simp [step, pongFrom?, hexchange]
  · cases reply with
    | error => simp [step, pongFrom?, hexchange]
    | ok m => cases m <;> simp [step, pongFrom?, hexchange]

theorem directory_pings (k i : ℕ) (now : Instant) :
    (x.step (.pings k i now)).node.directory = x.node.directory := by
  unfold step
  dsimp only
  split
  · rfl
  · rfl

theorem directory_traded (k i : ℕ) (reply : Except NetworkError Message) (now : Moment) :
    (x.step (.traded k i reply now)).node.directory = x.node.directory := by
  unfold step
  dsimp only
  split
  · exact Exchange.directory_traded ..
  · rfl

/-- The end of a round sweeps the directory, if all its exchanges are over. -/
theorem directory_roundEnds (k : ℕ) (now : Moment) :
    (x.step (.roundEnds k now)).node.directory = x.node.directory ∨
    (x.step (.roundEnds k now)).node.directory =
      (x.node.directory.sweep now.steady x.node.policy.window x.node.policy.staleGrace).2 := by
  unfold step
  dsimp only
  split
  · split_ifs
    · exact Or.inr rfl
    · exact Or.inl rfl
  · exact Or.inl rfl

theorem outcome_roundEnds (k : ℕ) (now : Moment) (hne : x.stateOf? j ≠ some .connected) :
    Outcome j x (.roundEnds k now) := by
  refine .spared rfl rfl ?_
  rcases x.directory_roundEnds k now with hsame | hswept
  · exact Or.inl (congrArg (Directory.stateOf? · j) hsame)
  · have hafter : (x.step (.roundEnds k now)).stateOf? j = _ :=
      congrArg (Directory.stateOf? · j) hswept
    rcases x.node.directory.stateOf?_sweep now.steady x.node.policy.window
      x.node.policy.staleGrace j with hkept | ⟨hconnected, -⟩ | hgone
    · exact Or.inl (hafter.trans hkept)
    · exact absurd hconnected hne
    · exact Or.inr (hafter.trans hgone)

/-- A place that a walk takes is given to a peer that is not known, if there is room. -/
theorem stateOf?_withDirectory_place (peer : Peer) (state : PeerState) (now : Instant) :
    (x.withDirectory (x.node.directory.place peer state now)).stateOf? j =
      if (peer.nodeId = j && !x.knows j && (x.node.directory.place peer state now).isOk) = true
      then some state else x.stateOf? j := by
  have hafter := (congrArg (Directory.stateOf? · j)
    (x.directory_withDirectory (x.node.directory.place peer state now))).trans
      Directory.stateOf?_place
  refine hafter.trans (if_congr ?_ rfl rfl)
  have hunknown : x.knows j = false ↔ x.node.directory.stateOf? j = none := by
    simp [Responder.knows, Responder.stateOf?]
  simp only [Bool.and_eq_true, decide_eq_true_eq, Bool.not_eq_true', hunknown, and_assoc]

theorem outcome_reserves (peer : Peer) (now : Instant) : Outcome j x (.reserves peer now) := by
  have hafter : (x.step (.reserves peer now)).stateOf? j = _ :=
    stateOf?_withDirectory_place peer .joining now
  cases hplace : (peer.nodeId = j && !x.knows j && (x.node.directory.place peer .joining now).isOk)
  with
  | true => exact .joining rfl hplace (by rw [hafter, hplace, if_pos rfl])
  | false => exact .spared rfl hplace (Or.inl (by rw [hafter, hplace, if_neg Bool.false_ne_true]))

theorem outcome_places (peer : Peer) (now : Instant) : Outcome j x (.places peer now) := by
  have hafter : (x.step (.places peer now)).stateOf? j = _ :=
    stateOf?_withDirectory_place peer .connected now
  have hconnects : x.connects j (.places peer now) = x.bringsIn j (.places peer now) := by
    simp [connects, provesWay, bringsIn, greets, pongs, pongFrom?]
  cases hplace : (peer.nodeId = j && !x.knows j &&
    (x.node.directory.place peer .connected now).isOk) with
  | true =>
    exact .connected (hconnects.trans hplace) (fun _ => hplace) (by rw [hafter, hplace, if_pos rfl])
  | false =>
    exact .spared (hconnects.trans hplace) hplace
      (Or.inl (by rw [hafter, hplace, if_neg Bool.false_ne_true]))

/-- What happens to a node connects a peer, brings it in, or leaves it as it is if it does not take
it out. -/
theorem outcome (e : Event) (hne : x.stateOf? j ≠ some .connected) : Outcome j x e := by
  cases e with
  | happens event => exact outcome_happens event hne
  | unopened r now => exact outcome_unopened r now hne
  | roundBegins => exact .spared rfl rfl (Or.inl rfl)
  | pings k i now =>
    exact .spared rfl rfl
      (Or.inl (congrArg (Directory.stateOf? · j) (x.directory_pings k i now)))
  | ponged k i reply now =>
    have hheard := x.directory_ponged k i reply now
    cases hpong : x.pongFrom? (.ponged k i reply now) with
    | some id =>
      rw [hpong] at hheard
      refine outcome_of_hear hheard ?_ rfl
      simp [connects, provesWay, greets, pongs, hpong]
    | none =>
      rw [hpong] at hheard
      refine .spared ?_ rfl (Or.inl (congrArg (Directory.stateOf? · j) hheard))
      simp [connects, provesWay, greets, pongs, hpong]
  | traded k i reply now =>
    exact .spared rfl rfl
      (Or.inl (congrArg (Directory.stateOf? · j) (x.directory_traded k i reply now)))
  | roundEnds k now => exact outcome_roundEnds k now hne
  | reserves peer now => exact outcome_reserves peer now
  | places peer now => exact outcome_places peer now
  | confirms id now =>
    refine outcome_of_hear ((x.directory_withDirectory _).trans Directory.confirm_eq_hear) ?_ rfl
    simp [connects, provesWay, greets, pongs, pongFrom?]
  | releases id =>
    have hafter : (x.step (.releases id)).stateOf? j = _ := Directory.stateOf?_release
    refine .spared rfl rfl ?_
    rw [hafter]
    split_ifs
    · exact Or.inr rfl
    · exact Or.inl rfl
  | drops id =>
    have hafter : (x.step (.drops id)).stateOf? j = _ :=
      (congrArg (Directory.stateOf? · j) (x.directory_withDirectory _)).trans
        Directory.stateOf?_remove
    refine .spared rfl rfl ?_
    rw [hafter]
    split_ifs
    · exact Or.inr rfl
    · exact Or.inl rfl

/-- A peer that is unknown stays so unless it is brought in. -/
theorem stateOf?_step_ne_none_iff (h : x.stateOf? j = none) :
    (x.step e).stateOf? j ≠ none ↔ x.bringsIn j e = true := by
  rcases outcome e (h ▸ Option.some_ne_none _ |>.symm) with
    ⟨-, hin, hafter⟩ | ⟨-, hin, hafter⟩ | ⟨-, hin, hafter⟩
  · simp [hafter, hin h]
  · simp [hafter, hin]
  · simp [hin, hafter.elim (·.trans h) id]

/-- Whatever happens to a node changes its directory by operations. -/
theorem becomes_step : x.node.directory.Becomes (x.step e).node.directory := by
  have hgiven : ∀ {result : Except ProtocolError Directory},
      (∀ d, result = .ok d → x.node.directory.Becomes d) →
      x.node.directory.Becomes (x.withDirectory result).node.directory := fun {result} h => by
    cases result with
    | ok d => exact h d rfl
    | error => exact .refl _
  cases e with
  | happens event =>
    cases event with
    | received m port now => exact x.node.becomes_receive m (some port) now
    | probed k now =>
      show x.node.directory.Becomes (x.toResponder.step _).node.directory
      unfold Responder.step
      dsimp only
      split
      · exact x.node.becomes_holeProbed _ now
      · exact .refl _
    | expired k =>
      show x.node.directory.Becomes (x.toResponder.step _).node.directory
      unfold Responder.step
      dsimp only
      split
      · exact x.node.becomes_holeFailed _
      · exact .refl _
  | unopened r now => exact x.node.becomes_receive _ none now
  | roundBegins => exact .refl _
  | pings k i now => exact x.directory_pings k i now ▸ .refl _
  | ponged k i reply now =>
    rw [directory_ponged]
    split
    · exact .hear _ _ _
    · exact .refl _
  | traded k i reply now => exact x.directory_traded k i reply now ▸ .refl _
  | roundEnds k now =>
    rcases x.directory_roundEnds k now with hsame | hswept
    · exact hsame ▸ .refl _
    · exact hswept ▸ .sweep _ _ _ _
  | reserves peer now => exact hgiven fun _ => .of_reserve
  | places peer now => exact hgiven fun _ => .of_place
  | confirms id now => exact hgiven fun _ => .of_confirm
  | releases id => exact .release _ _
  | drops id =>
    refine hgiven fun d hd => ?_
    cases hremove : x.node.directory.remove id with
    | ok removed =>
      rw [hremove] at hd
      exact Except.ok.inj hd ▸ .of_remove hremove
    | error => simp [hremove, Except.map] at hd

end Step

/-! ## What a run does to a peer -/

section Run

variable {x : Activity} {events : List Event}

/-- A run comes to have a property once it meets an event that brings the property about. -/
theorem exists_after_iff (free property : Activity → Prop) {p : Activity → Event → Bool}
    (hfree : ∀ y, free y → ¬ property y)
    (hstep : ∀ y e, free y → (property (y.step e) ↔ p y e = true))
    (hkeep : ∀ y e, free y → p y e = false → free (y.step e)) (hx : free x) :
    (∃ soon, soon <+: events ∧ property (x.after soon)) ↔ x.meets p events = true := by
  induction events generalizing x with
  | nil => simpa [meets, after] using hfree x hx
  | cons e events ih =>
    have hcons : (∃ soon, soon <+: e :: events ∧ property (x.after soon)) ↔
        ∃ soon, soon <+: events ∧ property ((x.step e).after soon) := by
      constructor
      · rintro ⟨soon, hsoon, hproperty⟩
        cases soon with
        | nil => exact absurd hproperty (hfree x hx)
        | cons e' soon =>
          obtain ⟨rfl, hrest⟩ := List.cons_prefix_cons.mp hsoon
          exact ⟨soon, hrest, hproperty⟩
      · rintro ⟨soon, hsoon, hproperty⟩
        exact ⟨e :: soon, List.cons_prefix_cons.mpr ⟨rfl, hsoon⟩, hproperty⟩
    rw [hcons, meets]
    cases hp : p x e with
    | true => exact iff_of_true ⟨[], List.nil_prefix, (hstep x e hx).mpr hp⟩ rfl
    | false => exact ih (hkeep x e hx hp)

/-- A peer that is gone is brought back by nothing but an accepted join request of its own and the
node's own walk, however late messages, answers, probes and rounds go on. -/
theorem stays_away (h : x.stateOf? j = none) :
    (∃ soon, soon <+: events ∧ (x.after soon).stateOf? j ≠ none) ↔
      x.meets (bringsIn j) events = true :=
  exists_after_iff (fun y => y.stateOf? j = none) (fun y => y.stateOf? j ≠ none)
    (fun _ hy => not_not_intro hy) (fun _ _ => stateOf?_step_ne_none_iff)
    (fun _ _ hy hp => by
      by_contra hne
      simp [(stateOf?_step_ne_none_iff hy).mp hne] at hp) h

/-- A node that opened a hole for a joiner, got a ping of it, began a round, and was then told that
the joiner leaves. -/
def takingLeave : Activity :=
  ({ node := (Responder.natted none).node } : Activity).after
    [.happens (.received (.joinRequest Responder.punching) 1 ⟨0, 0⟩),
      .happens (.received (.ping ⟨⟨"j"⟩, 0⟩) 1 ⟨0, 0⟩), .roundBegins, .pings 0 0 0,
      .happens (.received (.leave ⟨"j"⟩) 1 ⟨0, 0⟩)]

/-- The exchange goes on, the hole is probed, another ping comes and the round ends : a joiner that
has left is not there again before it asks again. -/
theorem stays_away_left :
    takingLeave.stateOf? ⟨"j"⟩ = none ∧
    takingLeave.exchange? 0 0 = some ⟨⟨⟨"j"⟩, "j:7400", true⟩, .pinged 0⟩ ∧
    takingLeave.isOpenFor ⟨"j"⟩ 0 = true ∧
    (¬ ∃ soon, soon <+:
      [.ponged 0 0 (.ok (.pong ⟨⟨"j"⟩, 0⟩)) ⟨1, 1⟩, .happens (.probed 0 1),
        .happens (.received (.ping ⟨⟨"j"⟩, 0⟩) 1 ⟨1, 1⟩),
        .traded 0 0 (.error (.closed "j:7400")) ⟨1, 1⟩, .roundEnds 0 ⟨1, 1⟩] ∧
      (takingLeave.after soon).stateOf? ⟨"j"⟩ ≠ none) ∧
    ∃ soon, soon <+: [.happens (.received (.joinRequest Responder.punching) 1 ⟨2, 2⟩)] ∧
      (takingLeave.after soon).stateOf? ⟨"j"⟩ ≠ none :=
  have hgone : takingLeave.stateOf? ⟨"j"⟩ = none := by decide
  ⟨hgone, by decide, by decide, fun h => absurd ((stays_away hgone).mp h) (by decide),
    (stays_away hgone).mpr (by decide)⟩

end Run

end Activity

end PeerGateway
