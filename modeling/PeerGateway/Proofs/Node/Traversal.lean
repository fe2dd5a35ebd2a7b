import PeerGateway.Proofs.Directory.States
import PeerGateway.Node.Responder
import PeerGateway.Mesh

/-!
# Joiners that have to punch

A joiner for whom a node opens a hole stays joining until the hole comes to something. Meanwhile
other messages come, and other holes are probed or given up, those of the same joiner too.

`Responder.stateOf?_step` is the state of a peer after one event, said by what the event is to the
peer : it vouches for the peer, takes it in or drops it. Over a run, a peer is connected once it has
been vouched for (`Responder.stateOf?_after_eq_connected_iff`) and unknown once it has been lost
(`Responder.stateOf?_after_eq_none_iff`), unless something takes it out.

A hole knows its joiner, but not the request that it was opened for. So a hole that is given up
drops a joining peer whichever request made it joining, and a hole that is probed makes its joiner
connected only if the joiner has not been lost before (`Responder.hole_comes_to`).
-/

namespace PeerGateway

namespace Node

variable (n : Node) (r : JoinRequest) (port : UInt16) (now : Moment)

/-- Whether a joiner has to punch the way to the node. -/
def traverses : Bool := r.behindNat && n.policy.behindNat

/-- Whether the node takes a joiner in. -/
def admits : Bool := (n.directory.takeIn r (n.traverses r) now.steady).1.success

theorem directory_receive_joinRequest :
    (n.receive (.joinRequest r) (some port) now).node.directory =
      (n.directory.takeIn r (n.traverses r) now.steady).2 := by
  simp only [receive, replyToJoin, traverses]
  split_ifs <;> rfl

theorem hole_receive_joinRequest : (n.receive (.joinRequest r) (some port) now).hole =
    if n.traverses r && n.admits r now then some ⟨r.nodeId, port⟩ else none := by
  simp only [receive, replyToJoin, admits, traverses]
  split_ifs with h <;> simp only [h, if_true, if_false, Bool.false_eq_true]

/-- A hole that is probed is a sign of life of its joiner. -/
theorem directory_holeProbed (joiner : NodeId) (instant : Instant) :
    (n.holeProbed joiner instant).directory = (n.directory.hear joiner instant).2 := by
  unfold holeProbed Directory.confirm Directory.hear
  cases n.directory.find? joiner <;> rfl

end Node

namespace Responder

/-- The state of a peer. -/
def stateOf? (x : Responder) (j : NodeId) : Option PeerState := x.node.directory.stateOf? j

/-- The node after a request. -/
def asked (x : Responder) (r : JoinRequest) (port : UInt16) (now : Moment) : Responder :=
  x.step (.received (.joinRequest r) port now)

/-- Some event has a property where it happens. -/
def meets (p : Responder → Happening → Bool) : Responder → List Happening → Bool
  | _, [] => false
  | x, e :: events => p x e || meets p (x.step e) events

/-! ## What an event is to a peer -/

section Peer

variable (j : NodeId) (x : Responder)

/-- The peer is in the directory. -/
def knows : Bool := (x.stateOf? j).isSome

/-- The hole is open for the peer. -/
def isOpenFor (k : ℕ) : Bool := (x.openHole? k).any (·.joiner = j)

/-- A request of the peer is accepted. -/
def takesIn : Happening → Bool
  | .received (.joinRequest r) _ now => r.nodeId = j && x.node.admits r now
  | _ => false

/-- The peer is known and gives a sign of life, or it is taken in and has not to punch. -/
def vouches : Happening → Bool
  | .received (.joinRequest r) _ now =>
    r.nodeId = j && x.node.admits r now && !x.node.traverses r
  | .received (.ping beat) _ _ => beat.nodeId = j && x.knows j
  | .received (.metrics m) _ _ => m.nodeId = j && x.knows j
  | .probed k _ => x.isOpenFor j k && x.knows j
  | _ => false

/-- A hole of the peer is given up while the peer is joining. -/
def drops : Happening → Bool
  | .expired k => x.isOpenFor j k && x.stateOf? j = some .joining
  | _ => false

/-- The peer leaves, or is given up for another one. -/
def takesOut : Happening → Bool
  | .received (.leave id) _ _ => id = j
  | .received (.joinRequest r) port now => r.nodeId ≠ j && x.knows j &&
    !(x.step (.received (.joinRequest r) port now)).knows j
  | _ => false

end Peer

/-- A hole of the peer is given up while the peer is joining, and the peer is not taken in after
that. -/
def loses (j : NodeId) : Responder → List Happening → Bool
  | _, [] => false
  | x, e :: events =>
    x.drops j e && !(x.step e).meets (takesIn j) events || loses j (x.step e) events

/-! ## What an event does to a peer -/

section Step

variable {j : NodeId} {x : Responder}

theorem stateOf?_receive_joinRequest {r : JoinRequest} {port : UInt16} {now : Moment}
    (h : x.takesOut j (.received (.joinRequest r) port now) = false) :
    (x.step (.received (.joinRequest r) port now)).stateOf? j =
      if r.nodeId = j ∧ x.node.admits r now = true then
        if x.stateOf? j = some .connected then some .connected
        else some (Directory.joinerState (x.node.traverses r))
      else x.stateOf? j := by
  have hstep : (x.step (.received (.joinRequest r) port now)).stateOf? j =
      (x.node.directory.takeIn r (x.node.traverses r) now.steady).2.stateOf? j :=
    congrArg (Directory.stateOf? · j) (x.node.directory_receive_joinRequest r port now)
  by_cases hid : r.nodeId = j
  · subst hid
    rw [hstep, Directory.stateOf?_takeIn_joiner]
    simp only [true_and]
    rfl
  · rw [if_neg fun h => hid h.1]
    rcases Directory.stateOf?_takeIn_other (d := x.node.directory) hid with heq | heq
    · exact hstep.trans heq
    · -- A known peer would be given up for the joiner.
      have hgone := hstep.trans heq
      cases hstate : x.stateOf? j with
      | none => exact hgone
      | some state => simp [takesOut, knows, hid, hstate, hgone] at h

theorem stateOf?_of_hear {x' : Responder} {id : NodeId} {instant : Instant}
    (h : x'.node.directory = (x.node.directory.hear id instant).2) :
    x'.stateOf? j = if (id = j && x.knows j) = true then some .connected else x.stateOf? j := by
  rw [stateOf?, h, Directory.stateOf?_hear]
  simp [knows, stateOf?, Option.isSome_iff_ne_none]

theorem isOpenFor_eq {k : ℕ} {hole : Hole} (h : x.openHole? k = some hole) :
    x.isOpenFor j k = decide (hole.joiner = j) := by
  simp [isOpenFor, h]

theorem isOpenFor_eq_false {k : ℕ} (h : x.openHole? k = none) : x.isOpenFor j k = false := by
  simp [isOpenFor, h]

/-- The state of a peer after an event that does not take it out. -/
theorem stateOf?_step {e : Happening} (h : x.takesOut j e = false) : (x.step e).stateOf? j =
    if x.vouches j e = true then some .connected
    else if x.takesIn j e = true then
      if x.stateOf? j = some .connected then some .connected else some .joining
    else if x.drops j e = true then none
    else x.stateOf? j := by
  cases e with
  | received m port now =>
    cases m with
    | joinRequest r =>
      rw [stateOf?_receive_joinRequest h]
      by_cases hin : r.nodeId = j ∧ x.node.admits r now = true
      · cases htraverses : x.node.traverses r <;>
          simp [vouches, takesIn, hin, htraverses, Directory.joinerState]
      · simp [vouches, takesIn, drops, hin]
    | joinResponse => rfl
    | metrics m => exact stateOf?_of_hear rfl
    | ping beat => exact stateOf?_of_hear rfl
    | pong => rfl
    | leave id =>
      have hne : id ≠ j := by simpa [takesOut] using h
      show (x.node.receiveLeave id).node.directory.stateOf? j = x.stateOf? j
      unfold Node.receiveLeave
      split
      · rename_i peer d hremove
        obtain ⟨-, -, -, rfl⟩ := Directory.remove_eq_ok_iff.mp hremove
        exact Directory.stateOf?_drop.trans (if_neg hne)
      · rfl
  | probed k instant =>
    cases hopen : x.openHole? k with
    | none => simp [step, vouches, takesIn, drops, isOpenFor_eq_false hopen, hopen]
    | some hole =>
      have hheard : (x.step (.probed k instant)).node.directory =
          (x.node.directory.hear hole.joiner instant).2 := by
        simp only [step, hopen]
        exact x.node.directory_holeProbed hole.joiner instant
      rw [stateOf?_of_hear hheard]
      simp [vouches, takesIn, drops, isOpenFor_eq hopen]
  | expired k =>
    cases hopen : x.openHole? k with
    | none => simp [step, vouches, takesIn, drops, isOpenFor_eq_false hopen, hopen]
    | some hole =>
      have hreleased : (x.step (.expired k)).stateOf? j =
          if hole.joiner = j ∧ x.stateOf? j = some .joining then none else x.stateOf? j := by
        simp only [step, hopen]
        exact Directory.stateOf?_release
      simp [hreleased, vouches, takesIn, drops, isOpenFor_eq hopen]

theorem stateOf?_of_drops {e : Happening} (h : x.drops j e = true) :
    x.stateOf? j = some .joining ∧ x.takesIn j e = false ∧ x.vouches j e = false := by
  cases e with
  | received => simp [drops] at h
  | probed => simp [drops] at h
  | expired k =>
    simp only [drops, Bool.and_eq_true, decide_eq_true_eq] at h
    exact ⟨h.2, rfl, rfl⟩

/-- Only a peer that is known or taken in is vouched for. -/
theorem takesIn_of_vouches {e : Happening} (h : x.vouches j e = true)
    (hnone : x.stateOf? j = none) : x.takesIn j e = true := by
  have hunknown : x.knows j = false := by simp [knows, hnone]
  cases e with
  | received m port now =>
    cases m with
    | joinRequest r =>
      simp only [vouches, Bool.and_eq_true] at h
      simp only [takesIn, Bool.and_eq_true]
      exact h.1
    | metrics m => simp [vouches, hunknown] at h
    | ping beat => simp [vouches, hunknown] at h
    | joinResponse => simp [vouches] at h
    | pong => simp [vouches] at h
    | leave => simp [vouches] at h
  | probed => simp [vouches, hunknown] at h
  | expired => simp [vouches] at h

theorem stateOf?_step_eq_none_iff {e : Happening} (h : x.takesOut j e = false) :
    (x.step e).stateOf? j = none ↔
      x.stateOf? j = none ∧ x.takesIn j e = false ∨ x.drops j e = true := by
  rw [stateOf?_step h]
  cases hdrops : x.drops j e with
  | true =>
    obtain ⟨-, hin, hvouches⟩ := stateOf?_of_drops hdrops
    simp [hin, hvouches]
  | false =>
    cases hvouches : x.vouches j e with
    | true =>
      have hin := takesIn_of_vouches hvouches
      simp only [if_true, reduceCtorEq, Bool.false_eq_true, or_false, false_iff]
      rintro ⟨hnone, hnot⟩
      simp [hin hnone] at hnot
    | false =>
      cases hin : x.takesIn j e with
      | true => by_cases hstate : x.stateOf? j = some .connected <;> simp [hstate]
      | false => simp

theorem stateOf?_step_eq_connected_iff {e : Happening} (h : x.takesOut j e = false) :
    (x.step e).stateOf? j = some .connected ↔
      x.stateOf? j = some .connected ∨ x.vouches j e = true := by
  rw [stateOf?_step h]
  cases hvouches : x.vouches j e with
  | true => simp
  | false =>
    cases hdrops : x.drops j e with
    | true =>
      obtain ⟨hjoining, hin, -⟩ := stateOf?_of_drops hdrops
      simp [hin, hjoining]
    | false =>
      cases hin : x.takesIn j e with
      | true => by_cases hstate : x.stateOf? j = some .connected <;> simp [hstate]
      | false => simp

theorem stateOf?_step_ne_stale {e : Happening} (h : x.takesOut j e = false)
    (hx : x.stateOf? j ≠ some .stale) : (x.step e).stateOf? j ≠ some .stale := by
  rw [stateOf?_step h]
  split_ifs <;> simp [hx]

end Step

/-! ## What a run does to a peer -/

section Run

variable {j : NodeId} {x : Responder} {events : List Happening}

theorem meets_cons_eq_false {p : Responder → Happening → Bool} {e : Happening}
    (h : x.meets p (e :: events) = false) : p x e = false ∧ (x.step e).meets p events = false :=
  Bool.or_eq_false_iff.mp h

/-- A peer that nothing takes out is unknown in the end if it was at the start and has not been
taken in, or if it has been lost. -/
theorem stateOf?_after_eq_none_iff (h : x.meets (takesOut j) events = false) :
    (x.after events).stateOf? j = none ↔
      x.stateOf? j = none ∧ x.meets (takesIn j) events = false ∨ x.loses j events = true := by
  induction events generalizing x with
  | nil => simp [after, meets, loses]
  | cons e events ih =>
    obtain ⟨hout, hrest⟩ := meets_cons_eq_false h
    show ((x.step e).after events).stateOf? j = none ↔ _
    rw [ih hrest, stateOf?_step_eq_none_iff hout]
    simp only [meets, loses, Bool.or_eq_true, Bool.or_eq_false_iff, Bool.and_eq_true,
      Bool.not_eq_true']
    tauto

/-- A peer that nothing takes out is connected in the end if it was at the start or has been
vouched for. -/
theorem stateOf?_after_eq_connected_iff (h : x.meets (takesOut j) events = false) :
    (x.after events).stateOf? j = some .connected ↔
      x.stateOf? j = some .connected ∨ x.meets (vouches j) events = true := by
  induction events generalizing x with
  | nil => simp [after, meets]
  | cons e events ih =>
    obtain ⟨hout, hrest⟩ := meets_cons_eq_false h
    show ((x.step e).after events).stateOf? j = some .connected ↔ _
    rw [ih hrest, stateOf?_step_eq_connected_iff hout]
    simp only [meets, Bool.or_eq_true, or_assoc]

theorem stateOf?_after_ne_stale (h : x.meets (takesOut j) events = false)
    (hx : x.stateOf? j ≠ some .stale) : (x.after events).stateOf? j ≠ some .stale := by
  induction events generalizing x with
  | nil => exact hx
  | cons e events ih =>
    obtain ⟨hout, hrest⟩ := meets_cons_eq_false h
    exact ih hrest (stateOf?_step_ne_stale hout hx)

theorem meets_initial {p : Responder → Happening → Bool} {soon : List Happening}
    (hsoon : soon <+: events) (h : x.meets p events = false) : x.meets p soon = false := by
  induction soon generalizing x events with
  | nil => rfl
  | cons e soon ih =>
    obtain ⟨later, rfl⟩ := hsoon
    obtain ⟨he, hrest⟩ := meets_cons_eq_false h
    rw [meets, he, Bool.false_or]
    exact ih (List.prefix_append soon later) hrest

theorem meets_concat_eq_false {p : Responder → Happening → Bool} {e : Happening}
    (h : x.meets p events = false) (he : p (x.after events) e = false) :
    x.meets p (events ++ [e]) = false := by
  induction events generalizing x with
  | nil => rw [List.nil_append, meets, meets, Bool.or_false]; exact he
  | cons e' events ih =>
    obtain ⟨he', hrest⟩ := meets_cons_eq_false h
    rw [List.cons_append, meets, he', Bool.false_or]
    exact ih hrest he

end Run

/-! ## What a hole comes to -/

/-- A joiner for whom a hole is opened is connected if it was before, and joining otherwise. -/
theorem stateOf?_of_opened {x : Responder} {r : JoinRequest} {port : UInt16} {now : Moment}
    (h : (x.node.receive (.joinRequest r) (some port) now).hole = some ⟨r.nodeId, port⟩) :
    (x.step (.received (.joinRequest r) port now)).stateOf? r.nodeId =
      if x.stateOf? r.nodeId = some .connected then some .connected else some .joining := by
  rw [Node.hole_receive_joinRequest] at h
  split_ifs at h with hpunch
  obtain ⟨htraverses, hadmits⟩ := Bool.and_eq_true_iff.mp hpunch
  rw [stateOf?_receive_joinRequest (by simp [takesOut]), if_pos ⟨rfl, hadmits⟩, htraverses]
  rfl

section Outcome

variable {x : Responder} {j : NodeId} {k : ℕ} {meanwhile : List Happening}

/-- A hole that is probed makes a peer connected that has not been lost. -/
theorem stateOf?_probed_iff (hknown : x.stateOf? j ≠ none)
    (hopen : (x.after meanwhile).isOpenFor j k = true)
    (hspared : x.meets (takesOut j) meanwhile = false) (instant : Instant) :
    ((x.after meanwhile).step (.probed k instant)).stateOf? j = some .connected ↔
      x.loses j meanwhile = false := by
  have hlost : (x.after meanwhile).stateOf? j = none ↔ x.loses j meanwhile = true := by
    rw [stateOf?_after_eq_none_iff hspared]
    simp only [hknown, false_and, false_or]
  -- The probe vouches for a peer that is known.
  rw [stateOf?_step_eq_connected_iff rfl, vouches, hopen, Bool.true_and, ← Bool.not_eq_true,
    ← hlost, knows]
  cases (x.after meanwhile).stateOf? j <;> simp

/-- A hole that is given up drops a peer that was joining and has not been vouched for. -/
theorem stateOf?_expired_iff (hjoining : x.stateOf? j = some .joining)
    (hopen : (x.after meanwhile).isOpenFor j k = true)
    (hspared : x.meets (takesOut j) meanwhile = false) :
    ((x.after meanwhile).step (.expired k)).stateOf? j ≠ none ↔
      x.meets (vouches j) meanwhile = true := by
  have hvouched : (x.after meanwhile).stateOf? j = some .connected ↔
      x.meets (vouches j) meanwhile = true := by
    rw [stateOf?_after_eq_connected_iff hspared]
    simp only [hjoining, Option.some.injEq, reduceCtorEq, false_or]
  have hstale : (x.after meanwhile).stateOf? j ≠ some .stale :=
    stateOf?_after_ne_stale hspared (by simp [hjoining])
  have hout : (x.after meanwhile).takesIn j (.expired k) = false := rfl
  rw [← hvouched, ne_eq, stateOf?_step_eq_none_iff rfl, drops, hopen, Bool.true_and]
  simp only [hout, and_true, decide_eq_true_eq]
  cases hmid : (x.after meanwhile).stateOf? j with
  | none => simp
  | some state =>
    cases state with
    | joining => simp
    | connected => simp
    | stale => exact absurd hmid hstale

end Outcome

/-- The peer is connected, and is so after each of the events. -/
def StaysConnected (x : Responder) (j : NodeId) (events : List Happening) : Prop :=
  ∀ soon, soon <+: events → (x.after soon).stateOf? j = some .connected

theorem staysConnected_iff {x : Responder} {j : NodeId} {events : List Happening}
    (h : x.meets (takesOut j) events = false) :
    x.StaysConnected j events ↔ x.stateOf? j = some .connected :=
  ⟨fun hall => hall [] List.nil_prefix, fun hx _ hsoon =>
    (stateOf?_after_eq_connected_iff (meets_initial hsoon h)).mpr (Or.inl hx)⟩

/-- A hole is opened for a joiner, and nothing takes the joiner out before the hole comes to
something. If the hole is probed, the joiner is connected from then on, exactly if it was not lost
before by another hole of its that was given up. If the hole is given up, a joiner that was
connected when it asked is connected all along, and another one is still there exactly if it was
vouched for before. -/
theorem hole_comes_to {x : Responder} {r : JoinRequest} {port : UInt16} {now : Moment}
    {meanwhile : List Happening}
    (hopened : (x.node.receive (.joinRequest r) (some port) now).hole = some ⟨r.nodeId, port⟩)
    (hopen : ((x.asked r port now).after meanwhile).isOpenFor r.nodeId x.holes.length = true)
    (hspared : (x.asked r port now).meets (takesOut r.nodeId) meanwhile = false) :
    (∀ instant later,
      (((x.asked r port now).after meanwhile).step
        (.probed x.holes.length instant)).meets (takesOut r.nodeId) later = false →
      ((((x.asked r port now).after meanwhile).step
        (.probed x.holes.length instant)).StaysConnected r.nodeId later ↔
          (x.asked r port now).loses r.nodeId meanwhile = false)) ∧
    (x.stateOf? r.nodeId = some .connected →
      (x.asked r port now).StaysConnected r.nodeId (meanwhile ++ [.expired x.holes.length])) ∧
    (x.stateOf? r.nodeId ≠ some .connected →
      ((((x.asked r port now).after meanwhile).step
        (.expired x.holes.length)).stateOf? r.nodeId ≠ none ↔
          (x.asked r port now).meets (vouches r.nodeId) meanwhile = true)) := by
  have hstate : (x.asked r port now).stateOf? r.nodeId =
      if x.stateOf? r.nodeId = some .connected then some .connected else some .joining :=
    stateOf?_of_opened hopened
  refine ⟨fun instant later hlater => ?_, fun hconnected => ?_, fun hne => ?_⟩
  · rw [staysConnected_iff hlater]
    refine stateOf?_probed_iff ?_ hopen hspared instant
    rw [hstate]
    split_ifs <;> simp
  · rw [staysConnected_iff (meets_concat_eq_false hspared rfl), hstate, if_pos hconnected]
  · rw [if_neg hne] at hstate
    exact stateOf?_expired_iff hstate hopen hspared

/-- A node behind a NAT that knows one peer, or nobody. -/
def natted (known : Option PeerState) : Responder where
  node := { Mesh.lone ⟨"b"⟩ with
    directory := known.elim ⟨⟨"b"⟩, "b:7400", 8, ∅⟩ fun state =>
      Directory.put ⟨⟨"b"⟩, "b:7400", 8, ∅⟩ ⟨"j"⟩ (.fresh ⟨⟨"j"⟩, "j:7400", false⟩ state 0)
    policy := ⟨0, 0, true, 0⟩ }

/-- A request of a joiner behind a NAT. -/
def punching : JoinRequest where
  nodeId := ⟨"j"⟩
  address := "j:7400"
  behindNat := true

/-- A node that has opened a hole for a joiner which it did not know. -/
def awaitingJoiner : Responder := (natted none).asked punching 1 ⟨0, 0⟩

/-- A joiner that asks again is lost by its first hole before its second one is probed, and a
stale one that asks is gone when its hole is given up. -/
theorem hole_comes_to_crossed :
    ¬ (((awaitingJoiner.asked punching 2 ⟨0, 0⟩).after [.expired 0]).step
      (.probed 1 0)).StaysConnected ⟨"j"⟩ [] ∧
    (natted (some .stale)).stateOf? ⟨"j"⟩ = some .stale ∧
    (((natted (some .stale)).asked punching 1 ⟨0, 0⟩).step (.expired 0)).stateOf? ⟨"j"⟩ =
      none := by
  refine ⟨fun h => ?_, by decide, ?_⟩
  · obtain ⟨hprobed, -, -⟩ := @hole_comes_to awaitingJoiner punching 2 ⟨0, 0⟩ [.expired 0]
      (by decide) (by decide) (by decide)
    exact absurd ((hprobed 0 [] rfl).mp h) (by decide)
  · obtain ⟨-, -, hexpired⟩ := @hole_comes_to (natted (some .stale)) punching 1 ⟨0, 0⟩ []
      (by decide) (by decide) (by decide)
    by_contra hknown
    exact absurd ((hexpired (by decide)).mp hknown) (by decide)

/-- A hole does not settle only what became of the request that it was opened for : one that is
probed need not make its joiner connected, and one that is given up may drop a peer that was there
before. -/
theorem not_hole_settles_own :
    (¬ ∀ (x : Responder) (r : JoinRequest) (port : UInt16) (now : Moment)
      (meanwhile : List Happening) (instant : Instant),
      (x.node.receive (.joinRequest r) (some port) now).hole = some ⟨r.nodeId, port⟩ →
      ((x.asked r port now).after meanwhile).isOpenFor r.nodeId x.holes.length = true →
      (x.asked r port now).meets (takesOut r.nodeId) meanwhile = false →
      (((x.asked r port now).after meanwhile).step
        (.probed x.holes.length instant)).stateOf? r.nodeId = some .connected) ∧
    (¬ ∀ (x : Responder) (r : JoinRequest) (port : UInt16) (now : Moment)
      (meanwhile : List Happening),
      (x.node.receive (.joinRequest r) (some port) now).hole = some ⟨r.nodeId, port⟩ →
      ((x.asked r port now).after meanwhile).isOpenFor r.nodeId x.holes.length = true →
      (x.asked r port now).meets (takesOut r.nodeId) meanwhile = false →
      x.stateOf? r.nodeId = some .connected ∨ x.stateOf? r.nodeId = some .stale →
      (((x.asked r port now).after meanwhile).step
        (.expired x.holes.length)).stateOf? r.nodeId ≠ none) := by
  refine ⟨fun h => ?_, fun h => ?_⟩
  · have hconnected := h awaitingJoiner punching 2 ⟨0, 0⟩ [.expired 0] 0
      (by decide) (by decide) (by decide)
    exact absurd hconnected (by decide)
  · have hknown := h (natted (some .stale)) punching 1 ⟨0, 0⟩ [] (by decide) (by decide)
      (by decide) (Or.inr (by decide))
    exact absurd hknown (by decide)

end Responder

end PeerGateway
