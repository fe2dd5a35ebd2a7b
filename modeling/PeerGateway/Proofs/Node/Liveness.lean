import PeerGateway.Proofs.Directory.Heard
import PeerGateway.Proofs.Node.Rounds
import PeerGateway.Proofs.Node.Presence

/-!
# Signs of life

A connected peer was last heard at some instant, and `Activity.heardAfter` is what one event makes
of it : a sign of life sets it, a leave or an operator unsets it, and so does the sweep at the end
of a round if it is too long ago. `Activity.heardAt?_step` is the step, that this is what the
directory remembers, and `Activity.heardAt?_after` the induction over a run.

What happens to other peers does not matter. So a peer that is connected and neither leaves nor is
taken out stays so until a round ends, however late it is then (`Activity.lastHeard?_of_spared`).
-/

namespace PeerGateway

namespace Activity

/-- The instant of an event, if it has one. -/
def Event.instant? : Event → Option Instant
  | .happens (.received _ _ now) => some now.steady
  | .happens (.probed _ now) => some now
  | .happens (.expired _) => none
  | .unopened _ now => some now.steady
  | .roundBegins => none
  | .pings _ _ now => some now
  | .ponged _ _ _ now => some now.steady
  | .traded _ _ _ now => some now.steady
  | .roundEnds _ now => some now.steady
  | .reserves _ now => some now
  | .places _ now => some now
  | .confirms _ now => some now
  | .releases _ => none
  | .drops _ => none

/-- The peer leaves, or an operator takes it out. -/
def Event.removes (j : NodeId) : Event → Bool
  | .happens (.received (.leave id) _ _) => id = j
  | .drops id => id = j
  | _ => false

/-- A join request of the peer is accepted while it is connected. -/
def renews (j : NodeId) (x : Activity) : Event → Bool
  | .happens (.received (.joinRequest r) _ now) =>
    r.nodeId = j && x.node.admits r now && x.stateOf? j = some .connected
  | .unopened r now => r.nodeId = j && x.node.admits r now && x.stateOf? j = some .connected
  | _ => false

/-- The peer gives a sign of life that counts : it is known, or taken in without having to punch. -/
def hears (j : NodeId) (x : Activity) (e : Event) : Bool := x.connects j e || x.renews j e

/-- The instant at which an event ends a round, and the directory is swept. -/
def sweepsAt? (x : Activity) : Event → Option Instant
  | .roundEnds k now =>
    if (x.round? k).any (·.all fun c => c.stage = .over) then some now.steady else none
  | _ => none

/-- When a connected peer was last heard, after an event. -/
def heardAfter (j : NodeId) (x : Activity) (t : Option Instant) (e : Event) : Option Instant :=
  if e.removes j then none
  else if x.hears j e then e.instant?
  else match x.sweepsAt? e with
    | some now => t.filter fun t => now.since t < x.node.policy.window
    | none => t

/-- When a connected peer was last heard, after all that happens. -/
def lastHeard? (j : NodeId) : Activity → Option Instant → List Event → Option Instant
  | _, t, [] => t
  | x, t, e :: events => lastHeard? j (x.step e) (x.heardAfter j t e) events

section Step

variable {j : NodeId} {x : Activity} {e : Event} {events : List Event}

theorem heardAfter_of_spared {t : Option Instant} (hremoves : e.removes j = false)
    (hhears : x.hears j e = false) (hsweeps : x.sweepsAt? e = none) :
    x.heardAfter j t e = t := by
  simp [heardAfter, hremoves, hhears, hsweeps]

theorem heardAt?_of_hear {k : NodeId} {now : Instant}
    (hheard : (x.step e).node.directory = (x.node.directory.hear k now).2)
    (hremoves : e.removes j = false) (hhears : x.hears j e = (k = j && x.knows j))
    (hsweeps : x.sweepsAt? e = none) (hinstant : e.instant? = some now) :
    (x.step e).node.directory.heardAt? j = x.heardAfter j (x.node.directory.heardAt? j) e := by
  have hknows : x.knows j = true ↔ x.node.directory.stateOf? j ≠ none := by
    simp [Responder.knows, Responder.stateOf?, Option.isSome_iff_ne_none]
  rw [hheard, Directory.heardAt?_hear]
  simp only [heardAfter, hremoves, hhears, hsweeps, hinstant, Bool.and_eq_true,
    decide_eq_true_eq, hknows, Bool.false_eq_true, if_false]

theorem heardAt?_of_takeIn {r : JoinRequest} {now : Moment}
    (hd : x.node.directory.Consistent)
    (htaken : (x.step e).node.directory.heardAt? j =
      (x.node.directory.takeIn r (x.node.traverses r) now.steady).2.heardAt? j)
    (hremoves : e.removes j = false) (hsweeps : x.sweepsAt? e = none)
    (hhears : x.hears j e = (x.acceptsOutright j r now ||
      r.nodeId = j && x.node.admits r now && x.stateOf? j = some .connected))
    (hinstant : e.instant? = some now.steady) :
    (x.step e).node.directory.heardAt? j = x.heardAfter j (x.node.directory.heardAt? j) e := by
  rw [htaken]
  by_cases hid : r.nodeId = j
  · subst hid
    rw [Directory.heardAt?_takeIn_joiner]
    simp only [heardAfter, hremoves, hhears, hsweeps, hinstant, acceptsOutright, Bool.or_eq_true,
      Bool.and_eq_true, decide_eq_true_eq, Bool.not_eq_true', Bool.false_eq_true, if_false,
      true_and]
    refine if_congr ?_ rfl rfl
    show (x.node.admits r now = true ∧ _) ↔ _
    rw [← and_or_left, or_comm]
    rfl
  · rw [hd.heardAt?_takeIn_other hid, heardAfter_of_spared hremoves ?_ hsweeps]
    simp [hhears, acceptsOutright, hid]

theorem heardAt?_received (hd : x.node.directory.Consistent) (m : Message) (port : UInt16)
    (now : Moment) : (x.step (.happens (.received m port now))).node.directory.heardAt? j =
      x.heardAfter j (x.node.directory.heardAt? j) (.happens (.received m port now)) := by
  have hconnects : x.connects j (.happens (.received m port now)) = _ := connects_happens _
  cases m with
  | joinRequest r =>
    refine heardAt?_of_takeIn (r := r) hd ?_ rfl rfl ?_ rfl
    · exact congrArg (Directory.heardAt? · j) (x.node.directory_receive_joinRequest r port now)
    · rw [hears, hconnects]
      rfl
  | metrics m =>
    refine heardAt?_of_hear rfl rfl ?_ rfl rfl
    rw [hears, hconnects]
    exact Bool.or_false _
  | ping beat =>
    refine heardAt?_of_hear rfl rfl ?_ rfl rfl
    rw [hears, hconnects]
    exact Bool.or_false _
  | joinResponse => exact (heardAfter_of_spared rfl (by rw [hears, hconnects]; rfl) rfl).symm
  | pong => exact (heardAfter_of_spared rfl (by rw [hears, hconnects]; rfl) rfl).symm
  | leave id =>
    have hremoved : (x.node.receiveLeave id).node.directory =
        ((x.node.directory.remove id).map Prod.snd).toOption.getD x.node.directory := by
      unfold Node.receiveLeave
      cases x.node.directory.remove id <;> rfl
    show (x.node.receiveLeave id).node.directory.heardAt? j = _
    rw [hremoved, Directory.heardAt?_remove]
    by_cases hid : id = j
    · simp [heardAfter, Event.removes, hid]
    · have hremoves : (Event.happens (.received (.leave id) port now)).removes j = false :=
        decide_eq_false hid
      rw [if_neg hid, heardAfter_of_spared hremoves (by rw [hears, hconnects]; rfl) rfl]

theorem heardAt?_happens (hd : x.node.directory.Consistent) (event : Happening) :
    (x.step (.happens event)).node.directory.heardAt? j =
      x.heardAfter j (x.node.directory.heardAt? j) (.happens event) := by
  cases event with
  | received m port now => exact heardAt?_received hd m port now
  | probed k now =>
    have hconnects : x.connects j (.happens (.probed k now)) = _ := connects_happens _
    cases hopen : x.openHole? k with
    | none =>
      have hsame : x.toResponder.step (.probed k now) = x.toResponder := by
        simp only [Responder.step, hopen]
      rw [heardAfter_of_spared rfl _ rfl]
      · exact congrArg (fun y => y.node.directory.heardAt? j) hsame
      · rw [hears, hconnects]
        simp [Responder.vouches, Responder.isOpenFor_eq_false hopen, renews]
    | some hole =>
      refine heardAt?_of_hear (k := hole.joiner) ?_ rfl ?_ rfl rfl
      · show (x.toResponder.step (.probed k now)).node.directory = _
        simp only [Responder.step, hopen]
        exact x.node.directory_holeProbed hole.joiner now
      · rw [hears, hconnects]
        simp [Responder.vouches, Responder.isOpenFor_eq hopen, renews]
  | expired k =>
    have hconnects : x.connects j (.happens (.expired k)) = _ := connects_happens _
    rw [heardAfter_of_spared rfl (by rw [hears, hconnects]; rfl) rfl]
    show (x.toResponder.step (.expired k)).node.directory.heardAt? j = _
    unfold Responder.step
    dsimp only
    split
    · exact Directory.heardAt?_release
    · rfl

/-- The end of a round sweeps the directory exactly if all its exchanges are over. -/
theorem directory_roundEnds_eq (k : ℕ) (now : Moment) :
    (x.step (.roundEnds k now)).node.directory =
      match x.sweepsAt? (.roundEnds k now) with
      | some t => (x.node.directory.sweep t x.node.policy.window x.node.policy.staleGrace).2
      | none => x.node.directory := by
  unfold step sweepsAt?
  dsimp only
  cases x.round? k with
  | none => rfl
  | some exchanges =>
    simp only [Option.any_some]
    split_ifs <;> rfl

/-- What an event makes of the last sign of life of a peer. -/
theorem heardAt?_step (hd : x.node.directory.Consistent) :
    (x.step e).node.directory.heardAt? j = x.heardAfter j (x.node.directory.heardAt? j) e := by
  cases e with
  | happens event => exact heardAt?_happens hd event
  | unopened r now =>
    have hconnects : x.connects j (.unopened r now) = x.acceptsOutright j r now := by
      simp [connects, provesWay, greets, pongs, pongFrom?]
    refine heardAt?_of_takeIn (r := r) hd ?_ rfl rfl ?_ rfl
    · show (x.node.receive (.joinRequest r) none now).node.directory.heardAt? j = _
      rw [directory_unopened]
      split_ifs
      · exact Directory.heardAt?_release
      · rfl
    · rw [hears, hconnects]
      rfl
  | roundBegins => exact (heardAfter_of_spared rfl rfl rfl).symm
  | pings k i now => rw [directory_pings, heardAfter_of_spared rfl rfl rfl]
  | ponged k i reply now =>
    have hheard := x.directory_ponged k i reply now
    have hhears : x.hears j (.ponged k i reply now) = x.pongs j (.ponged k i reply now) := by
      simp [hears, connects, provesWay, greets, renews]
    cases hpong : x.pongFrom? (.ponged k i reply now) with
    | some id =>
      rw [hpong] at hheard
      refine heardAt?_of_hear hheard rfl (hhears.trans ?_) rfl rfl
      simp [pongs, hpong]
    | none =>
      rw [hpong] at hheard
      rw [hheard, heardAfter_of_spared rfl (hhears.trans ?_) rfl]
      simp [pongs, hpong]
  | traded k i reply now => rw [directory_traded, heardAfter_of_spared rfl rfl rfl]
  | roundEnds k now =>
    rw [directory_roundEnds_eq]
    cases hsweeps : x.sweepsAt? (.roundEnds k now) with
    | none => exact (heardAfter_of_spared rfl rfl hsweeps).symm
    | some t =>
      simp only [Directory.heardAt?_sweep, heardAfter, hsweeps]
      rfl
  | reserves peer now =>
    rw [heardAfter_of_spared rfl rfl rfl]
    show (x.withDirectory (x.node.directory.place peer .joining now)).node.directory.heardAt? j = _
    rw [directory_withDirectory, Directory.heardAt?_place]
    split_ifs with hplaced h
    · cases h
    · exact (Directory.heardAt?_eq_none_iff.mpr (by simp [hplaced.2.1])).symm
    · rfl
  | places peer now =>
    have hhears : x.hears j (.places peer now) = (peer.nodeId = j && !x.knows j &&
        (x.node.directory.place peer .connected now).isOk) := by
      simp [hears, connects, provesWay, greets, pongs, pongFrom?, renews]
    have hunknown : x.knows j = false ↔ x.node.directory.stateOf? j = none := by
      simp [Responder.knows, Responder.stateOf?]
    show (x.withDirectory
      (x.node.directory.place peer .connected now)).node.directory.heardAt? j = _
    rw [directory_withDirectory, Directory.heardAt?_place]
    simp only [heardAfter, hhears, Bool.and_eq_true, decide_eq_true_eq, Bool.not_eq_true',
      hunknown, and_assoc, if_true]
    rfl
  | confirms id now =>
    refine heardAt?_of_hear ((x.directory_withDirectory _).trans Directory.confirm_eq_hear) rfl ?_
      rfl rfl
    simp [hears, connects, provesWay, greets, pongs, pongFrom?, renews]
  | releases id =>
    rw [heardAfter_of_spared rfl rfl rfl]
    exact Directory.heardAt?_release
  | drops id =>
    show (x.withDirectory _).node.directory.heardAt? j = _
    rw [directory_withDirectory, Directory.heardAt?_remove]
    by_cases hid : id = j
    · simp [heardAfter, Event.removes, hid]
    · have hremoves : (Event.drops id).removes j = false := decide_eq_false hid
      rw [if_neg hid, heardAfter_of_spared hremoves rfl rfl]

/-- A directory remembers of every peer when it was last heard. -/
theorem heardAt?_after (hd : x.node.directory.Consistent) :
    (x.after events).node.directory.heardAt? j =
      x.lastHeard? j (x.node.directory.heardAt? j) events := by
  induction events generalizing x with
  | nil => rfl
  | cons e events ih =>
    rw [lastHeard?, ← heardAt?_step hd]
    exact ih (becomes_step.consistent hd)

/-! ## Peers that nothing takes out -/

/-- The end of a round. -/
def Event.endsRound : Event → Bool
  | .roundEnds _ _ => true
  | _ => false

theorem sweepsAt?_of_endsRound (h : e.endsRound = false) : x.sweepsAt? e = none := by
  cases e with
  | roundEnds => simp [Event.endsRound] at h
  | _ => rfl

theorem exists_instant?_of_hears (h : x.hears j e = true) : ∃ t, e.instant? = some t := by
  cases e with
  | happens event =>
    rw [hears, connects_happens] at h
    cases event with
    | received m port now => exact ⟨_, rfl⟩
    | probed k now => exact ⟨_, rfl⟩
    | expired k => simp [Responder.vouches, renews] at h
  | roundBegins => simp [hears, connects, provesWay, greets, pongs, pongFrom?, renews] at h
  | releases => simp [hears, connects, provesWay, greets, pongs, pongFrom?, renews] at h
  | drops => simp [hears, connects, provesWay, greets, pongs, pongFrom?, renews] at h
  | _ => exact ⟨_, rfl⟩

theorem lastHeard?_append (t : Option Instant) (events later : List Event) :
    x.lastHeard? j t (events ++ later) =
      (x.after events).lastHeard? j (x.lastHeard? j t events) later := by
  induction events generalizing x t with
  | nil => rfl
  | cons e events ih => exact ih _

/-- What is connected stays so until it is taken out or a round ends. It was last heard when it was
heard before, or at one of the events since. -/
theorem lastHeard?_of_spared {t : Instant}
    (h : ∀ e ∈ events, e.removes j = false ∧ e.endsRound = false) :
    ∃ t', x.lastHeard? j (some t) events = some t' ∧
      (t' = t ∨ t' ∈ events.filterMap Event.instant?) := by
  induction events generalizing x t with
  | nil => exact ⟨t, rfl, Or.inl rfl⟩
  | cons e events ih =>
    obtain ⟨⟨hremoves, hends⟩, hrest⟩ := List.forall_mem_cons.mp h
    rw [lastHeard?]
    cases hhears : x.hears j e with
    | false =>
      rw [heardAfter_of_spared hremoves hhears (sweepsAt?_of_endsRound hends)]
      obtain ⟨t', hlast, ht'⟩ := ih hrest
      refine ⟨t', hlast, ht'.imp_right fun hmem => ?_⟩
      exact (List.sublist_cons_self e events).filterMap _ |>.subset hmem
    | true =>
      obtain ⟨s, hs⟩ := exists_instant?_of_hears hhears
      have hset : x.heardAfter j (some t) e = some s := by simp [heardAfter, hremoves, hhears, hs]
      rw [hset]
      obtain ⟨t', hlast, ht'⟩ := ih hrest
      refine ⟨t', hlast, Or.inr ?_⟩
      rw [List.filterMap_cons_some hs]
      exact List.mem_cons.mpr ht'

end Step

end Activity

end PeerGateway
