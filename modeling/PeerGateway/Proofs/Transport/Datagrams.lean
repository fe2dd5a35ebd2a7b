import PeerGateway.Proofs.Node.Operations
import PeerGateway.Proofs.Directory.States
import PeerGateway.Transport.Datagrams
import Mathlib.Data.Nat.Notation
import Mathlib.Tactic.Common
import Mathlib.Tactic.SplitIfs

/-!
# What becomes of a punch where datagrams are lost

A hole answers one probe only, so there is at most one acknowledgement. `Punching.Phase` says how
far both ends have come and what was lost so far, and each event leads from one phase to another
(`Punching.Phase.step`). Every run ends (`Punching.length_le_weight`), and where it ends with fewer
losses than there are attempts, the hole was probed, and the joiner has got through exactly if the
acknowledgement was not lost (`Punching.punched_iff`).

`Punch.through` plays one of these runs (`Punching.exists_run_through`).
-/

namespace PeerGateway

namespace Punching

variable {x : Punching} {joiner target : SocketAddress} {gone : List Datagram}

/-- The acknowledgement of a probe. -/
abbrev ack : Datagram := .toJoiner Punch.acknowledgement

/-- The datagram that is lost at an event, if one is. -/
def lost? (x : Punching) : Event → Option Datagram
  | .lost i => x.inFlight[i]?
  | _ => none

/-- The datagrams that are lost in a run, in order. -/
def lost : Punching → List Event → List Datagram
  | _, [] => []
  | x, e :: events => (x.lost? e).toList ++ lost (x.step e) events

/-- Nothing can happen any more. -/
def AtRest (x : Punching) : Prop := ∀ e, x.step e = x

/-! ## Phases -/

/-- How far both ends have come, and what was lost so far. -/
inductive Phase (joiner target : SocketAddress) : Punching → List Datagram → Prop
  /-- All probes but the last one were lost. -/
  | probing {left : ℕ} {gone : List Datagram} (hgone : gone.length + left + 1 = Punch.attempts)
      (hack : ack ∉ gone) :
      Phase joiner target ⟨joiner, target, .waiting left, .waiting, [.toHole Punch.probe]⟩ gone
  | missed {left : ℕ} {gone : List Datagram} (hgone : gone.length + left = Punch.attempts)
      (hack : ack ∉ gone) : Phase joiner target ⟨joiner, target, .waiting left, .waiting, []⟩ gone
  | unreached {gone : List Datagram} (hgone : gone.length = Punch.attempts) :
      Phase joiner target ⟨joiner, target, .ended false, .waiting, []⟩ gone
  | answered {left : ℕ} {gone : List Datagram} (hack : ack ∉ gone) :
      Phase joiner target ⟨joiner, target, .waiting left, .probed joiner, [ack]⟩ gone
  /-- The acknowledgement was lost, and nobody answers any more. -/
  | unheard {left : ℕ} {gone inFlight : List Datagram} (hack : ack ∈ gone)
      (hflight : inFlight = [] ∨ inFlight = [.toHole Punch.probe]) :
      Phase joiner target ⟨joiner, target, .waiting left, .probed joiner, inFlight⟩ gone
  | failed {gone : List Datagram} (hack : ack ∈ gone) :
      Phase joiner target ⟨joiner, target, .ended false, .probed joiner, []⟩ gone
  | through {gone : List Datagram} (hack : ack ∉ gone) :
      Phase joiner target ⟨joiner, target, .ended true, .probed joiner, []⟩ gone

theorem phase_start (joiner target : SocketAddress) :
    Phase joiner target (start joiner target) [] :=
  .probing rfl (by simp)

theorem step_of_inFlight_eq_nil (h : x.inFlight = []) {done : Bool}
    (hover : x.puncher = .ended done) (e : Event) : x.step e = x := by
  cases x
  subst h hover
  cases e <;> rfl

theorem lost?_of_inFlight_eq_nil (h : x.inFlight = []) (e : Event) : x.lost? e = none := by
  cases e <;> simp [lost?, h]

/-- Nothing happens to a datagram that is not there. -/
theorem step_of_length_le {i : ℕ} (h : x.inFlight.length ≤ i) :
    x.step (.arrives i) = x ∧ x.step (.lost i) = x ∧ x.lost? (.lost i) = none := by
  have hnone : x.inFlight[i]? = none := List.getElem?_eq_none h
  simp [step, lost?, hnone, List.eraseIdx_of_length_le h]

/-- A datagram that is the only one on its way arrives, is lost or stays on its way. -/
theorem step_of_inFlight_eq_singleton {m : Datagram} (h : x.inFlight = [m]) (e : Event) :
    e = .arrives 0 ∨ e = .lost 0 ∨ x.step e = x ∧ x.lost? e = none := by
  have hbeyond (i : ℕ) : x.inFlight.length ≤ i + 1 := by simp [h]
  cases e with
  | slotEnds => simp [step, lost?, h]
  | arrives i =>
    cases i with
    | zero => simp
    | succ i => exact Or.inr (Or.inr ⟨(step_of_length_le (hbeyond i)).1, rfl⟩)
  | lost i =>
    cases i with
    | zero => simp
    | succ i => exact Or.inr (Or.inr (step_of_length_le (hbeyond i)).2)

/-- Where nothing is on its way, only the time of an attempt passes. -/
theorem step_of_nothing_inFlight (h : x.inFlight = []) (e : Event) :
    e = .slotEnds ∨ x.step e = x := by
  cases e with
  | slotEnds => exact Or.inl rfl
  | arrives i => exact Or.inr (step_of_length_le (by simp [h])).1
  | lost i => exact Or.inr (step_of_length_le (by simp [h])).2.1

/-- One event leads from one phase to another. -/
theorem Phase.step (h : Phase joiner target x gone) (e : Event) :
    Phase joiner target (x.step e) (gone ++ (x.lost? e).toList) := by
  have hover {x : Punching} (hx : Phase joiner target x gone) (hflight : x.inFlight = [])
      {done : Bool} (hdone : x.puncher = .ended done) :
      Phase joiner target (x.step e) (gone ++ (x.lost? e).toList) := by
    simpa [step_of_inFlight_eq_nil hflight hdone, lost?_of_inFlight_eq_nil hflight] using hx
  -- What is on its way stays there unless the event is about it.
  have hstays {x : Punching} (hx : Phase joiner target x gone)
      (heq : x.step e = x ∧ x.lost? e = none) :
      Phase joiner target (x.step e) (gone ++ (x.lost? e).toList) := by
    simpa [heq.1, heq.2] using hx
  cases h with
  | unreached hgone => exact hover (.unreached hgone) rfl rfl
  | failed hack => exact hover (.failed hack) rfl rfl
  | through hack => exact hover (.through hack) rfl rfl
  | @probing left _ hgone hack =>
    rcases step_of_inFlight_eq_singleton (x := ⟨joiner, target, .waiting left, .waiting,
      [.toHole Punch.probe]⟩) rfl e with rfl | rfl | heq
    · simpa [Punching.step, lost?, Mouth.receive] using Phase.answered hack
    · have hmissed : (gone ++ [Datagram.toHole Punch.probe]).length + left = Punch.attempts := by
        rw [List.length_append, List.length_singleton, ← hgone]
        omega
      have hack' : ack ∉ gone ++ [Datagram.toHole Punch.probe] := by simpa using hack
      exact .missed hmissed hack'
    · exact hstays (.probing hgone hack) heq
  | @missed left _ hgone hack =>
    rw [lost?_of_inFlight_eq_nil rfl, Option.toList_none, List.append_nil]
    rcases step_of_nothing_inFlight (x := ⟨joiner, target, .waiting left, .waiting, []⟩) rfl e with
      rfl | heq
    · cases left with
      | zero => exact .unreached hgone
      | succ left => exact .probing hgone hack
    · rw [heq]
      exact .missed hgone hack
  | @answered left _ hack =>
    rcases step_of_inFlight_eq_singleton (x := ⟨joiner, target, .waiting left, .probed joiner,
      [ack]⟩) rfl e with rfl | rfl | heq
    · simpa [Punching.step, lost?, Puncher.receive, Punch.isDone] using Phase.through hack
    · have hlost : ack ∈ gone ++ [ack] := by simp
      exact .unheard hlost (Or.inl rfl)
    · exact hstays (.answered hack) heq
  | @unheard left _ inFlight hack hflight =>
    have hkept (m : Datagram) : ack ∈ gone ++ [m] := List.mem_append_left _ hack
    rcases hflight with rfl | rfl
    · rw [lost?_of_inFlight_eq_nil rfl, Option.toList_none, List.append_nil]
      rcases step_of_nothing_inFlight
        (x := ⟨joiner, target, .waiting left, .probed joiner, []⟩) rfl e with rfl | heq
      · cases left with
        | zero => exact .failed hack
        | succ left => exact .unheard hack (Or.inr rfl)
      · rw [heq]
        exact .unheard hack (Or.inl rfl)
    · rcases step_of_inFlight_eq_singleton (x := ⟨joiner, target, .waiting left, .probed joiner,
        [.toHole Punch.probe]⟩) rfl e with rfl | rfl | heq
      · have hunheard :
            Phase joiner target ⟨joiner, target, .waiting left, .probed joiner, []⟩ gone :=
          .unheard hack (Or.inl rfl)
        simpa [Punching.step, lost?, Mouth.receive] using hunheard
      · exact .unheard (hkept _) (Or.inl rfl)
      · exact hstays (.unheard hack (Or.inr rfl)) heq

/-- How far both ends have come after a run. -/
theorem Phase.after (h : Phase joiner target x gone) (events : List Event) :
    Phase joiner target (x.after events) (gone ++ x.lost events) := by
  induction events generalizing x gone with
  | nil => simpa [lost, Punching.after] using h
  | cons e events ih =>
    rw [lost, ← List.append_assoc]
    exact ih (h.step e)

theorem phase_after (joiner target : SocketAddress) (events : List Event) :
    Phase joiner target ((start joiner target).after events)
      ((start joiner target).lost events) :=
  (phase_start joiner target).after events

/-- Both ends have come to something where nothing can happen any more. -/
theorem Phase.of_atRest (h : Phase joiner target x gone) (hrest : x.AtRest) :
    (gone.length = Punch.attempts ∧ x.puncher = .ended false ∧ x.mouth = .waiting) ∨
      (x.puncher = .ended (decide (ack ∉ gone)) ∧ x.mouth = .probed joiner) := by
  cases h with
  | probing => simpa [Punching.step] using hrest (.lost 0)
  | @missed left => cases left <;> simpa [Punching.step] using hrest .slotEnds
  | unreached hgone => exact Or.inl ⟨hgone, rfl, rfl⟩
  | answered => simpa [Punching.step] using hrest (.lost 0)
  | @unheard left _ inFlight _ hflight =>
    rcases hflight with rfl | rfl
    · cases left <;> simpa [Punching.step] using hrest .slotEnds
    · simpa [Punching.step] using hrest (.lost 0)
  | failed hack => exact Or.inr ⟨by simp [hack], rfl⟩
  | through hack => exact Or.inr ⟨by simp [hack], rfl⟩

/-! ## Every run ends -/

/-- Each event of a run changes something. -/
def Moves : Punching → List Event → Prop
  | _, [] => True
  | x, e :: events => x.step e ≠ x ∧ Moves (x.step e) events

end Punching

/-- The most that can happen to a datagram and what is sent for it. -/
def Datagram.weight : Datagram → ℕ
  | .toHole _ => 2
  | .toJoiner _ => 1

/-- The most that can happen to the attempts of a joiner. -/
def Puncher.weight : Puncher → ℕ
  | .waiting left => 3 * left + 1
  | .ended _ => 0

theorem Puncher.weight_receive_le (p : Puncher) (target sender : SocketAddress) (content : Bytes) :
    (p.receive target content sender).weight ≤ p.weight := by
  cases p with
  | waiting left =>
    rw [receive]
    split_ifs
    · exact Nat.zero_le _
    · exact le_rfl
  | ended done => exact le_rfl

namespace Punching

variable {x : Punching}

/-- The most that can happen to datagrams on their way. -/
def flightWeight : List Datagram → ℕ
  | [] => 0
  | m :: rest => m.weight + flightWeight rest

theorem flightWeight_append (inFlight more : List Datagram) :
    flightWeight (inFlight ++ more) = flightWeight inFlight + flightWeight more := by
  induction inFlight with
  | nil => simp [flightWeight]
  | cons m rest ih => rw [List.cons_append, flightWeight, flightWeight, ih, Nat.add_assoc]

theorem flightWeight_eraseIdx {inFlight : List Datagram} {i : ℕ} {m : Datagram}
    (h : inFlight[i]? = some m) :
    flightWeight (inFlight.eraseIdx i) + m.weight = flightWeight inFlight := by
  induction inFlight generalizing i with
  | nil => simp at h
  | cons first rest ih =>
    cases i with
    | zero =>
      obtain rfl : first = m := by simpa using h
      rw [List.eraseIdx_cons_zero, flightWeight, Nat.add_comm]
    | succ i =>
      have hrest := ih (List.getElem?_cons_succ ▸ h)
      rw [List.eraseIdx_cons_succ, flightWeight, flightWeight, Nat.add_assoc, hrest]

/-- The most that can happen. -/
def weight (x : Punching) : ℕ := x.puncher.weight + flightWeight x.inFlight

/-- Less can happen after an event that changes something. -/
theorem weight_step_lt {e : Event} (h : x.step e ≠ x) : (x.step e).weight < x.weight := by
  cases e with
  | arrives i =>
    cases hm : x.inFlight[i]? with
    | none => simp [step, hm] at h
    | some m =>
      have hless := flightWeight_eraseIdx hm
      cases m with
      | toHole content =>
        -- A probe is answered by one acknowledgement at most.
        have hreply : flightWeight
            ((x.mouth.receive content x.joiner).2.map Datagram.toJoiner).toList ≤ 1 := by
          cases (x.mouth.receive content x.joiner).2 <;> simp [flightWeight, Datagram.weight]
        simp only [step, hm, weight, flightWeight_append]
        simp only [Datagram.weight] at hless
        omega
      | toJoiner content =>
        have hreceive := x.puncher.weight_receive_le x.target x.target content
        simp only [step, hm, weight]
        simp only [Datagram.weight] at hless
        omega
  | lost i =>
    cases hm : x.inFlight[i]? with
    | none =>
      exact absurd (step_of_length_le (List.getElem?_eq_none_iff.mp hm)).2.1 h
    | some m =>
      have hless := flightWeight_eraseIdx hm
      have hpos : 0 < m.weight := by cases m <;> simp [Datagram.weight]
      simp only [step, weight]
      omega
  | slotEnds =>
    obtain ⟨_, _, puncher, _, inFlight⟩ := x
    cases inFlight with
    | cons => simp [step] at h
    | nil =>
      cases puncher with
      | ended => simp [step] at h
      | waiting left =>
        cases left with
        | zero => simp [step, weight, Puncher.weight]
        | succ left =>
          simp only [step, weight, Puncher.weight, flightWeight, Datagram.weight]
          omega

/-- Every run ends. -/
theorem length_le_weight {events : List Event} (h : x.Moves events) :
    events.length ≤ x.weight := by
  induction events generalizing x with
  | nil => exact Nat.zero_le _
  | cons e events ih =>
    have hlt := weight_step_lt h.1
    have hle := ih h.2
    rw [List.length_cons]
    omega

end Punching

/-! ## What both ends make of it -/

/-- A node that opened a hole and was probed makes the joiner connected, if it is in the directory
still. -/
theorem Mouth.stateOf?_settle_probed {n : Node} {id : NodeId} (h : n.directory.contains id = true)
    (sender : SocketAddress) (now : Instant) :
    ((Mouth.probed sender).settle id now n).directory.stateOf? id = some .connected := by
  have hknown : n.directory.stateOf? id ≠ none := fun hnone =>
    absurd (Directory.contains_eq_false_iff.mpr hnone) (by simp [h])
  have hprobed : (n.holeProbed id now).directory = (n.directory.hear id now).2 := by
    unfold Node.holeProbed Directory.confirm Directory.hear
    cases n.directory.find? id <;> rfl
  show (n.holeProbed id now).directory.stateOf? id = some .connected
  rw [hprobed, Directory.stateOf?_hear, if_pos ⟨rfl, hknown⟩]

namespace Walk

variable {σ : Type} {s : Surroundings σ}

theorem enrol_ne_natPunchFailed (peer : Peer) (state : σ) :
    (enrol s peer state).1 ≠ .error .natPunchFailed := by
  unfold enrol
  split
  · rename_i e hplace
    unfold Directory.place at hplace
    split_ifs at hplace <;> simp [← Except.error.inj hplace]
  · dsimp only
    split
    · rename_i e hconfirm
      unfold Directory.confirm at hconfirm
      split at hconfirm
      · simp [← Except.error.inj hconfirm]
      · simp at hconfirm
    · simp

/-- A walk reports that it could not punch the way to a candidate exactly if that is so. -/
theorem reports_natPunchFailed_iff {w : Walk} {c : Candidate} {r : JoinResponse} {port : UInt16}
    {state : σ} (hport : r.natPort = some port) {done : Bool}
    (h : (Puncher.ended done).result? = some (s.punch c.address port state).1) :
    (w.accepted s c r state).1.outcome.failures =
        w.outcome.failures ++ [⟨c.address, .protocol .natPunchFailed⟩] ↔ done = false := by
  have hpunched : (punchIfAsked s c r state).1 = (s.punch c.address port state).1 := by
    simp [punchIfAsked, hport]
  cases done with
  | false =>
    have hfailed : (punchIfAsked s c r state).1 = .error .natPunchFailed :=
      hpunched.trans (Option.some.inj h).symm
    simp [accepted, hfailed, failed, WalkOutcome.fail, enqueue, visit]
  | true =>
    have hdone : (punchIfAsked s c r state).1 = .ok () := hpunched.trans (Option.some.inj h).symm
    have hne := enrol_ne_natPunchFailed (s := s) ⟨r.nodeId, c.address, false⟩
      (punchIfAsked s c r state).2
    simp only [Bool.true_eq_false, iff_false, accepted, hdone]
    split
    · simp [connected, WalkOutcome.connect, enqueue, visit]
    · rename_i e he
      have hother : e ≠ .natPunchFailed := fun heq => hne (heq ▸ he)
      simpa [failed, WalkOutcome.fail, enqueue, visit] using hother

end Walk

namespace Punching

/-- A run ends, and if fewer datagrams are lost in it than there are attempts, then the hole is
probed, and the joiner gets through exactly if the acknowledgement is not lost. The node that opened
the hole then makes the joiner connected, and the joiner reports that the punching failed exactly if
the acknowledgement is lost. -/
theorem punched_iff (joiner target : SocketAddress) :
    (∀ events, (start joiner target).Moves events → events.length ≤ 3 * Punch.attempts) ∧
    ∀ events, ((start joiner target).after events).AtRest →
      ((start joiner target).lost events).length ≤ Punch.attempts - 1 →
        let x := (start joiner target).after events
        let lost := (start joiner target).lost events
        x.mouth = .probed joiner ∧
        (x.puncher.result? = some (.ok ()) ↔ ack ∉ lost) ∧
        (x.puncher.result? = some (.error .natPunchFailed) ↔ ack ∈ lost) ∧
        (∀ (n : Node) (id : NodeId) (now : Instant), n.directory.contains id = true →
          (x.mouth.settle id now n).directory.stateOf? id = some .connected) ∧
        ∀ {σ : Type} (s : Surroundings σ) (w : Walk) (c : Candidate) (r : JoinResponse)
          (port : UInt16) (state : σ), r.natPort = some port →
          x.puncher.result? = some (s.punch c.address port state).1 →
            ((w.accepted s c r state).1.outcome.failures =
                w.outcome.failures ++ [⟨c.address, .protocol .natPunchFailed⟩] ↔ ack ∈ lost) := by
  constructor
  · intro events hmoves
    exact (length_le_weight hmoves).trans_eq rfl
  · intro events hrest hfew x lost
    have hmany : lost.length ≠ Punch.attempts :=
      (lt_of_le_of_lt hfew (by decide : Punch.attempts - 1 < Punch.attempts)).ne
    obtain ⟨hlength, -⟩ | ⟨hpuncher, hmouth⟩ := (phase_after joiner target events).of_atRest hrest
    · exact absurd hlength hmany
    · have hpuncher : x.puncher = .ended (decide (ack ∉ lost)) := hpuncher
      refine ⟨hmouth, ?through, ?failed, ?confirms, ?reports⟩
      case through =>
        rw [hpuncher]
        by_cases hack : ack ∈ lost <;> simp [hack, Puncher.result?]
      case failed =>
        rw [hpuncher]
        by_cases hack : ack ∈ lost <;> simp [hack, Puncher.result?]
      case confirms =>
        intro n id now hknown
        rw [show x.mouth = .probed joiner from hmouth]
        exact Mouth.stateOf?_settle_probed hknown joiner now
      case reports =>
        intro σ s w c r port state hport hresult
        rw [hpuncher] at hresult
        rw [Walk.reports_natPunchFailed_iff hport hresult]
        simp

/-- The acknowledgement is lost, and no other probe. -/
def muffled : List Event :=
  [.arrives 0, .lost 0, .slotEnds, .arrives 0, .slotEnds, .arrives 0, .slotEnds, .arrives 0,
    .slotEnds]

/-- The ends of the run in which the acknowledgement is lost. -/
def near : SocketAddress := ⟨.v4 192 0 2 1, 50000⟩

def far : SocketAddress := ⟨.v4 192 0 2 2, 50001⟩

theorem atRest_muffled : ((start near far).after muffled).AtRest :=
  step_of_inFlight_eq_nil rfl rfl

theorem moves_muffled : (start near far).Moves muffled := by
  simp only [muffled, Moves]
  decide

/-- One datagram is lost, the hole was probed and the joiner reports that the punching failed. -/
theorem punched_iff_muffled : muffled.length ≤ 3 * Punch.attempts ∧
    ((start near far).after muffled).AtRest ∧
    ((start near far).lost muffled).length ≤ Punch.attempts - 1 ∧
    ((start near far).after muffled).mouth = .probed near ∧
    ((start near far).after muffled).puncher.result? = some (.error .natPunchFailed) := by
  obtain ⟨hends, hmeet⟩ := punched_iff near far
  have hlost : (start near far).lost muffled = [ack] := rfl
  have hfew : ((start near far).lost muffled).length ≤ Punch.attempts - 1 := by
    rw [hlost]
    decide
  obtain ⟨hmouth, -, hfailed, -⟩ := hmeet muffled atRest_muffled hfew
  exact ⟨hends muffled moves_muffled, atRest_muffled, hfew, hmouth, hfailed.mpr (by simp [hlost])⟩

/-- With fewer losses than attempts, the punching can fail, also after the hole was probed. -/
theorem not_survives_losses :
    (¬ ∀ (joiner target : SocketAddress) (events : List Event),
      ((start joiner target).after events).AtRest →
      ((start joiner target).lost events).length ≤ Punch.attempts - 1 →
        ((start joiner target).after events).puncher.result? = some (.ok ()) ∧
          ((start joiner target).after events).mouth.isProbed = true) ∧
    ¬ ∀ (joiner target : SocketAddress) (events : List Event),
      ((start joiner target).after events).AtRest →
      ((start joiner target).lost events).length ≤ Punch.attempts - 1 →
      ((start joiner target).after events).mouth.isProbed = true →
        ((start joiner target).after events).puncher.result? ≠ some (.error .natPunchFailed) := by
  have hresult : ((start near far).after muffled).puncher.result? =
      some (.error .natPunchFailed) := rfl
  constructor
  · intro h
    have hok := (h near far muffled atRest_muffled (by decide)).1
    rw [hresult] at hok
    simp at hok
  · intro h
    exact h near far muffled atRest_muffled (by decide) rfl hresult

/-! ## The runs that `Punch.through` plays -/

theorem after_append (x : Punching) (events more : List Event) :
    x.after (events ++ more) = (x.after events).after more :=
  List.foldl_append

/-- One attempt is a run that ends with nothing on its way. -/
theorem exists_run_attempt (joiner target : SocketAddress) (left : ℕ) (losses : Punch.Losses)
    (m : Mouth) : ∃ events, (⟨joiner, target, .waiting left, m, [.toHole Punch.probe]⟩ :
      Punching).after events = ⟨joiner, target,
        if (Punch.attempt joiner target losses m).1 then .ended true else .waiting left,
        (Punch.attempt joiner target losses m).2, []⟩ := by
  obtain ⟨lostProbe, lostAck⟩ := losses
  cases lostProbe with
  | true => exact ⟨[.lost 0], rfl⟩
  | false =>
    cases m with
    | probed sender => exact ⟨[.arrives 0], rfl⟩
    | waiting =>
      have hanswered : Mouth.waiting.receive Punch.probe joiner =
        (.probed joiner, some Punch.acknowledgement) := by simp [Mouth.receive]
      cases lostAck with
      | true => exact ⟨[.arrives 0, .lost 0], by simp [after, step, Punch.attempt, hanswered]⟩
      | false =>
        exact ⟨[.arrives 0, .arrives 0], by
          simp [after, step, Punch.attempt, hanswered, Puncher.receive, Punch.isDone]⟩

/-- What `Punch.through` comes to is what some run comes to. -/
theorem exists_run_through (joiner target : SocketAddress) {left : ℕ} {losses : List Punch.Losses}
    (hlength : losses.length = left + 1) (m : Mouth) :
    ∃ events, (⟨joiner, target, .waiting left, m, [.toHole Punch.probe]⟩ :
      Punching).after events = ⟨joiner, target, .ended (Punch.through joiner target losses m).1,
        (Punch.through joiner target losses m).2, []⟩ := by
  induction losses generalizing left m with
  | nil => simp at hlength
  | cons l losses ih =>
    obtain ⟨events, hevents⟩ := exists_run_attempt joiner target left l m
    have hrest : losses.length = left := by simpa using hlength
    rw [Punch.through]
    cases hattempt : Punch.attempt joiner target l m with
    | mk done m' =>
      rw [hattempt] at hevents
      cases done with
      | true => exact ⟨events, hevents⟩
      | false =>
        cases left with
        | zero =>
          obtain rfl := List.length_eq_zero_iff.mp hrest
          refine ⟨events ++ [.slotEnds], ?_⟩
          rw [after_append, hevents]
          rfl
        | succ left =>
          obtain ⟨more, hmore⟩ := ih hrest m'
          refine ⟨events ++ .slotEnds :: more, ?_⟩
          rw [after_append, hevents]
          exact hmore

end Punching

end PeerGateway
