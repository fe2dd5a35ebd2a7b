import PeerGateway.Node.Errand
import Mathlib.Data.Nat.Notation
import Mathlib.Logic.Relation
import Mathlib.Tactic.SplitIfs

/-!
# Walks as errands

Surroundings run a walk in one go, and say themselves what others do between two accesses to the
directory. An errand makes one move at a time. `Errand.Moves` is what may come next, and
`Walk.run_is_errand` says that a walk that ends is made of such moves : the ones of its errand, with
what others do in between.

The moves follow the definition of a walk : on to the next candidate (`moves_advanceFrom`), an
attempt that was accepted (`moves_accepted`), and any attempt (`moves_attempt`).
-/

namespace PeerGateway

open Relation

variable {σ : Type} (s : Surroundings σ)

namespace Errand

/-- An errand and its surroundings after a move of its own. -/
def moved (e : Errand) (state : σ) : Errand × σ :=
  let next := e.act (s.directory state) (s.now state).steady
  (next.1, next.2.elim state fun d => s.setDirectory d state)

/-- What may come next : a move, something that others do, an answer, or the end of punching. -/
inductive Moves : Errand × σ → Errand × σ → Prop
  | acts (e : Errand) (state : σ) : Moves (e, state) (e.moved s state)
  | meanwhile (e : Errand) (state : σ) : Moves (e, state) (e, s.meanwhile state)
  | hears (w : Walk) (c : Candidate) (state : σ) :
    Moves (.asks w c, state) ((Errand.asks w c).hear (w.ask s c state).1, (w.ask s c state).2)
  | punches (w : Walk) (c : Candidate) (r : JoinResponse) (port : UInt16) (state : σ) :
    Moves (.punches w c r port, state)
      ((Errand.punches w c r port).punched (s.punch c.address port state).1,
        (s.punch c.address port state).2)

variable {s} {w : Walk} {c : Candidate} {r : JoinResponse} {state : σ} {e e' : Errand}

/-- A move that leaves the directory as it is. -/
theorem Moves.reads (h : e.act (s.directory state) (s.now state).steady = (e', none)) :
    Moves s (e, state) (e', state) := by
  have hmove := Moves.acts (s := s) e state
  rwa [moved, h] at hmove

/-- A move that changes the directory. -/
theorem Moves.writes {d : Directory}
    (h : e.act (s.directory state) (s.now state).steady = (e', some d)) :
    Moves s (e, state) (e', s.setDirectory d state) := by
  have hmove := Moves.acts (s := s) e state
  rwa [moved, h] at hmove

theorem moves_givesBack :
    Moves s (.givesBack w c, state) (.looks w, Walk.giveBack s c state) :=
  .writes rfl

/-- The errand of a walk that has gone on : it is over, or it asks a candidate. -/
def ofMove : Walk.Move → Errand
  | .finished outcome => .finished outcome
  | .asks c w => .asks w c

/-- Going on from candidate to candidate is made of moves. -/
theorem moves_advanceFrom (queue : List Candidate) (w : Walk) (state : σ) :
    ReflTransGen (Moves s) (.looks { w with queue }, state)
      (ofMove (w.advanceFrom s queue state).1, (w.advanceFrom s queue state).2) := by
  induction queue generalizing w state with
  | nil => exact .single (.reads rfl)
  | cons c rest ih =>
    have hlooks : ReflTransGen (Moves s) (.looks { w with queue := c :: rest }, state)
        (.looks { w with queue := c :: rest }, s.meanwhile state) := .single (.meanwhile _ _)
    rw [Walk.advanceFrom]
    dsimp only
    split_ifs with hfull hskip
    · exact hlooks.tail (.reads (if_pos hfull))
    all_goals
      have hweighs : ReflTransGen (Moves s) (.looks { w with queue := c :: rest }, state)
          (.weighs { w with queue := rest } c, s.meanwhile (s.meanwhile state)) :=
        (hlooks.tail (.reads (if_neg hfull))).tail (.meanwhile _ _)
    · exact (hweighs.tail (.reads (if_pos hskip))).trans (ih w _)
    · have hreserves := (hweighs.tail (.reads (if_neg hskip))).tail (.meanwhile _ _)
      split
      case h_1 d hd =>
        refine hreserves.tail (.writes ?_)
        simp only [act, hd]
        rfl
      case h_2 e he =>
        let failed := (w.asking c.address rest).failed c.address (.protocol e)
        let refused := s.meanwhile (s.meanwhile (s.meanwhile state))
        have hact : (Errand.reserves (w.asking c.address rest) c).act (s.directory refused)
            (s.now refused).steady = (.givesBack failed c, none) := by
          simp only [act, refused, he]
          rfl
        have hgivesBack := (hreserves.tail (.reads hact)).tail (.meanwhile _ _)
        exact (hgivesBack.tail moves_givesBack).trans (ih failed _)

/-- Parting from a candidate gives back the place that was kept under another identifier. -/
theorem moves_parts : ReflTransGen (Moves s) (.parts w c r, state)
    (.looks (w.enqueue r), Walk.giveBackOther s c r.nodeId state) := by
  unfold Walk.giveBackOther
  split_ifs with hid
  · exact .single (.reads (by simp only [act, hid, if_true]))
  · exact (ReflTransGen.single (.meanwhile _ _)).tail (.writes (by simp only [act, hid, if_false]))

/-- The walk after a candidate was enrolled, or was not. -/
def enrolled (w : Walk) (c : Candidate) (r : JoinResponse) : Except ProtocolError Unit → Walk
  | .ok () => w.connected r.nodeId
  | .error e => w.failed c.address (.protocol e)

theorem moves_places : ReflTransGen (Moves s) (.places w c r, state)
    (.parts (enrolled w c r
        (Walk.enrol s { nodeId := r.nodeId, address := c.address } state).1) c r,
      (Walk.enrol s { nodeId := r.nodeId, address := c.address } state).2) := by
  unfold Walk.enrol
  split
  case h_1 e he => exact .single (.reads (by simp only [act, he]; rfl))
  case h_2 d hd =>
    have hconfirms : ReflTransGen (Moves s) (.places w c r, state)
        (.confirms w c r, s.meanwhile (s.setDirectory d state)) :=
      (ReflTransGen.single (.writes (by simp only [act, hd]))).tail (.meanwhile _ _)
    dsimp only
    split
    case h_1 e he => exact hconfirms.tail (.reads (by simp only [act, he]; rfl))
    case h_2 d' hd' => exact hconfirms.tail (.writes (by simp only [act, hd']; rfl))

/-- An attempt that was accepted is made of moves, from where the way is to be punched or not. -/
theorem moves_accepted (hsuccess : r.success = true) :
    ReflTransGen (Moves s) ((Errand.asks w c).hear (.ok (.joinResponse r)), state)
      (.looks (w.accepted s c r state).1, (w.accepted s c r state).2) := by
  simp only [hear, hsuccess, if_true, Walk.accepted, Walk.punchIfAsked]
  cases r.natPort with
  | none => exact moves_places.trans moves_parts
  | some port =>
    have hpunches := Moves.punches (s := s) (w.visit r.nodeId) c r port state
    dsimp only
    cases hpunched : (s.punch c.address port state).1 with
    | ok =>
      rw [hpunched] at hpunches
      exact (moves_places.trans moves_parts).head hpunches
    | error e =>
      rw [hpunched] at hpunches
      exact moves_parts.head hpunches

theorem moves_attempt : ReflTransGen (Moves s) (.asks w c, state)
    (.looks (w.attempt s c state).1, (w.attempt s c state).2) := by
  refine .head (.hears w c state) ?_
  unfold Walk.attempt Walk.answered
  dsimp only
  split
  case h_1 e he =>
    rw [he]
    exact .single moves_givesBack
  case h_2 r hr =>
    rw [hr]
    split_ifs with hsuccess
    · exact moves_accepted hsuccess
    · simp only [hear, hsuccess]
      exact .single moves_givesBack
  case h_3 m hm hr =>
    rw [hr]
    have hother : (Errand.asks w c).hear (.ok m) =
        .givesBack (w.failed c.address (.unexpectedReply .joinResponse m.type)) c := by
      cases m with
      | joinResponse r => exact absurd rfl (hm r)
      | _ => rfl
    rw [hother]
    exact .single moves_givesBack

end Errand

/-- A walk that ends is made of the moves of its errand and of what others do in between. -/
theorem Walk.run_is_errand {limit : ℕ} {w : Walk} {state last : σ} {outcome : WalkOutcome}
    (h : run s limit w state = (some outcome, last)) :
    ReflTransGen (Errand.Moves s) (.looks w, state) (.finished outcome, last) := by
  induction limit generalizing w state with
  | zero => cases h
  | succ limit ih =>
    have hadvance := Errand.moves_advanceFrom (s := s) w.queue w state
    rw [run] at h
    split at h
    case h_1 o state' hfinished =>
      rw [advance] at hfinished
      rw [hfinished] at hadvance
      obtain ⟨ho, rfl⟩ := Prod.mk.inj h
      obtain rfl := Option.some.inj ho
      exact hadvance
    case h_2 c w' state' hasks =>
      rw [advance] at hasks
      rw [hasks] at hadvance
      exact (hadvance.trans Errand.moves_attempt).trans (ih h)

end PeerGateway
