import PeerGateway.Load.Record
import PeerGateway.Proofs.Time
import Mathlib.Algebra.Ring.Nat

/-!
# Requests and their window

A record of load forgets completed requests as they leave its window, and sums up those that are
left. A log of the same run (`RequestLog`) forgets nothing. On a clock that does not go backwards
the sums are the same (`LoadRecord.totals_run`), for a completion that was forgotten at one reading
of the clock is outside the window at every later one (`LoadRecord.filter_history_purge`).
-/

namespace PeerGateway

/-! ## Windows -/

theorem Completion.fallsIn_eq (s : Completion) (now : WallTime) (window : Span) :
    s.fallsIn now window = decide (now - window ≤ s.completedAt ∧ s.completedAt ≤ now) := by
  unfold fallsIn WallTime.since?
  simp only [WallTime, Span]
  split
  · simp only [Option.any_some, decide_eq_decide]
    omega
  · simp only [Option.any_none, Bool.false_eq, decide_eq_false_iff_not]
    omega

namespace Totals

theorem foldl_add (t : Totals) (cs : List Completion) :
    cs.foldl add t = ⟨t.requests + cs.length, t.errors + cs.countP (·.isError),
      t.duration + (cs.map (·.duration)).sum⟩ := by
  induction cs generalizing t with
  | nil => simp
  | cons c cs ih =>
    rw [List.foldl_cons, ih]
    simp only [add, List.length_cons, List.countP_cons, List.map_cons, List.sum_cons, mk.injEq]
    refine ⟨by omega, ?_, Nat.add_assoc _ _ _⟩
    split <;> omega

theorem of_eq (cs : List Completion) :
    of cs = ⟨cs.length, cs.countP (·.isError), (cs.map (·.duration)).sum⟩ := by
  rw [of, foldl_add]
  simp

end Totals

namespace LoadRecord

/-! ## Runs -/

/-- What happens to a record. The clock is read at every change but the start of a request, which
brings a reading of its own along. -/
inductive Event
  | start (request : ActiveRequest)
  | finish (id : String) (isError : Bool) (now : WallTime)
  | update (snapshot : Snapshot) (latency : Span) (now : WallTime)
  | purge (now : WallTime)

/-- The reading of the clock at an event. -/
def Event.reading? : Event → Option WallTime
  | .start _ => none
  | .finish _ _ now => some now
  | .update _ _ now => some now
  | .purge now => some now

def step (c : LoadRecord) : Event → LoadRecord
  | .start r => c.start r
  | .finish id isError now => c.finish id isError now
  | .update m latency now => c.update m latency now
  | .purge now => c.purge now

def run (c : LoadRecord) (events : List Event) : LoadRecord := events.foldl step c

/-- Two records of one node, which weighs loads in the same way. -/
structure SameNode (c c' : LoadRecord) : Prop where
  nodeId : c'.nodeId = c.nodeId
  address : c'.address = c.address
  window : c'.window = c.window
  weights : c'.weights = c.weights
  host : c'.host = c.host

theorem SameNode.refl (c : LoadRecord) : c.SameNode c :=
  ⟨rfl, rfl, rfl, rfl, rfl⟩

theorem SameNode.trans {c c' c'' : LoadRecord} (h : c.SameNode c') (h' : c'.SameNode c'') :
    c.SameNode c'' :=
  ⟨h'.1.trans h.1, h'.2.trans h.2, h'.3.trans h.3, h'.4.trans h.4, h'.5.trans h.5⟩

theorem sameNode_step (c : LoadRecord) (event : Event) : c.SameNode (c.step event) := by
  cases event with
  | start => exact ⟨rfl, rfl, rfl, rfl, rfl⟩
  | purge => exact ⟨rfl, rfl, rfl, rfl, rfl⟩
  | finish =>
    simp only [step, finish]
    split <;> exact ⟨rfl, rfl, rfl, rfl, rfl⟩
  | update =>
    simp only [step, update]
    split <;> exact ⟨rfl, rfl, rfl, rfl, rfl⟩

theorem sameNode_run (c : LoadRecord) (events : List Event) : c.SameNode (c.run events) := by
  induction events generalizing c with
  | nil => exact .refl c
  | cons e events ih => exact (c.sameNode_step e).trans (ih (c.step e))

end LoadRecord

/-- All that is known of the requests of a run: those under way, by their identifiers, and all
that were completed. -/
structure RequestLog where
  active : String → Option ActiveRequest := fun _ => none
  completed : List Completion := []

namespace RequestLog

/-- Notes an event. A request takes as long as its start lies back, and no time at all if that is
still to come. -/
def step (l : RequestLog) : LoadRecord.Event → RequestLog
  | .start r => { l with active := fun id => if r.id = id then some r else l.active id }
  | .finish id isError now =>
    match l.active id with
    | none => l
    | some r =>
      { active := fun key => if id = key then none else l.active key
        completed := l.completed ++ [⟨r.path, (now - r.startTime).toNat, isError, now⟩] }
  | .update _ _ _ => l
  | .purge _ => l

def run (l : RequestLog) (events : List LoadRecord.Event) : RequestLog := events.foldl step l

/-- The completions in the window that ends now, both ends included. -/
def completedIn (l : RequestLog) (now : WallTime) (window : Span) : List Completion :=
  l.completed.filter fun s => decide (now - window ≤ s.completedAt ∧ s.completedAt ≤ now)

end RequestLog

namespace LoadRecord

/-! ## A record follows the log -/

/-- A record has the requests under way of a log, and all its completions that lie in the window
that ends now. -/
structure Follows (c : LoadRecord) (l : RequestLog) (window : Span) (now : WallTime) : Prop where
  window_eq : c.window = window
  active_eq : ∀ id, c.active[id]? = l.active id
  afterEpoch : ∀ s ∈ c.history, 0 ≤ s.completedAt
  completedIn_eq : c.history.filter (fun s => s.fallsIn now window) = l.completedIn now window

variable {c : LoadRecord} {l : RequestLog} {window : Span} {now : WallTime}

/-- A purge takes nothing out of the windows that end at its reading or later. -/
theorem filter_history_purge (c : LoadRecord) {t : WallTime} (ht : t ≤ now)
    (hepoch : ∀ s ∈ c.history, 0 ≤ s.completedAt) :
    (c.purge t).history.filter (fun s => s.fallsIn now c.window) =
      c.history.filter fun s => s.fallsIn now c.window := by
  show List.filter _ (List.filter _ c.history) = _
  rw [List.filter_filter]
  refine List.filter_congr fun s hs => ?_
  rw [Bool.and_eq_left_iff_imp]
  intro hfalls
  rw [s.fallsIn_eq, decide_eq_true_iff] at hfalls
  exact decide_eq_true (WallTime.before_le ht (hepoch s hs) hfalls.1)

theorem Follows.purge (h : c.Follows l window now) {t : WallTime} (ht : t ≤ now) :
    (c.purge t).Follows l window now := by
  obtain ⟨rfl, hactive, hepoch, hcompleted⟩ := h
  refine ⟨rfl, hactive, fun s hs => hepoch s (List.mem_filter.mp hs).1, ?_⟩
  rw [filter_history_purge c ht hepoch, hcompleted]

theorem Follows.start (h : c.Follows l window now) (r : ActiveRequest) :
    (c.start r).Follows (l.step (.start r)) window now where
  window_eq := h.window_eq
  active_eq id := by
    simp [LoadRecord.start, RequestLog.step, Std.ExtTreeMap.getElem?_insert, h.active_eq]
  afterEpoch := h.afterEpoch
  completedIn_eq := h.completedIn_eq

/-- One more completion, before the purge that follows it. -/
theorem Follows.complete (h : c.Follows l window now) (id : String) (r : ActiveRequest)
    (isError : Bool) {t : WallTime} (hepoch : 0 ≤ t) :
    Follows
      { c with
        active := c.active.erase id
        history := c.history ++ [⟨r.path, (t.since? r.startTime).getD 0, isError, t⟩] }
      { active := fun key => if id = key then none else l.active key
        completed := l.completed ++ [⟨r.path, (t - r.startTime).toNat, isError, t⟩] }
      window now where
  window_eq := h.window_eq
  active_eq key := by simp [Std.ExtTreeMap.getElem?_erase, h.active_eq]
  afterEpoch s hs := by
    rcases List.mem_append.mp hs with hold | hnew
    · exact h.afterEpoch s hold
    · obtain rfl := List.mem_singleton.mp hnew
      exact hepoch
  completedIn_eq := by
    have hold := h.completedIn_eq
    simp only [RequestLog.completedIn, List.filter_append, WallTime.getD_since?,
      Completion.fallsIn_eq] at hold ⊢
    rw [hold]

theorem Follows.finish (h : c.Follows l window now) (id : String) (isError : Bool) {t : WallTime}
    (ht : t ≤ now) (hepoch : 0 ≤ t) :
    (c.finish id isError t).Follows (l.step (.finish id isError t)) window now := by
  simp only [LoadRecord.finish, RequestLog.step, h.active_eq]
  cases l.active id with
  | none => exact h
  | some r => exact (h.complete id r isError hepoch).purge ht

theorem Follows.update (h : c.Follows l window now) (m : Snapshot) (latency : Span) {t : WallTime}
    (ht : t ≤ now) : (c.update m latency t).Follows l window now := by
  have hpeers (snapshots latencies) : Follows { c with snapshots, latencies } l window now :=
    ⟨h.window_eq, h.active_eq, h.afterEpoch, h.completedIn_eq⟩
  unfold LoadRecord.update
  split
  · exact h
  · exact (hpeers _ _).purge ht

/-- One event, if the clock reads no more than what it will read at the end of the run. -/
theorem Follows.step (h : c.Follows l window now) {event : Event}
    (hclock : ∀ t ∈ event.reading?, 0 ≤ t ∧ t ≤ now) :
    (c.step event).Follows (l.step event) window now := by
  cases event with
  | start r => exact h.start r
  | finish id isError t =>
    obtain ⟨hepoch, ht⟩ := hclock t rfl
    exact h.finish id isError ht hepoch
  | update m latency t => exact h.update m latency (hclock t rfl).2
  | purge t => exact h.purge (hclock t rfl).2

theorem Follows.run (h : c.Follows l window now) {events : List Event}
    (hclock : ∀ t ∈ events.filterMap Event.reading?, 0 ≤ t ∧ t ≤ now) :
    (c.run events).Follows (l.run events) window now := by
  induction events generalizing c l with
  | nil => exact h
  | cons event events ih =>
    have hevent : ∀ t ∈ event.reading?, 0 ≤ t ∧ t ≤ now := fun t ht =>
      hclock t (List.mem_filterMap.mpr ⟨event, List.mem_cons_self, ht⟩)
    refine ih (h.step hevent) fun t ht => hclock t ?_
    obtain ⟨e, he, hreading⟩ := List.mem_filterMap.mp ht
    exact List.mem_filterMap.mpr ⟨e, List.mem_cons_of_mem event he, hreading⟩

/-- The requests of the window that ends now, their errors and their time, are those that a log of
all requests has there, on a clock that has not read less than the epoch and nowhere more than
now. -/
theorem totals_run (id : NodeId) (address : String) (window : Span) (weights : Weights)
    (host : HostLoad) (events : List Event) (now : WallTime)
    (hclock : ∀ t ∈ events.filterMap Event.reading?, 0 ≤ t ∧ t ≤ now) :
    (run { nodeId := id, address, window, weights, host } events).totals now =
      { requests := ((RequestLog.run {} events).completedIn now window).length
        errors := ((RequestLog.run {} events).completedIn now window).countP (·.isError)
        duration :=
          (((RequestLog.run {} events).completedIn now window).map (·.duration)).sum } := by
  have hnew : Follows { nodeId := id, address, window, weights, host } {} window now :=
    ⟨rfl, fun key => by simp, by simp, rfl⟩
  have h := hnew.run hclock
  rw [totals, h.window_eq, h.completedIn_eq, Totals.of_eq]

/-- Three requests, of which the first is forgotten and the second completes at the start of the
window that ends with the third. -/
def threeRequests : List Event :=
  [.start ⟨"a", 2, "GET", "/a", false⟩, .start ⟨"b", 3, "GET", "/b", false⟩, .finish "a" true 9,
    .finish "b" true 10, .purge 70, .start ⟨"c", 75, "GET", "/c", true⟩, .finish "c" false 70]

theorem totals_run_threeRequests :
    (run { nodeId := ⟨"n"⟩, address := "", window := 60, weights := ⟨1, 0, 0, 0⟩, host := default }
      threeRequests).totals 70 = { requests := 2, errors := 1, duration := 7 } := by
  have h := totals_run ⟨"n"⟩ "" 60 ⟨1, 0, 0, 0⟩ default threeRequests 70 (by decide)
  rw [h]
  rfl

end LoadRecord

end PeerGateway
