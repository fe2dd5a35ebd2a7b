import PeerGateway.Proofs.Load.Requests
import PeerGateway.Proofs.Time
import Mathlib.Data.List.Basic
import Mathlib.Data.List.Induction

/-!
# The life of a request

A record of load notes a completion exactly when a request is finished that is under way
(`LoadRecord.completion?`), and its history is all that was noted less what was purged
(`LoadRecord.history_step`).

Which requests are under way can be told from the events of a run alone: an identifier's latest
start counts, unless a finish follows it (`LoadRecord.IsUnderWay`). Starts may be repeated, finishes
may come twice or for no request at all, and the clock may jump (`LoadRecord.lifecycle_run`).
-/

namespace PeerGateway

namespace LoadRecord

/-! ## What a record notes -/

variable {c : LoadRecord} {id key : String} {isError : Bool} {now : WallTime}

theorem active_start (r : ActiveRequest) :
    (c.start r).active[key]? = if r.id = key then some r else c.active[key]? := by
  simp [start, Std.ExtTreeMap.getElem?_insert]

theorem active_finish :
    (c.finish id isError now).active[key]? = if id = key then none else c.active[key]? := by
  unfold finish
  split
  · rename_i hnone
    split_ifs with hid
    · exact hid ▸ hnone
    · rfl
  · show (c.active.erase id)[key]? = _
    simp [Std.ExtTreeMap.getElem?_erase]

theorem active_update (m : Snapshot) (latency : Span) :
    (c.update m latency now).active = c.active := by
  unfold update
  split_ifs <;> rfl

/-- The completion that is noted at an event, with the identifier of its request. -/
def completion? (c : LoadRecord) : Event → Option (String × Completion)
  | .finish id isError now =>
    (c.active[id]?).map fun r => (id, ⟨r.path, (now.since? r.startTime).getD 0, isError, now⟩)
  | _ => none

/-- The reading at which an event purges the record, if it does. -/
def purgedAt? (c : LoadRecord) : Event → Option WallTime
  | .start _ => none
  | .finish id _ now => if c.active[id]?.isSome then some now else none
  | .update m _ now => if m.nodeId = c.nodeId then none else some now
  | .purge now => some now

/-- The history has one more completion where one is noted, and is purged after that. -/
theorem history_step (c : LoadRecord) (event : Event) : (c.step event).history =
    (c.history ++ (c.completion? event).toList.map Prod.snd).filter fun s =>
      (c.purgedAt? event).all fun now => decide (now.before c.window ≤ s.completedAt) := by
  cases event with
  | start r => simp [step, start, completion?, purgedAt?]
  | finish id isError now =>
    cases hactive : c.active[id]? with
    | none => simp [step, finish, completion?, purgedAt?, hactive]
    | some r => simp [step, finish, purge, completion?, purgedAt?, hactive]
  | update m latency now =>
    by_cases hown : m.nodeId = c.nodeId
    · simp [step, update, completion?, purgedAt?, hown]
    · simp [step, update, purge, completion?, purgedAt?, hown]
  | purge now => simp [step, purge, completion?, purgedAt?]

theorem history_step_sublist (c : LoadRecord) (event : Event) :
    (c.step event).history.Sublist (c.history ++ (c.completion? event).toList.map Prod.snd) := by
  rw [history_step]
  exact List.filter_sublist

/-- The purge that follows a completion leaves it in the history, unless the clock reads a time
before the epoch. -/
theorem mem_history_of_completion? {event : Event} {s : Completion}
    (h : c.completion? event = some (id, s)) (hepoch : 0 ≤ s.completedAt) :
    s ∈ (c.step event).history := by
  rw [history_step, List.mem_filter, h]
  refine ⟨by simp, ?_⟩
  cases event with
  | finish id isError now =>
    obtain ⟨r, -, hs⟩ := Option.map_eq_some_iff.mp h
    obtain ⟨-, rfl⟩ := Prod.mk.inj hs
    have hnow : now.before c.window ≤ now :=
      WallTime.before_le (Int.le_refl now) hepoch (Int.sub_le_self now (Int.natCast_nonneg _))
    simp only [purgedAt?]
    split_ifs <;> simp [hnow]
  | start r => simp [completion?] at h
  | update m latency now => simp [completion?] at h
  | purge now => simp [completion?] at h

/-! ## Requests under way -/

/-- The identifier that an event starts or finishes a request of. -/
def Event.requestId? : Event → Option String
  | .start r => some r.id
  | .finish id _ _ => some id
  | .update _ _ _ => none
  | .purge _ => none

/-- A request is the latest that was started under its identifier, and no finish follows. -/
def IsUnderWay (events : List Event) (r : ActiveRequest) : Prop :=
  ∃ before after, events = before ++ .start r :: after ∧ ∀ e ∈ after, e.requestId? ≠ some r.id

theorem run_concat (c : LoadRecord) (events : List Event) (e : Event) :
    c.run (events ++ [e]) = (c.run events).step e :=
  List.foldl_append

theorem not_isUnderWay_nil (r : ActiveRequest) : ¬ IsUnderWay [] r := by
  rintro ⟨before, after, heq, -⟩
  exact absurd heq (by simp)

theorem isUnderWay_concat {events : List Event} {e : Event} {r : ActiveRequest} :
    IsUnderWay (events ++ [e]) r ↔
      e = .start r ∨ (e.requestId? ≠ some r.id ∧ IsUnderWay events r) := by
  constructor
  · rintro ⟨before, after, heq, hafter⟩
    rcases List.eq_nil_or_concat after with rfl | ⟨after, last, rfl⟩
    · exact Or.inl (List.singleton_inj.mp (List.append_inj' heq rfl).2)
    · have heq' : events ++ [e] = (before ++ .start r :: after) ++ [last] := by simpa using heq
      obtain ⟨hevents, hlast⟩ := List.append_inj' heq' rfl
      obtain rfl := List.singleton_inj.mp hlast
      exact Or.inr ⟨hafter e (by simp), before, after, hevents, fun e' he' =>
        hafter e' (by simp [he'])⟩
  · rintro (rfl | ⟨hother, before, after, rfl, hafter⟩)
    · exact ⟨events, [], rfl, nofun⟩
    · refine ⟨before, after ++ [e], by simp, fun e' he' => ?_⟩
      rcases List.mem_append.mp he' with hold | hnew
      · exact hafter e' hold
      · exact List.mem_singleton.mp hnew ▸ hother

/-- If a record has the requests under way, it has them after one more event. -/
theorem active_step {events : List Event}
    (h : ∀ key r, c.active[key]? = some r ↔ r.id = key ∧ IsUnderWay events r) (e : Event)
    (key : String) (r : ActiveRequest) :
    (c.step e).active[key]? = some r ↔ r.id = key ∧ IsUnderWay (events ++ [e]) r := by
  rw [isUnderWay_concat]
  cases e with
  | start r' =>
    rw [step, active_start, Event.requestId?]
    split_ifs with hkey
    · constructor
      · rintro ⟨⟩
        exact ⟨hkey, Or.inl rfl⟩
      · rintro ⟨hr, hstart | ⟨hother, -⟩⟩
        · exact congrArg some (Event.start.inj hstart)
        · exact absurd (congrArg some (hkey.trans hr.symm)) hother
    · rw [h]
      constructor
      · rintro ⟨hr, hunder⟩
        exact ⟨hr, Or.inr ⟨fun hsame => hkey ((Option.some.inj hsame).trans hr), hunder⟩⟩
      · rintro ⟨hr, hstart | ⟨-, hunder⟩⟩
        · exact absurd (Event.start.inj hstart ▸ hr) hkey
        · exact ⟨hr, hunder⟩
  | finish id isError now =>
    rw [step, active_finish, Event.requestId?]
    split_ifs with hkey
    · constructor
      · rintro ⟨⟩
      · rintro ⟨hr, hstart | ⟨hother, -⟩⟩
        · cases hstart
        · exact absurd (congrArg some (hkey.trans hr.symm)) hother
    · rw [h]
      constructor
      · rintro ⟨hr, hunder⟩
        exact ⟨hr, Or.inr ⟨fun hsame => hkey ((Option.some.inj hsame).trans hr), hunder⟩⟩
      · rintro ⟨hr, hstart | ⟨-, hunder⟩⟩
        · cases hstart
        · exact ⟨hr, hunder⟩
  | update m latency now =>
    rw [step, active_update, h]
    simp [Event.requestId?]
  | purge now =>
    rw [show (c.step (.purge now)).active = c.active from rfl, h]
    simp [Event.requestId?]

/-- A record has the requests under way, each with the data of its start. -/
theorem active_run_iff (hnew : c.active = ∅) (events : List Event) (key : String)
    (r : ActiveRequest) :
    (c.run events).active[key]? = some r ↔ r.id = key ∧ IsUnderWay events r := by
  induction events using List.reverseRecOn generalizing key r with
  | nil => simp [run, hnew, not_isUnderWay_nil]
  | append_singleton events e ih =>
    rw [run_concat]
    exact active_step ih e key r

/-! ## Finishes -/

/-- The finish of a request that is under way adds its completion, and purges the history. -/
theorem finish_of_active {r : ActiveRequest} (hactive : c.active[id]? = some r) :
    (c.finish id isError now).active = c.active.erase id ∧
      (c.finish id isError now).history =
        (c.history ++ [(⟨r.path, (max 0 (now - r.startTime)).toNat, isError, now⟩ :
          Completion)]).filter fun s => decide (now.before c.window ≤ s.completedAt) := by
  have hduration : (now.since? r.startTime).getD 0 = (max 0 (now - r.startTime)).toNat := by
    have hmax (i : Int) : i.toNat = (max 0 i).toNat := by omega
    rw [WallTime.getD_since?, hmax]
  simp only [finish, hactive, purge, hduration]
  exact ⟨trivial, trivial⟩

/-- Any other finish changes nothing. -/
theorem finish_of_not_active (hactive : c.active[id]? = none) : c.finish id isError now = c := by
  simp only [finish, hactive]

/-- After any run a record has under way just the requests whose start is the latest under their
identifier and is not followed by a finish, each with the data of that start. A finish of one of
them takes it out and adds one completion, of its path and of the time since its start, which is no
time at all if the clock reads less than at the start. The purge that follows takes out only what is
before the window, so it leaves the completion, unless the clock is before the epoch and the window
reaches back further than any reading. A finish of any other identifier changes nothing. -/
theorem lifecycle_run (nodeId : NodeId) (address : String) (window : Span) (weights : Weights)
    (host : HostLoad) (events : List Event) :
    let c := run { nodeId, address, window, weights, host } events
    (∀ id r, c.active[id]? = some r ↔ r.id = id ∧ IsUnderWay events r) ∧
      (∀ r isError now, IsUnderWay events r →
        let completion : Completion :=
          ⟨r.path, (max 0 (now - r.startTime)).toNat, isError, now⟩
        (c.finish r.id isError now).active = c.active.erase r.id ∧
          (c.finish r.id isError now).history = (c.history ++ [completion]).filter
            (fun s => decide (now.before window ≤ s.completedAt)) ∧
          (0 ≤ now ∨ WallTime.earliest ≤ now - window →
            completion ∈ (c.finish r.id isError now).history)) ∧
      ∀ id isError now, (∀ r, r.id = id → ¬ IsUnderWay events r) →
        c.finish id isError now = c := by
  intro c
  have hactive : ∀ id r, c.active[id]? = some r ↔ r.id = id ∧ IsUnderWay events r :=
    active_run_iff rfl events
  have hwindow : c.window = window := (sameNode_run _ events).window
  refine ⟨hactive, fun r isError now hr => ?_, fun id isError now hnone => ?_⟩
  · intro completion
    rw [← hwindow]
    obtain ⟨herase, hhistory⟩ :=
      @finish_of_active c r.id isError now r ((hactive r.id r).mpr ⟨rfl, hr⟩)
    refine ⟨herase, hhistory, fun hreach => ?_⟩
    rw [hhistory, List.mem_filter, decide_eq_true_iff]
    exact ⟨List.mem_concat_self, WallTime.before_le_self_iff.mpr hreach⟩
  · refine finish_of_not_active ?_
    rw [Option.eq_none_iff_forall_ne_some]
    intro r hr
    obtain ⟨hid, hunder⟩ := (hactive id r).mp hr
    exact hnone r hid hunder

/-- A request that was started again under its identifier, on a clock that jumps back. -/
def restarted : List Event :=
  [.start ⟨"a", 2, "GET", "/first", false⟩, .finish "b" true 3,
    .start ⟨"a", 9, "GET", "/second", true⟩, .purge 1]

/-- The record of a node after the request was started again. -/
def afterRestarted : LoadRecord :=
  run { nodeId := ⟨"n"⟩, address := "", window := 60, weights := ⟨1, 0, 0, 0⟩, host := default }
    restarted

theorem lifecycle_run_restarted :
    IsUnderWay restarted ⟨"a", 9, "GET", "/second", true⟩ ∧
      (afterRestarted.finish "a" true 5).history = [⟨"/second", 0, true, 5⟩] ∧
      (∀ r : ActiveRequest, r.id = "b" → ¬ IsUnderWay restarted r) ∧
      afterRestarted.finish "b" true 5 = afterRestarted := by
  obtain ⟨-, hfinish, hnone⟩ := lifecycle_run ⟨"n"⟩ "" 60 ⟨1, 0, 0, 0⟩ default restarted
  have hunder : IsUnderWay restarted ⟨"a", 9, "GET", "/second", true⟩ :=
    ⟨[.start ⟨"a", 2, "GET", "/first", false⟩, .finish "b" true 3], [.purge 1], rfl,
      by simp [Event.requestId?]⟩
  have hother : ∀ r : ActiveRequest, r.id = "b" → ¬ IsUnderWay restarted r := by
    rintro r hr ⟨before, after, heq, -⟩
    have hmem : Event.start r ∈ restarted := heq ▸ by simp
    simp only [restarted, List.mem_cons, Event.start.injEq, reduceCtorEq, List.not_mem_nil,
      or_false, false_or] at hmem
    rcases hmem with rfl | rfl <;> exact absurd hr (by decide)
  exact ⟨hunder, (hfinish _ true 5 hunder).2.1, hother, hnone "b" true 5 hother⟩

end LoadRecord

end PeerGateway
