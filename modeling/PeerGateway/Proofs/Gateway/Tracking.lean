import PeerGateway.Proofs.Load.Lifecycle
import PeerGateway.Gateway.Tracking
import Mathlib.Data.List.Nodup

/-!
# Accounts of requests

Requests of a `Tracking` begin, return and are dropped in any order. `Tracking.call?` says what the
record is told at an event. `Tracking.Accounts` is the invariant: the record has the requests that
run, each under its own token, and has noted one completion for each request that ended.
`Tracking.Accounts.move` keeps it for one request that goes on, and `Tracking.tracked_exactly` is
the result for a run.
-/

namespace PeerGateway

open Http

/-! ## What becomes of a request -/

/-- The request failed: its status says so, or there was none. -/
def Lifetime.failed (l : Lifetime) : Bool :=
  match l.answer with
  | some answer => decide (400 ≤ answer.status)
  | none => true

/-- What is noted of a request that ended. -/
def Lifetime.completion (l : Lifetime) (r : Request) : Completion :=
  ⟨r.target.pathText, (l.ended.since? l.began).getD 0, l.failed, l.ended⟩

namespace TrackedRequest

/-- The request has begun and has not ended. -/
def isUnderWay (t : TrackedRequest) : Bool :=
  match t.stage with
  | .running .. => true
  | _ => false

/-- The time of a request that has begun and ended. -/
def life? (t : TrackedRequest) : Option Lifetime :=
  match t.stage with
  | .waiting => none
  | .running .. => none
  | .answered life _ => some life
  | .gone life => life

/-- What is to be found of a request in the record while it is under way. -/
def active? (t : TrackedRequest) : Option ActiveRequest :=
  match t.stage with
  | .running began _ =>
    some ⟨t.token, began, t.request.method, t.request.target.pathText, t.request.isFromPeer⟩
  | _ => none

/-- The completions of a request. -/
def completions (t : TrackedRequest) : List (String × Completion) :=
  t.life?.toList.map fun l => (t.token, l.completion t.request)

/-- The guard of a request stands for its entry, and knows when that is completed. -/
def IsGuarded (t : TrackedRequest) : Prop :=
  match t.stage with
  | .running _ guard => guard = { token := t.token }
  | .answered _ guard => guard.done = true
  | _ => True

theorem isSome_active? (t : TrackedRequest) : t.active?.isSome = t.isUnderWay := by
  unfold active? isUnderWay
  cases t.stage <;> rfl

end TrackedRequest

namespace Tracking

variable {x : Tracking} {k : ℕ} {t : TrackedRequest} {pushed : List (String × Completion)}

/-! ## What the record is told -/

/-- What the record is told when the guard of a request goes. -/
def releaseCall? (guard : InFlight) (now : WallTime) : Option LoadRecord.Event :=
  if guard.done then none else some (.finish guard.token true now)

/-- What the record is told at an event. -/
def call? (x : Tracking) : Event → Option LoadRecord.Event
  | .begins k now =>
    match x.requests[k]? with
    | some ⟨token, r, .waiting⟩ =>
      some (.start ⟨token, now, r.method, r.target.pathText, r.isFromPeer⟩)
    | _ => none
  | .returns k answer now =>
    match x.requests[k]? with
    | some ⟨_, _, .running _ guard⟩ => some (.finish guard.token answer.isError now)
    | _ => none
  | .goes k now =>
    match x.requests[k]? with
    | some ⟨_, _, .running _ guard⟩ => releaseCall? guard now
    | some ⟨_, _, .answered _ guard⟩ => releaseCall? guard now
    | _ => none
  | .updates m latency now => some (.update m latency now)
  | .purges now => some (.purge now)
  | _ => none

/-- The completion that the record notes at an event. -/
def pushed? (x : Tracking) (e : Event) : Option (String × Completion) :=
  (x.call? e).bind x.node.load.completion?

/-- The completions that the record notes in a run, in order. -/
def pushes : Tracking → List Event → List (String × Completion)
  | _, [] => []
  | x, e :: events => (x.pushed? e).toList ++ pushes (x.step e) events

theorem load_release (guard : InFlight) (now : WallTime) (n : Node) :
    (guard.release now n).load = (releaseCall? guard now).elim n.load n.load.step := by
  unfold InFlight.release releaseCall?
  split_ifs <;> rfl

/-- The record changes by what it is told. -/
theorem load_step (x : Tracking) (e : Event) :
    (x.step e).node.load = (x.call? e).elim x.node.load x.node.load.step := by
  cases e with
  | arrives | directs | updates | purges => rfl
  | begins k now =>
    rcases hk : x.requests[k]? with _ | ⟨token, r, stage⟩
    · simp [step, call?, hk]
    · cases stage <;> simp only [step, call?, hk] <;> rfl
  | returns k answer now =>
    rcases hk : x.requests[k]? with _ | ⟨token, r, stage⟩
    · simp [step, call?, hk]
    · cases stage <;> simp only [step, call?, hk] <;> rfl
  | goes k now =>
    rcases hk : x.requests[k]? with _ | ⟨token, r, stage⟩
    · simp [step, call?, hk]
    · cases stage <;> simp only [step, call?, hk]
      case running began guard => exact load_release guard now x.node
      case answered life guard => exact load_release guard now x.node
      all_goals rfl

/-! ## The invariant -/

/-- The record has the requests that run, each under its own token, and a completion was noted for
each request that ended, and no other. -/
structure Accounts (x : Tracking) (pushed : List (String × Completion)) : Prop where
  fresh : (x.requests.map (·.token)).Nodup
  guarded : ∀ t ∈ x.requests, t.IsGuarded
  entered : ∀ t ∈ x.requests, x.node.load.active[t.token]? = t.active?
  absent : ∀ id, id ∉ x.requests.map (·.token) → x.node.load.active[id]? = none
  noted : ∀ t ∈ x.requests, pushed.filter (·.1 = t.token) = t.completions
  known : ∀ p ∈ pushed, p.1 ∈ x.requests.map (·.token)

theorem map_token_setStage (x : Tracking) (k : ℕ) (stage : TrackedRequest.Stage) :
    (x.setStage k stage).requests.map (·.token) = x.requests.map (·.token) := by
  refine List.ext_getElem? fun j => ?_
  simp only [setStage, List.getElem?_map, List.getElem?_modify]
  cases x.requests[j]? with
  | none => rfl
  | some t => by_cases hj : k = j <;> simp [hj]

/-- A request that goes on, and the others, which have other tokens. -/
theorem mem_setStage (hfresh : (x.requests.map (·.token)).Nodup) (hk : x.requests[k]? = some t)
    {stage : TrackedRequest.Stage} {t' : TrackedRequest}
    (ht' : t' ∈ (x.setStage k stage).requests) :
    t' = { t with stage } ∨ t' ∈ x.requests ∧ t'.token ≠ t.token := by
  obtain ⟨j, hj⟩ := List.mem_iff_getElem?.mp ht'
  simp only [setStage, List.getElem?_modify] at hj
  by_cases hkj : k = j
  · subst hkj
    simp only [hk, if_true, Option.map_eq_map, Option.map_some, Option.some.injEq] at hj
    exact Or.inl hj.symm
  · have hj' : x.requests[j]? = some t' := by simpa [hkj] using hj
    refine Or.inr ⟨List.mem_of_getElem? hj', fun htoken => hkj ?_⟩
    have hlt : k < (x.requests.map (·.token)).length := by
      rw [List.length_map]
      exact (List.getElem?_eq_some_iff.mp hk).1
    exact (List.getElem?_inj hlt hfresh).mp (by simp [hk, hj', htoken])

/-- The invariant is kept where one request goes on, if the record changes for its token only and
has noted what is noted of it now. -/
theorem Accounts.move (h : x.Accounts pushed) (hk : x.requests[k]? = some t)
    {stage : TrackedRequest.Stage} {n : Node} {noted : List (String × Completion)}
    (hguarded : ({ t with stage } : TrackedRequest).IsGuarded)
    (hself : n.load.active[t.token]? = ({ t with stage } : TrackedRequest).active?)
    (hothers : ∀ id, t.token ≠ id → n.load.active[id]? = x.node.load.active[id]?)
    (hnoted : ∀ p ∈ noted, p.1 = t.token)
    (hcompletions : t.completions ++ noted = ({ t with stage } : TrackedRequest).completions) :
    ((x.withNode n).setStage k stage).Accounts (pushed ++ noted) := by
  have hmem : t ∈ x.requests := List.mem_of_getElem? hk
  have htokens : ((x.withNode n).setStage k stage).requests.map (·.token) =
      x.requests.map (·.token) := map_token_setStage x k stage
  have hcases {t' : TrackedRequest} (ht' : t' ∈ ((x.withNode n).setStage k stage).requests) :
      t' = { t with stage } ∨ t' ∈ x.requests ∧ t'.token ≠ t.token := mem_setStage h.fresh hk ht'
  refine ⟨?fresh, ?guarded, ?entered, ?absent, ?noted, ?known⟩
  case fresh => exact htokens ▸ h.fresh
  case guarded =>
    intro t' ht'
    obtain rfl | ⟨ht', -⟩ := hcases ht'
    · exact hguarded
    · exact h.guarded t' ht'
  case entered =>
    intro t' ht'
    obtain rfl | ⟨ht', hne⟩ := hcases ht'
    · exact hself
    · exact (hothers _ hne.symm).trans (h.entered t' ht')
  case absent =>
    intro id hid
    rw [htokens] at hid
    have hne : t.token ≠ id := fun heq => hid (heq ▸ List.mem_map_of_mem hmem)
    exact (hothers id hne).trans (h.absent id hid)
  case noted =>
    intro t' ht'
    rw [List.filter_append]
    obtain rfl | ⟨ht', hne⟩ := hcases ht'
    · have hall : noted.filter (·.1 = t.token) = noted :=
        List.filter_eq_self.mpr fun p hp => decide_eq_true (hnoted p hp)
      exact (congrArg₂ (· ++ ·) (h.noted t hmem) hall).trans hcompletions
    · have hnone : noted.filter (·.1 = t'.token) = [] :=
        List.filter_eq_nil_iff.mpr fun p hp => by simp [hnoted p hp, hne.symm]
      rw [hnone, List.append_nil, h.noted t' ht']
  case known =>
    intro p hp
    rw [htokens]
    rcases List.mem_append.mp hp with hp | hp
    · exact h.known p hp
    · exact hnoted p hp ▸ List.mem_map_of_mem hmem

/-- One more request. -/
theorem Accounts.arrives (h : x.Accounts pushed) {token : String} (request : Request)
    (hnew : token ∉ x.requests.map (·.token)) :
    (x.step (.arrives token request)).Accounts pushed := by
  have hmem {t : TrackedRequest} (ht : t ∈ (x.step (.arrives token request)).requests) :
      t ∈ x.requests ∨ t = { token, request } := by
    simpa [step] using ht
  refine ⟨?fresh, ?guarded, ?entered, ?absent, ?noted, ?known⟩
  case fresh =>
    simp only [step, List.map_append, List.map_cons, List.map_nil]
    exact List.nodup_append.mpr ⟨h.fresh, List.nodup_singleton _, fun a ha b hb heq =>
      hnew (List.mem_singleton.mp hb ▸ heq ▸ ha)⟩
  case guarded =>
    intro t ht
    obtain ht | rfl := hmem ht
    · exact h.guarded t ht
    · trivial
  case entered =>
    intro t ht
    obtain ht | rfl := hmem ht
    · exact h.entered t ht
    · exact h.absent token hnew
  case absent =>
    intro id hid
    refine h.absent id fun hold => hid ?_
    simp only [step, List.map_append, List.mem_append]
    exact Or.inl hold
  case noted =>
    intro t ht
    obtain ht | rfl := hmem ht
    · exact h.noted t ht
    · refine List.filter_eq_nil_iff.mpr fun p hp => ?_
      have hne : p.1 ≠ token := fun heq => hnew (heq ▸ h.known p hp)
      simpa using hne
  case known =>
    intro p hp
    simp only [step, List.map_append, List.mem_append]
    exact Or.inl (h.known p hp)

/-- What leaves the requests under way alone. -/
theorem Accounts.withNode (h : x.Accounts pushed) {n : Node}
    (hactive : n.load.active = x.node.load.active) : (x.withNode n).Accounts pushed where
  fresh := h.fresh
  guarded := h.guarded
  entered t ht := hactive ▸ h.entered t ht
  absent id hid := hactive ▸ h.absent id hid
  noted := h.noted
  known := h.known

/-! ## Steps and runs -/

/-- The completion of a request that runs, as the record notes it. -/
theorem Accounts.completion?_finish (h : x.Accounts pushed) {token : String} {r : Request}
    {began : WallTime} {guard : InFlight}
    (hk : x.requests[k]? = some ⟨token, r, .running began guard⟩) (isError : Bool)
    (now : WallTime) :
    x.node.load.completion? (.finish token isError now) =
      some (token, ⟨r.target.pathText, (now.since? began).getD 0, isError, now⟩) := by
  have hentered : x.node.load.active[token]? =
      some ⟨token, began, r.method, r.target.pathText, r.isFromPeer⟩ :=
    h.entered _ (List.mem_of_getElem? hk)
  simp [LoadRecord.completion?, hentered]

/-- The guard of a request that runs. -/
theorem Accounts.guard_eq (h : x.Accounts pushed) {token : String} {r : Request}
    {began : WallTime} {guard : InFlight}
    (hk : x.requests[k]? = some ⟨token, r, .running began guard⟩) : guard = { token } :=
  h.guarded _ (List.mem_of_getElem? hk)

theorem Accounts.begins (h : x.Accounts pushed) (k : ℕ) (now : WallTime) :
    (x.step (.begins k now)).Accounts (pushed ++ (x.pushed? (.begins k now)).toList) := by
  rcases hk : x.requests[k]? with _ | ⟨token, r, stage⟩
  · simpa [step, pushed?, call?, hk] using h
  · cases stage with
    | running | answered | gone => simpa [step, pushed?, call?, hk] using h
    | waiting =>
      simp only [step, pushed?, call?, hk]
      refine h.move hk rfl ?self ?others (by simp [LoadRecord.completion?]) ?completions
      case self =>
        exact (LoadRecord.active_start _).trans (if_pos rfl)
      case others =>
        exact fun id hne => (LoadRecord.active_start _).trans (if_neg hne)
      case completions => rfl

/-- A request that runs is finished : its completion is noted, and its entry is gone. -/
theorem Accounts.finished (h : x.Accounts pushed) {token : String} {r : Request}
    {began now : WallTime} {guard : InFlight} {answer : Option Response} {isError : Bool}
    (hk : x.requests[k]? = some ⟨token, r, .running began guard⟩)
    {stage : TrackedRequest.Stage} (hguarded : TrackedRequest.IsGuarded ⟨token, r, stage⟩)
    (hlife : TrackedRequest.life? ⟨token, r, stage⟩ = some ⟨began, now, answer⟩)
    (hfailed : Lifetime.failed ⟨began, now, answer⟩ = isError) :
    Accounts
      ((x.withNode (x.node.withLoad (x.node.load.finish token isError now))).setStage k stage)
      (pushed ++ (x.node.load.completion? (.finish token isError now)).toList) := by
  have hentry : TrackedRequest.active? ⟨token, r, stage⟩ = none := by
    cases stage with
    | running => simp [TrackedRequest.life?] at hlife
    | waiting | answered | gone => rfl
  refine h.move hk hguarded ?self ?others ?noted ?completions
  case self => exact LoadRecord.active_finish.trans ((if_pos rfl).trans hentry.symm)
  case others => exact fun id hne => LoadRecord.active_finish.trans (if_neg hne)
  case noted => simp [h.completion?_finish hk]
  case completions =>
    rw [h.completion?_finish hk, ← hfailed]
    simp only [TrackedRequest.completions, hlife]
    rfl

theorem Accounts.returns (h : x.Accounts pushed) (k : ℕ) (answer : Response) (now : WallTime) :
    (x.step (.returns k answer now)).Accounts
      (pushed ++ (x.pushed? (.returns k answer now)).toList) := by
  rcases hk : x.requests[k]? with _ | ⟨token, r, stage⟩
  · simpa [step, pushed?, call?, hk] using h
  · cases stage with
    | waiting | answered | gone => simpa [step, pushed?, call?, hk] using h
    | running began guard =>
      obtain rfl := h.guard_eq hk
      simp only [step, pushed?, call?, hk]
      exact h.finished hk rfl rfl rfl

theorem Accounts.goes (h : x.Accounts pushed) (k : ℕ) (now : WallTime) :
    (x.step (.goes k now)).Accounts (pushed ++ (x.pushed? (.goes k now)).toList) := by
  rcases hk : x.requests[k]? with _ | ⟨token, r, stage⟩
  · simpa [step, pushed?, call?, hk] using h
  · have hentered := h.entered _ (List.mem_of_getElem? hk)
    cases stage with
    | gone => simpa [step, pushed?, call?, hk] using h
    | waiting =>
      simp only [step, pushed?, call?, hk]
      exact h.move hk trivial hentered (fun _ _ => rfl) (by simp) rfl
    | running began guard =>
      -- It was dropped while it ran : its guard completes it.
      obtain rfl := h.guard_eq hk
      simp only [step, pushed?, call?, hk]
      exact h.finished hk trivial rfl rfl
    | answered life guard =>
      -- It is completed already, which its guard knows.
      have hdone : guard.done = true := h.guarded _ (List.mem_of_getElem? hk)
      simp only [step, pushed?, call?, hk, releaseCall?, InFlight.release, hdone, if_true]
      exact h.move hk trivial hentered (fun _ _ => rfl) (by simp) (by simp; rfl)

/-- The token that an event brings along. -/
def Event.token? : Event → Option String
  | .arrives token _ => some token
  | _ => none

theorem Accounts.step (h : x.Accounts pushed) (e : Event)
    (hnew : ∀ token ∈ e.token?, token ∉ x.requests.map (·.token)) :
    (x.step e).Accounts (pushed ++ (x.pushed? e).toList) := by
  cases e with
  | arrives token request => simpa [pushed?, call?] using h.arrives request (hnew token rfl)
  | begins k now => exact h.begins k now
  | returns k answer now => exact h.returns k answer now
  | goes k now => exact h.goes k now
  | updates m latency now =>
    simpa [Tracking.step, pushed?, call?, LoadRecord.completion?] using
      h.withNode (n := x.node.withLoad (x.node.load.update m latency now))
        (LoadRecord.active_update m latency)
  | purges now =>
    simpa [Tracking.step, pushed?, call?, LoadRecord.completion?] using
      h.withNode (n := x.node.withLoad (x.node.load.purge now)) rfl
  | directs d =>
    simpa [Tracking.step, pushed?, call?] using h.withNode (n := x.node.withDirectory d) rfl

@[simp] theorem after_cons (x : Tracking) (e : Event) (events : List Event) :
    x.after (e :: events) = (x.step e).after events :=
  rfl

theorem after_concat (x : Tracking) (events : List Event) (e : Event) :
    x.after (events ++ [e]) = (x.after events).step e :=
  List.foldl_concat ..

theorem map_token_step (x : Tracking) (e : Event) :
    (x.step e).requests.map (·.token) = x.requests.map (·.token) ++ e.token?.toList := by
  cases e with
  | arrives token request => simp [Tracking.step, Event.token?]
  | updates | purges | directs => simp [Tracking.step, Event.token?, Tracking.withNode]
  | begins k now | returns k answer now | goes k now =>
    simp only [Tracking.step, Event.token?, Option.toList_none, List.append_nil]
    split
    all_goals first | rfl | exact map_token_setStage _ _ _

theorem Accounts.after (h : x.Accounts pushed) {events : List Event}
    (hnew : (x.requests.map (·.token) ++ events.filterMap Event.token?).Nodup) :
    (x.after events).Accounts (pushed ++ x.pushes events) := by
  induction events generalizing x pushed with
  | nil => simpa [Tracking.after, pushes] using h
  | cons e events ih =>
    have htokens : x.requests.map (·.token) ++ (e :: events).filterMap Event.token? =
        (x.step e).requests.map (·.token) ++ events.filterMap Event.token? := by
      rw [map_token_step, List.append_assoc]
      cases htoken : e.token? <;> simp [htoken]
    have hstep : (x.step e).Accounts (pushed ++ (x.pushed? e).toList) := by
      refine h.step e fun token htoken hold => ?_
      refine (List.nodup_append.mp hnew).2.2 token hold token ?_ rfl
      exact List.mem_filterMap.mpr ⟨e, List.mem_cons_self, htoken⟩
    simpa [pushes, List.append_assoc] using ih hstep (htokens ▸ hnew)

theorem history_after (x : Tracking) (events : List Event) :
    (x.after events).node.load.history.Sublist
      (x.node.load.history ++ (x.pushes events).map Prod.snd) := by
  induction events generalizing x with
  | nil => simp [Tracking.after, pushes]
  | cons e events ih =>
    have hstep : (x.step e).node.load.history.Sublist
        (x.node.load.history ++ (x.pushed? e).toList.map Prod.snd) := by
      rw [load_step, pushed?]
      cases x.call? e with
      | none => simp
      | some call => exact LoadRecord.history_step_sublist _ call
    simpa [pushes, List.append_assoc] using
      (ih (x.step e)).trans (hstep.append_right _)

/-! ## One request -/

/-- How the task of the first request ends, with an answer or without. -/
def ending (answer : Option Response) (now : WallTime) : List Event :=
  match answer with
  | some answer => [.returns 0 answer now, .goes 0 now]
  | none => [.goes 0 now]

/-- A request that comes to a node and begins. -/
def entering (n : Node) (token : String) (r : Request) (now : WallTime) : Tracking :=
  after ⟨n, []⟩ [.arrives token r, .begins 0 now]

theorem node_entering (n : Node) (token : String) (r : Request) (now : WallTime) :
    (entering n token r now).node = Gateway.begun n token r now :=
  rfl

theorem node_ending (n n' : Node) (token : String) (r : Request) (began now : WallTime)
    (answer : Option Response) :
    (((entering n token r began).withNode n').after (ending answer now)).node =
      Gateway.ended n' token answer now := by
  cases answer <;> rfl

/-- A gateway that handles a request takes it through its life, whatever others do while it looks
for an answer. -/
theorem node_handle {σ : Type} {s : Outlets σ} (hs : ∀ n state, s.node (s.setNode n state) = n)
    (g : Gateway) (token : String) (r : Request) (state : σ) :
    let entered := entering (s.node state) token r (s.now state).wall
    let found := g.respond s r (s.setNode entered.node state)
    s.node (g.handle s token r state).2 =
      ((entered.withNode (s.node found.2)).after (ending found.1 (s.now found.2).wall)).node := by
  intro entered found
  rw [node_ending]
  exact hs _ found.2

/-! ## Accounts are exact -/

/-- At every moment the requests under way in the record are those that have begun and have not
ended. One completion was noted for each that has ended, an error if its status says so or its task
was dropped, and none for any other. The history has nothing but what was noted, and all that is
noted gets into it, unless the clock reads a time before the epoch. -/
theorem tracked_exactly (n : Node) (hempty : n.load.active = ∅) (events : List Event)
    (hfresh : (events.filterMap Event.token?).Nodup) :
    (∀ token, token ∈ (after ⟨n, []⟩ events).node.load.active ↔
      ∃ t ∈ (after ⟨n, []⟩ events).requests, t.token = token ∧ t.isUnderWay = true) ∧
    (∀ t ∈ (after ⟨n, []⟩ events).requests,
      (pushes ⟨n, []⟩ events).filter (·.1 = t.token) =
        t.life?.toList.map fun l => (t.token, l.completion t.request)) ∧
    (∀ p ∈ pushes ⟨n, []⟩ events, ∃ t ∈ (after ⟨n, []⟩ events).requests, t.token = p.1) ∧
    (after ⟨n, []⟩ events).node.load.history.Sublist
      (n.load.history ++ (pushes ⟨n, []⟩ events).map Prod.snd) ∧
    ∀ before e rest, events = before ++ e :: rest →
      ∀ p, pushed? (after ⟨n, []⟩ before) e = some p → 0 ≤ p.2.completedAt →
        p.2 ∈ (after ⟨n, []⟩ (before ++ [e])).node.load.history := by
  have hnew : Accounts ⟨n, []⟩ [] :=
    ⟨List.nodup_nil, by simp, by simp, fun id _ => by simp [hempty], by simp, by simp⟩
  have h : (after ⟨n, []⟩ events).Accounts (pushes ⟨n, []⟩ events) :=
    hnew.after (by simpa using hfresh)
  refine ⟨fun token => ?active, h.noted, fun p hp => ?known, history_after _ events, ?history⟩
  case active =>
    rw [Std.ExtTreeMap.mem_iff_isSome_getElem?]
    constructor
    · intro hsome
      by_cases htoken : token ∈ (after ⟨n, []⟩ events).requests.map (·.token)
      · obtain ⟨t, ht, rfl⟩ := List.mem_map.mp htoken
        rw [h.entered t ht, t.isSome_active?] at hsome
        exact ⟨t, ht, rfl, hsome⟩
      · simp [h.absent token htoken] at hsome
    · rintro ⟨t, ht, rfl, hunderWay⟩
      rw [h.entered t ht, t.isSome_active?, hunderWay]
  case known => exact List.mem_map.mp (h.known p hp)
  case history =>
    intro before e rest _ p hp hepoch
    obtain ⟨call, hcall, hcompletion⟩ := Option.bind_eq_some_iff.mp hp
    have hload : (after ⟨n, []⟩ (before ++ [e])).node.load =
        (after ⟨n, []⟩ before).node.load.step call := by
      rw [after_concat, load_step, hcall]
      rfl
    rw [hload]
    exact LoadRecord.mem_history_of_completion? hcompletion hepoch

/-- A node with nothing under way. -/
def idle : Node where
  directory := ⟨⟨"n"⟩, "n:7400", 8, ∅⟩
  load :=
    { nodeId := ⟨"n"⟩, address := "n:8080", window := 60, weights := .default, host := ⟨0, 0⟩ }
  policy := ⟨60, 120, false, 2⟩

/-- Four requests : one runs on, one gets a status of failure, one is dropped while it runs and one
before it began. -/
def rush : List Event :=
  [.arrives "a" { target := ⟨"", "/a", none⟩ }, .arrives "b" { target := ⟨"", "/b", none⟩ },
    .begins 0 1, .begins 1 3, .arrives "c" { target := ⟨"", "/c", none⟩ }, .begins 2 4, .purges 5,
    .arrives "d" { target := ⟨"", "/d", none⟩ }, .goes 3 6, .returns 1 { status := 500 } 9,
    .goes 2 10, .goes 1 11]

theorem tracked_exactly_rush :
    idle.load.active = ∅ ∧ (rush.filterMap Event.token?).Nodup ∧
    (∀ token, token ∈ (after ⟨idle, []⟩ rush).node.load.active ↔ token = "a") ∧
    (pushes ⟨idle, []⟩ rush).filter (·.1 = "a") = [] ∧
    (pushes ⟨idle, []⟩ rush).filter (·.1 = "b") = [("b", ⟨"/b", 6, true, 9⟩)] ∧
    (pushes ⟨idle, []⟩ rush).filter (·.1 = "c") = [("c", ⟨"/c", 6, true, 10⟩)] ∧
    (pushes ⟨idle, []⟩ rush).filter (·.1 = "d") = [] := by
  obtain ⟨hactive, hnoted, -⟩ := tracked_exactly idle rfl rush (by decide)
  have hrequests : (after ⟨idle, []⟩ rush).requests =
      [⟨"a", { target := ⟨"", "/a", none⟩ }, .running 1 { token := "a" }⟩,
        ⟨"b", { target := ⟨"", "/b", none⟩ }, .gone (some ⟨3, 9, some { status := 500 }⟩)⟩,
        ⟨"c", { target := ⟨"", "/c", none⟩ }, .gone (some ⟨4, 10, none⟩)⟩,
        ⟨"d", { target := ⟨"", "/d", none⟩ }, .gone none⟩] := rfl
  rw [hrequests] at hactive hnoted
  simp only [List.forall_mem_cons] at hnoted
  obtain ⟨ha, hb, hc, hd, -⟩ := hnoted
  refine ⟨rfl, by decide, fun token => ?_, ha, hb, hc, hd⟩
  rw [hactive]
  simpa [TrackedRequest.isUnderWay] using eq_comm

end Tracking

end PeerGateway
