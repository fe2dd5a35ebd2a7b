import PeerGateway.Proofs.Node.Surroundings
import PeerGateway.Node.Walk
import Mathlib.Data.List.Basic

/-!
# The course of a walk

A walk is a list of attempts (`Walk.attempts`), each a request that was sent and its answer.
`Walk.run_induction` is the induction over them : what holds at the start and is kept by
each attempt holds when the walk is over.

One attempt is told in two parts. `Walk.advanceFrom_cases` says which candidate is asked next in
quiet surroundings, and for the rest, `Walk.attempt` is seen through what it adds to the
walk : the visited nodes and the queue by what the answer is (`Walk.followed?`), and one record
to the outcome (`Walk.outcome_attempt`).
-/

namespace PeerGateway

variable {σ : Type} {s : Surroundings σ}

/-! ## Attempts -/

/-- The response in an answer, if the walk goes on from it : it takes the node in, or turns it
away because it has no room or could not be reached by punching. -/
def Walk.followed? : Except NetworkError Message → Option JoinResponse
  | .ok (.joinResponse r) =>
    if r.success ∨ r.error = some .networkFull ∨ r.error = some .natPunchFailed then some r
    else none
  | _ => none

theorem Walk.eq_of_followed? {reply : Except NetworkError Message} {r : JoinResponse}
    (h : followed? reply = some r) : reply = .ok (.joinResponse r) := by
  unfold followed? at h
  split at h
  · split_ifs at h
    rw [Option.some.inj h]
  · simp at h

/-- One request of a walk, with its answer. -/
structure Attempt where
  candidate : Candidate
  /-- The directory of the walking node when the walk went on to the candidate. -/
  directory : Directory
  request : JoinRequest
  reply : Except NetworkError Message

namespace Attempt

def address (a : Attempt) : String := a.candidate.address

/-- The node that answered, if later requests tell of it. -/
def visited? (a : Attempt) : Option NodeId := (Walk.followed? a.reply).map JoinResponse.nodeId

/-- Whether the answer takes the walking node in. -/
def isAccepted (a : Attempt) : Bool :=
  match a.reply with
  | .ok (.joinResponse r) => r.success
  | _ => false

/-- Whether the answer turns the walking node away because its request went round in a loop. -/
def isLoop (a : Attempt) : Bool :=
  match a.reply with
  | .ok (.joinResponse r) => !r.success && r.error == some .networkJoinLoop
  | _ => false

/-- The address and the message of the request. -/
def sent (a : Attempt) : String × Message := (a.address, .joinRequest a.request)

theorem isAccepted_of_reply {a : Attempt} {r : JoinResponse} (h : a.reply = .ok (.joinResponse r)) :
    a.isAccepted = r.success := by
  simp [isAccepted, h]

theorem isLoop_eq_false_of_isAccepted {a : Attempt} (h : a.isAccepted = true) :
    a.isLoop = false := by
  unfold isAccepted at h
  unfold isLoop
  split at h
  · simp [h]
  · simp at h

theorem filterMap_visited?_append (log : List Attempt) (a : Attempt) :
    (log ++ [a]).filterMap visited? = log.filterMap visited? ++ a.visited?.toList := by
  cases h : a.visited? <;> simp [h]

/-- What an attempt may be recorded as : a connection to the node that took this one in, or a
failure at the address. -/
inductive RecordedAs (a : Attempt) : Except FailedAttempt NodeId → Prop
  | connected (r : JoinResponse) (reply : a.reply = .ok (.joinResponse r))
      (success : r.success = true) : RecordedAs a (.ok r.nodeId)
  | failed (e : NetworkError) : RecordedAs a (.error ⟨a.address, e⟩)

end Attempt

/-- The outcome with one more record. -/
def WalkOutcome.record (o : WalkOutcome) : Except FailedAttempt NodeId → WalkOutcome
  | .ok id => o.connect id
  | .error f => o.fail f.address f.error

namespace Walk

/-- The attempt at a candidate that is asked from `state'`, the walk having gone on to it from
`state`. -/
def inquiry (s : Surroundings σ) (w : Walk) (c : Candidate) (state state' : σ) : Attempt where
  candidate := c
  directory := s.directory state
  request := w.request (s.node state')
  reply := (w.ask s c state').1

/-- The attempts of a walk, up to `limit` of them. -/
def attempts (s : Surroundings σ) : ℕ → Walk → σ → List Attempt
  | 0, _, _ => []
  | limit + 1, w, state =>
    match w.advance s state with
    | (.finished _, _) => []
    | (.asks c w, state') =>
      let next := w.attempt s c state'
      w.inquiry s c state state' :: attempts s limit next.1 next.2

/-- What holds at the start of a walk and is kept by each attempt holds at its end. -/
theorem run_induction {P : List Attempt → Walk → σ → Prop}
    (step : ∀ log w state c w' state', P log w state → w.advance s state = (.asks c w', state') →
      P (log ++ [w'.inquiry s c state state']) (w'.attempt s c state').1
        (w'.attempt s c state').2) :
    ∀ {limit log w state outcome last}, P log w state →
      run s limit w state = (some outcome, last) →
      ∃ w' state', P (log ++ attempts s limit w state) w' state' ∧
        w'.advance s state' = (.finished outcome, last)
  | 0, _, _, _, _, _, _, h => by simp [run] at h
  | limit + 1, log, w, state, outcome, last, hP, h => by
    rw [run] at h
    rw [attempts]
    split at h
    · rename_i o state' hadv
      obtain ⟨rfl, rfl⟩ : o = outcome ∧ state' = last := by simpa using h
      exact ⟨w, state, by simpa [hadv] using hP, hadv⟩
    · rename_i c w' state' hadv
      obtain ⟨w₁, state₁, hP₁, hend⟩ :=
        run_induction step (step log w state c w' state' hP hadv) h
      exact ⟨w₁, state₁, by simpa [hadv] using hP₁, hend⟩

/-- A walk that is over within a limit is over within a greater one, after the same attempts. -/
theorem run_of_le {limit limit' : ℕ} (hle : limit ≤ limit') {w : Walk} {state last : σ}
    {outcome : WalkOutcome} (h : run s limit w state = (some outcome, last)) :
    run s limit' w state = (some outcome, last) ∧
      attempts s limit' w state = attempts s limit w state := by
  induction limit generalizing limit' w state with
  | zero => simp [run] at h
  | succ limit ih =>
    obtain ⟨limit', rfl⟩ : ∃ k, limit' = k + 1 := Nat.exists_eq_add_one_of_ne_zero (by omega)
    rw [run] at h
    rw [run, attempts, attempts]
    rcases hadv : w.advance s state with ⟨o | ⟨c, w'⟩, state'⟩ <;> rw [hadv] at h
    · exact ⟨h, rfl⟩
    · obtain ⟨hrun, hattempts⟩ := ih (Nat.le_of_succ_le_succ hle) h
      exact ⟨hrun, by simp only [hattempts]⟩

/-! ## The next candidate -/

theorem isWorthAsking_iff {w : Walk} {d : Directory} {c : Candidate} :
    w.isWorthAsking d c = true ↔ c.address ≠ d.localAddress ∧
      ∀ id, c.nodeId = some id →
        id ≠ d.localId ∧ id ∉ w.visited ∧ d.stateOf? id ≠ some .connected := by
  unfold isWorthAsking
  cases c.nodeId <;> simp [and_assoc]

/-- There is a place for a candidate that is worth asking, if there is one at all. -/
theorem exists_reserveOffered {w : Walk} {d : Directory} {c : Candidate}
    (hworth : w.isWorthAsking d c = true) (hroom : d.isFull = false) (now : Instant) :
    ∃ d', reserveOffered d c now = .ok d' := by
  unfold reserveOffered
  cases hc : c.nodeId with
  | none => exact ⟨d, rfl⟩
  | some id =>
    have hne := ((isWorthAsking_iff.mp hworth).2 id hc).1
    have hlt := Directory.isFull_eq_false_iff.mp hroom
    simp only [Directory.reserve, Directory.place_eq_ok_iff]
    by_cases hknown : d.find? id = none
    · exact ⟨_, hne, Or.inr ⟨hknown, hlt, rfl⟩⟩
    · exact ⟨d, hne, Or.inl ⟨hknown, rfl⟩⟩

/-- In quiet surroundings a walk either is over, and has changed nothing, or goes on to
the first candidate that is worth asking and keeps a place for it. -/
theorem advanceFrom_cases (hs : s.Quiet) (candidates : List Candidate) (w : Walk)
    (state : σ) :
    (∃ k, advanceFrom s candidates w state = (.finished w.outcome, s.meanwhile^[k] state)) ∨
    ∃ skipped c rest k d now, candidates = skipped ++ c :: rest ∧
      (s.directory state).isFull = false ∧ w.isWorthAsking (s.directory state) c = true ∧
      c.address ∉ w.tried ∧ reserveOffered (s.directory state) c now = .ok d ∧
      advanceFrom s candidates w state =
        (.asks c (w.asking c.address rest), s.setDirectory d (s.meanwhile^[k] state)) := by
  induction candidates generalizing state with
  | nil => exact Or.inl ⟨0, rfl⟩
  | cons c rest ih =>
    rw [advanceFrom]
    simp only [hs.meanwhile]
    cases hfull : (s.directory state).isFull with
    | true => exact Or.inl ⟨1, rfl⟩
    | false =>
      by_cases hskip : (!w.isWorthAsking (s.directory state) c || w.tried.contains c.address) = true
      · simp only [hskip, Bool.false_eq_true, if_false, if_true, true_and]
        rcases ih (s.meanwhile (s.meanwhile state)) with
          ⟨k, h⟩ | ⟨skipped, c', rest', k, d, now, rfl, -, hworth, htried, hres, h⟩
        · exact Or.inl ⟨k + 2, h⟩
        · simp only [hs.meanwhile] at hworth hres
          exact Or.inr ⟨c :: skipped, c', rest', k + 2, d, now, rfl, hworth, htried, hres, h⟩
      · simp only [Bool.or_eq_true, Bool.not_eq_true', List.contains_iff_mem, not_or,
          Bool.not_eq_false] at hskip
        obtain ⟨hworth, htried⟩ := hskip
        obtain ⟨d, hd⟩ := exists_reserveOffered hworth hfull
          (s.now (s.meanwhile (s.meanwhile (s.meanwhile state)))).steady
        refine Or.inr ⟨[], c, rest, 3, d, _, rfl, rfl, hworth, htried, hd, ?_⟩
        simp [hworth, htried, hd]

theorem advance_finished (hs : s.Quiet) {w : Walk} {state state' : σ} {o : WalkOutcome}
    (h : w.advance s state = (.finished o, state')) :
    o = w.outcome ∧ ∃ k, state' = s.meanwhile^[k] state := by
  rcases advanceFrom_cases hs w.queue w state with ⟨k, h'⟩ | ⟨_, _, _, _, _, _, _, _, _, _, _, h'⟩
  · rw [advance, h'] at h
    simp only [Prod.mk.injEq, Move.finished.injEq] at h
    exact ⟨h.1.symm, k, h.2.symm⟩
  · simp [advance, h'] at h

/-- The candidate that is asked next in quiet surroundings. -/
theorem advance_asks (hs : s.Quiet) {w w' : Walk} {c : Candidate} {state state' : σ}
    (h : w.advance s state = (.asks c w', state')) :
    ∃ skipped rest k d now, w.queue = skipped ++ c :: rest ∧ w' = w.asking c.address rest ∧
      (s.directory state).isFull = false ∧ w.isWorthAsking (s.directory state) c = true ∧
      c.address ∉ w.tried ∧ reserveOffered (s.directory state) c now = .ok d ∧
      state' = s.setDirectory d (s.meanwhile^[k] state) := by
  rcases advanceFrom_cases hs w.queue w state with
    ⟨k, h'⟩ | ⟨skipped, c', rest, k, d, now, hq, hfull, hworth, htried, hres, h'⟩
  · simp [advance, h'] at h
  · rw [advance, h'] at h
    simp only [Prod.mk.injEq, Move.asks.injEq] at h
    obtain ⟨⟨rfl, rfl⟩, rfl⟩ := h
    exact ⟨skipped, rest, k, d, now, hq, rfl, hfull, hworth, htried, hres, rfl⟩

/-! ## What an attempt adds to a walk -/

theorem followed?_of_success {reply : Except NetworkError Message} {r : JoinResponse}
    (hr : reply = .ok (.joinResponse r)) (hsuccess : r.success = true) :
    followed? reply = some r := by
  rw [hr]
  exact if_pos (Or.inl hsuccess)

theorem accepted_eq {w : Walk} {c : Candidate} {r : JoinResponse} {state state' : σ}
    (hport : r.natPort = none)
    (henrol : enrol s { nodeId := r.nodeId, address := c.address } state = (.ok (), state')) :
    w.accepted s c r state =
      (((w.visit r.nodeId).connected r.nodeId).enqueue r, giveBackOther s c r.nodeId state') := by
  simp [accepted, punchIfAsked, hport, henrol]

theorem enrol_eq_ok {peer : Peer} {placed d : Directory} {state : σ}
    (hplace : (s.directory state).place peer .connected (s.now state).steady = .ok placed)
    (hconfirm : (s.directory (s.meanwhile (s.setDirectory placed state))).confirm peer.nodeId
      (s.now (s.meanwhile (s.setDirectory placed state))).steady = .ok d) :
    enrol s peer state =
      (.ok (), s.setDirectory d (s.meanwhile (s.setDirectory placed state))) := by
  simp [enrol, hplace, hconfirm]

variable (s) (w : Walk) (c : Candidate) (state : σ)

/-- An attempt is accepted, refused, or gets no answer to the request. -/
theorem attempt_cases :
    (∃ r, (w.ask s c state).1 = .ok (.joinResponse r) ∧ r.success = true ∧
      w.attempt s c state = w.accepted s c r (w.ask s c state).2) ∨
    (∃ r, (w.ask s c state).1 = .ok (.joinResponse r) ∧ r.success = false ∧
      w.attempt s c state = (w.refused c r, giveBack s c (w.ask s c state).2)) ∨
    ∃ e, (∀ r, (w.ask s c state).1 ≠ .ok (.joinResponse r)) ∧
      w.attempt s c state = (w.failed c.address e, giveBack s c (w.ask s c state).2) := by
  unfold attempt answered
  dsimp only
  split
  · rename_i e he
    exact Or.inr (Or.inr ⟨e, fun r hr => by simp [he] at hr, rfl⟩)
  · rename_i r hr
    cases hsuccess : r.success with
    | true => exact Or.inl ⟨r, hr, hsuccess, by simp⟩
    | false => exact Or.inr (Or.inl ⟨r, hr, hsuccess, by simp⟩)
  · rename_i m hne hm
    exact Or.inr (Or.inr ⟨_, fun r hr => hne r (Except.ok.inj (hm.symm.trans hr)), rfl⟩)

/-- An attempt that is not accepted adds no connection, and the place that was kept is given
back. -/
theorem attempt_of_not_accepted {before : σ} (h : (w.inquiry s c before state).isAccepted = false) :
    (w.attempt s c state).1.outcome.connected = w.outcome.connected ∧
      (w.attempt s c state).2 = giveBack s c (w.ask s c state).2 := by
  rcases attempt_cases s w c state with ⟨r, hr, hsuccess, -⟩ | ⟨r, -, -, heq⟩ | ⟨e, -, heq⟩
  · simp [inquiry, Attempt.isAccepted, hr, hsuccess] at h
  · rw [heq]
    refine ⟨?_, rfl⟩
    unfold refused
    split <;> rfl
  · rw [heq]
    exact ⟨rfl, rfl⟩

/-- An accepted attempt is recorded as a connection, or as a failure. -/
theorem accepted_walk (r : JoinResponse) :
    (w.accepted s c r state).1 = ((w.visit r.nodeId).connected r.nodeId).enqueue r ∨
      ∃ e, (w.accepted s c r state).1 = ((w.visit r.nodeId).enqueue r).failed c.address e := by
  unfold accepted
  dsimp only
  split
  · exact Or.inl rfl
  · exact Or.inr ⟨_, rfl⟩

theorem refused_walk {r : JoinResponse} (hr : r.success = false) :
    (followed? (.ok (.joinResponse r)) = some r ∧
      ∃ e, w.refused c r = ((w.visit r.nodeId).enqueue r).failed c.address e) ∨
    (followed? (.ok (.joinResponse r)) = none ∧ ∃ e, w.refused c r = w.failed c.address e) := by
  unfold refused followed?
  cases herror : r.error with
  | none => exact Or.inr ⟨by simp [hr, herror], _, rfl⟩
  | some kind =>
    cases kind with
    | networkFull => exact Or.inl ⟨by simp [herror], _, rfl⟩
    | natPunchFailed => exact Or.inl ⟨by simp [herror], _, rfl⟩
    | peerNotFound => exact Or.inr ⟨by simp [hr, herror], _, rfl⟩
    | invalidMessage => exact Or.inr ⟨by simp [hr, herror], _, rfl⟩
    | networkJoinLoop => exact Or.inr ⟨by simp [hr, herror], _, rfl⟩

/-- An attempt either is a connection, or fails with an answer that the walk goes on from, or
fails otherwise. -/
theorem attempt_walk :
    (∃ r, (w.ask s c state).1 = .ok (.joinResponse r) ∧ r.success = true ∧
      (w.attempt s c state).1 = ((w.visit r.nodeId).connected r.nodeId).enqueue r) ∨
    (∃ r e, followed? (w.ask s c state).1 = some r ∧
      (w.attempt s c state).1 = ((w.visit r.nodeId).enqueue r).failed c.address e) ∨
    ∃ e, followed? (w.ask s c state).1 = none ∧
      (w.attempt s c state).1 = w.failed c.address e := by
  rcases attempt_cases s w c state with ⟨r, hr, hsuccess, h⟩ | ⟨r, hr, hsuccess, h⟩ | ⟨e, hne, h⟩
  · rw [h]
    rcases accepted_walk s w c (w.ask s c state).2 r with hw | ⟨e, hw⟩
    · exact Or.inl ⟨r, hr, hsuccess, hw⟩
    · exact Or.inr (Or.inl ⟨r, e, followed?_of_success hr hsuccess, hw⟩)
  · rw [h, hr]
    rcases refused_walk w c hsuccess with ⟨hf, e, hw⟩ | ⟨hf, e, hw⟩
    · exact Or.inr (Or.inl ⟨r, e, hf, hw⟩)
    · exact Or.inr (Or.inr ⟨e, hf, hw⟩)
  · rw [h]
    refine Or.inr (Or.inr ⟨e, ?_, rfl⟩)
    unfold followed?
    split
    · rename_i r hr
      exact absurd hr (hne r)
    · rfl

@[simp] theorem tried_attempt : (w.attempt s c state).1.tried = w.tried := by
  rcases attempt_walk s w c state with ⟨r, -, -, h⟩ | ⟨r, e, -, h⟩ | ⟨e, -, h⟩ <;> rw [h] <;> rfl

/-- The nodes that an answer adds to those visited. -/
theorem visited_attempt : (w.attempt s c state).1.visited =
    w.visited ++ ((followed? (w.ask s c state).1).map JoinResponse.nodeId).toList := by
  rcases attempt_walk s w c state with ⟨r, hr, hsuccess, h⟩ | ⟨r, e, hf, h⟩ | ⟨e, hf, h⟩
  · rw [h, followed?_of_success hr hsuccess]
    rfl
  · rw [h, hf]
    rfl
  · simp [h, hf, failed]

/-- The candidates that an answer adds to the queue. -/
theorem queue_attempt : (w.attempt s c state).1.queue = w.queue ++
    (followed? (w.ask s c state).1).toList.flatMap fun r =>
      r.alternatives.map fun p => { nodeId := some p.nodeId, address := p.address } := by
  rcases attempt_walk s w c state with ⟨r, hr, hsuccess, h⟩ | ⟨r, e, hf, h⟩ | ⟨e, hf, h⟩
  · simp [h, followed?_of_success hr hsuccess, enqueue, connected, visit]
  · simp [h, hf, enqueue, failed, visit]
  · simp [h, hf, failed]

/-- A candidate in the queue after an attempt was there before, or is offered by the answer. -/
theorem mem_queue_attempt {x : Candidate} (hx : x ∈ (w.attempt s c state).1.queue) :
    x ∈ w.queue ∨ ∃ r, followed? (w.ask s c state).1 = some r ∧
      ∃ p ∈ r.alternatives, x = { nodeId := some p.nodeId, address := p.address } := by
  rw [queue_attempt, List.mem_append] at hx
  refine hx.imp_right fun hx => ?_
  obtain ⟨r, hr, hx⟩ := List.mem_flatMap.mp hx
  obtain ⟨p, hp, rfl⟩ := List.mem_map.mp hx
  exact ⟨r, by simpa using hr, p, hp, rfl⟩

/-- An attempt adds one record to the outcome. -/
theorem outcome_attempt (before : σ) : ∃ x,
    (w.inquiry s c before state).RecordedAs x ∧
      (w.attempt s c state).1.outcome = w.outcome.record x := by
  rcases attempt_walk s w c state with ⟨r, hr, hsuccess, h⟩ | ⟨r, e, -, h⟩ | ⟨e, -, h⟩ <;> rw [h]
  · exact ⟨_, .connected r hr hsuccess, rfl⟩
  · exact ⟨_, .failed e, rfl⟩
  · exact ⟨_, .failed e, rfl⟩

end Walk

end PeerGateway
