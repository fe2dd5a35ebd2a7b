import PeerGateway.Proofs.Node.Operations
import PeerGateway.Proofs.Lists
import PeerGateway.Proofs.Walk.Course

/-!
# A walk ends and accounts for its requests

If the answers offer peers at finitely many addresses only, a walk is over after at most one
request to each of these addresses and the seeds (`Walk.exists_run_eq_some`). The requests that
surroundings see are those of `Walk.attempts` (`Walk.run_recorded`).

In undisturbed surroundings each request is due (`Attempt.DueAfter`) : there was room, the
candidate was worth asking, and the request tells of the nodes that answered before. Each is
recorded once, as a connection or as a failure (`Walk.Accounted`).
-/

namespace PeerGateway

variable {σ : Type} {s : Surroundings σ}

namespace Walk

/-! ## The end of a walk -/

/-- A walk whose candidates always are at these addresses ends within as many requests as there
are addresses that were not asked at. -/
theorem exists_run_eq_some (hs : s.Quiet) {addresses : Finset String} {P : Walk → σ → Prop}
    (step : ∀ w state c w' state', P w state → w.advance s state = (.asks c w', state') →
      P (w'.attempt s c state').1 (w'.attempt s c state').2)
    (within : ∀ w state, P w state → ∀ c ∈ w.queue, c.address ∈ addresses) {limit : ℕ} {w : Walk}
    {state : σ} (h : P w state) (hlimit : (addresses.filter (· ∉ w.tried)).card < limit) :
    ∃ outcome last, run s limit w state = (some outcome, last) := by
  induction limit generalizing w state with
  | zero => omega
  | succ limit ih =>
    rw [run]
    split
    · exact ⟨_, _, rfl⟩
    · rename_i c w' state' hadv
      refine ih (step _ _ _ _ _ h hadv) ?_
      obtain ⟨skipped, rest, -, -, -, hqueue, rfl, -, -, htried, -, -⟩ := advance_asks hs hadv
      have hc : c.address ∈ addresses := within w state h c (by simp [hqueue])
      -- The candidate's address was among the untried ones and is not any more.
      have hlt : (addresses.filter (· ∉ w.tried ++ [c.address])).card <
          (addresses.filter (· ∉ w.tried)).card := by
        refine Finset.card_lt_card ⟨fun a h => ?_, fun h => ?_⟩
        · simp only [Finset.mem_filter, List.mem_append, not_or] at h ⊢
          exact ⟨h.1, h.2.1⟩
        · have := h (Finset.mem_filter.mpr ⟨hc, htried⟩)
          simp at this
      rw [tried_attempt]
      exact Nat.lt_of_lt_of_le hlt (Nat.le_of_lt_succ hlimit)

/-- The candidates of a walk stay within the addresses that its answers offer. -/
theorem queue_within_attempt (hs : s.Quiet) {addresses : Finset String}
    (ha : s.OffersWithin addresses) {w w' : Walk} {c : Candidate} {state state' : σ}
    (hq : ∀ x ∈ w.queue, x.address ∈ addresses) (hadv : w.advance s state = (.asks c w', state')) :
    ∀ x ∈ (w'.attempt s c state').1.queue, x.address ∈ addresses := by
  intro x hx
  obtain ⟨skipped, rest, -, -, -, hqueue, rfl, -, -, -, -, -⟩ := advance_asks hs hadv
  rcases mem_queue_attempt s _ c state' hx with hx | ⟨r, hr, p, hp, rfl⟩
  · refine hq x ?_
    rw [hqueue]
    exact List.mem_append_right _ (List.mem_cons_of_mem _ hx)
  · exact ha _ _ _ r (eq_of_followed? hr) p hp

/-! ## The requests that are sent -/

section Recorded

variable (s) (w : Walk) (c : Candidate) (r : JoinResponse) (x : σ × List (String × Message))

theorem giveBack_recorded : giveBack s.recorded c x = (giveBack s c x.1, x.2) :=
  rfl

theorem advanceFrom_recorded (candidates : List Candidate) :
    advanceFrom s.recorded candidates w x =
      ((advanceFrom s candidates w x.1).1, (advanceFrom s candidates w x.1).2, x.2) := by
  induction candidates generalizing w x with
  | nil => rfl
  | cons c rest ih =>
    rw [advanceFrom, advanceFrom]
    simp only [Surroundings.meanwhile_recorded, Surroundings.directory_recorded,
      Surroundings.now_recorded, Surroundings.setDirectory_recorded, giveBack_recorded, ih]
    split_ifs
    · rfl
    · rfl
    · split <;> rfl

theorem punchIfAsked_recorded : punchIfAsked s.recorded c r x =
    ((punchIfAsked s c r x.1).1, (punchIfAsked s c r x.1).2, x.2) := by
  unfold punchIfAsked
  split <;> rfl

theorem enrol_recorded (peer : Peer) : enrol s.recorded peer x =
    ((enrol s peer x.1).1, (enrol s peer x.1).2, x.2) := by
  unfold enrol
  simp only [Surroundings.meanwhile_recorded, Surroundings.directory_recorded,
    Surroundings.now_recorded, Surroundings.setDirectory_recorded]
  split
  · rfl
  · split <;> rfl

theorem giveBackOther_recorded (id : NodeId) :
    giveBackOther s.recorded c id x = (giveBackOther s c id x.1, x.2) := by
  unfold giveBackOther
  split_ifs <;> rfl

theorem accepted_recorded : w.accepted s.recorded c r x =
    ((w.accepted s c r x.1).1, (w.accepted s c r x.1).2, x.2) := by
  unfold accepted
  simp only [punchIfAsked_recorded, enrol_recorded, giveBackOther_recorded]
  cases (punchIfAsked s c r x.1).1 <;> rfl

theorem attempt_recorded : w.attempt s.recorded c x = ((w.attempt s c x.1).1,
    (w.attempt s c x.1).2, x.2 ++ [(c.address, .joinRequest (w.request (s.node x.1)))]) := by
  unfold attempt answered ask
  simp only [Surroundings.request_recorded, Surroundings.node_recorded]
  split
  · rfl
  · split_ifs
    · rw [accepted_recorded]
    · rfl
  · rfl

/-- The requests that surroundings see are those of the attempts, in order. -/
theorem run_recorded (limit : ℕ) : (run s.recorded limit w x).2.2 =
    x.2 ++ (attempts s limit w x.1).map Attempt.sent := by
  induction limit generalizing w x with
  | zero => simp [run, attempts]
  | succ limit ih =>
    rw [run, attempts, advance, advance, advanceFrom_recorded]
    rcases advanceFrom s w.queue w x.1 with ⟨_ | ⟨c, w'⟩, state'⟩
    · simp
    · simp only [ih, attempt_recorded, List.map_cons, List.append_assoc, List.singleton_append]
      rfl

end Recorded

/-! ## What the requests and the outcome have in common -/

end Walk

/-- An attempt that is due after others : there was room when the candidate was taken from the
queue, it was at another address than the node's own, and if it was offered under an identifier,
this was not the node's own, no connected peer's, and none of a node that the request tells of.
These are the nodes that took the walking node in, had no room, or could not be punched to. -/
structure Attempt.DueAfter (before : List Attempt) (a : Attempt) : Prop where
  room : a.directory.isFull = false
  address : a.address ≠ a.directory.localAddress
  offered : ∀ id, a.candidate.nodeId = some id → id ≠ a.directory.localId ∧
    a.directory.stateOf? id ≠ some .connected ∧ id ∉ before.filterMap Attempt.visited?
  visited : a.request.visited = before.filterMap Attempt.visited?

namespace WalkOutcome

theorem length_foldl_record (records : List (Except FailedAttempt NodeId)) (o : WalkOutcome) :
    (records.foldl record o).connected.length + (records.foldl record o).failures.length =
      o.connected.length + o.failures.length + records.length := by
  induction records generalizing o with
  | nil => rfl
  | cons x records ih =>
    rw [List.foldl_cons, ih, List.length_cons]
    cases x <;> simp only [record, connect, fail, List.length_append, List.length_singleton] <;>
      omega

end WalkOutcome

namespace Walk

/-- The walk after the attempts `log` : no address was asked at twice, every attempt was due, and
the outcome has one record of each. -/
structure Accounted (log : List Attempt) (w : Walk) : Prop where
  tried : w.tried = log.map Attempt.address
  nodup : w.tried.Nodup
  visited : w.visited = log.filterMap Attempt.visited?
  due : ∀ before a after, log = before ++ a :: after → a.DueAfter before
  records : ∃ records, List.Forall₂ Attempt.RecordedAs log records ∧
    w.outcome = records.foldl WalkOutcome.record {}

theorem accounted_ofSeeds (seeds : List String) : Accounted [] (ofSeeds seeds) :=
  ⟨rfl, List.nodup_nil, rfl, by simp, [], .nil, rfl⟩

/-- An attempt at the candidate that the walk went on to keeps the accounts. -/
theorem Accounted.attempt (hs : s.Quiet) {log : List Attempt} {w w' : Walk} {c : Candidate}
    {state state' : σ} (h : Accounted log w) (hadv : w.advance s state = (.asks c w', state')) :
    Accounted (log ++ [w'.inquiry s c state state']) (w'.attempt s c state').1 := by
  obtain ⟨skipped, rest, k, d, now, -, rfl, hroom, hworth, htried, -, -⟩ := advance_asks hs hadv
  obtain ⟨haddress, hoffered⟩ := isWorthAsking_iff.mp hworth
  obtain ⟨x, hx, houtcome⟩ := outcome_attempt s (w.asking c.address rest) c state' state
  obtain ⟨records, hrecords, hw⟩ := h.records
  refine ⟨?_, ?_, ?_, forall_split_concat h.due ?_, records ++ [x],
    List.rel_append hrecords (.cons hx .nil), ?_⟩
  · rw [tried_attempt, asking, h.tried, List.map_append]
    rfl
  · rw [tried_attempt, asking]
    exact h.nodup.append (List.nodup_singleton _) (by simpa using htried)
  · rw [visited_attempt, asking, h.visited, Attempt.filterMap_visited?_append]
    rfl
  · exact ⟨hroom, haddress, fun id hid => h.visited ▸
      ⟨(hoffered id hid).1, (hoffered id hid).2.2, (hoffered id hid).2.1⟩, h.visited⟩
  · rw [houtcome, List.foldl_append, ← hw]
    rfl

/-- In undisturbed surroundings whose answers offer peers at finitely many addresses, a walk is
over within any limit above the number of these and of the seeds, with the same outcome after
the same requests. At most one goes to each address, every one was due, and they are recorded
one by one : each either as a connection or as a failure. -/
theorem run_accounts (hs : s.Undisturbed) {addresses : Finset String}
    (ha : s.OffersWithin addresses) (seeds : List String) (state : σ) :
    ∃ outcome last log,
      (∀ limit, (addresses ∪ seeds.toFinset).card < limit →
        run s limit (ofSeeds seeds) state = (some outcome, last) ∧
        attempts s limit (ofSeeds seeds) state = log ∧
        (run s.recorded limit (ofSeeds seeds) (state, [])).2.2 = log.map Attempt.sent) ∧
      (log.map Attempt.address).Nodup ∧
      (∀ before a after, log = before ++ a :: after → a.DueAfter before) ∧
      (∀ a ∈ log, (s.directory state).SameNode a.directory) ∧
      (∃ records, List.Forall₂ Attempt.RecordedAs log records ∧
        outcome = records.foldl WalkOutcome.record {}) ∧
      outcome.connected.length + outcome.failures.length = log.length := by
  have hq : ∀ c ∈ (ofSeeds seeds).queue, c.address ∈ addresses ∪ seeds.toFinset := by
    intro c hc
    obtain ⟨a, hmem, rfl⟩ := List.mem_map.mp hc
    exact Finset.mem_union_right _ (List.mem_toFinset.mpr hmem)
  have ha' : s.OffersWithin (addresses ∪ seeds.toFinset) := fun address r state response h p hp =>
    Finset.mem_union_left _ (ha address r state response h p hp)
  obtain ⟨outcome, last, hrun⟩ : ∃ outcome last, run s ((addresses ∪ seeds.toFinset).card + 1)
      (ofSeeds seeds) state = (some outcome, last) :=
    exists_run_eq_some (P := fun w _ => ∀ c ∈ w.queue, c.address ∈ addresses ∪ seeds.toFinset)
      hs.toQuiet (fun _ _ _ _ _ h hadv => queue_within_attempt hs.toQuiet ha' h hadv)
      (fun _ _ h => h) hq (Nat.lt_succ_of_le (Finset.card_filter_le _ _))
  -- The accounts are kept along the walk, and so is the node's own identifier and address.
  let P (log : List Attempt) (w : Walk) (now : σ) : Prop := Accounted log w ∧
    (s.directory state).SameNode (s.directory now) ∧
    ∀ a ∈ log, (s.directory state).SameNode a.directory
  have step : ∀ log w now c w' now', P log w now → w.advance s now = (.asks c w', now') →
      P (log ++ [w'.inquiry s c now now']) (w'.attempt s c now').1 (w'.attempt s c now').2 := by
    rintro log w now c w' now' ⟨hacc, hsame, hlog⟩ hadv
    refine ⟨hacc.attempt hs.toQuiet hadv, ?_, fun a hmem => ?_⟩
    · have hbecomes := becomes_advanceFrom hs.orderlyWalk w.queue w now
      rw [← advance, hadv] at hbecomes
      exact hsame.trans (hbecomes.trans (becomes_attempt hs.orderlyWalk w' c now')).sameNode
    · rcases List.mem_append.mp hmem with hmem | hmem
      · exact hlog a hmem
      · rwa [List.mem_singleton.mp hmem]
  obtain ⟨w', now, ⟨hacc, -, hlog⟩, hend⟩ := run_induction (P := P) step
    ⟨accounted_ofSeeds seeds, .refl _, by simp⟩ hrun
  obtain ⟨rfl, -⟩ := advance_finished hs.toQuiet hend
  obtain ⟨records, hrecords, houtcome⟩ := hacc.records
  refine ⟨_, last, _, fun limit hlimit => ?_, hacc.tried ▸ hacc.nodup, hacc.due, hlog,
    ⟨records, hrecords, houtcome⟩, ?_⟩
  · obtain ⟨hlast, hattempts⟩ := run_of_le (Nat.succ_le_of_lt hlimit) hrun
    refine ⟨hlast, hattempts, ?_⟩
    rw [run_recorded, hattempts]
    rfl
  · rw [houtcome, WalkOutcome.length_foldl_record, hrecords.length_eq]
    simp

/-- Surroundings in which every address answers as the same full node, which offers itself and
another. -/
def allFull : Surroundings Node where
  node n := n
  setNode n _ := n
  now _ := ⟨0, 0⟩
  meanwhile n := n
  request _ _ n := (.ok (.joinResponse (.rejected ⟨"x"⟩ "x:1" .networkFull
    [⟨⟨"y"⟩, "y:1", false⟩, ⟨⟨"x"⟩, "x:1", false⟩])), n)
  notify _ _ n := (.ok (), n)
  forget _ n := n
  punch _ _ n := (.ok (), n)

/-- Nodes that send a joiner round in circles are asked at each address once. -/
theorem run_accounts_allFull :
    let n := (Mesh.lone ⟨"a"⟩).withDirectory ⟨⟨"a"⟩, "a:1", 4, ∅⟩
    let log := attempts allFull 3 (ofSeeds ["x:1"]) n
    allFull.Undisturbed ∧ allFull.OffersWithin {"x:1", "y:1"} ∧
      ∃ outcome last, run allFull 3 (ofSeeds ["x:1"]) n = (some outcome, last) ∧
        (log.map Attempt.address).Nodup ∧
        outcome.connected.length + outcome.failures.length = log.length := by
  intro n log
  have hs : allFull.Undisturbed := ⟨⟨⟨fun _ _ => rfl⟩, fun _ => rfl⟩, fun _ _ _ _ => rfl,
    fun _ _ _ => rfl⟩
  have ha : allFull.OffersWithin {"x:1", "y:1"} := by
    intro address r state response h p hp
    obtain rfl := Message.joinResponse.inj (Except.ok.inj h)
    simp only [JoinResponse.rejected, List.mem_cons, List.not_mem_nil, or_false] at hp
    rcases hp with rfl | rfl <;> simp
  obtain ⟨outcome, last, log', hrun, hnodup, -, -, -, hlength⟩ := run_accounts hs ha ["x:1"] n
  obtain ⟨hlast, rfl, -⟩ := hrun 3 (by decide)
  exact ⟨hs, ha, outcome, last, hlast, hnodup, hlength⟩

end Walk

end PeerGateway
