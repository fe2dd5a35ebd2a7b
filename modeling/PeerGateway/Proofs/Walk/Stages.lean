import PeerGateway.Proofs.Directory.Link
import PeerGateway.Proofs.Node.Operations
import PeerGateway.Proofs.Walk.Course

/-!
# The stages of a walk

`Walk.stages` are the attempts of a walk together with the states in which they were made, and
`Walk.run_stages` is the induction over them, from the end of the walk back to its start.

In undisturbed surroundings a stage ends in one of three ways (`Stage.Ending`) : the node that
answered becomes a connected peer, or it took this node in but could not be reached by punching
and keeps the place that was kept for it, or the place is given back. Each way says what becomes of
the state of every peer.
-/

namespace PeerGateway

variable {σ : Type} {s : Surroundings σ}

/-! ## Stages -/

/-- An attempt of a walk with the states that it was made in. -/
structure Stage (σ : Type) where
  /-- The walk as it asks. -/
  walk : Walk
  candidate : Candidate
  /-- Where the walk went on to the candidate. -/
  before : σ
  /-- Where the candidate is asked, a place being kept for it. -/
  asking : σ

namespace Stage

variable (s) (x : Stage σ)

/-- The attempt itself. -/
def attempt : Attempt := x.walk.inquiry s x.candidate x.before x.asking

/-- The answer of the candidate. -/
def reply : Except NetworkError Message := (x.walk.ask s x.candidate x.asking).1

/-- Where the answer arrives. -/
def answered : σ := (x.walk.ask s x.candidate x.asking).2

/-- The walk and the state after the attempt. -/
def next : Walk × σ := x.walk.attempt s x.candidate x.asking

/-- The walk `w` goes on to this stage. -/
def Follows (w : Walk) : Prop := w.advance s x.before = (.asks x.candidate x.walk, x.asking)

/-- The node that took the walking one in, if one did. -/
def acceptedBy? : Option NodeId :=
  match x.reply s with
  | .ok (.joinResponse r) => if r.success then some r.nodeId else none
  | _ => none

/-- The node that was asked took the walking one in under the identifier under which it was
offered. -/
def AcceptedAs (id : NodeId) : Prop := x.candidate.nodeId = some id ∧ x.acceptedBy? s = some id

instance (id : NodeId) : Decidable (x.AcceptedAs s id) := inferInstanceAs (Decidable (_ ∧ _))

/-- The node that was asked took the walking one in under the identifier under which it was offered,
but names a port to which no way can be punched. -/
def HeldFor (id : NodeId) : Prop :=
  ∃ r port e, x.reply s = .ok (.joinResponse r) ∧ r.success = true ∧ r.nodeId = id ∧
    x.candidate.nodeId = some id ∧ r.natPort = some port ∧
    (s.punch x.candidate.address port (x.answered s)).1 = .error e

variable {s x}

theorem acceptedBy?_eq_some_iff {id : NodeId} : x.acceptedBy? s = some id ↔
    ∃ r, x.reply s = .ok (.joinResponse r) ∧ r.success = true ∧ r.nodeId = id := by
  unfold acceptedBy?
  split
  · rename_i r hr
    rw [hr]
    constructor
    · intro h
      split_ifs at h with hsuccess
      exact ⟨r, rfl, hsuccess, Option.some.inj h⟩
    · rintro ⟨r', hr', hsuccess, rfl⟩
      rw [Message.joinResponse.inj (Except.ok.inj hr'), if_pos hsuccess]
  · rename_i hne
    simp only [reduceCtorEq, false_iff]
    rintro ⟨r, hr, -⟩
    exact hne r hr

theorem HeldFor.acceptedAs {id : NodeId} (h : x.HeldFor s id) : x.AcceptedAs s id := by
  obtain ⟨r, port, e, hr, hsuccess, hid, hc, -⟩ := h
  exact ⟨hc, acceptedBy?_eq_some_iff.mpr ⟨r, hr, hsuccess, hid⟩⟩

/-- Later requests tell of a node that took the walking one in. -/
theorem mem_visited_of_acceptedBy? {id : NodeId} (h : x.acceptedBy? s = some id) :
    id ∈ (x.next s).1.visited := by
  obtain ⟨r, hr, hsuccess, rfl⟩ := acceptedBy?_eq_some_iff.mp h
  have hfollowed := Walk.followed?_of_success hr hsuccess
  rw [reply] at hfollowed
  rw [next, Walk.visited_attempt, hfollowed]
  simp

theorem next_of_accepted {r : JoinResponse} (hr : x.reply s = .ok (.joinResponse r))
    (hsuccess : r.success = true) :
    x.next s = x.walk.accepted s x.candidate r (x.answered s) := by
  rw [reply] at hr
  simp only [next, answered, Walk.attempt, Walk.answered, hr, hsuccess, if_true]

end Stage

namespace Walk

/-- The stages of a walk, up to `limit` of them. -/
def stages (s : Surroundings σ) : ℕ → Walk → σ → List (Stage σ)
  | 0, _, _ => []
  | limit + 1, w, state =>
    match w.advance s state with
    | (.finished _, _) => []
    | (.asks c w, state') =>
      let x : Stage σ := ⟨w, c, state, state'⟩
      x :: stages s limit (x.next s).1 (x.next s).2

/-- The stages are those of the attempts. -/
theorem map_attempt_stages (limit : ℕ) (w : Walk) (state : σ) :
    (stages s limit w state).map (Stage.attempt s) = attempts s limit w state := by
  induction limit generalizing w state with
  | zero => rfl
  | succ limit ih =>
    rw [stages, attempts]
    rcases hadv : w.advance s state with ⟨o | ⟨c, w'⟩, state'⟩
    · rfl
    · simp only [List.map_cons, ih]
      rfl

/-- What holds of a walk that is over, and of one that goes on to a stage if it holds after the
stage, holds of every walk that ends. -/
theorem run_stages {Q : Walk → σ → List (Stage σ) → WalkOutcome → σ → Prop}
    (finished : ∀ w state outcome last, w.advance s state = (.finished outcome, last) →
      Q w state [] outcome last)
    (stage : ∀ limit w x outcome last, x.Follows s w →
      run s limit (x.next s).1 (x.next s).2 = (some outcome, last) →
      Q (x.next s).1 (x.next s).2 (stages s limit (x.next s).1 (x.next s).2) outcome last →
      Q w x.before (x :: stages s limit (x.next s).1 (x.next s).2) outcome last)
    {limit : ℕ} {w : Walk} {state : σ} {outcome : WalkOutcome} {last : σ}
    (h : run s limit w state = (some outcome, last)) :
    Q w state (stages s limit w state) outcome last := by
  induction limit generalizing w state with
  | zero => simp [run] at h
  | succ limit ih =>
    rw [run] at h
    rw [stages]
    rcases hadv : w.advance s state with ⟨o | ⟨c, w'⟩, state'⟩
    · rw [hadv] at h
      obtain ⟨rfl, rfl⟩ : o = outcome ∧ state' = last := by simpa using h
      exact finished w state _ _ hadv
    · rw [hadv] at h
      exact stage limit w ⟨w', c, state, state'⟩ _ _ hadv h (ih h)

/-! ## The place that is kept for a candidate -/

section Places

variable {d d' : Directory} {c : Candidate}

/-- The state of a peer once the place that is kept for a candidate has been given back : a
joining peer under whose identifier the candidate was offered is gone. -/
def stateWithout? (d : Directory) (c : Candidate) (id : NodeId) : Option PeerState :=
  if c.nodeId = some id ∧ d.stateOf? id = some .joining then none else d.stateOf? id

theorem stateWithout?_of_ne {id : NodeId} (h : c.nodeId ≠ some id) :
    stateWithout? d c id = d.stateOf? id :=
  if_neg fun h' => h h'.1

/-- A candidate that was offered under an unknown identifier is joining while it is asked. -/
theorem stateOf?_reserveOffered {now : Instant} (h : reserveOffered d c now = .ok d')
    (id : NodeId) : d'.stateOf? id =
      if c.nodeId = some id ∧ d.stateOf? id = none then some .joining else d.stateOf? id := by
  unfold reserveOffered at h
  split at h
  · rename_i offered hc
    obtain ⟨-, ⟨hknown, rfl⟩ | ⟨hnone, -, rfl⟩⟩ := Directory.place_eq_ok_iff.mp h
    · rw [if_neg]
      rintro ⟨hid, hnone⟩
      obtain rfl : offered = id := Option.some.inj (hc.symm.trans hid)
      exact hknown (Directory.stateOf?_eq_none_iff.mp hnone)
    · rw [Directory.stateOf?_put, hc]
      by_cases hid : offered = id
      · subst hid
        simp [Directory.stateOf?_eq_none_iff.mpr hnone, Entry.fresh]
      · simp [hid]
  · rename_i hc
    obtain rfl := Except.ok.inj h
    simp [hc]

/-- A place that was kept leaves no trace once it is given back. -/
theorem stateWithout?_reserveOffered {now : Instant} (h : reserveOffered d c now = .ok d')
    (id : NodeId) : stateWithout? d' c id = stateWithout? d c id := by
  simp only [stateWithout?, stateOf?_reserveOffered h id]
  by_cases hc : c.nodeId = some id <;> cases d.stateOf? id <;> simp [hc]

theorem stateOf?_releaseOffered (d : Directory) (c : Candidate) (id : NodeId) :
    (releaseOffered d c).stateOf? id = stateWithout? d c id := by
  unfold releaseOffered stateWithout?
  split
  · rename_i offered hc
    simp [Directory.stateOf?_release, hc]
  · rename_i hc
    simp [hc]

end Places

/-! ## Answers that take the node in -/

/-- The way to the node that answered cannot be punched, or it cannot be enrolled, or it becomes a
connection. -/
theorem accepted_cases (w : Walk) (c : Candidate) (r : JoinResponse) (state : σ) :
    let arrived := (punchIfAsked s c r state).2
    let enrolled := enrol s { nodeId := r.nodeId, address := c.address } arrived
    (∃ port e, r.natPort = some port ∧ (s.punch c.address port state).1 = .error e ∧
      w.accepted s c r state = (((w.visit r.nodeId).failed c.address (.protocol e)).enqueue r,
        giveBackOther s c r.nodeId arrived)) ∨
    (∃ e, enrolled.1 = .error e ∧
      w.accepted s c r state = (((w.visit r.nodeId).failed c.address (.protocol e)).enqueue r,
        giveBackOther s c r.nodeId enrolled.2)) ∨
    (enrolled.1 = .ok () ∧
      w.accepted s c r state = (((w.visit r.nodeId).connected r.nodeId).enqueue r,
        giveBackOther s c r.nodeId enrolled.2)) := by
  intro arrived enrolled
  cases hpunched : (punchIfAsked s c r state).1 with
  | error e =>
    obtain ⟨port, hport, hpunch⟩ : ∃ port, r.natPort = some port ∧
        (s.punch c.address port state).1 = .error e := by
      unfold punchIfAsked at hpunched
      split at hpunched
      · rename_i port hport
        exact ⟨port, hport, hpunched⟩
      · simp at hpunched
    exact Or.inl ⟨port, e, hport, hpunch, by simp [accepted, hpunched, arrived]⟩
  | ok =>
    right
    cases henrolled : enrolled.1 with
    | error e =>
      refine Or.inl ⟨e, rfl, ?_⟩
      simp only [enrolled, arrived] at henrolled
      simp [accepted, hpunched, henrolled, enrolled, arrived]
    | ok =>
      refine Or.inr ⟨rfl, ?_⟩
      simp only [enrolled, arrived] at henrolled
      simp [accepted, hpunched, henrolled, enrolled, arrived]

/-! ## Undisturbed surroundings -/

section Undisturbed

theorem directory_ask (hs : s.Undisturbed) (w : Walk) (c : Candidate) (state : σ) :
    s.directory (w.ask s c state).2 = s.directory state :=
  hs.request c.address (w.request (s.node state)) state rfl

theorem directory_punchIfAsked (hs : s.Undisturbed) (c : Candidate) (r : JoinResponse)
    (state : σ) : s.directory (punchIfAsked s c r state).2 = s.directory state := by
  unfold punchIfAsked
  split
  · exact hs.punch _ _ _
  · rfl

/-- In quiet surroundings a peer is enrolled unless it is the node itself, or unknown and there is
no room. -/
theorem enrol_cases (hs : s.Quiet) (peer : Peer) (state : σ) :
    (peer.nodeId = (s.directory state).localId ∧
      enrol s peer state = (.error .networkJoinLoop, state)) ∨
    (peer.nodeId ≠ (s.directory state).localId ∧ (s.directory state).find? peer.nodeId = none ∧
      (s.directory state).isFull = true ∧ enrol s peer state = (.error .networkFull, state)) ∨
    (peer.nodeId ≠ (s.directory state).localId ∧
      ((s.directory state).find? peer.nodeId ≠ none ∨ (s.directory state).isFull = false) ∧
      (enrol s peer state).1 = .ok () ∧
      ∀ id, (s.directory (enrol s peer state).2).stateOf? id =
        if peer.nodeId = id then some .connected else (s.directory state).stateOf? id) := by
  by_cases hself : peer.nodeId = (s.directory state).localId
  · exact Or.inl ⟨hself, by simp [enrol, Directory.place, hself]⟩
  by_cases hplace : (s.directory state).find? peer.nodeId ≠ none ∨
      (s.directory state).isFull = false
  · obtain ⟨placed, e, hplaced, he, hothers⟩ := Directory.exists_placed peer hself
      (hplace.imp_right Directory.isFull_eq_false_iff.mp) .connected (s.now state).steady
    let idle := s.meanwhile (s.setDirectory placed state)
    have hidle : s.directory idle = placed := by
      rw [hs.meanwhile, hs.directory_setDirectory]
    have hconfirm : (s.directory idle).confirm peer.nodeId (s.now idle).steady =
        .ok (placed.put peer.nodeId (e.seen (s.now idle).steady)) := by
      rw [hidle]
      exact Directory.confirm_eq_ok_iff.mpr ⟨e, he, rfl⟩
    rw [enrol_eq_ok hplaced hconfirm]
    refine Or.inr (Or.inr ⟨hself, hplace, rfl, fun id => ?_⟩)
    rw [hs.directory_setDirectory, Directory.stateOf?_put, Directory.state_seen]
    split_ifs with hid
    · rfl
    · rw [Directory.stateOf?, hothers id hid, Directory.stateOf?]
  · obtain ⟨hnone, hfull⟩ := not_or.mp hplace
    rw [not_ne_iff] at hnone
    rw [Bool.not_eq_false] at hfull
    refine Or.inr (Or.inl ⟨hself, hnone, hfull, ?_⟩)
    simp [enrol, Directory.place, hself, Directory.contains_eq_isSome, hnone, hfull]

theorem directory_enrol_of_error (hs : s.Quiet) {peer : Peer} {state : σ} {e : ProtocolError}
    (h : (enrol s peer state).1 = .error e) :
    s.directory (enrol s peer state).2 = s.directory state := by
  rcases enrol_cases hs peer state with ⟨-, heq⟩ | ⟨-, -, -, heq⟩ | ⟨-, -, hok, -⟩
  · rw [heq]
  · rw [heq]
  · rw [hok] at h
    simp at h

theorem stateOf?_enrol (hs : s.Quiet) {peer : Peer} {state : σ}
    (h : (enrol s peer state).1 = .ok ()) (id : NodeId) :
    (s.directory (enrol s peer state).2).stateOf? id =
      if peer.nodeId = id then some .connected else (s.directory state).stateOf? id := by
  rcases enrol_cases hs peer state with ⟨-, heq⟩ | ⟨-, -, -, heq⟩ | ⟨-, -, -, hstates⟩
  · simp [heq] at h
  · simp [heq] at h
  · exact hstates id

theorem directory_giveBack (hs : s.Lawful) (c : Candidate) (state : σ) :
    s.directory (giveBack s c state) = releaseOffered (s.directory state) c :=
  hs.directory_setDirectory _ _

theorem directory_giveBackOther (hs : s.Quiet) (c : Candidate) (id : NodeId) (state : σ) :
    s.directory (giveBackOther s c id state) =
      if c.nodeId = some id then s.directory state else releaseOffered (s.directory state) c := by
  unfold giveBackOther
  split_ifs
  · rfl
  · rw [directory_giveBack hs.toLawful, hs.meanwhile]

end Undisturbed

end Walk

/-! ## How a stage ends -/

namespace Stage

open Walk

variable {w : Walk} {x : Stage σ}

/-- A stage that a walk goes on to in quiet surroundings : there is room, the candidate is worth
asking, and a place is kept for it. -/
theorem Follows.kept (hs : s.Quiet) (hx : x.Follows s w) :
    (s.directory x.before).isFull = false ∧
      w.isWorthAsking (s.directory x.before) x.candidate = true ∧
      (∃ now, reserveOffered (s.directory x.before) x.candidate now =
        .ok (s.directory x.asking)) ∧
      x.walk.visited = w.visited ∧ x.walk.outcome = w.outcome := by
  obtain ⟨skipped, rest, k, d, now, -, hwalk, hroom, hworth, -, hreserve, hasking⟩ :=
    advance_asks hs hx
  refine ⟨hroom, hworth, ⟨now, ?_⟩, by rw [hwalk]; rfl, by rw [hwalk]; rfl⟩
  rw [hasking, hs.directory_setDirectory, hreserve]

variable (s x)

/-- The ways in which a stage ends in undisturbed surroundings, with what the outcome of the walk
and the state of each peer become. -/
inductive Ending : Prop
  /-- The node that answered is a connected peer. -/
  | connected (r : JoinResponse) (accepted : x.acceptedBy? s = some r.nodeId)
    (outcome : (x.next s).1.outcome = x.walk.outcome.connect r.nodeId)
    (states : ∀ id, (s.directory (x.next s).2).stateOf? id =
      if r.nodeId = id then some .connected
      else stateWithout? (s.directory x.before) x.candidate id)
  /-- The node that answered could not be reached by punching, and keeps the place that was kept
  for it. -/
  | held (id : NodeId) (e : ProtocolError) (heldFor : x.HeldFor s id)
    (outcome : (x.next s).1.outcome = x.walk.outcome.fail x.candidate.address (.protocol e))
    (states : ∀ k, (s.directory (x.next s).2).stateOf? k =
      if id = k then some (((s.directory x.before).stateOf? k).getD .joining)
      else (s.directory x.before).stateOf? k)
  /-- The attempt failed, and the place is given back. -/
  | failed (e : NetworkError) (rejected : ∀ id, ¬ x.AcceptedAs s id)
    (outcome : (x.next s).1.outcome = x.walk.outcome.fail x.candidate.address e)
    (states : ∀ id, (s.directory (x.next s).2).stateOf? id =
      stateWithout? (s.directory x.before) x.candidate id)

variable {s x}

/-- Where the directory is as it was when the candidate was asked, giving back its place leaves all
others as they were before. -/
theorem Follows.stateOf?_giveBack (hs : s.Quiet) (hx : x.Follows s w) {state : σ}
    (hstate : s.directory state = s.directory x.asking) (id : NodeId) :
    (s.directory (giveBack s x.candidate state)).stateOf? id =
      stateWithout? (s.directory x.before) x.candidate id := by
  obtain ⟨-, -, ⟨now, hreserve⟩, -, -⟩ := hx.kept hs
  rw [directory_giveBack hs.toLawful, hstate, stateOf?_releaseOffered,
    stateWithout?_reserveOffered hreserve]

/-- The node for which the place is kept can be enrolled. -/
theorem Follows.enrol_offered (hs : s.Quiet) (hx : x.Follows s w) {state : σ}
    (hstate : s.directory state = s.directory x.asking) {id : NodeId}
    (hid : x.candidate.nodeId = some id) {address : String} :
    (enrol s { nodeId := id, address := address } state).1 = .ok () := by
  obtain ⟨-, hworth, ⟨now, hreserve⟩, -, -⟩ := hx.kept hs
  rcases enrol_cases hs { nodeId := id, address := address } state with
    ⟨hself, -⟩ | ⟨-, hnone, -⟩ | ⟨-, -, hok, -⟩
  · rw [hstate, (becomes_reserveOffered hreserve).sameNode.localId] at hself
    exact absurd hself ((isWorthAsking_iff.mp hworth).2 _ hid).1
  · rw [hstate, ← Directory.stateOf?_eq_none_iff, stateOf?_reserveOffered hreserve, hid] at hnone
    cases hbefore : (s.directory x.before).stateOf? id <;> simp [hbefore] at hnone
  · exact hok

/-- The place stays where the node under whose identifier it was kept has answered. -/
theorem Follows.stateOf?_held (hs : s.Quiet) (hx : x.Follows s w) {state : σ}
    (hstate : s.directory state = s.directory x.asking) {id : NodeId}
    (hid : x.candidate.nodeId = some id) (k : NodeId) :
    (s.directory (giveBackOther s x.candidate id state)).stateOf? k =
      if id = k then some (((s.directory x.before).stateOf? k).getD .joining)
      else (s.directory x.before).stateOf? k := by
  obtain ⟨-, -, ⟨now, hreserve⟩, -, -⟩ := hx.kept hs
  rw [directory_giveBackOther hs, if_pos hid, hstate, stateOf?_reserveOffered hreserve, hid]
  by_cases hk : id = k
  · subst hk
    cases (s.directory x.before).stateOf? id <;> simp
  · simp [hk]

/-- The node that answered has been enrolled, and a place that was kept under another identifier is
given back. -/
theorem Follows.stateOf?_enrolled (hs : s.Quiet) (hx : x.Follows s w) {state : σ} {id : NodeId}
    (hstates : ∀ k, (s.directory state).stateOf? k =
      if id = k then some .connected else (s.directory x.asking).stateOf? k) (k : NodeId) :
    (s.directory (giveBackOther s x.candidate id state)).stateOf? k =
      if id = k then some .connected else stateWithout? (s.directory x.before) x.candidate k := by
  obtain ⟨-, -, ⟨now, hreserve⟩, -, -⟩ := hx.kept hs
  rw [directory_giveBackOther hs]
  by_cases hk : id = k
  · subst hk
    rw [if_pos rfl]
    split_ifs with hc
    · rw [hstates, if_pos rfl]
    · rw [stateOf?_releaseOffered, stateWithout?_of_ne hc, hstates, if_pos rfl]
  · have hothers : stateWithout? (s.directory state) x.candidate k =
        stateWithout? (s.directory x.before) x.candidate k := by
      rw [stateWithout?, hstates, if_neg hk, ← stateWithout?,
        stateWithout?_reserveOffered hreserve]
    rw [if_neg hk, ← hothers]
    split_ifs with hc
    · rw [stateWithout?_of_ne (by simpa [hc] using hk)]
    · rw [stateOf?_releaseOffered]

theorem Follows.ending_of_accepted (hs : s.Undisturbed) (hx : x.Follows s w) {r : JoinResponse}
    (hr : x.reply s = .ok (.joinResponse r)) (hsuccess : r.success = true) : x.Ending s := by
  have haccepted : x.acceptedBy? s = some r.nodeId :=
    acceptedBy?_eq_some_iff.mpr ⟨r, hr, hsuccess, rfl⟩
  have hnext := next_of_accepted hr hsuccess
  have harrived : s.directory (punchIfAsked s x.candidate r (x.answered s)).2 =
      s.directory x.asking :=
    (directory_punchIfAsked hs _ _ _).trans (directory_ask hs _ _ _)
  -- A place that was kept under another identifier is given back in any case.
  have hother : ∀ state, s.directory state = s.directory x.asking →
      x.candidate.nodeId ≠ some r.nodeId → ∀ e,
      x.next s = (((x.walk.visit r.nodeId).failed x.candidate.address e).enqueue r,
        giveBackOther s x.candidate r.nodeId state) → x.Ending s := by
    intro state hstate hne e heq
    refine .failed e (fun id hid => hne (hid.1.trans (hid.2.symm.trans haccepted))) ?_ ?_
    · rw [heq]
      rfl
    · rw [heq, directory_giveBackOther hs.toQuiet, if_neg hne, ← directory_giveBack hs.toLawful]
      exact hx.stateOf?_giveBack hs.toQuiet hstate
  rcases accepted_cases x.walk x.candidate r (x.answered s) with
    ⟨port, e, hport, hpunch, heq⟩ | ⟨e, herror, heq⟩ | ⟨hok, heq⟩ <;> rw [← hnext] at heq
  · by_cases hc : x.candidate.nodeId = some r.nodeId
    · refine .held r.nodeId e ⟨r, port, e, hr, hsuccess, rfl, hc, hport, hpunch⟩ ?_ ?_
      · rw [heq]
        rfl
      · rw [heq]
        exact hx.stateOf?_held hs.toQuiet harrived hc
    · exact hother _ harrived hc _ heq
  · have hne : x.candidate.nodeId ≠ some r.nodeId := by
      intro hc
      rw [hx.enrol_offered hs.toQuiet harrived hc] at herror
      simp at herror
    exact hother _ ((directory_enrol_of_error hs.toQuiet herror).trans harrived) hne _ heq
  · refine .connected r haccepted ?_ ?_
    · rw [heq]
      rfl
    · rw [heq]
      refine hx.stateOf?_enrolled hs.toQuiet fun k => ?_
      rw [stateOf?_enrol hs.toQuiet hok, harrived]

theorem Follows.ending (hs : s.Undisturbed) (hx : x.Follows s w) : x.Ending s := by
  have hanswered : s.directory (x.answered s) = s.directory x.asking :=
    directory_ask hs _ _ _
  have hback := hx.stateOf?_giveBack hs.toQuiet hanswered
  rcases attempt_cases s x.walk x.candidate x.asking with
    ⟨r, hr, hsuccess, heq⟩ | ⟨r, hr, hsuccess, heq⟩ | ⟨e, hne, heq⟩
  · exact hx.ending_of_accepted hs hr hsuccess
  · have hrejected : ∀ id, ¬ x.AcceptedAs s id := by
      rintro id ⟨-, hid⟩
      obtain ⟨r', hr', hsuccess', -⟩ := acceptedBy?_eq_some_iff.mp hid
      rw [reply, hr] at hr'
      rw [← Message.joinResponse.inj (Except.ok.inj hr'), hsuccess] at hsuccess'
      simp at hsuccess'
    rcases refused_walk x.walk x.candidate hsuccess with ⟨-, e, hw⟩ | ⟨-, e, hw⟩ <;>
    · refine .failed e hrejected ?_ ?_
      · rw [next, heq, hw]
        rfl
      · rw [next, heq]
        exact hback
  · have hrejected : ∀ id, ¬ x.AcceptedAs s id := by
      rintro id ⟨-, hid⟩
      obtain ⟨r, hr, -, -⟩ := acceptedBy?_eq_some_iff.mp hid
      exact hne r hr
    refine .failed e hrejected ?_ ?_
    · rw [next, heq]
      rfl
    · rw [next, heq]
      exact hback

end Stage

end PeerGateway
