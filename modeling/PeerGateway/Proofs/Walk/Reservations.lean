import PeerGateway.Proofs.Walk.Stages

/-!
# What a walk leaves of the places it kept

In undisturbed surroundings `Walk.stateOf?_run` gives the state of every peer after a walk : the
nodes it connected to are connected, one that took this node in under the identifier it was offered
under but could not be reached by punching is as it was, or joining if it was unknown, a peer that
was joining before is gone if it was offered and never took this node in, and all others are as
they were.

So a walk gives back places that it did not keep (`Walk.run_keeps_peers`), and does not give back
all that it kept (`Walk.joining_run_iff`).
-/

namespace PeerGateway

variable {σ : Type} {s : Surroundings σ}

/-! ## One stage -/

namespace WalkOutcome

variable (o : WalkOutcome) (x : Except FailedAttempt NodeId)

theorem connected_subset_record : o.connected ⊆ (o.record x).connected := by
  cases x
  · exact List.Subset.refl _
  · exact List.subset_append_left _ _

theorem failures_subset_record : o.failures ⊆ (o.record x).failures := by
  cases x
  · exact List.subset_append_left _ _
  · exact List.Subset.refl _

end WalkOutcome

namespace Stage

open Walk

variable {w : Walk} {x : Stage σ}

namespace Follows

theorem connected_subset (hs : s.Quiet) (hx : x.Follows s w) :
    w.outcome.connected ⊆ (x.next s).1.outcome.connected := by
  obtain ⟨-, -, -, -, houtcome⟩ := hx.kept hs
  obtain ⟨record, -, hnext⟩ := outcome_attempt s x.walk x.candidate x.asking x.before
  rw [next, hnext, houtcome]
  exact w.outcome.connected_subset_record record

theorem failures_subset (hs : s.Quiet) (hx : x.Follows s w) :
    w.outcome.failures ⊆ (x.next s).1.outcome.failures := by
  obtain ⟨-, -, -, -, houtcome⟩ := hx.kept hs
  obtain ⟨record, -, hnext⟩ := outcome_attempt s x.walk x.candidate x.asking x.before
  rw [next, hnext, houtcome]
  exact w.outcome.failures_subset_record record

theorem keepsConnected (hs : s.Undisturbed) (hx : x.Follows s w) :
    (s.directory x.before).KeepsConnected (s.directory (x.next s).2) := by
  intro id hid
  have hkept : stateWithout? (s.directory x.before) x.candidate id = some .connected := by
    simp [stateWithout?, hid]
  cases hx.ending hs with
  | connected r _ _ hstates =>
    rw [hstates, hkept, ite_self]
  | held _ _ _ _ hstates =>
    rw [hstates, hid, Option.getD_some, ite_self]
  | failed _ _ _ hstates =>
    rw [hstates, hkept]

/-- The connections after a stage are those before and at most one more, whose node is a connected
peer. -/
theorem connected_next (hs : s.Undisturbed) (hx : x.Follows s w) :
    (x.next s).1.outcome.connected = w.outcome.connected ∨
    ∃ id, (x.next s).1.outcome.connected = w.outcome.connected ++ [id] ∧
      (s.directory (x.next s).2).stateOf? id = some .connected := by
  obtain ⟨-, -, -, -, houtcome⟩ := hx.kept hs.toQuiet
  cases hx.ending hs with
  | connected r _ hnext hstates =>
    refine Or.inr ⟨r.nodeId, ?_, ?_⟩
    · rw [hnext, houtcome]
      rfl
    · rw [hstates, if_pos rfl]
  | held _ _ _ hnext _ =>
    rw [hnext, houtcome]
    exact Or.inl rfl
  | failed _ _ hnext _ =>
    rw [hnext, houtcome]
    exact Or.inl rfl

/-- The connections of a walk are connected peers. -/
theorem connected_peers (hs : s.Undisturbed) (hx : x.Follows s w)
    (h : ∀ id ∈ w.outcome.connected, (s.directory x.before).stateOf? id = some .connected) :
    ∀ id ∈ (x.next s).1.outcome.connected,
      (s.directory (x.next s).2).stateOf? id = some .connected := by
  intro id hid
  have hkeeps := hx.keepsConnected hs
  rcases hx.connected_next hs with heq | ⟨new, heq, hnew⟩ <;> rw [heq] at hid
  · exact hkeeps id (h id hid)
  · rcases List.mem_append.mp hid with hid | hid
    · exact hkeeps id (h id hid)
    · rwa [List.mem_singleton.mp hid]

/-- What a stage that does not connect to a peer does to the peer's state. -/
theorem stateOf?_next (hs : s.Undisturbed) (hx : x.Follows s w) {id : NodeId}
    (hid : id ∉ (x.next s).1.outcome.connected) :
    (s.directory (x.next s).2).stateOf? id =
      if x.AcceptedAs s id then some (((s.directory x.before).stateOf? id).getD .joining)
      else stateWithout? (s.directory x.before) x.candidate id := by
  cases hx.ending hs with
  | connected r haccepted hnext hstates =>
    have hne : r.nodeId ≠ id := by
      rintro rfl
      simp [hnext, WalkOutcome.connect] at hid
    have hnot : ¬ x.AcceptedAs s id := fun h =>
      hne (Option.some.inj (haccepted.symm.trans h.2))
    rw [hstates, if_neg hne, if_neg hnot]
  | held offered e hheld _ hstates =>
    obtain ⟨hc, haccepted⟩ := hheld.acceptedAs
    rw [hstates]
    by_cases h : offered = id
    · subst h
      rw [if_pos rfl, if_pos ⟨hc, haccepted⟩]
    · have hne : x.candidate.nodeId ≠ some id := fun h' => h (Option.some.inj (hc.symm.trans h'))
      rw [if_neg h, if_neg fun h' => hne h'.1, stateWithout?_of_ne hne]
  | failed _ hrejected _ hstates =>
    rw [hstates, if_neg (hrejected id)]

/-- A node that took the walking one in under the identifier it was offered under is connected to,
unless no way to it can be punched. -/
theorem heldFor_of_acceptedAs (hs : s.Undisturbed) (hx : x.Follows s w) {id : NodeId}
    (h : x.AcceptedAs s id) (hid : id ∉ (x.next s).1.outcome.connected) : x.HeldFor s id := by
  cases hx.ending hs with
  | connected r haccepted hnext _ =>
    obtain rfl : r.nodeId = id := Option.some.inj (haccepted.symm.trans h.2)
    simp [hnext, WalkOutcome.connect] at hid
  | held offered e hheld _ _ =>
    obtain rfl : offered = id := Option.some.inj (hheld.acceptedAs.2.symm.trans h.2)
    exact hheld
  | failed _ hrejected _ _ => exact absurd h (hrejected id)

end Follows

/-- A place that is left is reported as a failure. -/
theorem HeldFor.outcome_next {id : NodeId} (h : x.HeldFor s id) : ∃ e,
    (x.next s).1.outcome = x.walk.outcome.fail x.candidate.address (.protocol e) := by
  obtain ⟨r, port, e, hr, hsuccess, -, -, hport, hpunch⟩ := h
  refine ⟨e, ?_⟩
  rw [next_of_accepted hr hsuccess, accepted, punchIfAsked, hport]
  simp only [hpunch]
  rfl

end Stage

/-! ## A whole walk -/

namespace Walk

variable {limit : ℕ} {w : Walk} {seeds : List String} {state last : σ} {outcome : WalkOutcome}

theorem directory_meanwhile_iterate (hs : s.Quiet) (k : ℕ) (state : σ) :
    s.directory (s.meanwhile^[k] state) = s.directory state := by
  induction k generalizing state with
  | zero => rfl
  | succ k ih => rw [Function.iterate_succ_apply, ih, hs.meanwhile]

/-- A node that later requests tell of is not asked under its identifier any more. -/
theorem not_offered_of_visited (hs : s.Quiet) (h : run s limit w state = (some outcome, last))
    {id : NodeId} (hid : id ∈ w.visited) :
    ∀ x ∈ stages s limit w state, x.candidate.nodeId ≠ some id := by
  refine run_stages
    (Q := fun w _ xs _ _ => id ∈ w.visited → ∀ x ∈ xs, x.candidate.nodeId ≠ some id)
    ?_ ?_ h hid
  · simp
  · intro limit w x outcome last hx _ ih hid y hy
    obtain ⟨-, hworth, -, hvisited, -⟩ := hx.kept hs
    rcases List.mem_cons.mp hy with rfl | hy
    · exact fun hc => ((isWorthAsking_iff.mp hworth).2 id hc).2.1 hid
    · refine ih ?_ y hy
      rw [Stage.next, visited_attempt, hvisited]
      exact List.mem_append_left _ hid

/-- What a walk has recorded, and the connected peers that its node has, are there when it is
over. -/
structure Lasts (s : Surroundings σ) (w : Walk) (state : σ) (outcome : WalkOutcome) (last : σ) :
    Prop where
  connected : w.outcome.connected ⊆ outcome.connected
  failures : w.outcome.failures ⊆ outcome.failures
  keeps : (s.directory state).KeepsConnected (s.directory last)

theorem Lasts.of_next (hs : s.Undisturbed) {x : Stage σ} (hx : x.Follows s w)
    (h : Lasts s (x.next s).1 (x.next s).2 outcome last) : Lasts s w x.before outcome last where
  connected := List.Subset.trans (hx.connected_subset hs.toQuiet) h.connected
  failures := List.Subset.trans (hx.failures_subset hs.toQuiet) h.failures
  keeps := (hx.keepsConnected hs).trans h.keeps

/-- A walk goes on to each of its stages, and what it has after the stage lasts. -/
theorem lasts_run (hs : s.Undisturbed) (h : run s limit w state = (some outcome, last)) :
    Lasts s w state outcome last ∧ ∀ x ∈ stages s limit w state,
      (∃ w', x.Follows s w') ∧ Lasts s (x.next s).1 (x.next s).2 outcome last := by
  refine run_stages (Q := fun w state xs outcome last => Lasts s w state outcome last ∧
    ∀ x ∈ xs, (∃ w', x.Follows s w') ∧ Lasts s (x.next s).1 (x.next s).2 outcome last) ?_ ?_ h
  · intro w state outcome last hadv
    obtain ⟨rfl, k, rfl⟩ := advance_finished hs.toQuiet hadv
    refine ⟨⟨List.Subset.refl _, List.Subset.refl _, fun id hid => ?_⟩, by simp⟩
    rwa [directory_meanwhile_iterate hs.toQuiet]
  · rintro limit w x outcome last hx - ⟨hnext, hrest⟩
    refine ⟨hnext.of_next hs hx, fun y hy => ?_⟩
    rcases List.mem_cons.mp hy with rfl | hy
    · exact ⟨⟨w, hx⟩, hnext⟩
    · exact hrest y hy

/-- The state of a peer after stages that did not connect to it, from its state before them. -/
def leftBy (s : Surroundings σ) (xs : List (Stage σ)) (id : NodeId) (before : Option PeerState) :
    Option PeerState :=
  if ∃ x ∈ xs, x.AcceptedAs s id then some (before.getD .joining)
  else if before = some .joining ∧ ∃ x ∈ xs, x.candidate.nodeId = some id then none
  else before

section LeftBy

variable {x : Stage σ} {xs : List (Stage σ)} {id : NodeId} {before : Option PeerState}

theorem leftBy_of_not_offered (h : ∀ x ∈ xs, x.candidate.nodeId ≠ some id) :
    leftBy s xs id before = before := by
  rw [leftBy, if_neg fun ⟨x, hx, hid⟩ => h x hx hid.1, if_neg fun ⟨_, x, hx, hid⟩ => h x hx hid]

theorem leftBy_cons_of_accepted (h : x.AcceptedAs s id) :
    leftBy s (x :: xs) id before = some (before.getD .joining) :=
  if_pos ⟨x, List.mem_cons_self, h⟩

theorem leftBy_cons_of_not_accepted {d : Directory} (h : ¬ x.AcceptedAs s id) :
    leftBy s (x :: xs) id (d.stateOf? id) = leftBy s xs id (stateWithout? d x.candidate id) := by
  have hcons : (∃ y ∈ x :: xs, y.AcceptedAs s id) ↔ ∃ y ∈ xs, y.AcceptedAs s id := by
    simp [h]
  unfold leftBy stateWithout?
  simp only [hcons]
  by_cases hc : x.candidate.nodeId = some id
  · by_cases hjoining : d.stateOf? id = some .joining <;> simp [hc, hjoining]
  · simp [hc]

end LeftBy

theorem stateOf?_run_of_connected (hs : s.Undisturbed)
    (h : run s limit w state = (some outcome, last))
    (hw : ∀ id ∈ w.outcome.connected, (s.directory state).stateOf? id = some .connected)
    (id : NodeId) : (s.directory last).stateOf? id =
      if id ∈ outcome.connected then some .connected
      else leftBy s (stages s limit w state) id ((s.directory state).stateOf? id) := by
  refine run_stages (Q := fun w state xs outcome last =>
    (∀ id ∈ w.outcome.connected, (s.directory state).stateOf? id = some .connected) →
      (s.directory last).stateOf? id = if id ∈ outcome.connected then some .connected
        else leftBy s xs id ((s.directory state).stateOf? id)) ?_ ?_ h hw
  · intro w state outcome last hadv hw
    obtain ⟨rfl, k, rfl⟩ := advance_finished hs.toQuiet hadv
    rw [directory_meanwhile_iterate hs.toQuiet, leftBy_of_not_offered (by simp)]
    split_ifs with hid
    · exact hw id hid
    · rfl
  · intro limit w x outcome last hx hrun ih hw
    rw [ih (hx.connected_peers hs hw)]
    split_ifs with hid
    · rfl
    · have hnext := hx.stateOf?_next hs fun h => hid ((lasts_run hs hrun).1.connected h)
      by_cases haccepted : x.AcceptedAs s id
      · have hrest := not_offered_of_visited hs.toQuiet hrun
          (Stage.mem_visited_of_acceptedBy? haccepted.2)
        rw [leftBy_of_not_offered hrest, leftBy_cons_of_accepted haccepted, hnext,
          if_pos haccepted]
      · rw [leftBy_cons_of_not_accepted haccepted, hnext, if_neg haccepted]

/-- The state of every peer after a walk. -/
theorem stateOf?_run (hs : s.Undisturbed)
    (h : run s limit (ofSeeds seeds) state = (some outcome, last)) (id : NodeId) :
    (s.directory last).stateOf? id =
      if id ∈ outcome.connected then some .connected
      else leftBy s (stages s limit (ofSeeds seeds) state) id
        ((s.directory state).stateOf? id) :=
  stateOf?_run_of_connected hs h (by simp [ofSeeds]) id

/-! ## Peers that a walk loses -/

/-- Surroundings in which every address always gives the same answer, and no way can be punched. -/
def answering (answer : String → Except NetworkError Message) : Surroundings Node where
  node n := n
  setNode n _ := n
  now _ := ⟨0, 0⟩
  meanwhile n := n
  request address _ n := (answer address, n)
  notify _ _ n := (.ok (), n)
  forget _ n := n
  punch _ _ n := (.error .natPunchFailed, n)

theorem undisturbed_answering (answer : String → Except NetworkError Message) :
    (answering answer).Undisturbed where
  node_setNode _ _ := rfl
  meanwhile _ := rfl
  request _ _ _ _ := rfl
  punch _ _ _ := rfl

/-- A full node at `s:1` offers one peer, and all other addresses give one answer. -/
def sentOn (answer : Except NetworkError Message) : Surroundings Node :=
  answering fun address =>
    if address = "s:1" then
      .ok (.joinResponse (.rejected ⟨"s"⟩ "s:1" .networkFull [⟨⟨"p"⟩, "p:7400", true⟩]))
    else answer

/-- In undisturbed surroundings a walk leaves connected peers connected and stale ones stale or
connected. A peer that was joining is lost exactly if the walk asked candidates that were offered
under its identifier, none of them took the node in under it, and the walk did not connect to it
otherwise. -/
theorem run_keeps_peers (hs : s.Undisturbed)
    (h : run s limit (ofSeeds seeds) state = (some outcome, last)) (id : NodeId) :
    ((s.directory state).stateOf? id = some .connected →
      (s.directory last).stateOf? id = some .connected) ∧
    ((s.directory state).stateOf? id = some .stale →
      (s.directory last).stateOf? id = some .stale ∨
        (s.directory last).stateOf? id = some .connected) ∧
    ((s.directory state).stateOf? id = some .joining →
      ((s.directory last).contains id = false ↔ id ∉ outcome.connected ∧
        (∃ x ∈ stages s limit (ofSeeds seeds) state, x.candidate.nodeId = some id) ∧
        ¬ ∃ x ∈ stages s limit (ofSeeds seeds) state, x.AcceptedAs s id)) := by
  refine ⟨fun hid => (lasts_run hs h).1.keeps id hid, fun hid => ?_, fun hid => ?_⟩
  · rw [stateOf?_run hs h, hid]
    by_cases hmem : id ∈ outcome.connected
    · exact Or.inr (if_pos hmem)
    · left
      rw [if_neg hmem]
      simp [leftBy]
  · rw [Directory.contains_eq_false_iff, stateOf?_run hs h, hid, leftBy]
    by_cases hmem : id ∈ outcome.connected
    · simp [hmem]
    rw [if_neg hmem]
    by_cases haccepted : ∃ x ∈ stages s limit (ofSeeds seeds) state, x.AcceptedAs s id
    · rw [if_pos haccepted]
      exact iff_of_false (by simp) fun h => h.2.2 haccepted
    rw [if_neg haccepted]
    by_cases hoffered : ∃ x ∈ stages s limit (ofSeeds seeds) state, x.candidate.nodeId = some id
    · rw [if_pos ⟨rfl, hoffered⟩]
      exact iff_of_true rfl ⟨hmem, hoffered, haccepted⟩
    · rw [if_neg fun h => hoffered h.2]
      exact iff_of_false (by simp) fun h => hoffered h.2.1

/-- A node that waits for a joiner to punch the way to it, and has another, connected peer. -/
def awaiting : Node :=
  (Mesh.lone ⟨"a"⟩).withDirectory ((Directory.put ⟨⟨"a"⟩, "a:7400", 8, ∅⟩ ⟨"p"⟩
    (.fresh ⟨⟨"p"⟩, "p:7400", false⟩ .joining 0)).put ⟨"c"⟩
    (.fresh ⟨⟨"c"⟩, "c:7400", false⟩ .connected 0))

/-- The outcome of a walk that is sent on to a peer that does not answer. -/
def unanswered : WalkOutcome where
  failures := [⟨"s:1", .protocol .networkFull⟩, ⟨"p:7400", .io (.other "p:7400")⟩]

/-- The joiner is lost when the walk comes upon it and gets no answer. -/
theorem run_keeps_peers_awaiting :
    let s := sentOn (.error (.io (.other "p:7400")))
    s.Undisturbed ∧ ∃ last, run s 3 (ofSeeds ["s:1"]) awaiting = (some unanswered, last) ∧
      last.directory.stateOf? ⟨"c"⟩ = some .connected ∧
      last.directory.contains ⟨"p"⟩ = false := by
  intro s
  have hs : s.Undisturbed := undisturbed_answering _
  have hrun : run s 3 (ofSeeds ["s:1"]) awaiting =
      (some unanswered, (run s 3 (ofSeeds ["s:1"]) awaiting).2) := Prod.ext (by decide) rfl
  obtain ⟨hconnected, -, -⟩ := run_keeps_peers hs hrun ⟨"c"⟩
  obtain ⟨-, -, hjoining⟩ := run_keeps_peers hs hrun ⟨"p"⟩
  exact ⟨hs, _, hrun, hconnected (by decide),
    (hjoining (by decide)).mpr ⟨by decide, by decide, by decide⟩⟩

/-- A walk does not keep all peers. -/
theorem not_run_keeps_joining : ¬ ∀ s : Surroundings Node, s.Undisturbed →
    ∀ limit seeds state outcome last, run s limit (ofSeeds seeds) state = (some outcome, last) →
      ∀ id, (s.directory state).contains id = true → (s.directory last).contains id = true := by
  intro h
  let s := sentOn (.error (.io (.other "p:7400")))
  have hrun : run s 3 (ofSeeds ["s:1"]) awaiting =
      (some unanswered, (run s 3 (ofSeeds ["s:1"]) awaiting).2) := Prod.ext (by decide) rfl
  have hkept := h s (undisturbed_answering _) _ _ _ _ _ hrun ⟨"p"⟩ (by decide)
  exact absurd hkept (by decide)

/-! ## Places that a walk leaves -/

/-- A place that is left after a walk in undisturbed surroundings is that of a peer which took the
node in under the identifier it was offered under, could not be reached by punching, and was not
connected to otherwise. Whoever else is in the directory was there before or is a connection of
the walk. -/
theorem joining_run_iff (hs : s.Undisturbed)
    (h : run s limit (ofSeeds seeds) state = (some outcome, last)) :
    (∀ id, (s.directory last).stateOf? id = some .joining ∧
        (s.directory state).stateOf? id ≠ some .joining ↔
      (s.directory state).stateOf? id = none ∧ id ∉ outcome.connected ∧
        ∃ x ∈ stages s limit (ofSeeds seeds) state, x.HeldFor s id) ∧
    (∀ id, (s.directory last).contains id = true → (s.directory state).contains id = true ∨
      id ∈ outcome.connected ∨
        ∃ x ∈ stages s limit (ofSeeds seeds) state, x.HeldFor s id) ∧
    ∀ x ∈ stages s limit (ofSeeds seeds) state, ∀ id, x.HeldFor s id →
      ∃ e, ⟨x.candidate.address, .protocol e⟩ ∈ outcome.failures := by
  have hheld : ∀ id ∉ outcome.connected,
      ((∃ x ∈ stages s limit (ofSeeds seeds) state, x.AcceptedAs s id) ↔
        ∃ x ∈ stages s limit (ofSeeds seeds) state, x.HeldFor s id) := by
    intro id hid
    refine ⟨fun ⟨x, hx, haccepted⟩ => ⟨x, hx, ?_⟩, fun ⟨x, hx, h⟩ => ⟨x, hx, h.acceptedAs⟩⟩
    obtain ⟨⟨w, hfollows⟩, hlasts⟩ := (lasts_run hs h).2 x hx
    exact hfollows.heldFor_of_acceptedAs hs haccepted fun h => hid (hlasts.connected h)
  refine ⟨fun id => ⟨?_, ?_⟩, fun id hknown => ?_, fun x hx id hid => ?_⟩
  · rintro ⟨hjoining, hne⟩
    rw [stateOf?_run hs h] at hjoining
    split_ifs at hjoining with hid
    · simp at hjoining
    unfold leftBy at hjoining
    split_ifs at hjoining with haccepted hoffered
    · refine ⟨?_, hid, (hheld id hid).mp haccepted⟩
      cases hbefore : (s.directory state).stateOf? id with
      | none => rfl
      | some before =>
        rw [hbefore, Option.getD_some] at hjoining
        exact absurd (hbefore.trans hjoining) hne
    · exact absurd hjoining hne
  · rintro ⟨hnone, hid, hplaces⟩
    rw [stateOf?_run hs h, if_neg hid, leftBy, if_pos ((hheld id hid).mpr hplaces), hnone]
    exact ⟨rfl, by simp⟩
  · by_contra hno
    obtain ⟨hunknown, hno⟩ := not_or.mp hno
    obtain ⟨hid, hplaces⟩ := not_or.mp hno
    rw [Bool.not_eq_true, Directory.contains_eq_false_iff] at hunknown
    rw [← Bool.not_eq_false, Directory.contains_eq_false_iff, stateOf?_run hs h, if_neg hid,
      leftBy, if_neg (mt (hheld id hid).mp hplaces), hunknown, if_neg (by simp)] at hknown
    exact hknown rfl
  · obtain ⟨e, houtcome⟩ := hid.outcome_next
    refine ⟨e, ((lasts_run hs h).2 x hx).2.failures ?_⟩
    rw [houtcome]
    exact List.mem_append_right _ (List.mem_singleton.mpr rfl)

/-- A peer that takes the node in and names a port. -/
def walled : Except NetworkError Message :=
  .ok (.joinResponse { JoinResponse.accepted ⟨"p"⟩ "p:7400" [] with natPort := some 1 })

/-- The outcome of a walk that is sent on to a peer to which no way can be punched. -/
def unpunched : WalkOutcome where
  failures := [⟨"s:1", .protocol .networkFull⟩, ⟨"p:7400", .protocol .natPunchFailed⟩]

/-- A node that knows nobody. -/
def unacquainted : Node := (Mesh.lone ⟨"a"⟩).withDirectory ⟨⟨"a"⟩, "a:7400", 8, ∅⟩

/-- A peer to which no way can be punched still has a place after the walk. -/
theorem joining_run_iff_walled :
    let s := sentOn walled
    s.Undisturbed ∧ ∃ last, run s 3 (ofSeeds ["s:1"]) unacquainted = (some unpunched, last) ∧
      unacquainted.directory.stateOf? ⟨"p"⟩ = none ∧
      last.directory.stateOf? ⟨"p"⟩ = some .joining := by
  intro s
  have hs : s.Undisturbed := undisturbed_answering _
  have hrun : run s 3 (ofSeeds ["s:1"]) unacquainted =
      (some unpunched, (run s 3 (ofSeeds ["s:1"]) unacquainted).2) := Prod.ext (by decide) rfl
  -- The second stage is the one at the peer.
  have hstages : ∃ x, x ∈ stages s 3 (ofSeeds ["s:1"]) unacquainted ∧ x.HeldFor s ⟨"p"⟩ :=
    ⟨_, List.mem_of_getElem? (i := 1) rfl, _, 1, .natPunchFailed, rfl, rfl, rfl, rfl, rfl, rfl⟩
  exact ⟨hs, _, hrun, by decide,
    (((joining_run_iff hs hrun).1 ⟨"p"⟩).mpr ⟨by decide, by decide, hstages⟩).1⟩

/-- A walk does not give back all places that it kept. -/
theorem not_run_gives_back : ¬ ∀ s : Surroundings Node, s.Undisturbed →
    ∀ limit seeds state outcome last, run s limit (ofSeeds seeds) state = (some outcome, last) →
      ∀ id, (s.directory last).stateOf? id = some .joining →
        (s.directory state).stateOf? id = some .joining := by
  intro h
  let s := sentOn walled
  have hrun : run s 3 (ofSeeds ["s:1"]) unacquainted =
      (some unpunched, (run s 3 (ofSeeds ["s:1"]) unacquainted).2) := Prod.ext (by decide) rfl
  have hjoining := h s (undisturbed_answering _) _ _ _ _ _ hrun ⟨"p"⟩ (by decide)
  exact absurd hjoining (by decide)

end Walk

end PeerGateway
