import PeerGateway.Proofs.Mesh.TookIn
import PeerGateway.Proofs.Walk.Accounts

/-!
# Walks through honest meshes

A node that takes the joiner in is the one for whom a place was kept, or there is room for it, so
the joiner enrols it (`Walk.Joining.attempt`). This gives `Walk.run_honest` : every other node
answers once at most with anything but a loop, and no link is left half open.
-/

namespace PeerGateway

/-- The call that an attempt makes. -/
def Attempt.call (a : Attempt) : Call := .request a.address (.joinRequest a.request)

variable {m₀ m m' : Mesh} {joiner : NodeId}

namespace Walk

open Mesh

/-! ## The joiner's own directory -/

section Own

variable {d d' : Directory} {w : Walk} {c : Candidate}

/-- A place is kept for a candidate that was offered under an identifier. -/
theorem reserveOffered_spec {now : Instant} (h : reserveOffered d c now = .ok d') :
    d.SameNode d' ∧ d.KeepsConnected d' ∧
      (c.nodeId = none ∧ d' = d ∨ ∃ id, c.nodeId = some id ∧ d'.find? id ≠ none) := by
  unfold reserveOffered at h
  split at h
  · rename_i id hid
    refine ⟨.place h, .place h, Or.inr ⟨id, hid, ?_⟩⟩
    obtain ⟨-, ⟨hknown, rfl⟩ | ⟨-, -, rfl⟩⟩ := Directory.place_eq_ok_iff.mp h
    · exact hknown
    · simp
  · rename_i hid
    obtain rfl := Except.ok.inj h
    exact ⟨.refl d, fun _ hid => hid, Or.inl ⟨hid, rfl⟩⟩

theorem releaseOffered_spec (d : Directory) (c : Candidate) :
    d.SameNode (releaseOffered d c) ∧ d.KeepsConnected (releaseOffered d c) := by
  unfold releaseOffered
  split
  · rename_i id _
    exact ⟨.perform d (.release id), .release d id⟩
  · exact ⟨.refl d, fun _ hid => hid⟩

/-- The joiner enrols a node that takes it in, if it is known or there is room, and it is the one
that was asked if any was. -/
theorem exists_accepted_eq {r : JoinResponse} (hport : r.natPort = none)
    (hne : r.nodeId ≠ (m.node joiner).directory.localId)
    (hplace : (m.node joiner).directory.find? r.nodeId ≠ none ∨
      (m.node joiner).directory.size < (m.node joiner).directory.capacity)
    (hc : ∀ id, c.nodeId = some id → id = r.nodeId) :
    ∃ d m', w.accepted (around joiner) c r m =
        (((w.visit r.nodeId).connected r.nodeId).enqueue r, m') ∧
      Updated joiner d m m' ∧ (m.node joiner).directory.SameNode d ∧
      (m.node joiner).directory.KeepsConnected d ∧ d.stateOf? r.nodeId = some .connected := by
  obtain ⟨placed, d, hplaced, hconfirm, hsame, hkeeps, hstate⟩ :=
    Directory.exists_enrolled ⟨r.nodeId, c.address, false⟩ hne hplace m.clock.steady
      m.clock.steady
  obtain ⟨m', henrol, hm'⟩ := Updated.enrol hplaced hconfirm
  refine ⟨d, _, accepted_eq hport henrol, ?_, hsame, hkeeps, hstate⟩
  unfold giveBackOther
  split_ifs with hid
  · exact hm'
  · have hnone : c.nodeId = none :=
      Option.eq_none_iff_forall_ne_some.mpr fun id h => hid (hc id h ▸ h)
    have hback := Updated.giveBack joiner c ((around joiner).meanwhile m')
    rw [releaseOffered, hnone] at hback
    refine hm'.trans ?_
    rw [← hm'.directory]
    exact hback

end Own

/-! ## The course of a walk -/

/-- The walk of a joiner after the attempts `log`, which found the mesh as `m₀`. -/
structure Joining (m₀ : Mesh) (joiner : NodeId) (seeds : List String) (log : List Attempt)
    (w : Walk) (m : Mesh) : Prop where
  visited : w.visited = log.filterMap Attempt.visited?
  nodup : w.visited.Nodup
  connected : w.outcome.connected = (log.filter Attempt.isAccepted).filterMap Attempt.visited?
  answered : ∀ a ∈ log, ∃ taken, m₀.Answer a.request a.address a.reply taken
  found : ∀ c ∈ w.queue, m₀.FoundIn seeds c
  tookIn : m₀.TookIn joiner w.outcome.connected m
  log_eq : m.log = (log.map Attempt.call).reverse ++ m₀.log
  joined : ∀ id ∈ w.outcome.connected,
    (m.node joiner).directory.stateOf? id = some .connected

variable {seeds : List String} {log : List Attempt} {w w' : Walk} {c : Candidate}

namespace Joining

theorem ofSeeds (m : Mesh) (joiner : NodeId) (seeds : List String) :
    Joining m joiner seeds [] (ofSeeds seeds) m where
  visited := rfl
  nodup := List.nodup_nil
  connected := rfl
  answered := by simp
  found c hc := by
    obtain ⟨a, ha, rfl⟩ := List.mem_map.mp hc
    exact ⟨List.mem_append_left _ (List.mem_append_left _ ha), by simp⟩
  tookIn := .refl m joiner
  log_eq := rfl
  joined := by simp [Walk.ofSeeds]

theorem connected_subset (h : Joining m₀ joiner seeds log w m) {id : NodeId}
    (hid : id ∈ w.outcome.connected) : id ∈ w.visited := by
  rw [h.connected] at hid
  rw [h.visited]
  exact (List.filter_sublist.filterMap _).subset hid

/-- The joiner asks with a place kept for the candidate. -/
theorem ask (hm : m₀.Honest) (h : Joining m₀ joiner seeds log w m) {d : Directory}
    (hd : (m.node joiner).directory.SameNode d) (hm' : Updated joiner d m m')
    (hw : w'.visited = w.visited) (c : Candidate) :
    ∃ taken, m₀.Answer (w'.request (m'.node joiner)) c.address (w'.ask (around joiner) c m').1
        taken ∧
      (w'.ask (around joiner) c m').2.log =
        .request c.address (.joinRequest (w'.request (m'.node joiner))) :: m.log ∧
      ((w'.ask (around joiner) c m').2.node joiner).directory = d ∧
      m₀.TookIn joiner (w.outcome.connected ++ taken.toList) (w'.ask (around joiner) c m').2 := by
  have h' := h.tookIn.updated hm' hd
  obtain ⟨own, hown, hnode⟩ := h'.nodes joiner
  have hid : (w'.request (m'.node joiner)).nodeId = joiner := by
    rw [hnode]
    exact hown.localId.trans (hm.honestAt joiner).runs
  have haddress : (w'.request (m'.node joiner)).address = (m₀.node joiner).address := by
    rw [hnode]
    exact hown.localAddress
  have hvisited : ∀ id ∈ w.outcome.connected, id ∈ (w'.request (m'.node joiner)).visited := by
    intro id hc
    rw [request, hw]
    exact h.connected_subset hc
  obtain ⟨reply, taken, m'', hask, hanswer, hlog, hself, htook⟩ :=
    h'.request hm hid haddress hvisited c.address
  have hask' : w'.ask (around joiner) c m' = (reply, m'') := hask
  rw [hask']
  exact ⟨taken, hanswer, by rw [hlog, hm'.log], by rw [hself, hm'.directory], htook⟩

/-- After its answer an attempt changes the joiner's own directory only, and whoever took the
joiner in is connected there. -/
theorem exists_updated_attempt (hm : m₀.Honest) (h : Joining m₀ joiner seeds log w m)
    (hadv : w.advance (around joiner) m = (.asks c w', m')) :
    ∃ taken d, m₀.Answer (w'.inquiry (around joiner) c m m').request
        (w'.inquiry (around joiner) c m m').address (w'.inquiry (around joiner) c m m').reply
        taken ∧
      (w'.ask (around joiner) c m').2.log = (w'.inquiry (around joiner) c m m').call :: m.log ∧
      m₀.TookIn joiner (w.outcome.connected ++ taken.toList) (w'.ask (around joiner) c m').2 ∧
      Updated joiner d (w'.ask (around joiner) c m').2 (w'.attempt (around joiner) c m').2 ∧
      (w'.attempt (around joiner) c m').1.outcome.connected =
        w.outcome.connected ++ taken.toList ∧
      ((w'.ask (around joiner) c m').2.node joiner).directory.SameNode d ∧
      (m.node joiner).directory.KeepsConnected d ∧
      ∀ id, taken = some id → d.stateOf? id = some .connected := by
  obtain ⟨skipped, rest, k, d, now, hqueue, rfl, hroom, hworth, -, hreserve, hm'⟩ :=
    advance_asks (quiet_around joiner) hadv
  rw [meanwhile_iterate_around] at hm'
  subst hm'
  obtain ⟨hsame, hkeeps, hkept⟩ := reserveOffered_spec hreserve
  obtain ⟨taken, hanswer, hlog, hself, htook⟩ := h.ask hm hsame (.setDirectory d m)
    (rfl : (w.asking c.address rest).visited = w.visited) c
  have hfound := (h.found c (by simp [hqueue])).leads
  have hown : (((around joiner).setDirectory d m).node joiner).directory = d :=
    (Updated.setDirectory d m).directory
  have houtcome : (w.asking c.address rest).outcome = w.outcome := rfl
  generalize w.asking c.address rest = w', (around joiner).setDirectory d m = m' at *
  rcases Answer.taken_cases (a := w'.inquiry (around joiner) c m m') hm hanswer with
    ⟨haccepted, rfl⟩ | ⟨r, hr, hsuccess, hport, hroute, hne, rfl⟩
  · obtain ⟨hconnected, hstate⟩ := attempt_of_not_accepted (around joiner) w' c m' haccepted
    obtain ⟨hsame', hkeeps'⟩ := releaseOffered_spec d c
    refine ⟨none, releaseOffered d c, hanswer, hlog, htook, ?_, ?_, hself ▸ hsame',
      hkeeps.trans hkeeps', by simp⟩
    · rw [hstate, ← hself]
      exact .giveBack joiner c _
    · rw [hconnected, houtcome, Option.toList_none, List.append_nil]
  · have hreply : (w'.ask (around joiner) c m').1 = .ok (.joinResponse r) := hr
    have hattempt : w'.attempt (around joiner) c m' =
        w'.accepted (around joiner) c r (w'.ask (around joiner) c m').2 := by
      simp [attempt, Walk.answered, hreply, hsuccess]
    have hne' : r.nodeId ≠ ((w'.ask (around joiner) c m').2.node joiner).directory.localId := by
      rw [hself, ← hown]
      exact hne
    have hoffered : ∀ id, c.nodeId = some id → id = r.nodeId := by
      intro id hid
      have hroute' : m₀.routes[c.address]? = some r.nodeId := hroute
      simpa [hroute', eq_comm] using hfound id hid
    have hplace : d.find? r.nodeId ≠ none ∨ d.size < d.capacity := by
      rcases hkept with ⟨-, rfl⟩ | ⟨id, hid, hknown⟩
      · exact Or.inr (Directory.isFull_eq_false_iff.mp hroom)
      · exact Or.inl (hoffered id hid ▸ hknown)
    rw [← hself] at hplace hkeeps
    obtain ⟨d', m'', heq, hupdated, hsame', hkeeps', hstate⟩ :=
      exists_accepted_eq (w := w') hport hne' hplace hoffered
    rw [hattempt, heq]
    refine ⟨some r.nodeId, d', hanswer, hlog, htook, hupdated, ?_, hsame', hkeeps.trans hkeeps',
      ?_⟩
    · rw [← houtcome]
      rfl
    · rintro id ⟨⟩
      exact hstate

theorem attempt (hm : m₀.Honest) (h : Joining m₀ joiner seeds log w m)
    (hadv : w.advance (around joiner) m = (.asks c w', m')) :
    Joining m₀ joiner seeds (log ++ [w'.inquiry (around joiner) c m m'])
      (w'.attempt (around joiner) c m').1 (w'.attempt (around joiner) c m').2 := by
  obtain ⟨taken, d, hanswer, hlog, htook, hupdated, hconnected, hsame, hkeeps, hstate⟩ :=
    h.exists_updated_attempt hm hadv
  obtain ⟨skipped, rest, k, -, -, hqueue, rfl, -, -, -, -, -⟩ :=
    advance_asks (quiet_around joiner) hadv
  have hvisited : ((w.asking c.address rest).attempt (around joiner) c m').1.visited =
      w.visited ++ ((w.asking c.address rest).inquiry (around joiner) c m m').visited?.toList :=
    visited_attempt (around joiner) (w.asking c.address rest) c m'
  refine ⟨?_, ?_, ?_, ?_, ?_, ?_, ?_, ?_⟩
  · rw [hvisited, Attempt.filterMap_visited?_append, ← h.visited]
  · rw [hvisited]
    cases hid : ((w.asking c.address rest).inquiry (around joiner) c m m').visited? with
    | none => simpa using h.nodup
    | some id =>
      have hnew : id ∉ w.visited := fun hmem => hanswer.visited?_ne_some hm hmem hid
      exact h.nodup.append (List.nodup_singleton id) (by simpa using hnew)
  · rw [hconnected, h.connected, List.filter_append, List.filterMap_append]
    congr 1
    rcases hanswer.taken_cases hm with ⟨haccepted, rfl⟩ | ⟨r, hr, hsuccess, -, -, -, rfl⟩
    · simp [haccepted]
    · have haccepted := (Attempt.isAccepted_of_reply hr).trans hsuccess
      simp [haccepted, Attempt.visited?, followed?_of_success hr hsuccess]
  · intro a ha
    rcases List.mem_append.mp ha with ha | ha
    · exact h.answered a ha
    · rw [List.mem_singleton.mp ha]
      exact ⟨taken, hanswer⟩
  · intro x hx
    rcases mem_queue_attempt (around joiner) _ c m' hx with hx | ⟨r, hr, p, hp, rfl⟩
    · refine h.found x ?_
      rw [hqueue]
      exact List.mem_append_right _ (List.mem_cons_of_mem _ hx)
    · exact hanswer.foundIn hm seeds hr p hp
  · rw [hconnected]
    exact htook.updated hupdated hsame
  · rw [hupdated.log, hlog, h.log_eq]
    simp
  · intro id hid
    rw [hconnected, List.mem_append] at hid
    rw [hupdated.directory]
    rcases hid with hid | hid
    · exact hkeeps id (h.joined id hid)
    · exact hstate id (by simpa using hid)

end Joining

/-- A walk through an honest mesh is over, and within the limit of `Mesh.walk`. Every other node
answers once at most with anything but a loop. The nodes that took the joiner in are those that
it has as connected, each once, and they have it as connected at its address. All others are as
they were. -/
theorem run_honest (hm : m₀.Honest) (joiner : NodeId) (seeds : List String) :
    ∃ outcome last log,
      (∀ limit, (m₀.reachable seeds).length < limit →
        run (around joiner) limit (ofSeeds seeds) m₀ = (some outcome, last) ∧
        attempts (around joiner) limit (ofSeeds seeds) m₀ = log) ∧
      m₀.walk joiner seeds = (outcome, last) ∧
      last.log = (log.map Attempt.call).reverse ++ m₀.log ∧
      (∀ id, log.countP (fun a => m₀.routes[a.address]? = some id ∧ a.isLoop = false) ≤ 1) ∧
      (∀ id, (∃ a ∈ log, m₀.routes[a.address]? = some id ∧ a.isAccepted = true) ↔
        id ∈ outcome.connected) ∧
      outcome.connected.Nodup ∧
      (∀ id ∈ outcome.connected, id ≠ joiner ∧
        (last.node joiner).directory.stateOf? id = some .connected ∧
        (last.node id).directory.ConnectedAt joiner (m₀.node joiner).address) ∧
      ∀ id ≠ joiner, id ∉ outcome.connected → last.node id = m₀.node id := by
  have step : ∀ log w m c w' m', Joining m₀ joiner seeds log w m →
      w.advance (around joiner) m = (.asks c w', m') →
      Joining m₀ joiner seeds (log ++ [w'.inquiry (around joiner) c m m'])
        (w'.attempt (around joiner) c m').1 (w'.attempt (around joiner) c m').2 :=
    fun _ _ _ _ _ _ h hadv => h.attempt hm hadv
  have hstart := Joining.ofSeeds m₀ joiner seeds
  have within : ∀ w m, (∃ log, Joining m₀ joiner seeds log w m) → ∀ c ∈ w.queue,
      c.address ∈ (m₀.reachable seeds).toFinset := by
    rintro w m ⟨log, h⟩ c hc
    exact List.mem_toFinset.mpr (h.found c hc).address
  obtain ⟨outcome, last, hrun⟩ : ∃ outcome last, run (around joiner)
      ((m₀.reachable seeds).length + 1) (ofSeeds seeds) m₀ = (some outcome, last) := by
    refine exists_run_eq_some (quiet_around joiner) ?_ within ⟨[], hstart⟩
      (Nat.lt_succ_of_le (Nat.le_trans (Finset.card_filter_le _ _) (List.toFinset_card_le _)))
    rintro w m c w' m' ⟨log, h⟩ hadv
    exact ⟨_, step log w m c w' m' h hadv⟩
  obtain ⟨w, m, h, hend⟩ := run_induction step hstart hrun
  obtain ⟨rfl, k, hlast⟩ := advance_finished (quiet_around joiner) hend
  rw [meanwhile_iterate_around] at hlast
  subst hlast
  rw [List.nil_append] at h
  refine ⟨w.outcome, last, _, fun limit hlimit => run_of_le hlimit hrun, ?_, h.log_eq,
    fun id => ?_, fun id => ?_, ?_, fun id hid => ?_, fun id hne hid => h.tookIn.other id hid hne⟩
  · have hsettle : last.settle = last :=
      settle_of_holes_eq_nil (h.tookIn.holes.trans hm.holes)
    simp only [walk, hrun, hsettle, Option.getD_some]
  · have hcount : ∀ a ∈ attempts (around joiner) ((m₀.reachable seeds).length + 1)
        (ofSeeds seeds) m₀, (decide (m₀.routes[a.address]? = some id ∧ a.isLoop = false) = true ↔
          (a.visited? == some id) = true) := by
      intro a ha
      obtain ⟨taken, hanswer⟩ := h.answered a ha
      rw [decide_eq_true_iff, beq_iff_eq, hanswer.visited?_eq_some_iff hm]
    rw [List.countP_congr hcount, ← List.count_filterMap, ← h.visited]
    exact List.nodup_iff_count.mp h.nodup id
  · rw [h.connected, List.mem_filterMap]
    constructor
    · rintro ⟨a, ha, hroute, haccepted⟩
      obtain ⟨taken, hanswer⟩ := h.answered a ha
      have hloop := Attempt.isLoop_eq_false_of_isAccepted haccepted
      exact ⟨a, List.mem_filter.mpr ⟨ha, haccepted⟩,
        (hanswer.visited?_eq_some_iff hm).mpr ⟨hroute, hloop⟩⟩
    · rintro ⟨a, ha, hid⟩
      obtain ⟨ha, haccepted⟩ := List.mem_filter.mp ha
      obtain ⟨taken, hanswer⟩ := h.answered a ha
      exact ⟨a, ha, ((hanswer.visited?_eq_some_iff hm).mp hid).1, haccepted⟩
  · rw [h.connected]
    exact (h.visited ▸ h.nodup).sublist (List.filter_sublist.filterMap _)
  · exact ⟨(h.tookIn.took id hid).1, h.joined id hid, (h.tookIn.took id hid).2⟩

/-- Three nodes, of which one has only room for the third and knows it. -/
def trio : Mesh where
  clock := ⟨0, 0⟩
  nodes := ((Std.ExtTreeMap.empty.insert ⟨"a"⟩
      ((lone ⟨"a"⟩).withDirectory ⟨⟨"a"⟩, "a:1", 4, ∅⟩)).insert ⟨"b"⟩
      ((lone ⟨"b"⟩).withDirectory (Directory.put ⟨⟨"b"⟩, "b:1", 1, ∅⟩ ⟨"c"⟩
        (.fresh ⟨⟨"c"⟩, "c:1", false⟩ .connected 0)))).insert ⟨"c"⟩
      ((lone ⟨"c"⟩).withDirectory ⟨⟨"c"⟩, "c:1", 4, ∅⟩)
  routes := ((Std.ExtTreeMap.empty.insert "a:1" ⟨"a"⟩).insert "b:1" ⟨"b"⟩).insert "c:1" ⟨"c"⟩

theorem honest_trio : trio.Honest where
  nodes id n h := by
    simp only [trio, Std.ExtTreeMap.getElem?_insert, Std.LawfulEqCmp.compare_eq_iff_eq] at h
    split_ifs at h with hc hb ha
    · obtain rfl := hc
      obtain rfl := Option.some.inj h
      exact ⟨rfl, rfl, Directory.consistent_empty _ _ _,
        by simp [Node.withDirectory, Directory.find?]⟩
    · obtain rfl := hb
      obtain rfl := Option.some.inj h
      refine ⟨rfl, rfl, ?_, ?_⟩
      · exact (Directory.consistent_empty _ _ _).put (by decide)
          (Entry.consistentAt_fresh _ (by simp)) (Or.inr (by decide))
      · intro k e he
        simp only [Node.withDirectory, Directory.find?_put] at he
        split_ifs at he with hk
        · obtain rfl := hk
          obtain rfl := Option.some.inj he
          exact Or.inr rfl
        · simp [Directory.find?] at he
    · obtain rfl := ha
      obtain rfl := Option.some.inj h
      exact ⟨rfl, rfl, Directory.consistent_empty _ _ _,
        by simp [Node.withDirectory, Directory.find?]⟩
    · simp at h
  canned := rfl
  hosts := rfl
  holes := rfl

/-- A joiner that a full node sends on to its peer is taken in there, and the full node is as it
was. -/
theorem run_honest_trio :
    trio.Honest ∧ ∃ last, trio.walk ⟨"a"⟩ ["b:1"] =
        ({ connected := [⟨"c"⟩], failures := [⟨"b:1", .protocol .networkFull⟩] }, last) ∧
      (last.node ⟨"a"⟩).directory.stateOf? ⟨"c"⟩ = some .connected ∧
      (last.node ⟨"c"⟩).directory.ConnectedAt ⟨"a"⟩ "a:1" ∧
      last.node ⟨"b"⟩ = trio.node ⟨"b"⟩ := by
  obtain ⟨outcome, last, log, -, hwalk, -, -, -, -, hconnected, hother⟩ :=
    run_honest honest_trio ⟨"a"⟩ ["b:1"]
  have houtcome : outcome =
      { connected := [⟨"c"⟩], failures := [⟨"b:1", .protocol .networkFull⟩] } := by
    rw [show outcome = (trio.walk ⟨"a"⟩ ["b:1"]).1 by rw [hwalk]]
    decide
  subst houtcome
  obtain ⟨-, hstate, hat⟩ := hconnected ⟨"c"⟩ (by simp)
  exact ⟨honest_trio, last, hwalk, hstate, hat, hother ⟨"b"⟩ (by simp) (by simp)⟩

end Walk

end PeerGateway
