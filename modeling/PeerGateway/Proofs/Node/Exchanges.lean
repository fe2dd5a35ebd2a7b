import PeerGateway.Proofs.Lists
import PeerGateway.Proofs.Node.Talks

/-!
# What a round takes from its answers

The exchanges of a round go on at the same time. Their events come in any order that keeps those of
each exchange in its own (`Activity.Interleaves`). Wherever a run of them has come, each exchange is
at the stage at which its own events leave it, and the node is what the answers so far make of it
(`Activity.Course`, kept by every event : `Activity.Course.concat`).

After all of them the node has heard the peers that answered for themselves, and stored what those
told it, and nothing else has changed but for the snapshots that were too old (`Node.Learns`,
`Activity.Course.learns`). Every exchange is concluded once (`Activity.Interleaves.perm_concluded`),
so the report of the round counts each peer once (`Activity.round_learns`).
-/

namespace PeerGateway

namespace Activity

variable {x : Activity} {t : Talk} {p : Peer} {e : Event} {k i : ℕ}

/-! ## Exchanges at the same time -/

/-- Whether an event is one of an exchange, which is told by its place. -/
def Event.isOf (k i : ℕ) : Event → Bool
  | .pings l j _ => decide (l = k ∧ j = i)
  | .ponged l j _ _ => decide (l = k ∧ j = i)
  | .traded l j _ _ => decide (l = k ∧ j = i)
  | _ => false

/-- The events of the exchanges of a round, those of each exchange in their order and those of
different exchanges in any. -/
structure Interleaves (talks : List (Peer × Talk)) (k : ℕ) (events : List Event) : Prop where
  only : ∀ e ∈ events, ∃ i < talks.length, e.isOf k i = true
  each : ∀ i p t, talks[i]? = some (p, t) → events.filter (·.isOf k i) = t.events p k i

/-- The first events of such a round. -/
structure Starts (talks : List (Peer × Talk)) (k : ℕ) (events : List Event) : Prop where
  only : ∀ e ∈ events, ∃ i < talks.length, e.isOf k i = true
  each : ∀ i p t, talks[i]? = some (p, t) → events.filter (·.isOf k i) <+: t.events p k i

/-- With whom the exchanges of a round were concluded, and what came of them. -/
def results (k : ℕ) : Activity → List Event → List (NodeId × Except NetworkError Unit)
  | _, [] => []
  | x, e :: events => (x.concludes? k e).toList ++ results k (x.step e) events

section Interleaving

variable {talks : List (Peer × Talk)} {events : List Event}

theorem round?_setStage (stage : Exchange.Stage) : (x.setStage k i stage).round? k =
    (x.round? k).map (·.modify i ({ · with stage })) := by
  unfold round? setStage
  rw [List.getElem?_modify]
  rcases x.rounds[k]? with _ | _ | round <;> simp

theorem eq_of_isOf (hi : e.isOf k i = true) (hj : e.isOf k j = true) : i = j := by
  cases e <;> simp only [Event.isOf, decide_eq_true_eq, Bool.false_eq_true] at hi hj <;>
    exact hi.2.symm.trans hj.2

theorem results_concat (x : Activity) (events : List Event) (e : Event) :
    x.results k (events ++ [e]) =
      x.results k events ++ ((x.after events).concludes? k e).toList := by
  induction events generalizing x with
  | nil => simp [results, after]
  | cons f events ih =>
    rw [List.cons_append, results, results, ih, List.append_assoc]
    rfl

theorem Starts.of_concat (h : Starts talks k (events ++ [e])) : Starts talks k events where
  only f hf := h.only f (List.mem_append_left _ hf)
  each i p t hi := by
    have hprefix := h.each i p t hi
    rw [List.filter_append] at hprefix
    exact (List.prefix_append _ _).trans hprefix

/-- The last of the first events is the next one of an exchange. -/
theorem Starts.exists_next (h : Starts talks k (events ++ [e])) : ∃ i p t,
    talks[i]? = some (p, t) ∧ e.isOf k i = true ∧
      (t.events p k i)[(events.filter (·.isOf k i)).length]? = some e := by
  obtain ⟨i, hlength, hof⟩ := h.only e (by simp)
  have hi : talks[i]? = some (talks[i].1, talks[i].2) := List.getElem?_eq_getElem hlength
  refine ⟨i, _, _, hi, hof, ?_⟩
  have hprefix := h.each i _ _ hi
  rw [List.filter_append, List.filter_cons_of_pos hof] at hprefix
  obtain ⟨rest, hrest⟩ := hprefix
  rw [← hrest]
  simp

/-- An activity has come to where the first events of a round lead. -/
structure Course (x : Activity) (talks : List (Peer × Talk)) (k : ℕ) (events : List Event) :
    Prop where
  round : ((x.after events).round? k).map List.length = some talks.length
  exchange : ∀ i p t, talks[i]? = some (p, t) → (x.after events).exchange? k i =
    some ⟨p, t.stage p (events.filter (·.isOf k i)).length⟩
  directory : (x.after events).node.directory =
    x.node.directory.after (events.filterMap (heard? talks))
  load : (x.after events).node.load = x.node.load.run (events.filterMap (told? talks))
  results : (x.results k events).map (fun r => (r.1, r.2.isOk)) =
    (events.filterMap (concluded? talks)).map fun c => (c.1.nodeId, (c.2.told? c.1).isSome)

theorem Course.concat (hc : x.Course talks k events) (h : Starts talks k (events ++ [e])) :
    x.Course talks k (events ++ [e]) := by
  obtain ⟨i, p, t, hi, hof, he⟩ := h.exists_next
  have hexchange := hc.exchange i p t hi
  have hstep := step_talk hexchange he
  have hafter : x.after (events ++ [e]) = (x.after events).step e := by
    rw [after_append]
    rfl
  refine ⟨?round, ?exchange, ?directory, ?load, ?results⟩
  case round =>
    rw [hafter, hstep, round?_setStage, Option.map_map, Function.comp_def]
    simp only [List.length_modify]
    exact hc.round
  case exchange =>
    intro j q u hj
    rw [hafter, hstep, exchange?_setStage, List.filter_append]
    by_cases hij : i = j
    · subst hij
      obtain ⟨rfl, rfl⟩ := Prod.mk.inj (Option.some.inj (hi.symm.trans hj))
      rw [if_pos ⟨rfl, rfl⟩, List.filter_cons_of_pos hof, List.filter_nil, List.length_append]
      exact congrArg (Option.map _) hexchange
    · have hother : ¬ e.isOf k j = true := fun hof' => hij (eq_of_isOf hof hof')
      rw [if_neg fun h => hij h.2, List.filter_cons_of_neg hother, List.filter_nil,
        List.append_nil]
      exact hc.exchange j q u hj
  case directory =>
    rw [hafter, hstep, List.filterMap_append, Directory.after, List.foldl_append]
    have heffect := directory_effect hi he (x.after events).node
    rw [hc.directory] at heffect
    exact heffect
  case load =>
    rw [hafter, hstep, List.filterMap_append, LoadRecord.run, List.foldl_append]
    have heffect := load_effect hi he (x.after events).node
    rw [hc.load] at heffect
    exact heffect
  case results =>
    rw [results_concat, List.map_append, hc.results, List.filterMap_append, List.map_append]
    have hconcludes := concludes?_talk hi hexchange he
    rw [← Option.toList_map, hconcludes, Option.toList_map]
    rfl

theorem course (h : Starts talks k events) (hbegun : x.Course talks k []) :
    x.Course talks k events := by
  induction events using List.reverseRecOn with
  | nil => exact hbegun
  | append_singleton events e ih => exact (ih h.of_concat).concat h

/-- A round that has begun. -/
theorem course_begun (hpeers : talks.map Prod.fst = x.node.directory.known) :
    (x.step .roundBegins).Course talks x.rounds.length [] := by
  have hround : (x.step .roundBegins).round? x.rounds.length =
      some (x.node.directory.known.map (⟨·, .due⟩)) := by
    simp [round?, step]
  refine ⟨?_, fun i p t hi => ?_, rfl, rfl, rfl⟩
  · show ((x.step .roundBegins).round? x.rounds.length).map List.length = _
    rw [hround, ← hpeers]
    simp
  · show (x.step .roundBegins).exchange? x.rounds.length i = _
    rw [exchange?, hround, ← hpeers]
    simp [hi, Talk.stage]

/-! ## All answers of a round -/

theorem Interleaves.starts (h : Interleaves talks k events) : Starts talks k events :=
  ⟨h.only, fun i p t hi => h.each i p t hi ▸ List.prefix_refl _⟩

theorem Interleaves.mem_events (h : Interleaves talks k events) (hi : talks[i]? = some (p, t))
    (he : e ∈ t.events p k i) : e ∈ events :=
  (List.mem_filter.mp (h.each i p t hi ▸ he)).1

theorem Interleaves.mem_heard (h : Interleaves talks k events) {op : Directory.Operation} :
    op ∈ events.filterMap (heard? talks) ↔ ∃ c ∈ talks, c.2.isPonged c.1 = true ∧
      op = .hear c.1.nodeId c.2.pongedAt.steady := by
  rw [List.mem_filterMap]
  constructor
  · rintro ⟨e, -, he⟩
    unfold heard? at he
    split at he
    · obtain ⟨c, hc, rfl⟩ := Option.map_eq_some_iff.mp he
      obtain ⟨hc, hponged⟩ := Option.filter_eq_some_iff.mp hc
      exact ⟨c, List.mem_of_getElem? hc, hponged, rfl⟩
    · cases he
  · rintro ⟨⟨p, t⟩, hc, hponged, rfl⟩
    obtain ⟨i, hi⟩ := List.mem_iff_getElem?.mp hc
    refine ⟨.ponged k i t.pong t.pongedAt, h.mem_events hi (by simp [Talk.events]), ?_⟩
    rw [heard?, hi, Option.filter_some, if_pos hponged]
    rfl

theorem Interleaves.mem_told (h : Interleaves talks k events) {u : LoadRecord.Event} :
    u ∈ events.filterMap (told? talks) ↔ ∃ c ∈ talks, ∃ m, c.2.told? c.1 = some m ∧
      u = .update m c.2.roundTrip c.2.tradedAt.wall := by
  rw [List.mem_filterMap]
  constructor
  · rintro ⟨e, -, he⟩
    unfold told? at he
    split at he
    · obtain ⟨c, hc, he⟩ := Option.bind_eq_some_iff.mp he
      obtain ⟨m, hm, rfl⟩ := Option.map_eq_some_iff.mp he
      exact ⟨c, List.mem_of_getElem? hc, m, hm, rfl⟩
    · cases he
  · rintro ⟨⟨p, t⟩, hc, m, hm, rfl⟩
    obtain ⟨i, hi⟩ := List.mem_iff_getElem?.mp hc
    refine ⟨.traded k i t.metrics t.tradedAt, h.mem_events hi ?_, ?_⟩
    · simp [Talk.events, Talk.isPonged_of_told? hm]
    · rw [told?, hi, Option.bind_some, hm]
      rfl

/-- The place of the exchange that an event concludes. -/
def concludedAt? (talks : List (Peer × Talk)) : Event → Option ℕ
  | .ponged _ i _ _ => if talks[i]?.any fun c => !c.2.isPonged c.1 then some i else none
  | .traded _ i _ _ => some i
  | _ => none

theorem concluded?_eq (e : Event) :
    concluded? talks e = (concludedAt? talks e).bind (talks[·]?) := by
  cases e with
  | ponged l i reply now =>
    simp only [concluded?, concludedAt?]
    cases hi : talks[i]? with
    | none => rfl
    | some c =>
      rw [Option.filter_some, Option.any_some]
      split_ifs
      · exact hi.symm
      · rfl
  | _ => rfl

theorem Interleaves.isOf_of_concludedAt? (h : Interleaves talks k events) (he : e ∈ events)
    (hi : concludedAt? talks e = some i) : e.isOf k i = true ∧ i < talks.length := by
  obtain ⟨j, hj, hof⟩ := h.only e he
  unfold concludedAt? at hi
  split at hi
  · split_ifs at hi
    obtain rfl := Option.some.inj hi
    obtain ⟨rfl, rfl⟩ := of_decide_eq_true hof
    exact ⟨hof, hj⟩
  · obtain rfl := Option.some.inj hi
    obtain ⟨rfl, rfl⟩ := of_decide_eq_true hof
    exact ⟨hof, hj⟩
  · cases hi

/-- Every exchange is concluded once. -/
theorem Interleaves.perm_concludedAt? (h : Interleaves talks k events) :
    (events.filterMap (concludedAt? talks)).Perm (List.range talks.length) := by
  refine List.perm_iff_count.mpr fun i => ?_
  rw [List.count_filterMap]
  -- Only events of the exchange conclude it.
  have hfilter : events.countP (fun e => concludedAt? talks e == some i) =
      (events.filter (·.isOf k i)).countP fun e => concludedAt? talks e == some i := by
    rw [List.countP_filter]
    refine List.countP_congr fun e he => ?_
    simp only [beq_iff_eq, Bool.and_eq_true]
    exact ⟨fun hi => ⟨hi, (h.isOf_of_concludedAt? he hi).1⟩, And.left⟩
  rw [hfilter]
  by_cases hlength : i < talks.length
  · have hi : talks[i]? = some (talks[i].1, talks[i].2) := List.getElem?_eq_getElem hlength
    rw [h.each i _ _ hi, List.count_eq_one_of_mem List.nodup_range (List.mem_range.mpr hlength)]
    cases hponged : talks[i].2.isPonged talks[i].1 <;>
      simp [Talk.events, concludedAt?, hi, hponged]
  · rw [List.count_eq_zero_of_not_mem fun hmem => hlength (List.mem_range.mp hmem),
      List.countP_eq_zero]
    intro e he heq
    exact hlength (h.isOf_of_concludedAt? (List.mem_filter.mp he).1 (beq_iff_eq.mp heq)).2

theorem Interleaves.perm_concluded (h : Interleaves talks k events) :
    (events.filterMap (concluded? talks)).Perm talks := by
  have hperm := h.perm_concludedAt?.filterMap (talks[·]?)
  rw [filterMap_getElem?_range, List.filterMap_filterMap] at hperm
  simpa only [concluded?_eq] using hperm

theorem Course.results_perm (hc : x.Course talks k events) (h : Interleaves talks k events) :
    ((x.results k events).map fun r => (r.1, r.2.isOk)).Perm
      (talks.map fun c => (c.1.nodeId, (c.2.told? c.1).isSome)) :=
  hc.results ▸ h.perm_concluded.map _

/-- The exchanges of a round whose events are over. -/
theorem Course.round_over (hc : x.Course talks k events) (h : Interleaves talks k events) :
    (x.after events).round? k = some (talks.map fun c => ⟨c.1, .over⟩) := by
  obtain ⟨exchanges, hround, hlength⟩ := Option.map_eq_some_iff.mp hc.round
  refine hround.trans (congrArg some (List.ext_getElem? fun i => ?_))
  have hexchange : (x.after events).exchange? k i = exchanges[i]? := by
    rw [exchange?, hround, Option.bind_some]
  rw [List.getElem?_map]
  cases hi : talks[i]? with
  | none =>
    rw [List.getElem?_eq_none_iff] at hi
    exact List.getElem?_eq_none_iff.mpr (hlength ▸ hi)
  | some c =>
    rw [← hexchange, hc.exchange i c.1 c.2 hi, h.each i c.1 c.2 hi, Talk.stage_length_events]
    rfl

end Interleaving

end Activity

/-- The readings of the clock at which the answers of peers were stored, each of which is the time
of a purge. -/
def readings (talks : List (Peer × Talk)) : List WallTime :=
  talks.filterMap fun c => (c.2.told? c.1).map fun _ => c.2.tradedAt.wall

/-- What a node takes from exchanges with peers. It hears those that answered the ping under their
own identifiers, and stores what those told of themselves that answered both times, with the time of
their own round trip. Everything else is as before, but for the snapshots that are too old. -/
structure Node.Learns (n n' : Node) (talks : List (Peer × Talk)) : Prop where
  heard : ∀ c ∈ talks, c.2.isPonged c.1 = true → n'.directory.find? c.1.nodeId =
    (n.directory.find? c.1.nodeId).map (·.seen c.2.pongedAt.steady)
  unheard : ∀ id, (∀ c ∈ talks, c.1.nodeId = id → c.2.isPonged c.1 = false) →
    n'.directory.find? id = n.directory.find? id
  told : ∀ c ∈ talks, ∀ m, c.2.told? c.1 = some m →
    n'.load.Holds c.1.nodeId (some m) (some c.2.roundTrip) (readings talks)
  untold : ∀ id, (∀ c ∈ talks, c.1.nodeId = id → c.2.told? c.1 = none) →
    n'.load.Holds id (n.load.snapshotOf? id) (n.load.latencyOf? id) (readings talks)

theorem RoundReport.foldl_count (r : RoundReport) (results : List (Except NetworkError Unit)) :
    results.foldl count r =
      { r with
        reached := r.reached + results.countP fun result => result.isOk
        failed := r.failed + results.countP fun result => !result.isOk } := by
  induction results generalizing r with
  | nil => rfl
  | cons result results ih =>
    rw [List.foldl_cons, ih]
    cases result <;>
      simp [count, Except.isOk, Except.toBool, Nat.add_assoc, Nat.add_comm]

namespace Activity

section Round

variable {x : Activity} {talks : List (Peer × Talk)} {k : ℕ} {events : List Event}

theorem Interleaves.readings_subset (h : Interleaves talks k events) :
    (events.filterMap (told? talks)).filterMap LoadRecord.Event.reading? ⊆ readings talks := by
  intro now hnow
  obtain ⟨u, hu, hreading⟩ := List.mem_filterMap.mp hnow
  obtain ⟨c, hc, m, hm, rfl⟩ := h.mem_told.mp hu
  refine List.mem_filterMap.mpr ⟨c, hc, ?_⟩
  rw [hm]
  exact hreading

theorem Course.learns (hc : x.Course talks k events) (h : Interleaves talks k events)
    (hnodup : (talks.map (·.1.nodeId)).Nodup)
    (hself : ∀ c ∈ talks, c.1.nodeId ≠ x.node.load.nodeId) :
    x.node.Learns (x.after events).node talks := by
  have hsame : ∀ c ∈ talks, ∀ c' ∈ talks, c'.1.nodeId = c.1.nodeId → c' = c :=
    fun c hc c' hc' hid => List.inj_on_of_nodup_map hnodup hc' hc hid
  refine ⟨fun c hmem hponged => ?_, fun id hnone => ?_, fun c hmem m hm => ?_, fun id hnone => ?_⟩
  · rw [hc.directory]
    refine Directory.find?_after_heard (fun op hop => ?_) (h.mem_heard.mpr ⟨c, hmem, hponged, rfl⟩)
    obtain ⟨c', hmem', -, rfl⟩ := h.mem_heard.mp hop
    exact ⟨_, _, rfl, fun hid => hsame c hmem c' hmem' hid ▸ rfl⟩
  · rw [hc.directory]
    refine Directory.find?_after_unheard fun op hop => ?_
    obtain ⟨c, hmem, hponged, rfl⟩ := h.mem_heard.mp hop
    exact ⟨_, _, rfl, fun hid => by simp [hnone c hmem hid] at hponged⟩
  · rw [hc.load, ← Talk.nodeId_of_told? hm]
    refine (LoadRecord.holds_run_of_mem (h.mem_told.mpr ⟨c, hmem, m, hm, rfl⟩)
      (Talk.nodeId_of_told? hm ▸ hself c hmem) fun m' latency' now' hu hid => ?_).mono
      h.readings_subset
    obtain ⟨c', hmem', m'', hm'', heq⟩ := h.mem_told.mp hu
    obtain ⟨rfl, rfl, -⟩ := LoadRecord.Event.update.inj heq
    rw [Talk.nodeId_of_told? hm, Talk.nodeId_of_told? hm''] at hid
    obtain rfl := hsame c hmem c' hmem' hid
    exact ⟨hm.symm.trans hm'', rfl⟩
  · rw [hc.load]
    refine ((LoadRecord.Holds.refl x.node.load id []).run fun m latency now hu hid => ?_).mono
      h.readings_subset
    obtain ⟨c, hmem, m', hm, heq⟩ := h.mem_told.mp hu
    obtain ⟨rfl, -, -⟩ := LoadRecord.Event.update.inj heq
    rw [hnone c hmem ((Talk.nodeId_of_told? hm).symm.trans hid)] at hm
    cases hm

/-- What the round comes to when it ends. -/
theorem Course.node_roundEnds {begun : Activity} (hc : begun.Course talks k events)
    (hpeers : talks.map Prod.fst = x.node.directory.known) (h : Interleaves talks k events)
    (now : Moment) : ((begun.after events).step (.roundEnds k now)).node =
      ((begun.after events).node.closeRound x.node.directory.known now).1 := by
  have hpeer : (talks.map fun c => (⟨c.1, .over⟩ : OngoingExchange)).map (·.peer) =
      x.node.directory.known := by
    rw [← hpeers, List.map_map]
    rfl
  refine (Activity.node_roundEnds (hc.round_over h) fun c hmem => ?_).trans (by rw [hpeer])
  obtain ⟨c', -, rfl⟩ := List.mem_map.mp hmem
  rfl

/-! ## The report -/

theorem reaches?_eq (k : ℕ) (x : Activity) (e : Event) : x.reaches? k e =
    (x.concludes? k e).bind fun r => if r.2.isOk then some r.1 else none := by
  cases e with
  | ponged l i reply now =>
    simp only [reaches?, concludes?]
    split
    · split
      · rfl
      · split_ifs <;> rfl
    · rfl
  | traded l i reply now =>
    rcases hexchange : x.exchange? l i with _ | ⟨peer, _ | _ | roundTrip | _⟩ <;>
      simp only [reaches?, concludes?, hexchange, Option.bind_none]
    by_cases hround : l = k
    · simp only [hround, true_and, if_true, Option.bind_some]
    · simp only [hround, false_and, if_false, Option.bind_none]
  | _ => rfl

theorem mem_reached_iff {id : NodeId} : id ∈ x.reached k events ↔
    (id, true) ∈ (x.results k events).map fun r => (r.1, r.2.isOk) := by
  induction events generalizing x with
  | nil => simp [reached, results]
  | cons e events ih =>
    rw [reached, results, List.mem_append, List.map_append, List.mem_append, ih]
    refine or_congr_left ?_
    rw [reaches?_eq, ← Option.toList_map, Option.mem_toList, Option.mem_toList]
    cases x.concludes? k e with
    | none => simp
    | some r => cases hok : r.2.isOk <;> simp [hok]

/-- What a round reports, before the directory is swept. -/
def report (k : ℕ) (x : Activity) (events : List Event) : RoundReport :=
  ((x.results k events).map Prod.snd).foldl RoundReport.count {}

/-- In a round a node trusts each peer for itself only, whatever comes in answer to its messages and
in whatever order. It takes what `Node.Learns` says from the answers, and its report counts a peer
as reached exactly if the peer has answered both times under its own identifier, and else as failed.
Then all exchanges are over, so that the round can end. -/
theorem round_learns (hd : x.node.directory.Consistent)
    (hself : x.node.load.nodeId = x.node.directory.localId)
    (hpeers : talks.map Prod.fst = x.node.directory.known)
    (hevents : Interleaves talks x.rounds.length events) :
    let begun := x.step .roundBegins
    let y := begun.after events
    x.node.Learns y.node talks ∧
    (∀ id, id ∈ begun.reached x.rounds.length events ↔
      ∃ c ∈ talks, c.1.nodeId = id ∧ (c.2.told? c.1).isSome = true) ∧
    begun.report x.rounds.length events =
      { reached := talks.countP fun c => (c.2.told? c.1).isSome
        failed := talks.countP fun c => !(c.2.told? c.1).isSome } ∧
    ∀ now, (y.step (.roundEnds x.rounds.length now)).node =
      (y.node.closeRound x.node.directory.known now).1 := by
  intro begun y
  have hcourse : begun.Course talks x.rounds.length events :=
    course hevents.starts (course_begun hpeers)
  have hids : talks.map (·.1.nodeId) = x.node.directory.known.map Peer.nodeId := by
    rw [← hpeers, List.map_map]
    rfl
  have hnodup : (talks.map (·.1.nodeId)).Nodup := hids ▸ hd.nodup_filter_list _
  have hother : ∀ c ∈ talks, c.1.nodeId ≠ x.node.load.nodeId := fun c hc hid => by
    have hknown : c.1.nodeId ∈ x.node.directory.known.map Peer.nodeId :=
      hids ▸ List.mem_map_of_mem hc
    rw [hid, hself, hd.mem_known_iff] at hknown
    simp [Directory.stateOf?_eq_none_iff.mpr hd.localId_absent] at hknown
  have hperm := hcourse.results_perm hevents
  refine ⟨hcourse.learns hevents hnodup hother, fun id => ?_, ?_, fun now => ?_⟩
  · rw [mem_reached_iff, hperm.mem_iff, List.mem_map]
    simp only [Prod.mk.injEq]
  · have hcount : ∀ q : Bool → Bool,
        ((begun.results x.rounds.length events).map Prod.snd).countP (fun r => q r.isOk) =
          talks.countP fun c => q (c.2.told? c.1).isSome := fun q => by
      have hpairs := hperm.countP_eq fun r => q r.2
      simpa only [List.countP_map, Function.comp_def] using hpairs
    rw [report, RoundReport.foldl_count, hcount (fun ok => ok), hcount (fun ok => !ok)]
    simp only [Nat.zero_add]
  · exact hcourse.node_roundEnds hpeers hevents now

/-- A node that knows two peers at one address. -/
def besideTwins : Activity where
  node := { Mesh.lone ⟨"n"⟩ with
    directory := Directory.after ⟨⟨"n"⟩, "n:7400", 8, ∅⟩
      [.takeIn ⟨⟨"p"⟩, "r:7400", [], false⟩ false 0, .takeIn ⟨⟨"q"⟩, "r:7400", [], false⟩ false 0] }

/-- The peer `p` answers for itself, and in the place of `q`. -/
def answeredForBoth : List (Peer × Talk) :=
  [(⟨⟨"p"⟩, "r:7400", true⟩, ⟨1, .ok (.pong ⟨⟨"p"⟩, 0⟩), ⟨5, 5⟩,
      .ok (.metrics ⟨⟨"p"⟩, "p:8080", 0, 0, 0, 0, 0, 0, 0⟩), ⟨9, 9⟩⟩),
    (⟨⟨"q"⟩, "r:7400", true⟩, ⟨2, .ok (.pong ⟨⟨"p"⟩, 0⟩), ⟨4, 4⟩,
      .ok (.metrics ⟨⟨"p"⟩, "p:8080", 0, 0, 0, 0, 0, 0, 0⟩), ⟨8, 8⟩⟩)]

/-- The pong in the place of `q` comes first. -/
def twinEvents : List Event :=
  [.pings 0 0 1, .pings 0 1 2, .ponged 0 1 (.ok (.pong ⟨⟨"p"⟩, 0⟩)) ⟨4, 4⟩,
    .ponged 0 0 (.ok (.pong ⟨⟨"p"⟩, 0⟩)) ⟨5, 5⟩,
    .traded 0 0 (.ok (.metrics ⟨⟨"p"⟩, "p:8080", 0, 0, 0, 0, 0, 0, 0⟩)) ⟨9, 9⟩]

theorem interleaves_twinEvents : Interleaves answeredForBoth 0 twinEvents where
  only e he := by
    simp only [twinEvents, List.mem_cons, List.not_mem_nil, or_false] at he
    rcases he with rfl | rfl | rfl | rfl | rfl
    exacts [⟨0, by decide, rfl⟩, ⟨1, by decide, rfl⟩, ⟨1, by decide, rfl⟩, ⟨0, by decide, rfl⟩,
      ⟨0, by decide, rfl⟩]
  each i p t hi := by
    rcases i with _ | _ | i
    · cases hi
      rfl
    · cases hi
      rfl
    · cases hi

/-- The answer in the place of `q` refreshes neither of the two, and `p` is as long away as its own
ping took. -/
theorem round_learns_besideTwins :
    let n := besideTwins.node
    let y := (besideTwins.step .roundBegins).after twinEvents
    n.directory.Consistent ∧
    y.node.directory.find? ⟨"q"⟩ = n.directory.find? ⟨"q"⟩ ∧
    y.node.directory.find? ⟨"p"⟩ = (n.directory.find? ⟨"p"⟩).map (·.seen 5) ∧
    y.node.load.Holds ⟨"p"⟩ (some ⟨⟨"p"⟩, "p:8080", 0, 0, 0, 0, 0, 0, 0⟩) (some 4) [9] ∧
    y.node.load.Holds ⟨"q"⟩ none none [9] ∧
    (besideTwins.step .roundBegins).report 0 twinEvents = { reached := 1, failed := 1 } := by
  intro n y
  have hd : n.directory.Consistent := (Directory.consistent_empty _ _ _).after _
  obtain ⟨hlearns, -, hreport, -⟩ := @round_learns besideTwins answeredForBoth twinEvents hd rfl
    (by decide +kernel) interleaves_twinEvents
  have hq : ∀ c ∈ answeredForBoth, c.1.nodeId = ⟨"q"⟩ → c.2.isPonged c.1 = false := by
    decide +kernel
  refine ⟨hd, hlearns.unheard ⟨"q"⟩ hq, hlearns.heard _ List.mem_cons_self (by decide +kernel),
    hlearns.told _ List.mem_cons_self _ (by decide +kernel), ?_, hreport⟩
  refine hlearns.untold ⟨"q"⟩ fun c hc hid => ?_
  rw [Talk.told?, hq c hc hid]
  rfl

end Round

end Activity

end PeerGateway
