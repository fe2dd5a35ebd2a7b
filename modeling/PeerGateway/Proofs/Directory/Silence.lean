import PeerGateway.Proofs.Directory.States
import PeerGateway.Proofs.Time
import Mathlib.Data.List.Induction

/-!
# Sweeps on time

The last contact with a peer is the last operation that took it in, put it in or heard of it
(`Directory.Operation.contacts`). An entry remembers it, and a stale entry remembers the sweep that
made it so, which came no earlier than the window allows (`Directory.Remembers`). This is kept by
every operation (`Directory.remembers_after`), for an operation leaves an entry as it is, contacts
its peer, or is a sweep that makes it stale (`Directory.perform_cases`).

So the sweeps of a run whose clock does not go backwards are neither early nor late
(`Directory.sweep_on_time`), although no entry has a time at which its peer leaves.
-/

namespace PeerGateway

/-! ## One entry -/

namespace Entry

variable {e e' : Entry} {now : Instant} {window grace : Span}

theorem fate_eq_goesStale_iff : e.fate now window grace = .goesStale ↔
    e.state = .connected ∧ window ≤ now.since e.lastSeen := by
  unfold fate
  cases e.state <;> dsimp only <;> split_ifs with h <;> simp [h]

theorem fate_eq_leaves_iff : e.fate now window grace = .leaves ↔
    e.state = .stale ∧ grace ≤ now.since e.staleFrom ∨
      e.state = .joining ∧ window ≤ now.since e.lastSeen := by
  unfold fate
  cases e.state <;> dsimp only <;> split_ifs with h <;> simp [h]

theorem fate_eq_stays_iff : e.fate now window grace = .stays ↔
    (e.state = .stale → ¬grace ≤ now.since e.staleFrom) ∧
      (e.state ≠ .stale → ¬window ≤ now.since e.lastSeen) := by
  unfold fate
  cases e.state <;> dsimp only <;> split_ifs with h <;> simp [h]

theorem swept?_eq_some_iff : e.swept? now window grace = some e' ↔
    e.fate now window grace = .stays ∧ e' = e ∨
      e.fate now window grace = .goesStale ∧ e' = e.moved .stale now := by
  unfold swept?
  cases e.fate now window grace <;> simp [eq_comm]

theorem transition?_eq_stale_iff {id k : NodeId} :
    e.transition? k now window grace = some (.stale id) ↔
      k = id ∧ e.fate now window grace = .goesStale := by
  unfold transition?
  cases e.fate now window grace <;> simp

theorem transition?_eq_left_iff {id k : NodeId} :
    e.transition? k now window grace = some (.left id) ↔
      k = id ∧ e.fate now window grace = .leaves := by
  unfold transition?
  cases e.fate now window grace <;> simp

end Entry

namespace Directory

variable {d d' : Directory} {id k : NodeId} {e e' : Entry} {now : Instant} {window grace : Span}

/-! ## One sweep -/

theorem mem_sweep_iff {t : Transition} : t ∈ (d.sweep now window grace).1 ↔
    ∃ k e, d.find? k = some e ∧ e.transition? k now window grace = some t := by
  simp only [sweep, find?, List.mem_filterMap, Prod.exists,
    Std.ExtTreeMap.mem_toList_iff_getElem?_eq_some]

theorem stale_mem_sweep_iff : Transition.stale id ∈ (d.sweep now window grace).1 ↔
    ∃ e, d.find? id = some e ∧ e.fate now window grace = .goesStale := by
  simp only [mem_sweep_iff, Entry.transition?_eq_stale_iff]
  constructor
  · rintro ⟨k, e, he, rfl, hfate⟩
    exact ⟨e, he, hfate⟩
  · rintro ⟨e, he, hfate⟩
    exact ⟨id, e, he, rfl, hfate⟩

theorem left_mem_sweep_iff : Transition.left id ∈ (d.sweep now window grace).1 ↔
    ∃ e, d.find? id = some e ∧ e.fate now window grace = .leaves := by
  simp only [mem_sweep_iff, Entry.transition?_eq_left_iff]
  constructor
  · rintro ⟨k, e, he, rfl, hfate⟩
    exact ⟨e, he, hfate⟩
  · rintro ⟨e, he, hfate⟩
    exact ⟨id, e, he, rfl, hfate⟩

/-- No peer is reported twice. -/
theorem nodup_sweep (d : Directory) (now : Instant) (window grace : Span) :
    ((d.sweep now window grace).1.map Transition.nodeId).Nodup := by
  refine List.pairwise_map.mpr (List.Pairwise.filterMap _ ?_ Std.ExtTreeMap.distinct_keys_toList)
  rintro ⟨k, e⟩ ⟨k', e'⟩ hne t ht t' ht' heq
  have hid {k : NodeId} {e : Entry} {t : Transition}
      (h : e.transition? k now window grace = some t) : t.nodeId = k := by
    cases t with
    | stale id => exact (Entry.transition?_eq_stale_iff.mp h).1.symm
    | left id => exact (Entry.transition?_eq_left_iff.mp h).1.symm
  rw [hid ht, hid ht'] at heq
  exact hne (Std.compare_eq_iff_eq.mpr heq)

/-- The peers that are reported are those whose entries changed. -/
theorem mem_map_nodeId_sweep_iff : id ∈ (d.sweep now window grace).1.map Transition.nodeId ↔
    (d.sweep now window grace).2.find? id ≠ d.find? id := by
  have hreported : id ∈ (d.sweep now window grace).1.map Transition.nodeId ↔
      ∃ e, d.find? id = some e ∧ e.fate now window grace ≠ .stays := by
    rw [List.mem_map]
    constructor
    · rintro ⟨t, ht, rfl⟩
      cases t with
      | stale id =>
        obtain ⟨e, he, hfate⟩ := stale_mem_sweep_iff.mp ht
        exact ⟨e, he, by simp [hfate]⟩
      | left id =>
        obtain ⟨e, he, hfate⟩ := left_mem_sweep_iff.mp ht
        exact ⟨e, he, by simp [hfate]⟩
    · rintro ⟨e, he, hfate⟩
      cases hf : e.fate now window grace with
      | stays => exact absurd hf hfate
      | goesStale => exact ⟨.stale id, stale_mem_sweep_iff.mpr ⟨e, he, hf⟩, rfl⟩
      | leaves => exact ⟨.left id, left_mem_sweep_iff.mpr ⟨e, he, hf⟩, rfl⟩
  rw [hreported, find?_sweep]
  cases he : d.find? id with
  | none => simp
  | some e =>
    simp only [Option.some.injEq, exists_eq_left', Option.bind_some, ne_eq,
      Entry.swept?_eq_some_iff, not_iff_not]
    constructor
    · intro hfate
      exact .inl ⟨hfate, trivial⟩
    · rintro (⟨hfate, -⟩ | ⟨hfate, heq⟩)
      · exact hfate
      -- A connected entry is not the stale one that it goes to.
      · have hstate := (Entry.fate_eq_goesStale_iff.mp hfate).1
        rw [heq] at hstate
        cases hstate

/-! ## Contacts -/

namespace Operation

/-- The instant of an operation. -/
def instant? : Operation → Option Instant
  | .takeIn _ _ now => some now
  | .reserve _ now => some now
  | .place _ now => some now
  | .enrol _ now => some now
  | .confirm _ now => some now
  | .release _ => none
  | .hear _ now => some now
  | .sweep now _ _ => some now
  | .remove _ => none

/-- Whether an operation on a directory is a contact with a peer. A place that is kept for a peer
is one if it was not known. -/
def contacts (id : NodeId) (d : Directory) : Operation → Bool
  | .takeIn r await now => decide (r.nodeId = id) && (d.takeIn r await now).1.success
  | .reserve peer now =>
    decide (peer.nodeId = id) && !d.contains id && (d.reserve peer now).isOk
  | .place peer now =>
    decide (peer.nodeId = id) && !d.contains id && (d.place peer .connected now).isOk
  | .enrol peer now => decide (peer.nodeId = id) && (d.enrol peer now).isOk
  | .confirm k now => decide (k = id) && (d.confirm k now).isOk
  | .release _ => false
  | .hear k now => decide (k = id) && (d.hear k now).1
  | .sweep _ _ _ => false
  | .remove _ => false

/-- Whether an operation on a directory is a sweep that reports a peer as stale. -/
def makesStale (id : NodeId) (d : Directory) : Operation → Bool
  | .sweep now window grace => decide (.stale id ∈ (d.sweep now window grace).1)
  | _ => false

/-- If it is a sweep, it is one with these spans. -/
def SweepsWith (window grace : Span) : Operation → Prop
  | .sweep _ w g => w = window ∧ g = grace
  | _ => True

end Operation

/-- The entry of a peer after an operation at some instant, which leaves it as it was or is a
contact with the peer. -/
def Touched (contact : Bool) (before : Option Entry) (instant : Option Instant) (e : Entry) :
    Prop :=
  contact = false ∧ before = some e ∨ contact = true ∧ instant = some e.lastSeen ∧ e.state ≠ .stale

theorem lastSeen_rejoined {r : JoinRequest} {state : PeerState} :
    (rejoined e r state now).lastSeen = now := by
  dsimp only [rejoined]
  split_ifs <;> rfl

theorem find?_of_find?_drop (h : (d.drop k).find? id = some e) : d.find? id = some e := by
  rw [find?_drop] at h
  split_ifs at h
  exact h

/-- A contact puts an entry of its instant in, and all others stay. -/
theorem touched_put {peer : NodeId} (hseen : e.lastSeen = now) (hstate : e.state ≠ .stale)
    (hfind : (d.put peer e).find? id = some e') :
    Touched (decide (peer = id)) (d.find? id) (some now) e' := by
  rw [find?_put] at hfind
  split_ifs at hfind with hid
  · obtain rfl := Option.some.inj hfind
    exact .inr ⟨decide_eq_true hid, congrArg some hseen.symm, hstate⟩
  · exact .inl ⟨decide_eq_false hid, hfind⟩

/-- An operation that is refused is no contact and changes nothing. -/
theorem touched_getD {named : Bool} {result : Except ProtocolError Directory}
    (hok : ∀ d', result = .ok d' → d'.find? id = some e' →
      Touched named (d.find? id) (some now) e')
    (hfind : (result.toOption.getD d).find? id = some e') :
    Touched (named && result.isOk) (d.find? id) (some now) e' := by
  cases result with
  | error => exact .inl ⟨Bool.and_false _, hfind⟩
  | ok d' =>
    rw [show Except.isOk (Except.ok d' : Except ProtocolError Directory) = true from rfl,
      Bool.and_true]
    exact hok d' rfl hfind

theorem touched_place {peer : Peer} {state : PeerState} (hs : state ≠ .stale)
    (hfind : ((d.place peer state now).toOption.getD d).find? id = some e') :
    Touched (decide (peer.nodeId = id) && !d.contains id && (d.place peer state now).isOk)
      (d.find? id) (some now) e' := by
  refine touched_getD (fun placed hplace hafter => ?_) hfind
  obtain ⟨-, ⟨-, rfl⟩ | ⟨hunknown, -, rfl⟩⟩ := place_eq_ok_iff.mp hplace
  · have hcontains : placed.contains id = true := by
      rw [contains_eq_isSome]
      exact Option.isSome_of_eq_some hafter
    exact .inl ⟨by simp [hcontains], hafter⟩
  · rcases touched_put rfl hs hafter with ⟨hid, hold⟩ | ⟨hid, hnew⟩
    · exact .inl ⟨by simp [hid], hold⟩
    · obtain rfl := of_decide_eq_true hid
      exact .inr ⟨by simp [contains_eq_isSome, hunknown], hnew⟩

theorem state_seen_ne_stale : (e.seen now).state ≠ .stale := by simp [state_seen]

theorem touched_enrol {peer : Peer}
    (hfind : ((d.enrol peer now).toOption.getD d).find? id = some e') :
    Touched (decide (peer.nodeId = id) && (d.enrol peer now).isOk) (d.find? id) (some now) e' := by
  refine touched_getD (fun enrolled henrol hafter => ?_) hfind
  obtain ⟨placed, hplace, hconfirm⟩ := enrol_eq_ok_iff.mp henrol
  obtain ⟨e, -, rfl⟩ := confirm_eq_ok_iff.mp hconfirm
  rcases touched_put lastSeen_seen state_seen_ne_stale hafter with ⟨hid, hold⟩ | hnew
  · have hother : placed.find? id = d.find? id := by
      obtain ⟨-, ⟨-, rfl⟩ | ⟨-, -, rfl⟩⟩ := place_eq_ok_iff.mp hplace
      · rfl
      · rw [find?_put, if_neg (of_decide_eq_false hid)]
    exact .inl ⟨hid, hother ▸ hold⟩
  · exact .inr hnew

theorem touched_confirm {peer : NodeId}
    (hfind : ((d.confirm peer now).toOption.getD d).find? id = some e') :
    Touched (decide (peer = id) && (d.confirm peer now).isOk) (d.find? id) (some now) e' := by
  refine touched_getD (fun confirmed hconfirm hafter => ?_) hfind
  obtain ⟨e, -, rfl⟩ := confirm_eq_ok_iff.mp hconfirm
  exact touched_put lastSeen_seen state_seen_ne_stale hafter

theorem touched_hear {peer : NodeId} (hfind : (d.hear peer now).2.find? id = some e') :
    Touched (decide (peer = id) && (d.hear peer now).1) (d.find? id) (some now) e' := by
  unfold hear at hfind ⊢
  cases he : d.find? peer with
  | none =>
    rw [he] at hfind
    exact .inl ⟨Bool.and_false _, hfind⟩
  | some e =>
    rw [he] at hfind
    rw [Bool.and_true]
    exact touched_put lastSeen_seen state_seen_ne_stale hfind

theorem touched_takeIn {r : JoinRequest} {await : Bool}
    (hfind : (d.takeIn r await now).2.find? id = some e') :
    Touched (decide (r.nodeId = id) && (d.takeIn r await now).1.success) (d.find? id) (some now)
      e' := by
  have hrejoined (e : Entry) : (rejoined e r (joinerState await) now).state ≠ .stale := by
    rw [state_rejoined]
    split_ifs
    · simp
    · exact Consistent.joinerState_ne_stale
  have hseen : (newcomer r await now).lastSeen = now := rfl
  have hnewcomer : (newcomer r await now).state ≠ .stale := Consistent.joinerState_ne_stale
  rcases takeIn_cases d r await now with ⟨-, heq⟩ | ⟨e, d', -, -, rfl, heq⟩ |
    ⟨-, -, -, -, heq⟩ | ⟨victim, -, -, -, -, heq⟩ | ⟨-, -, -, heq⟩ <;> rw [heq] at hfind ⊢
  · exact .inl ⟨by simp, hfind⟩
  · simpa using touched_put lastSeen_rejoined (hrejoined e) hfind
  · exact .inl ⟨by simp, hfind⟩
  · rcases touched_put hseen hnewcomer hfind with ⟨hid, hold⟩ | hnew
    · exact .inl ⟨by simp [hid], find?_of_find?_drop hold⟩
    · exact .inr (by simpa using hnew)
  · simpa using touched_put hseen hnewcomer hfind

/-- An operation leaves an entry as it is, is a contact with its peer, or is a sweep that makes it
stale. -/
theorem perform_cases {op : Operation} (hfind : (d.perform op).find? id = some e') :
    (op.makesStale id d = false ∧ Touched (op.contacts id d) (d.find? id) op.instant? e') ∨
      ∃ now window grace e, op = .sweep now window grace ∧ d.find? id = some e ∧
        e.fate now window grace = .goesStale ∧ e' = e.moved .stale now := by
  cases op with
  | takeIn r await now => exact .inl ⟨rfl, touched_takeIn hfind⟩
  | reserve peer now => exact .inl ⟨rfl, touched_place (by simp) hfind⟩
  | place peer now => exact .inl ⟨rfl, touched_place (by simp) hfind⟩
  | enrol peer now => exact .inl ⟨rfl, touched_enrol hfind⟩
  | confirm k now => exact .inl ⟨rfl, touched_confirm hfind⟩
  | hear k now => exact .inl ⟨rfl, touched_hear hfind⟩
  | release k =>
    refine .inl ⟨rfl, .inl ⟨rfl, ?_⟩⟩
    rcases release_eq d k with ⟨heq, -⟩ | ⟨heq, -⟩ <;> rw [perform, heq] at hfind
    · exact find?_of_find?_drop hfind
    · exact hfind
  | remove k =>
    refine .inl ⟨rfl, .inl ⟨rfl, ?_⟩⟩
    cases hremove : d.remove k with
    | error =>
      rw [perform, hremove] at hfind
      exact hfind
    | ok r =>
      obtain ⟨p, rest⟩ := r
      obtain ⟨e, -, -, rfl⟩ := remove_eq_ok_iff.mp hremove
      rw [perform, hremove] at hfind
      exact find?_of_find?_drop hfind
  | sweep now window grace =>
    rw [perform, find?_sweep] at hfind
    obtain ⟨e, he, hswept⟩ := Option.bind_eq_some_iff.mp hfind
    obtain ⟨hfate, rfl⟩ | ⟨hfate, rfl⟩ := Entry.swept?_eq_some_iff.mp hswept
    · refine .inl ⟨decide_eq_false fun hstale => ?_, .inl ⟨rfl, he⟩⟩
      obtain ⟨f, hf, hgoes⟩ := stale_mem_sweep_iff.mp hstale
      obtain rfl := Option.some.inj (he.symm.trans hf)
      rw [hfate] at hgoes
      cases hgoes
    · exact .inr ⟨now, window, grace, e, rfl, he, hfate, rfl⟩

/-! ## Runs -/

/-- The instant of the last operation of a kind. What kind an operation is may depend on the
directory that it finds. -/
def lastly (kind : Directory → Operation → Bool) (d : Directory) : List Operation → Option Instant
  | [] => none
  | op :: ops =>
    (lastly kind (d.perform op) ops).or (if kind d op then op.instant? else none)

/-- The last contact with a peer. -/
def lastContact? (d : Directory) (ops : List Operation) (id : NodeId) : Option Instant :=
  d.lastly (Operation.contacts id) ops

/-- The last sweep that reported a peer as stale. -/
def lastStale? (d : Directory) (ops : List Operation) (id : NodeId) : Option Instant :=
  d.lastly (Operation.makesStale id) ops

theorem after_concat (d : Directory) (ops : List Operation) (op : Operation) :
    d.after (ops ++ [op]) = (d.after ops).perform op := by
  rw [after, List.foldl_append]
  rfl

theorem lastly_concat (kind : Directory → Operation → Bool) (d : Directory) (ops : List Operation)
    (op : Operation) : d.lastly kind (ops ++ [op]) =
      (if kind (d.after ops) op then op.instant? else none).or (d.lastly kind ops) := by
  induction ops generalizing d with
  | nil =>
    simp only [List.nil_append, lastly, Option.none_or, Option.or_none]
    rfl
  | cons o ops ih =>
    rw [List.cons_append, lastly, ih, lastly, Option.or_assoc]
    rfl

/-- The last operation of a kind is one of the run. -/
theorem mem_of_lastly {kind : Directory → Operation → Bool} {ops : List Operation} {t : Instant}
    (h : d.lastly kind ops = some t) : t ∈ ops.filterMap Operation.instant? := by
  induction ops generalizing d with
  | nil => cases h
  | cons op ops ih =>
    rcases Option.or_eq_some_iff.mp h with hlater | ⟨-, hhere⟩
    · obtain ⟨o, ho, hinstant⟩ := List.mem_filterMap.mp (ih hlater)
      exact List.mem_filterMap.mpr ⟨o, List.mem_cons_of_mem op ho, hinstant⟩
    · split_ifs at hhere
      exact List.mem_filterMap.mpr ⟨op, List.mem_cons_self, hhere⟩

/-- An entry knows the last contact with its peer, and a stale one the sweep that made it stale,
which came after a whole window of silence. -/
structure Remembers (d : Directory) (ops : List Operation) (window : Span) (id : NodeId)
    (e : Entry) : Prop where
  lastSeen : d.lastContact? ops id = some e.lastSeen
  stale : e.state = .stale → ∃ t, d.lastStale? ops id = some t ∧ e.staleSince = some t ∧
    e.lastSeen + window ≤ t

/-- The instants of a run do not go back. -/
def Orderly (ops : List Operation) : Prop :=
  (ops.filterMap Operation.instant?).Pairwise (· ≤ ·)

theorem Orderly.of_concat {ops : List Operation} {op : Operation} (h : Orderly (ops ++ [op])) :
    Orderly ops := by
  rw [Orderly, List.filterMap_append] at h
  exact (List.pairwise_append.mp h).1

theorem Orderly.le_last {ops : List Operation} {op : Operation} (h : Orderly (ops ++ [op]))
    {t now : Instant} (ht : t ∈ ops.filterMap Operation.instant?) (hop : op.instant? = some now) :
    t ≤ now := by
  rw [Orderly, List.filterMap_append] at h
  refine (List.pairwise_append.mp h).2.2 t ht now ?_
  exact List.mem_filterMap.mpr ⟨op, List.mem_singleton_self op, hop⟩

section Step

variable {start : Directory} {ops : List Operation} {op : Operation}

/-- An entry that an operation leaves alone remembers what it did before. -/
theorem Remembers.keep (h : start.Remembers ops window id e)
    (hcontact : op.contacts id (start.after ops) = false)
    (hsweep : op.makesStale id (start.after ops) = false) :
    start.Remembers (ops ++ [op]) window id e := by
  refine ⟨?_, fun hs => ?_⟩
  · rw [lastContact?, lastly_concat, hcontact]
    exact h.lastSeen
  · rw [lastStale?, lastly_concat, hsweep]
    exact h.stale hs

/-- A contact is the last one, and leaves no entry stale. -/
theorem remembers_contact (hcontact : op.contacts id (start.after ops) = true)
    (hinstant : op.instant? = some e.lastSeen) (hstate : e.state ≠ .stale) :
    start.Remembers (ops ++ [op]) window id e := by
  refine ⟨?_, fun hs => absurd hs hstate⟩
  rw [lastContact?, lastly_concat, hcontact, hinstant]
  rfl

/-- A sweep that makes an entry stale comes after a whole window of silence. -/
theorem Remembers.goesStale (h : start.Remembers ops window id e) (hpast : e.lastSeen ≤ now)
    (hfind : (start.after ops).find? id = some e)
    (hfate : e.fate now window grace = .goesStale) :
    start.Remembers (ops ++ [.sweep now window grace]) window id (e.moved .stale now) := by
  have hsilent := (Entry.fate_eq_goesStale_iff.mp hfate).2
  have hreported : (Operation.sweep now window grace).makesStale id (start.after ops) = true :=
    decide_eq_true (stale_mem_sweep_iff.mpr ⟨e, hfind, hfate⟩)
  refine ⟨?_, fun _ => ⟨now, ?_, rfl, (Instant.le_since_iff hpast).mp hsilent⟩⟩
  · rw [lastContact?, lastly_concat]
    exact h.lastSeen
  · rw [lastStale?, lastly_concat, hreported]
    rfl

end Step

/-- Every entry of a run remembers what was. The induction is on the run from its end. -/
theorem remembers_after {ops : List Operation} (self : NodeId) (address : String) (capacity : Nat)
    (hsweeps : ∀ op ∈ ops, op.SweepsWith window grace) (horder : Orderly ops)
    (hfind : (after ⟨self, address, capacity, ∅⟩ ops).find? id = some e) :
    Remembers ⟨self, address, capacity, ∅⟩ ops window id e := by
  induction ops using List.reverseRecOn generalizing e with
  | nil => simp [after, find?] at hfind
  | append_singleton ops op ih =>
    have hbefore := fun o ho => hsweeps o (List.mem_append_left _ ho)
    rw [after_concat] at hfind
    rcases perform_cases hfind with
      ⟨hsweep, ⟨hcontact, hold⟩ | ⟨hcontact, hinstant, hstate⟩⟩ |
      ⟨now, w, g, e₀, rfl, hold, hfate, rfl⟩
    · exact (ih hbefore horder.of_concat hold).keep hcontact hsweep
    · exact remembers_contact hcontact hinstant hstate
    · have h := ih hbefore horder.of_concat hold
      obtain ⟨rfl, rfl⟩ := hsweeps _ (List.mem_append_right ops (List.mem_singleton_self _))
      exact h.goesStale (horder.le_last (mem_of_lastly h.lastSeen) rfl) hold hfate

/-! ## A sweep at the end of a run -/

section LastSweep

variable {start : Directory} {ops : List Operation}
  (hd : ∀ id e, d.find? id = some e → Remembers start ops window id e)
  (hpast : ∀ t ∈ ops.filterMap Operation.instant?, t ≤ now)

include hpast in
theorem Remembers.silent_iff (h : Remembers start ops window id e) :
    window ≤ now.since e.lastSeen ↔ e.lastSeen + window ≤ now :=
  Instant.le_since_iff (hpast _ (mem_of_lastly h.lastSeen))

include hpast in
/-- The grace of a stale entry counts from the sweep that made it stale. -/
theorem Remembers.over_iff (h : Remembers start ops window id e) (hstate : e.state = .stale) :
    ∃ t, start.lastStale? ops id = some t ∧ e.lastSeen + window ≤ t ∧
      (grace ≤ now.since e.staleFrom ↔ t + grace ≤ now) := by
  obtain ⟨t, hstale, hsince, hwindow⟩ := h.stale hstate
  have hle := hpast t (mem_of_lastly hstale)
  refine ⟨t, hstale, hwindow, ?_⟩
  rw [Entry.staleFrom, hsince, Option.getD_some, Instant.le_since_iff hle]

include hd hpast

theorem silent_of_stale_mem (hid : .stale id ∈ (d.sweep now window grace).1) :
    ∃ t, start.lastContact? ops id = some t ∧ t + window ≤ now := by
  obtain ⟨e, he, hfate⟩ := stale_mem_sweep_iff.mp hid
  have h := hd id e he
  exact ⟨e.lastSeen, h.lastSeen, (h.silent_iff hpast).mp (Entry.fate_eq_goesStale_iff.mp hfate).2⟩

theorem silent_of_left_mem_of_stale (hid : .left id ∈ (d.sweep now window grace).1)
    (hs : d.stateOf? id = some .stale) :
    ∃ t, start.lastContact? ops id = some t ∧ t + window + grace ≤ now := by
  obtain ⟨e, he, hfate⟩ := left_mem_sweep_iff.mp hid
  have h := hd id e he
  have hstate : e.state = .stale := by simpa [stateOf?, he] using hs
  obtain ⟨t, -, hwindow, hover⟩ := h.over_iff hpast hstate
  obtain ⟨-, hgrace⟩ | ⟨hjoining, -⟩ := Entry.fate_eq_leaves_iff.mp hfate
  · have hsum : e.lastSeen + window + grace ≤ t + grace := Int.add_le_add_right hwindow grace
    exact ⟨e.lastSeen, h.lastSeen, Int.le_trans hsum (hover.mp hgrace)⟩
  · rw [hstate] at hjoining
    cases hjoining

theorem silent_of_left_mem_of_not_stale (hid : .left id ∈ (d.sweep now window grace).1)
    (hs : d.stateOf? id ≠ some .stale) : d.stateOf? id = some .joining ∧
      ∃ t, start.lastContact? ops id = some t ∧ t + window ≤ now := by
  obtain ⟨e, he, hfate⟩ := left_mem_sweep_iff.mp hid
  have h := hd id e he
  have hstate : d.stateOf? id = some e.state := by simp [stateOf?, he]
  rw [hstate] at hs ⊢
  obtain ⟨hstale, -⟩ | ⟨hjoining, hsilent⟩ := Entry.fate_eq_leaves_iff.mp hfate
  · exact absurd (congrArg some hstale) hs
  · exact ⟨congrArg some hjoining, e.lastSeen, h.lastSeen, (h.silent_iff hpast).mp hsilent⟩

/-- What is there after a sweep and not stale was there before it, and not silent for long. -/
theorem heard_of_kept {state : PeerState}
    (hs : (d.sweep now window grace).2.stateOf? id = some state) (hne : state ≠ .stale) :
    ∃ t, start.lastContact? ops id = some t ∧ now < t + window := by
  obtain ⟨e', he', rfl⟩ := Option.map_eq_some_iff.mp hs
  rw [find?_sweep] at he'
  obtain ⟨e, he, hswept⟩ := Option.bind_eq_some_iff.mp he'
  obtain ⟨hfate, rfl⟩ | ⟨-, rfl⟩ := Entry.swept?_eq_some_iff.mp hswept
  · have h := hd id e' he
    have hsilent := (Entry.fate_eq_stays_iff.mp hfate).2 hne
    rw [h.silent_iff hpast] at hsilent
    exact ⟨e'.lastSeen, h.lastSeen, Int.not_le.mp hsilent⟩
  · exact absurd rfl hne

/-- What was stale before a sweep and is still there has not been stale for long. -/
theorem recent_of_kept (hs : d.stateOf? id = some .stale)
    (hkept : (d.sweep now window grace).2.find? id ≠ none) :
    ∃ t, start.lastStale? ops id = some t ∧ now < t + grace := by
  obtain ⟨e, he, hstate⟩ := Option.map_eq_some_iff.mp hs
  obtain ⟨t, hstale, -, hover⟩ := (hd id e he).over_iff hpast hstate
  refine ⟨t, hstale, Int.not_le.mp fun hgrace => hkept ?_⟩
  have hfate : e.fate now window grace = .leaves :=
    Entry.fate_eq_leaves_iff.mpr (.inl ⟨hstate, hover.mpr hgrace⟩)
  rw [find?_sweep, he, Option.bind_some, Entry.swept?, hfate]

end LastSweep

/-- The sweeps of a run are neither early nor late, if its instants do not go back and all of its
sweeps are with one window and grace.

A peer is reported as stale only after a window of silence. A stale one leaves only after the
window and the grace; any other that leaves is joining, and leaves only after the window. What is
connected or joining afterwards has not been silent for a window, and what was stale before has not
been so for the grace. The peers that are reported, each once, are those whose entries changed. -/
theorem sweep_on_time (self : NodeId) (address : String) (capacity : Nat) {start : Directory}
    {ops : List Operation} {T : List Transition} (hstart : start = ⟨self, address, capacity, ∅⟩)
    (hsweeps : ∀ op ∈ ops, op.SweepsWith window grace)
    (horder : Orderly (ops ++ [.sweep now window grace]))
    (hsweep : (start.after ops).sweep now window grace = (T, d')) :
    (∀ id, .stale id ∈ T → ∃ t, start.lastContact? ops id = some t ∧ t + window ≤ now) ∧
      (∀ id, .left id ∈ T → (start.after ops).stateOf? id = some .stale →
        ∃ t, start.lastContact? ops id = some t ∧ t + window + grace ≤ now) ∧
      (∀ id, .left id ∈ T → (start.after ops).stateOf? id ≠ some .stale →
        (start.after ops).stateOf? id = some .joining ∧
          ∃ t, start.lastContact? ops id = some t ∧ t + window ≤ now) ∧
      (∀ id, d'.stateOf? id = some .connected ∨ d'.stateOf? id = some .joining →
        ∃ t, start.lastContact? ops id = some t ∧ now < t + window) ∧
      (∀ id, (start.after ops).stateOf? id = some .stale → d'.find? id ≠ none →
        ∃ t, start.lastStale? ops id = some t ∧ now < t + grace) ∧
      (T.map Transition.nodeId).Nodup ∧
      ∀ id, id ∈ T.map Transition.nodeId ↔ d'.find? id ≠ (start.after ops).find? id := by
  have hremember : ∀ id e, (start.after ops).find? id = some e →
      Remembers start ops window id e := by
    intro id e he
    subst hstart
    exact remembers_after self address capacity hsweeps horder.of_concat he
  have hpast : ∀ t ∈ ops.filterMap Operation.instant?, t ≤ now :=
    fun t ht => horder.le_last ht rfl
  obtain ⟨rfl, rfl⟩ := Prod.mk.inj hsweep
  refine ⟨fun id => silent_of_stale_mem hremember hpast,
    fun id => silent_of_left_mem_of_stale hremember hpast,
    fun id => silent_of_left_mem_of_not_stale hremember hpast, fun id hs => ?_,
    fun id => recent_of_kept hremember hpast, nodup_sweep _ now window grace,
    fun id => mem_map_nodeId_sweep_iff⟩
  rcases hs with hconnected | hjoining
  · exact heard_of_kept hremember hpast hconnected (by simp)
  · exact heard_of_kept hremember hpast hjoining (by simp)

/-- A directory with room for four. -/
def roomy : Directory := ⟨⟨"a"⟩, "a:1", 4, ∅⟩

/-- Of three peers `b` goes stale, `c` never gets beyond joining, and `d` comes later. -/
def threePeers : List Operation :=
  [.takeIn ⟨⟨"b"⟩, "b:1", [], false⟩ false 0, .reserve ⟨⟨"c"⟩, "c:1", false⟩ 5, .hear ⟨"b"⟩ 10,
    .sweep 70 60 30, .enrol ⟨⟨"d"⟩, "d:1", false⟩ 80]

theorem sweep_on_time_threePeers :
    (∃ t, roomy.lastContact? threePeers ⟨"b"⟩ = some t ∧ t + 60 + 30 ≤ 100) ∧
      (∃ t, roomy.lastContact? threePeers ⟨"d"⟩ = some t ∧ 100 < t + 60) ∧
      ((roomy.after threePeers).sweep 100 60 30).2.find? ⟨"d"⟩ =
        (roomy.after threePeers).find? ⟨"d"⟩ := by
  have hsweeps : ∀ op ∈ threePeers, op.SweepsWith 60 30 := by
    simp [threePeers, Operation.SweepsWith]
  have horder : Orderly (threePeers ++ [.sweep 100 60 30]) := by
    unfold Orderly
    decide
  have hsweep : (roomy.after threePeers).sweep 100 60 30 =
      ([.left ⟨"b"⟩], ((roomy.after threePeers).sweep 100 60 30).2) :=
    Prod.ext (by decide +kernel) rfl
  obtain ⟨-, hleft, -, hkept, -, -, hchanged⟩ :=
    sweep_on_time ⟨"a"⟩ "a:1" 4 rfl hsweeps horder hsweep
  refine ⟨hleft ⟨"b"⟩ (by decide) (by decide +kernel), hkept ⟨"d"⟩ (.inl (by decide +kernel)), ?_⟩
  by_contra hne
  exact absurd ((hchanged ⟨"d"⟩).mpr hne) (by decide)

end Directory

end PeerGateway
