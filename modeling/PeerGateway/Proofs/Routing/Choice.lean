import PeerGateway.Proofs.Load.Requests
import PeerGateway.Proofs.Routing.Ranking
import PeerGateway.Proofs.Text.Order
import Mathlib.Data.List.Sort

/-!
# The choice of a peer

The ranking has one specification (`Directory.IsRanking`), which is about the states of the peers
and their scores only, and one list fulfils it (`Directory.Consistent.isRanking_iff`). So what led
to a directory and to a record of load has no part in it (`History.SameEnd.ranked_eq`). Its order
is strict : a total before another in the order of all words, or the same total under an identifier
whose bytes come first (`Ranked.order_eq_lt_iff`).

A node selects the head of the ranking (`Directory.select_eq_peer_iff`), and forwards to it what no
peer sent, if that peer has told an address and scores better by more than the threshold
(`Directory.route_eq_forward_iff`).
-/

namespace PeerGateway

/-! ## The order of all words -/

namespace Binary64

variable {x y : Binary64}

/-- Before another in the order of all words : those with a sign before those without, of those
with a sign the greater magnitudes first and of those without the lesser ones. -/
def Precedes (x y : Binary64) : Prop :=
  (x.negative = true ∧ y.negative = false) ∨
    (x.negative = true ∧ y.negative = true ∧ y.magnitude < x.magnitude) ∨
    (x.negative = false ∧ y.negative = false ∧ x.magnitude < y.magnitude)

instance (x y : Binary64) : Decidable (x.Precedes y) :=
  inferInstanceAs (Decidable (_ ∨ _ ∨ _))

theorem totalCompare_eq_lt_iff : x.totalCompare y = .lt ↔ x.Precedes y := by
  rw [totalCompare, compare_lt_iff_lt, orderKey, orderKey, Precedes]
  cases x.negative <;> cases y.negative <;>
    simp only [Bool.false_eq_true, Bool.true_eq_false, if_true, if_false, true_and, false_and,
      or_false, false_or, iff_true, iff_false]
  all_goals omega

/-- A word is its sign and its magnitude. -/
theorem eq_of_magnitude_eq (hsign : x.negative = y.negative) (h : x.magnitude = y.magnitude) :
    x = y := by
  have hx := x.bits.toNat_lt
  have hy := y.bits.toNat_lt
  simp only [negative, decide_eq_decide] at hsign
  simp only [magnitude] at h
  unfold signWeight at hsign h
  have hbits : x.bits.toNat = y.bits.toNat := by omega
  cases x
  cases y
  exact congrArg Binary64.mk (UInt64.toNat_inj.mp hbits)

/-- No two words share a place in the order. -/
theorem totalCompare_eq_eq_iff : x.totalCompare y = .eq ↔ x = y := by
  refine ⟨fun h => ?_, fun h => h ▸ compare_eq_iff_eq.mpr rfl⟩
  have hkey : x.orderKey = y.orderKey := compare_eq_iff_eq.mp h
  unfold orderKey at hkey
  split_ifs at hkey with hx hy hy
  · exact eq_of_magnitude_eq (hx.trans hy.symm) (by omega)
  · omega
  · omega
  · refine eq_of_magnitude_eq ?_ (by omega)
    rw [Bool.eq_false_of_not_eq_true hx, Bool.eq_false_of_not_eq_true hy]

end Binary64

/-! ## The order of the ranking -/

namespace Ranked

variable {a b : NodeId × Score}

/-- Before another in the ranking : by the total, then by the bytes of the identifier. -/
def Before (a b : NodeId × Score) : Prop :=
  a.2.total.Precedes b.2.total ∨
    (a.2.total = b.2.total ∧ Bytes.ofString a.1.text < Bytes.ofString b.1.text)

theorem order_eq_lt_iff : order a b = .lt ↔ Before a b := by
  show (a.2.total.totalCompare b.2.total).then (compare a.1 b.1) = .lt ↔ _
  rw [Ordering.then_eq_lt, Binary64.totalCompare_eq_lt_iff, Binary64.totalCompare_eq_eq_iff,
    NodeId.compare_eq_lt_iff]
  rfl

instance : Std.Asymm Before where
  asymm a b h h' := by
    rw [← order_eq_lt_iff] at h h'
    have hswap : order b a = (order a b).swap := Std.OrientedCmp.eq_swap
    rw [hswap, h] at h'
    exact absurd h' (by decide)

theorem before_of_precedes (h : precedes a b = true) (hne : a.1 ≠ b.1) : Before a b := by
  rw [precedes_eq] at h
  rw [← order_eq_lt_iff]
  refine (Ordering.isLE_iff_eq_lt_or_eq_eq.mp h).resolve_right fun heq => hne ?_
  exact Std.LawfulEqOrd.eq_of_compare (Ordering.then_eq_eq.mp heq).2

end Ranked

namespace Directory

variable {d d' : Directory} {c c' : LoadRecord} {id : NodeId} {l : List (NodeId × Score)}

/-- A list of exactly the connected peers with their scores, each once and never the node itself,
in the order of the ranking. -/
structure IsRanking (d : Directory) (c : LoadRecord) (l : List (NodeId × Score)) : Prop where
  mem_iff : ∀ id score,
    (id, score) ∈ l ↔ d.stateOf? id = some .connected ∧ score = c.scoreOf id
  nodup : (l.map Prod.fst).Nodup
  localId_notMem : d.localId ∉ l.map Prod.fst
  ascending : l.Pairwise Ranked.Before

theorem IsRanking.unique {l' : List (NodeId × Score)} (h : d.IsRanking c l)
    (h' : d.IsRanking c l') : l = l' :=
  h.ascending.eq_of_mem_iff h'.ascending fun e =>
    (h.mem_iff e.1 e.2).trans (h'.mem_iff e.1 e.2).symm

theorem Consistent.nodup_ranked (hd : d.Consistent) : ((ranked d c).map Prod.fst).Nodup :=
  perm_ranked.nodup_iff.mpr ((hd.nodup_filter_list _).filter _)

theorem Consistent.isRanking_ranked (hd : d.Consistent) : d.IsRanking c (ranked d c) := by
  have hnodup := hd.nodup_ranked (c := c)
  refine ⟨fun id score => ⟨fun hmem => ?_, ?_⟩, hnodup, fun hmem => ?_, ?_⟩
  · exact ⟨hd.mem_ranked_iff.mp (List.mem_map_of_mem hmem), snd_of_mem_ranked hmem⟩
  · rintro ⟨hstate, rfl⟩
    exact mem_ranked_of_isCandidate (mem_ranked.mp (hd.mem_ranked_iff (c := c).mpr hstate))
  · exact (mem_ranked.mp hmem).2 rfl
  · exact (pairwise_ranked.and (List.pairwise_map.mp hnodup)).imp fun h =>
      Ranked.before_of_precedes h.1 h.2

theorem Consistent.isRanking_iff (hd : d.Consistent) : d.IsRanking c l ↔ l = ranked d c :=
  ⟨fun h => h.unique hd.isRanking_ranked, fun h => h ▸ hd.isRanking_ranked⟩

/-- The ranking depends on nothing but the states of the peers and their scores. -/
theorem IsRanking.congr (h : d.IsRanking c l) (hd' : d'.Consistent)
    (hstate : ∀ id, d'.stateOf? id = d.stateOf? id) (hscore : ∀ id, c'.scoreOf id = c.scoreOf id) :
    d'.IsRanking c' l where
  mem_iff id score := by rw [hstate, hscore, h.mem_iff]
  nodup := h.nodup
  localId_notMem hmem := by
    obtain ⟨e, he, hid⟩ := List.mem_map.mp hmem
    have hconnected := ((h.mem_iff e.1 e.2).mp he).1
    rw [hid, ← hstate, stateOf?_eq_none_iff.mpr hd'.localId_absent] at hconnected
    exact absurd hconnected nofun
  ascending := h.ascending

/-! ## The choice -/

theorem select_eq_peer_iff : select d c = .peer id ↔ (ranked d c).head?.map Prod.fst = some id := by
  unfold select
  cases (ranked d c).head? with
  | none => exact iff_of_false nofun nofun
  | some e =>
    rw [Option.map_some, Option.some_inj]
    exact Selection.peer.injEq _ _ ▸ Iff.rfl

theorem Consistent.select_eq_here_iff (hd : d.Consistent) :
    select d c = .here ↔ ∀ id, d.stateOf? id ≠ some .connected := by
  constructor
  · intro h id hstate
    have hmem := hd.mem_ranked_iff (c := c).mpr hstate
    unfold select at h
    split at h
    · exact absurd h nofun
    · rename_i hhead
      rw [List.head?_eq_none_iff.mp hhead] at hmem
      exact absurd hmem List.not_mem_nil
  · intro hnone
    cases hselect : select d c with
    | here => rfl
    | peer id => exact absurd (hd.stateOf?_of_select hselect) (hnone id)

/-- A request is forwarded if no peer sent it, to the head of the ranking and the address it has
told, if that one scores better than the node itself by more than the threshold. -/
theorem route_eq_forward_iff {rule : RelayRule} {fromPeer : Bool} {now : WallTime} {a : String} :
    rule.route d c fromPeer now = .forward id a ↔ fromPeer = false ∧
      (ranked d c).head? = some (id, c.scoreOf id) ∧
      ((c.ownScore now).total - (c.scoreOf id).total).le rule.threshold = false ∧
      ∃ m, c.snapshotOf? id = some m ∧ m.address = a ∧ a ≠ "" := by
  cases fromPeer with
  | true => exact iff_of_false nofun fun h => absurd h.1 nofun
  | false =>
    cases hhead : (ranked d c).head? with
    | none =>
      refine iff_of_false ?_ fun h => absurd h.2.1 nofun
      simp [RelayRule.route, hhead]
    | some e =>
      obtain ⟨k, best⟩ := e
      obtain rfl : best = c.scoreOf k := snd_of_mem_ranked (List.mem_of_mem_head? hhead)
      unfold RelayRule.route
      rw [if_neg Bool.false_ne_true, hhead]
      dsimp only
      constructor
      · intro h
        split_ifs at h with hle
        cases hm : c.snapshotOf? k with
        | none =>
          rw [hm] at h
          exact absurd h nofun
        | some m =>
          rw [hm] at h
          dsimp only at h
          split_ifs at h with hempty
          obtain ⟨rfl, rfl⟩ := Route.forward.inj h
          exact ⟨rfl, rfl, Bool.eq_false_of_not_eq_true hle, m, hm, rfl,
            fun heq => hempty (String.isEmpty_iff.mpr heq)⟩
      · rintro ⟨-, hid, hle, m, hm, rfl, hne⟩
        obtain ⟨rfl, -⟩ := Prod.mk.inj (Option.some.inj hid)
        rw [hle, if_neg Bool.false_ne_true, hm]
        exact if_neg fun hempty => hne (String.isEmpty_iff.mp hempty)

end Directory

/-! ## Histories -/

/-- What was done to the directory of a node and to its record of load. -/
structure History where
  localId : NodeId
  localAddress : String
  capacity : ℕ
  operations : List Directory.Operation
  /-- The record before the events. -/
  record : LoadRecord
  events : List LoadRecord.Event

namespace History

def directory (h : History) : Directory :=
  Directory.after ⟨h.localId, h.localAddress, h.capacity, ∅⟩ h.operations

def load (h : History) : LoadRecord := h.record.run h.events

theorem consistent_directory (h : History) : h.directory.Consistent :=
  (Directory.consistent_empty _ _ _).after _

/-- Two histories weigh loads in the same way, and end in the same entries, snapshots and round
trips. -/
structure SameEnd (h h' : History) : Prop where
  weights : h'.record.weights = h.record.weights
  entries : ∀ id, h'.directory.find? id = h.directory.find? id
  snapshots : ∀ id, h'.load.snapshotOf? id = h.load.snapshotOf? id
  latencies : ∀ id, h'.load.latencyOf? id = h.load.latencyOf? id

theorem SameEnd.scoreOf {h h' : History} (hend : h.SameEnd h') (id : NodeId) :
    h'.load.scoreOf id = h.load.scoreOf id := by
  have hweights : h'.load.weights = h.load.weights := by
    rw [load, load, (h'.record.sameNode_run _).weights, (h.record.sameNode_run _).weights,
      hend.weights]
  rw [LoadRecord.scoreOf, LoadRecord.scoreOf, hend.snapshots, hend.latencies, hweights]

theorem SameEnd.ranked_eq {h h' : History} (hend : h.SameEnd h') :
    ranked h'.directory h'.load = ranked h.directory h.load := by
  have hranking := h.consistent_directory.isRanking_ranked (c := h.load)
  refine (h'.consistent_directory.isRanking_iff.mp ?_).symm
  refine hranking.congr h'.consistent_directory (fun id => ?_) hend.scoreOf
  rw [Directory.stateOf?, hend.entries, Directory.stateOf?]

/-- Whatever was done to the directory of a node and to its record of load, there is one ranking of
its peers, and two histories with the same end have the same one. The node selects the head of it,
and serves requests itself exactly if no peer is connected. It forwards a request to the head of it
only, at the address that peer has told, and only what no peer has sent. -/
theorem chooses_head (h : History) :
    (∀ l, h.directory.IsRanking h.load l ↔ l = ranked h.directory h.load) ∧
    (∀ h' : History, h.SameEnd h' →
      ranked h'.directory h'.load = ranked h.directory h.load) ∧
    (∀ id, select h.directory h.load = .peer id ↔
      (ranked h.directory h.load).head?.map Prod.fst = some id) ∧
    (select h.directory h.load = .here ↔ ∀ id, h.directory.stateOf? id ≠ some .connected) ∧
    ∀ (rule : RelayRule) (fromPeer : Bool) (now : WallTime) (id : NodeId) (a : String),
      rule.route h.directory h.load fromPeer now = .forward id a ↔ fromPeer = false ∧
        (ranked h.directory h.load).head? = some (id, h.load.scoreOf id) ∧
        ((h.load.ownScore now).total - (h.load.scoreOf id).total).le rule.threshold = false ∧
        ∃ m, h.load.snapshotOf? id = some m ∧ m.address = a ∧ a ≠ "" :=
  ⟨fun _ => h.consistent_directory.isRanking_iff, fun _ => SameEnd.ranked_eq,
    fun _ => Directory.select_eq_peer_iff, h.consistent_directory.select_eq_here_iff,
    fun _ _ _ _ _ => Directory.route_eq_forward_iff⟩

/-- Two peers join and tell of their load, which weighs no number, in one order or the other. -/
def tied (ids : List NodeId) : History where
  localId := ⟨"n"⟩
  localAddress := "n:7400"
  capacity := 8
  operations := ids.map fun id => .takeIn ⟨id, id.text, [], false⟩ false 0
  record :=
    { nodeId := ⟨"n"⟩, address := "n:8080", window := 1, weights := ⟨⟨0x7FF8000000000000⟩, 0, 0, 0⟩,
      host := ⟨0, 0⟩ }
  events := ids.map fun id => .update ⟨id, id.text, 1, 0, 0, 0, 0, 0, 0⟩ 0 0

/-- Of two equal totals that are no numbers, the identifier decides, whoever came first. -/
theorem chooses_head_tied :
    let h := tied [⟨"b"⟩, ⟨"a"⟩]
    let h' := tied [⟨"a"⟩, ⟨"b"⟩]
    (h.load.scoreOf ⟨"a"⟩).total.isNaN = true ∧
    ranked h.directory h.load =
      [(⟨"a"⟩, h.load.scoreOf ⟨"a"⟩), (⟨"b"⟩, h.load.scoreOf ⟨"b"⟩)] ∧
    ranked h'.directory h'.load = ranked h.directory h.load := by
  intro h h'
  have hentries : h'.directory.entries = h.directory.entries :=
    Std.ExtTreeMap.ext_toList (by decide +kernel)
  have hsnapshots : h'.load.snapshots = h.load.snapshots :=
    Std.ExtTreeMap.ext_toList (by decide +kernel)
  have hlatencies : h'.load.latencies = h.load.latencies :=
    Std.ExtTreeMap.ext_toList (by decide +kernel)
  have hend : h.SameEnd h' := ⟨rfl, fun id => congrArg (·[id]?) hentries,
    fun id => congrArg (·[id]?) hsnapshots, fun id => congrArg (·[id]?) hlatencies⟩
  have hranking : h.directory.IsRanking h.load
      [(⟨"a"⟩, h.load.scoreOf ⟨"a"⟩), (⟨"b"⟩, h.load.scoreOf ⟨"b"⟩)] := by
    have hconnected : h.directory.connected.map Peer.nodeId = [⟨"a"⟩, ⟨"b"⟩] := by decide +kernel
    refine ⟨fun id score => ?_, by decide, by decide, ?_⟩
    · rw [← h.consistent_directory.mem_connected_iff, hconnected]
      simp only [List.mem_cons, List.not_mem_nil, or_false, Prod.mk.injEq, or_and_right]
      refine or_congr (and_congr_right fun hid => ?_) (and_congr_right fun hid => ?_) <;> rw [hid]
    · refine List.pairwise_pair.mpr (Or.inr ⟨?_, ?_⟩) <;> decide +kernel
  obtain ⟨hunique, hsame, -⟩ := chooses_head h
  exact ⟨by decide +kernel, ((hunique _).mp hranking).symm, hsame h' hend⟩

end History

end PeerGateway
