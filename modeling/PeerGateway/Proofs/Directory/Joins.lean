import PeerGateway.Proofs.Directory.Link
import PeerGateway.Proofs.Directory.Silence

/-!
# Answers to join requests

A join request is a loop, or there is no room for a new joiner and nobody to give up
(`Directory.HasNoRoomFor`), or the joiner is admitted. `Directory.Admits` is what an admission
changes : the joiner's own entry, and if the directory was full the joiner takes the place of a
peer that has been stale the longest (`Directory.IsOldestStale`).

Every answer but that to a loop offers the first of all other peers that are connected or stale
(`Directory.Offers`). What is offered is read off the directory after the answer, so a peer that was
given up is never offered (`Directory.takeIn_answers`).
-/

namespace PeerGateway

/-! ## The least element of a list -/

section LeastBy

variable {α : Type} {key : α → Int}

theorem leastBy?_eq_none_iff {l : List α} : leastBy? key l = none ↔ l = [] := by
  cases l with
  | nil => simp [leastBy?]
  | cons c rest =>
    unfold leastBy?
    cases leastBy? key rest with
    | none => simp
    | some least =>
      dsimp only
      split_ifs <;> simp

/-- No element has a lesser key. -/
theorem key_le_of_leastBy? {l : List α} {a b : α} (h : leastBy? key l = some a) (hb : b ∈ l) :
    key a ≤ key b := by
  induction l generalizing a with
  | nil => cases hb
  | cons c rest ih =>
    unfold leastBy? at h
    cases hrest : leastBy? key rest with
    | none =>
      obtain rfl := leastBy?_eq_none_iff.mp hrest
      obtain rfl := Option.some.inj h
      obtain rfl := List.mem_singleton.mp hb
      exact Int.le_refl _
    | some least =>
      rw [hrest] at h
      dsimp only at h
      split_ifs at h with hlt <;> obtain rfl := Option.some.inj h <;>
        rcases List.mem_cons.mp hb with rfl | hmem
      · exact Int.le_of_lt hlt
      · exact ih hrest hmem
      · exact Int.le_refl _
      · exact Int.le_trans (Int.not_lt.mp hlt) (ih hrest hmem)

end LeastBy

namespace Entry

/-- A stale entry knows since when it is. -/
theorem ConsistentAt.staleSince_eq {e : Entry} {id : NodeId} (h : e.ConsistentAt id)
    (hstale : e.state = .stale) : e.staleSince = some e.staleFrom := by
  obtain ⟨t, ht⟩ := Option.isSome_iff_exists.mp (h.staleSince.mpr hstale)
  rw [staleFrom, ht, Option.getD_some]

/-- An entry comes before another in what is offered : the connected ones come first, and entries
that are alike in this are in the order of their identifiers. -/
def ComesBefore (a b : Entry) : Prop :=
  a.state = .connected ∧ b.state ≠ .connected ∨
    (a.state = .connected ↔ b.state = .connected) ∧ compare a.peer.nodeId b.peer.nodeId = .lt

end Entry

namespace Directory

variable {d d' : Directory} {id k joiner : NodeId} {e : Entry} {offered : List Peer}

/-! ## What is offered -/

/-- An entry may be offered to a joiner if it is of another peer, which is not joining. -/
def MayOffer (d : Directory) (joiner : NodeId) (e : Entry) : Prop :=
  ∃ id, d.find? id = some e ∧ id ≠ joiner ∧ e.state ≠ .joining

/-- The peers are the first eight of all that may be offered to a joiner, or all of them if there
are not so many. -/
def Offers (d : Directory) (joiner : NodeId) (offered : List Peer) : Prop :=
  ∃ others : List Entry, others.Pairwise Entry.ComesBefore ∧
    (∀ e, e ∈ others ↔ d.MayOffer joiner e) ∧
    offered = (others.take (min 8 others.length)).map Entry.peer

/-- The other peers in a state, by their identifiers. -/
def others (d : Directory) (joiner : NodeId) (state : PeerState) : List Entry :=
  d.list.filter fun e => e.peer.nodeId ≠ joiner && e.state = state

variable {state : PeerState}

theorem Consistent.mem_others (hd : d.Consistent) : e ∈ d.others joiner state ↔
    (∃ id, d.find? id = some e ∧ id ≠ joiner) ∧ e.state = state := by
  simp only [others, List.mem_filter, mem_list, Bool.and_eq_true, decide_eq_true_eq, ← and_assoc]
  refine and_congr_left fun _ => ?_
  constructor
  · rintro ⟨⟨id, he⟩, hne⟩
    exact ⟨id, he, (hd.entry id e he).nodeId ▸ hne⟩
  · rintro ⟨id, he, hne⟩
    exact ⟨⟨id, he⟩, (hd.entry id e he).nodeId.symm ▸ hne⟩

theorem Consistent.pairwise_others (hd : d.Consistent) :
    (d.others joiner state).Pairwise Entry.ComesBefore :=
  (hd.pairwise_list.filter _).imp_of_mem fun ha hb hlt =>
    Or.inr ⟨by rw [(hd.mem_others.mp ha).2, (hd.mem_others.mp hb).2], hlt⟩

/-- What a directory offers are the first of the peers that it may offer. -/
theorem Consistent.offers_alternatives (hd : d.Consistent) (joiner : NodeId) :
    d.Offers joiner (d.alternatives joiner) := by
  refine ⟨d.others joiner .connected ++ d.others joiner .stale, ?_, fun e => ?_, ?_⟩
  · refine List.pairwise_append.mpr ⟨hd.pairwise_others, hd.pairwise_others, fun a ha b hb => ?_⟩
    exact Or.inl ⟨(hd.mem_others.mp ha).2, by simp [(hd.mem_others.mp hb).2]⟩
  · rw [List.mem_append, hd.mem_others, hd.mem_others, MayOffer]
    constructor
    · rintro (⟨⟨id, he, hne⟩, hstate⟩ | ⟨⟨id, he, hne⟩, hstate⟩) <;>
        exact ⟨id, he, hne, by simp [hstate]⟩
    · rintro ⟨id, he, hne, hstate⟩
      cases h : e.state with
      | joining => exact absurd h hstate
      | connected => exact Or.inl ⟨⟨id, he, hne⟩, rfl⟩
      | stale => exact Or.inr ⟨⟨id, he, hne⟩, rfl⟩
  · rw [← List.take_eq_take_min]
    rfl

/-- What is offered does not depend on the joiner's own entry. -/
theorem Offers.of_find? (h : d.Offers joiner offered)
    (hfind : ∀ k ≠ joiner, d'.find? k = d.find? k) : d'.Offers joiner offered := by
  obtain ⟨others, hsorted, hmem, rfl⟩ := h
  refine ⟨others, hsorted, fun e => (hmem e).trans ?_, rfl⟩
  refine exists_congr fun id => ⟨?_, ?_⟩ <;> rintro ⟨he, hne, hstate⟩
  · exact ⟨(hfind id hne).trans he, hne, hstate⟩
  · exact ⟨(hfind id hne).symm.trans he, hne, hstate⟩

/-- Only peers that are there are offered. -/
theorem Offers.find?_ne_none (h : d.Offers joiner offered) (hd : d.Consistent) {p : Peer}
    (hp : p ∈ offered) : d.find? p.nodeId ≠ none := by
  obtain ⟨others, -, hmem, rfl⟩ := h
  obtain ⟨e, he, rfl⟩ := List.mem_map.mp hp
  obtain ⟨id, hfind, -, -⟩ := (hmem e).mp (List.mem_of_mem_take he)
  rw [(hd.entry id e hfind).nodeId]
  exact Option.ne_none_iff_exists'.mpr ⟨e, hfind⟩

/-! ## Who is given up -/

/-- A stale peer of which none has been stale for longer. -/
def IsOldestStale (d : Directory) (id : NodeId) : Prop :=
  ∃ e since, d.find? id = some e ∧ e.state = .stale ∧ e.staleSince = some since ∧
    ∀ k f t, d.find? k = some f → f.staleSince = some t → since ≤ t

theorem Consistent.isOldestStale (hd : d.Consistent) (h : d.oldestStale? = some id) :
    d.IsOldestStale id := by
  obtain ⟨e, hleast, rfl⟩ := Option.map_eq_some_iff.mp h
  obtain ⟨hmem, hstate⟩ := List.mem_filter.mp (mem_of_leastBy? hleast)
  obtain ⟨id, he⟩ := mem_list.mp hmem
  have hat := hd.entry id e he
  have hstale : e.state = .stale := of_decide_eq_true hstate
  refine ⟨e, e.staleFrom, hat.nodeId.symm ▸ he, hstale, hat.staleSince_eq hstale,
    fun k f t hf ht => ?_⟩
  have hother := hd.entry k f hf
  have hfstale : f.state = .stale := hother.staleSince.mp (by simp [ht])
  obtain rfl := Option.some.inj (ht.symm.trans (hother.staleSince_eq hfstale))
  exact key_le_of_leastBy? hleast (List.mem_filter.mpr ⟨mem_list.mpr ⟨k, hf⟩, by simp [hfstale]⟩)

/-- There is nobody to give up exactly if no peer is stale. -/
theorem oldestStale?_eq_none_iff : d.oldestStale? = none ↔ ∀ id, d.stateOf? id ≠ some .stale := by
  rw [oldestStale?, Option.map_eq_none_iff, leastBy?_eq_none_iff, List.filter_eq_nil_iff]
  constructor
  · intro h id hstate
    obtain ⟨e, he, hstale⟩ := Option.map_eq_some_iff.mp hstate
    exact h e (mem_list.mpr ⟨id, he⟩) (decide_eq_true hstale)
  · intro h e hmem hstale
    obtain ⟨id, he⟩ := mem_list.mp hmem
    exact h id (by rw [stateOf?, he, Option.map_some, of_decide_eq_true hstale])

/-! ## Admissions -/

/-- A directory has lost a peer. -/
def Loses (d d' : Directory) (id : NodeId) : Prop := d.find? id ≠ none ∧ d'.find? id = none

/-- There is no room for a joiner that is new, and nobody to give up for it. -/
def HasNoRoomFor (d : Directory) (joiner : NodeId) : Prop :=
  d.find? joiner = none ∧ d.capacity ≤ d.size ∧ ∀ id, d.stateOf? id ≠ some .stale

/-- The entry of a joiner that was let in : at the address that it gave and seen now, connected if
it was before or has not to punch, and joining otherwise. -/
def IsJoined (d : Directory) (r : JoinRequest) (await : Bool) (now : Instant) (e : Entry) : Prop :=
  e.peer.address = r.address ∧ e.lastSeen = now ∧
    e.state = if d.stateOf? r.nodeId = some .connected ∨ await = false then .connected else .joining

/-- What an admission changes. The joiner is there. At most one peer is given up, and one exactly if
the joiner is new and the directory full : one of those that have been stale the longest. All other
entries stay. -/
structure Admits (d d' : Directory) (r : JoinRequest) (await : Bool) (now : Instant) : Prop where
  joiner : ∃ e, d'.find? r.nodeId = some e ∧ d.IsJoined r await now e
  loses_iff : (∃ k, d.Loses d' k) ↔ d.find? r.nodeId = none ∧ d.capacity ≤ d.size
  unique : ∀ k l, d.Loses d' k → d.Loses d' l → k = l
  oldest : ∀ k, d.Loses d' k → d.IsOldestStale k
  others : ∀ k, k ≠ r.nodeId → ¬d.Loses d' k → d'.find? k = d.find? k

section TakeIn

variable {r : JoinRequest} {await : Bool} {now : Instant}

theorem isJoined_rejoined (hknown : d.find? r.nodeId = some e) :
    d.IsJoined r await now (rejoined e r (joinerState await) now) := by
  refine ⟨address_rejoined r, lastSeen_rejoined, ?_⟩
  rw [state_rejoined, stateOf?, hknown, Option.map_some]
  cases await <;> simp [joinerState]

theorem isJoined_newcomer (hnew : d.find? r.nodeId = none) :
    d.IsJoined r await now (newcomer r await now) := by
  refine ⟨rfl, rfl, ?_⟩
  rw [stateOf?_eq_none_iff.mpr hnew]
  cases await <;> simp [newcomer, Entry.fresh, joinerState]

/-- An admission for which nobody has to be given up. -/
theorem Admits.of_put (hjoined : d.IsJoined r await now e)
    (hroom : d.find? r.nodeId = none → d.size < d.capacity) :
    d.Admits (d.put r.nodeId e) r await now := by
  have hothers : ∀ k, k ≠ r.nodeId → (d.put r.nodeId e).find? k = d.find? k := fun k hk => by
    rw [find?_put, if_neg (Ne.symm hk)]
  have hspared : ∀ k, ¬d.Loses (d.put r.nodeId e) k := by
    rintro k ⟨hknown, hgone⟩
    by_cases hk : k = r.nodeId
    · rw [hk, find?_put, if_pos rfl] at hgone
      cases hgone
    · exact hknown (hothers k hk ▸ hgone)
  refine ⟨⟨e, by rw [find?_put, if_pos rfl], hjoined⟩, ?_, fun k _ hk => absurd hk (hspared k),
    fun k hk => absurd hk (hspared k), fun k hk _ => hothers k hk⟩
  refine iff_of_false (fun ⟨k, hk⟩ => hspared k hk) ?_
  rintro ⟨hnew, hfull⟩
  exact absurd (hroom hnew) (Nat.not_lt.mpr hfull)

/-- An admission of a new joiner in the place of a peer that has been stale the longest. -/
theorem Admits.of_drop {victim : NodeId} (hnew : d.find? r.nodeId = none)
    (hfull : d.capacity ≤ d.size) (hvictim : d.IsOldestStale victim) :
    d.Admits ((d.drop victim).put r.nodeId (newcomer r await now)) r await now := by
  have hknown : d.find? victim ≠ none := by
    obtain ⟨e, since, he, -⟩ := hvictim
    exact Option.ne_none_iff_exists'.mpr ⟨e, he⟩
  have hne : victim ≠ r.nodeId := by
    rintro rfl
    exact hknown hnew
  have hloses : ∀ k, d.Loses ((d.drop victim).put r.nodeId (newcomer r await now)) k ↔
      k = victim := by
    intro k
    rw [Loses, find?_put, find?_drop]
    constructor
    · rintro ⟨hk, hgone⟩
      split_ifs at hgone with hjoiner hgiven
      · exact hgiven.symm
      · exact absurd hgone hk
    · rintro rfl
      rw [if_neg (Ne.symm hne), if_pos rfl]
      exact ⟨hknown, rfl⟩
  refine ⟨⟨newcomer r await now, by rw [find?_put, if_pos rfl], isJoined_newcomer hnew⟩, ?_,
    fun k l hk hl => ?_, fun k hk => ?_, fun k hk hkept => ?_⟩
  · exact iff_of_true ⟨victim, (hloses victim).mpr rfl⟩ ⟨hnew, hfull⟩
  · rw [(hloses k).mp hk, (hloses l).mp hl]
  · exact (hloses k).mp hk ▸ hvictim
  · rw [find?_put, if_neg (Ne.symm hk), find?_drop, if_neg]
    rintro rfl
    exact hkept ((hloses _).mpr rfl)

/-! ## Answers -/

/-- The request has been here before, or is the node's own. -/
def Loops (d : Directory) (r : JoinRequest) : Prop := r.nodeId = d.localId ∨ d.localId ∈ r.visited

theorem loops_iff : d.Loops r ↔ r.loopsAt d.localId = true := by
  rw [JoinRequest.loopsAt_iff, Loops, or_comm]

/-- How a join request is answered, and the directory after it. -/
inductive Answered (d : Directory) (r : JoinRequest) (await : Bool) (now : Instant) :
    JoinResponse → Directory → Prop
  | loop (hloops : d.Loops r) : Answered d r await now (d.reject .networkJoinLoop []) d
  | noRoom (hloops : ¬d.Loops r) (hroom : d.HasNoRoomFor r.nodeId) {offered : List Peer}
    (hoffers : d.Offers r.nodeId offered) :
    Answered d r await now (d.reject .networkFull offered) d
  | admitted (hloops : ¬d.Loops r) (hroom : ¬d.HasNoRoomFor r.nodeId) {d' : Directory}
    (hadmits : d.Admits d' r await now) {offered : List Peer}
    (hoffers : d'.Offers r.nodeId offered) : Answered d r await now (d.accept offered) d'

/-- Every request is answered in one of the ways. -/
theorem Consistent.answered (hd : d.Consistent) (r : JoinRequest) (await : Bool) (now : Instant) :
    d.Answered r await now (d.takeIn r await now).1 (d.takeIn r await now).2 := by
  have hnot : r.loopsAt d.localId = false → ¬d.Loops r := fun h => by
    rw [loops_iff, h]
    exact Bool.false_ne_true
  rcases takeIn_cases d r await now with ⟨hl, heq⟩ | ⟨e, d', hl, he, rfl, heq⟩ |
    ⟨hl, hnew, hfull, hnone, heq⟩ | ⟨victim, hl, hnew, hfull, hvictim, heq⟩ |
    ⟨hl, hnew, hroom, heq⟩ <;> rw [heq]
  · exact .loop (loops_iff.mpr hl)
  · have hknown : d.find? r.nodeId ≠ none := Option.ne_none_iff_exists'.mpr ⟨e, he⟩
    have hrefreshed : (d.put r.nodeId (rejoined e r (joinerState await) now)).Consistent :=
      hd.replace he ((hd.entry _ _ he).rejoined r)
    exact .admitted (hnot hl) (fun h => hknown h.1)
      (.of_put (isJoined_rejoined he) fun hnew => absurd hnew hknown)
      (hrefreshed.offers_alternatives r.nodeId)
  · exact .noRoom (hnot hl) ⟨hnew, of_decide_eq_true hfull, oldestStale?_eq_none_iff.mp hnone⟩
      (hd.offers_alternatives r.nodeId)
  · have hoffers : ((d.drop victim).put r.nodeId (newcomer r await now)).Offers r.nodeId _ :=
      ((hd.drop victim).offers_alternatives r.nodeId).of_find? fun k hk => by
        rw [find?_put, if_neg (Ne.symm hk)]
    refine .admitted (hnot hl) (fun h => ?_)
      (.of_drop hnew (of_decide_eq_true hfull) (hd.isOldestStale hvictim)) hoffers
    rw [oldestStale?_eq_none_iff.mpr h.2.2] at hvictim
    cases hvictim
  · have hsize : d.size < d.capacity := isFull_eq_false_iff.mp hroom
    have hoffers : (d.put r.nodeId (newcomer r await now)).Offers r.nodeId _ :=
      (hd.offers_alternatives r.nodeId).of_find? fun k hk => by
        rw [find?_put, if_neg (Ne.symm hk)]
    exact .admitted (hnot hl) (fun h => absurd h.2.1 (Nat.not_le.mpr hsize))
      (.of_put (isJoined_newcomer hnew) fun _ => hsize) hoffers

/-- A join request is answered with a loop and no offer exactly if it is one, is refused for want of
room exactly if the joiner is new, the directory full and nobody stale, and is accepted otherwise.
A request that is turned away changes nothing, and an accepted one what `Admits` says. The answer
offers the first of the other peers that are there after it, and so none that was given up. -/
theorem takeIn_answers (hd : d.Consistent) {answer : JoinResponse}
    (htaken : d.takeIn r await now = (answer, d')) :
    (answer.error = some .networkJoinLoop ↔ d.Loops r) ∧
    (d.Loops r → answer = d.reject .networkJoinLoop []) ∧
    (answer.error = some .networkFull ↔ ¬d.Loops r ∧ d.HasNoRoomFor r.nodeId) ∧
    (answer.success = true ↔ ¬d.Loops r ∧ ¬d.HasNoRoomFor r.nodeId) ∧
    (answer.success = true ↔ answer.error = none) ∧
    (answer.success = false → d' = d) ∧
    (answer.success = true → d.Admits d' r await now) ∧
    (¬d.Loops r → d'.Offers r.nodeId answer.alternatives) ∧
    ∀ k, d.Loses d' k → k ∉ answer.alternatives.map Peer.nodeId := by
  have hanswered : d.Answered r await now answer d' := by
    simpa only [htaken] using hd.answered r await now
  have hd' : d'.Consistent := by
    simpa only [htaken] using hd.takeIn r await now
  have hkept : ∀ k, ¬d.Loses d k := fun k hk => hk.1 hk.2
  cases hanswered with
  | loop hloops =>
    refine ⟨iff_of_true rfl hloops, fun _ => rfl, iff_of_false nofun fun h => h.1 hloops,
      iff_of_false nofun fun h => h.1 hloops, iff_of_false nofun nofun, fun _ => rfl, nofun,
      fun h => absurd hloops h, fun k hk => absurd hk (hkept k)⟩
  | noRoom hloops hroom hoffers =>
    refine ⟨iff_of_false nofun hloops, fun h => absurd h hloops, iff_of_true rfl ⟨hloops, hroom⟩,
      iff_of_false nofun fun h => h.2 hroom, iff_of_false nofun nofun, fun _ => rfl, nofun,
      fun _ => hoffers, fun k hk => absurd hk (hkept k)⟩
  | admitted hloops hroom hadmits hoffers =>
    refine ⟨iff_of_false nofun hloops, fun h => absurd h hloops,
      iff_of_false nofun fun h => hroom h.2, iff_of_true rfl ⟨hloops, hroom⟩, iff_of_true rfl rfl,
      nofun, fun _ => hadmits, fun _ => hoffers, fun k hk hmem => ?_⟩
    obtain ⟨p, hp, rfl⟩ := List.mem_map.mp hmem
    exact hoffers.find?_ne_none hd' hp hk.2

/-- A full directory in which `c` has been stale for longer than `b`. -/
def twoStale : Directory :=
  after ⟨⟨"n"⟩, "n:1", 3, ∅⟩ [.takeIn ⟨⟨"c"⟩, "c:1", [], false⟩ false 0,
    .takeIn ⟨⟨"b"⟩, "b:1", [], false⟩ false 10, .sweep 60 60 120, .sweep 70 60 120,
    .takeIn ⟨⟨"a"⟩, "a:1", [], false⟩ false 80]

/-- A joiner that has to punch takes the place of `c`, and is offered the two others. -/
theorem takeIn_answers_twoStale :
    let r : JoinRequest := ⟨⟨"j"⟩, "j:1", [], true⟩
    let answer := (twoStale.takeIn r true 90).1
    let d' := (twoStale.takeIn r true 90).2
    twoStale.Consistent ∧ answer.success = true ∧ twoStale.Loses d' ⟨"c"⟩ ∧
      twoStale.IsOldestStale ⟨"c"⟩ ∧ d'.Offers ⟨"j"⟩ answer.alternatives ∧
      answer.alternatives.map Peer.nodeId = [⟨"a"⟩, ⟨"b"⟩] ∧ d'.stateOf? ⟨"j"⟩ = some .joining := by
  intro r answer d'
  have hd : twoStale.Consistent := (consistent_empty _ _ _).after _
  have htaken : twoStale.takeIn r true 90 = (answer, d') := rfl
  obtain ⟨-, -, -, hsuccess, -, -, hadmits, hoffers, -⟩ := takeIn_answers hd htaken
  have haccepted : answer.success = true := by decide +kernel
  have hlost : twoStale.Loses d' ⟨"c"⟩ := by
    refine ⟨?_, ?_⟩ <;> decide +kernel
  exact ⟨hd, haccepted, hlost, (hadmits haccepted).oldest _ hlost,
    hoffers (hsuccess.mp haccepted).1, by decide +kernel, by decide +kernel⟩

end TakeIn

end Directory

end PeerGateway
