import PeerGateway.Proofs.Node.Surroundings
import PeerGateway.Mesh

/-!
# What a node does to its directory

A node changes its directory by operations only : when it receives a message
(`Node.becomes_receive`), when a hole comes to something, in a heartbeat round
(`Node.becomes_heartbeat`) and on a walk (`Walk.becomes_run`). The last two go on while
others act on the node, which they do by operations as well (`Surroundings.Orderly`) : before
each answer arrives, and on a walk between any two accesses to the directory.

So the directory of a node is consistent at all times (`consistent_at_all_times`).
-/

namespace PeerGateway

open Directory

/-! ## Messages and holes -/

namespace Directory.Becomes

variable {d d' : Directory} {now : Instant}

theorem of_reserve {peer : Peer} (h : d.reserve peer now = .ok d') : d.Becomes d' :=
  ⟨[.reserve peer now], by simp [after, Directory.perform, h, Except.toOption]⟩

theorem of_place {peer : Peer} (h : d.place peer .connected now = .ok d') : d.Becomes d' :=
  ⟨[.place peer now], by simp [after, Directory.perform, h, Except.toOption]⟩

theorem of_confirm {id : NodeId} (h : d.confirm id now = .ok d') : d.Becomes d' :=
  ⟨[.confirm id now], by simp [after, Directory.perform, h, Except.toOption]⟩

theorem of_remove {id : NodeId} {peer : Peer} (h : d.remove id = .ok (peer, d')) :
    d.Becomes d' :=
  ⟨[.remove id], by simp [after, Directory.perform, h, Except.map, Except.toOption]⟩

theorem release (d : Directory) (id : NodeId) : d.Becomes (d.release id) :=
  perform d (.release id)

theorem hear (d : Directory) (id : NodeId) (now : Instant) : d.Becomes (d.hear id now).2 :=
  perform d (.hear id now)

theorem sweep (d : Directory) (now : Instant) (window grace : Span) :
    d.Becomes (d.sweep now window grace).2 :=
  perform d (.sweep now window grace)

theorem takeIn (d : Directory) (r : JoinRequest) (await : Bool) (now : Instant) :
    d.Becomes (d.takeIn r await now).2 :=
  perform d (.takeIn r await now)

end Directory.Becomes

namespace Node

variable (n : Node)

theorem becomes_replyToJoin (r : JoinRequest) (port : Option UInt16) (now : Moment) :
    n.directory.Becomes (n.replyToJoin r port now).node.directory := by
  have ht := Becomes.takeIn n.directory r (r.behindNat && n.policy.behindNat) now.steady
  unfold replyToJoin
  dsimp only
  split_ifs
  · cases port with
    | some p => exact ht
    | none => exact ht.trans (.release _ _)
  · exact ht

theorem becomes_receiveLeave (id : NodeId) :
    n.directory.Becomes (n.receiveLeave id).node.directory := by
  unfold receiveLeave
  split
  · rename_i peer d h
    exact .of_remove h
  · exact .refl _

/-- A message changes the directory by operations. -/
theorem becomes_receive (m : Message) (port : Option UInt16) (now : Moment) :
    n.directory.Becomes (n.receive m port now).node.directory := by
  cases m with
  | joinRequest r => exact n.becomes_replyToJoin r port now
  | metrics m => exact .hear _ _ _
  | ping beat => exact .hear _ _ _
  | leave id => exact n.becomes_receiveLeave id
  | joinResponse => exact .refl _
  | pong => exact .refl _

theorem becomes_holeProbed (joiner : NodeId) (now : Instant) :
    n.directory.Becomes (n.holeProbed joiner now).directory := by
  unfold holeProbed
  split
  · rename_i d h
    exact .of_confirm h
  · exact .refl _

theorem becomes_holeFailed (joiner : NodeId) :
    n.directory.Becomes (n.holeFailed joiner).directory :=
  .release _ _

theorem becomes_closeRound (peers : List Peer) (now : Moment) :
    n.directory.Becomes (n.closeRound peers now).1.directory :=
  .sweep _ _ _ _

end Node

/-! ## Heartbeat -/

variable {σ : Type}

namespace Exchange

theorem becomes_ponged (peer : Peer) (sentAt : Instant) (reply : Except NetworkError Message)
    (n : Node) (now : Moment) :
    n.directory.Becomes (ponged peer sentAt reply n now).2.directory := by
  unfold ponged
  split
  · exact .refl _
  · split_ifs
    · exact .hear _ _ _
    · exact .refl _
  · exact .refl _

theorem directory_traded (peer : Peer) (roundTrip : Span) (reply : Except NetworkError Message)
    (n : Node) (now : Moment) :
    (traded peer roundTrip reply n now).2.directory = n.directory := by
  unfold traded
  split
  · rfl
  · dsimp only
    split_ifs <;> rfl
  · rfl

end Exchange

namespace Node

variable {s : Surroundings σ} (hs : s.Orderly)

include hs

theorem becomes_exchange (own : Snapshot) (peer : Peer) (state : σ) :
    (s.directory state).Becomes (s.directory (exchange s own peer state).2) := by
  unfold exchange
  dsimp only
  have hasked := hs.request peer.address (Exchange.ping (s.node state) (s.now state)) state
  have hponged := hasked.trans (Exchange.becomes_ponged peer (s.now state).steady
    (s.request peer.address (Exchange.ping (s.node state) (s.now state)) state).1 _
    (s.now (s.request peer.address (Exchange.ping (s.node state) (s.now state)) state).2))
  rw [← hs.directory_setNode] at hponged
  split
  · exact hponged
  · refine (hponged.trans (hs.request peer.address (.metrics own) _)).trans ?_
    rw [hs.directory_setNode, Exchange.directory_traded]
    exact .refl _

theorem becomes_exchanges (own : Snapshot) (peers : List Peer) (report : RoundReport)
    (state : σ) :
    (s.directory state).Becomes (s.directory (exchanges s own peers report state).2) := by
  induction peers generalizing report state with
  | nil => exact .refl _
  | cons peer peers ih => exact (becomes_exchange hs own peer state).trans (ih _ _)

theorem becomes_forgetAll (addresses : List String) (state : σ) :
    (s.directory state).Becomes (s.directory (forgetAll s addresses state)) := by
  induction addresses generalizing state with
  | nil => exact .refl _
  | cons address addresses ih => exact (hs.forget address state).trans (ih _)

/-- A heartbeat round changes the directory by operations. -/
theorem becomes_heartbeat (state : σ) :
    (s.directory state).Becomes (s.directory (heartbeat s state).2) := by
  unfold heartbeat
  dsimp only
  have hasked := becomes_exchanges hs ((s.node state).load.snapshot (s.now state).wall)
    (s.node state).directory.known {} state
  refine Becomes.trans (Becomes.trans hasked ?_) (becomes_forgetAll hs _ _)
  rw [hs.directory_setNode]
  exact becomes_closeRound _ _ _

end Node

/-! ## Walks -/

namespace Walk

variable {s : Surroundings σ} (hs : s.OrderlyWalk)

theorem becomes_releaseOffered (d : Directory) (c : Candidate) :
    d.Becomes (releaseOffered d c) := by
  unfold releaseOffered
  split
  · exact .release _ _
  · exact .refl _

theorem becomes_reserveOffered {d d' : Directory} {c : Candidate} {now : Instant}
    (h : reserveOffered d c now = .ok d') : d.Becomes d' := by
  unfold reserveOffered at h
  split at h
  · exact .of_reserve h
  · exact Except.ok.inj h ▸ .refl _

include hs

theorem becomes_giveBack (c : Candidate) (state : σ) :
    (s.directory state).Becomes (s.directory (giveBack s c state)) := by
  rw [giveBack, hs.directory_setDirectory]
  exact becomes_releaseOffered _ c

theorem becomes_advanceFrom (candidates : List Candidate) (w : Walk) (state : σ) :
    (s.directory state).Becomes (s.directory (advanceFrom s candidates w state).2) := by
  induction candidates generalizing w state with
  | nil => exact .refl _
  | cons c rest ih =>
    have hidle := hs.meanwhile state
    have hidle' := hidle.trans (hs.meanwhile _)
    have hidle'' := hidle'.trans (hs.meanwhile _)
    unfold advanceFrom
    dsimp only
    split_ifs
    · exact hidle
    · exact hidle'.trans (ih _ _)
    · split
      · rename_i d h
        rw [hs.directory_setDirectory]
        exact hidle''.trans (becomes_reserveOffered h)
      · exact ((hidle''.trans (hs.meanwhile _)).trans (becomes_giveBack hs c _)).trans (ih _ _)

theorem becomes_punchIfAsked (c : Candidate) (r : JoinResponse) (state : σ) :
    (s.directory state).Becomes (s.directory (punchIfAsked s c r state).2) := by
  unfold punchIfAsked
  split
  · exact hs.punch _ _ _
  · exact .refl _

theorem becomes_enrol (peer : Peer) (state : σ) :
    (s.directory state).Becomes (s.directory (enrol s peer state).2) := by
  unfold enrol
  split
  · exact .refl _
  · rename_i placed hplaced
    have hp := Becomes.of_place hplaced
    rw [← hs.directory_setDirectory placed state] at hp
    have hidle := hp.trans (hs.meanwhile _)
    dsimp only
    split
    · exact hidle
    · rename_i d hd
      rw [hs.directory_setDirectory]
      exact hidle.trans (.of_confirm hd)

theorem becomes_giveBackOther (c : Candidate) (id : NodeId) (state : σ) :
    (s.directory state).Becomes (s.directory (giveBackOther s c id state)) := by
  unfold giveBackOther
  split_ifs
  · exact .refl _
  · exact (hs.meanwhile _).trans (becomes_giveBack hs c _)

theorem becomes_accepted (w : Walk) (c : Candidate) (r : JoinResponse) (state : σ) :
    (s.directory state).Becomes (s.directory (w.accepted s c r state).2) := by
  have hpunched := becomes_punchIfAsked hs c r state
  unfold accepted
  dsimp only
  refine Becomes.trans ?_ (becomes_giveBackOther hs c r.nodeId _)
  split
  · exact hpunched.trans (becomes_enrol hs _ _)
  · exact hpunched

theorem becomes_attempt (w : Walk) (c : Candidate) (state : σ) :
    (s.directory state).Becomes (s.directory (w.attempt s c state).2) := by
  refine (hs.request c.address (w.request (s.node state)) state rfl).trans ?_
  unfold attempt answered ask
  dsimp only
  split
  · exact becomes_giveBack hs c _
  · split_ifs
    · exact becomes_accepted hs w c _ _
    · exact becomes_giveBack hs c _
  · exact becomes_giveBack hs c _

/-- A walk changes the directory by operations. -/
theorem becomes_run (limit : ℕ) (w : Walk) (state : σ) :
    (s.directory state).Becomes (s.directory (run s limit w state).2) := by
  induction limit generalizing w state with
  | zero => exact .refl _
  | succ limit ih =>
    have hadv := becomes_advanceFrom hs w.queue w state
    unfold run
    split
    · rename_i outcome state' h
      rwa [← advance, h] at hadv
    · rename_i c w' state' h
      rw [← advance, h] at hadv
      exact (hadv.trans (becomes_attempt hs w' c state')).trans (ih _ _)

end Walk

/-! ## Consistency -/

/-- The directory of a node is consistent at all times : after any operations on an empty
directory, and if it was before, then after any message, after any outcome of a hole, and
after any walk and any heartbeat round, whatever others answer and do meanwhile. -/
theorem consistent_at_all_times :
    (∀ (id : NodeId) (address : String) (capacity : ℕ) (ops : List Operation),
      (after ⟨id, address, capacity, ∅⟩ ops).Consistent) ∧
    (∀ n : Node, n.directory.Consistent →
      (∀ m port now, (n.receive m port now).node.directory.Consistent) ∧
      (∀ m sender port now, (n.receiveFrom m sender port now).node.directory.Consistent) ∧
      (∀ joiner now, (n.holeProbed joiner now).directory.Consistent) ∧
      ∀ joiner, (n.holeFailed joiner).directory.Consistent) ∧
    ∀ {σ : Type} (s : Surroundings σ), s.Orderly → ∀ state, (s.directory state).Consistent →
      (∀ limit seeds, (s.directory ((Walk.ofSeeds seeds).run s limit state).2).Consistent) ∧
      (s.directory (Node.heartbeat s state).2).Consistent := by
  refine ⟨fun id address capacity ops => (consistent_empty id address capacity).after ops,
    fun n hn => ⟨fun m port now => ?_, fun m sender port now => ?_, fun joiner now => ?_,
      fun joiner => ?_⟩,
    fun s hs state hstate => ⟨fun limit seeds => ?_, ?_⟩⟩
  · exact (n.becomes_receive m port now).consistent hn
  · exact (n.becomes_receive _ port now).consistent hn
  · exact (n.becomes_holeProbed joiner now).consistent hn
  · exact (n.becomes_holeFailed joiner).consistent hn
  · exact (Walk.becomes_run hs.orderlyWalk limit _ state).consistent hstate
  · exact (Node.becomes_heartbeat hs state).consistent hstate

/-- Surroundings in which a stranger joins whenever there is room for it, and every address
takes the node in. -/
def crowded : Surroundings Node where
  node n := n
  setNode n _ := n
  now _ := ⟨0, 0⟩
  meanwhile n := n.withDirectory (n.directory.takeIn ⟨⟨"c"⟩, "c:1", [], false⟩ false 0).2
  request _ _ n := (.ok (.joinResponse (.accepted ⟨"b"⟩ "b:1" [])), n)
  notify _ _ n := (.ok (), n)
  forget _ n := n
  punch _ _ n := (.ok (), n)

theorem orderly_crowded : crowded.Orderly where
  node_setNode _ _ := rfl
  meanwhile _ := .takeIn _ _ _ _
  request _ _ _ := .refl _
  punch _ _ _ := .refl _
  forget _ _ := .refl _

/-- A node with room for two peers walks while a stranger joins it. -/
theorem consistent_at_all_times_crowded :
    let n := (Mesh.lone ⟨"a"⟩).withDirectory ⟨⟨"a"⟩, "a:1", 2, ∅⟩
    n.directory.Consistent ∧ crowded.Orderly ∧
      (n.receive (.leave ⟨"b"⟩) none ⟨0, 0⟩).node.directory.Consistent ∧
      (crowded.directory ((Walk.ofSeeds ["b:1"]).run crowded 2 n).2).Consistent := by
  intro n
  have hn : n.directory.Consistent := consistent_empty _ _ _
  exact ⟨hn, orderly_crowded, (consistent_at_all_times.2.1 n hn).1 _ _ _,
    (consistent_at_all_times.2.2 crowded orderly_crowded n hn).1 2 _⟩

end PeerGateway
