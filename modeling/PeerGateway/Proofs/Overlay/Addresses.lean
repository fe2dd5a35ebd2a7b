import PeerGateway.Proofs.Address.Text
import PeerGateway.Proofs.Node.Addresses

/-!
# Addresses in an overlay

Addresses go round in an overlay : from join requests into directories, from there into answers,
from answers into the walks that hear them, and from walks into other directories.
`Overlay.Within` says of all these places at once that the addresses there have a property, and
`Overlay.Event.Brings` that those which an event brings from outside have it, a seed or the address
of a join request as it arrives. `Overlay.Within.step` is the step, with one lemma for each kind of
move of a walk (`Errand.Within.act`, `hear`, `punched`), and `Overlay.Within.after` the induction
over a run.

A wildcard is pinned to the host of its sender before a request is looked at (`isWildcard_pinned`).
So an overlay that starts with empty directories and with seeds that are no wildcards never holds
or offers one (`Overlay.no_wildcard`).
-/

namespace PeerGateway

variable {P : String → Prop}

/-! ## Walks -/

variable (P) in
/-- The addresses of all candidates that are left have a property. -/
def Walk.Within (w : Walk) : Prop := ∀ c ∈ w.queue, P c.address

namespace Walk.Within

variable {w : Walk} {c : Candidate} {r : JoinResponse}

theorem enqueue (h : w.Within P) (hr : r.Within P) : (w.enqueue r).Within P := by
  intro c hc
  rcases List.mem_append.mp hc with hc | hc
  · exact h c hc
  · obtain ⟨p, hp, rfl⟩ := List.mem_map.mp hc
    exact hr p hp

/-- An answer that turns the node away is at most followed by the peers that it offers. -/
theorem refused (h : w.Within P) (hr : r.Within P) : (w.refused c r).Within P := by
  have hvisited : (w.visit r.nodeId).Within P := h
  unfold Walk.refused
  split
  · exact hvisited.enqueue hr
  · exact hvisited.enqueue hr
  · exact h
  · exact h

end Walk.Within

namespace Directory.Within

variable {d d' : Directory} {c : Candidate} {now : Instant}

theorem reserveOffered (h : d.Within P) (hc : P c.address)
    (hreserve : Walk.reserveOffered d c now = .ok d') : d'.Within P := by
  unfold Walk.reserveOffered at hreserve
  split at hreserve
  · exact h.place hc hreserve
  · exact Except.ok.inj hreserve ▸ h

theorem releaseOffered (h : d.Within P) : (Walk.releaseOffered d c).Within P := by
  unfold Walk.releaseOffered
  split
  · exact h.release
  · exact h

end Directory.Within

namespace Errand

variable (P) in
/-- All addresses that a walk holds have a property : of the candidates that are left, of the one
that it is at, and of the peers that the answer which it is at offers. -/
def Within : Errand → Prop
  | .looks w => w.Within P
  | .weighs w c => w.Within P ∧ P c.address
  | .reserves w c => w.Within P ∧ P c.address
  | .asks w c => w.Within P ∧ P c.address
  | .givesBack w c => w.Within P ∧ P c.address
  | .punches w c r _ => w.Within P ∧ P c.address ∧ r.Within P
  | .places w c r => w.Within P ∧ P c.address ∧ r.Within P
  | .confirms w c r => w.Within P ∧ P c.address ∧ r.Within P
  | .parts w c r => w.Within P ∧ P c.address ∧ r.Within P
  | .finished _ => True

namespace Within

variable {e : Errand} {d : Directory}

theorem ofSeeds {seeds : List String} (h : ∀ a ∈ seeds, P a) : (Errand.ofSeeds seeds).Within P := by
  intro c hc
  obtain ⟨a, ha, rfl⟩ := List.mem_map.mp hc
  exact h a ha

/-- A move of a walk places peers at addresses that it holds. -/
theorem act (h : e.Within P) (hd : d.Within P) (now : Instant) :
    (e.act d now).1.Within P ∧ ∀ d' ∈ (e.act d now).2, d'.Within P := by
  cases e with
  | looks w =>
    unfold Errand.act
    dsimp only
    split
    · exact ⟨trivial, nofun⟩
    · rename_i c rest hqueue
      have hall : ∀ c' ∈ c :: rest, P c'.address := hqueue ▸ h
      split_ifs
      · exact ⟨trivial, nofun⟩
      · have hrest : ∀ c' ∈ rest, P c'.address := fun c' hc' => hall c' (List.mem_cons_of_mem c hc')
        exact ⟨⟨hrest, hall c List.mem_cons_self⟩, nofun⟩
  | weighs w c =>
    unfold Errand.act
    dsimp only
    split_ifs
    · exact ⟨h.1, nofun⟩
    · exact ⟨h, nofun⟩
  | reserves w c =>
    unfold Errand.act
    dsimp only
    split
    · rename_i d' hreserve
      exact ⟨h, by rintro _ ⟨⟩; exact hd.reserveOffered h.2 hreserve⟩
    · exact ⟨h, nofun⟩
  | asks w c => exact ⟨h, nofun⟩
  | givesBack w c => exact ⟨h.1, by rintro _ ⟨⟩; exact hd.releaseOffered⟩
  | punches w c r port => exact ⟨h, nofun⟩
  | places w c r =>
    unfold Errand.act
    dsimp only
    split
    · rename_i d' hplace
      exact ⟨h, by rintro _ ⟨⟩; exact hd.place h.2.1 hplace⟩
    · exact ⟨h, nofun⟩
  | confirms w c r =>
    unfold Errand.act
    dsimp only
    split
    · rename_i d' hconfirm
      exact ⟨h, by rintro _ ⟨⟩; exact hd.confirm hconfirm⟩
    · exact ⟨h, nofun⟩
  | parts w c r =>
    refine ⟨h.1.enqueue h.2.2, ?_⟩
    unfold Errand.act
    dsimp only
    split_ifs
    · exact nofun
    · rintro _ ⟨⟩
      exact hd.releaseOffered
  | finished outcome => exact ⟨h, nofun⟩

/-- A walk gets to hold the addresses that the answer offers. -/
theorem hear (h : e.Within P) {reply : Except NetworkError Message}
    (hreply : ∀ r, reply = .ok (.joinResponse r) → r.Within P) : (e.hear reply).Within P := by
  unfold Errand.hear
  split
  · rename_i w c
    split
    · exact h
    · rename_i r
      have hr : r.Within P := hreply r rfl
      split_ifs
      · split
        · exact ⟨h.1, h.2, hr⟩
        · exact ⟨h.1, h.2, hr⟩
      · exact ⟨h.1.refused hr, h.2⟩
    · exact h
  · exact h

theorem punched (h : e.Within P) (result : Except ProtocolError Unit) :
    (e.punched result).Within P := by
  unfold Errand.punched
  split
  · split <;> exact h
  · exact h

end Within

end Errand

/-! ## The overlay -/

namespace Overlay

variable {ι : Type}

variable (P) in
/-- All addresses in directories, in answers and with walks have a property. -/
structure Within (x : Overlay ι) : Prop where
  directories : ∀ i, (x.members i).node.directory.Within P
  errands : ∀ i, ∀ e ∈ (x.members i).errands, e.Within P
  answers : ∀ r, .joinResponse r ∈ x.answers → r.Within P

variable (P) in
/-- The addresses that an event brings from outside have a property : the one of a join request as
the node gets to see it, and the seeds of a walk. -/
def Event.Brings : Event ι → Prop
  | .arrives _ m sender _ _ => ∀ r, Node.pinnedTo sender.text m = .joinRequest r → P r.address
  | .setsOut _ seeds => ∀ a ∈ seeds, P a
  | _ => True

theorem within_ofNodes {nodes : ι → Node} (h : ∀ i, (nodes i).directory.entries = ∅) :
    (ofNodes nodes).Within P where
  directories i := Directory.within_empty (h i)
  errands _ _ he := absurd he List.not_mem_nil
  answers _ hr := absurd hr List.not_mem_nil

variable [DecidableEq ι] {x : Overlay ι}

namespace Within

/-- A member is changed to one whose addresses have the property. -/
theorem change (h : x.Within P) (i : ι) (f : Member → Member)
    (hd : (f (x.members i)).node.directory.Within P)
    (he : ∀ e ∈ (f (x.members i)).errands, e.Within P) : (x.change i f).Within P where
  directories j := by
    simp only [Overlay.change]
    split_ifs with hj
    · exact hj ▸ hd
    · exact h.directories j
  errands j := by
    simp only [Overlay.change]
    split_ifs with hj
    · exact hj ▸ he
    · exact h.errands j
  answers := h.answers

/-- A walk is changed so that its addresses keep the property. -/
theorem changeErrand (h : x.Within P) {i : ι} {k : ℕ} {f : Errand → Errand}
    (hf : ∀ e : Errand, e.Within P → (f e).Within P) : (x.changeErrand i k f).Within P := by
  refine h.change i _ (h.directories i) fun e he => ?_
  obtain ⟨n, hn⟩ := List.mem_iff_getElem?.mp he
  rw [List.getElem?_modify] at hn
  obtain ⟨e₀, he₀, rfl⟩ := Option.map_eq_some_iff.mp hn
  have hwithin := h.errands i e₀ (List.mem_of_getElem? he₀)
  split_ifs
  · exact hf e₀ hwithin
  · exact hwithin

theorem walk (h : x.Within P) (i : ι) (k : ℕ) (now : Instant) :
    (x.change i (·.walk k now)).Within P := by
  have hd := h.directories i
  cases herrand : (x.members i).errands[k]? with
  | none =>
    refine h.change i _ ?_ ?_ <;> simp only [Member.walk, herrand]
    · exact hd
    · exact h.errands i
  | some e =>
    obtain ⟨hnext, hd'⟩ := (h.errands i e (List.mem_of_getElem? herrand)).act hd now
    refine h.change i _ ?directory ?errands <;> simp only [Member.walk, herrand]
    case directory =>
      cases hact : (e.act (x.members i).node.directory now).2 with
      | none => exact hd
      | some d => exact hd' d hact
    case errands =>
      intro e' he'
      rcases List.mem_or_eq_of_mem_set he' with hmem | rfl
      · exact h.errands i e' hmem
      · exact hnext

theorem arrives (h : x.Within P) {i : ι} {m : Message} {sender : Ip}
    (hm : ∀ r, Node.pinnedTo sender.text m = .joinRequest r → P r.address) (port : Option UInt16)
    (now : Moment) : (x.step (.arrives i m sender port now)).Within P := by
  obtain ⟨hd, hreply⟩ := Node.within_receive (h.directories i) hm port now
  let reaction := (x.members i).node.receiveFrom m sender port now
  have hchanged := h.change i (·.reacted reaction) hd (h.errands i)
  refine ⟨hchanged.directories, hchanged.errands, fun r hr => ?_⟩
  rcases List.mem_append.mp hr with hr | hr
  · exact h.answers r hr
  · exact hreply r (Option.mem_toList.mp hr)

/-- Whatever happens, addresses are brought in by it or were there before. -/
theorem step (h : x.Within P) {e : Event ι} (he : e.Brings P) : (x.step e).Within P := by
  cases e with
  | arrives i m sender port now => exact h.arrives he port now
  | tends i matter =>
    exact h.change i (fun member => { member with toActivity := member.toActivity.step matter })
      (Activity.within_own matter.property (h.directories i)) (h.errands i)
  | setsOut i seeds =>
    refine h.change i (·.setOut seeds) (h.directories i) fun e hmem => ?_
    rcases List.mem_append.mp hmem with hmem | hmem
    · exact h.errands i e hmem
    · exact List.mem_singleton.mp hmem ▸ Errand.Within.ofSeeds he
  | walks i k now => exact h.walk i k now
  | hears i k answer =>
    cases answer with
    | error error => exact h.changeErrand fun e he => he.hear nofun
    | ok n =>
      show (Overlay.step x _).Within P
      unfold Overlay.step
      dsimp only
      split
      · rename_i m hm
        refine h.changeErrand fun e he => he.hear ?_
        rintro r ⟨⟩
        exact h.answers r (List.mem_of_getElem? hm)
      · exact h
  | punches i k result => exact h.changeErrand fun e he => he.punched result

theorem after (h : x.Within P) {events : List (Event ι)} (hevents : ∀ e ∈ events, e.Brings P) :
    (x.after events).Within P := by
  induction events generalizing x with
  | nil => exact h
  | cons e events ih =>
    exact ih (h.step (hevents e List.mem_cons_self)) fun e' he' =>
      hevents e' (List.mem_cons_of_mem e he')

end Within

/-! ## Wildcards -/

/-- A join request has been pinned to the host of its sender when the node gets to see it. -/
theorem isWildcard_of_pinnedTo {sender : Ip} (h : sender.isUnspecified = false) {m : Message}
    {r : JoinRequest} (hr : Node.pinnedTo sender.text m = .joinRequest r) :
    isWildcard r.address = false := by
  cases m with
  | joinRequest r₀ => exact Message.joinRequest.inj hr ▸ isWildcard_pinned h r₀.address
  | _ => cases hr

/-- An overlay whose directories are empty at first, whose messages come from hosts of their own and
whose walks set out from seeds that are no wildcards never has a wildcard in a directory and never
offers one, whatever addresses its nodes advertise. -/
theorem no_wildcard (nodes : ι → Node) (events : List (Event ι))
    (hempty : ∀ i, (nodes i).directory.entries = ∅)
    (hsenders : ∀ i m sender port now, .arrives i m sender port now ∈ events →
      sender.isUnspecified = false)
    (hseeds : ∀ i seeds, .setsOut i seeds ∈ events → ∀ a ∈ seeds, isWildcard a = false) :
    (∀ i id e, (((ofNodes nodes).after events).members i).node.directory.find? id = some e →
      isWildcard e.peer.address = false) ∧
    ∀ r, .joinResponse r ∈ ((ofNodes nodes).after events).answers → ∀ p ∈ r.alternatives,
      isWildcard p.address = false := by
  have hbrings : ∀ e ∈ events, e.Brings fun a => isWildcard a = false := by
    intro e he
    cases e with
    | arrives i m sender port now =>
      exact fun r => isWildcard_of_pinnedTo (hsenders i m sender port now he)
    | setsOut i seeds => exact hseeds i seeds he
    | _ => trivial
  have hwithin := (within_ofNodes hempty).after hbrings
  exact ⟨hwithin.directories, hwithin.answers⟩

/-- Three nodes, each at a wildcard address. -/
def wildcards (i : Fin 3) : Node :=
  { Mesh.lone ⟨toString i.val⟩ with directory := ⟨⟨toString i.val⟩, "0.0.0.0:7400", 4, ∅⟩ }

/-- Two nodes join at the third. The second of them walks on to the first one, which the answer to
it offers. -/
def twoJoin : List (Event (Fin 3)) :=
  [.arrives 2 (.joinRequest { nodeId := ⟨"0"⟩, address := "0.0.0.0:7400" }) (.v4 10 0 0 1) none
      ⟨0, 0⟩,
    .setsOut 1 ["10.0.0.3:7400"], .walks 1 0 1, .walks 1 0 1, .walks 1 0 1,
    .arrives 2 (.joinRequest { nodeId := ⟨"1"⟩, address := "0.0.0.0:7400" }) (.v4 10 0 0 2) none
      ⟨2, 2⟩,
    .hears 1 0 (.ok 1), .walks 1 0 3, .walks 1 0 3, .walks 1 0 3, .walks 1 0 3, .walks 1 0 3,
    .walks 1 0 3]

/-- The wildcards of the two that join become the hosts that their requests come from, in the
directory of the third node, in its answer, and in the directory of the one that walks on. -/
theorem no_wildcard_twoJoin :
    (∀ i, isWildcard (wildcards i).address = true) ∧
    ((((ofNodes wildcards).after twoJoin).members 2).node.directory.find? ⟨"0"⟩).map
      (·.peer.address) = some "10.0.0.1:7400" ∧
    ((((ofNodes wildcards).after twoJoin).members 1).node.directory.find? ⟨"0"⟩).map
      (·.peer.address) = some "10.0.0.1:7400" ∧
    (∀ i id e, (((ofNodes wildcards).after twoJoin).members i).node.directory.find? id = some e →
      isWildcard e.peer.address = false) ∧
    ∀ r, .joinResponse r ∈ ((ofNodes wildcards).after twoJoin).answers → ∀ p ∈ r.alternatives,
      isWildcard p.address = false := by
  refine ⟨by decide, by decide, by decide,
    no_wildcard wildcards twoJoin (fun _ => rfl) ?senders ?seeds⟩
  case senders =>
    intro i m sender port now h
    simp only [twoJoin, List.mem_cons, List.not_mem_nil, reduceCtorEq, Event.arrives.injEq,
      false_or, or_false] at h
    rcases h with ⟨-, -, rfl, -⟩ | ⟨-, -, rfl, -⟩ <;> rfl
  case seeds =>
    intro i seeds h
    simp only [twoJoin, List.mem_cons, List.not_mem_nil, reduceCtorEq, Event.setsOut.injEq,
      false_or, or_false] at h
    obtain ⟨-, rfl⟩ := h
    simp only [List.mem_singleton, forall_eq]
    decide

end Overlay

end PeerGateway
