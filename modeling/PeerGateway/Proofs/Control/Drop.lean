import PeerGateway.Control.Answer
import PeerGateway.Gateway.Service
import PeerGateway.Mesh
import PeerGateway.Proofs.Directory.Lookup
import PeerGateway.Proofs.Http.Url
import Mathlib.Data.List.TakeWhile

/-!
# Dropping a peer from the command line

A command puts the identifier of the peer into a web address as it stands, and the gateway takes it
out of the path of the request again. What ends a path in between, or stands for something else in
one, is not encoded. So the two are inverse to each other for some identifiers only
(`IsSegment`), and `Command.drops_iff` says for which : exactly these are dropped by the command
that names them.

The identifier that is dropped takes no more bytes than the text that it was read from, so it can
be the one that the command names only if nothing of the text was lost (`eq_of_decoded`).
-/

namespace PeerGateway

open Http

/-! ## Requests that drop a peer -/

/-- The peer that a request asks a gateway to drop, if it does. -/
def Http.Request.dropped? (r : Request) : Option NodeId :=
  match Endpoint.ofPath? r.target.pathText with
  | some (.peer segment) => if r.method = "DELETE" then Endpoint.identifier? segment else none
  | _ => none

namespace Gateway

variable {σ : Type}

/-- Only the peer itself is taken out. -/
theorem find?_dropPeer (n : Node) (id k : NodeId) : (dropPeer n id).1.directory.find? k =
    if id = k then none else n.directory.find? k := by
  unfold dropPeer
  cases h : n.directory.remove id with
  | ok dropped =>
    obtain ⟨peer, d⟩ := dropped
    obtain ⟨-, -, -, rfl⟩ := Directory.remove_eq_ok_iff.mp h
    exact Directory.find?_drop
  | error e =>
    unfold Directory.remove at h
    split at h
    · rename_i hnone
      split_ifs with hk
      · rw [← hk]
        exact hnone
      · rfl
    · simp at h

/-- The answer tells whether the peer was there. -/
theorem isSuccess_dropPeer_iff {n : Node} {id : NodeId} :
    (dropPeer n id).2.isSuccess = true ↔ n.directory.find? id ≠ none := by
  unfold dropPeer Directory.remove
  cases h : n.directory.find? id with
  | none => simp [Response.ofText, Response.isSuccess]
  | some e => simp [Response.ofJson, Response.isSuccess]

/-- A request that asks for it is answered by dropping the peer, and goes nowhere else. -/
theorem respond_of_dropped? (s : Outlets σ) (g : Gateway) {r : Request} {id : NodeId}
    (h : r.dropped? = some id) (state : σ) : g.respond s r state =
      (some (dropPeer (s.node state) id).2, s.setNode (dropPeer (s.node state) id).1 state) := by
  unfold Request.dropped? at h
  split at h
  · rename_i segment hendpoint
    split_ifs at h with hmethod
    simp [respond, hendpoint, hmethod, Endpoint.methods, ask, h]
  · simp at h

end Gateway

/-! ## Identifiers that are path segments -/

/-- A text as a path is split into segments : a backslash counts as a slash. -/
def slashed (s : List Char) : List Char := s.map fun c => if c = '\\' then '/' else c

theorem slashed_of_forall_ne {s : List Char} (h : ∀ c ∈ s, c ≠ '\\') : slashed s = s :=
  (List.map_congr_left fun c hc => if_neg (h c hc)).trans (List.map_id s)

theorem length_ofChars_slashed (s : List Char) :
    (Bytes.ofChars (slashed s)).length = (Bytes.ofChars s).length := by
  induction s with
  | nil => rfl
  | cons c s ih =>
    rw [slashed] at ih ⊢
    rw [List.map_cons, Bytes.ofChars_cons, Bytes.ofChars_cons, List.length_append,
      List.length_append, ih]
    split_ifs with hc
    · rw [hc]
      rfl
    · rfl

/-- Whether a character ends a segment in the path of an address, or is left out of it. -/
def breaksSegment (c : Char) : Bool := "/\\?#\t\n\r".toList.contains c

/-- A text that is a segment of a path as it stands, and stands for itself there. -/
structure IsSegment (s : List Char) : Prop where
  ne_nil : s ≠ []
  inner : ∀ c ∈ s, breaksSegment c = false
  last : ∀ c ∈ s.getLast?, Url.isEdge c = false
  notUp : Url.isUp s = false
  notHere : Url.isHere s = false
  /-- It has no escapes. -/
  decoded : Percent.decoded (Bytes.ofChars s) = Bytes.ofChars s

namespace IsSegment

variable {s : List Char}

instance : Decidable (IsSegment s) :=
  decidable_of_iff ((!s.isEmpty && s.all (!breaksSegment ·) && s.getLast?.all (!Url.isEdge ·) &&
      !Url.isUp s && !Url.isHere s && Percent.decoded (Bytes.ofChars s) == Bytes.ofChars s) = true)
    (by
      simp only [Bool.and_eq_true, Bool.not_eq_true', List.isEmpty_eq_false_iff,
        List.all_eq_true, Option.all_eq_true, beq_iff_eq]
      exact ⟨fun ⟨⟨⟨⟨⟨hne, hinner⟩, hlast⟩, hup⟩, hhere⟩, hdecoded⟩ =>
          ⟨hne, hinner, hlast, hup, hhere, hdecoded⟩,
        fun h => ⟨⟨⟨⟨⟨h.ne_nil, h.inner⟩, h.last⟩, h.notUp⟩, h.notHere⟩, h.decoded⟩⟩)

theorem ne_of_mem (h : IsSegment s) {c : Char} (hc : c ∈ s) {d : Char}
    (hd : breaksSegment d = true) : c ≠ d := by
  rintro rfl
  exact absurd hd (by simp [h.inner c hc])

/-- A text that is a segment as it stands is the only segment after the ones in front. -/
theorem follow_splitAtChar (h : IsSegment s) (done : List (List Char)) :
    Url.follow done (splitAtChar '/' (slashed s)) = done ++ [s] := by
  have hslashed : slashed s = s := slashed_of_forall_ne fun c hc => h.ne_of_mem hc rfl
  have hslash : '/' ∉ s := fun hmem => h.ne_of_mem hmem (d := '/') rfl rfl
  rw [hslashed, splitAtChar_of_not_mem hslash, Url.follow_of_neither h.notUp h.notHere]
  rfl

/-- Nothing of it is left out at the end of an address. -/
theorem significantEnd_eq (h : IsSegment s) : Url.significantEnd s = s :=
  Url.significantEnd_of_all h.last fun c hc => by
    have htab : c ≠ '\t' := h.ne_of_mem hc rfl
    have hline : c ≠ '\n' := h.ne_of_mem hc rfl
    have hreturn : c ≠ '\r' := h.ne_of_mem hc rfl
    simp [Url.counts, htab, hline, hreturn]

theorem takeWhile_eq (h : IsSegment s) :
    (s.takeWhile (· ≠ '#')).takeWhile (· ≠ '?') = s := by
  have htake (c : Char) (hc : breaksSegment c = true) : s.takeWhile (· ≠ c) = s := by
    rw [List.takeWhile_eq_self_iff]
    exact fun d hd => decide_eq_true (h.ne_of_mem hd hc)
  rw [htake '#' rfl, htake '?' rfl]

end IsSegment

example : IsSegment "node-1".toList ∧ ¬IsSegment "a/b".toList ∧ ¬IsSegment "a?b".toList ∧
    ¬IsSegment "%41".toList ∧ ¬IsSegment "..".toList := by decide

/-! ## Paths that name a peer -/

namespace Endpoint

/-- What is in front of the segment of a peer. -/
def front : List (List Char) := ["api".toList, "peers".toList]

theorem ofPath?_eq_peer {path segment : String} (h : ofPath? path = some (.peer segment)) :
    splitAtChar '/' path.toList = [] :: front ++ [segment.toList] ∧ segment.toList ≠ [] := by
  unfold ofPath? at h
  split at h
  case h_3 x hsplit =>
    split_ifs at h with hempty
    obtain rfl : x = segment := by simpa using h
    have htexts := congrArg (List.map String.toList) hsplit
    have hid : String.toList ∘ String.ofList = id := funext fun _ => String.toList_ofList
    rw [List.map_map, hid, List.map_id] at htexts
    exact ⟨htexts, fun hnil => hempty (by simpa using hnil)⟩
  all_goals simp at h

theorem ofPath?_of_split {path : String} {segment : List Char} (hne : segment ≠ [])
    (h : splitAtChar '/' path.toList = [] :: front ++ [segment]) :
    ofPath? path = some (.peer (String.ofList segment)) := by
  have hempty : (String.ofList segment).isEmpty = false := by
    simpa using hne
  unfold ofPath?
  rw [h]
  simp [front, hempty]

/-- The root is no endpoint. -/
theorem ofPath?_pathText {t : Target} (h : t.origin = "") :
    ofPath? t.pathText = ofPath? t.path := by
  unfold Target.pathText
  split_ifs with hroot
  · have hempty : t.path = "" := by simp_all
    rw [hempty]
    decide
  · rfl

/-- The identifier that a segment names is not changed by encoding the segment. -/
theorem identifier?_encoded (s : List Char) :
    identifier? (String.ofList (Percent.encoded Url.isPathSpecial s)) =
      (Bytes.text? (Percent.decoded (Bytes.ofChars s))).map NodeId.mk := by
  rw [identifier?, Bytes.ofString, String.toList_ofList, Url.decoded_encoded_segment]

end Endpoint

/-! ## The path of a command -/

namespace Control

/-- What is left of an identifier as part of a path. -/
def pathPart (id : List Char) : List Char :=
  ((Url.significantEnd id).takeWhile (· ≠ '#')).takeWhile (· ≠ '?')

theorem pathPart_sublist (id : List Char) : (pathPart id).Sublist id :=
  ((List.takeWhile_sublist _).trans (List.takeWhile_sublist _)).trans
    (Url.significantEnd_sublist id)

theorem mem_pathPart {id : List Char} {c : Char} (h : c ∈ pathPart id) :
    c ≠ '#' ∧ c ≠ '?' ∧ Url.counts c = true := by
  have hnumber := List.mem_takeWhile_imp ((List.takeWhile_sublist _).subset h)
  have hquestion := List.mem_takeWhile_imp h
  have hcounts := Url.counts_of_mem_significantEnd
    (((List.takeWhile_sublist _).trans (List.takeWhile_sublist _)).subset h)
  exact ⟨of_decide_eq_true hnumber, of_decide_eq_true hquestion, hcounts⟩

theorem significantEnd_of_pathPart_eq {id : List Char} (h : pathPart id = id) :
    Url.significantEnd id = id :=
  (Url.significantEnd_sublist id).antisymm <| by
    conv_lhs => rw [← h]
    exact (List.takeWhile_sublist _).trans (List.takeWhile_sublist _)

theorem segments_below (rest : List Char) : Url.segments ("/api/peers/".toList ++ rest) =
    Url.follow Endpoint.front (splitAtChar '/' (slashed rest)) := by
  have hfront : "/api/peers/".toList.map (fun c => if c = '\\' then '/' else c) =
      '/' :: ("api".toList ++ '/' :: ("peers".toList ++ ['/'])) := by simp
  have hmap : (("/api/peers/".toList ++ rest).map fun c => if c = '\\' then '/' else c).drop 1 =
      "api".toList ++ '/' :: ("peers".toList ++ '/' :: slashed rest) := by
    rw [List.map_append, hfront]
    simp [slashed]
  have hslash : '/' ∉ "api".toList ∧ '/' ∉ "peers".toList := by decide
  have hplain : ∀ s ∈ Endpoint.front, Url.isUp s = false ∧ Url.isHere s = false := by decide
  have hapi := hplain "api".toList (by simp [Endpoint.front])
  have hpeers := hplain "peers".toList (by simp [Endpoint.front])
  rw [Url.segments, hmap, splitAtChar_append hslash.1, splitAtChar_append hslash.2,
    Url.follow_of_neither hapi.1 hapi.2, Url.follow_of_neither hpeers.1 hpeers.2, Endpoint.front,
    List.nil_append, List.singleton_append]

section Segment

variable {id x : List Char}

/-- The last segment comes from the identifier, and not from the path in front. -/
theorem mem_splitAtChar_of_segments {rest : List Char} (hne : x ≠ [])
    (h : Url.follow Endpoint.front (splitAtChar '/' (slashed rest)) = Endpoint.front ++ [x]) :
    x ∈ splitAtChar '/' (slashed rest) := by
  have hall : ∀ s ∈ (Url.follow Endpoint.front (splitAtChar '/' (slashed rest))).drop 2,
      s ∈ splitAtChar '/' (slashed rest) ∨ s = [] :=
    Url.follow_drop (Or.inr rfl) (by simp [Endpoint.front]) fun s hs => Or.inl hs
  have hlast : x ∈ (Url.follow Endpoint.front (splitAtChar '/' (slashed rest))).drop 2 := by
    rw [h]
    exact List.mem_singleton_self x
  exact (hall x hlast).resolve_right hne

/-- A segment that stands for the identifier has all of it : no step from the one to the other makes
bytes more, so none makes them less. -/
theorem eq_of_decoded (hx : x ∈ splitAtChar '/' (slashed (pathPart id)))
    (hdecoded : Percent.decoded (Bytes.ofChars x) = Bytes.ofChars id) :
    pathPart id = id ∧ x = slashed id := by
  have hsub : x.Sublist (slashed (pathPart id)) := sublist_of_mem_splitAtChar hx
  have hread : (Bytes.ofChars id).length ≤ (Bytes.ofChars x).length := by
    rw [← hdecoded]
    exact Percent.length_decoded_le _
  have hsplit := Bytes.length_ofChars_le_of_sublist hsub
  have hslashed := length_ofChars_slashed (pathPart id)
  have hpart := Bytes.length_ofChars_le_of_sublist (pathPart_sublist id)
  have hkept : pathPart id = id := Bytes.eq_of_sublist (pathPart_sublist id) (by omega)
  have hwhole : x = slashed (pathPart id) := Bytes.eq_of_sublist hsub (by omega)
  exact ⟨hkept, by rwa [hkept] at hwhole⟩

theorem breaksSegment_of_mem (hkept : pathPart id = id) (hslash : '/' ∉ slashed id) :
    ∀ c ∈ id, c ≠ '\\' ∧ breaksSegment c = false := by
  intro c hc
  obtain ⟨hnumber, hquestion, hcounts⟩ := mem_pathPart (hkept.symm ▸ hc)
  have himage : (if c = '\\' then '/' else c) ∈ slashed id := List.mem_map_of_mem hc
  have hback : c ≠ '\\' := by
    rintro rfl
    exact hslash himage
  have hnot : c ≠ '/' := by
    rintro rfl
    exact hslash himage
  simp only [Url.counts, Bool.and_eq_true, decide_eq_true_eq] at hcounts
  exact ⟨hback, by simp [breaksSegment, hnot, hback, hquestion, hnumber, hcounts]⟩

/-- A segment that stays as the last one stands for no other place. -/
theorem stays_of_follow (hne : x ≠ [])
    (h : Url.follow Endpoint.front [x] = Endpoint.front ++ [x]) :
    Url.isUp x = false ∧ Url.isHere x = false := by
  cases hup : Url.isUp x with
  | true =>
    rw [Url.follow_of_isUp hup] at h
    simp [Url.follow, Endpoint.front] at h
  | false =>
    cases hhere : Url.isHere x with
    | true =>
      rw [Url.follow_of_isHere hup hhere] at h
      simp [Url.follow, Endpoint.front, Ne.symm hne] at h
    | false => exact ⟨rfl, rfl⟩

/-- If a segment of the path stands for the identifier itself, nothing of the identifier was lost,
and it is this segment as it stands. -/
theorem isSegment_of_decoded (hne : x ≠ [])
    (hsegments : Url.segments ("/api/peers/".toList ++ pathPart id) = Endpoint.front ++ [x])
    (hdecoded : Percent.decoded (Bytes.ofChars x) = Bytes.ofChars id) : IsSegment id := by
  rw [segments_below] at hsegments
  have hx := mem_splitAtChar_of_segments hne hsegments
  have hslash : '/' ∉ x := not_mem_of_mem_splitAtChar hx
  obtain ⟨hkept, hwhole⟩ := eq_of_decoded hx hdecoded
  have hinner := breaksSegment_of_mem hkept (hwhole ▸ hslash)
  have hslashed : slashed id = id := slashed_of_forall_ne fun c hc => (hinner c hc).1
  obtain rfl : x = id := hwhole.trans hslashed
  rw [hkept, hslashed, splitAtChar_of_not_mem hslash] at hsegments
  obtain ⟨hup, hhere⟩ := stays_of_follow hne hsegments
  have hend := Url.isEdge_of_significantEnd_eq (significantEnd_of_pathPart_eq hkept)
  exact ⟨hne, fun c hc => (hinner c hc).2, hend, hup, hhere, hdecoded⟩

end Segment

/-- The identifier that is taken out of the path is the one that was put in exactly if that is a
segment as it stands. -/
theorem identifier_pathOf_iff (id : String) :
    (∃ segment, Endpoint.ofPath? (Url.pathOf ("/api/peers/".toList ++ pathPart id.toList)) =
        some (.peer segment) ∧ Endpoint.identifier? segment = some ⟨id⟩) ↔
      IsSegment id.toList := by
  constructor
  · rintro ⟨segment, hendpoint, hid⟩
    obtain ⟨hsplit, hne⟩ := Endpoint.ofPath?_eq_peer hendpoint
    rw [Url.splitAtChar_pathOf] at hsplit
    have hparts := (List.cons.inj hsplit).2
    obtain ⟨front, last, hsegments, hfront, hlast⟩ := List.map_eq_append_iff.mp hparts
    obtain ⟨x, rfl, hx⟩ := List.map_eq_singleton_iff.mp hlast
    have hplain : front = Endpoint.front := by
      have hpercent : ∀ t ∈ Endpoint.front, '%' ∉ t := by decide
      rw [← hfront]
      refine (List.map_id front).symm.trans (List.map_congr_left fun y hy => ?_)
      exact Percent.eq_of_encoded_eq (hpercent _ (hfront ▸ List.mem_map_of_mem hy)) rfl
    have hxne : x ≠ [] := by
      rintro rfl
      exact hne hx.symm
    rw [← String.ofList_toList (s := segment), ← hx, Endpoint.identifier?_encoded] at hid
    obtain ⟨t, ht, hname⟩ := Option.map_eq_some_iff.mp hid
    obtain rfl : t = id := congrArg NodeId.text hname
    exact isSegment_of_decoded hxne (hplain ▸ hsegments) (Bytes.ofString_of_text? ht).symm
  · intro h
    have hkept : pathPart id.toList = id.toList := by
      rw [pathPart, h.significantEnd_eq, h.takeWhile_eq]
    have hfront : Endpoint.front.map (Percent.encoded Url.isPathSpecial) = Endpoint.front := by
      decide
    have hne : Percent.encoded Url.isPathSpecial id.toList ≠ [] := Percent.encoded_ne_nil h.ne_nil
    refine ⟨_, Endpoint.ofPath?_of_split hne ?_, ?_⟩
    · rw [Url.splitAtChar_pathOf, hkept, segments_below, h.follow_splitAtChar, List.map_append,
        hfront]
      rfl
    · rw [Endpoint.identifier?_encoded, h.decoded, Bytes.text?_ofChars, String.ofList_toList]
      rfl

/-! ## Addresses of a gateway -/

/-- The host and port of a listener. -/
def Listener.authority (l : Listener) : List Char :=
  l.host.toList ++ ':' :: (toString l.port.toNat).toList

section Interface

variable {l : Listener}

theorem toList_interface (l : Listener) :
    l.interface.toList = "http://".toList ++ l.authority ++ "/api".toList := by
  simp [Listener.interface, Listener.authority]

theorem endsHost_authority (hhost : ∀ c ∈ l.host.toList, Url.endsHost c = false) :
    ∀ c ∈ l.authority, Url.endsHost c = false := by
  intro c hc
  rcases List.mem_append.mp hc with hc | hc
  · exact hhost c hc
  rcases List.mem_cons.mp hc with rfl | hc
  · rfl
  · have hdigit : c.isDigit = true := by
      rw [Nat.toString_eq_repr, Nat.repr_eq_ofList_toDigits, String.toList_ofList] at hc
      exact Nat.isDigit_of_mem_toDigits (by decide) (by decide) hc
    have hnot (d : Char) (hd : d.isDigit = false) : c ≠ d := by
      rintro rfl
      rw [hdigit] at hd
      simp at hd
    simp [Url.endsHost, hnot '/' rfl, hnot '\\' rfl, hnot '?' rfl, hnot '#' rfl]

/-- How the address that a command asks is read, if only what comes after `front` in its path may
have characters that do not count. -/
theorem parse?_url (hhost : ∀ c ∈ l.host.toList, Url.endsHost c = false) (command : Command)
    (front rest : List Char) (hpath : command.path.toList = front ++ rest) (hne : front ≠ [])
    (hcounts : front.all Url.counts = true)
    (hlast : ∀ c ∈ front.getLast?, Url.isEdge c = false) :
    Url.parse? (command.url l) = Url.ofAuthority? (l.authority.filter Url.counts ++
      ("/api".toList ++ front ++ Url.significantEnd rest)) := by
  have hurl : (command.url l).toList = l.interface.toList ++ front ++ rest := by
    rw [Command.url, String.toList_append, hpath, List.append_assoc]
  have hsignificant : Url.significant (command.url l).toList = "http://".toList ++
      (l.authority.filter Url.counts ++ ("/api".toList ++ front ++ Url.significantEnd rest)) := by
    have hlasts : ∀ c ∈ (l.interface.toList ++ front).getLast?, Url.isEdge c = false := by
      rwa [List.getLast?_append_of_ne_nil _ hne]
    have hfirsts : ∀ c ∈ (l.interface.toList ++ front).head?, Url.isEdge c = false := by
      rw [toList_interface]
      rintro c ⟨⟩
      rfl
    have hscheme : "http://".toList.filter Url.counts = "http://".toList := by decide
    have hapi : "/api".toList.filter Url.counts = "/api".toList := by decide
    rw [hurl, Url.significant_append hfirsts hlasts (by simp [hne]), toList_interface]
    have hfront : front.filter Url.counts = front :=
      List.filter_eq_self.mpr (List.all_eq_true.mp hcounts)
    simp only [List.filter_append, hscheme, hapi, hfront, List.append_assoc]
  have hslashes (rest : List Char) : (l.authority.filter Url.counts ++ rest).dropWhile
      (fun c => c = '/' || c = '\\') = l.authority.filter Url.counts ++ rest := by
    have hcolon : ':' ∈ l.authority.filter Url.counts :=
      List.mem_filter.mpr ⟨List.mem_append_right _ List.mem_cons_self, rfl⟩
    obtain ⟨c, cs, hauthority⟩ := List.exists_cons_of_ne_nil (List.ne_nil_of_mem hcolon)
    have hmem : c ∈ l.authority.filter Url.counts := hauthority ▸ List.mem_cons_self
    have hc := endsHost_authority hhost c (List.mem_filter.mp hmem).1
    have hnot : c ≠ '/' ∧ c ≠ '\\' := by
      constructor <;>
      · rintro rfl
        exact absurd hc (by decide)
    rw [hauthority, List.cons_append, List.dropWhile_cons, if_neg (by simp [hnot])]
  unfold Url.parse?
  rw [hsignificant]
  show (if _ = "http:".toList then _ else _) = _
  rw [if_pos (by simp)]
  exact congrArg Url.ofAuthority? (hslashes _)

/-- A gateway that can be asked for its status can be asked to drop a peer, whatever the identifier
is. -/
theorem exists_prepare?_drop (hhost : ∀ c ∈ l.host.toList, Url.endsHost c = false)
    (hreached : (Command.status.request l).prepare?.isSome = true) (id : String) :
    ∃ url r, ((Command.drop id).request l).prepare? = some (url, r) ∧ r.method = "DELETE" ∧
      r.target.origin = "" ∧
      r.target.path = Url.pathOf ("/api/peers/".toList ++ pathPart id.toList) := by
  have hauthority : ∀ c ∈ l.authority.filter Url.counts, Url.endsHost c = false := fun c hc =>
    endsHost_authority hhost c (List.mem_filter.mp hc).1
  have hstatus : Url.parse? (Command.status.url l) = _ :=
    (parse?_url hhost .status "/status".toList [] rfl (by simp) (by decide)
      (by rintro c ⟨⟩; rfl)).trans
      (Url.ofAuthority?_append hauthority (by rintro c ⟨⟩; rfl))
  have hdrop : Url.parse? ((Command.drop id).url l) = _ :=
    (parse?_url hhost (.drop id) "/peers/".toList id.toList (by simp [Command.path]) (by simp)
      (by decide) (by rintro c ⟨⟩; rfl)).trans
      (Url.ofAuthority?_append hauthority (by rintro c ⟨⟩; rfl))
  -- Both addresses have the same host and port.
  unfold Outgoing.prepare? at hreached ⊢
  simp only [Command.request] at hreached ⊢
  rw [hstatus] at hreached
  rw [hdrop]
  cases hplace : Url.place? (l.authority.filter Url.counts) with
  | none => simp [hplace] at hreached
  | some place =>
    have hsendable : place.1.isSendable = true := by
      by_contra hnot
      simp [hplace, hnot] at hreached
    simp only [Option.map_some, hsendable, if_true]
    have hfront : "/api".toList ++ "/peers/".toList = "/api/peers/".toList := rfl
    have htake (c : Char) (hc : c ∉ "/api/peers/".toList) (rest : List Char) :
        ("/api/peers/".toList ++ rest).takeWhile (· ≠ c) =
          "/api/peers/".toList ++ rest.takeWhile (· ≠ c) :=
      List.takeWhile_append_of_pos fun d hd => decide_eq_true fun heq => hc (heq ▸ hd)
    refine ⟨_, _, rfl, rfl, rfl, ?_⟩
    show Url.pathOf _ = _
    rw [hfront, htake '#' (by decide), htake '?' (by decide)]
    rfl

end Interface

/-! ## What a command drops -/

/-- The command that drops a peer asks a gateway to drop the peer that it names exactly if the
identifier is a segment of a path as it stands. The gateway then drops this peer and no other, and
the answer tells whether it was there. -/
theorem Command.drops_iff (l : Listener) (hhost : ∀ c ∈ l.host.toList, Url.endsHost c = false)
    (hreached : (Command.status.request l).prepare?.isSome = true) (id : String) :
    ∃ url r, ((Command.drop id).request l).prepare? = some (url, r) ∧
      (r.dropped? = some ⟨id⟩ ↔ IsSegment id.toList) ∧
      (IsSegment id.toList → ∀ {σ : Type} (s : Outlets σ) (g : Gateway) (state : σ),
        ∃ n answer, g.respond s r state = (some answer, s.setNode n state) ∧
          (answer.isSuccess = true ↔ (s.node state).directory.find? ⟨id⟩ ≠ none) ∧
          ∀ k, n.directory.find? k =
            if ⟨id⟩ = k then none else (s.node state).directory.find? k) := by
  obtain ⟨url, r, hprepared, hmethod, horigin, hpath⟩ := exists_prepare?_drop hhost hreached id
  have hdropped : r.dropped? = some ⟨id⟩ ↔ IsSegment id.toList := by
    rw [← identifier_pathOf_iff, ← hpath, Http.Request.dropped?,
      Endpoint.ofPath?_pathText horigin]
    constructor
    · intro h
      split at h
      · rename_i segment hendpoint
        rw [if_pos hmethod] at h
        exact ⟨segment, hendpoint, h⟩
      · simp at h
    · rintro ⟨segment, hendpoint, hid⟩
      simp [hendpoint, hmethod, hid]
  refine ⟨url, r, hprepared, hdropped, fun hsegment σ s g state => ?_⟩
  refine ⟨_, _, Gateway.respond_of_dropped? s g (hdropped.mpr hsegment) state, ?answered,
    Gateway.find?_dropPeer _ _⟩
  case answered => exact Gateway.isSuccess_dropPeer_iff

/-- A gateway on the own machine. -/
def loopback : Listener where
  host := "[::1]"

theorem drops_iff_loopback : ∃ url r,
    ((Command.drop "node-1").request loopback).prepare? = some (url, r) ∧
      r.dropped? = some ⟨"node-1"⟩ := by
  obtain ⟨url, r, hprepared, hdropped, -⟩ :=
    Command.drops_iff loopback (by simp [loopback, Url.endsHost]) (by decide) "node-1"
  exact ⟨url, r, hprepared, hdropped.mpr (by decide)⟩

/-- A node with one peer. -/
def acquainted : Node :=
  (Mesh.lone ⟨"b"⟩).withDirectory ((⟨⟨"b"⟩, "b:7400", 8, ∅⟩ : Directory).put ⟨"a"⟩
    (.fresh ⟨⟨"a"⟩, "a:7400", false⟩ .connected 0))

/-- A gateway's node alone, with no network. -/
def alone : Outlets Node where
  node := id
  setNode n _ := n
  now _ := ⟨0, 0⟩
  send _ _ _ n := (.unreachable, n)
  run _ n := (none, n)

/-- A command can drop another peer than the one that it names. -/
theorem not_drops_only_named : ¬ ∀ (g : Gateway) (n : Node) (id : String),
    ∃ url r, ((Command.drop id).request loopback).prepare? = some (url, r) ∧
      ∀ k, ⟨id⟩ ≠ k → (g.respond alone r n).2.directory.find? k = n.directory.find? k := by
  intro h
  obtain ⟨url, r, hprepared, hkept⟩ := h { rule := ⟨0⟩, started := 0 } acquainted "a?b"
  have hread : ((Command.drop "a?b").request loopback).prepare?.bind (·.2.dropped?) =
      some ⟨"a"⟩ := by decide
  have hdropped : r.dropped? = some ⟨"a"⟩ := by
    rw [hprepared] at hread
    exact hread
  have hgone := hkept ⟨"a"⟩ (by decide)
  rw [Gateway.respond_of_dropped? alone _ hdropped] at hgone
  have hnone := hgone.symm.trans (Gateway.find?_dropPeer acquainted ⟨"a"⟩ ⟨"a"⟩)
  simp [acquainted, Node.withDirectory] at hnone

end Control

end PeerGateway
