import PeerGateway.Frame
import PeerGateway.Proofs.Message.RoundTrip

/-!
# Messages from a stream

A receiver feeds the chunks of a stream to a decoder as they come and decodes after each one until
no frame is complete (`Frame.received`). What it receives depends on the stream alone and not on
how it is cut: a decoder that has drained a buffer and is given more bytes goes on as if these had
been there from the start (`Frame.drain_append`). That rests on how one call of the decoder bears
more bytes at the end of its buffer (`Frame.Decoder.Call`).

`Frame.received_faithful` adds what a stream of frames gives: every body counts for itself, a head
that announces too much ends the stream in place, and messages that were encoded are received.
-/

namespace PeerGateway

namespace Frame

/-! ## Frames at the front of a buffer -/

theorem announced_head {n : Nat} (h : n ≤ maxLength) :
    announced (UInt8.ofNat (n / 0x1000000)) (UInt8.ofNat (n / 0x10000)) (UInt8.ofNat (n / 0x100))
      (UInt8.ofNat n) = n := by
  simp only [announced, UInt8.toNat_ofNat', maxLength] at h ⊢
  omega

namespace Decoder

variable {d d' : Decoder} {s s' : Bytes}

theorem body_of_le {n : Nat} (h : n ≤ s.length) (more : Bytes) :
    body n (s ++ more) = ⟨{}, s.drop n ++ more, some (s.take n)⟩ := by
  have hlength : (s.take n).length = n := List.length_take_of_le h
  rw [body, List.take_append_of_le_length h, List.drop_append_of_le_length h, if_pos hlength]

theorem body_of_lt {n : Nat} (h : s.length < n) : body n s = ⟨⟨some n⟩, s, none⟩ := by
  have hlength : (s.take n).length ≠ n := by
    rw [List.length_take]
    omega
  rw [body, if_neg hlength]

/-! ## One call and more bytes -/

/-- What a call comes to, and what it comes to with more bytes at the end of the buffer: it waits,
and goes on later as if these had been there before; it fails, and leaves everything in place; or
it takes a frame and leaves more bytes for the next call. -/
inductive Call (d : Decoder) (s : Bytes) : Prop
  | waits (d' : Decoder) (s' : Bytes) (hcall : d.decode s = (.ok none, d', s'))
      (hmore : ∀ more, d.decode (s ++ more) = d'.decode (s' ++ more))
  | fails (hcall : d.decode s = (.error .frameTooBig, d, s))
      (hmore : ∀ more, d.decode (s ++ more) = (.error .frameTooBig, d, s ++ more))
  | takes (m : Except Json.Fault Message) (s' : Bytes) (hcall : d.decode s = (.ok (some m), {}, s'))
      (hmore : ∀ more, d.decode (s ++ more) = (.ok (some m), {}, s' ++ more))
      (hlength : s'.length < s.length ∨ s'.length ≤ s.length ∧ d.due ≠ none)

/-- A call that has a body to take, behind a head or because its head was taken before. -/
theorem Call.of_body {n : Nat} {rest : Bytes}
    (hnext : ∀ more, d.next (s ++ more) = .ok (body n (rest ++ more)))
    (hrest : rest.length < s.length ∨ rest.length ≤ s.length ∧ d.due ≠ none) : d.Call s := by
  have hs : d.next s = .ok (body n rest) := by simpa using hnext []
  rcases Nat.lt_or_ge rest.length n with hshort | hlong
  · refine .waits ⟨some n⟩ rest ?_ fun more => ?_
    · simp only [decode, hs, body_of_lt hshort, Option.map_none]
    · simp only [decode, hnext]
      rfl
  · have hbody : body n rest = ⟨{}, rest.drop n, some (rest.take n)⟩ := by
      simpa using body_of_le hlong []
    have hdrop : (rest.drop n).length ≤ rest.length := by
      rw [List.length_drop]
      omega
    refine .takes (Message.ofBytes (rest.take n)) (rest.drop n) ?_ (fun more => ?_) ?_
    · simp only [decode, hs, hbody, Option.map_some]
    · simp only [decode, hnext, body_of_le hlong, Option.map_some]
    · exact hrest.imp (Nat.lt_of_le_of_lt hdrop) fun h => ⟨Nat.le_trans hdrop h.1, h.2⟩

theorem call (d : Decoder) (s : Bytes) : d.Call s := by
  obtain ⟨due⟩ := d
  cases due with
  | some n => exact .of_body (fun _ => rfl) (.inr ⟨Nat.le_refl _, by simp⟩)
  | none =>
    match s with
    | [] | [_] | [_, _] | [_, _, _] => exact .waits _ _ rfl fun _ => rfl
    | a :: b :: c :: e :: rest =>
      have hlength : rest.length < (a :: b :: c :: e :: rest).length := by
        simp only [List.length_cons]
        omega
      by_cases hbig : maxLength < announced a b c e
      · refine .fails ?_ fun more => ?_ <;>
          simp only [decode, next, List.cons_append, if_pos hbig]
      · refine .of_body (n := announced a b c e) (fun more => ?_) (.inl hlength)
        simp only [next, List.cons_append, if_neg hbig]

/-- A fault of the stream leaves everything in place, and more bytes do not mend it. -/
theorem decode_append_of_error {e : IoFault} (h : d.decode s = (.error e, d', s')) (more : Bytes) :
    d' = d ∧ s' = s ∧ d.decode (s ++ more) = (.error e, d, s ++ more) := by
  cases d.call s with
  | waits _ _ hcall => cases hcall.symm.trans h
  | fails hcall hmore =>
    cases hcall.symm.trans h
    exact ⟨rfl, rfl, hmore more⟩
  | takes _ _ hcall => cases hcall.symm.trans h

/-- A frame that is complete stays so. Taking it shortens the buffer, unless its head was taken
before. -/
theorem decode_append_of_some {m : Except Json.Fault Message}
    (h : d.decode s = (.ok (some m), d', s')) (more : Bytes) :
    d.decode (s ++ more) = (.ok (some m), d', s' ++ more) ∧ d' = {} ∧
      (s'.length < s.length ∨ s'.length ≤ s.length ∧ d.due ≠ none) := by
  cases d.call s with
  | waits _ _ hcall => cases hcall.symm.trans h
  | fails hcall => cases hcall.symm.trans h
  | takes _ _ hcall hmore hlength =>
    cases hcall.symm.trans h
    exact ⟨hmore more, rfl, hlength⟩

/-- A decoder that waits goes on with more bytes as if these had been there before. -/
theorem decode_append_of_none (h : d.decode s = (.ok none, d', s')) (more : Bytes) :
    d.decode (s ++ more) = d'.decode (s' ++ more) := by
  cases d.call s with
  | waits _ _ hcall hmore =>
    cases hcall.symm.trans h
    exact hmore more
  | fails hcall => cases hcall.symm.trans h
  | takes _ _ hcall => cases hcall.symm.trans h

/-! ## One frame -/

theorem next_head {n : Nat} (h : n ≤ maxLength) (s : Bytes) :
    next {} (head n ++ s) = .ok (body n s) := by
  have hfits : ¬maxLength < n := Nat.not_lt_of_le h
  simp only [head, List.cons_append, List.nil_append, next, announced_head h, if_neg hfits]

theorem decode_wrap {b : Bytes} (h : b.length ≤ maxLength) (s : Bytes) :
    decode {} (wrap b ++ s) = (.ok (some (Message.ofBytes b)), {}, s) := by
  have hbody : body b.length (b ++ s) = ⟨{}, s, some b⟩ := by
    rw [body_of_le (Nat.le_refl _), List.drop_length, List.take_length, List.nil_append]
  simp only [decode, wrap, List.append_assoc, next_head h, hbody, Option.map_some]

end Decoder

/-! ## Draining a buffer -/

/-- What came of the bytes of a stream so far: messages and faults of bodies in order, and the
fault of the stream, which is the last thing that is decoded. -/
structure Received where
  decoder : Decoder := {}
  buffer : Bytes := []
  messages : List (Except Json.Fault Message) := []
  fault : Option IoFault := none

/-- More messages before all others. -/
def Received.behind (r : Received) (ms : List (Except Json.Fault Message)) : Received :=
  { r with messages := ms ++ r.messages }

/-- Decodes until no frame is complete, or the stream is at fault. -/
def drain (d : Decoder) (s : Bytes) : Received :=
  match _hcall : d.decode s with
  | (.error e, d', s') => { decoder := d', buffer := s', fault := some e }
  | (.ok none, d', s') => { decoder := d', buffer := s' }
  | (.ok (some m), d', s') => (drain d' s').behind [m]
termination_by (s.length, d.due.isSome.toNat)
decreasing_by
  obtain ⟨-, rfl, hlt | ⟨hle, hdue⟩⟩ := Decoder.decode_append_of_some _hcall []
  · exact Prod.Lex.left _ _ hlt
  · rcases Nat.lt_or_eq_of_le hle with hlt | heq
    · exact Prod.Lex.left _ _ hlt
    · rw [heq]
      refine Prod.Lex.right _ ?_
      cases hd : d.due with
      | none => exact absurd hd hdue
      | some n => exact Nat.zero_lt_one

/-- Takes in a chunk of the stream. After a fault nothing is decoded any more. -/
def Received.feed (r : Received) (chunk : Bytes) : Received :=
  match r.fault with
  | some _ => { r with buffer := r.buffer ++ chunk }
  | none => (drain r.decoder (r.buffer ++ chunk)).behind r.messages

/-- What a new decoder receives from the chunks of a stream. -/
def received (chunks : List Bytes) : Received := chunks.foldl Received.feed {}

section Drain

variable {d d' : Decoder} {s s' : Bytes}

theorem drain_of_error {e : IoFault} (h : d.decode s = (.error e, d', s')) :
    drain d s = { decoder := d', buffer := s', fault := some e } := by
  rw [drain]
  split <;> simp_all

theorem drain_of_none (h : d.decode s = (.ok none, d', s')) :
    drain d s = { decoder := d', buffer := s' } := by
  rw [drain]
  split <;> simp_all

theorem drain_of_some {m : Except Json.Fault Message} (h : d.decode s = (.ok (some m), d', s')) :
    drain d s = (drain d' s').behind [m] := by
  rw [drain]
  split <;> simp_all

/-- Only the next call counts. -/
theorem drain_congr (h : d.decode s = d'.decode s') : drain d s = drain d' s' := by
  rcases hd : d'.decode s' with ⟨e | (_ | m), d'', s''⟩
  · rw [drain_of_error (h.trans hd), drain_of_error hd]
  · rw [drain_of_none (h.trans hd), drain_of_none hd]
  · rw [drain_of_some (h.trans hd), drain_of_some hd]

end Drain

namespace Received

theorem feed_behind (r : Received) (ms : List (Except Json.Fault Message)) (chunk : Bytes) :
    (r.behind ms).feed chunk = (r.feed chunk).behind ms := by
  obtain ⟨d, s, ns, fault⟩ := r
  cases fault with
  | some e => rfl
  | none => simp [behind, feed]

end Received

/-- A decoder that has drained its buffer goes on with more bytes as if these had been there
before. The induction is on the calls that drain the buffer: each of them bears more bytes. -/
theorem drain_append (d : Decoder) (s more : Bytes) :
    drain d (s ++ more) = (drain d s).feed more := by
  induction d, s using drain.induct with
  | case1 d s e d' s' h =>
    obtain ⟨rfl, rfl, hmore⟩ := Decoder.decode_append_of_error h more
    rw [drain_of_error h, drain_of_error hmore]
    rfl
  | case2 d s d' s' h =>
    rw [drain_of_none h, drain_congr (Decoder.decode_append_of_none h more)]
    rfl
  | case3 d s m d' s' h ih =>
    obtain ⟨hmore, -⟩ := Decoder.decode_append_of_some h more
    rw [drain_of_some h, drain_of_some hmore, ih, Received.feed_behind]

/-! ## Chunks -/

theorem Received.feed_append (r : Received) (a b : Bytes) :
    (r.feed a).feed b = r.feed (a ++ b) := by
  obtain ⟨d, s, ms, fault⟩ := r
  cases fault with
  | some e => simp [feed]
  | none =>
    have hdrain := drain_append d (s ++ a) b
    rw [List.append_assoc] at hdrain
    simp only [feed, hdrain]
    exact feed_behind (drain d (s ++ a)) ms b

theorem foldl_feed (r : Received) (a : Bytes) (chunks : List Bytes) :
    chunks.foldl Received.feed (r.feed a) = r.feed (a ++ chunks.flatten) := by
  induction chunks generalizing a with
  | nil => simp
  | cons b chunks ih =>
    rw [List.foldl_cons, r.feed_append, ih, List.flatten_cons, List.append_assoc]

theorem received_singleton (s : Bytes) : received [s] = drain {} s := rfl

/-- How a stream is cut does not matter. -/
theorem received_flatten (chunks : List Bytes) : received chunks = received [chunks.flatten] := by
  cases chunks with
  | nil => rw [List.flatten_nil, received_singleton, drain_of_none rfl]; rfl
  | cons a chunks => exact foldl_feed {} a chunks

/-! ## Frames and messages -/

/-- Each body of a stream of frames counts for itself, whatever follows. -/
theorem received_wrap (bodies : List Bytes) (h : ∀ b ∈ bodies, b.length ≤ maxLength)
    (rest : Bytes) : received [bodies.flatMap wrap ++ rest] =
      (received [rest]).behind (bodies.map Message.ofBytes) := by
  induction bodies with
  | nil => rfl
  | cons b bodies ih =>
    have hb := h b List.mem_cons_self
    have hbodies := ih fun c hc => h c (List.mem_cons_of_mem b hc)
    rw [received_singleton] at hbodies ⊢
    rw [List.flatMap_cons, List.append_assoc, drain_of_some (Decoder.decode_wrap hb _), hbodies]
    rfl

/-- Messages that fit into frames are written one after the other. -/
theorem foldlM_append (ms : List Message) (h : ∀ m ∈ ms, m.bytes.length ≤ maxLength)
    (buffer : Bytes) :
    ms.foldlM append buffer = .ok (buffer ++ (ms.map Message.bytes).flatMap wrap) := by
  induction ms generalizing buffer with
  | nil => simp [pure, Except.pure]
  | cons m ms ih =>
    have hm : append buffer m = .ok (buffer ++ wrap m.bytes) := by
      have hfits := Nat.not_lt_of_le (h m List.mem_cons_self)
      simp only [append, encode, if_neg hfits]
    have hms := ih (fun n hn => h n (List.mem_cons_of_mem m hn)) (buffer ++ wrap m.bytes)
    rw [List.foldlM_cons, hm, List.map_cons, List.flatMap_cons, ← List.append_assoc]
    exact hms

/-- What is received from a stream does not depend on its chunks. A frame gives its message, or the
fault of its body, and leaves the rest of the stream alone. A head that announces too much is a
fault and stays with all that follows it. Messages that read back and fit into frames are written,
and received from what was written; one that does not fit is refused, and the buffer stays as it
was. -/
theorem received_faithful :
    (∀ chunks : List Bytes, received chunks = received [chunks.flatten]) ∧
      (∀ (bodies : List Bytes) (rest : Bytes), (∀ b ∈ bodies, b.length ≤ maxLength) →
        received [bodies.flatMap wrap ++ rest] =
          (received [rest]).behind (bodies.map Message.ofBytes)) ∧
      (∀ (a b c e : UInt8) (rest : Bytes), maxLength < announced a b c e →
        received [a :: b :: c :: e :: rest] =
          ⟨{}, a :: b :: c :: e :: rest, [], some .frameTooBig⟩) ∧
      (∀ ms : List Message,
        (∀ m ∈ ms, Message.ofBytes m.bytes = .ok m ∧ m.bytes.length ≤ maxLength) →
          ∃ stream, ms.foldlM append [] = .ok stream ∧
            received [stream] = ⟨{}, [], ms.map .ok, none⟩) ∧
      ∀ (buffer : Bytes) (m : Message), maxLength < m.bytes.length →
        encode buffer m = (.error (.io .frameTooBig), buffer) := by
  refine ⟨received_flatten, fun bodies rest h => received_wrap bodies h rest,
    fun a b c e rest hbig => ?_, fun ms h => ?_, fun buffer m hbig => ?_⟩
  · have hdecode : Decoder.decode {} (a :: b :: c :: e :: rest) =
        (.error .frameTooBig, {}, a :: b :: c :: e :: rest) := by
      simp only [Decoder.decode, Decoder.next, if_pos hbig]
    rw [received_singleton, drain_of_error hdecode]
  · refine ⟨_, foldlM_append ms (fun m hm => (h m hm).2) [], ?_⟩
    have hbodies : ∀ b ∈ ms.map Message.bytes, b.length ≤ maxLength := by
      intro b hb
      obtain ⟨m, hm, rfl⟩ := List.mem_map.mp hb
      exact (h m hm).2
    have hread : (ms.map Message.bytes).map Message.ofBytes = ms.map .ok := by
      rw [List.map_map]
      exact List.map_congr_left fun m hm => (h m hm).1
    have hstream := received_wrap (ms.map Message.bytes) hbodies []
    rw [List.append_nil, hread] at hstream
    rw [List.nil_append, hstream, received_singleton, drain_of_none rfl]
    simp [Received.behind]
  · simp only [encode, if_pos hbig]

/-- A departure under a name of some length. -/
def longLeave (n : Nat) : Message := .leave ⟨String.ofList (List.replicate n 'x')⟩

theorem lt_length_bytes_longLeave (n : Nat) : n < (longLeave n).bytes.length := by
  have hname : ((List.replicate n 'x').flatMap Json.escaped).length = n := by
    have hx : (Json.escaped 'x').length = 1 := by decide
    simp [List.length_flatMap, hx]
  simp only [longLeave, Message.bytes, Message.type, Message.payload, Schema.bytes,
    Fields.memberBytes, Json.braced, Json.separated, Json.memberText, Json.quoted,
    String.toList_ofList, List.length_append, List.length_cons, hname]
  omega

theorem received_faithful_torn :
    received [[0, 0], [0, 1, 0x7B, 0], [0, 0]] = received [[0, 0, 0, 1, 0x7B, 0, 0, 0]] ∧
      received [wrap [0x7B] ++ [0, 0, 0]] =
        (received [[0, 0, 0]]).behind [Message.ofBytes [0x7B]] ∧
      received [[0, 0x10, 0, 1, 0x7B]] =
        ⟨{}, [0, 0x10, 0, 1, 0x7B], [], some .frameTooBig⟩ ∧
      (∃ stream, [Message.ping ⟨⟨"a"⟩, 1⟩].foldlM append [] = .ok stream ∧
        received [stream] = ⟨{}, [], [.ok (.ping ⟨⟨"a"⟩, 1⟩)], none⟩) ∧
      encode [1, 2] (longLeave maxLength) = (.error (.io .frameTooBig), [1, 2]) := by
  obtain ⟨hcut, hbodies, hbig, hmessages, hrefused⟩ := received_faithful
  have hping : ∀ m ∈ [Message.ping ⟨⟨"a"⟩, 1⟩], Message.ofBytes m.bytes = .ok m ∧
      m.bytes.length ≤ maxLength := by
    intro m hm
    obtain rfl := List.mem_singleton.mp hm
    exact ⟨Message.ofBytes_bytes (by decide), by decide +kernel⟩
  exact ⟨hcut _, hbodies [[0x7B]] [0, 0, 0] (by decide), hbig 0 0x10 0 1 [0x7B] (by decide),
    hmessages _ hping, hrefused [1, 2] _ (lt_length_bytes_longLeave maxLength)⟩

end Frame

end PeerGateway
