import PeerGateway.Proofs.Frame.Stream

/-!
# The end of a stream

The chunks of a stream come and the decoder is called, in any order (`Frame.Received.step`). Of the
bytes that came none is lost: they are the frames that were taken, the head that the decoder has
kept, and the buffer (`Frame.Received.Accounts`), which every event preserves
(`Frame.Received.Accounts.step`) and every run (`Frame.Received.exists_accounts_run`). A decoder
that has kept a head does what a new one does that finds the head before the buffer
(`Frame.Decoder.next_held`), so what a receiver comes to depends on the bytes that it has not taken.

A stream that is cut off has whole frames and behind them nothing or a part of the next one
(`Frame.Cut`). At its end `Frame.Decoder.last` tells by the buffer whether there is such a part, but
a head that was kept is not in the buffer. `Frame.end_of_cut` says what is seen of every stream that
is cut off, and `Frame.not_cut_seen` that a lone head is missed.
-/

namespace PeerGateway

namespace Frame

/-! ## Heads and frames -/

/-- A head is the four bytes that announce its length. -/
theorem head_announced (a b c e : UInt8) : head (announced a b c e) = [a, b, c, e] := by
  have hbyte : ∀ x : UInt8, ∀ n : ℕ, n % 256 = x.toNat → UInt8.ofNat n = x := by
    intro x n h
    rw [← UInt8.toNat_inj, UInt8.toNat_ofNat']
    exact h
  have ha := a.toNat_lt
  have hb := b.toNat_lt
  have hc := c.toNat_lt
  have he := e.toNat_lt
  simp only [head, announced, List.cons.injEq, and_true]
  refine ⟨hbyte a _ ?_, hbyte b _ ?_, hbyte c _ ?_, hbyte e _ ?_⟩ <;> omega

theorem length_head (n : ℕ) : (head n).length = 4 := rfl

theorem length_wrap (b : Bytes) : (wrap b).length = b.length + 4 := by
  rw [wrap, List.length_append, length_head, Nat.add_comm]

namespace Decoder

variable {d d' : Decoder} {s s' : Bytes} {n : ℕ}

/-- The bytes that were not taken: the head that the decoder has kept, and the buffer. -/
def held (d : Decoder) (s : Bytes) : Bytes :=
  match d.due with
  | none => s
  | some n => head n ++ s

/-- The decoder has kept no head that it does not accept. -/
def Fits (d : Decoder) : Prop := ∀ n ∈ d.due, n ≤ maxLength

theorem fits_new : Fits {} := fun _ h => nomatch h

theorem held_append (d : Decoder) (s more : Bytes) : d.held (s ++ more) = d.held s ++ more := by
  unfold held
  cases d.due with
  | none => rfl
  | some n => rw [List.append_assoc]

/-- A head that was kept might as well still be in the buffer. -/
theorem next_held (h : d.Fits) (s : Bytes) : d.next s = next {} (d.held s) := by
  obtain ⟨due⟩ := d
  cases due with
  | none => rfl
  | some n => exact (next_head (h n rfl) s).symm

theorem next_wrap {b : Bytes} (h : b.length ≤ maxLength) (s : Bytes) :
    next {} (wrap b ++ s) = .ok ⟨{}, s, some b⟩ := by
  rw [wrap, List.append_assoc, next_head h, body_of_le (Nat.le_refl _), List.drop_length,
    List.take_length, List.nil_append]

/-- What a call comes to with a head that is accepted, kept or still in the buffer: it waits and
takes nothing, or it takes the frame in front. -/
theorem decode_of_body (hn : n ≤ maxLength) (hnext : d.next s = .ok (body n s'))
    (hheld : d.held s = head n ++ s') :
    (∃ d' s', d.decode s = (.ok none, d', s') ∧ d'.Fits ∧ d'.held s' = d.held s) ∨
      ∃ b more, b.length ≤ maxLength ∧ d.held s = wrap b ++ more ∧
        d.decode s = (.ok (some (Message.ofBytes b)), {}, more) := by
  rcases Nat.lt_or_ge s'.length n with hshort | hlong
  · refine .inl ⟨⟨some n⟩, s', ?_, fun m hm => Option.some.inj hm ▸ hn, hheld.symm⟩
    simp only [decode, hnext, body_of_lt hshort, Option.map_none]
  · have hlength : (s'.take n).length = n := List.length_take_of_le hlong
    have hbody : body n s' = ⟨{}, s'.drop n, some (s'.take n)⟩ := by
      simpa using body_of_le hlong []
    refine .inr ⟨s'.take n, s'.drop n, hlength.trans_le hn, ?_, ?_⟩
    · rw [hheld, wrap, hlength, List.append_assoc, List.take_append_drop]
    · simp only [decode, hnext, hbody, Option.map_some]

/-- What a call comes to, told by the bytes that were not taken: it waits and takes none of them,
it fails and leaves everything in place, or it takes the frame in front of them. -/
theorem decode_cases (h : d.Fits) (s : Bytes) :
    (∃ d' s', d.decode s = (.ok none, d', s') ∧ d'.Fits ∧ d'.held s' = d.held s) ∨
      (∃ e, d.decode s = (.error e, d, s)) ∨
        ∃ b more, b.length ≤ maxLength ∧ d.held s = wrap b ++ more ∧
          d.decode s = (.ok (some (Message.ofBytes b)), {}, more) := by
  obtain ⟨_ | n⟩ := d
  · match s with
    | [] | [_] | [_, _] | [_, _, _] => exact .inl ⟨_, _, rfl, fits_new, rfl⟩
    | a :: b :: c :: e :: rest =>
      by_cases hbig : maxLength < announced a b c e
      · exact .inr (.inl ⟨.frameTooBig, by simp only [decode, next, if_pos hbig]⟩)
      · have hnext : next {} (a :: b :: c :: e :: rest) =
            .ok (body (announced a b c e) rest) := by
          simp only [next, if_neg hbig]
        have hheld : held {} (a :: b :: c :: e :: rest) = head (announced a b c e) ++ rest := by
          rw [head_announced]
          rfl
        exact (decode_of_body (Nat.not_lt.mp hbig) hnext hheld).imp_right .inr
  · exact (decode_of_body (h n rfl) rfl rfl).imp_right .inr

end Decoder

/-- The first of some frames, and what follows it, can be told from the bytes. -/
theorem wrap_append_inj {b c s t : Bytes} (hb : b.length ≤ maxLength) (hc : c.length ≤ maxLength)
    (h : wrap b ++ s = wrap c ++ t) : b = c ∧ s = t := by
  have hnext := Decoder.next_wrap hb s
  rw [h, Decoder.next_wrap hc, Except.ok.injEq, Taken.mk.injEq, Option.some.injEq] at hnext
  exact ⟨hnext.2.2.symm, hnext.2.1.symm⟩

/-! ## Events at the receiving end -/

/-- What happens at the receiving end of a stream. -/
inductive Event
  /-- A chunk of the stream comes. -/
  | comes (chunk : Bytes)
  /-- The decoder is called once. -/
  | call

/-- The bytes that come with an event. -/
def Event.bytes : Event → Bytes
  | .comes chunk => chunk
  | .call => []

namespace Received

/-- What was received, after one more event. -/
def step (r : Received) : Event → Received
  | .comes chunk => { r with buffer := r.buffer ++ chunk }
  | .call =>
    match r.decoder.decode r.buffer with
    | (.error e, d, s) => { r with decoder := d, buffer := s, fault := some e }
    | (.ok none, d, s) => { r with decoder := d, buffer := s }
    | (.ok (some m), d, s) => { r with decoder := d, buffer := s, messages := r.messages ++ [m] }

/-- What was received, after all events. -/
def run (r : Received) (events : List Event) : Received := events.foldl step r

/-- What the decoder gives at the end of the stream: the body of a last frame, or none. -/
def atEnd (r : Received) : Except IoFault (Option Bytes) :=
  (r.decoder.last r.buffer).1.map Taken.body

/-- The bytes that came are the frames that were taken, each for its message, and the bytes that
were not taken. -/
structure Accounts (r : Received) (taken : List Bytes) (stream : Bytes) : Prop where
  fits : r.decoder.Fits
  lengths : ∀ b ∈ taken, b.length ≤ maxLength
  messages : r.messages = taken.map Message.ofBytes
  stream_eq : stream = taken.flatMap wrap ++ r.decoder.held r.buffer

variable {r : Received} {taken : List Bytes} {stream : Bytes}

theorem accounts_new : Accounts {} [] [] := ⟨Decoder.fits_new, by simp, rfl, rfl⟩

/-- A call takes the frame that is in front. -/
theorem Accounts.call_takes (h : r.Accounts taken stream) {b more : Bytes}
    (hb : b.length ≤ maxLength) (hheld : r.decoder.held r.buffer = wrap b ++ more) :
    r.step .call = { r with decoder := {}, buffer := more,
                            messages := r.messages ++ [Message.ofBytes b] } ∧
      (r.step .call).Accounts (taken ++ [b]) stream := by
  have hstep : r.step .call = { r with decoder := {}, buffer := more,
                                       messages := r.messages ++ [Message.ofBytes b] } := by
    have hnext : r.decoder.next r.buffer = .ok ⟨{}, more, some b⟩ := by
      rw [Decoder.next_held h.fits, hheld, Decoder.next_wrap hb]
    simp only [step, Decoder.decode, hnext, Option.map_some]
  refine ⟨hstep, ?_⟩
  rw [hstep]
  refine ⟨Decoder.fits_new, fun c hc => ?_, by simp [h.messages], ?_⟩
  · rcases List.mem_append.mp hc with hc | hc
    · exact h.lengths c hc
    · exact List.mem_singleton.mp hc ▸ hb
  · rw [h.stream_eq, hheld]
    simp [Decoder.held]

theorem Accounts.step (h : r.Accounts taken stream) (e : Event) :
    ∃ more, (r.step e).Accounts (taken ++ more) (stream ++ e.bytes) := by
  cases e with
  | comes chunk =>
    refine ⟨[], ?_⟩
    rw [List.append_nil]
    refine ⟨h.fits, h.lengths, h.messages, ?_⟩
    rw [h.stream_eq, List.append_assoc, ← Decoder.held_append]
    rfl
  | call =>
    rcases Decoder.decode_cases h.fits r.buffer with
      ⟨d', s', hcall, hfits, hheld⟩ | ⟨e, hcall⟩ | ⟨b, s', hb, hheld, -⟩
    · refine ⟨[], ?_⟩
      rw [Received.step, hcall]
      exact ⟨hfits, by simpa using h.lengths, by simpa using h.messages,
        by simpa [Event.bytes, hheld] using h.stream_eq⟩
    · refine ⟨[], ?_⟩
      rw [Received.step, hcall]
      exact ⟨h.fits, by simpa using h.lengths, by simpa using h.messages,
        by simpa [Event.bytes] using h.stream_eq⟩
    · exact ⟨[b], by simpa [Event.bytes] using (h.call_takes hb hheld).2⟩

/-- Whatever the stream and whenever the decoder is called, no byte is lost. -/
theorem exists_accounts_run (events : List Event) :
    ∃ taken, (run {} events).Accounts taken (events.flatMap Event.bytes) := by
  suffices ∀ {r : Received} {taken stream}, r.Accounts taken stream →
      ∃ all, (r.run events).Accounts all (stream ++ events.flatMap Event.bytes) from
    this accounts_new
  induction events with
  | nil => exact fun h => ⟨_, by simpa [run] using h⟩
  | cons e events ih =>
    intro r taken stream h
    obtain ⟨more, hstep⟩ := h.step e
    obtain ⟨all, hall⟩ := ih hstep
    exact ⟨all, by simpa [run, List.append_assoc] using hall⟩

end Received

/-! ## Streams that are cut off -/

/-- Where a stream of frames is cut off: behind whole frames, in front of the next one or somewhere
in it. -/
structure Cut (bodies : List Bytes) (stream : Bytes) (whole : List Bytes) (tail : Bytes) :
    Prop where
  front : whole <+: bodies
  stream_eq : stream = whole.flatMap wrap ++ tail
  part : tail = [] ∨ ∃ b, whole ++ [b] <+: bodies ∧ tail <+: wrap b ∧ tail.length < (wrap b).length

theorem exists_cut {bodies : List Bytes} {stream : Bytes} (h : stream <+: bodies.flatMap wrap) :
    ∃ whole tail, Cut bodies stream whole tail := by
  induction bodies generalizing stream with
  | nil => exact ⟨[], [], List.prefix_refl _, List.prefix_nil.mp h, .inl rfl⟩
  | cons b bodies ih =>
    obtain ⟨rest, hrest⟩ := h
    rw [List.flatMap_cons, List.append_eq_append_iff] at hrest
    obtain ⟨more, hwrap, -⟩ | ⟨beyond, rfl, hbeyond⟩ := hrest
    · cases more with
      | nil =>
        rw [List.append_nil] at hwrap
        exact ⟨[b], [], ⟨bodies, rfl⟩, by simp [hwrap], .inl rfl⟩
      | cons x more =>
        refine ⟨[], stream, List.nil_prefix, rfl, .inr ⟨b, ⟨bodies, rfl⟩, ⟨_, hwrap.symm⟩, ?_⟩⟩
        rw [hwrap, List.length_append, List.length_cons]
        omega
    · obtain ⟨whole, tail, hwhole, rfl, htail⟩ := ih ⟨rest, hbeyond.symm⟩
      refine ⟨b :: whole, tail, List.cons_prefix_cons.mpr ⟨rfl, hwhole⟩, by simp, ?_⟩
      exact htail.imp_right fun ⟨c, hc, hpart⟩ => ⟨c, List.cons_prefix_cons.mpr ⟨rfl, hc⟩, hpart⟩

/-- A part of a frame that is longer than its head is the head and a part of the body. -/
theorem exists_of_prefix_wrap {b tail : Bytes} (h : tail <+: wrap b)
    (hlength : tail.length < (wrap b).length) (hhead : 4 ≤ tail.length) :
    ∃ s, tail = head b.length ++ s ∧ s.length < b.length := by
  refine ⟨tail.drop 4, ?_, ?_⟩
  · obtain ⟨rest, hrest⟩ := h
    rw [wrap, List.append_eq_append_iff] at hrest
    obtain ⟨more, hmore, -⟩ | ⟨s, rfl, -⟩ := hrest
    · have hlast := congrArg List.length hmore
      rw [length_head, List.length_append] at hlast
      obtain rfl := List.length_eq_zero_iff.mp (by omega : more.length = 0)
      rw [List.append_nil] at hmore
      rw [← hmore]
      rfl
    · rfl
  · rw [length_wrap] at hlength
    rw [List.length_drop]
    omega

namespace Cut

variable {bodies whole : List Bytes} {stream tail : Bytes}

/-- A stream that is cut off is the front of all frames. -/
theorem stream_isFront (h : Cut bodies stream whole tail) : stream <+: bodies.flatMap wrap := by
  obtain ⟨rest, rfl⟩ := h.front
  rw [h.stream_eq, List.flatMap_append]
  refine (List.prefix_append_right_inj _).mpr ?_
  obtain rfl | ⟨b, hb, hpart, -⟩ := h.part
  · exact List.nil_prefix
  · obtain ⟨more, rfl⟩ := (List.prefix_append_right_inj whole).mp hb
    exact hpart.trans ⟨more.flatMap wrap, by simp⟩

/-- A part of a frame gives no frame. If its head is there, the head is kept. -/
theorem next_tail (h : Cut bodies stream whole tail)
    (hbodies : ∀ b ∈ bodies, b.length ≤ maxLength) :
    ∃ d, Decoder.next {} tail =
      .ok ⟨d, if tail.length < 4 then tail else tail.drop 4, none⟩ := by
  rcases Nat.lt_or_ge tail.length 4 with hshort | hhead
  · rw [if_pos hshort]
    match tail with
    | [] | [_] | [_, _] | [_, _, _] => exact ⟨{}, rfl⟩
    | _ :: _ :: _ :: _ :: _ =>
      simp only [List.length_cons] at hshort
      omega
  · obtain rfl | ⟨b, hb, hpart, hlength⟩ := h.part
    · simp at hhead
    have hfits : b.length ≤ maxLength := hbodies b (hb.subset (by simp))
    obtain ⟨s, rfl, hs⟩ := exists_of_prefix_wrap hpart hlength hhead
    refine ⟨⟨some b.length⟩, ?_⟩
    rw [Decoder.next_head hfits, Decoder.body_of_lt hs, if_neg (Nat.not_lt.mpr hhead)]
    rfl

/-- What was taken of a stream that is cut off are the first of its whole frames. -/
theorem exists_rest (h : Cut bodies stream whole tail)
    (hbodies : ∀ b ∈ bodies, b.length ≤ maxLength)
    {taken : List Bytes} (htaken : ∀ b ∈ taken, b.length ≤ maxLength) {held : Bytes}
    (hstream : stream = taken.flatMap wrap ++ held) :
    ∃ rest, whole = taken ++ rest ∧ held = rest.flatMap wrap ++ tail := by
  obtain ⟨d, htail⟩ := h.next_tail hbodies
  have hwhole : ∀ b ∈ whole, b.length ≤ maxLength := fun b hb => hbodies b (h.front.subset hb)
  rw [h.stream_eq] at hstream
  clear h
  induction taken generalizing whole with
  | nil => exact ⟨whole, rfl, hstream.symm⟩
  | cons b taken ih =>
    have hb := htaken b List.mem_cons_self
    rw [List.flatMap_cons, List.append_assoc] at hstream
    cases whole with
    | nil =>
      rw [List.flatMap_nil, List.nil_append] at hstream
      rw [hstream, Decoder.next_wrap hb] at htail
      simp at htail
    | cons c whole =>
      have hc := hwhole c List.mem_cons_self
      rw [List.flatMap_cons, List.append_assoc] at hstream
      obtain ⟨rfl, hrest⟩ := wrap_append_inj hc hb hstream
      obtain ⟨rest, rfl, hheld⟩ := ih (fun b hb => htaken b (List.mem_cons_of_mem c hb)) hrest
        fun b hb => hwhole b (List.mem_cons_of_mem c hb)
      exact ⟨rest, rfl, hheld⟩

end Cut

namespace Received

variable {r : Received} {bodies taken whole : List Bytes} {stream tail : Bytes}

/-- No call fails on whole frames and a part of one. -/
theorem Accounts.fault_step (h : r.Accounts taken stream)
    (hbodies : ∀ b ∈ bodies, b.length ≤ maxLength) (hstream : stream <+: bodies.flatMap wrap)
    (hfault : r.fault = none) (e : Event) : (r.step e).fault = none := by
  cases e with
  | comes chunk => exact hfault
  | call =>
    obtain ⟨whole, tail, hcut⟩ := exists_cut hstream
    obtain ⟨rest, rfl, hheld⟩ := hcut.exists_rest hbodies h.lengths h.stream_eq
    cases rest with
    | nil =>
      obtain ⟨d, hnext⟩ := hcut.next_tail hbodies
      have hnext' := Decoder.next_held h.fits r.buffer
      rw [hheld, List.flatMap_nil, List.nil_append, hnext] at hnext'
      simp only [Received.step, Decoder.decode, hnext', Option.map_none, hfault]
    | cons b rest =>
      rw [List.flatMap_cons, List.append_assoc] at hheld
      have hb : b.length ≤ maxLength := hbodies b (hcut.front.subset (by simp))
      rw [(h.call_takes hb hheld).1]
      exact hfault

theorem Accounts.fault_run (h : r.Accounts taken stream)
    (hbodies : ∀ b ∈ bodies, b.length ≤ maxLength) (hfault : r.fault = none) (events : List Event)
    (hstream : stream ++ events.flatMap Event.bytes <+: bodies.flatMap wrap) :
    (r.run events).fault = none := by
  induction events generalizing r taken stream with
  | nil => exact hfault
  | cons e events ih =>
    obtain ⟨more, hstep⟩ := h.step e
    have hbefore : stream <+: bodies.flatMap wrap := (List.prefix_append _ _).trans hstream
    rw [List.flatMap_cons, ← List.append_assoc] at hstream
    exact ih hstep (h.fault_step hbodies hbefore hfault e) hstream

/-- As many calls as frames are still to be taken will take them. The induction is on the calls:
each takes a frame, unless all have been taken. -/
theorem Accounts.messages_calls (h : r.Accounts taken stream) (hcut : Cut bodies stream whole tail)
    (hbodies : ∀ b ∈ bodies, b.length ≤ maxLength) (n : ℕ)
    (hn : whole.length ≤ r.messages.length + n) :
    (r.run (List.replicate n .call)).messages = whole.map Message.ofBytes := by
  induction n generalizing r taken with
  | zero =>
    obtain ⟨rest, rfl, -⟩ := hcut.exists_rest hbodies h.lengths h.stream_eq
    rw [h.messages, List.length_map, List.length_append] at hn
    obtain rfl := List.length_eq_zero_iff.mp (by omega : rest.length = 0)
    rw [List.append_nil]
    exact h.messages
  | succ n ih =>
    obtain ⟨rest, hwhole, hheld⟩ := hcut.exists_rest hbodies h.lengths h.stream_eq
    rw [List.replicate_succ]
    cases rest with
    | nil =>
      obtain ⟨more, hstep⟩ := h.step .call
      rw [Event.bytes, List.append_nil] at hstep
      refine ih hstep ?_
      rw [hstep.messages, hwhole]
      simp only [List.length_append, List.length_map, List.length_nil]
      omega
    | cons b rest =>
      rw [List.flatMap_cons, List.append_assoc] at hheld
      have hb : b.length ≤ maxLength := hbodies b (hcut.front.subset (by simp [hwhole]))
      obtain ⟨hstep, haccounts⟩ := h.call_takes hb hheld
      refine ih haccounts ?_
      rw [hstep, List.length_append, List.length_singleton]
      omega

/-- What is seen at the end of a stream of which all whole frames were taken. -/
theorem Accounts.atEnd_eq (h : r.Accounts whole stream) (hcut : Cut bodies stream whole tail)
    (hbodies : ∀ b ∈ bodies, b.length ≤ maxLength) :
    r.atEnd = if tail.length = 0 ∨ tail.length = 4 then .ok none else .error .bytesRemaining := by
  obtain ⟨d, hnext⟩ := hcut.next_tail hbodies
  obtain ⟨rest, hwhole, hheld⟩ := hcut.exists_rest hbodies h.lengths h.stream_eq
  obtain rfl := List.append_right_eq_self.mp hwhole.symm
  have hnext' := Decoder.next_held h.fits r.buffer
  rw [hheld, List.flatMap_nil, List.nil_append, hnext] at hnext'
  have hempty : (if tail.length < 4 then tail else tail.drop 4).isEmpty = true ↔
      tail.length = 0 ∨ tail.length = 4 := by
    rw [List.isEmpty_iff, ← List.length_eq_zero_iff]
    split_ifs
    · omega
    · rw [List.length_drop]
      omega
  simp only [atEnd, Decoder.last, hnext', hempty]
  split_ifs <;> rfl

end Received

/-- A stream of frames that is cut off anywhere has whole frames, and behind them nothing or a part
of the next one. Whatever its chunks and whenever the decoder is called, no call fails, and what is
taken are the messages of whole frames in order; as many calls as are missing take all of them. Once
they are taken, the end of the stream is clean if nothing is behind them, and also if only a head
is; any other part of a frame is seen. -/
theorem end_of_cut (bodies : List Bytes) (hbodies : ∀ b ∈ bodies, b.length ≤ maxLength) :
    (∀ stream, stream <+: bodies.flatMap wrap → ∃ whole tail, Cut bodies stream whole tail) ∧
      ∀ (whole : List Bytes) (tail : Bytes) (events : List Event),
        Cut bodies (events.flatMap Event.bytes) whole tail →
          let r := Received.run {} events
          r.fault = none ∧ r.messages <+: whole.map Message.ofBytes ∧
            (∀ n, whole.length ≤ r.messages.length + n →
              (r.run (List.replicate n .call)).messages = whole.map Message.ofBytes) ∧
            (r.messages = whole.map Message.ofBytes →
              r.atEnd = if tail.length = 0 ∨ tail.length = 4 then .ok none
                else .error .bytesRemaining) := by
  refine ⟨fun stream hstream => exists_cut hstream, fun whole tail events hcut => ?_⟩
  obtain ⟨taken, haccounts⟩ := Received.exists_accounts_run events
  obtain ⟨rest, hwhole, -⟩ := hcut.exists_rest hbodies haccounts.lengths haccounts.stream_eq
  refine ⟨?_, ?_, haccounts.messages_calls hcut hbodies, fun hall => ?_⟩
  · exact Received.accounts_new.fault_run hbodies rfl events hcut.stream_isFront
  · rw [haccounts.messages, hwhole, List.map_append]
    exact List.prefix_append _ _
  · -- As many messages as whole frames, so all of these were taken.
    rw [haccounts.messages, hwhole] at hall
    have hlength := congrArg List.length hall
    simp only [List.length_map, List.length_append] at hlength
    obtain rfl := List.length_eq_zero_iff.mp (by omega : rest.length = 0)
    rw [List.append_nil] at hwhole
    exact (hwhole ▸ haccounts).atEnd_eq hcut hbodies

/-- A frame and a part of the next one, in chunks with calls between, cut off in the body. -/
theorem end_of_cut_inBody :
    (Received.run {} [.comes [0, 0], .call, .comes [0, 1, 0x7B, 0, 0, 0, 2], .call, .call,
      .comes [0x7D]]).atEnd = .error .bytesRemaining := by
  have hbodies : ∀ b ∈ ([[0x7B], [0x7D, 0x7D]] : List Bytes), b.length ≤ maxLength := by decide
  obtain ⟨-, hend⟩ := end_of_cut [[0x7B], [0x7D, 0x7D]] hbodies
  have hcut : Cut [[0x7B], [0x7D, 0x7D]] [0, 0, 0, 1, 0x7B, 0, 0, 0, 2, 0x7D] [[0x7B]]
      [0, 0, 0, 2, 0x7D] :=
    ⟨⟨_, rfl⟩, rfl, .inr ⟨[0x7D, 0x7D], ⟨[], rfl⟩, ⟨[0x7D], rfl⟩, by decide⟩⟩
  exact (hend [[0x7B]] [0, 0, 0, 2, 0x7D] [.comes [0, 0], .call,
    .comes [0, 1, 0x7B, 0, 0, 0, 2], .call, .call, .comes [0x7D]] hcut).2.2.2 rfl

/-- Not every part of a frame is seen at the end of a stream: a head that the decoder has kept
leaves the buffer empty. -/
theorem not_cut_seen : ¬∀ (bodies whole : List Bytes) (tail : Bytes) (events : List Event),
    (∀ b ∈ bodies, 0 < b.length ∧ b.length ≤ maxLength) →
    Cut bodies (events.flatMap Event.bytes) whole tail →
    (Received.run {} events).messages = whole.map Message.ofBytes →
      (Received.run {} events).atEnd = if tail = [] then .ok none else .error .bytesRemaining := by
  intro hseen
  have hcut : Cut [[0x7B]] [0, 0, 0, 1] [] [0, 0, 0, 1] :=
    ⟨⟨_, rfl⟩, rfl, .inr ⟨[0x7B], ⟨[], rfl⟩, ⟨[0x7B], rfl⟩, by decide⟩⟩
  have hend := hseen [[0x7B]] [] [0, 0, 0, 1] [.comes [0, 0, 0, 1], .call] (by decide) hcut rfl
  have hclean : (Received.run {} [.comes [0, 0, 0, 1], .call]).atEnd = .ok none := rfl
  exact nomatch hclean.symm.trans hend

end Frame

end PeerGateway
