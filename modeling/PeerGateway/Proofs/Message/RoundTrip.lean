import PeerGateway.Message.Codec
import PeerGateway.Proofs.Schema.RoundTrip

/-!
# Messages read back

A message is an object of its kind and its payload. Its text is read as its payload's is
(`Message.ofBytes_bytes_eq`), so it reads back (`Message.ofBytes_bytes`), and two messages of one
text are the same (`Message.text_determines`).
Only the binary64 numbers of a snapshot need to be assumed to read back by themselves
(`Message.NumbersReadBack`), which makes them finite (`Binary64.ReadsBack.isFinite`).
-/

namespace PeerGateway

open Json

/-! ## Kinds and payloads -/

theorem ProtocolError.ofIndex_index (e : ProtocolError) : ofIndex e.index = e := by
  cases e <;> rfl

theorem MessageType.ofIndex_index (t : MessageType) : ofIndex t.index = t := by
  cases t <;> rfl

theorem MessageType.isSound_schema (t : MessageType) : t.schema.IsSound := by
  cases t <;> simp

theorem JoinRequest.ofValue_value (r : JoinRequest) : ofValue r.value = r := by
  have hid : NodeId.mk ∘ NodeId.text = id := funext fun _ => rfl
  simp [ofValue, value, hid]

theorem JoinResponse.ofValue_value (r : JoinResponse) : ofValue r.value = r := by
  have herror : ProtocolError.ofIndex ∘ ProtocolError.index = id :=
    funext ProtocolError.ofIndex_index
  have hpeer : Peer.ofValue ∘ Peer.value = id := funext fun _ => rfl
  simp [ofValue, value, herror, hpeer]

namespace Message

theorem ofPayload_payload (m : Message) : ofPayload m.type m.payload = m := by
  cases m with
  | joinRequest r => exact congrArg joinRequest r.ofValue_value
  | joinResponse r => exact congrArg joinResponse r.ofValue_value
  | metrics => rfl
  | ping => rfl
  | pong => rfl
  | leave => rfl

/-- The binary64 numbers of a message. -/
def numbers : Message → List Binary64
  | .metrics m =>
    [m.cpuUsage, m.memoryUsage, m.requestsPerSec, m.averageLatencyMs, m.errorRate]
  | _ => []

/-- Every binary64 number of a message reads back by itself. -/
def NumbersReadBack (m : Message) : Prop := ∀ x ∈ m.numbers, x.ReadsBack

instance (m : Message) : Decidable m.NumbersReadBack :=
  inferInstanceAs (Decidable (∀ x ∈ m.numbers, x.ReadsBack))

theorem numbersReadBack_payload {m : Message} (h : m.NumbersReadBack) :
    m.type.schema.NumbersReadBack m.payload := by
  cases m with
  | joinRequest r =>
    show JoinRequest.schema.NumbersReadBack r.value
    simp
  | joinResponse r =>
    show JoinResponse.schema.NumbersReadBack r.value
    simp
  | metrics m =>
    show Snapshot.schema.NumbersReadBack m.value
    simpa [NumbersReadBack, numbers, Presence.values, Snapshot.value] using h
  | ping b =>
    show Heartbeat.schema.NumbersReadBack b.value
    simp
  | pong b =>
    show Heartbeat.schema.NumbersReadBack b.value
    simp
  | leave id =>
    show leaveSchema.NumbersReadBack (id.text, ())
    simp

/-! ## Reading a message -/

section Reading

variable {bound : ℕ} {s : Bytes}

/-- A member whose name has a meaning is stopped at. -/
theorem nextPart_of_member {first : Bool} {name : String} {p : Part} {t : Bytes}
    (hnext : nextMember bound first s = .ok (some (name, t))) (hname : Part.ofName? name = some p) :
    nextPart bound (bound + 1) first s = .ok (some p, t) := by
  simp only [nextPart, hnext, hname]

theorem readTag_tag (t : MessageType) (hs : EndsNumber s)
    (hbound : (quoted t.tag ++ s).length ≤ bound) :
    readTag bound (quoted t.tag ++ s) = .ok (t, s) := by
  have htags : MessageType.tags.Nodup := by decide
  have hread := Schema.readsAs_choice htags t.index s hs hbound
  rw [readTag, MessageType.tag, hread]
  simp only [t.ofIndex_index]

theorem finishObject_brace (m : Message) (s : Bytes) :
    finishObject bound m (Bytes.ascii '}' :: s) = .ok (m, s) := by
  simp only [finishObject, nextPart, nextMember_brace, closeObject_brace]

theorem readPayload_bytes (m : Message) (hs : EndsNumber s)
    (hbound : (m.type.schema.bytes m.payload ++ s).length ≤ bound) :
    readPayload bound m.type (m.type.schema.bytes m.payload ++ s) =
      (m.type.schema.reread m.payload).map fun v => (ofPayload m.type v, s) := by
  have hread := m.type.schema.readsTo_bytes bound m.payload m.type.isSound_schema s hs hbound
  rw [readPayload, hread]
  cases m.type.schema.reread m.payload <;> rfl

/-- A message's object is read from the value of its type on to what its payload is read to. -/
theorem readTypeFirst_bytes (m : Message)
    (hbound : (quoted m.type.tag ++ Bytes.ascii ',' ::
      (memberText "payload" (m.type.schema.bytes m.payload) ++ Bytes.ascii '}' :: s)).length ≤
        bound) :
    readTypeFirst bound (Bytes.ascii ':' :: (quoted m.type.tag ++ Bytes.ascii ',' ::
      (memberText "payload" (m.type.schema.bytes m.payload) ++ Bytes.ascii '}' :: s))) =
        (m.type.schema.reread m.payload).map fun v => (ofPayload m.type v, s) := by
  have htag := readTag_tag m.type (endsNumber_comma _) hbound
  simp only [List.length_append, List.length_cons] at hbound
  have hmember : (memberText "payload" (m.type.schema.bytes m.payload) ++
      Bytes.ascii '}' :: s).length ≤ bound := by
    simp only [List.length_append, List.length_cons]
    omega
  have hvalue : (m.type.schema.bytes m.payload ++ Bytes.ascii '}' :: s).length ≤ bound := by
    simp only [memberText, List.length_append, List.length_cons] at hmember ⊢
    omega
  have hpart : nextPart bound (bound + 1) false (Bytes.ascii ',' :: (memberText "payload"
      (m.type.schema.bytes m.payload) ++ Bytes.ascii '}' :: s)) = .ok (some .payload, _) :=
    nextPart_of_member (nextMember_next hmember) rfl
  have hpayload := readPayload_bytes m (endsNumber_brace s) hvalue
  simp only [readTypeFirst, colon_cons, htag, hpart, hpayload]
  cases m.type.schema.reread m.payload with
  | error f => rfl
  | ok v => exact finishObject_brace (ofPayload m.type v) s

/-- A message is read from its text to what its payload is read to, whatever follows. -/
theorem readsTo_bytes (m : Message) :
    ReadsTo bound (read bound) m.bytes
      ((m.type.schema.reread m.payload).map (ofPayload m.type)) := by
  intro rest _ hbound
  have htext : m.bytes ++ rest = Bytes.ascii '{' :: (memberText "type" (quoted m.type.tag) ++
      Bytes.ascii ',' :: (memberText "payload" (m.type.schema.bytes m.payload) ++
        Bytes.ascii '}' :: rest)) := by
    simp [bytes, braced, separated]
  rw [htext] at hbound ⊢
  have hmembers := Nat.le_of_succ_le hbound
  have hpart : nextPart bound (bound + 1) true (memberText "type" (quoted m.type.tag) ++
      Bytes.ascii ',' :: (memberText "payload" (m.type.schema.bytes m.payload) ++
        Bytes.ascii '}' :: rest)) = .ok (some .type, _) :=
    nextPart_of_member (nextMember_first hmembers) rfl
  have hrest : (quoted m.type.tag ++ Bytes.ascii ',' :: (memberText "payload"
      (m.type.schema.bytes m.payload) ++ Bytes.ascii '}' :: rest)).length ≤ bound := by
    simp only [memberText, List.length_append, List.length_cons] at hmembers ⊢
    omega
  have hbrace : Bytes.ascii '{' ≠ Bytes.ascii '[' := by decide
  rw [read, skipBlank_cons _ (by decide)]
  simp only [if_neg hbrace, if_true, hpart, readTypeFirst_bytes m hrest]
  cases m.type.schema.reread m.payload <;> rfl

end Reading

/-- A message's text is read to what its payload is read to. -/
theorem ofBytes_bytes_eq (m : Message) :
    ofBytes m.bytes = (m.type.schema.reread m.payload).map (ofPayload m.type) := by
  have hread := readsTo_bytes m [] endsNumber_nil (Nat.le_refl _)
  rw [List.append_nil] at hread
  simp only [ofBytes, whole, hread]
  cases m.type.schema.reread m.payload <;> rfl

/-- A message is read back from its text. -/
theorem ofBytes_bytes {m : Message} (h : m.NumbersReadBack) : ofBytes m.bytes = .ok m := by
  rw [ofBytes_bytes_eq, Schema.reread_eq_ok _ _ (numbersReadBack_payload h)]
  exact congrArg Except.ok (ofPayload_payload m)

/-- Every message whose numbers read back is read back from its text, so different messages have
different texts. -/
theorem text_determines :
    (∀ m : Message, m.NumbersReadBack → ofBytes m.bytes = .ok m) ∧
      ∀ m m' : Message, m.NumbersReadBack → m'.NumbersReadBack → m ≠ m' → m.bytes ≠ m'.bytes := by
  refine ⟨fun m h => ofBytes_bytes h, fun m m' h h' hne heq => ?_⟩
  have hread := ofBytes_bytes h
  rw [heq, ofBytes_bytes h'] at hread
  exact hne (Except.ok.inj hread).symm

/-- The load of a node whose name needs escapes and more than one byte a character. -/
def oddlyNamed (cpu : Binary64) : Message :=
  .metrics ⟨⟨"a\"b\\c\n\u0007é😀"⟩, "", cpu, 0, 1 / 3, -5, 0xffffffffffffffff, 100, 0⟩

theorem text_determines_oddlyNamed :
    ofBytes (oddlyNamed 80).bytes = .ok (oddlyNamed 80) ∧
      (oddlyNamed 80).bytes ≠ (oddlyNamed (80 / 7)).bytes := by
  have h : (oddlyNamed 80).NumbersReadBack := by decide +kernel
  have h' : (oddlyNamed (80 / 7)).NumbersReadBack := by decide +kernel
  have hne : oddlyNamed 80 ≠ oddlyNamed (80 / 7) := by decide +kernel
  exact ⟨text_determines.1 _ h, text_determines.2 _ _ h h' hne⟩

end Message

end PeerGateway
