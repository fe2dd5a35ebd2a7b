import PeerGateway.Proofs.Message.Finite
import PeerGateway.Proofs.Message.RoundTrip
import PeerGateway.Proofs.Schema.Retold
import PeerGateway.Proofs.Schema.Variants

/-!
# Messages of older and newer peers

A peer of another version writes a message with members that this one does not know, leaves out
those that hold their default, and has its own order of members and its own blanks. All of that is
a `Message.Variant`; the type stands in front of the payload in it. A message that survives being
written and read is read from each of its variants (`Message.ofBytes_variant`): it survives exactly
if its numbers read back (`Message.ofBytes_bytes_iff`), so its payload does.
-/

namespace PeerGateway

open Json

/-! ## Messages that survive -/

theorem Binary64.readsBack_iff {x : Binary64} : x.ReadsBack ↔ x.isFinite = true ∧ x.retold = x := by
  constructor
  · intro h
    exact ⟨h.isFinite, by rw [retold, h.reread_eq]; rfl⟩
  · rintro ⟨hfinite, hretold⟩
    obtain ⟨y, hy, -, -, hreads⟩ := exists_reread hfinite
    obtain rfl : y = x := by
      rw [retold, hy] at hretold
      exact hretold
    have hread := hreads (realText y).length [] endsNumber_nil (by simp)
    rw [List.append_nil] at hread
    exact hread

namespace Message

/-- A message survives exactly if its numbers read back. -/
theorem ofBytes_bytes_iff {m : Message} : ofBytes m.bytes = .ok m ↔ m.NumbersReadBack := by
  refine ⟨fun h => ?_, ofBytes_bytes⟩
  have hfinite := numbersAreFinite_of_ofBytes h
  suffices hretold : ∀ x ∈ m.numbers, x.retold = x from
    fun x hx => Binary64.readsBack_iff.mpr ⟨hfinite x hx, hretold x hx⟩
  rw [ofBytes_bytes_eq, Schema.reread_eq_ite] at h
  split_ifs at h
  · cases m with
    | metrics m =>
      have hsame : Snapshot.ofValue (Snapshot.schema.retold m.value) = m :=
        Message.metrics.inj (Except.ok.inj h)
      simp only [numbers, List.forall_mem_cons]
      exact ⟨congrArg Snapshot.cpuUsage hsame, congrArg Snapshot.memoryUsage hsame,
        congrArg Snapshot.requestsPerSec hsame, congrArg Snapshot.averageLatencyMs hsame,
        congrArg Snapshot.errorRate hsame, List.forall_mem_nil _⟩
    | joinRequest r => exact List.forall_mem_nil _
    | joinResponse r => exact List.forall_mem_nil _
    | ping b => exact List.forall_mem_nil _
    | pong b => exact List.forall_mem_nil _
    | leave id => exact List.forall_mem_nil _
  · cases h

/-! ## Payloads with fields left out -/

end Message

/-- A field has a value, unless it is left out since the value is its default. -/
def IsFieldOf {α : Type} (default a : α) (field : Option α) : Prop :=
  field = some a ∨ field = none ∧ a = default

theorem IsFieldOf.getD_eq {α : Type} {default a : α} {field : Option α}
    (h : IsFieldOf default a field) : field.getD default = a := by
  rcases h with rfl | ⟨rfl, rfl⟩ <;> rfl

/-- A payload is that of a join request, but an empty list and a flag that is not set may be left
out. -/
def JoinRequest.IsPayload (r : JoinRequest) : JoinRequest.schema.Value → Prop
  | (id, address, visited, behindNat, ()) => id = r.nodeId.text ∧ address = r.address ∧
    IsFieldOf [] (r.visited.map NodeId.text) visited ∧ IsFieldOf false r.behindNat behindNat

theorem JoinRequest.IsPayload.ofValue_eq {r : JoinRequest} {v : JoinRequest.schema.Value}
    (h : r.IsPayload v) : ofValue v = r := by
  obtain ⟨id, address, visited, behindNat, ⟨⟩⟩ := v
  obtain ⟨rfl, rfl, hvisited, hnat⟩ := h
  refine Eq.trans ?_ r.ofValue_value
  simp only [ofValue, value, hvisited.getD_eq, hnat.getD_eq, Option.getD_some]

/-- A payload is that of an answer to a join request, but an empty list may be left out. -/
def JoinResponse.IsPayload (r : JoinResponse) : JoinResponse.schema.Value → Prop
  | (success, error, alternatives, natPort, id, address, ()) => success = r.success ∧
    error = r.error.map ProtocolError.index ∧
    IsFieldOf [] (r.alternatives.map Peer.value) alternatives ∧ natPort = r.natPort ∧
    id = r.nodeId.text ∧ address = r.address

theorem JoinResponse.IsPayload.ofValue_eq {r : JoinResponse} {v : JoinResponse.schema.Value}
    (h : r.IsPayload v) : ofValue v = r := by
  obtain ⟨success, error, alternatives, natPort, id, address, ⟨⟩⟩ := v
  obtain ⟨rfl, rfl, halternatives, rfl, rfl, rfl⟩ := h
  refine Eq.trans ?_ r.ofValue_value
  simp only [ofValue, value, halternatives.getD_eq, Option.getD_some]

namespace Message

/-- A payload is that of a message, but what holds its default may be left out. -/
def IsPayload : (m : Message) → m.type.schema.Value → Prop
  | .joinRequest r, v => r.IsPayload v
  | .joinResponse r, v => r.IsPayload v
  | .metrics m, v => v = m.value
  | .ping b, v => v = b.value
  | .pong b, v => v = b.value
  | .leave id, v => v = (id.text, ())

theorem isPayload_payload (m : Message) : m.IsPayload m.payload := by
  cases m with
  | joinRequest r => exact ⟨rfl, rfl, Or.inl rfl, Or.inl rfl⟩
  | joinResponse r => exact ⟨rfl, rfl, Or.inl rfl, rfl, rfl, rfl⟩
  | metrics m => rfl
  | ping b => rfl
  | pong b => rfl
  | leave id => rfl

/-- A payload is read as the message that it is of. -/
theorem IsPayload.ofPayload_eq {m : Message} {v : m.type.schema.Value} (h : m.IsPayload v) :
    ofPayload m.type v = m := by
  have hpayload := ofPayload_payload m
  cases m with
  | joinRequest r => exact congrArg joinRequest h.ofValue_eq
  | joinResponse r => exact congrArg joinResponse h.ofValue_eq
  | metrics m => exact h ▸ hpayload
  | ping b => exact h ▸ hpayload
  | pong b => exact h ▸ hpayload
  | leave id => exact h ▸ hpayload

/-- What is left out is no number. -/
theorem IsPayload.numbersReadBack {m : Message} {v : m.type.schema.Value} (h : m.IsPayload v)
    (hm : m.NumbersReadBack) : m.type.schema.NumbersReadBack v := by
  have hpayload := numbersReadBack_payload hm
  cases m with
  | joinRequest r =>
    obtain ⟨id, address, visited, behindNat, ⟨⟩⟩ := v
    show JoinRequest.schema.NumbersReadBack _
    simp
  | joinResponse r =>
    obtain ⟨success, error, alternatives, natPort, id, address, ⟨⟩⟩ := v
    show JoinResponse.schema.NumbersReadBack _
    simp
  | metrics m => exact h ▸ hpayload
  | ping b => exact h ▸ hpayload
  | pong b => exact h ▸ hpayload
  | leave id => exact h ▸ hpayload

/-! ## Variants -/

/-- A member of a message's object that has no meaning. -/
def IsOther (o : Named) : Prop := o.key ≠ "type" ∧ o.key ≠ "payload" ∧ IsValue o.value.core

/-- Another text of a message: an object with the type and then the payload in it, which is written
in some variant, perhaps without fields that hold their default. Around the two are any members of
no meaning, and blanks stand between all tokens. -/
structure Variant (m : Message) where
  /-- The blanks in front of the message. -/
  before : Blanks
  /-- The members in front of the type. -/
  ahead : List Named
  type : Named
  /-- The members between the type and the payload. -/
  between : List Named
  payload : Named
  /-- The members behind the payload. -/
  behind : List Named
  /-- The blanks before the object closes. -/
  last : Blanks
  /-- The blanks behind the message. -/
  after : Blanks
  /-- What is written as the payload. -/
  value : m.type.schema.Value
  type_key : type.key = "type"
  type_text : type.value.core = quoted m.type.tag
  payload_key : payload.key = "payload"
  payload_text : m.type.schema.IsVariant value payload.value.core
  isPayload : m.IsPayload value
  isOther : ∀ o ∈ ahead ++ between ++ behind, IsOther o

/-- The members of a variant. -/
def Variant.members {m : Message} (x : m.Variant) : List Named :=
  x.ahead ++ x.type :: (x.between ++ x.payload :: x.behind)

def Variant.text {m : Message} (x : m.Variant) : Bytes :=
  x.before.text ++ (Open.object.enclosed (texts x.members) x.last ++ x.after.text)

/-- A message as it is written, member by member. -/
def written (m : Message) : m.Variant where
  before := .none
  ahead := []
  type := .bare "type" (quoted m.type.tag)
  between := []
  payload := .bare "payload" (m.type.schema.bytes m.payload)
  behind := []
  last := .none
  after := .none
  value := m.payload
  type_key := rfl
  type_text := rfl
  payload_key := rfl
  payload_text := m.type.schema.isVariant_bytes m.payload
  isPayload := m.isPayload_payload
  isOther := List.forall_mem_nil _

/-- The text that a message is written as is one of its variants. -/
theorem text_written (m : Message) : m.written.text = m.bytes := by
  simp [Variant.text, Variant.members, written, texts, Open.enclosed_object, bytes]

/-! ## Members of a message -/

section Reading

variable {bound : ℕ} {m : Message}

/-- A member of no meaning is skipped. -/
theorem nextPart_other {o : Named} (ho : IsOther o) {s : Bytes} (hs : EndsNumber s)
    (hbound : (o.text ++ s).length ≤ bound) (fuel : ℕ) (first : Bool) (bl : Blanks) :
    nextPart bound (fuel + 1) first (bl.text ++ (comma first ++ (o.text ++ s))) =
      nextPart bound fuel false (o.value.after.text ++ s) := by
  obtain ⟨htype, hpayload, hvalue⟩ := ho
  have hpart : Part.ofName? o.key = none := by rw [Part.ofName?, if_neg htype, if_neg hpayload]
  have hskip := skipValue_value o.value.before hvalue (endsNumber_blanks o.value.after hs)
    (length_of_text hbound).2
  rw [nextPart, nextMember_blanks, nextMember_comma o first s hbound]
  simp only [hpart, colon_name, Padded.text_append, hskip]

/-- Members of no meaning are skipped up to the first piece behind them. -/
theorem nextPart_others (ps : List Bytes) {s : Bytes} (hs : EndsNumber s) (fuel : ℕ) :
    ∀ (os : List Named) (first : Bool) (bl : Blanks), (∀ o ∈ os, IsOther o) →
    (listed first (texts os ++ ps) ++ s).length ≤ bound → ∃ (first' : Bool) (bl' : Blanks),
      nextPart bound (fuel + os.length) first (bl.text ++ (listed first (texts os ++ ps) ++ s)) =
        nextPart bound fuel first' (bl'.text ++ (listed first' ps ++ s))
  | [], first, bl, _, _ => ⟨first, bl, rfl⟩
  | o :: os, first, bl, hos, hbound => by
    rw [texts_cons, List.cons_append, listed, List.append_assoc, List.append_assoc] at hbound ⊢
    rw [List.length_append] at hbound
    have hmore : (listed false (texts os ++ ps) ++ s).length ≤ bound := by
      rw [List.length_append] at hbound
      omega
    rw [List.length_cons, ← Nat.add_assoc,
      nextPart_other (hos o List.mem_cons_self) (endsNumber_listed _ hs) (by omega)]
    exact nextPart_others ps hs fuel os false o.value.after
      (fun o' ho' => hos o' (List.mem_cons_of_mem o ho')) hmore

/-- There are fewer members in a text than steps. -/
theorem exists_fuel {first : Bool} {os : List Named} {ps : List Bytes} {s : Bytes}
    (hs : 0 < s.length) (hbound : (listed first (texts os ++ ps) ++ s).length ≤ bound) :
    ∃ fuel, bound + 1 = fuel + 1 + os.length := by
  have hlength := length_le_length_listed first (texts os ++ ps)
  rw [List.length_append, length_texts] at hlength
  rw [List.length_append] at hbound
  exact ⟨bound - os.length, by omega⟩

/-- The next part is found behind members of no meaning. -/
theorem nextPart_found {p : Part} {o : Named} (ho : Part.ofName? o.key = some p) {first : Bool}
    (bl : Blanks) {os ms : List Named} (hos : ∀ o ∈ os, IsOther o) {s : Bytes} (hs : EndsNumber s)
    (hpos : 0 < s.length) (hbound : (listed first (texts (os ++ o :: ms)) ++ s).length ≤ bound) :
    nextPart bound (bound + 1) first (bl.text ++ (listed first (texts (os ++ o :: ms)) ++ s)) =
      .ok (some p, o.name.after.text ++
        Bytes.ascii ':' :: (o.value.text ++ (listed false (texts ms) ++ s))) := by
  rw [texts_append, texts_cons] at hbound ⊢
  have hmember := Nat.le_trans (length_le_listed first _ _ _ s) hbound
  obtain ⟨fuel, hfuel⟩ := exists_fuel hpos hbound
  obtain ⟨first', bl', hnext⟩ := nextPart_others _ hs (fuel + 1) os first bl hos hbound
  rw [hfuel, hnext, listed, List.append_assoc, List.append_assoc, nextPart, nextMember_blanks,
    nextMember_comma o first' _ hmember]
  simp only [ho]

/-- A message's object ends behind members of no meaning. -/
theorem finishObject_others (m : Message) (last bl : Blanks) (rest : Bytes) {os : List Named}
    (hos : ∀ o ∈ os, IsOther o) (hbound : (listed false (texts os) ++
      (last.text ++ Bytes.ascii '}' :: rest)).length ≤ bound) :
    finishObject bound m (bl.text ++ (listed false (texts os) ++
      (last.text ++ Bytes.ascii '}' :: rest))) = .ok (m, rest) := by
  have hlast := endsNumber_blanks last (endsNumber_brace rest)
  rw [← List.append_nil (texts os)] at hbound ⊢
  obtain ⟨fuel, hfuel⟩ := exists_fuel (by simp) hbound
  obtain ⟨first', bl', hnext⟩ := nextPart_others [] hlast (fuel + 1) os false bl hos hbound
  rw [finishObject, hfuel, hnext, listed, List.nil_append, nextPart, nextMember_blanks,
    nextMember_blanks, nextMember_brace]
  simp only [closeObject_blanks, closeObject_brace]

/-! ## Variants read -/

variable (x : m.Variant)

/-- The type of a variant is read, with the blanks in front of it. -/
theorem readTag_variant {s : Bytes} (hs : EndsNumber s)
    (hbound : (x.type.value.core ++ (x.type.value.after.text ++ s)).length ≤ bound) :
    readTag bound (x.type.value.text ++ s) = .ok (m.type, x.type.value.after.text ++ s) := by
  rw [x.type_text] at hbound
  have htag := readTag_tag m.type (endsNumber_blanks x.type.value.after hs) hbound
  rw [Padded.text_append, x.type_text, readTag, Schema.readChoice, skipBlank_blanks]
  exact htag

/-- The payload of a variant is read as the message, with the blanks in front of it. -/
theorem readPayload_variant (hm : m.NumbersReadBack) {s : Bytes} (hs : EndsNumber s)
    (hbound : (x.payload.value.core ++ (x.payload.value.after.text ++ s)).length ≤ bound) :
    readPayload bound m.type (x.payload.value.text ++ s) =
      .ok (m, x.payload.value.after.text ++ s) := by
  have hread := m.type.schema.readsAs_variant bound x.value x.payload.value.core
    m.type.isSound_schema (x.isPayload.numbersReadBack hm) x.payload_text _
    (endsNumber_blanks x.payload.value.after hs) hbound
  rw [readPayload, Padded.text_append, Schema.read_blanks, hread]
  simp only [x.isPayload.ofPayload_eq]

/-- A variant's object is read from the value of its type on. -/
theorem readTypeFirst_variant (hm : m.NumbersReadBack) {rest : Bytes}
    (hbound : (x.type.text ++ (listed false (texts (x.between ++ x.payload :: x.behind)) ++
      (x.last.text ++ Bytes.ascii '}' :: rest))).length ≤ bound) :
    readTypeFirst bound (x.type.name.after.text ++ Bytes.ascii ':' :: (x.type.value.text ++
      (listed false (texts (x.between ++ x.payload :: x.behind)) ++
        (x.last.text ++ Bytes.ascii '}' :: rest)))) = .ok (m, rest) := by
  have hlast := endsNumber_blanks x.last (endsNumber_brace rest)
  have hpart : Part.ofName? x.payload.key = some .payload := by
    rw [x.payload_key]
    rfl
  have hmembers : (listed false (texts (x.between ++ x.payload :: x.behind)) ++
      (x.last.text ++ Bytes.ascii '}' :: rest)).length ≤ bound := by
    rw [List.length_append] at hbound
    omega
  have hpayload : (x.payload.text ++ (listed false (texts x.behind) ++
      (x.last.text ++ Bytes.ascii '}' :: rest))).length ≤ bound := by
    rw [texts_append, texts_cons] at hmembers
    exact Nat.le_trans (length_le_listed _ _ _ _ _) hmembers
  have hbehind : (listed false (texts x.behind) ++
      (x.last.text ++ Bytes.ascii '}' :: rest)).length ≤ bound := by
    rw [List.length_append] at hpayload
    omega
  have htag := readTag_variant x (endsNumber_listed _ hlast) (length_of_text hbound).2
  have hfound := nextPart_found hpart x.type.value.after
    (fun o ho => x.isOther o (by simp [ho])) hlast (by simp) hmembers
  have hread := readPayload_variant x hm (endsNumber_listed _ hlast) (length_of_text hpayload).2
  have hend := finishObject_others m x.last x.payload.value.after rest
    (fun o ho => x.isOther o (by simp [ho])) hbehind
  simp only [readTypeFirst, colon_name, htag, hfound, hread, hend]

/-- A variant's object is read, with the blanks in front of it. -/
theorem read_variant (hm : m.NumbersReadBack) {rest : Bytes}
    (hbound : (Open.object.enclosed (texts x.members) x.last ++ rest).length ≤ bound) :
    read bound (x.before.text ++ (Open.object.enclosed (texts x.members) x.last ++ rest)) =
      .ok (m, rest) := by
  have hopen : Open.object.enclosed (texts x.members) x.last ++ rest = Bytes.ascii '{' ::
      (listed true (texts x.members) ++ (x.last.text ++ Bytes.ascii '}' :: rest)) :=
    enclosed_append ..
  rw [hopen, Variant.members] at hbound ⊢
  have hmembers := Nat.le_of_succ_le hbound
  have hpart : Part.ofName? x.type.key = some .type := by
    rw [x.type_key]
    rfl
  have htype : (x.type.text ++ (listed false (texts (x.between ++ x.payload :: x.behind)) ++
      (x.last.text ++ Bytes.ascii '}' :: rest))).length ≤ bound := by
    rw [texts_append, texts_cons] at hmembers
    exact Nat.le_trans (length_le_listed _ _ _ _ _) hmembers
  have hfound := nextPart_found hpart .none (fun o ho => x.isOther o (by simp [ho]))
    (endsNumber_blanks x.last (endsNumber_brace rest)) (by simp) hmembers
  rw [Blanks.text_none, List.nil_append] at hfound
  have hbrace : Bytes.ascii '{' ≠ Bytes.ascii '[' := by decide
  rw [read, skipBlank_blanks, skipBlank_cons _ (by decide)]
  simp only [if_neg hbrace, if_true, hfound, readTypeFirst_variant x hm htype]

end Reading

/-- A message that survives being written and read is read from every variant of its text. -/
theorem ofBytes_variant {m : Message} (h : ofBytes m.bytes = .ok m) (x : m.Variant) :
    ofBytes x.text = .ok m := by
  have hbound : (Open.object.enclosed (texts x.members) x.last ++ x.after.text).length ≤
      x.text.length := by
    simp [Variant.text]
  have hread := read_variant x (ofBytes_bytes_iff.mp h) hbound
  have hafter : atEnd x.after.text = true := by
    have hblank := skipBlank_blanks x.after []
    rw [List.append_nil] at hblank
    rw [atEnd, hblank]
    rfl
  rw [ofBytes, whole]
  rw [Variant.text] at hread ⊢
  simp only [hread, hafter, if_true]

/-- The answer of a node that takes a joiner in and has no other peer. -/
def welcome : Message := .joinResponse ⟨true, none, [], none, ⟨"b"⟩, "h:2"⟩

/-- The fields that a newer peer answers with: only those without a default. -/
def welcomeFields : List Named :=
  [.bare "success" (flagText true), .bare "node_id" (quoted "b"), .bare "address" (quoted "h:2")]

/-- A field that only newer peers know. -/
def welcomeHint : Named := .bare "hint" (Open.list.enclosed [nullText] .none)

/-- The answer as a newer peer writes it, with the fields last to first. -/
def newerWelcome : welcome.Variant where
  before := ⟨[0x0A], by simp [IsBlank]⟩
  ahead := [.bare "version" nullText]
  type := .bare "type" (quoted "JoinResponse")
  between := []
  payload :=
    .bare "payload" (Open.object.enclosed (texts (welcomeFields ++ [welcomeHint]).reverse) .none)
  behind := []
  last := ⟨[0x20], by simp [IsBlank]⟩
  after := .none
  value := (true, none, none, none, "b", "h:2", ())
  type_key := rfl
  type_text := rfl
  payload_key := rfl
  payload_text := by
    refine ⟨welcomeFields, [welcomeHint], _, .none, ?_, ?_, List.reverse_perm _, rfl⟩
    · -- The second, third and fourth field are left out.
      exact Or.inr ⟨_, _, rfl, rfl, rfl, Or.inl ⟨rfl, Or.inl ⟨rfl, Or.inl ⟨rfl,
        Or.inr ⟨_, _, rfl, rfl, rfl, Or.inr ⟨_, _, rfl, rfl, rfl, rfl⟩⟩⟩⟩⟩⟩
    · rw [List.forall_mem_singleton]
      refine ⟨by decide, IsValue.list [.bare nullText] .none ?_⟩
      rw [List.forall_mem_singleton]
      exact IsValue.null
  isPayload := ⟨rfl, rfl, Or.inr ⟨rfl, rfl⟩, rfl, rfl, rfl⟩
  isOther := List.forall_mem_singleton.mpr ⟨by decide, by decide, IsValue.null⟩

theorem ofBytes_variant_newerWelcome : ofBytes welcome.bytes = .ok welcome ∧
    newerWelcome.text = Bytes.ofString ("\n\x7b\"version\":null,\"type\":\"JoinResponse\"," ++
      "\"payload\":\x7b\"hint\":[null],\"address\":\"h:2\",\"node_id\":\"b\"," ++
      "\"success\":true\x7d \x7d") ∧
    ofBytes newerWelcome.text = .ok welcome := by
  have h : ofBytes welcome.bytes = .ok welcome := by decide +kernel
  exact ⟨h, by decide +kernel, ofBytes_variant h newerWelcome⟩

end Message

end PeerGateway
