import PeerGateway.Proofs.Message.RoundTrip
import PeerGateway.Proofs.Schema.Finite

/-!
# Messages that are read have finite numbers

Whatever way a message takes, its payload is read as a value of its schema or made from a JSON
value, so the binary64 numbers of a message are finite (`Message.numbersAreFinite_of_ofBytes`).
-/

namespace PeerGateway

open Json

namespace Message

/-- Every binary64 number of a message is finite. -/
def NumbersAreFinite (m : Message) : Prop := ∀ x ∈ m.numbers, x.isFinite = true

theorem numbersAreFinite_ofPayload {t : MessageType} {v : t.schema.Value}
    (h : t.schema.NumbersAreFinite v) : (ofPayload t v).NumbersAreFinite := by
  cases t with
  | metrics =>
    obtain ⟨id, address, cpu, memory, rps, latency, active, errors, timestamp, ⟨⟩⟩ := v
    simpa [NumbersAreFinite, ofPayload, Snapshot.ofValue, numbers, Presence.values] using h
  | joinRequest => simp [NumbersAreFinite, ofPayload, numbers]
  | joinResponse => simp [NumbersAreFinite, ofPayload, numbers]
  | ping => simp [NumbersAreFinite, ofPayload, numbers]
  | pong => simp [NumbersAreFinite, ofPayload, numbers]
  | leave => simp [NumbersAreFinite, ofPayload, numbers]

variable {bound : ℕ} {s : Bytes}

theorem gives_readPayload (t : MessageType) : Gives NumbersAreFinite (readPayload bound t s) := by
  unfold readPayload
  split
  · exact gives_error _
  · rename_i v rest hv
    exact gives_ok (numbersAreFinite_ofPayload (t.schema.gives_read bound s v rest hv))

theorem gives_finishObject {m : Message} (hm : m.NumbersAreFinite) :
    Gives NumbersAreFinite (finishObject bound m s) := by
  unfold finishObject
  split
  · exact gives_error _
  · exact gives_error _
  · split
    · exact gives_error _
    · exact gives_ok hm

theorem gives_readTypeFirst : Gives NumbersAreFinite (readTypeFirst bound s) := by
  unfold readTypeFirst
  split
  · exact gives_error _
  split
  · exact gives_error _
  split
  · exact gives_error _
  · split
    · exact gives_error _
    · split
      · exact gives_error _
      · rename_i m rest hm
        exact gives_finishObject (gives_readPayload _ m rest hm)
  · exact gives_error _

theorem gives_readPayloadFirst : Gives NumbersAreFinite (readPayloadFirst bound s) := by
  unfold readPayloadFirst
  split
  · exact gives_error _
  split
  · exact gives_error _
  rename_i kept _ hkept
  split
  · exact gives_error _
  · split
    · exact gives_error _
    split
    · exact gives_error _
    split
    · exact gives_error _
    · rename_i v hv
      have hfinite := gives_read _ _ kept _ hkept
      exact gives_finishObject
        (numbersAreFinite_ofPayload (Schema.numbersAreFinite_of_ofJson? _ hfinite hv))
  · exact gives_error _

theorem gives_readList : Gives NumbersAreFinite (readList bound s) := by
  unfold readList
  split
  · exact gives_error _
  · exact gives_error _
  split
  · exact gives_error _
  split
  · exact gives_error _
  · exact gives_error _
  split
  · exact gives_error _
  rename_i m _ hm
  split
  · exact gives_error _
  · exact gives_ok (gives_readPayload _ m _ hm)

/-- Every binary64 number of a message that is read is finite. -/
theorem numbersAreFinite_of_ofBytes {text : Bytes} {m : Message} (h : ofBytes text = .ok m) :
    m.NumbersAreFinite := by
  have hgives : Gives NumbersAreFinite (read text.length text) := by
    unfold read
    split
    · exact gives_error _
    · split
      · exact gives_readList
      · split
        · split
          · exact gives_error _
          · exact gives_error _
          · exact gives_readTypeFirst
          · exact gives_readPayloadFirst
        · exact gives_error _
  unfold ofBytes whole at h
  split at h
  · cases h
  · rename_i m' rest hread
    split_ifs at h
    obtain rfl := Except.ok.inj h
    exact hgives m' rest hread

end Message

end PeerGateway
