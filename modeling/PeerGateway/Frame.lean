import PeerGateway.Message.Codec

/-!
# Frames

Messages travel in frames: a head of four bytes, the big-endian length of the body, and
the body. A `Frame.Decoder` takes frames off the front of a buffer. A head that is
accepted leaves the buffer at once, and the decoder remembers its length until the body
is there. A head that announces too long a body is an error of the stream and stays.

`Frame.Decoder.next` takes one frame, `Frame.Decoder.last` does so at the end of the
stream, and `Frame.Decoder.decode` reads its body as a message. `Frame.encode` writes a message,
and `Frame.append` gives what it wrote.
-/

namespace PeerGateway

namespace Frame

/-- The greatest length of a body. -/
def maxLength : Nat := 0x100000

/-- The four bytes of a length. -/
def head (n : Nat) : Bytes :=
  [UInt8.ofNat (n / 0x1000000), UInt8.ofNat (n / 0x10000), UInt8.ofNat (n / 0x100), UInt8.ofNat n]

/-- The length that four bytes announce. -/
def announced (a b c d : UInt8) : Nat :=
  ((a.toNat * 0x100 + b.toNat) * 0x100 + c.toNat) * 0x100 + d.toNat

/-- A body in its frame. -/
def wrap (body : Bytes) : Bytes := head body.length ++ body

/-- A decoder between two calls: it has the length of the body that is due, if a head was
accepted and its body has not come yet. -/
structure Decoder where
  due : Option Nat := none
  deriving DecidableEq, Repr

/-- What one call of a decoder came to: the decoder and the buffer after it, and the
body of a frame, if one was complete. -/
structure Taken where
  decoder : Decoder
  buffer : Bytes
  body : Option Bytes

namespace Decoder

/-- Takes the body that is due once it is all there. -/
def body (n : Nat) (buffer : Bytes) : Taken :=
  let body := buffer.take n
  if body.length = n then ⟨⟨none⟩, buffer.drop n, some body⟩ else ⟨⟨some n⟩, buffer, none⟩

/-- Takes a frame off the front of the buffer. -/
def next (d : Decoder) (buffer : Bytes) : Except IoFault Taken :=
  match d.due with
  | some n => .ok (body n buffer)
  | none =>
    match buffer with
    | a :: b :: c :: e :: rest =>
      if maxLength < announced a b c e then .error .frameTooBig
      else .ok (body (announced a b c e) rest)
    | _ => .ok ⟨d, buffer, none⟩

/-- Takes a frame when no more bytes will come: bytes that are left and make up no frame
are an error. The state after it is given beside the outcome. -/
def last (d : Decoder) (buffer : Bytes) : Except IoFault Taken × Decoder × Bytes :=
  match d.next buffer with
  | .error e => (.error e, d, buffer)
  | .ok t =>
    match t.body with
    | some _ => (.ok t, t.decoder, t.buffer)
    | none =>
      if t.buffer.isEmpty then (.ok t, t.decoder, t.buffer)
      else (.error .bytesRemaining, t.decoder, t.buffer)

/-- Takes a message off the front of the buffer. A body that is no message is given as its fault,
with its frame taken. The decoder and the buffer after it stand beside the outcome; a fault of the
stream leaves both as they were. -/
def decode (d : Decoder) (buffer : Bytes) :
    Except IoFault (Option (Except Json.Fault Message)) × Decoder × Bytes :=
  match d.next buffer with
  | .error e => (.error e, d, buffer)
  | .ok t => (.ok (t.body.map Message.ofBytes), t.decoder, t.buffer)

end Decoder

/-- Writes a message in its frame to the end of a buffer, given beside the outcome. One whose body
is too long is refused. -/
def encode (buffer : Bytes) (m : Message) : Except NetworkError Unit × Bytes :=
  let body := m.bytes
  if maxLength < body.length then (.error (.io .frameTooBig), buffer)
  else (.ok (), buffer ++ wrap body)

/-- A buffer with a message in its frame at the end, unless it is refused. -/
def append (buffer : Bytes) (m : Message) : Except NetworkError Bytes :=
  match encode buffer m with
  | (.error e, _) => .error e
  | (.ok (), buffer) => .ok buffer

end Frame

end PeerGateway
