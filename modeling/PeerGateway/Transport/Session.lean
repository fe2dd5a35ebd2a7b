import PeerGateway.Frame

/-!
# Connections from other nodes

A node that opens a connection sends messages in frames, and what the receiving node
answers goes back in the same order (`Session.feed`). A body that is no message is skipped.
A fault of the stream ends the session, and so does an answer that does not fit into a
frame. At the end of the stream, `Session.close` tells whether bytes of a frame are left.

How a message is handled is an argument, for the node may be part of something larger.
-/

namespace PeerGateway

/-- The receiving side of a connection. -/
structure Session where
  decoder : Frame.Decoder := {}
  /-- Bytes that came and make up no frame yet. -/
  buffer : Bytes := []
  /-- Bytes that were sent back. -/
  written : Bytes := []
  isOpen : Bool := true

namespace Session

variable {σ : Type}

/-- A session that has ended. -/
def ended (s : Session) : Session := { s with isOpen := false }

/-- Sends an answer back, if there is one. -/
def answer (s : Session) : Option Message → Session
  | none => s
  | some m =>
    match Frame.append s.written m with
    | .ok written => { s with written }
    | .error _ => s.ended

/-- Takes the next frame off the buffer and handles its message, up to `limit` times. -/
def drain (handle : Message → σ → Option Message × σ) : Nat → Session → σ → Session × σ
  | 0, s, state => (s, state)
  | limit + 1, s, state =>
    if !s.isOpen then (s, state)
    else
      match s.decoder.next s.buffer with
      | .error _ => (s.ended, state)
      | .ok t =>
        let s := { s with decoder := t.decoder, buffer := t.buffer }
        match t.body with
        | none => (s, state)
        | some body =>
          match Message.ofBytes body with
          | .error _ => drain handle limit s state
          | .ok m =>
            let (reply, state) := handle m state
            drain handle limit (s.answer reply) state

/-- Takes in bytes and handles all messages that are complete. Every frame but one that was
begun before takes four bytes at least. -/
def feed (handle : Message → σ → Option Message × σ) (bytes : Bytes) (s : Session) (state : σ) :
    Session × σ :=
  let s := { s with buffer := s.buffer ++ bytes }
  drain handle (s.buffer.length + 1) s state

/-- Ends a session with its stream. Bytes that are left are an error. -/
def close (s : Session) : Except IoFault Session :=
  if !s.isOpen || s.buffer.isEmpty then .ok s.ended else .error .bytesRemaining

end Session

end PeerGateway
