import NimRtc.DtlsReassembly
import NimRtc.Lib.Pieces

/-!
# Handshake messages in fragments

The records that a peer sends for its handshake messages, each record with one fragment, and the calls
of the reassembler that they make. A fragment is a piece of the body of its message.
-/

namespace NimRtc

open Pieces

/-- A handshake message, all of whose fragments are sent in one epoch. -/
structure HandshakeMessage where
  msgType : UInt8
  epoch : UInt16
  body : List UInt8
  body_pos : 0 < body.length
  body_le : body.length ≤ 16384

namespace HandshakeMessage

/-- A part of the body and not the whole of it. An empty part stands before a byte of the body. -/
def ProperPiece (m : HandshakeMessage) (p : Piece) : Prop :=
  p.off < m.body.length ∧ p.off + p.len ≤ m.body.length ∧ ¬ (p.off = 0 ∧ p.len = m.body.length)

instance (m : HandshakeMessage) (p : Piece) : Decidable (m.ProperPiece p) :=
  inferInstanceAs (Decidable (_ ∧ _))

/-- The handshake header in front of a part of the body. -/
def payload (m : HandshakeMessage) (msgSeq : UInt16) (p : Piece) : List UInt8 :=
  m.msgType :: (beBytes 3 m.body.length ++ beBytes 2 msgSeq.toNat ++ beBytes 3 p.off ++ beBytes 3 p.len
    ++ p.of m.body)

/-- The piece that is the whole message. -/
def wholePiece (m : HandshakeMessage) : Piece := ⟨0, m.body.length⟩

theorem length_payload_lt (m : HandshakeMessage) (msgSeq : UInt16) (p : Piece) :
    (m.payload msgSeq p).length < 256 ^ 2 := by
  have hle := m.body_le
  simp only [payload, Piece.of, List.length_cons, List.length_append, length_beBytes, List.length_take,
    List.length_drop]
  omega

end HandshakeMessage

/-- A fragment on its way: of which message it is a piece, the number and the version of its record,
and what follows the record in the datagram. -/
structure SentFragment where
  msgSeq : UInt16
  piece : Piece
  version : UInt8 × UInt8 := (254, 253)
  seq : ℕ
  rest : List UInt8 := []
  seq_lt : seq < 256 ^ 6 := by decide

section Calls

variable (messages : UInt16 → HandshakeMessage)

/-- The record that carries the fragment. -/
def SentFragment.record (f : SentFragment) : DtlsWireRecord where
  contentType := 22
  version := f.version
  epoch := (messages f.msgSeq).epoch
  seq := f.seq
  payload := (messages f.msgSeq).payload f.msgSeq f.piece
  seq_lt := f.seq_lt
  payload_lt := HandshakeMessage.length_payload_lt _ _ _

/-- The datagram that carries the fragment, with what follows in it. -/
def SentFragment.bytes (f : SentFragment) : List UInt8 := (f.record messages).encode ++ f.rest

/-- The calls on a reassembler. -/
inductive ReassemblerCall
  | feed (f : SentFragment) (now : ℕ)
  | gcExpired (now : ℕ)

namespace ReassemblerCall

/-- A reassembler along its calls; reported is what each fragment gives. -/
def machine : Machine DtlsHandshakeReassembler ReassemblerCall ReassemblyResult where
  step s
    | .feed f now =>
      let r := s.tryReassemble now (f.bytes messages)
      (r.1, [r.2])
    | .gcExpired now => (s.gcExpired now, [])

/-- The fragments are proper ones, and no call expires a buffer. -/
def Keeps (s : DtlsHandshakeReassembler) : ReassemblerCall → Prop
  | .feed f _ => (messages f.msgSeq).ProperPiece f.piece
  | .gcExpired now => ∀ k b, s.bufs k = some b → now - b.lastSeen < s.gcTtl

/-- The pieces of each message that were fed since it was whole. -/
def pendingStep (pending : UInt16 → List Piece) : ReassemblerCall → UInt16 → List Piece
  | .feed f _ =>
    let ps := pending f.msgSeq ++ [f.piece]
    Function.update pending f.msgSeq
      (if Covers ps (messages f.msgSeq).body.length then [] else ps)
  | .gcExpired _ => pending

/-- The pieces of each message that were fed since it was last whole. -/
def pending (calls : List ReassemblerCall) : UInt16 → List Piece :=
  calls.foldl (pendingStep messages) fun _ => []

end ReassemblerCall

end Calls

end NimRtc
