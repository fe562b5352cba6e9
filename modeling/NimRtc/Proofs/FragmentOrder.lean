import NimRtc.DtlsFragments
import NimRtc.Proofs.DtlsReassemblyBounds
import NimRtc.Proofs.DtlsShim

/-!
# Fragments in any order

Each buffer of the reassembler holds the pieces of its message that were fed since the message was
whole, whatever their order and whatever they overlap. So the call that brings the last byte that was
missing is the one that gives the message, and no other.
-/

namespace NimRtc

open Pieces

/-! ### The fragment in a record -/

theorem beNat_three {n : ℕ} (h : n < 256 ^ 3) : beNat [byteAt n 2, byteAt n 1, byteAt n 0] = n := by
  have hbytes := beNat_beBytes 3 n
  rwa [Nat.mod_eq_of_lt h] at hbytes

namespace HandshakeMessage

variable {m : HandshakeMessage} {k : UInt16} {p : Piece}

theorem parseHandshake_payload (h : m.ProperPiece p) :
    parseHandshake (m.payload k p)
      = some (⟨m.msgType, m.body.length, k, p.off, p.len⟩, p.of m.body) := by
  have hle := m.body_le
  obtain ⟨hoff, hend, -⟩ := h
  have hlen := beNat_three (show m.body.length < 256 ^ 3 by omega)
  have hpos := beNat_three (show p.off < 256 ^ 3 by omega)
  have hsize := beNat_three (show p.len < 256 ^ 3 by omega)
  have hseq : UInt16.ofNat (beNat [byteAt k.toNat 1, byteAt k.toNat 0]) = k := by
    rw [beNat_two _ k.toNat_lt, UInt16.ofNat_toNat]
  simp only [payload, beBytes, List.cons_append, List.nil_append, parseHandshake, hlen, hpos, hsize,
    hseq]

theorem parseFragment_payload (h : m.ProperPiece p) :
    ∃ f, parseFragment (m.payload k p) = some f
      ∧ f.toHandshakeHeader = ⟨m.msgType, m.body.length, k, p.off, p.len⟩
      ∧ f.data = p.of m.body := by
  have hlen := Piece.length_of h.2.1
  have hbody := m.body_pos
  have hle := m.body_le
  unfold parseFragment
  rw [parseHandshake_payload h]
  simp only [hlen]
  rw [if_neg (fun hwhole => h.2.2 ⟨hwhole.1, hwhole.2.1⟩), dif_pos]
  · exact ⟨_, rfl, rfl, rfl⟩
  · exact ⟨by omega, hle, h.1, by have := h.2.1; omega, h.2.1, le_refl _⟩

end HandshakeMessage

/-! ### Buffers -/

/-- A buffer holds pieces of a message. -/
structure BufferOf (m : HandshakeMessage) (k : UInt16) (ps : List Piece) (b : FragmentBuf) : Prop where
  msgType : b.msgType = m.msgType
  msgSeq : b.msgSeq = k
  totalLength : b.totalLength = m.body.length
  epoch : b.epoch = m.epoch
  holds : Holds m.body ps b.body b.received

namespace BufferOf

variable {m : HandshakeMessage} {k : UInt16} {ps : List Piece} {b : FragmentBuf}

theorem lastSeen (h : BufferOf m k ps b) (now : ℕ) : BufferOf m k ps { b with lastSeen := now } :=
  ⟨h.msgType, h.msgSeq, h.totalLength, h.epoch, h.holds⟩

theorem create {f : HandshakeFragment} {p : Piece}
    (hf : f.toHandshakeHeader = ⟨m.msgType, m.body.length, k, p.off, p.len⟩) (seq : ℕ)
    (hseq : seq < 256 ^ 6) (now : ℕ) : BufferOf m k [] (.create f m.epoch seq hseq now) := by
  obtain ⟨htype, hlen, hmsgSeq, -, -⟩ := (HandshakeHeader.mk.injEq ..).mp hf
  refine ⟨htype, hmsgSeq, hlen, rfl, ?_⟩
  simp only [FragmentBuf.create, hlen]
  exact Holds.init

/-- The pieces with one more. -/
theorem copyIn {f : HandshakeFragment} {p : Piece} (h : BufferOf m k ps b)
    (hf : f.toHandshakeHeader = ⟨m.msgType, m.body.length, k, p.off, p.len⟩)
    (hdata : f.data = p.of m.body) (hp : p.off + p.len ≤ m.body.length)
    (hb : b.totalLength = f.msgLen) : BufferOf m k (ps ++ [p]) (b.copyIn f hb) := by
  obtain ⟨-, -, -, hoff, hlen⟩ := (HandshakeHeader.mk.injEq ..).mp hf
  refine ⟨h.msgType, h.msgSeq, h.totalLength, h.epoch, ?_⟩
  have htake : f.data.take p.len = p.of m.body := by
    rw [hdata]
    exact List.take_of_length_le (Piece.length_of hp).le
  simp only [FragmentBuf.copyIn, hoff, hlen, htake]
  have hwrite := h.holds.write hp
  rw [Buffer.write, Buffer.write, ← List.append_assoc, ← List.append_assoc] at hwrite
  exact hwrite

theorem complete_iff (h : BufferOf m k ps b) : b.complete = true ↔ Covers ps m.body.length :=
  h.holds.all_received

/-- The record that is put together holds the message as it was sent. -/
theorem payload_synthesise (h : BufferOf m k ps b) (hc : Covers ps m.body.length)
    (version : UInt8 × UInt8) : (b.synthesise version).payload = m.payload k m.wholePiece := by
  have hwhole : Piece.of ⟨0, m.body.length⟩ m.body = m.body := by
    rw [Piece.of, List.drop_zero, List.take_length]
  have hzero : beBytes 3 0 = [0, 0, 0] := by decide
  simp only [FragmentBuf.synthesise, HandshakeMessage.payload, hwhole, HandshakeMessage.wholePiece, hzero,
    h.msgType, h.msgSeq, h.totalLength, h.holds.body_eq hc]

end BufferOf

/-! ### One call -/

namespace ReassemblerCall

open DtlsHandshakeReassembler

variable {messages : UInt16 → HandshakeMessage} {s : DtlsHandshakeReassembler}
  {pieces : UInt16 → List Piece}

/-- The buffers hold the pieces that were fed since the messages were whole, and no message has all of
its bytes among them. -/
structure Tracks (messages : UInt16 → HandshakeMessage) (s : DtlsHandshakeReassembler)
    (pieces : UInt16 → List Piece) : Prop where
  unbuffered : ∀ k, s.bufs k = none → pieces k = []
  buffered : ∀ k b, s.bufs k = some b → BufferOf (messages k) k (pieces k) b
  missing : ∀ k, ¬ Covers (pieces k) (messages k).body.length

theorem tracks_nil (gcTtl : ℕ) : Tracks messages { gcTtl } fun _ => [] where
  unbuffered _ _ := rfl
  buffered _ _ h := by cases h
  missing k := not_covers_nil (messages k).body_pos

/-- The buffer that the fragment goes to. -/
theorem bufferFor_of_tracks (h : Tracks messages s pieces) {f : HandshakeFragment} {k : UInt16}
    {p : Piece}
    (hf : f.toHandshakeHeader = ⟨(messages k).msgType, (messages k).body.length, k, p.off, p.len⟩)
    (hlen : f.data.length = p.len) (seq : ℕ) (hseq : seq < 256 ^ 6) (now : ℕ) :
    ∃ b, s.bufferFor f (messages k).epoch seq hseq now = some b
      ∧ BufferOf (messages k) k (pieces k) b.1 := by
  obtain ⟨htype, hmsgLen, hmsgSeq, -, hfragLen⟩ := (HandshakeHeader.mk.injEq ..).mp hf
  unfold bufferFor
  rw [hmsgSeq]
  cases hk : s.bufs k with
  | none =>
    simp only
    rw [if_neg (by rw [hlen, hfragLen]; exact not_not.2 rfl), h.unbuffered k hk]
    exact ⟨_, rfl, BufferOf.create hf seq hseq now⟩
  | some b =>
    have hb := h.buffered k b hk
    have haccepts : b.accepts f (messages k).epoch = true := by
      simp [FragmentBuf.accepts, hb.msgType, hb.totalLength, hb.epoch, htype, hmsgLen]
    simp only
    rw [dif_pos haccepts]
    exact ⟨_, rfl, hb.lastSeen now⟩

/-- A fragment is buffered as long as bytes are missing, and gives the message if none is. -/
theorem feed_eq (h : Tracks messages s pieces) (f : SentFragment)
    (hf : (messages f.msgSeq).ProperPiece f.piece) (now : ℕ) :
    ∃ b, BufferOf (messages f.msgSeq) f.msgSeq (pieces f.msgSeq ++ [f.piece]) b
      ∧ s.tryReassemble now (f.bytes messages)
        = if Covers (pieces f.msgSeq ++ [f.piece]) (messages f.msgSeq).body.length then
            ({ s with bufs := Function.update s.bufs f.msgSeq none },
              .reassembled (b.synthesise f.version))
          else ({ s with bufs := Function.update s.bufs f.msgSeq (some b) }, .fragmentBuffered) := by
  obtain ⟨frag, hparse, hheader, hdata⟩ := HandshakeMessage.parseFragment_payload (k := f.msgSeq) hf
  have hlen : frag.data.length = f.piece.len := by rw [hdata, Piece.length_of hf.2.1]
  obtain ⟨b, hbuffer, hb⟩ := bufferFor_of_tracks h hheader hlen f.seq f.seq_lt now
  have hcopy := hb.copyIn hheader hdata hf.2.1 b.2
  refine ⟨b.1.copyIn frag b.2, hcopy, ?_⟩
  have hseq : frag.msgSeq = f.msgSeq := congrArg HandshakeHeader.msgSeq hheader
  rw [SentFragment.bytes, tryReassemble_encode, if_neg (by simp [SentFragment.record]), takeRecord]
  simp only [SentFragment.record, hparse, hbuffer, hcopy.complete_iff, hseq]

/-- A buffer is written or erased. -/
theorem Tracks.update (h : Tracks messages s pieces) {k : UInt16} {buf : Option FragmentBuf}
    {ps : List Piece} (hnone : buf = none → ps = [])
    (hsome : ∀ b, buf = some b → BufferOf (messages k) k ps b)
    (hmissing : ¬ Covers ps (messages k).body.length) :
    Tracks messages { s with bufs := Function.update s.bufs k buf } (Function.update pieces k ps) := by
  refine ⟨fun k' hk' => ?_, fun k' b hk' => ?_, fun k' => ?_⟩
  · simp only at hk'
    by_cases heq : k' = k
    · subst heq
      rw [Function.update_self] at hk' ⊢
      exact hnone hk'
    · rw [Function.update_of_ne heq] at hk' ⊢
      exact h.unbuffered k' hk'
  · simp only at hk'
    by_cases heq : k' = k
    · subst heq
      rw [Function.update_self] at hk' ⊢
      exact hsome b hk'
    · rw [Function.update_of_ne heq] at hk' ⊢
      exact h.buffered k' b hk'
  · by_cases heq : k' = k
    · subst heq
      rwa [Function.update_self]
    · rw [Function.update_of_ne heq]
      exact h.missing k'

theorem tracks_feed (h : Tracks messages s pieces) (f : SentFragment)
    (hf : (messages f.msgSeq).ProperPiece f.piece) (now : ℕ) :
    Tracks messages (s.tryReassemble now (f.bytes messages)).1
      (pendingStep messages pieces (.feed f now)) := by
  obtain ⟨b, hb, heq⟩ := feed_eq h f hf now
  rw [heq]
  unfold pendingStep
  simp only
  split_ifs with hc
  · exact h.update (fun _ => rfl) (fun b hb => by cases hb) (not_covers_nil (messages _).body_pos)
  · refine h.update (fun hb => by cases hb) (fun b' hb' => ?_) hc
    rwa [← Option.some.inj hb']

theorem tracks_gcExpired (h : Tracks messages s pieces) {now : ℕ}
    (hkeeps : ∀ k b, s.bufs k = some b → now - b.lastSeen < s.gcTtl) :
    Tracks messages (s.gcExpired now) pieces := by
  have hbufs : (s.gcExpired now).bufs = s.bufs := by
    funext k
    cases hk : s.bufs k with
    | none => simp [DtlsHandshakeReassembler.gcExpired, hk]
    | some b => simp [DtlsHandshakeReassembler.gcExpired, hk, hkeeps k b hk]
  exact ⟨fun k hk => h.unbuffered k (hbufs ▸ hk), fun k b hk => h.buffered k b (hbufs ▸ hk), h.missing⟩

theorem tracks_exec : ∀ (calls : List ReassemblerCall) {s : DtlsHandshakeReassembler}
    {pieces : UInt16 → List Piece}, Tracks messages s pieces →
      (machine messages).Meets (Keeps messages) s calls →
      Tracks messages ((machine messages).exec s calls).1
        (calls.foldl (pendingStep messages) pieces)
  | [], _, _, h, _ => h
  | .feed f now :: calls, _, _, h, hm => tracks_exec calls (tracks_feed h f hm.1 now) hm.2
  | .gcExpired _ :: calls, _, _, h, hm => tracks_exec calls (tracks_gcExpired h hm.1) hm.2

/-- Since the message was whole the last time, the call that brings its last missing byte gives it as
it was sent and forgets it, and the calls before are buffered. Whatever is fed, every access of the
reassembler is inside its vector. -/
theorem fragments_reassemble (messages : UInt16 → HandshakeMessage) (gcTtl : ℕ) :
    (∀ (calls : List ReassemblerCall) (f : SentFragment) (now : ℕ),
      (machine messages).Meets (Keeps messages) { gcTtl } calls →
      (messages f.msgSeq).ProperPiece f.piece →
      ¬ Covers (pending messages calls f.msgSeq) (messages f.msgSeq).body.length
        ∧ if Covers (pending messages calls f.msgSeq ++ [f.piece]) (messages f.msgSeq).body.length then
            ∃ out : DtlsWireRecord,
              (((machine messages).exec { gcTtl } calls).1.tryReassemble now (f.bytes messages)).2
                  = .reassembled out
                ∧ (((machine messages).exec { gcTtl } calls).1.tryReassemble now
                    (f.bytes messages)).1.bufs f.msgSeq = none
                ∧ out.contentType = 22 ∧ out.version = f.version
                ∧ out.epoch = (messages f.msgSeq).epoch
                ∧ out.payload = (messages f.msgSeq).payload f.msgSeq (messages f.msgSeq).wholePiece
          else
            (((machine messages).exec { gcTtl } calls).1.tryReassemble now (f.bytes messages)).2
              = .fragmentBuffered)
      ∧ ∀ (s : DtlsHandshakeReassembler) (now : ℕ) (record : List UInt8),
        ReassemblyMemory.tryReassemble (ReassemblyMemory.bufsOf s) now record
          = .ok (ReassemblyMemory.bufsOf (s.tryReassemble now record).1,
              .of (s.tryReassemble now record).2) := by
  refine ⟨fun calls f now hcalls hf => ?_, ReassemblyMemory.tryReassemble_eq⟩
  have htracks := tracks_exec calls (tracks_nil gcTtl) hcalls
  obtain ⟨b, hb, heq⟩ := feed_eq htracks f hf now
  refine ⟨htracks.missing f.msgSeq, ?_⟩
  unfold pending
  rw [heq]
  split_ifs with hc
  · refine ⟨_, rfl, Function.update_self .., rfl, rfl, hb.epoch, ?_⟩
    exact hb.payload_synthesise hc f.version
  · rfl

/-- A message of two bytes in two fragments. -/
def twoBytes : HandshakeMessage := ⟨1, 0, [5, 6], by decide, by decide⟩

theorem fragments_reassemble_two :
    ∃ out : DtlsWireRecord,
      (((machine fun _ => twoBytes).exec { gcTtl := 5000 }
          [.feed ⟨0, ⟨1, 1⟩, (254, 253), 7, [], by decide⟩ 0]).1.tryReassemble 3
            (SentFragment.bytes (fun _ => twoBytes) ⟨0, ⟨0, 1⟩, (254, 253), 8, [], by decide⟩)).2
          = .reassembled out
        ∧ out.payload = [1, 0, 0, 2, 0, 0, 0, 0, 0, 0, 0, 2, 5, 6] := by
  have h := ((fragments_reassemble (fun _ => twoBytes) 5000).1
    [.feed ⟨0, ⟨1, 1⟩, (254, 253), 7, [], by decide⟩ 0] ⟨0, ⟨0, 1⟩, (254, 253), 8, [], by decide⟩ 3
    ⟨show twoBytes.ProperPiece ⟨1, 1⟩ by decide, trivial⟩ (by decide)).2
  rw [if_pos (by decide)] at h
  obtain ⟨out, hout, -, -, -, -, hpayload⟩ := h
  exact ⟨out, hout, hpayload.trans (by decide)⟩

theorem eq_reassembled_of {r : ReassemblyResult} {bytes : List UInt8}
    (h : ReassemblyMemory.Result.of r = .reassembled bytes) : ∃ out, r = .reassembled out := by
  cases r with
  | passThrough => cases h
  | fragmentBuffered => cases h
  | reassembled out => exact ⟨out, rfl⟩

theorem eq_passThrough_of {r : ReassemblyResult} (h : ReassemblyMemory.Result.of r = .passThrough) :
    r = .passThrough := by
  cases r with
  | passThrough => rfl
  | fragmentBuffered => cases h
  | reassembled out => cases h

/-- The pieces of a message that were fed so far, also those of before it was whole. -/
def fedPieces (calls : List ReassemblerCall) (msgSeq : UInt16) : List Piece :=
  calls.filterMap fun
    | .feed f _ => if f.msgSeq = msgSeq then some f.piece else none
    | .gcExpired _ => none

/-- A piece of the first message, in one of the first records. -/
def earlyFragment (piece : Piece) (seq : Fin 256) : SentFragment :=
  ⟨0, piece, (254, 253), seq, [], seq.isLt.trans (by decide)⟩

/-- A message of two bytes that is sent twice, but for its last fragment. -/
def sentTwice : List ReassemblerCall :=
  [.feed (earlyFragment ⟨0, 1⟩ 0) 0, .feed (earlyFragment ⟨1, 1⟩ 1) 0,
    .feed (earlyFragment ⟨0, 1⟩ 2) 0]

/-- A message is given again by a call that brings no missing byte, and an empty fragment behind the last
byte is passed through. -/
theorem repeated_and_empty_fragments :
    (¬ ∀ (messages : UInt16 → HandshakeMessage) (calls : List ReassemblerCall) (f : SentFragment)
        (now : ℕ) (out : DtlsWireRecord), (machine messages).Meets (Keeps messages) {} calls →
      (messages f.msgSeq).ProperPiece f.piece →
        (((machine messages).exec {} calls).1.tryReassemble now (f.bytes messages)).2
          = .reassembled out →
          ¬ Covers (fedPieces calls f.msgSeq) (messages f.msgSeq).body.length)
      ∧ ¬ ∀ (messages : UInt16 → HandshakeMessage) (f : SentFragment) (now : ℕ),
        f.piece.off + f.piece.len ≤ (messages f.msgSeq).body.length →
        ¬ (f.piece.off = 0 ∧ f.piece.len = (messages f.msgSeq).body.length) →
          (({} : DtlsHandshakeReassembler).tryReassemble now (f.bytes messages)).2 ≠ .passThrough := by
  constructor
  · intro hall
    have hgiven : ReassemblyMemory.Result.of
        (((machine fun _ => twoBytes).exec {} sentTwice).1.tryReassemble 0
          ((earlyFragment ⟨1, 1⟩ 3).bytes fun _ => twoBytes)).2
        = .reassembled [22, 254, 253, 0, 0, 0, 0, 0, 0, 0, 3, 0, 14, 1, 0, 0, 2, 0, 0, 0, 0, 0, 0, 0, 2,
          5, 6] := by
      decide +kernel
    obtain ⟨out, hout⟩ := eq_reassembled_of hgiven
    have hkeeps : (machine fun _ => twoBytes).Meets (Keeps fun _ => twoBytes) {} sentTwice :=
      ⟨show twoBytes.ProperPiece ⟨0, 1⟩ by decide, show twoBytes.ProperPiece ⟨1, 1⟩ by decide,
        show twoBytes.ProperPiece ⟨0, 1⟩ by decide, trivial⟩
    exact hall (fun _ => twoBytes) sentTwice (earlyFragment ⟨1, 1⟩ 3) 0 out hkeeps
      (show twoBytes.ProperPiece ⟨1, 1⟩ by decide) hout (by decide)
  · intro hall
    refine hall (fun _ => twoBytes) (earlyFragment ⟨2, 0⟩ 0) 0 (by decide) (by decide) ?_
    have hpassed : ReassemblyMemory.Result.of (({} : DtlsHandshakeReassembler).tryReassemble 0
        ((earlyFragment ⟨2, 0⟩ 0).bytes fun _ => twoBytes)).2
        = .passThrough := by
      decide +kernel
    exact eq_passThrough_of hpassed

end ReassemblerCall

end NimRtc
