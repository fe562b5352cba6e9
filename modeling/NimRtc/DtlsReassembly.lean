import NimRtc.Lib.Bytes
import NimRtc.Lib.Machine

/-!
# The DTLS reassembly shim

`DtlsHandshakeReassembler` of `dtls_handshake_reassembler.hpp` and the part of `feed_inbound` that
uses it. The shim looks at the first record of a datagram, and what it finds decides over the
whole datagram: it is passed on, dropped, or replaced by a record with the message put together.

A fragment that passed the checks and a buffer carry what the checks say about them. Times are in
milliseconds.
-/

namespace NimRtc

/-- A DTLS record. The sequence number has 48 bits and the length 16. -/
structure DtlsWireRecord where
  contentType : UInt8
  version : UInt8 × UInt8 := (254, 253)
  epoch : UInt16
  seq : ℕ
  payload : List UInt8
  seq_lt : seq < 256 ^ 6 := by decide
  payload_lt : payload.length < 256 ^ 2 := by decide
  deriving DecidableEq

/-- The header of a handshake fragment. -/
structure HandshakeHeader where
  msgType : UInt8
  msgLen : ℕ
  msgSeq : UInt16
  fragOff : ℕ
  fragLen : ℕ
  deriving DecidableEq, Repr

/-- A fragment that passed the sanity checks, with the bytes after its header. -/
structure HandshakeFragment extends HandshakeHeader where
  data : List UInt8
  msgLen_le : msgLen ≤ 16384
  fits : fragOff + fragLen ≤ msgLen
  len_le : fragLen ≤ data.length

/-- The bytes of a message that have come in. -/
structure FragmentBuf where
  msgType : UInt8
  msgSeq : UInt16
  totalLength : ℕ
  body : List UInt8
  received : List Bool
  epoch : UInt16
  firstSeq : ℕ
  lastSeen : ℕ
  totalLength_le : totalLength ≤ 16384
  body_length : body.length = totalLength
  received_length : received.length = totalLength
  firstSeq_lt : firstSeq < 256 ^ 6

/-- `bufs_`, keyed by `msg_seq`. -/
structure DtlsHandshakeReassembler where
  bufs : UInt16 → Option FragmentBuf := fun _ => none
  gcTtl : ℕ := 5000

/-- What a datagram is to the reassembler. -/
inductive ReassemblyResult
  | passThrough
  | fragmentBuffered
  | reassembled (out : DtlsWireRecord)

namespace DtlsWireRecord

/-- The record on the wire. -/
def encode (r : DtlsWireRecord) : List UInt8 :=
  r.contentType :: r.version.1 :: r.version.2 :: (beBytes 2 r.epoch.toNat ++ beBytes 6 r.seq
    ++ beBytes 2 r.payload.length ++ r.payload)

def number (r : DtlsWireRecord) : UInt16 × ℕ := (r.epoch, r.seq)

end DtlsWireRecord

/-- The handshake header at the front of a record's payload, and what follows it. -/
def parseHandshake : List UInt8 → Option (HandshakeHeader × List UInt8)
  | t :: l0 :: l1 :: l2 :: q0 :: q1 :: o0 :: o1 :: o2 :: f0 :: f1 :: f2 :: data =>
    some (⟨t, beNat [l0, l1, l2], UInt16.ofNat (beNat [q0, q1]), beNat [o0, o1, o2],
      beNat [f0, f1, f2]⟩, data)
  | _ => none

/-- The fragment in a payload: nothing for a whole message or if a check fails. -/
def parseFragment (payload : List UInt8) : Option HandshakeFragment :=
  match parseHandshake payload with
  | none => none
  | some (h, data) =>
    if h.fragOff = 0 ∧ h.fragLen = h.msgLen ∧ data.length = h.msgLen then none
    else if hok : h.msgLen ≠ 0 ∧ h.msgLen ≤ 16384 ∧ h.fragOff < h.msgLen ∧ h.fragLen ≤ h.msgLen
        ∧ h.fragOff + h.fragLen ≤ h.msgLen ∧ h.fragLen ≤ data.length then
      some ⟨h, data, hok.2.1, hok.2.2.2.2.1, hok.2.2.2.2.2⟩
    else none

namespace FragmentBuf

/-- A buffer for the message of a fragment, before it holds any of it. -/
def create (f : HandshakeFragment) (epoch : UInt16) (seq : ℕ) (hseq : seq < 256 ^ 6) (now : ℕ) :
    FragmentBuf where
  msgType := f.msgType
  msgSeq := f.msgSeq
  totalLength := f.msgLen
  body := List.replicate f.msgLen 0
  received := List.replicate f.msgLen false
  epoch
  firstSeq := seq
  lastSeen := now
  totalLength_le := f.msgLen_le
  body_length := List.length_replicate
  received_length := List.length_replicate
  firstSeq_lt := hseq

/-- The fragment is of the message of the buffer. -/
def accepts (b : FragmentBuf) (f : HandshakeFragment) (epoch : UInt16) : Bool :=
  b.msgType = f.msgType && b.totalLength = f.msgLen && b.epoch = epoch

/-- `l` with the elements of `new` in place of those from `off` on. -/
def overwrite {β : Type*} (l : List β) (off : ℕ) (new : List β) : List β :=
  l.take off ++ new ++ l.drop (off + new.length)

theorem length_overwrite {β : Type*} {l new : List β} {off : ℕ} (h : off + new.length ≤ l.length) :
    (overwrite l off new).length = l.length := by
  simp only [overwrite, List.length_append, List.length_take, List.length_drop]
  omega

/-- The bytes of a fragment, at their place. -/
def copyIn (b : FragmentBuf) (f : HandshakeFragment) (h : b.totalLength = f.msgLen) : FragmentBuf :=
  { b with
    body := overwrite b.body f.fragOff (f.data.take f.fragLen)
    received := overwrite b.received f.fragOff (List.replicate f.fragLen true)
    body_length := by
      rw [length_overwrite, b.body_length]
      rw [List.length_take_of_le f.len_le, b.body_length, h]
      exact f.fits
    received_length := by
      rw [length_overwrite, b.received_length]
      rw [List.length_replicate, b.received_length, h]
      exact f.fits }

/-- Every byte has come in. -/
def complete (b : FragmentBuf) : Bool := b.received.all id

/-- The message as one unfragmented record, numbered one above the fragment that came first. -/
def synthesise (b : FragmentBuf) (version : UInt8 × UInt8) : DtlsWireRecord where
  contentType := 22
  version
  epoch := b.epoch
  seq := (b.firstSeq + 1) % 256 ^ 6
  payload := b.msgType :: (beBytes 3 b.totalLength ++ beBytes 2 b.msgSeq.toNat ++ [0, 0, 0]
    ++ beBytes 3 b.totalLength ++ b.body)
  seq_lt := Nat.mod_lt _ (by decide)
  payload_lt := by
    have := b.totalLength_le
    simp only [List.length_cons, List.length_append, length_beBytes, b.body_length, List.length_nil]
    omega

end FragmentBuf

namespace DtlsHandshakeReassembler

/-- All that has come in is forgotten. -/
def clear (s : DtlsHandshakeReassembler) : DtlsHandshakeReassembler := { s with bufs := fun _ => none }

/-- `gc_expired`: messages without a fragment for `gc_ttl_` are given up. -/
def gcExpired (s : DtlsHandshakeReassembler) (now : ℕ) : DtlsHandshakeReassembler :=
  { s with bufs := fun k => (s.bufs k).filter fun b => now - b.lastSeen < s.gcTtl }

/-- The buffer a fragment goes to: that of its message, or a new one. Nothing if it is not one of
the buffered message, or if it would be the first and bytes follow it. -/
def bufferFor (s : DtlsHandshakeReassembler) (f : HandshakeFragment) (epoch : UInt16) (seq : ℕ)
    (hseq : seq < 256 ^ 6) (now : ℕ) : Option { b : FragmentBuf // b.totalLength = f.msgLen } :=
  match s.bufs f.msgSeq with
  | none =>
    if f.data.length ≠ f.fragLen then none else some ⟨.create f epoch seq hseq now, rfl⟩
  | some b =>
    if h : b.accepts f epoch = true then
      some ⟨{ b with lastSeen := now }, by simp [FragmentBuf.accepts] at h; exact h.1.2⟩
    else none

/-- A handshake record with its header parsed. -/
def takeRecord (s : DtlsHandshakeReassembler) (version : UInt8 × UInt8) (epoch : UInt16) (seq : ℕ)
    (hseq : seq < 256 ^ 6) (payload : List UInt8) (now : ℕ) :
    DtlsHandshakeReassembler × ReassemblyResult :=
  match parseFragment payload with
  | none => (s, .passThrough)
  | some f =>
    match s.bufferFor f epoch seq hseq now with
    | none => (s, .passThrough)
    | some ⟨b, hb⟩ =>
      let b := b.copyIn f hb
      if b.complete then
        ({ s with bufs := Function.update s.bufs f.msgSeq none }, .reassembled (b.synthesise version))
      else ({ s with bufs := Function.update s.bufs f.msgSeq (some b) }, .fragmentBuffered)

theorem beNat_six_lt (s0 s1 s2 s3 s4 s5 : UInt8) : beNat [s0, s1, s2, s3, s4, s5] < 256 ^ 6 := by
  have := s0.toNat_lt
  have := s1.toNat_lt
  have := s2.toNat_lt
  have := s3.toNat_lt
  have := s4.toNat_lt
  have := s5.toNat_lt
  simp only [beNat, List.length_cons, List.length_nil]
  omega

/-- `try_reassemble` -/
def tryReassemble (s : DtlsHandshakeReassembler) (now : ℕ) :
    List UInt8 → DtlsHandshakeReassembler × ReassemblyResult
  | ct :: v0 :: v1 :: e0 :: e1 :: s0 :: s1 :: s2 :: s3 :: s4 :: s5 :: l0 :: l1 :: rest =>
    if ct ≠ 22 then (s, .passThrough)
    else if rest.length < beNat [l0, l1] then (s, .passThrough)
    else
      s.takeRecord (v0, v1) (UInt16.ofNat (beNat [e0, e1])) (beNat [s0, s1, s2, s3, s4, s5])
        (beNat_six_lt ..) (rest.take (beNat [l0, l1])) now
  | _ => (s, .passThrough)

end DtlsHandshakeReassembler

/-! ### Runs of the shim -/

/-- A record that went into `recv_buf_`. -/
inductive AppendedRecord
  | received (r : DtlsWireRecord)
  | synthesised (r : DtlsWireRecord)
  deriving DecidableEq

namespace AppendedRecord

def record : AppendedRecord → DtlsWireRecord
  | received r | synthesised r => r

/-- The record, if the peer sent it. -/
def received? : AppendedRecord → Option DtlsWireRecord
  | received r => some r
  | synthesised _ => none

/-- The record, if it was made here. -/
def synthesised? : AppendedRecord → Option DtlsWireRecord
  | received _ => none
  | synthesised r => some r

end AppendedRecord

/-- A datagram is fed, `tick` collects what has expired, or the session is torn down. -/
inductive ShimEvent
  | feed (records : List DtlsWireRecord) (now : ℕ)
  | gc (now : ℕ)
  | clear

def ShimEvent.records : ShimEvent → List DtlsWireRecord
  | .feed records _ => records
  | .gc _ | .clear => []

/-- The reassembler with every byte that went into `recv_buf_`, and as a history the records that
were fed and the ones that were appended. -/
structure ShimRun where
  reassembler : DtlsHandshakeReassembler := {}
  recvBuf : List UInt8 := []
  received : List DtlsWireRecord := []
  appended : List AppendedRecord := []

namespace ShimRun

/-- The part of `feed_inbound` up to `recv_buf_`, for a datagram of complete records. -/
def feed (s : ShimRun) (records : List DtlsWireRecord) (now : ℕ) : ShimRun :=
  let bytes := records.flatMap (·.encode)
  let s := { s with received := s.received ++ records }
  match s.reassembler.tryReassemble now bytes with
  | (reassembler, .passThrough) =>
    { s with
      reassembler
      recvBuf := s.recvBuf ++ bytes
      appended := s.appended ++ records.map .received }
  | (reassembler, .fragmentBuffered) => { s with reassembler }
  | (reassembler, .reassembled out) =>
    { s with
      reassembler
      recvBuf := s.recvBuf ++ out.encode
      appended := s.appended ++ [.synthesised out] }

/-- One call on the shim. -/
def step (s : ShimRun) : ShimEvent → ShimRun
  | .feed records now => s.feed records now
  | .gc now => { s with reassembler := s.reassembler.gcExpired now }
  | .clear => { s with reassembler := s.reassembler.clear }

def machine : Machine ShimRun ShimEvent Empty := ⟨fun s e => (s.step e, [])⟩

/-- The records of the peer that wolfSSL is given. -/
def passedOn (s : ShimRun) : List DtlsWireRecord := s.appended.filterMap (·.received?)

/-- The records that wolfSSL is given and the peer did not send. -/
def synthesised (s : ShimRun) : List DtlsWireRecord := s.appended.filterMap (·.synthesised?)

end ShimRun

/-- A plaintext handshake record that holds a part of a message and nothing else. -/
def DtlsWireRecord.isProperFragment (r : DtlsWireRecord) : Bool :=
  r.contentType = 22 && r.epoch = 0 &&
    match parseHandshake r.payload with
    | none => false
    | some (h, data) => data.length = h.fragLen && h.fragOff + h.fragLen ≤ h.msgLen
      && !(h.fragOff = 0 && h.fragLen = h.msgLen)

namespace ShimRun

/-- What the shim has appended is what it should: `recv_buf_` holds the appended records, every
record that is not a proper fragment was passed on and in order, and no number is there twice. -/
structure Faithful (s : ShimRun) : Prop where
  bytes : s.recvBuf = (s.appended.map (·.record)).flatMap (·.encode)
  kept : (s.received.filter fun r => !r.isProperFragment).Sublist s.passedOn
  distinct : (s.appended.map (·.record.number)).Nodup

end ShimRun

namespace DtlsHandshakeReassembler

/-- Where the reassembler would keep a record, if it takes it for a fragment: the `msg_seq` and the
buffer with the fragment in it. -/
def slot (s : DtlsHandshakeReassembler) (now : ℕ) (r : DtlsWireRecord) :
    Option (UInt16 × FragmentBuf) :=
  if r.contentType ≠ 22 then none
  else
    match parseFragment r.payload with
    | none => none
    | some f =>
      (s.bufferFor f r.epoch r.seq r.seq_lt now).map fun b => (f.msgSeq, b.1.copyIn f b.2)

end DtlsHandshakeReassembler

/-- The number that follows another, in the same epoch. -/
def nextNumber (n : UInt16 × ℕ) : UInt16 × ℕ := (n.1, (n.2 + 1) % 256 ^ 6)

/-- The number of the fragment that came first. -/
def FragmentBuf.first (b : FragmentBuf) : UInt16 × ℕ := (b.epoch, b.firstSeq)

/-- A datagram whose first record is taken for a fragment holds proper fragments only; and no
record that is passed on has the number after the first fragment of a message that is put
together. -/
def ShimRun.Separates (s : ShimRun) : ShimEvent → Prop
  | .feed records now =>
    match records.head?.bind (s.reassembler.slot now) with
    | none => ∀ r ∈ records, r.number ∉ s.synthesised.map (·.number)
    | some (_, b) => (∀ r ∈ records, r.isProperFragment)
      ∧ (b.complete → nextNumber b.first ∉ s.passedOn.map (·.number))
  | .gc _ | .clear => True

end NimRtc
