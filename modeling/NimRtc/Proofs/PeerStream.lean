import NimRtc.Proofs.SctpDelivery
import NimRtc.WebTransportChannel

/-!
# The payload of a peer's stream

The header of a stream is the same however it is cut: what was held back is parsed from its start
with every chunk, and once it parses it parses the same with more bytes behind it. A stream with
another signal is dropped up to the end of the chunk that completes it, and what follows is taken
for payload.
-/

namespace NimRtc

/-! ## The integers of the header -/

theorem shiftLeft_or_toNat (v : ℕ) (b : UInt8) : v <<< 8 ||| b.toNat = v * 256 + b.toNat := by
  rw [← Nat.shiftLeft_add_eq_or_of_lt b.toNat_lt, Nat.shiftLeft_eq]

theorem one_shiftLeft_lead (lead : UInt8) : 1 <<< (lead >>> 6).toNat = Varint.width lead := by
  rw [Nat.one_shiftLeft, Varint.width, UInt8.toNat_shiftRight, Nat.shiftRight_eq_div_pow]
  rfl

theorem toNat_and_63 (lead : UInt8) : (lead &&& 0x3F).toNat = lead.toNat % 64 := by
  rw [UInt8.toNat_and]
  exact Nat.and_two_pow_sub_one_eq_mod lead.toNat 6

/-- `try_decode_varint` reads the integer at its position. -/
theorem tryDecodeVarint_eq (buf : List UInt8) (pos : ℕ) :
    tryDecodeVarint buf pos
      = (Varint.decode (buf.drop pos)).map fun r => (r.1, buf.length - r.2.length) := by
  unfold tryDecodeVarint
  cases hdrop : buf.drop pos with
  | nil =>
    have hlen : buf.length ≤ pos := List.drop_eq_nil_iff.1 hdrop
    rw [List.getElem?_eq_none hlen]
    rfl
  | cons lead rest =>
    have hget : buf[pos]? = some lead := by
      rw [← List.head?_drop, hdrop]
      rfl
    have hlen : buf.length - pos = (lead :: rest).length := by rw [← hdrop, List.length_drop]
    have hpos : pos < buf.length := (List.getElem?_eq_some_iff.1 hget).1
    have hrest : buf.drop (pos + 1) = rest := by
      rw [← List.drop_drop, hdrop]
      rfl
    simp only [hget, hlen, hrest, one_shiftLeft_lead, toNat_and_63, shiftLeft_or_toNat]
    rw [Varint.decode]
    split_ifs with hshort
    · rfl
    · obtain ⟨n, hn⟩ := Nat.exists_eq_succ_of_ne_zero (Varint.width_pos lead).ne'
      rw [hn] at hshort ⊢
      rw [List.take_succ_cons, List.drop_succ_cons, Nat.succ_sub_one, Option.map_some, Varint.value]
      congr 2
      rw [List.length_drop]
      rw [List.length_cons] at hlen hshort
      omega

namespace WebTransportDataChannel

open ChannelReport

/-- What the bytes of a stream so far are. -/
inductive HeaderOutcome
  | incomplete
  | otherSignal
  | payload (p : List UInt8)
  deriving DecidableEq

def parseHeader (bytes : List UInt8) : HeaderOutcome :=
  match Varint.decode bytes with
  | none => .incomplete
  | some (signal, rest) =>
    if signal ≠ webTransportSignal then .otherSignal
    else
      match Varint.decode rest with
      | none => .incomplete
      | some (_, p) => .payload p

theorem parseHeader_append_other {bytes : List UInt8} (h : parseHeader bytes = .otherSignal)
    (more : List UInt8) : parseHeader (bytes ++ more) = .otherSignal := by
  unfold parseHeader at h
  cases hd : Varint.decode bytes with
  | none => simp [hd] at h
  | some r =>
    obtain ⟨signal, rest⟩ := r
    simp only [hd] at h
    split_ifs at h with hsignal
    · unfold parseHeader
      rw [Varint.decode_append hd more]
      exact if_pos hsignal
    · cases hr : Varint.decode rest <;> simp [hr] at h

theorem parseHeader_append_payload {bytes p : List UInt8} (h : parseHeader bytes = .payload p)
    (more : List UInt8) : parseHeader (bytes ++ more) = .payload (p ++ more) := by
  unfold parseHeader at h
  cases hd : Varint.decode bytes with
  | none => simp [hd] at h
  | some r =>
    obtain ⟨signal, rest⟩ := r
    simp only [hd] at h
    split_ifs at h with hsignal
    cases hr : Varint.decode rest with
    | none => simp [hr] at h
    | some r' =>
      obtain ⟨sessionId, p'⟩ := r'
      simp only [hr, HeaderOutcome.payload.injEq] at h
      subst h
      unfold parseHeader
      simp only [Varint.decode_append hd more, if_neg hsignal, Varint.decode_append hr more]

theorem parseHeader_of_encodes {signal sessionId p : List UInt8} {v : ℕ}
    (hsignal : Varint.Encodes signal webTransportSignal) (hid : Varint.Encodes sessionId v) :
    parseHeader (signal ++ sessionId ++ p) = .payload p := by
  unfold parseHeader
  rw [List.append_assoc, Varint.decode_append_of_encodes hsignal]
  simp only [Varint.decode_append_of_encodes hid, ne_eq, not_true_eq_false, if_false]

theorem parseHeader_other_iff {bytes : List UInt8} :
    parseHeader bytes = .otherSignal
      ↔ ∃ signal v p, Varint.Encodes signal v ∧ v ≠ webTransportSignal ∧ bytes = signal ++ p := by
  constructor
  · intro h
    unfold parseHeader at h
    cases hd : Varint.decode bytes with
    | none => simp [hd] at h
    | some r =>
      obtain ⟨v, rest⟩ := r
      simp only [hd] at h
      split_ifs at h with hsignal
      · obtain ⟨signal, hencodes, rfl⟩ := Varint.encodes_of_decode hd
        exact ⟨signal, v, rest, hencodes, hsignal, rfl⟩
      · cases hr : Varint.decode rest <;> simp [hr] at h
  · rintro ⟨signal, v, p, hencodes, hv, rfl⟩
    unfold parseHeader
    rw [Varint.decode_append_of_encodes hencodes]
    exact if_pos hv

theorem otherSignal_iff {bytes : List UInt8} :
    OtherSignal bytes ↔ parseHeader bytes = .otherSignal := by
  unfold OtherSignal parseHeader
  rw [tryDecodeVarint_eq, List.drop_zero]
  cases Varint.decode bytes with
  | none => simp
  | some r =>
    simp only [Option.map_some, Option.some.injEq, Prod.mk.injEq]
    constructor
    · rintro ⟨signal, pos, ⟨rfl, -⟩, hne⟩
      exact if_pos hne
    · intro h
      split_ifs at h with hsignal
      · exact ⟨_, _, ⟨rfl, rfl⟩, hsignal⟩
      · cases hr : Varint.decode r.2 <;> simp [hr] at h

/-! ## A chunk -/

variable {c : WebTransportDataChannel}

/-- The channel once the header of its stream is behind it. -/
def pastHeader (c : WebTransportDataChannel) : WebTransportDataChannel :=
  { c with peerHeaderDone := true, peerHeaderPending := [] }

/-- A chunk before the end of the header goes to what was held back, and all of it is parsed. -/
theorem onPeerStreamData_eq {data : List UInt8} (hopen : c.opened = true) (hdata : data ≠ [])
    (hdone : c.peerHeaderDone = false) :
    c.onPeerStreamData data = match parseHeader (c.peerHeaderPending ++ data) with
      | .incomplete => ({ c with peerHeaderPending := c.peerHeaderPending ++ data }, [])
      | .otherSignal => (c.pastHeader, [])
      | .payload p => (c.pastHeader, if p = [] then [] else c.onStreamData p) := by
  unfold onPeerStreamData parseHeader
  rw [if_neg (by simp [hopen, hdata]), if_pos (by simp [hdone])]
  simp only [tryDecodeVarint_eq, List.drop_zero]
  generalize c.peerHeaderPending ++ data = pending
  cases hd : Varint.decode pending with
  | none => rfl
  | some r =>
    obtain ⟨signal, rest⟩ := r
    simp only [Option.map_some]
    split_ifs with hsignal
    · rfl
    · have hrest : pending.drop (pending.length - rest.length) = rest := by
        obtain ⟨enc, -, rfl⟩ := Varint.encodes_of_decode hd
        rw [List.length_append, Nat.add_sub_cancel, List.drop_left]
      rw [hrest]
      cases hr : Varint.decode rest with
      | none => rfl
      | some r' =>
        obtain ⟨sessionId, p⟩ := r'
        have hp : pending.drop (pending.length - p.length) = p := by
          obtain ⟨enc, -, rfl⟩ := Varint.encodes_of_decode hd
          obtain ⟨enc', -, rfl⟩ := Varint.encodes_of_decode hr
          rw [← List.append_assoc, List.length_append, Nat.add_sub_cancel, List.drop_left]
        have hle : pending.length ≤ pending.length - p.length ↔ p = [] := by
          have hlt := Varint.length_lt_of_decode hd
          have hlt' := Varint.length_lt_of_decode hr
          rw [← List.length_eq_zero_iff]
          omega
        simp only [Option.map_some, headerDone, hp, hle]
        split_ifs <;> rfl

/-! ## All chunks -/

/-- Past the header every byte is payload. -/
theorem feedChunks_done : ∀ (chunks : List (List UInt8)) {c : WebTransportDataChannel},
    c.opened = true → c.onMsg = true → c.peerHeaderDone = true →
    (messages (c.feedChunks chunks).2).flatten = chunks.flatten
  | [], _, _, _, _ => rfl
  | data :: chunks, c, hopen, hmsg, hdone => by
    have ih := feedChunks_done chunks hopen hmsg hdone
    by_cases hdata : data = []
    · have hstep : c.onPeerStreamData data = (c, []) := by simp [onPeerStreamData, hdata]
      rw [feedChunks, hstep, messages_append, messages_nil, List.nil_append, ih, hdata]
      rfl
    · have hstep : c.onPeerStreamData data = (c, [.message data]) := by
        simp [onPeerStreamData, hopen, hdata, hdone, onStreamData, hmsg]
      rw [feedChunks, hstep, messages_append, messages_message, List.flatten_append, ih]
      simp

/-- What the chunks deliver, when the bytes held back before them are `pending`. -/
structure Delivers (pending : List UInt8) (chunks : List (List UInt8)) (out : List UInt8) : Prop where
  payload : ∀ p, parseHeader (pending ++ chunks.flatten) = .payload p → out = p
  other : parseHeader (pending ++ chunks.flatten) = .otherSignal →
    (out = [] ↔ ∀ before after, chunks = before ++ after →
      parseHeader (pending ++ before.flatten) = .otherSignal → after.flatten = [])

/-- A list is cut before its first element or after it. -/
theorem forall_append_eq_cons {β : Type*} {x : β} {l : List β} {P : List β → List β → Prop} :
    (∀ before after, x :: l = before ++ after → P before after)
      ↔ P [] (x :: l) ∧ ∀ before after, l = before ++ after → P (x :: before) after := by
  constructor
  · intro h
    refine ⟨h [] (x :: l) rfl, ?_⟩
    rintro before after rfl
    exact h (x :: before) after rfl
  · rintro ⟨hnil, hcons⟩ before after heq
    rcases List.cons_eq_append_iff.1 heq with ⟨rfl, rfl⟩ | ⟨before', rfl, rfl⟩
    · exact hnil
    · exact hcons before' after rfl

/-- A chunk that does not end the header leaves the rest to be delivered as before. -/
theorem Delivers.cons {pending data out : List UInt8} {chunks : List (List UInt8)}
    (h : Delivers (pending ++ data) chunks out) (hpending : parseHeader pending = .incomplete) :
    Delivers pending (data :: chunks) out := by
  refine ⟨fun p hp => h.payload p ?_, fun hother => ?_⟩
  · rwa [List.flatten_cons, ← List.append_assoc] at hp
  · rw [List.flatten_cons, ← List.append_assoc] at hother
    rw [h.other hother, forall_append_eq_cons]
    simp only [List.flatten_nil, List.append_nil, hpending, List.flatten_cons, List.append_assoc,
      reduceCtorEq, false_implies, true_and]

/-- After a chunk that completes another signal the rest is delivered, though nothing should be. -/
theorem delivers_other {pending data : List UInt8} {chunks : List (List UInt8)}
    (hpending : parseHeader pending = .incomplete)
    (hparse : parseHeader (pending ++ data) = .otherSignal) :
    Delivers pending (data :: chunks) chunks.flatten := by
  refine ⟨fun p hp => ?_, fun _ => ?_⟩
  · rw [List.flatten_cons, ← List.append_assoc, parseHeader_append_other hparse] at hp
    cases hp
  · rw [forall_append_eq_cons]
    simp only [List.flatten_nil, List.append_nil, hpending, reduceCtorEq, false_implies, true_and]
    constructor
    · rintro hnil before after rfl -
      rw [List.flatten_append, List.append_eq_nil_iff] at hnil
      exact hnil.2
    · intro h
      refine h [] chunks rfl ?_
      rw [List.flatten_cons, List.flatten_nil, List.append_nil]
      exact hparse

theorem delivers_payload {pending data p : List UInt8} {chunks : List (List UInt8)}
    (hparse : parseHeader (pending ++ data) = .payload p) :
    Delivers pending (data :: chunks) (p ++ chunks.flatten) := by
  have hwhole := parseHeader_append_payload hparse chunks.flatten
  rw [List.append_assoc, ← List.flatten_cons] at hwhole
  refine ⟨fun p' hp' => ?_, fun hother => ?_⟩
  · rw [hwhole] at hp'
    exact HeaderOutcome.payload.inj hp'
  · rw [hwhole] at hother
    cases hother

theorem feedChunks_delivers : ∀ (chunks : List (List UInt8)) {c : WebTransportDataChannel},
    c.opened = true → c.onMsg = true → c.peerHeaderDone = false →
    parseHeader c.peerHeaderPending = .incomplete →
    Delivers c.peerHeaderPending chunks (messages (c.feedChunks chunks).2).flatten
  | [], c, _, _, _, hpending => by
    refine ⟨fun p hp => ?_, fun hother => ?_⟩
    · rw [List.flatten_nil, List.append_nil, hpending] at hp
      cases hp
    · rw [List.flatten_nil, List.append_nil, hpending] at hother
      cases hother
  | data :: chunks, c, hopen, hmsg, hdone, hpending => by
    by_cases hdata : data = []
    · subst hdata
      have hstep : c.onPeerStreamData [] = (c, []) := by simp [onPeerStreamData]
      have ih := feedChunks_delivers chunks hopen hmsg hdone hpending
      rw [feedChunks, hstep, messages_append, messages_nil, List.nil_append]
      exact Delivers.cons ((List.append_nil c.peerHeaderPending).symm ▸ ih) hpending
    have hdoneRest := feedChunks_done chunks (c := c.pastHeader) hopen hmsg rfl
    have hstep := onPeerStreamData_eq hopen hdata hdone
    rw [feedChunks, messages_append, List.flatten_append]
    cases hparse : parseHeader (c.peerHeaderPending ++ data) with
    | incomplete =>
      rw [hparse] at hstep
      rw [hstep]
      exact (feedChunks_delivers chunks
        (c := { c with peerHeaderPending := c.peerHeaderPending ++ data })
        hopen hmsg hdone hparse).cons hpending
    | otherSignal =>
      rw [hparse] at hstep
      rw [hstep, hdoneRest, messages_nil, List.flatten_nil, List.nil_append]
      exact delivers_other hpending hparse
    | payload p =>
      rw [hparse] at hstep
      have hout : (messages (c.onPeerStreamData data).2).flatten = p := by
        rw [hstep]
        simp only
        split_ifs with hp
        · rw [hp]
          rfl
        · simp [onStreamData, hmsg]
      rw [hout, hstep, hdoneRest]
      exact delivers_payload hparse

/-- An open channel in stream mode delivers of a stream what its framing says, however the stream
is cut, exactly when no bytes follow the chunk that completes another signal. -/
theorem framesStream_iff (c : WebTransportDataChannel) (hopen : c.opened = true)
    (hstream : c.cfg.reliability ≠ .unreliable) (hmsg : c.onMsg = true) (chunks : List (List UInt8)) :
    FramesStream chunks.flatten (c.delivered chunks) ↔ EndsAtOtherSignal chunks := by
  have hadopt : c.onPeerStream = { c.detachPeerStream with peerStream := true } := by
    simp [onPeerStream, hopen, hstream]
  have hdelivers : Delivers [] chunks (c.delivered chunks) := by
    unfold delivered
    rw [hadopt]
    exact feedChunks_delivers chunks (c := { c.detachPeerStream with peerStream := true }) hopen hmsg
      rfl rfl
  have hends : EndsAtOtherSignal chunks ↔ ∀ before after, chunks = before ++ after →
      parseHeader ([] ++ before.flatten) = .otherSignal → after.flatten = [] := by
    simp only [EndsAtOtherSignal, otherSignal_iff, List.nil_append]
  rw [hends]
  constructor
  · rintro ⟨-, hother⟩ before after hsplit hbefore
    have hwhole : parseHeader ([] ++ chunks.flatten) = .otherSignal := by
      rw [hsplit, List.flatten_append, ← List.append_assoc]
      exact parseHeader_append_other hbefore after.flatten
    obtain ⟨signal, v, p, hencodes, hv, heq⟩ := parseHeader_other_iff.1 hwhole
    exact (hdelivers.other hwhole).1 (hother signal v p hencodes hv heq) before after hsplit hbefore
  · intro h
    refine ⟨fun signal sessionId p v hsignal hid heq => ?_, fun signal v p hencodes hv heq => ?_⟩
    · refine hdelivers.payload p ?_
      rw [List.nil_append, heq]
      exact parseHeader_of_encodes hsignal hid
    · exact (hdelivers.other (parseHeader_other_iff.2 ⟨signal, v, p, hencodes, hv, heq⟩)).2 h

/-- A header cut inside the second integer. -/
theorem framesStream_split :
    ({ opened := true } : WebTransportDataChannel).delivered [[0x40], [0x41, 0x40], [7, 1], [2]] = [1, 2]
      ∧ FramesStream [0x40, 0x41, 0x40, 7, 1, 2]
        (({ opened := true } : WebTransportDataChannel).delivered [[0x40], [0x41, 0x40], [7, 1], [2]]) := by
  refine ⟨by decide, (framesStream_iff { opened := true } rfl (by decide) rfl
    [[0x40], [0x41, 0x40], [7, 1], [2]]).2 ?_⟩
  intro before after hsplit hother
  exfalso
  have hwhole := parseHeader_append_other (otherSignal_iff.1 hother) after.flatten
  rw [← List.flatten_append, ← hsplit] at hwhole
  revert hwhole
  decide

/-- The stream starts with the signal 2, and its second chunk is delivered. -/
theorem rejected_stream_delivered :
    ({ opened := true } : WebTransportDataChannel).delivered [[2, 9], [5, 6]] = [5, 6]
      ∧ ¬ FramesStream [2, 9, 5, 6]
        (({ opened := true } : WebTransportDataChannel).delivered [[2, 9], [5, 6]]) := by
  have hout : ({ opened := true } : WebTransportDataChannel).delivered [[2, 9], [5, 6]] = [5, 6] := by
    decide
  refine ⟨hout, fun h => ?_⟩
  have hnil := h.2 [2] 2 [9, 5, 6] ⟨2, [], rfl, by decide, by decide⟩ (by decide) rfl
  rw [hout] at hnil
  cases hnil

end WebTransportDataChannel

end NimRtc
