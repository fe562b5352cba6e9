import NimRtc.Http3Send
import NimRtc.Proofs.Http3Chunks
import NimRtc.Proofs.QpackFields

/-!
# What is sent is what is read

An integer, a list of settings and a list of frames are read back as they were written, the frames
in any chunks.
-/

namespace NimRtc.Http3

open Qpack (QpackDecoder encodeFieldSection)

/-! ### Integers -/

theorem toNat_lead : ∀ k < 4, ∀ x < 64, (UInt8.ofNat (64 * k ||| x)).toNat = 64 * k + x := by
  decide +kernel

theorem toNat_lead_long : ∀ x < 256, (UInt8.ofNat (0xC0 ||| x)).toNat = 192 + x % 64 := by
  decide +kernel

theorem toNat_low (value shift : ℕ) :
    (UInt8.ofNat (value >>> shift &&& 0xFF)).toNat = value / 2 ^ shift % 256 := by
  rw [show (0xFF : ℕ) = 2 ^ 8 - 1 from rfl, Nat.and_two_pow_sub_one_eq_mod,
    Nat.shiftRight_eq_div_pow, UInt8.toNat_ofNat', Nat.mod_mod]

/-- A byte more of an integer. -/
theorem value_byte (value shift n : ℕ) :
    value / 2 ^ (shift + 8) % 2 ^ n * 256 + value / 2 ^ shift % 256
      = value / 2 ^ shift % 2 ^ (n + 8) := by
  rw [pow_add, pow_add, ← Nat.div_div_eq_div_mul, mul_comm (2 ^ n), Nat.mod_mul, add_comm, mul_comm]
  rfl

theorem encodes_one {value : ℕ} (h : value < 2 ^ 6) : Varint.Encodes [UInt8.ofNat value] value := by
  have hlead : (UInt8.ofNat value).toNat = value := by
    rw [UInt8.toNat_ofNat']
    omega
  refine ⟨_, [], rfl, ?_, ?_⟩
  · rw [Varint.width, hlead, show value / 64 = 0 from Nat.div_eq_of_lt h]
    rfl
  · rw [Varint.value, hlead, List.foldl_nil]
    exact Nat.mod_eq_of_lt h

theorem encodes_two {value : ℕ} (h : value < 2 ^ 14) :
    Varint.Encodes [UInt8.ofNat (0x40 ||| value >>> 8), UInt8.ofNat (value &&& 0xFF)] value := by
  have hlead : (UInt8.ofNat (0x40 ||| value >>> 8)).toNat = 64 + value / 2 ^ 8 := by
    rw [Nat.shiftRight_eq_div_pow]
    exact toNat_lead 1 (by decide) _ (by omega)
  have hlow : (UInt8.ofNat (value &&& 0xFF)).toNat = value / 2 ^ 0 % 256 := toNat_low value 0
  refine ⟨_, _, rfl, ?_, ?_⟩
  · rw [Varint.width, hlead, show (64 + value / 2 ^ 8) / 64 = 1 by omega]
    rfl
  · simp only [Varint.value, List.foldl_cons, List.foldl_nil, hlow, hlead]
    omega

theorem encodes_four {value : ℕ} (h : value < 2 ^ 30) :
    Varint.Encodes (UInt8.ofNat (0x80 ||| value >>> 24)
      :: [16, 8, 0].map fun shift => UInt8.ofNat (value >>> shift &&& 0xFF)) value := by
  have hlead : (UInt8.ofNat (0x80 ||| value >>> 24)).toNat = 128 + value / 2 ^ 24 := by
    rw [Nat.shiftRight_eq_div_pow]
    exact toNat_lead 2 (by decide) _ (by omega)
  refine ⟨_, _, rfl, ?_, ?_⟩
  · rw [Varint.width, hlead, show (128 + value / 2 ^ 24) / 64 = 2 by omega]
    rfl
  · simp only [Varint.value, List.map_cons, List.map_nil, List.foldl_cons, List.foldl_nil,
      toNat_low value, hlead]
    omega

theorem lead_long (x : ℕ) : (192 + x % 64) / 64 = 3 ∧ (192 + x % 64) % 64 = x % 2 ^ 6 := by omega

/-- The top bits of the first byte are not the integer's. -/
theorem encodes_eight {value : ℕ} (h : value < 2 ^ 64) :
    Varint.Encodes (UInt8.ofNat (0xC0 ||| value >>> 56)
      :: [48, 40, 32, 24, 16, 8, 0].map fun shift => UInt8.ofNat (value >>> shift &&& 0xFF))
      (value % 2 ^ 62) := by
  have hlead : (UInt8.ofNat (0xC0 ||| value >>> 56)).toNat = 192 + value / 2 ^ 56 % 64 := by
    rw [Nat.shiftRight_eq_div_pow]
    exact toNat_lead_long _ (Nat.div_lt_of_lt_mul h)
  obtain ⟨hwidth, hfirst⟩ := lead_long (value / 2 ^ 56)
  have h48 := value_byte value 48 6
  have h40 := value_byte value 40 14
  have h32 := value_byte value 32 22
  have h24 := value_byte value 24 30
  have h16 := value_byte value 16 38
  have h8 := value_byte value 8 46
  have h0 := value_byte value 0 54
  refine ⟨_, _, rfl, ?_, ?_⟩
  · rw [Varint.width, hlead, hwidth]
    rfl
  · simp only [Varint.value, List.map_cons, List.map_nil, List.foldl_cons, List.foldl_nil,
      toNat_low value, hlead, hfirst]
    rw [h48, h40, h32, h24, h16, h8, h0, pow_zero, Nat.div_one]

/-- An integer from 2^62 on loses its top bits. -/
theorem encodes_quicVarintEncode {value : ℕ} (hvalue : value < 2 ^ 64) :
    Varint.Encodes (quicVarintEncode value) (value % 2 ^ 62) := by
  unfold quicVarintEncode
  simp only [Nat.one_shiftLeft]
  split_ifs with h1 h2 h3
  · rw [Nat.mod_eq_of_lt (h1.trans (by decide))]
    exact encodes_one h1
  · rw [Nat.mod_eq_of_lt (h2.trans (by decide))]
    exact encodes_two h2
  · rw [Nat.mod_eq_of_lt (h3.trans (by decide))]
    exact encodes_four h3
  · exact encodes_eight hvalue

/-- What is read is the integer that was written, and what follows it. -/
theorem decode_quicVarintEncode {value : ℕ} (hvalue : value < 2 ^ 62) (rest : List UInt8) :
    quicVarintDecode (quicVarintEncode value ++ rest) = some (value, rest) := by
  have hencodes := encodes_quicVarintEncode (hvalue.trans (by decide))
  rw [Nat.mod_eq_of_lt hvalue] at hencodes
  rw [quicVarintDecode_eq, Varint.decode_append_of_encodes hencodes]

/-! ### Settings -/

theorem nextSetting_append {id value : ℕ} (hid : id < 2 ^ 62) (hvalue : value < 2 ^ 62)
    (rest : List UInt8) :
    nextSetting (quicVarintEncode id ++ quicVarintEncode value ++ rest)
      = some ((id, value), rest) := by
  rw [List.append_assoc, nextSetting, decode_quicVarintEncode hid]
  simp only [Option.bind_eq_bind, Option.bind_some, decode_quicVarintEncode hvalue]

theorem nextSetting_incremental : Framing.Incremental nextSetting where
  shorter h := by
    simp only [nextSetting, quicVarintDecode_eq, Option.bind_eq_bind] at h
    obtain ⟨⟨id, mid⟩, hid, h⟩ := Option.bind_eq_some_iff.1 h
    obtain ⟨⟨value, rest⟩, hvalue, h⟩ := Option.bind_eq_some_iff.1 h
    obtain ⟨-, rfl⟩ := Prod.mk.inj (Option.some.inj h)
    exact (Varint.length_lt_of_decode hvalue).trans (Varint.length_lt_of_decode hid)
  append h more := by
    simp only [nextSetting, quicVarintDecode_eq, Option.bind_eq_bind] at h ⊢
    obtain ⟨⟨id, mid⟩, hid, h⟩ := Option.bind_eq_some_iff.1 h
    obtain ⟨⟨value, rest⟩, hvalue, h⟩ := Option.bind_eq_some_iff.1 h
    obtain ⟨rfl, rfl⟩ := Prod.mk.inj (Option.some.inj h)
    simp only [Varint.decode_append hid more, Option.bind_some, Varint.decode_append hvalue more]

theorem splits_encodeSettings : ∀ {settings : List (ℕ × ℕ)},
    (∀ s ∈ settings, s.1 < 2 ^ 62 ∧ s.2 < 2 ^ 62) →
    Framing.Splits nextSetting (encodeSettings settings) settings []
  | [], _ => .stop rfl
  | s :: settings, h => by
    obtain ⟨hid, hvalue⟩ := h s List.mem_cons_self
    refine .frame ?_ (splits_encodeSettings fun t ht => h t (List.mem_cons_of_mem _ ht))
    exact nextSetting_append hid hvalue _

theorem exec_collect {α : Type*} : ∀ xs : List α,
    Machine.exec (⟨fun _ s => ((), [s])⟩ : Machine Unit α α) () xs = ((), xs)
  | [] => rfl
  | x :: xs => by
    rw [Machine.exec_cons, exec_collect xs]
    rfl

theorem parseSettings_encodeSettings {settings : List (ℕ × ℕ)}
    (h : ∀ s ∈ settings, s.1 < 2 ^ 62 ∧ s.2 < 2 ^ 62) :
    parseSettings (encodeSettings settings) = settings := by
  rw [parseSettings, Framing.loop_of_splits nextSetting_incremental _ (splits_encodeSettings h) ()
    le_rfl, exec_collect]

/-! ### Frames -/

theorem encodes_type {frameType : UInt8} (htype : frameType < 64) :
    Varint.Encodes [frameType] frameType.toNat := by
  have hlt : frameType.toNat < 64 := htype
  refine ⟨frameType, [], rfl, ?_, ?_⟩
  · rw [Varint.width, Nat.div_eq_of_lt hlt]
    rfl
  · rw [Varint.value, List.foldl_nil, Nat.mod_eq_of_lt hlt]

theorem encoded_sendFrame : ∀ {fs : List (UInt8 × List UInt8)},
    (∀ f ∈ fs, f.1 < 64 ∧ f.2.length < 2 ^ 62) →
    Encoded (fs.map sentFrame) (fs.flatMap fun f => sendFrame f.1 f.2)
  | [], _ => .nil
  | f :: fs, h => by
    obtain ⟨htype, hlength⟩ := h f List.mem_cons_self
    have hencodes := encodes_quicVarintEncode (hlength.trans (by decide))
    rw [Nat.mod_eq_of_lt hlength] at hencodes
    have hrest := encoded_sendFrame fun g hg => h g (List.mem_cons_of_mem _ hg)
    have hframe := Encoded.frame (f := sentFrame f) (encodes_type htype) hencodes hrest
    rw [List.map_cons, List.flatMap_cons, sendFrame, List.cons_append, List.append_assoc]
    rwa [List.append_assoc, List.append_assoc, List.singleton_append] at hframe

namespace Http3Handler

variable {h : Http3Handler} {stream : HQUIC} {state : StreamState}

/-- On the control stream, nothing is kept and the settings are noted. -/
theorem receive_controlStream (answered : HQUIC → Bool) {fs : List Frame} {bytes : List UInt8}
    (hrole : state.role = .unknown) (hbuf : state.buf = []) (hbytes : Encoded fs bytes)
    (fin : Bool) : (h.receive answered stream state (kUniControlStream :: bytes) fin).1
      = put { h with settingsReceived := h.settingsReceived
                || fs.any (·.frameType = kFrameSettings) } stream
          { state with role := .control, finSeen := state.finSeen || fin, buf := [] } := by
  have hresolve : resolveRole state.role (state.buf ++ kUniControlStream :: bytes)
      = (.control, bytes) := by
    rw [hrole, hbuf]
    rfl
  have hcontrol : ∀ (fs : List Frame) (received : Bool), (controlFrames.exec received fs).1
      = (received || fs.any (·.frameType = kFrameSettings)) := fun fs => by
    induction fs with
    | nil => simp
    | cons f fs ih =>
      intro received
      rw [Machine.exec_cons, ih, List.any_cons, ← Bool.or_assoc]
      rfl
  rw [receive_control hresolve (splits_of_encoded hbytes), hcontrol]
  rfl

theorem Agree.eq_of_role {h h' : Http3Handler} (hagree : Agree stream h h')
    (hrole : (h'.streamStates stream).map (·.role) ≠ some .encoder) : h = h' := by
  rcases hagree with heq | ⟨hqpack, hencoder⟩
  · exact heq
  · rw [← hqpack] at hrole
    exact absurd hencoder hrole

/-- What one handler sends, in whatever chunks it arrives, another one reads: on a request stream it
parses the headers up to a request for a session, on the control stream it notes the settings, and
it keeps nothing of either. -/
theorem sent_frames_read (answered : HQUIC → Bool) (h : Http3Handler) (stream : HQUIC)
    (state : StreamState) (fs : List (UInt8 × List UInt8)) (first : List UInt8 × Bool)
    (rest : List (List UInt8 × Bool)) (hfs : ∀ f ∈ fs, f.1 < 64 ∧ f.2.length < 2 ^ 62)
    (hstate : h.streamStates stream = some state) (hbuf : state.buf = []) :
    let run := (chunks answered stream).exec h (first :: rest)
    let bytes := fs.flatMap fun f => sendFrame f.1 f.2
    let arrived := (first :: rest).flatMap (·.1)
    (state.role = .request → state.webtransportSent = false → arrived = bytes →
        Report.parsed run.2 = untilConnect h.qpack (headers (fs.map sentFrame))
          ∧ (run.1.streamStates stream).map (·.buf) = some [])
      ∧ (state.role = .unknown → arrived = kUniControlStream :: bytes →
        (run.1.streamStates stream).map (·.buf) = some []
          ∧ run.1.settingsReceived
            = (h.settingsReceived || fs.any (·.1.toNat = kFrameSettings))) := by
  intro run bytes arrived
  have hencoded := encoded_sendFrame hfs
  have hsame : Same stream run _ := all_calls h first rest
  have hagree := hsame.agree
  refine ⟨fun hrole hsent harrived => ⟨?_, ?_⟩, fun hrole harrived => ?_⟩
  · refine hsame.parsed.trans ?_
    rw [show (first :: rest).flatMap (·.1) = bytes from harrived]
    exact parsed_of_encoded hstate hrole hbuf hsent hencoded _
  · have hresolve : resolveRole state.role (state.buf ++ bytes) = (.request, bytes) := by
      rw [hrole, hbuf]
      rfl
    rw [show (first :: rest).flatMap (·.1) = bytes from harrived, onStreamData_of_state hstate,
      receive_request hresolve (splits_of_encoded hencoded)] at hagree
    rw [hagree.eq_of_role (by rw [put_state]; simp [noted]), put_state]
    rfl
  · rw [show (first :: rest).flatMap (·.1) = kUniControlStream :: bytes from harrived,
      onStreamData_of_state hstate, receive_controlStream answered hrole hbuf hencoded] at hagree
    rw [hagree.eq_of_role (by rw [put_state]; simp), put_state]
    refine ⟨rfl, ?_⟩
    rw [List.any_map]
    rfl

/-- The settings of the server, in two chunks. -/
theorem sent_frames_read_settings :
    ((chunks (fun _ => true) 3).exec (onPeerStreamStarted {} 3 true)
        [(sendSettings.take 5, false), (sendSettings.drop 5, false)]).1.settingsReceived = true :=
  ((sent_frames_read (fun _ => true) (onPeerStreamStarted {} 3 true) 3 {}
    [(UInt8.ofNat kFrameSettings, encodeSettings serverSettings)] (sendSettings.take 5, false)
    [(sendSettings.drop 5, false)] (by decide) rfl rfl).2 rfl (by decide +kernel)).2

end Http3Handler

/-- A client that reads the answer has the fields that were meant, whatever its decoder holds. -/
theorem response_decoded (d : QpackDecoder) (rest : List UInt8) :
    ∃ answer payload, sendWebtransportResponse = some answer
      ∧ nextFrame (answer ++ rest) = some (⟨kFrameHeaders, payload⟩, rest)
      ∧ d.decode payload = (true, responseFields) := by
  have hlength : (encodeFieldSection responseFields).2.length < 2 ^ 62 := by decide +kernel
  have hencodes := encodes_quicVarintEncode (hlength.trans (by decide))
  rw [Nat.mod_eq_of_lt hlength] at hencodes
  refine ⟨sendFrame (UInt8.ofNat kFrameHeaders) (encodeFieldSection responseFields).2,
    (encodeFieldSection responseFields).2, rfl, ?_, ?_⟩
  · rw [sendFrame, List.cons_append, List.append_assoc]
    exact nextFrame_of_decode (Varint.decode_append_of_encodes (encodes_type (by decide)))
      (Varint.decode_append_of_encodes hencodes)
  · have hsection : d.table.decodeSectionPrefix (encodeFieldSection responseFields).2
        = some (0, responseFields.flatMap Qpack.encodeField) := rfl
    have hlines := Qpack.decodeFieldLines_flatMap d.table 0 responseFields [] _ (by decide +kernel)
      le_rfl
    rw [QpackDecoder.decode, hsection]
    simp only [hlines, List.nil_append]

end NimRtc.Http3
