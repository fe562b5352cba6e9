import NimRtc.Http3

/-!
# What an HTTP/3 handler sends

The sending side of `Http3Handler` of `web_transport_msquic_listener.cpp`: the control stream with
the settings, the frames and the answer to a request for a session. Numbers are below 2^64.
-/

namespace NimRtc.Http3

open Qpack (QpackHeaderField text encodeFieldSection)

/-- `quic_varint_encode`. -/
def quicVarintEncode (value : ℕ) : List UInt8 :=
  if value < 1 <<< 6 then [UInt8.ofNat value]
  else if value < 1 <<< 14 then
    [UInt8.ofNat (0x40 ||| value >>> 8), UInt8.ofNat (value &&& 0xFF)]
  else if value < 1 <<< 30 then
    UInt8.ofNat (0x80 ||| value >>> 24)
      :: [16, 8, 0].map fun shift => UInt8.ofNat (value >>> shift &&& 0xFF)
  else
    UInt8.ofNat (0xC0 ||| value >>> 56)
      :: [48, 40, 32, 24, 16, 8, 0].map fun shift => UInt8.ofNat (value >>> shift &&& 0xFF)

/-! ### Settings -/

/-- The identifiers of the settings that are sent. -/
def kSettingQpackMaxTableCapacity : ℕ := 0x01

def kSettingQpackBlockedStreams : ℕ := 0x07

def kSettingEnableConnectProtocol : ℕ := 0x08

def kSettingH3Datagram : ℕ := 0x33

def kSettingEnableWebtransportDraft02 : ℕ := 0x2b603743

def kSettingWebtransportMaxSessionsDraft07 : ℕ := 0x2b603742

def kSettingWebtransportMaxSessions : ℕ := 0xc671706a

/-- The settings that the server sends. -/
def serverSettings : List (ℕ × ℕ) :=
  [(kSettingQpackMaxTableCapacity, 0), (kSettingQpackBlockedStreams, 0),
    (kSettingEnableConnectProtocol, 1), (kSettingH3Datagram, 1),
    (kSettingEnableWebtransportDraft02, 1), (kSettingWebtransportMaxSessionsDraft07, 1),
    (kSettingWebtransportMaxSessions, 1)]

/-- The payload of a SETTINGS frame: an identifier and a value each. -/
def encodeSettings (settings : List (ℕ × ℕ)) : List UInt8 :=
  settings.flatMap fun s => quicVarintEncode s.1 ++ quicVarintEncode s.2

/-- One turn of the loop of `parse_settings`. -/
def nextSetting (rem : List UInt8) : Option ((ℕ × ℕ) × List UInt8) := do
  let (id, rem) ← quicVarintDecode rem
  let (value, rem) ← quicVarintDecode rem
  some ((id, value), rem)

/-- `parse_settings`: the settings that it comes to. It acts on none of them. -/
def parseSettings (payload : List UInt8) : List (ℕ × ℕ) :=
  (Framing.loop nextSetting ⟨fun _ s => ((), [s])⟩ payload.length () payload).1.2

/-! ### Frames -/

/-- The bytes of `send_frame`, which writes the type as one byte. -/
def sendFrame (frameType : UInt8) (payload : List UInt8) : List UInt8 :=
  frameType :: (quicVarintEncode payload.length ++ payload)

/-- What `send_settings` writes to the control stream. -/
def sendSettings : List UInt8 :=
  let settings := encodeSettings serverSettings
  kUniControlStream :: UInt8.ofNat kFrameSettings :: (quicVarintEncode settings.length ++ settings)

/-- The fields of the answer to a request for a session. -/
def responseFields : List QpackHeaderField :=
  [⟨text ":status", text "200"⟩, ⟨text "sec-webtransport-version", text "1"⟩]

/-- What `send_webtransport_response` writes. -/
def sendWebtransportResponse : Option (List UInt8) :=
  let (ok, block) := encodeFieldSection responseFields
  if !ok then none else some (sendFrame (UInt8.ofNat kFrameHeaders) block)

/-- A frame as it is sent, and as it is read. -/
def sentFrame (f : UInt8 × List UInt8) : Frame := ⟨f.1.toNat, f.2⟩

end NimRtc.Http3
