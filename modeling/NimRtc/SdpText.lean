import NimRtc.Sdp

/-!
# The text of session descriptions

`Parser::parse` of `parser.cpp` and `Munger::to_sdp` of `munger.cpp`, with all the fields that they
read and write. A character stands for a byte of the text. `std::string_view::substr` throws past the
end, and nothing catches it, so that is how parsing can end besides a result. A `std::map` is the
list of its entries in key order.
-/

namespace NimRtc.SdpText

/-- A text, one character after the other. -/
abbrev Text := List Char

/-- `RtpMap`, as the parser fills it. -/
structure RtpMap where
  encoding : Text := []
  clockRate : ℕ := 0
  channels : ℕ := 1
  deriving DecidableEq, Repr

/-- `ExtMap`, with the parameters after the URI. -/
structure ExtMap where
  id : ℕ := 0
  direction : Direction := .sendRecv
  uri : Text := []
  params : List (Text × Text) := []
  deriving DecidableEq, Repr

/-- `Msid` -/
structure Msid where
  streamId : Text := []
  trackId : Text := []
  deriving DecidableEq, Repr

/-- `MediaDescription`, with every field the parser fills. -/
structure MediaDescription where
  type : MediaType := .audio
  port : ℕ := 0
  protocol : Text := []
  formats : List Text := []
  direction : Direction := .sendRecv
  mid : Text := []
  iceUfrag : Text := []
  icePwd : Text := []
  iceOptions : Text := []
  dtlsFingerprintAlgo : Text := []
  dtlsFingerprintValue : Text := []
  dtlsSetup : Text := []
  rtcpMuxValue : Text := []
  rtpmap : List (Text × RtpMap) := []
  fmtp : List (Text × Text) := []
  rtcpFb : List Text := []
  extmap : List ExtMap := []
  candidates : List Text := []
  extraAttrs : List (Text × Text) := []
  connectionAddress : Text := "0.0.0.0".toList
  ttl : ℕ := 0
  addressFamily : ℕ := 4
  msid : Option Msid := none
  deriving DecidableEq, Repr

/-- `SessionDescription`, with every field the parser fills. -/
structure SessionDescription where
  version : ℕ := 0
  sessionName : Text := ['-']
  sessionInfo : Text := []
  uri : Text := []
  originUsername : Text := ['-']
  originSessionId : Text := []
  originSessionVersion : Text := []
  originAddress : Text := "0.0.0.0".toList
  bundleMids : List Text := []
  iceOptions : Text := []
  msidSemanticToken : Text := "WMS".toList
  msidSemanticStreams : List Text := []
  msids : List Msid := []
  dtlsFingerprintAlgo : Text := []
  dtlsFingerprintValue : Text := []
  dtlsSetup : Text := []
  extraAttrs : List (Text × Text) := []
  sessionConnectionAddress : Text := []
  sessionConnectionTtl : ℕ := 0
  sessionAddressFamily : ℕ := 4
  media : List MediaDescription := []
  deriving DecidableEq, Repr

/-- How `parse` ends without a description. -/
inductive ParseStop
  | protocolError (message : Text)
  /-- `substr` has thrown `std::out_of_range`. -/
  | outOfRange
  deriving DecidableEq, Repr

/-! ### Helpers -/

/-- A decimal digit. -/
def isDigit (c : Char) : Bool := '0' ≤ c && c ≤ '9'

/-- `is_space` -/
def isSpace (c : Char) : Bool := c == ' ' || c == '\t'

/-- `is_eol` -/
def isEol (c : Char) : Bool := c == '\r' || c == '\n'

/-- `std::string_view::substr`, which throws past the end. -/
def substr (s : Text) (pos : ℕ) : Except ParseStop Text :=
  if s.length < pos then .error .outOfRange else .ok (s.drop pos)

/-- `std::string_view::find` of one character. -/
def find (s : Text) (delim : Char) : Option ℕ := s.findIdx? (· == delim)

/-- `starts_with` -/
def startsWith (s : Text) (start : String) : Bool := start.toList.isPrefixOf s

/-- `split_at`: what stands before and after the first `delim`. -/
def splitAt (line : Text) (delim : Char) : Except ParseStop (Text × Text) :=
  match find line delim with
  | none => .ok (line, [])
  | some pos => do
    let rest ← substr line (pos + 1)
    return (line.take pos, rest)

/-- `trim` -/
def trim (s : Text) : Text := (s.dropWhile isSpace).rdropWhile isSpace

/-- `parse_uint16`: the value wraps at 2^16. -/
def parseUint16 (s : Text) : Option ℕ :=
  if s = [] ∨ s.all isDigit = false then none
  else some (s.foldl (fun result c => (result * 10 + (c.toNat - '0'.toNat)) % 2 ^ 16) 0)

/-- `parse_uint32`: a value past 2^32 - 1 is refused. -/
def parseUint32 (s : Text) : Option ℕ :=
  if s = [] then none
  else s.foldlM (fun result c =>
    if isDigit c then
      let result := result * 10 + (c.toNat - '0'.toNat)
      if 0xFFFFFFFF < result then none else some result
    else none) 0

/-- The next token, and what follows it. -/
def nextToken (s : Text) : Except ParseStop (Text × Text) :=
  let s := trim s
  if s = [] then .ok ([], [])
  else
    match find s ' ' with
    | none => .ok (s, [])
    | some pos => do
      let rest ← substr s (pos + 1)
      return (s.take pos, rest)

theorem length_trim_le (s : Text) : (trim s).length ≤ s.length :=
  (List.rdropWhile_prefix _ _).length_le.trans (List.length_dropWhile_le _ _)

theorem length_nextToken {s token rest : Text} (h : nextToken s = .ok (token, rest))
    (htoken : token ≠ []) : rest.length < s.length := by
  have htrim := length_trim_le s
  simp only [nextToken] at h
  split_ifs at h with hnil
  · cases h
    exact absurd rfl htoken
  · have hpos := List.length_pos_iff.2 hnil
    cases hfind : find (trim s) ' ' with
    | none =>
      rw [hfind] at h
      cases h
      exact hpos.trans_le htrim
    | some pos =>
      simp only [hfind, substr, bind, Except.bind, pure, Except.pure] at h
      split_ifs at h with hrange
      cases h
      rw [List.length_drop]
      omega

/-- The tokens of a list, up to its end. -/
def tokens (s : Text) : Except ParseStop (List Text) :=
  match h : nextToken s with
  | .error e => .error e
  | .ok (token, rest) =>
    if htoken : token = [] then .ok []
    else
      have := length_nextToken h htoken
      (token :: ·) <$> tokens rest
  termination_by s.length

/-- `std::map::emplace`: an entry that is there already is kept. -/
def emplace {α : Type} (key : Text) (value : α) : List (Text × α) → List (Text × α)
  | [] => [(key, value)]
  | (k, v) :: entries =>
    if key = k then (k, v) :: entries
    else if key < k then (key, value) :: (k, v) :: entries
    else (k, v) :: emplace key value entries

/-- The word of a direction. -/
def directionText : Direction → Text
  | .sendRecv => "sendrecv".toList
  | .sendOnly => "sendonly".toList
  | .recvOnly => "recvonly".toList
  | .inactive => "inactive".toList

/-- `parse_direction` -/
def parseDirection (s : Text) : Option Direction :=
  [Direction.sendRecv, .sendOnly, .recvOnly, .inactive].find? fun d => directionText d = s

/-! ### Lines -/

/-- `parse_origin` -/
def parseOrigin (value : Text) (out : SessionDescription) : Except ParseStop SessionDescription := do
  let (username, sv) ← nextToken value
  let (sessionId, sv) ← nextToken sv
  let (sessionVersion, sv) ← nextToken sv
  let (_, sv) ← nextToken sv
  let (_, sv) ← nextToken sv
  return { out with
    originUsername := username
    originSessionId := sessionId
    originSessionVersion := sessionVersion
    originAddress := trim sv }

/-- What `parse_connection` reads. -/
structure Connection where
  address : Text
  ttl : ℕ
  family : ℕ
  deriving DecidableEq, Repr

/-- `parse_connection` -/
def parseConnection (value : Text) : Except ParseStop Connection := do
  let (_, sv) ← nextToken value
  let (addrtype, sv) ← nextToken sv
  let family := if addrtype = "IP6".toList then 6 else 4
  let addr := trim sv
  match find addr '/' with
  | none => return { address := addr, ttl := 0, family }
  | some slash =>
    let ttlStr ← substr addr (slash + 1)
    return { address := addr.take slash, ttl := (parseUint16 ttlStr).getD 0, family }

/-- `parse_media_desc` -/
def parseMediaDesc (value : Text) : Except ParseStop MediaDescription := do
  let (media, sv) ← nextToken value
  let type : MediaType :=
    if media = "audio".toList then .audio
    else if media = "video".toList then .video
    else if media = "application".toList then .application
    else if media = "data".toList then .data
    else .other
  let (port, sv) ← nextToken sv
  let (protocol, sv) ← nextToken sv
  let formats ← tokens sv
  return { type, port := (parseUint16 port).getD 0, protocol, formats }

/-- `parse_rtpmap` -/
def parseRtpmap (value : Text) : Except ParseStop (Text × RtpMap) := do
  let (fmt, sv) ← nextToken value
  let (encodingStr, _) ← nextToken sv
  let (encoding, remainder) ← splitAt encodingStr '/'
  match find remainder '/' with
  | none => return (fmt, { encoding, clockRate := (parseUint32 remainder).getD 0 })
  | some slash2 =>
    let chanStr ← substr remainder (slash2 + 1)
    return (fmt, {
      encoding
      clockRate := (parseUint32 (remainder.take slash2)).getD 0
      channels := (parseUint32 chanStr).getD 1 })

/-- One `key` or `key=value` after the URI. -/
def parseExtmapParam (params : List (Text × Text)) (token : Text) :
    Except ParseStop (List (Text × Text)) := do
  match find token '=' with
  | none => return emplace token [] params
  | some eq =>
    let val ← substr token (eq + 1)
    return emplace (token.take eq) val params

/-- `parse_extmap` -/
def parseExtmap (value : Text) : Except ParseStop ExtMap := do
  let (idStr, sv) ← nextToken value
  let (idStr, dirPart) ← splitAt idStr '/'
  let (uri, sv) ← nextToken sv
  let paramTokens ← tokens sv
  let params ← paramTokens.foldlM parseExtmapParam []
  return {
    id := (parseUint16 idStr).getD 0
    direction := (parseDirection dirPart).getD .sendRecv
    uri
    params }

/-- What `parse` has read so far: the session, and the media block in progress. -/
structure ParseState where
  session : SessionDescription := {}
  curMedia : Option MediaDescription := none
  deriving DecidableEq, Repr

namespace ParseState

/-- A line belongs to the media block in progress, or else to the session. -/
def update (st : ParseState) (onSession : SessionDescription → SessionDescription)
    (onMedia : MediaDescription → MediaDescription) : ParseState :=
  match st.curMedia with
  | none => { st with session := onSession st.session }
  | some m => { st with curMedia := some (onMedia m) }

/-- An attribute the parser has no field for. -/
def addExtra (st : ParseState) (key value : Text) : ParseState :=
  st.update (fun s => { s with extraAttrs := s.extraAttrs ++ [(key, value)] })
    (fun m => { m with extraAttrs := m.extraAttrs ++ [(key, value)] })

/-- Lines that are kept for the session only. -/
def addSessionExtra (st : ParseState) (key value : Text) : ParseState :=
  st.update (fun s => { s with extraAttrs := s.extraAttrs ++ [(key, value)] }) id

/-- The media block in progress is complete. -/
def finishMedia (st : ParseState) : SessionDescription :=
  match st.curMedia with
  | none => st.session
  | some m =>
    let m :=
      if m.dtlsFingerprintAlgo = [] ∧ st.session.dtlsFingerprintAlgo ≠ [] then
        { m with
          dtlsFingerprintAlgo := st.session.dtlsFingerprintAlgo
          dtlsFingerprintValue := st.session.dtlsFingerprintValue }
      else m
    { st.session with
      msids := st.session.msids ++ [m.msid.getD {}]
      media := st.session.media ++ [m] }

end ParseState

/-- An `a=` line. The offsets of `substr` are those of the source. -/
def parseAttribute (st : ParseState) (av : Text) : Except ParseStop ParseState :=
  if av = "rtcp-mux".toList then
    .ok (st.update (fun s => { s with extraAttrs := s.extraAttrs ++ [(['a'], "rtcp-mux".toList)] })
      (fun m => { m with rtcpMuxValue := "rtcp-mux".toList }))
  else if av = "sendonly".toList ∨ av = "recvonly".toList ∨ av = "sendrecv".toList
      ∨ av = "inactive".toList then
    match parseDirection av with
    | none => .ok st
    | some d =>
      .ok (st.update (fun s => { s with extraAttrs := s.extraAttrs ++ [(['a'], av)] })
        (fun m => { m with direction := d }))
  else if startsWith av "ice-ufrag:" then do
    let ufrag ← substr av 10
    return st.update (fun s => { s with extraAttrs := s.extraAttrs ++ [("ice-ufrag".toList, ufrag)] })
      (fun m => { m with iceUfrag := ufrag })
  else if startsWith av "ice-pwd:" then do
    let pwd ← substr av 8
    return st.update (fun s => { s with extraAttrs := s.extraAttrs ++ [("ice-pwd".toList, pwd)] })
      (fun m => { m with icePwd := pwd })
  else if startsWith av "ice-options:" then do
    let opts ← substr av 13
    return st.update ({ · with iceOptions := opts }) ({ · with iceOptions := opts })
  else if startsWith av "fingerprint:" then do
    let fp ← substr av 12
    let (algo, hash) ← splitAt fp ' '
    return st.update ({ · with dtlsFingerprintAlgo := algo, dtlsFingerprintValue := hash })
      ({ · with dtlsFingerprintAlgo := algo, dtlsFingerprintValue := hash })
  else if startsWith av "setup:" then do
    let setup ← substr av 6
    return st.update ({ · with dtlsSetup := setup }) ({ · with dtlsSetup := setup })
  else if startsWith av "connection-address:" then do
    let address ← substr av 17
    return st.update id ({ · with connectionAddress := address })
  else if startsWith av "mid:" then do
    let mid ← substr av 4
    return st.update id ({ · with mid })
  else if startsWith av "rtpmap:" then do
    let value ← substr av 7
    let (fmt, map) ← parseRtpmap value
    return st.update id (fun m => { m with rtpmap := emplace fmt map m.rtpmap })
  else if startsWith av "fmtp:" then do
    let fp ← substr av 5
    let (fmtKey, params) ← splitAt fp ' '
    return st.update id (fun m => { m with fmtp := emplace fmtKey params m.fmtp })
  else if startsWith av "rtcp-fb:" then do
    let fb ← substr av 8
    return st.update id (fun m => { m with rtcpFb := m.rtcpFb ++ [fb] })
  else if startsWith av "extmap:" then do
    let value ← substr av 7
    let em ← parseExtmap value
    return st.update id (fun m => { m with extmap := m.extmap ++ [em] })
  else if startsWith av "candidate:" then do
    let candidate ← substr av 10
    return st.update id (fun m => { m with candidates := m.candidates ++ [candidate] })
  else if startsWith av "group:" then do
    let gv ← substr av 6
    if startsWith gv "BUNDLE" then
      let mids ← substr gv 6
      let found ← tokens mids
      return { st with session.bundleMids := st.session.bundleMids ++ found }
    else return st
  else if startsWith av "msid-semantic:" then do
    let ms ← substr av 15
    let (token, streams) ← splitAt ms ' '
    let found := if trim streams = [] then [] else [trim streams]
    return { st with
      session.msidSemanticToken := trim token
      session.msidSemanticStreams := st.session.msidSemanticStreams ++ found }
  else if startsWith av "msid:" then do
    let msidStr ← substr av 5
    let (streamId, trackId) ← splitAt msidStr ' '
    return st.update id ({ · with msid := some ⟨trim streamId, trim trackId⟩ })
  else do
    let eq := (find av ' ').getD av.length
    let rest ← substr av eq
    return st.addExtra (av.take eq) (trim rest)

/-- A line that is no `x=`. -/
def malformed (line : Text) : Bool := line.length < 2 || line.getD 1 ' ' != '='

/-- One turn of the loop of `parse`. -/
def parseLine (st : ParseState) (line : Text) : Except ParseStop ParseState :=
  if line = [] then .ok st
  else if malformed line then
    .error (.protocolError ("malformed line (expected <letter>=...): ".toList ++ line))
  else do
    let type := line.headD ' '
    let value ← substr line 2
    if type = 'v' then
      match parseUint16 (trim value) with
      | none => return st
      | some v => return { st with session.version := v }
    else if type = 'o' then
      let session ← parseOrigin value st.session
      return { st with session }
    else if type = 's' then return { st with session.sessionName := trim value }
    else if type = 'i' then
      return st.update ({ · with sessionInfo := trim value })
        (fun m => { m with extraAttrs := m.extraAttrs ++ [(['i'], trim value)] })
    else if type = 'u' then return { st with session.uri := trim value }
    else if type = 'c' then
      let c ← parseConnection value
      return st.update
        ({ · with
          sessionConnectionAddress := c.address
          sessionConnectionTtl := c.ttl
          sessionAddressFamily := c.family })
        ({ · with connectionAddress := c.address, ttl := c.ttl, addressFamily := c.family })
    else if type = 'b' then
      let _ ← nextToken value
      return st
    else if type = 't' ∨ type = 'r' ∨ type = 'z' ∨ type = 'k' then
      return st.addSessionExtra [type] (trim value)
    else if type = 'a' then parseAttribute st (trim value)
    else if type = 'm' then
      let m ← parseMediaDesc value
      return { session := st.finishMedia, curMedia := some m }
    else return st

/-- The end of a line is `\r`, `\n` or both. -/
def skipEol (after : Text) : Text :=
  let after := if after.headD ' ' = '\r' then after.tail else after
  if after.headD ' ' = '\n' then after.tail else after

/-- The line that `next_line` reads, and what remains. -/
def nextLine (remaining : Text) : Text × Text :=
  (remaining.takeWhile fun c => !isEol c, skipEol (remaining.dropWhile fun c => !isEol c))

theorem length_skipEol_le (after : Text) : (skipEol after).length ≤ after.length := by
  simp only [skipEol]
  split_ifs <;> grind

theorem length_nextLine {remaining : Text} (h : remaining ≠ []) :
    (nextLine remaining).2.length < remaining.length := by
  obtain ⟨c, rest, rfl⟩ := List.exists_cons_of_ne_nil h
  simp only [nextLine]
  cases hc : isEol c with
  | false =>
    rw [List.dropWhile_cons_of_pos (by simp [hc])]
    exact Nat.lt_succ_of_le ((length_skipEol_le _).trans (List.length_dropWhile_le _ _))
  | true =>
    rw [List.dropWhile_cons_of_neg (by simp [hc])]
    simp only [isEol, Bool.or_eq_true, beq_iff_eq] at hc
    rcases hc with rfl | rfl
    · simp only [skipEol, List.headD_cons, if_true, List.tail_cons, List.length_cons]
      split_ifs <;> simp
    · simp [skipEol]

/-- The lines of the text, without their ends. -/
def lines (remaining : Text) : List Text :=
  if h : remaining = [] then []
  else
    have := length_nextLine h
    (nextLine remaining).1 :: lines (nextLine remaining).2
  termination_by remaining.length

/-- The loop of `parse` over the lines, and the last media block. -/
def parse (sdpText : Text) : Except ParseStop SessionDescription := do
  let st ← (lines sdpText).foldlM parseLine {}
  return st.finishMedia

/-! ### Writing -/

/-- A number in decimal. -/
def number (v : ℕ) : Text := Nat.toDigits 10 v

/-- The text, or its default when empty. -/
def orElse (s : Text) (default : String) : Text := if s = [] then default.toList else s

/-- A line that is written if its value is not empty. -/
def attr (key : String) (value : Text) : List Text :=
  if value = [] then [] else [key.toList ++ value]

/-- The a=fingerprint line, if both its parts are there. -/
def fingerprintLine (algo value : Text) : List Text :=
  if algo ≠ [] ∧ value ≠ [] then ["a=fingerprint:".toList ++ algo ++ [' '] ++ value] else []

/-- The line of an attribute kept as it was read. -/
def extraLine (kv : Text × Text) : Text :=
  "a=".toList ++ kv.1 ++ (if kv.2 = [] then [] else ':' :: kv.2)

/-- The c= line, if there is an address. -/
def connectionLine (family : ℕ) (address : Text) (ttl : ℕ) : List Text :=
  if address = [] then []
  else ["c=IN IP".toList ++ [if family = 6 then '6' else '4'] ++ [' '] ++ address
    ++ (if 0 < ttl then '/' :: number ttl else [])]

/-- The a=msid line, if there is one. -/
def msidLine (msid : Option Msid) : List Text :=
  match msid with
  | none => []
  | some ms => ["a=msid:".toList ++ ms.streamId
      ++ (if ms.trackId = [] then [] else ' ' :: ms.trackId)]

/-- The a=rtpmap line of an entry. -/
def rtpmapLine (entry : Text × RtpMap) : Text :=
  "a=rtpmap:".toList ++ entry.1 ++ [' '] ++ entry.2.encoding ++ ['/'] ++ number entry.2.clockRate
    ++ (if entry.2.channels = 1 then [] else '/' :: number entry.2.channels)

/-- The a=fmtp line of an entry. -/
def fmtpLine (entry : Text × Text) : Text := "a=fmtp:".toList ++ entry.1 ++ [' '] ++ entry.2

/-- The a=extmap line of an entry. -/
def extmapLine (e : ExtMap) : Text :=
  "a=extmap:".toList ++ number e.id
    ++ (if e.direction = .sendRecv then [] else '/' :: directionText e.direction)
    ++ [' '] ++ e.uri
    ++ e.params.flatMap fun kv => ' ' :: kv.1 ++ (if kv.2 = [] then [] else '=' :: kv.2)

/-- `emit_media_attrs`. The extension maps are sorted by id; those of one id stay in order. -/
def mediaAttrLines (m : MediaDescription) : List Text :=
  attr "a=ice-ufrag:" m.iceUfrag ++ attr "a=ice-pwd:" m.icePwd
    ++ attr "a=ice-options:" m.iceOptions
    ++ fingerprintLine m.dtlsFingerprintAlgo m.dtlsFingerprintValue
    ++ attr "a=setup:" m.dtlsSetup
    ++ connectionLine m.addressFamily m.connectionAddress m.ttl
    ++ (if m.rtcpMuxValue = [] then [] else ["a=rtcp-mux".toList])
    ++ attr "a=mid:" m.mid
    ++ (if m.direction = .sendRecv then [] else ["a=".toList ++ directionText m.direction])
    ++ msidLine m.msid
    ++ m.rtpmap.map rtpmapLine ++ m.fmtp.map fmtpLine
    ++ m.rtcpFb.map ("a=rtcp-fb:".toList ++ ·)
    ++ (m.extmap.mergeSort fun a b => a.id ≤ b.id).map extmapLine
    ++ m.candidates.map ("a=candidate:".toList ++ ·)
    ++ m.extraAttrs.map extraLine

/-- The word of a media type. -/
def mediaTypeText : MediaType → Text
  | .audio => "audio".toList
  | .video => "video".toList
  | .application => "application".toList
  | .data => "data".toList
  | .other => "text".toList

/-- The lines of one media section. -/
def mediaLines (m : MediaDescription) : List Text :=
  ("m=".toList ++ mediaTypeText m.type ++ [' '] ++ number m.port ++ [' ']
      ++ orElse m.protocol "UDP/TLS/RTP/SAVPF" ++ m.formats.flatMap (' ' :: ·))
    :: mediaAttrLines m

/-- The lines before the media descriptions. -/
def sessionLines (sdp : SessionDescription) : List Text :=
  ["v=".toList ++ number sdp.version,
    "o=".toList ++ orElse sdp.originUsername "-" ++ [' '] ++ orElse sdp.originSessionId "0" ++ [' ']
      ++ orElse sdp.originSessionVersion "0" ++ " IN IP4 ".toList
      ++ orElse sdp.originAddress "0.0.0.0",
    "s=".toList ++ orElse sdp.sessionName "-"]
  ++ attr "i=" sdp.sessionInfo ++ attr "u=" sdp.uri
  ++ connectionLine sdp.sessionAddressFamily sdp.sessionConnectionAddress 0
  ++ ["t=0 0".toList]
  ++ (if sdp.bundleMids = [] then []
    else ["a=group:BUNDLE".toList ++ sdp.bundleMids.flatMap (' ' :: ·)])
  ++ attr "a=ice-options:" sdp.iceOptions
  ++ (if sdp.msidSemanticToken = [] then []
    else ["a=msid-semantic: ".toList ++ sdp.msidSemanticToken
      ++ sdp.msidSemanticStreams.flatMap (' ' :: ·)])
  ++ fingerprintLine sdp.dtlsFingerprintAlgo sdp.dtlsFingerprintValue
  ++ attr "a=setup:" sdp.dtlsSetup
  ++ sdp.extraAttrs.map extraLine

/-- The line with its end. -/
def crlf (line : Text) : Text := line ++ ['\r', '\n']

/-- `to_sdp` -/
def toSdp (sdp : SessionDescription) : Text :=
  (sessionLines sdp).flatMap crlf ++ (sdp.media.flatMap mediaLines).flatMap crlf

end NimRtc.SdpText
