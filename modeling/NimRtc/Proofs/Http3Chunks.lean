import NimRtc.Http3
import NimRtc.Proofs.PeerStream

/-!
# Chunks of HTTP/3 streams

A frame is read in the same way whatever follows it, and the buffer keeps what is left of the last
one. So two calls do what one call with the bytes of both does, up to the decoder that an encoder
stream feeds, which is fed the same bytes in other pieces.
-/

namespace NimRtc.Http3

open Qpack (QpackHeaderField QpackDecoder)

/-! ### Frames -/

theorem quicVarintDecode_eq (data : List UInt8) : quicVarintDecode data = Varint.decode data := by
  cases data with
  | nil => rfl
  | cons lead rest =>
    rw [quicVarintDecode, Varint.decode]
    simp only [one_shiftLeft_lead, toNat_and_63, shiftLeft_or_toNat]
    split_ifs with hshort
    · rfl
    · obtain ⟨n, hn⟩ := Nat.exists_eq_succ_of_ne_zero (Varint.width_pos lead).ne'
      rw [hn, List.take_succ_cons, Nat.succ_sub_one, Varint.value]

theorem nextFrame_inv {x rest : List UInt8} {f : Frame} (h : nextFrame x = some (f, rest)) :
    ∃ cursor tail, Varint.decode x = some (f.frameType, cursor)
      ∧ Varint.decode cursor = some (f.payload.length, tail) ∧ tail = f.payload ++ rest := by
  simp only [nextFrame, quicVarintDecode_eq, Option.bind_eq_bind] at h
  obtain ⟨⟨frameType, cursor⟩, htype, h⟩ := Option.bind_eq_some_iff.1 h
  obtain ⟨⟨frameLen, tail⟩, hlength, h⟩ := Option.bind_eq_some_iff.1 h
  split_ifs at h with hshort
  obtain ⟨rfl, rfl⟩ := Prod.mk.inj (Option.some.inj h)
  refine ⟨cursor, tail, htype, ?_, (List.take_append_drop _ _).symm⟩
  rw [List.length_take, min_eq_left (not_lt.1 hshort)]
  exact hlength

theorem nextFrame_of_decode {x cursor rest payload : List UInt8} {frameType : ℕ}
    (htype : Varint.decode x = some (frameType, cursor))
    (hlength : Varint.decode cursor = some (payload.length, payload ++ rest)) :
    nextFrame x = some (⟨frameType, payload⟩, rest) := by
  have hlong : ¬ (payload ++ rest).length < payload.length := by
    rw [List.length_append]
    omega
  simp only [nextFrame, quicVarintDecode_eq, Option.bind_eq_bind, htype, Option.bind_some, hlength,
    if_neg hlong, List.take_left, List.drop_left]

theorem nextFrame_incremental : Framing.Incremental nextFrame where
  shorter h := by
    obtain ⟨cursor, tail, htype, hlength, rfl⟩ := nextFrame_inv h
    have hcursor := Varint.length_lt_of_decode htype
    have htail := Varint.length_lt_of_decode hlength
    rw [List.length_append] at htail
    omega
  append h more := by
    obtain ⟨cursor, tail, htype, hlength, rfl⟩ := nextFrame_inv h
    refine nextFrame_of_decode (Varint.decode_append htype more) ?_
    rw [Varint.decode_append hlength more, List.append_assoc]

/-- Frames that are sent one after the other are the frames that are read. -/
theorem splits_of_encoded {fs : List Frame} {bytes : List UInt8} (h : Encoded fs bytes) :
    Framing.Splits nextFrame bytes fs [] := by
  induction h with
  | nil => exact .stop rfl
  | @frame f fs type length rest htype hlength hrest ih =>
    refine .frame ?_ ih
    rw [List.append_assoc, List.append_assoc]
    exact nextFrame_of_decode (Varint.decode_append_of_encodes htype)
      (Varint.decode_append_of_encodes hlength)

/-! ### Requests -/

namespace Http3Handler

variable {answered : HQUIC → Bool} {h h' : Http3Handler} {stream : HQUIC} {state : StreamState}
  {qpack : QpackDecoder} {respond : Bool}

/-- Once a request is answered, nothing is parsed. -/
theorem exec_sent (qpack : QpackDecoder) (respond : Bool) : ∀ fs : List Frame,
    (requestFrames qpack respond).exec true fs = (true, [])
  | [] => rfl
  | f :: fs => by
    have hstep : (requestFrames qpack respond).step true f = (true, []) := if_neg (by simp)
    rw [Machine.exec_cons, hstep, exec_sent qpack respond fs]
    rfl

theorem parsed_notSent (qpack : QpackDecoder) (respond : Bool) : ∀ fs : List Frame,
    Report.parsed ((requestFrames qpack respond).exec false fs).2 = untilConnect qpack (headers fs)
  | [] => rfl
  | f :: fs => by
    have hrest := parsed_notSent qpack respond fs
    rw [Machine.exec_cons, headers]
    by_cases htype : f.frameType = kFrameHeaders
    · rw [List.filter_cons_of_pos (by simpa using htype), List.map_cons, untilConnect]
      by_cases haccepted : ((qpack.decode f.payload).1 && isConnect (qpack.decode f.payload).2) = true
      · -- the request is answered, and nothing is parsed after it
        have hstep : (requestFrames qpack respond).step false f
            = (true, .parseHeaders f.payload
              :: if respond then [.webtransportRequest (qpack.decode f.payload).2] else []) := by
          rw [Bool.and_eq_true] at haccepted
          simp [requestFrames, requestFrame, parseHeaders, htype, haccepted.1, haccepted.2]
        rw [hstep, exec_sent, List.append_nil]
        simp only [haccepted, if_true]
        cases respond <;> rfl
      · have hstep : (requestFrames qpack respond).step false f
            = (false, [.parseHeaders f.payload]) := by
          have hrefused : (!(qpack.decode f.payload).1 || !isConnect (qpack.decode f.payload).2)
              = true := by
            rw [← Bool.not_and, Bool.not_eq_true']
            exact Bool.eq_false_iff.2 haccepted
          simp [requestFrames, requestFrame, parseHeaders, htype, hrefused]
        rw [hstep]
        simp only [haccepted]
        exact congrArg (f.payload :: ·) hrest
    · have hstep : (requestFrames qpack respond).step false f = (false, []) :=
        if_neg fun hheaders => htype hheaders.1
      rw [List.filter_cons_of_neg (by simpa using htype), hstep]
      exact hrest

theorem requests_append (out out' : List Report) :
    Report.requests (out ++ out') = Report.requests out ++ Report.requests out' :=
  List.filterMap_append

/-- A request is passed on only where the stream becomes answered. -/
theorem requestFrame_requests (qpack : QpackDecoder) (respond sent : Bool) (f : Frame) :
    sent.toNat + (Report.requests (requestFrame qpack respond sent f).2).length
      ≤ (requestFrame qpack respond sent f).1.toNat := by
  unfold requestFrame parseHeaders
  cases sent <;> simp only [] <;> split_ifs <;> simp_all [Report.requests]

theorem requestFrames_requests (qpack : QpackDecoder) (respond : Bool) :
    ∀ (fs : List Frame) (sent : Bool),
      sent.toNat + (Report.requests ((requestFrames qpack respond).exec sent fs).2).length
        ≤ ((requestFrames qpack respond).exec sent fs).1.toNat
  | [], sent => le_refl _
  | f :: fs, sent => by
    have hstep : sent.toNat + (Report.requests ((requestFrames qpack respond).step sent f).2).length
        ≤ ((requestFrames qpack respond).step sent f).1.toNat :=
      requestFrame_requests qpack respond sent f
    have hrest := requestFrames_requests qpack respond fs ((requestFrames qpack respond).step sent f).1
    simp only [Machine.exec_cons, requests_append, List.length_append]
    omega

/-! ### One call -/

theorem resolveRole_append {role : StreamRole} {x more : List UInt8} {r : StreamRole × List UInt8}
    (hr : resolveRole role x = r) (hknown : r.1 ≠ .unknown) :
    resolveRole role (x ++ more) = (r.1, r.2 ++ more) ∧ resolveRole r.1 = Prod.mk r.1 := by
  subst hr
  have hsame : ∀ ρ : StreamRole, ρ ≠ .unknown → resolveRole ρ = Prod.mk ρ := by
    intro ρ hρ
    funext buf
    cases ρ with
    | unknown => exact absurd rfl hρ
    | request | control | encoder | push | decoder => rfl
  refine ⟨?_, hsame _ hknown⟩
  cases role with
  | unknown =>
    cases x with
    | nil => exact absurd rfl hknown
    | cons type x => rfl
  | request | control | encoder | push | decoder => rfl

theorem unknown_of_resolveRole {role : StreamRole} {x buf : List UInt8}
    (h : resolveRole role x = (.unknown, buf)) : role = .unknown ∧ x = [] ∧ buf = [] := by
  cases role with
  | unknown =>
    cases x with
    | nil => exact ⟨rfl, rfl, (Prod.mk.inj h).2.symm⟩
    | cons type x =>
      have hrole := (Prod.mk.inj h).1
      split_ifs at hrole
  | request | control | encoder | push | decoder => cases h

theorem put_put (h : Http3Handler) (stream : HQUIC) (s s' : StreamState) :
    (h.put stream s).put stream s' = h.put stream s' := by
  simp only [put, Function.update_idem]

theorem onStreamData_of_state (hstate : h.streamStates stream = some state) (data : List UInt8)
    (fin : Bool) :
    h.onStreamData answered stream data fin = h.receive answered stream state data fin := by
  rw [onStreamData, hstate]

theorem put_state (h : Http3Handler) (stream : HQUIC) (state : StreamState) :
    (h.put stream state).streamStates stream = some state :=
  Function.update_self _ _ _

variable {data : List UInt8} {fin : Bool} {buf left : List UInt8} {fs : List Frame}

/-- The state of a stream before its frames are read. -/
def noted (state : StreamState) (role : StreamRole) (data : List UInt8) (fin : Bool) :
    StreamState :=
  { state with role, finSeen := state.finSeen || fin, buf := state.buf ++ data }

theorem receive_request (hrole : resolveRole state.role (state.buf ++ data) = (.request, buf))
    (hsplits : Framing.Splits nextFrame buf fs left) :
    h.receive answered stream state data fin
      = (h.put stream
          { noted state .request data fin with
            webtransportSent :=
              ((requestFrames h.qpack (answered stream)).exec state.webtransportSent fs).1
            buf := left },
        ((requestFrames h.qpack (answered stream)).exec state.webtransportSent fs).2) := by
  have hloop := Framing.loop_of_splits nextFrame_incremental
    (requestFrames h.qpack (answered stream)) hsplits state.webtransportSent (le_refl _)
  simp only [receive, hrole, hloop]
  rfl

theorem receive_control (hrole : resolveRole state.role (state.buf ++ data) = (.control, buf))
    (hsplits : Framing.Splits nextFrame buf fs left) :
    h.receive answered stream state data fin
      = (put { h with settingsReceived := (controlFrames.exec h.settingsReceived fs).1 } stream
          { noted state .control data fin with buf := left },
        (controlFrames.exec h.settingsReceived fs).2) := by
  have hloop := Framing.loop_of_splits nextFrame_incremental controlFrames hsplits
    h.settingsReceived (le_refl _)
  simp only [receive, hrole, hloop]
  rfl

theorem receive_encoder (hrole : resolveRole state.role (state.buf ++ data) = (.encoder, buf)) :
    h.receive answered stream state data fin
      = (put { h with qpack := (h.qpack.feedEncoderStream buf).1 } stream
          { noted state .encoder data fin with buf := [] },
        [.feedEncoderStream buf]) := by
  simp only [receive, hrole]
  rfl

/-- The bytes of the other streams are only kept. -/
theorem receive_other {r : StreamRole × List UInt8}
    (hrole : resolveRole state.role (state.buf ++ data) = r)
    (hother : r.1 = .unknown ∨ r.1 = .push ∨ r.1 = .decoder) :
    h.receive answered stream state data fin = (h.put stream (noted state r.1 data fin), []) := by
  subst hrole
  simp only [receive]
  rcases hother with hr | hr | hr <;> simp only [hr] <;> rfl

/-! ### Two calls -/

/-- The handlers agree, and what was reported on the way is the same in all. -/
structure Same (stream : HQUIC) (r r' : Http3Handler × List Report) : Prop where
  agree : Agree stream r.1 r'.1
  parsed : Report.parsed r.2 = Report.parsed r'.2
  requests : Report.requests r.2 = Report.requests r'.2
  fed : (Report.fed r.2).flatten = (Report.fed r'.2).flatten

theorem Same.of_eq {r r' : Http3Handler × List Report} (heq : r = r') : Same stream r r' := by
  subst heq
  exact ⟨.inl rfl, rfl, rfl, rfl⟩

variable (answered) in
/-- Two calls do what one call with the bytes of both does. -/
theorem two_calls (h : Http3Handler) (d d' : List UInt8) (f f' : Bool) :
    Same stream
      (((h.onStreamData answered stream d f).1.onStreamData answered stream d' f').1,
        (h.onStreamData answered stream d f).2
          ++ ((h.onStreamData answered stream d f).1.onStreamData answered stream d' f').2)
      (h.onStreamData answered stream (d ++ d') (f || f')) := by
  rcases hstate : h.streamStates stream with _ | state
  · -- nobody listens
    have hignored : ∀ d f, h.onStreamData answered stream d f = (h, []) := by
      intro d f
      rw [onStreamData, hstate]
    refine .of_eq ?_
    simp only [hignored, List.append_nil]
  rw [onStreamData_of_state hstate, onStreamData_of_state hstate]
  rcases hrole : resolveRole state.role (state.buf ++ d) with ⟨role, buf⟩
  have hwhole : role ≠ .unknown → resolveRole state.role (state.buf ++ (d ++ d')) = (role, buf ++ d')
      ∧ resolveRole role = Prod.mk role := by
    intro hknown
    rw [← List.append_assoc]
    exact resolveRole_append hrole hknown
  cases role with
  | unknown =>
    -- nothing has come yet
    obtain ⟨hunknown, hempty, -⟩ := unknown_of_resolveRole hrole
    obtain ⟨hbuf, rfl⟩ := List.append_eq_nil_iff.1 hempty
    rw [receive_other hrole (.inl rfl), onStreamData_of_state (put_state _ _ _)]
    refine Same.of_eq ?_
    rw [List.nil_append, List.nil_append]
    simp only [receive, noted, hunknown, hbuf, List.nil_append, Bool.or_assoc, put_put]
    rfl
  | request =>
    obtain ⟨hrole', hsame⟩ := hwhole (by decide)
    obtain ⟨fs, left, hsplits⟩ := Framing.splits_total nextFrame_incremental buf
    obtain ⟨gs, rest, hmore⟩ := Framing.splits_total nextFrame_incremental (left ++ d')
    have hboth := hsplits.append nextFrame_incremental hmore
    rw [receive_request hrole hsplits, receive_request hrole' hboth]
    rw [onStreamData_of_state (put_state _ _ _), receive_request (congrFun hsame _) hmore]
    refine Same.of_eq ?_
    simp only [put_put, Machine.exec_append, noted, Bool.or_assoc]
    rfl
  | control =>
    obtain ⟨hrole', hsame⟩ := hwhole (by decide)
    obtain ⟨fs, left, hsplits⟩ := Framing.splits_total nextFrame_incremental buf
    obtain ⟨gs, rest, hmore⟩ := Framing.splits_total nextFrame_incremental (left ++ d')
    have hboth := hsplits.append nextFrame_incremental hmore
    rw [receive_control hrole hsplits, receive_control hrole' hboth]
    rw [onStreamData_of_state (put_state _ _ _), receive_control (congrFun hsame _) hmore]
    refine Same.of_eq ?_
    simp only [put, Function.update_idem, Machine.exec_append, noted, Bool.or_assoc]
  | encoder =>
    obtain ⟨hrole', hsame⟩ := hwhole (by decide)
    rw [receive_encoder hrole, receive_encoder hrole', onStreamData_of_state (put_state _ _ _),
      receive_encoder (congrFun hsame _)]
    refine ⟨.inr ⟨?_, ?_⟩, rfl, rfl, ?_⟩
    · simp only [put, Function.update_idem, noted, Bool.or_assoc]
    · simp only [put, Function.update_self]
      rfl
    · simp [Report.fed]
  | push | decoder =>
    obtain ⟨hrole', hsame⟩ := hwhole (by decide)
    rw [receive_other hrole (by simp), receive_other hrole' (by simp),
      onStreamData_of_state (put_state _ _ _), receive_other (congrFun hsame _) (by simp)]
    refine Same.of_eq ?_
    simp only [put_put, noted, Bool.or_assoc, List.append_assoc, List.append_nil]

/-! ### Any number of calls -/

theorem Agree.trans {a b c : Http3Handler} (hab : Agree stream a b) (hbc : Agree stream b c) :
    Agree stream a c := by
  rcases hab with rfl | ⟨hab, hrole⟩
  · exact hbc
  · rcases hbc with rfl | ⟨hbc, -⟩
    · exact .inr ⟨hab, hrole⟩
    · refine .inr ⟨?_, hrole⟩
      rw [← hbc, ← hab]

variable (answered) in
/-- Handlers that agree do the same with the next bytes. -/
theorem Agree.call (hagree : Agree stream h h') (d : List UInt8) (f : Bool) :
    Same stream (h.onStreamData answered stream d f) (h'.onStreamData answered stream d f) := by
  rcases hagree with rfl | ⟨hqpack, hrole⟩
  · exact .of_eq rfl
  · obtain ⟨qpack, rfl⟩ : ∃ qpack, h' = { h with qpack } := ⟨_, hqpack.symm⟩
    obtain ⟨state, hstate, hencoder⟩ := Option.map_eq_some_iff.1 hrole
    have hresolve : resolveRole state.role (state.buf ++ d) = (.encoder, state.buf ++ d) := by
      rw [hencoder]
      rfl
    rw [onStreamData_of_state hstate, onStreamData_of_state (h := { h with qpack }) hstate,
      receive_encoder hresolve, receive_encoder hresolve]
    refine ⟨.inr ⟨rfl, ?_⟩, rfl, rfl, rfl⟩
    simp only [put, Function.update_self]
    rfl

theorem Same.trans {r r' r'' : Http3Handler × List Report} (h : Same stream r r')
    (h' : Same stream r' r'') : Same stream r r'' where
  agree := h.agree.trans h'.agree
  parsed := h.parsed.trans h'.parsed
  requests := h.requests.trans h'.requests
  fed := h.fed.trans h'.fed

theorem Same.append {r r' q q' : Http3Handler × List Report} (h : Same stream r r')
    (h' : Same stream q q') : Same stream (q.1, r.2 ++ q.2) (q'.1, r'.2 ++ q'.2) where
  agree := h'.agree
  parsed := by simp only [Report.parsed, List.filterMap_append]; exact congrArg₂ _ h.parsed h'.parsed
  requests := by simp only [requests_append, h.requests, h'.requests]
  fed := by
    simp only [Report.fed, List.filterMap_append, List.flatten_append]
    exact congrArg₂ _ h.fed h'.fed

/-- All the calls do what one call with all the bytes does. -/
theorem all_calls (h : Http3Handler) (first : List UInt8 × Bool) (rest : List (List UInt8 × Bool)) :
    Same stream ((chunks answered stream).exec h (first :: rest))
      (h.onStreamData answered stream ((first :: rest).flatMap (·.1)) ((first :: rest).any (·.2))) := by
  induction rest using List.reverseRecOn with
  | nil =>
    rw [Machine.exec_cons, Machine.exec_nil, List.append_nil, List.flatMap_singleton, List.any_cons,
      List.any_nil, Bool.or_false]
    exact .of_eq rfl
  | append_singleton init last ih =>
    have hlast := ih.append (ih.agree.call answered last.1 last.2)
    have hmerge : Same stream _ (h.onStreamData answered stream _ _) :=
      two_calls answered h ((first :: init).flatMap (·.1)) last.1 ((first :: init).any (·.2)) last.2
    rw [← List.cons_append, Machine.exec_append, List.flatMap_append, List.any_append]
    simp only [Machine.exec_cons _ _ last, Machine.exec_nil, List.append_nil, List.flatMap_singleton,
      List.any_cons (a := last), List.any_nil, Bool.or_false]
    exact hlast.trans hmerge

/-! ### What a call feeds and passes on -/

theorem fed_append (out out' : List Report) :
    Report.fed (out ++ out') = Report.fed out ++ Report.fed out' :=
  List.filterMap_append

theorem requestFrames_fed (qpack : QpackDecoder) (respond : Bool) :
    ∀ (fs : List Frame) (sent : Bool),
      Report.fed ((requestFrames qpack respond).exec sent fs).2 = []
  | [], sent => rfl
  | f :: fs, sent => by
    have hstep : Report.fed ((requestFrames qpack respond).step sent f).2 = [] := by
      simp only [requestFrames, requestFrame, parseHeaders]
      split_ifs <;> simp [Report.fed]
    rw [Machine.exec_cons, fed_append, hstep, requestFrames_fed qpack respond fs]
    rfl

theorem controlFrames_out : ∀ (fs : List Frame) (received : Bool),
    (controlFrames.exec received fs).2 = []
  | [], received => rfl
  | f :: fs, received => by
    rw [Machine.exec_cons, controlFrames_out fs]
    rfl

/-- A request on the stream has been answered. -/
def sentOn (h : Http3Handler) (stream : HQUIC) : ℕ :=
  ((h.streamStates stream).any (·.webtransportSent)).toNat

theorem sentOn_le (h : Http3Handler) (stream : HQUIC) : sentOn h stream ≤ 1 :=
  Bool.toNat_le _

/-- The decoder only changes by what it is fed, and a request is passed on only where the stream
becomes answered. -/
theorem onStreamData_spec (h : Http3Handler) (d : List UInt8) (f : Bool) :
    (h.onStreamData answered stream d f).1.qpack
        = (QpackDecoder.stream.exec h.qpack
            (Report.fed (h.onStreamData answered stream d f).2)).1
      ∧ sentOn h stream + (Report.requests (h.onStreamData answered stream d f).2).length
        ≤ sentOn (h.onStreamData answered stream d f).1 stream := by
  rcases hstate : h.streamStates stream with _ | state
  · rw [onStreamData, hstate]
    exact ⟨rfl, le_refl _⟩
  have hbefore : sentOn h stream = state.webtransportSent.toNat := by
    rw [sentOn, hstate]
    rfl
  have hafter : ∀ (h : Http3Handler) (s : StreamState),
      sentOn (h.put stream s) stream = s.webtransportSent.toNat := by
    intro h s
    rw [sentOn, put_state]
    rfl
  rw [onStreamData_of_state hstate, hbefore]
  rcases hrole : resolveRole state.role (state.buf ++ d) with ⟨role, buf⟩
  cases role with
  | request =>
    obtain ⟨fs, left, hsplits⟩ := Framing.splits_total nextFrame_incremental buf
    rw [receive_request hrole hsplits, hafter, requestFrames_fed]
    exact ⟨rfl, requestFrames_requests _ _ fs state.webtransportSent⟩
  | control =>
    obtain ⟨fs, left, hsplits⟩ := Framing.splits_total nextFrame_incremental buf
    rw [receive_control hrole hsplits, hafter, controlFrames_out]
    exact ⟨rfl, le_refl _⟩
  | encoder =>
    rw [receive_encoder hrole, hafter]
    exact ⟨rfl, le_refl _⟩
  | unknown | push | decoder =>
    rw [receive_other hrole (by simp), hafter]
    exact ⟨rfl, le_refl _⟩

theorem chunks_qpack : ∀ (pieces : List (List UInt8 × Bool)) (h : Http3Handler),
    ((chunks answered stream).exec h pieces).1.qpack
      = (QpackDecoder.stream.exec h.qpack
          (Report.fed ((chunks answered stream).exec h pieces).2)).1
  | [], h => rfl
  | piece :: pieces, h => by
    have hstep : ((chunks answered stream).step h piece).1.qpack
        = (QpackDecoder.stream.exec h.qpack
            (Report.fed ((chunks answered stream).step h piece).2)).1 :=
      (onStreamData_spec h piece.1 piece.2).1
    rw [Machine.exec_cons, fed_append, Machine.exec_append]
    rw [chunks_qpack pieces, hstep]

/-! ### At most one request -/

theorem onStreamData_other {other : HQUIC} (hother : other ≠ stream) (h : Http3Handler)
    (d : List UInt8) (f : Bool) :
    (h.onStreamData answered other d f).1.streamStates stream = h.streamStates stream := by
  unfold onStreamData
  rcases h.streamStates other with _ | state
  · rfl
  simp only [receive]
  split <;> simp only [put, Function.update_of_ne hother.symm]

theorem ofStream_append (out out' : List (HQUIC × Report)) :
    Report.ofStream stream (out ++ out')
      = Report.ofStream stream out ++ Report.ofStream stream out' := by
  rw [Report.ofStream, List.filter_append, List.map_append]
  rfl

theorem ofStream_map (other : HQUIC) (out : List Report) :
    Report.ofStream stream (out.map (other, ·)) = if other = stream then out else [] := by
  unfold Report.ofStream
  split_ifs with hsame <;> simp [List.filter_map, Function.comp_def, hsame]

variable (answered)

theorem calls_step (h : Http3Handler) (c : Call) (hopen : c ≠ .streamClosed stream) :
    sentOn h stream
        + (Report.requests (Report.ofStream stream ((calls answered).step h c).2)).length
      ≤ sentOn ((calls answered).step h c).1 stream := by
  cases c with
  | peerStreamStarted other unidirectional =>
    change sentOn h stream + 0 ≤ sentOn (h.onPeerStreamStarted other unidirectional) stream
    by_cases hsame : stream = other
    · subst hsame
      rcases hstate : h.streamStates stream with _ | state <;>
        simp [sentOn, onPeerStreamStarted, hstate]
    · simp [sentOn, onPeerStreamStarted, Function.update_of_ne hsame]
  | streamData other data fin =>
    change _ + (Report.requests (Report.ofStream stream
      ((h.onStreamData answered other data fin).2.map (other, ·)))).length
        ≤ sentOn (h.onStreamData answered other data fin).1 stream
    rw [ofStream_map]
    split_ifs with hsame
    · subst hsame
      exact (onStreamData_spec h data fin).2
    · rw [sentOn, sentOn, onStreamData_other hsame]
      exact le_refl _
  | streamClosed other =>
    have hother : stream ≠ other := fun hsame => hopen (congrArg Call.streamClosed hsame.symm)
    change sentOn h stream + 0 ≤ sentOn (h.onStreamClosed other) stream
    simp [sentOn, onStreamClosed, Function.update_of_ne hother]

theorem calls_requests : ∀ (cs : List Call) (h : Http3Handler), .streamClosed stream ∉ cs →
    sentOn h stream
        + (Report.requests (Report.ofStream stream ((calls answered).exec h cs).2)).length
      ≤ sentOn ((calls answered).exec h cs).1 stream
  | [], h, _ => le_refl _
  | c :: cs, h, hopen => by
    have hstep := calls_step answered h c
      fun hclosed => hopen (hclosed ▸ List.mem_cons_self)
    have hrest := calls_requests cs ((calls answered).step h c).1
      fun hclosed => hopen (List.mem_cons_of_mem c hclosed)
    rw [Machine.exec_cons]
    simp only [ofStream_append, requests_append, List.length_append]
    omega

variable {answered}

/-! ### The frames of a request stream -/

theorem parsed_of_encoded {fs : List Frame} {bytes : List UInt8}
    (hstate : h.streamStates stream = some state) (hrole : state.role = .request)
    (hbuf : state.buf = []) (hsent : state.webtransportSent = false) (hbytes : Encoded fs bytes)
    (f : Bool) :
    Report.parsed (h.onStreamData answered stream bytes f).2 = untilConnect h.qpack (headers fs) := by
  have hresolve : resolveRole state.role (state.buf ++ bytes) = (.request, bytes) := by
    rw [hrole, hbuf]
    rfl
  rw [onStreamData_of_state hstate, receive_request hresolve (splits_of_encoded hbytes), hsent]
  exact parsed_notSent h.qpack (answered stream) fs

/-- The calls for a stream do what one call with all their bytes does, and of the frames on a
request stream the headers are parsed up to the first request for a session. -/
theorem chunks_independent (answered : HQUIC → Bool) (h : Http3Handler) (stream : HQUIC)
    (first : List UInt8 × Bool) (rest : List (List UInt8 × Bool)) :
    let run := (chunks answered stream).exec h (first :: rest)
    let bytes := (first :: rest).flatMap (·.1)
    let whole := h.onStreamData answered stream bytes ((first :: rest).any (·.2))
    Agree stream run.1 whole.1
      ∧ (Report.fed run.2).flatten = (Report.fed whole.2).flatten
      ∧ run.1.qpack = (QpackDecoder.stream.exec h.qpack (Report.fed run.2)).1
      ∧ Report.parsed run.2 = Report.parsed whole.2
      ∧ Report.requests run.2 = Report.requests whole.2
      ∧ (∀ state fs, h.streamStates stream = some state → state.role = .request →
          state.buf = [] → state.webtransportSent = false → Encoded fs bytes →
            Report.parsed run.2 = untilConnect h.qpack (headers fs))
      ∧ ∀ cs, .streamClosed stream ∉ cs →
          (Report.requests (Report.ofStream stream ((calls answered).exec h cs).2)).length ≤ 1 := by
  intro run bytes whole
  have hsame : Same stream run whole := all_calls h first rest
  refine ⟨hsame.agree, hsame.fed, chunks_qpack (first :: rest) h, hsame.parsed, hsame.requests, ?_, ?_⟩
  · intro state fs hstate hrole hbuf hsent hbytes
    exact hsame.parsed.trans (parsed_of_encoded hstate hrole hbuf hsent hbytes _)
  · intro cs hopen
    have hcount := calls_requests answered cs h hopen
    have hle := sentOn_le ((calls answered).exec h cs).1 stream
    omega

/-- `:method: CONNECT` and `:protocol: webtransport`. -/
def connectFields : List UInt8 :=
  [0, 0, 0xCF, 0x27, 0x02, 58, 112, 114, 111, 116, 111, 99, 111, 108, 12, 119, 101, 98, 116, 114, 97,
    110, 115, 112, 111, 114, 116]

theorem encodes_singleton {n : UInt8} {v : ℕ} (hwidth : Varint.width n = 1)
    (hvalue : Varint.value [n] = v) : Varint.Encodes [n] v :=
  ⟨n, [], rfl, hwidth.symm, hvalue⟩

theorem encoded_connect {fs : List Frame} {bytes : List UInt8} (h : Encoded fs bytes) :
    Encoded (⟨1, connectFields⟩ :: fs) (1 :: 27 :: connectFields ++ bytes) :=
  .frame (encodes_singleton rfl rfl) (encodes_singleton rfl rfl) h

theorem chunks_independent_request :
    Report.parsed ((chunks (fun _ => true) 4).exec (onPeerStreamStarted {} 4 false)
        [([1], false), ([2, 0, 0, 0, 1], false), ([7, 1, 27, 0, 0], false),
          (connectFields.drop 2, true)]).2 = [[0, 0], connectFields]
      ∧ (Report.requests (Report.ofStream 4 ((calls fun _ => true).exec
          (onPeerStreamStarted {} 4 false)
          [.streamData 4 (1 :: 27 :: connectFields) false, .peerStreamStarted 8 false,
            .streamData 4 (1 :: 27 :: connectFields) true]).2)).length ≤ 1 := by
  obtain ⟨-, -, -, -, -, hframes, hcalls⟩ := chunks_independent (fun _ => true)
    (onPeerStreamStarted {} 4 false) 4 ([1], false)
    [([2, 0, 0, 0, 1], false), ([7, 1, 27, 0, 0], false), (connectFields.drop 2, true)]
  have hencoded : Encoded [⟨1, [0, 0]⟩, ⟨0, [7]⟩, ⟨1, connectFields⟩]
      ([1] ++ [2] ++ [0, 0] ++ ([0] ++ [1] ++ [7] ++ (1 :: 27 :: connectFields ++ []))) :=
    .frame (encodes_singleton rfl rfl) (encodes_singleton rfl rfl)
      (.frame (encodes_singleton rfl rfl) (encodes_singleton rfl rfl) (encoded_connect .nil))
  refine ⟨?_, hcalls _ (by decide)⟩
  exact (hframes { role := .request } _ rfl rfl rfl rfl hencoded).trans (by decide +kernel)

/-- The headers after a request for a session are not parsed. -/
theorem second_connect_not_parsed :
    Encoded [⟨1, connectFields⟩, ⟨1, connectFields⟩]
        (1 :: 27 :: connectFields ++ (1 :: 27 :: connectFields ++ []))
      ∧ Report.parsed ((chunks (fun _ => true) 4).exec (onPeerStreamStarted {} 4 false)
          [(1 :: 27 :: connectFields ++ (1 :: 27 :: connectFields ++ []), false)]).2
        ≠ headers [⟨1, connectFields⟩, ⟨1, connectFields⟩] :=
  ⟨encoded_connect (encoded_connect .nil), by decide +kernel⟩

end Http3Handler

end NimRtc.Http3
