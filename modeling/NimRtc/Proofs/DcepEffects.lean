import NimRtc.Proofs.SctpDelivery
import NimRtc.DataChannel

/-!
# What a DCEP message does

Only taking over the configuration depends on whether an OPEN decodes. The ACK and the report of the
state follow from the first byte alone, so an OPEN that does not decode has them as effects. An OPEN
that does is acknowledged if the socket takes the ACK, and then its parameters are what is sent by.
-/

namespace NimRtc

namespace ChannelReport

@[simp] theorem sends_nil : sends [] = [] := rfl

@[simp] theorem sends_append (rs rs' : List ChannelReport) :
    sends (rs ++ rs') = sends rs ++ sends rs' := List.filterMap_append ..

@[simp] theorem opens_nil : opens [] = [] := rfl

@[simp] theorem opens_append (rs rs' : List ChannelReport) :
    opens (rs ++ rs') = opens rs ++ opens rs' := by
  rw [opens, sends_append, List.filter_append]
  rfl

@[simp] theorem states_nil : states [] = [] := rfl

@[simp] theorem states_append (rs rs' : List ChannelReport) :
    states (rs ++ rs') = states rs ++ states rs' := List.filterMap_append ..

end ChannelReport

namespace SctpDataChannel

open ChannelReport

variable {c : SctpDataChannel}

@[simp] theorem sends_reportState (s : String) : sends (c.reportState s) = [] := by
  unfold reportState
  split_ifs <;> rfl

theorem states_reportState (s : String) :
    states (c.reportState s) = if c.onState then [s] else [] := by
  unfold reportState
  split_ifs <;> rfl

@[simp] theorem states_toSocket (mode : SctpSendMode) (ppid : UInt32) (data : List UInt8)
    (accepts : Bool) : states (c.toSocket mode ppid data accepts).2 = [] := by
  unfold toSocket
  cases c.sock with
  | none => rfl
  | some s =>
    simp only
    split_ifs <;> rfl

/-- A message is handed to the socket in the mode that is asked for, or not at all. -/
theorem sends_toSocket (mode : SctpSendMode) (ppid : UInt32) (data : List UInt8) (accepts : Bool) :
    sends (c.toSocket mode ppid data accepts).2
      = if c.sock.any fun s => s.sends data accepts then [(mode, ppid, data)] else [] := by
  unfold toSocket
  cases c.sock with
  | none => rfl
  | some s =>
    simp only [Option.any_some]
    split_ifs <;> rfl

theorem sends_send (data : List UInt8) (accepts : Bool) :
    ∀ o ∈ sends (c.send data accepts), o.1 = sendMode c.cfg := by
  intro o ho
  simp only [send] at ho
  split at ho
  · rw [sends_reportState] at ho
    cases ho
  · have hrest : sends (if (c.toSocket (sendMode c.cfg) (dcepPpidForConfig c.cfg) data accepts).1
        then [] else c.reportState "error") = [] := by
      split_ifs
      · rfl
      · exact sends_reportState _
    rw [sends_append, hrest, List.append_nil, sends_toSocket] at ho
    split_ifs at ho
    · rw [List.mem_singleton.1 ho]
    · cases ho

/-! ### The configuration -/

theorem head_of_decode {payload : List UInt8} {p : DcepOpenParams}
    (h : dcepDecodeOpen payload = some p) : payload.head? = some kDcepOpen := by
  unfold dcepDecodeOpen at h
  split at h
  · split_ifs at h with hb
    all_goals exact congrArg some (not_not.1 hb)
  · cases h

theorem adopt_of_none {payload : List UInt8} (h : dcepDecodeOpen payload = none) :
    c.adopt payload = c := by
  rw [adopt, h]

/-- Other messages leave the configuration alone. -/
theorem cfg_onSctpRecvWithPpid {m : SctpMessage} (h : m.IsNoOpen) :
    (c.onSctpRecvWithPpid m).1.cfg = c.cfg := by
  unfold onSctpRecvWithPpid
  split_ifs with hdcep huser
  · cases m.payload.head? with
    | none => rfl
    | some b =>
      simp only
      split_ifs
      · rfl
      · rw [adopt_of_none (h hdcep)]
      · rfl
  · rfl
  · rfl

theorem cfg_instanceRecv {m : SctpMessage} (h : m.IsNoOpen) :
    (c.instanceRecv m).1.cfg = c.cfg := by
  unfold instanceRecv
  cases c.sock with
  | none => rfl
  | some s =>
    simp only
    split_ifs
    · exact cfg_onSctpRecvWithPpid h
    · rfl

theorem cfg_recvAll : ∀ {ms : List SctpMessage} {c : SctpDataChannel}, (∀ m ∈ ms, m.IsNoOpen) →
    (c.recvAll ms).1.cfg = c.cfg
  | [], _, _ => rfl
  | m :: ms, c, h => by
    rw [recvAll]
    exact (cfg_recvAll fun m' hm' => h m' (List.mem_cons_of_mem _ hm')).trans
      (cfg_instanceRecv (h m List.mem_cons_self))

theorem sendMode_of_params {cfg : DataChannelConfig} {p : DcepOpenParams}
    (hreliability : cfg.reliability = p.reliability) (hordered : cfg.ordered = p.ordered)
    (hretransmits : cfg.maxRetransmits = p.maxRetransmits)
    (hlifetime : cfg.maxPacketLifetimeMs = p.maxPacketLifetimeMs) : sendMode cfg = p.sendMode := by
  unfold sendMode DcepOpenParams.sendMode
  rw [hreliability, hordered, hretransmits, hlifetime]
  cases p.reliability <;> rfl

/-! ### One message -/

section Message

variable {stream : UInt16} {payload : List UInt8} {accepts : Bool}

variable (c stream accepts) in
theorem recv_of_none (h : dcepDecodeOpen payload = none) :
    (c.onSctpRecvWithPpid ⟨stream, kPpidDcep, payload, accepts⟩).1 = c
      ∧ sends (c.onSctpRecvWithPpid ⟨stream, kPpidDcep, payload, accepts⟩).2
        = (if payload.head? = some kDcepOpen ∧ c.takesAck accepts then
            [(.stream, kPpidDcep, dcepEncodeAck)] else [])
      ∧ states (c.onSctpRecvWithPpid ⟨stream, kPpidDcep, payload, accepts⟩).2
        = (if (payload.head? = some kDcepOpen ∨ payload.head? = some kDcepAck) ∧ c.onState then
            ["open"] else []) := by
  unfold onSctpRecvWithPpid
  rw [if_pos rfl]
  cases hhead : payload.head? with
  | none => simp
  | some b =>
    by_cases hack : b = kDcepAck
    · have hne : kDcepAck ≠ kDcepOpen := by decide
      simp [hack, hne, states_reportState]
    · by_cases hopen : b = kDcepOpen
      · have hne : kDcepOpen ≠ kDcepAck := by decide
        simp [hopen, hne, adopt_of_none h, states_reportState, sends_toSocket, takesAck]
      · simp [hack, hopen]

theorem noEffect_iff (h : dcepDecodeOpen payload = none) :
    NoEffect c (c.onSctpRecvWithPpid ⟨stream, kPpidDcep, payload, accepts⟩)
      ↔ (payload.head? = some kDcepOpen → c.onState = false ∧ c.takesAck accepts = false)
        ∧ (payload.head? = some kDcepAck → c.onState = false) := by
  obtain ⟨hcfg, hsends, hstates⟩ := recv_of_none c stream accepts h
  constructor
  · intro hnone
    have hack := hsends.symm.trans hnone.sends
    have hstate := hstates.symm.trans hnone.states
    rw [ite_eq_right_iff] at hack hstate
    constructor
    · intro hopen
      constructor
      · by_contra hon
        exact absurd (hstate ⟨.inl hopen, by simpa using hon⟩) (by simp)
      · by_contra htakes
        exact absurd (hack ⟨hopen, by simpa using htakes⟩) (by simp)
    · intro hhead
      by_contra hon
      exact absurd (hstate ⟨.inr hhead, by simpa using hon⟩) (by simp)
  · rintro ⟨hopen, hack⟩
    refine ⟨congrArg cfg hcfg, ?_, ?_⟩
    · rw [hsends, if_neg]
      rintro ⟨hhead, htakes⟩
      rw [(hopen hhead).2] at htakes
      cases htakes
    · rw [hstates, if_neg]
      rintro ⟨hhead | hhead, hon⟩
      · rw [(hopen hhead).1] at hon
        cases hon
      · rw [hack hhead] at hon
        cases hon

theorem recv_of_some {p : DcepOpenParams} (h : dcepDecodeOpen payload = some p) :
    c.onSctpRecvWithPpid ⟨stream, kPpidDcep, payload, accepts⟩
      = (c.adopt payload, ((c.adopt payload).toSocket .stream kPpidDcep dcepEncodeAck accepts).2
          ++ (c.adopt payload).reportState "open") := by
  have hne : kDcepOpen ≠ kDcepAck := by decide
  unfold onSctpRecvWithPpid
  rw [if_pos rfl, head_of_decode h]
  simp only [hne, if_false, if_true]

@[simp] theorem sock_adopt : (c.adopt payload).sock = c.sock := by
  unfold adopt
  cases dcepDecodeOpen payload <;> rfl

theorem applies_iff {p : DcepOpenParams} (h : dcepDecodeOpen payload = some p) :
    Applies p (c.onSctpRecvWithPpid ⟨stream, kPpidDcep, payload, accepts⟩)
      ↔ c.takesAck accepts = true := by
  have hsends : sends (c.onSctpRecvWithPpid ⟨stream, kPpidDcep, payload, accepts⟩).2
      = if c.takesAck accepts then [(.stream, kPpidDcep, dcepEncodeAck)] else [] := by
    rw [recv_of_some h, sends_append, sends_reportState, List.append_nil, sends_toSocket,
      sock_adopt, takesAck]
  constructor
  · intro happlies
    by_contra hno
    have hack := hsends.symm.trans happlies.ack
    rw [if_neg hno] at hack
    cases hack
  · intro htakes
    have hcfg : (c.onSctpRecvWithPpid ⟨stream, kPpidDcep, payload, accepts⟩).1
        = c.adopt payload := by
      rw [recv_of_some h]
    have hadopt : c.adopt payload = { c with cfg := { c.cfg with
        label := p.label, reliability := p.reliability, ordered := p.ordered,
        maxRetransmits := p.maxRetransmits, maxPacketLifetimeMs := p.maxPacketLifetimeMs } } := by
      rw [adopt, h]
    rw [hadopt] at hcfg
    constructor
    case ack => rw [hsends, if_pos htakes]
    case sends =>
      intro ms hms data accepts' o ho
      rw [sends_send data accepts' o ho, cfg_recvAll hms, hcfg]
      exact sendMode_of_params rfl rfl rfl rfl
    all_goals rw [hcfg]

end Message

theorem handlesOpen_iff (c : SctpDataChannel) (stream : UInt16) (payload : List UInt8)
    (accepts : Bool) : c.HandlesOpen stream payload accepts ↔ c.Answerable payload accepts := by
  unfold HandlesOpen Answerable
  cases h : dcepDecodeOpen payload with
  | none => exact noEffect_iff h
  | some p => exact applies_iff h

/-- An OPEN for an unordered channel, whose type the decoder does not know, is acknowledged. -/
theorem unordered_open_acked :
    ¬ ∀ (c : SctpDataChannel) stream payload accepts, c.HandlesOpen stream payload accepts := by
  intro hall
  have hdecode : dcepDecodeOpen [kDcepOpen, 0x80, 0, 0, 0, 0, 0, 0, 0, 0, 0, 0] = none := by decide
  have h := hall {} 0 [kDcepOpen, 0x80, 0, 0, 0, 0, 0, 0, 0, 0, 0, 0] true
  rw [HandlesOpen, hdecode] at h
  have hsends := h.sends
  revert hsends
  decide

/-! ### Runs of a channel -/

@[simp] theorem opens_reportState (s : String) : opens (c.reportState s) = [] := by
  rw [opens, sends_reportState]
  rfl

theorem opens_toSocket {mode : SctpSendMode} {ppid : UInt32} {data : List UInt8} (accepts : Bool)
    (h : ¬ (ppid = kPpidDcep ∧ data.head? = some kDcepOpen)) :
    opens (c.toSocket mode ppid data accepts).2 = [] := by
  rw [opens, sends_toSocket]
  split_ifs
  · exact List.filter_eq_nil_iff.2 fun m hm => by
      rw [List.mem_singleton.1 hm]
      simpa using h
  · rfl

/-- What the user sends has the PPID of user messages. -/
theorem opens_send (data : List UInt8) (accepts : Bool) : opens (c.send data accepts) = [] := by
  have hsent : opens (c.toSocket (sendMode c.cfg) (dcepPpidForConfig c.cfg) data accepts).2 = [] :=
    opens_toSocket accepts fun h => absurd h.1 (by rw [dcepPpidForConfig]; decide)
  unfold send
  simp only
  split_ifs
  · exact opens_reportState _
  · rw [opens_append, hsent]
    rfl
  · rw [opens_append, hsent, opens_reportState]
    rfl

theorem opens_onSctpRecv (data : List UInt8) : opens (c.onSctpRecv data) = [] := by
  unfold onSctpRecv
  split_ifs <;> rfl

/-- An OPEN of the peer is answered by an ACK. -/
theorem opens_onSctpRecvWithPpid (m : SctpMessage) : opens (c.onSctpRecvWithPpid m).2 = [] := by
  unfold onSctpRecvWithPpid
  split_ifs with hdcep huser
  · cases m.payload.head? with
    | none => rfl
    | some b =>
      simp only
      split_ifs
      · exact opens_reportState _
      · rw [opens_append, opens_reportState, opens_toSocket _ fun h => absurd h.2 (by decide)]
        rfl
      · rfl
  · exact opens_onSctpRecv _
  · rfl

theorem opens_instanceRecv (m : SctpMessage) : opens (c.instanceRecv m).2 = [] := by
  unfold instanceRecv
  cases c.sock with
  | none => rfl
  | some s =>
    simp only
    split_ifs <;> simp [opens_onSctpRecv, opens_onSctpRecvWithPpid]

theorem onSctpRecvWithPpid_eq (m : SctpMessage) :
    ∃ cfg, (c.onSctpRecvWithPpid m).1 = { c with cfg } := by
  unfold onSctpRecvWithPpid
  split_ifs
  · cases m.payload.head? with
    | none => exact ⟨c.cfg, rfl⟩
    | some b =>
      simp only
      split_ifs
      · exact ⟨c.cfg, rfl⟩
      · exact adopt_eq m.payload
      · exact ⟨c.cfg, rfl⟩
  · exact ⟨c.cfg, rfl⟩
  · exact ⟨c.cfg, rfl⟩

theorem instanceRecv_eq (m : SctpMessage) : ∃ cfg, (c.instanceRecv m).1 = { c with cfg } := by
  unfold instanceRecv
  split
  · exact ⟨c.cfg, rfl⟩
  · simp only
    split_ifs
    · exact onSctpRecvWithPpid_eq m
    · exact ⟨c.cfg, rfl⟩

/-- How many OPENs the channel may still send: it has a socket, and none was sent. -/
def opensLeft (c : SctpDataChannel) : ℕ := if c.sock.isSome && !c.dcepOpenSent then 1 else 0

theorem opensLeft_le (c : SctpDataChannel) : c.opensLeft ≤ 1 := by
  unfold opensLeft
  split_ifs <;> decide

theorem opens_sendDcepOpen (accepts : Bool) :
    (opens (c.sendDcepOpen accepts).2).length + (c.sendDcepOpen accepts).1.opensLeft
      ≤ c.opensLeft := by
  unfold sendDcepOpen
  split_ifs with hidle
  · exact (Nat.zero_add _).le
  · simp only [Bool.or_eq_true, not_or, Bool.not_eq_true, Option.isNone_eq_false_iff] at hidle
    obtain ⟨⟨-, hsock⟩, hunsent⟩ := hidle
    have hleft : c.opensLeft = 1 := by rw [opensLeft, hsock, hunsent]; rfl
    have hone : (opens (c.toSocket .stream kPpidDcep (dcepEncodeOpen c.cfg) accepts).2).length ≤ 1 := by
      rw [opens, sends_toSocket]
      refine (List.length_filter_le _ _).trans ?_
      split_ifs <;> simp
    rcases hsend : c.toSocket .stream kPpidDcep (dcepEncodeOpen c.cfg) accepts with ⟨ok, reports⟩
    rw [hsend] at hone
    rw [hleft]
    cases ok with
    | false =>
      show (opens (c.reportState "error")).length + c.opensLeft ≤ 1
      rw [opens_reportState, hleft]
      exact le_rfl
    | true =>
      have hnone : opensLeft { c with dcepOpenSent := true } = 0 := by simp [opensLeft]
      show (opens reports).length + opensLeft { c with dcepOpenSent := true } ≤ 1
      rw [hnone]
      exact hone

/-- An OPEN that is sent is taken off those that are left, and no call adds to them. -/
theorem opens_call (c : SctpDataChannel) (call : Call) :
    (opens (c.call call).2).length + (c.call call).1.opensLeft ≤ c.opensLeft := by
  cases call with
  | «open» =>
    unfold SctpDataChannel.call «open»
    cases hsock : c.sock with
    | none => split_ifs <;> simp
    | some s => split_ifs <;> simp [opensLeft, hsock]
  | configure cfg => exact (Nat.zero_add _).le
  | setOnMessage set => exact (Nat.zero_add _).le
  | setOnState set => exact (Nat.zero_add _).le
  | sendDcepOpen accepts => exact opens_sendDcepOpen accepts
  | send data accepts =>
    show (opens (c.send data accepts)).length + c.opensLeft ≤ _
    rw [opens_send]
    exact (Nat.zero_add _).le
  | recv m =>
    obtain ⟨cfg, heq⟩ := instanceRecv_eq (c := c) m
    show (opens (c.instanceRecv m).2).length + (c.instanceRecv m).1.opensLeft ≤ _
    rw [opens_instanceRecv, heq]
    exact (Nat.zero_add _).le
  | close =>
    show (opens (c.reportState "closed")).length + 0 ≤ _
    rw [opens_reportState]
    exact Nat.zero_le _

theorem opens_exec : ∀ (calls : List Call) (c : SctpDataChannel),
    (opens (machine.exec c calls).2).length ≤ c.opensLeft
  | [], _ => Nat.zero_le _
  | call :: calls, c => by
    have hfirst := opens_call c call
    have hrest := opens_exec calls (c.call call).1
    rw [Machine.exec_cons, opens_append, List.length_append]
    exact (Nat.add_le_add_left hrest _).trans hfirst

/-- Without a socket a call reports states at most, and gets none. -/
theorem call_without_socket {c : SctpDataChannel} (hsock : c.sock = none) (call : Call) :
    (c.call call).1.sock = none ∧ ∀ o ∈ (c.call call).2, ∃ s, o = .state s := by
  have hstate : ∀ s, ∀ o ∈ c.reportState s, ∃ s, o = .state s := by
    intro s o ho
    unfold reportState at ho
    split_ifs at ho
    · exact ⟨s, List.mem_singleton.1 ho⟩
    · cases ho
  cases call with
  | «open» =>
    unfold SctpDataChannel.call «open»
    rw [hsock]
    split_ifs <;> exact ⟨hsock, fun o ho => by cases ho⟩
  | configure cfg => exact ⟨hsock, fun o ho => by cases ho⟩
  | setOnMessage set => exact ⟨hsock, fun o ho => by cases ho⟩
  | setOnState set => exact ⟨hsock, fun o ho => by cases ho⟩
  | sendDcepOpen accepts =>
    have hidle : c.call (.sendDcepOpen accepts) = (c, []) := by
      simp [SctpDataChannel.call, SctpDataChannel.sendDcepOpen, hsock]
    rw [hidle]
    exact ⟨hsock, fun o ho => by cases ho⟩
  | send data accepts =>
    refine ⟨hsock, fun o ho => hstate "error" o ?_⟩
    simpa [SctpDataChannel.call, SctpDataChannel.send, toSocket, hsock] using ho
  | recv m =>
    unfold SctpDataChannel.call instanceRecv
    rw [hsock]
    exact ⟨hsock, fun o ho => by cases ho⟩
  | close => exact ⟨rfl, hstate "closed"⟩

/-- However it is called, a channel hands at most one OPEN to its socket, and once it is closed it
hands over nothing and delivers nothing. -/
theorem opened_once (c : SctpDataChannel) (calls calls' : List Call) :
    (opens (machine.exec c calls).2).length ≤ 1
      ∧ ∀ o ∈ (machine.exec c.close.1 calls').2, ∃ s, o = .state s :=
  ⟨(opens_exec calls c).trans c.opensLeft_le,
    (Machine.exec_inv (M := machine) (I := fun c => c.sock = none)
      (fun _ call hsock (_ : True) => call_without_socket hsock call) calls' rfl
      Machine.meets_true).2⟩

end SctpDataChannel

end NimRtc

/-!
## What an OPEN carries

An OPEN read back describes the channel it was written for in every mode but the unreliable one,
which the encoder writes as reliable and ordered.
-/

namespace NimRtc

theorem be16_bytes (n : UInt16) : be16 (n >>> 8).toUInt8 n.toUInt8 = n.toNat := by
  have hn := n.toNat_lt
  have hhigh : (n >>> 8).toUInt8.toNat = n.toNat / 256 := by
    simp [Nat.shiftRight_eq_div_pow]
    omega
  rw [be16, hhigh, UInt16.toNat_toUInt8]
  omega

@[simp] theorem be16_zero : be16 0 0 = 0 := rfl

theorem dcepParam_toNat (n : UInt16) : dcepParam n.toNat = n := by
  have hn := n.toNat_lt
  rw [dcepParam, Nat.min_eq_left (by omega), UInt16.ofNat_toNat]

/-- What the decoder makes of a channel type and a reliability parameter. -/
def dcepRead (channelType : UInt8) (param : UInt16) (label : List UInt8) : Option DcepOpenParams :=
  if channelType = kDcepReliable then some { label }
  else if channelType = kDcepPartialReliableTimed then
    some { reliability := .partialReliableTtl, maxPacketLifetimeMs := param, label }
  else if channelType = kDcepPartialReliableRexmit then
    some { reliability := .partialReliableCount, maxRetransmits := param, label }
  else none

/-- The offsets and widths of the two sides agree: the decoder gets the type, the parameter and the
label that the encoder chose. -/
theorem dcepDecodeOpen_dcepEncodeOpen {cfg : DataChannelConfig} (h : cfg.label.length ≤ 65535) :
    dcepDecodeOpen (dcepEncodeOpen cfg) = dcepRead cfg.dcepType.1 cfg.dcepType.2 cfg.label := by
  have hlen : (UInt16.ofNat cfg.label.length).toNat = cfg.label.length :=
    UInt16.toNat_ofNat_of_lt' (by simp [UInt16.size]; omega)
  simp only [dcepEncodeOpen, List.take_of_length_le h, List.cons_append, List.nil_append,
    dcepDecodeOpen, be16_bytes, hlen, be16_zero, Nat.add_zero, Nat.zero_mul, Nat.zero_add,
    List.take_length, ne_eq, not_true_eq_false, if_false, dcepParam_toNat, dcepRead]

theorem dcepOpen_describes_iff {cfg : DataChannelConfig} (h : cfg.label.length ≤ 65535) :
    (∃ p, dcepDecodeOpen (dcepEncodeOpen cfg) = some p ∧ p.Describes cfg) ↔
      cfg.reliability ≠ .unreliable := by
  rw [dcepDecodeOpen_dcepEncodeOpen h]
  constructor
  · rintro ⟨p, hp, hdesc⟩ hmode
    -- The type byte is that of a reliable channel, and so is what is read from it.
    rw [DataChannelConfig.dcepType, hmode] at hp
    obtain rfl : { label := cfg.label } = p := Option.some.inj hp
    have hsame : DataChannelReliability.reliableOrdered = cfg.reliability := hdesc.reliability
    rw [hmode] at hsame
    cases hsame
  · intro hmode
    rw [DataChannelConfig.dcepType]
    cases hrel : cfg.reliability with
    | reliableOrdered => exact ⟨_, rfl, rfl, hrel.symm, by simp [hrel], by simp [hrel]⟩
    | unreliable => exact absurd hrel hmode
    | partialReliableTtl => exact ⟨_, rfl, rfl, hrel.symm, fun _ => rfl, by simp [hrel]⟩
    | partialReliableCount => exact ⟨_, rfl, rfl, hrel.symm, by simp [hrel], fun _ => rfl⟩

theorem dcepOpen_describes_timed :
    ∃ p, dcepDecodeOpen (dcepEncodeOpen ⟨[0x61], .partialReliableTtl, 0, 500, 128, true⟩) = some p ∧
      p.Describes ⟨[0x61], .partialReliableTtl, 0, 500, 128, true⟩ :=
  (dcepOpen_describes_iff (by decide)).2 (by decide)

/-- An unreliable channel is announced to the peer as a reliable and ordered one. -/
theorem unreliable_read_reliable :
    dcepDecodeOpen (dcepEncodeOpen { reliability := .unreliable }) =
        some { reliability := .reliableOrdered } ∧
      ¬ ∃ p, dcepDecodeOpen (dcepEncodeOpen { reliability := .unreliable }) = some p ∧
        p.Describes { reliability := .unreliable } := by
  have hread : dcepDecodeOpen (dcepEncodeOpen { reliability := .unreliable }) =
      some { reliability := .reliableOrdered } := by decide
  refine ⟨hread, ?_⟩
  rintro ⟨p, hp, hdesc⟩
  rw [hread] at hp
  obtain rfl := Option.some.inj hp
  cases hdesc.reliability

end NimRtc
