import NimRtc.SctpChannel

/-!
# How often a message is delivered

Every inbound message goes through the plain callback once, whatever its PPID, and a user message
goes through the other callback a second time. So a sequence of messages is delivered as it
should be only if it is empty.
-/

namespace NimRtc

namespace ChannelReport

@[simp] theorem messages_nil : messages [] = [] := rfl

@[simp] theorem messages_append (rs rs' : List ChannelReport) :
    messages (rs ++ rs') = messages rs ++ messages rs' := List.filterMap_append ..

@[simp] theorem messages_message (data : List UInt8) : messages [.message data] = [data] := rfl

@[simp] theorem messages_state (s : String) : messages [.state s] = [] := rfl

@[simp] theorem messages_sent (mode : SctpSendMode) (stream : UInt16) (ppid : UInt32)
    (data : List UInt8) : messages [.sent mode stream ppid data] = [] := rfl

end ChannelReport

namespace SctpDataChannel

open ChannelReport

variable {c : SctpDataChannel}

@[simp] theorem messages_reportState (s : String) : messages (c.reportState s) = [] := by
  unfold reportState
  split_ifs <;> rfl

@[simp] theorem messages_toSocket (mode : SctpSendMode) (ppid : UInt32) (data : List UInt8)
    (accepts : Bool) : messages (c.toSocket mode ppid data accepts).2 = [] := by
  unfold toSocket
  cases c.sock with
  | none => rfl
  | some s =>
    simp only
    split_ifs <;> rfl

theorem adopt_eq (data : List UInt8) : ∃ cfg, c.adopt data = { c with cfg } := by
  unfold adopt
  cases dcepDecodeOpen data with
  | none => exact ⟨c.cfg, rfl⟩
  | some p => exact ⟨_, rfl⟩

/-- The PPID demux delivers user messages and changes nothing but the configuration. -/
theorem onSctpRecvWithPpid_spec (h : c.onMsg = true) (m : SctpMessage) :
    (∃ cfg, (c.onSctpRecvWithPpid m).1 = { c with cfg })
      ∧ messages (c.onSctpRecvWithPpid m).2 = if m.ofUser then [m.payload] else [] := by
  unfold onSctpRecvWithPpid
  by_cases hdcep : m.ppid = kPpidDcep
  · have huser : m.ofUser = false := by
      rw [SctpMessage.ofUser, hdcep]
      decide
    rw [if_pos hdcep, huser, if_neg Bool.false_ne_true]
    cases m.payload.head? with
    | none => exact ⟨⟨c.cfg, rfl⟩, rfl⟩
    | some b =>
      simp only
      split_ifs
      · exact ⟨⟨c.cfg, rfl⟩, messages_reportState _⟩
      · refine ⟨adopt_eq m.payload, ?_⟩
        rw [messages_append, messages_toSocket, messages_reportState, List.append_nil]
      · exact ⟨⟨c.cfg, rfl⟩, rfl⟩
  · rw [if_neg hdcep]
    by_cases huser : m.ppid = kPpidString ∨ m.ppid = kPpidBinary
    · have huser' : m.ofUser = true := by simpa [SctpMessage.ofUser] using huser
      rw [if_pos huser, if_pos huser', onSctpRecv, if_pos h]
      exact ⟨⟨c.cfg, rfl⟩, rfl⟩
    · have huser' : m.ofUser ≠ true := by simpa [SctpMessage.ofUser] using huser
      rw [if_neg huser, if_neg huser']
      exact ⟨⟨c.cfg, rfl⟩, rfl⟩

theorem ready_open {s : UsrsctpSocket} (hsock : c.sock = some s) (hopened : c.opened = false)
    (hmsg : c.onMsg = true) : c.open.1 = true ∧ c.open.2.1.Ready := by
  simp only [«open», hopened, hsock, Bool.false_eq_true, if_false]
  exact ⟨trivial, rfl, ⟨_, rfl, rfl, rfl⟩, hmsg⟩

/-- A message is delivered by the plain callback, and once more if it is a user message. -/
theorem instanceRecv_spec (h : c.Ready) (m : SctpMessage) : (c.instanceRecv m).1.Ready
    ∧ messages (c.instanceRecv m).2 = m.payload :: if m.ofUser then [m.payload] else [] := by
  obtain ⟨s, hsock, hrecv, hppid⟩ := h.callbacks
  obtain ⟨⟨cfg, hcfg⟩, hmessages⟩ := onSctpRecvWithPpid_spec h.onMsg m
  simp only [instanceRecv, hsock, hrecv, hppid, if_true]
  constructor
  · rw [hcfg]
    exact ⟨h.opened, ⟨s, hsock, hrecv, hppid⟩, h.onMsg⟩
  · rw [messages_append, hmessages, onSctpRecv, if_pos h.onMsg, messages_message,
      List.singleton_append]

theorem messages_recvAll : ∀ {ms : List SctpMessage} {c : SctpDataChannel}, c.Ready →
    messages (c.recvAll ms).2
      = ms.flatMap fun m => m.payload :: if m.ofUser then [m.payload] else []
  | [], _, _ => rfl
  | m :: ms, c, h => by
    obtain ⟨hready, hmessages⟩ := instanceRecv_spec h m
    rw [recvAll, messages_append, hmessages, messages_recvAll hready, List.flatMap_cons]

/-- There is one delivery too many for each message. -/
theorem length_deliveries : ∀ ms : List SctpMessage,
    (ms.flatMap fun m => m.payload :: if m.ofUser then [m.payload] else []).length
      = ((ms.filter (·.ofUser)).map (·.payload)).length + ms.length
  | [] => rfl
  | m :: ms => by
    have ih := length_deliveries ms
    rw [List.length_map] at ih ⊢
    by_cases huser : m.ofUser = true
    · simp only [List.flatMap_cons, List.filter_cons, if_pos huser, List.length_append,
        List.length_cons, List.length_nil, ih]
      omega
    · simp only [List.flatMap_cons, List.filter_cons, if_neg huser, List.length_append,
        List.length_cons, List.length_nil, ih]
      omega

/-- An open channel delivers each user message once, in order and nothing else, exactly when no
message arrives. -/
theorem deliversOnce_iff (c : SctpDataChannel) (h : c.Ready) (ms : List SctpMessage) :
    DeliversOnce ms (c.recvAll ms).2 ↔ ms = [] := by
  unfold DeliversOnce
  rw [messages_recvAll h]
  constructor
  · intro heq
    have hlen := congrArg List.length heq
    rw [length_deliveries] at hlen
    exact List.length_eq_zero_iff.1 (by omega)
  · rintro rfl
    rfl

theorem deliversOnce_opened : ({} : SctpDataChannel).open.2.1.Ready
    ∧ DeliversOnce [] (({} : SctpDataChannel).open.2.1.recvAll []).2 := by
  have hready := (ready_open (c := {}) (s := {}) rfl rfl rfl).2
  exact ⟨hready, (deliversOnce_iff _ hready []).2 rfl⟩

/-- A binary message is delivered twice, and a DCEP ACK and a message of an unknown PPID once. -/
theorem delivered_twice :
    let ms : List SctpMessage := [⟨0, 53, [7], true⟩, ⟨0, 50, [2], true⟩, ⟨0, 99, [9], true⟩]
    messages (({} : SctpDataChannel).open.2.1.recvAll ms).2 = [[7], [7], [2], [9]]
      ∧ ¬ DeliversOnce ms (({} : SctpDataChannel).open.2.1.recvAll ms).2 := by
  refine ⟨by decide, fun h => ?_⟩
  revert h
  unfold DeliversOnce
  decide

end SctpDataChannel

end NimRtc
