import NimRtc.SctpState

/-!
# The state of an SCTP socket goes forward

What is up or closed is known from the state alone, as long as no call stores the state it started
from over it. So the state goes forward in a run exactly when no store comes after such a
notification or a close, and no association comes up on a closed socket.
-/

namespace NimRtc

open Usrsctp

namespace SocketRun

variable {s : SocketRun}

/-- What the state says of the past. -/
structure Inv (s : SocketRun) : Prop where
  up : s.commUp = true → s.Awaited
  established : s.state = .established → s.commUp = true
  closed : s.wasClosed = true ↔ s.state = .closed

theorem Inv.monotone (h : s.Inv) : s.Monotone where
  up hup := by
    rcases h.up hup with hs | hs
    · simp [hs, Awaited]
    · simp [hs, Awaited]
  closed := h.closed.1

/-- What a notification does. -/
theorem handleNotification_cases (s : SocketRun) (n : Notification) :
    (Notification.IsUp n ∧ s.handleNotification n = { s.transitionTo .established with commUp := true })
      ∨ ¬ Notification.IsUp n
        ∧ (s.handleNotification n = s ∨ s.handleNotification n = s.transitionTo .closed) := by
  have hsize : sizeofTlv < sizeofAssocChange := by decide
  unfold handleNotification Notification.IsUp
  split_ifs with htlv htype hlen hup hlost hshutdown
  · exact .inr ⟨by omega, .inl rfl⟩
  · exact .inr ⟨fun h => htype h.2.1, .inl rfl⟩
  · exact .inr ⟨by omega, .inl rfl⟩
  · exact .inl ⟨⟨by omega, not_not.1 htype, hup⟩, rfl⟩
  · exact .inr ⟨fun h => hup h.2.2, .inr rfl⟩
  · exact .inr ⟨fun h => hup h.2.2, .inr rfl⟩
  · exact .inr ⟨fun h => hup h.2.2, .inl rfl⟩

theorem Inv.of_same {t : SocketRun} (h : s.Inv) (hstate : t.state = s.state)
    (hup : t.commUp = s.commUp) (hclosed : t.wasClosed = s.wasClosed) : t.Inv := by
  refine ⟨?_, ?_, ?_⟩
  · rw [hup, Awaited, hstate]
    exact h.up
  · rw [hstate, hup]
    exact h.established
  · rw [hclosed, hstate]
    exact h.closed

theorem inv_transition_closed (s : SocketRun) : (s.transitionTo .closed).Inv where
  up _ := .inr rfl
  established hs := by cases hs
  closed := by simp [transitionTo]

theorem inv_step (h : s.Inv) (e : SocketEvent) (hok : s.Undisturbed e) : (s.step e).Inv := by
  cases e with
  | check c =>
    simp only [step]
    split_ifs
    · exact h
    · exact h.of_same rfl rfl rfl
  | fail c => exact h.of_same rfl rfl rfl
  | store c =>
    simp only [step]
    split_ifs with hc
    · obtain ⟨hest, hclosed⟩ := hok hc
      -- nothing has happened that the state would have to say
      have hnotUp : s.commUp ≠ true := fun hup => by
        rcases h.up hup with hs | hs
        · exact hest hs
        · exact hclosed hs
      have hnotClosed : s.wasClosed ≠ true := fun hw => hclosed (h.closed.1 hw)
      refine ⟨fun hup => absurd hup hnotUp, ?_, ?_⟩
      · cases c <;> exact fun hs => by cases hs
      · refine iff_of_false hnotClosed ?_
        cases c <;> exact fun hs => by cases hs
    · exact h
  | notification n =>
    rcases handleNotification_cases s n with ⟨hup, heq⟩ | ⟨-, heq | heq⟩
    · have hclosed := hok hup
      simp only [step, heq]
      refine ⟨fun _ => .inl rfl, fun _ => rfl, ?_⟩
      have hwas : s.wasClosed = false := by
        rw [← Bool.not_eq_true, h.closed]
        exact hclosed
      simp [transitionTo, hwas]
    · simp only [step, heq]
      exact h
    · simp only [step, heq]
      exact inv_transition_closed s
  | close =>
    simp only [step]
    split_ifs
    · exact h
    · exact inv_transition_closed s

theorem undisturbed_of_monotone (h : s.Inv) (e : SocketEvent) (h' : (s.step e).Monotone) :
    s.Undisturbed e := by
  cases e with
  | check c | fail c | close => trivial
  | store c =>
    intro hc
    have hstep : s.step (.store c) = { s with state := c.next, starting := s.starting.erase c } :=
      if_pos hc
    rw [hstep] at h'
    refine ⟨fun hs => ?_, fun hs => ?_⟩
    · obtain ⟨hlistening, hconnecting, -⟩ := h'.up (h.established hs)
      cases c
      · exact hlistening rfl
      · exact hconnecting rfl
    · have hnext := h'.closed (h.closed.2 hs)
      cases c <;> cases hnext
  | notification n =>
    intro hup hs
    rcases handleNotification_cases s n with ⟨-, heq⟩ | ⟨hnot, -⟩
    · simp only [step, heq] at h'
      have hwas : s.wasClosed = true := h.closed.2 hs
      have hnext := h'.closed (by simp [transitionTo, hwas])
      cases hnext
    · exact hnot hup

/-- In a run of the sections of a new socket, an association that is up is never waited for again
and a socket that is closed stays closed, exactly when no call stores its state after an association
has come up or the socket was closed, and none comes up on a closed socket. -/
theorem monotone_iff (sock : Bool) (es : List SocketEvent) :
    sections.Always Monotone { sock } es ↔ sections.Meets Undisturbed { sock } es := by
  refine Machine.always_iff_meets_of_inv (I := Inv) (fun s e h => inv_step h e)
    (fun s h => h.monotone) (fun s e h => undisturbed_of_monotone h e) es ?_
  refine ⟨fun h => ?_, fun h => ?_, by simp⟩ <;> cases h

/-- The association comes up before `connect()` returns, and is waited for ever after. -/
theorem up_before_store :
    ¬ sections.Always Monotone {} [.check .connect, .notification ⟨20, 1, 1⟩, .store .connect] := by
  intro h
  exact (h.2.2.2.up rfl).2.1 rfl

end SocketRun

end NimRtc
