import NimRtc.Lib.Framing
import NimRtc.WebTransportSending

/-!
# What a WebTransport channel does with its streams and its payloads

The actions of one call are followed in three ways: what they do with each stream of the channel's
own, whose data they make it hear, and which payloads they hand over. A call is a chain of a few
steps, and what holds of each holds of the chain (`Follows.trans`).
-/

namespace NimRtc

open Custody (Held GivenUp)

namespace StreamAction

variable {acts acts' : List StreamAction} {s : ChannelStream} {n : ℕ}

@[simp] theorem uses_nil : uses [] n = [] := rfl

@[simp] theorem uses_cons (a : StreamAction) : uses (a :: acts) n = a.on n ++ uses acts n := rfl

@[simp] theorem uses_append : uses (acts ++ acts') n = uses acts n ++ uses acts' n :=
  List.flatMap_append

@[simp] theorem listening_append :
    listening (acts ++ acts') s = acts'.foldl (hears s) (listening acts s) := List.foldl_append

/-- The actions are about no stream. -/
def Quiet (acts : List StreamAction) : Prop :=
  ∀ a ∈ acts, (∀ n, a.on n = []) ∧ ∀ s b, hears s b a = b

theorem Quiet.uses (h : Quiet acts) (n : ℕ) : uses acts n = [] :=
  List.flatMap_eq_nil_iff.2 fun a ha => (h a ha).1 n

theorem Quiet.hears (h : Quiet acts) (s : ChannelStream) (b : Bool) :
    acts.foldl (hears s) b = b := by
  induction acts with
  | nil => rfl
  | cons a acts ih =>
    rw [List.foldl_cons, (h a List.mem_cons_self).2 s b]
    exact ih fun x hx => h x (List.mem_cons_of_mem _ hx)

theorem Quiet.append (h : Quiet acts) (h' : Quiet acts') : Quiet (acts ++ acts') := by
  intro a ha
  rcases List.mem_append.1 ha with ha | ha
  · exact h a ha
  · exact h' a ha

theorem quiet_nil : Quiet [] := by simp [Quiet]

theorem quiet_reports (rs : List ChannelReport) : Quiet (rs.map .report) := by
  simp [Quiet, on, hears]

@[simp] theorem handed_append : handed (acts ++ acts') = handed acts ++ handed acts' :=
  List.filterMap_append

@[simp] theorem resets_append : resets (acts ++ acts') = resets acts ++ resets acts' :=
  List.filterMap_append

@[simp] theorem handed_reports (rs : List ChannelReport) : handed (rs.map .report) = [] := by
  simp [handed, List.filterMap_map]

@[simp] theorem resets_reports (rs : List ChannelReport) : resets (rs.map .report) = [] := by
  simp [resets, List.filterMap_map]

end StreamAction

namespace SendingChannel

open StreamAction (uses listening hears handed resets Quiet)

variable {c c' c'' : SendingChannel} {acts acts' : List StreamAction}

/-- The flag and the pointer agree, and a channel that is open has a session. -/
structure Inv (c : SendingChannel) : Prop where
  ready : c.chan.streamReady = c.streamRaw.isSome
  session : c.chan.opened = true → c.session = true

/-! ### Streams and callbacks -/

structure Follows (c c' : SendingChannel) (acts : List StreamAction) : Prop where
  inv : Inv c'
  accounts : ∀ out n, Accounted c out n → Accounted c' (out ++ acts) n
  hearing : ∀ out, (∀ s, listening out s = true ↔ c.hearsFrom s) →
    ∀ s, listening (out ++ acts) s = true ↔ c'.hearsFrom s

theorem Follows.trans (h : Follows c c' acts) (h' : Follows c' c'' acts') :
    Follows c c'' (acts ++ acts') where
  inv := h'.inv
  accounts out n hacc := by
    rw [← List.append_assoc]
    exact h'.accounts _ n (h.accounts out n hacc)
  hearing out hhear := by
    rw [← List.append_assoc]
    exact h'.hearing _ (h.hearing out hhear)

/-- What touches neither the streams nor their callbacks. -/
theorem follows_quiet (hinv : Inv c') (hraw : c'.streamRaw = c.streamRaw)
    (hstreams : c'.streams = c.streams) (hpeer : c'.peerStreamRaw = c.peerStreamRaw)
    (hacts : Quiet acts) : Follows c c' acts where
  inv := hinv
  accounts out n hacc := by
    unfold Accounted at hacc ⊢
    rw [hraw, hstreams, StreamAction.uses_append, hacts.uses n, List.append_nil]
    exact hacc
  hearing out hhear s := by
    rw [StreamAction.listening_append, hacts.hears, hhear s]
    cases s with
    | own n => simp only [hearsFrom, hstreams]
    | peer p => simp only [hearsFrom, hpeer]

theorem follows_ensureStreamOpen (hc : Inv c) (a : SessionAnswer) :
    Follows c (c.ensureStreamOpen a).1 (c.ensureStreamOpen a).2.1 := by
  have hsame : Follows c c [] := follows_quiet hc rfl rfl rfl StreamAction.quiet_nil
  have hready := hc.ready
  unfold ensureStreamOpen
  split_ifs with hsession hopen hconnected hgives
  · exact hsame
  · exact hsame
  · exact hsame
  · exact hsame
  · have hnone : c.streamRaw = none := by
      rw [← Option.not_isSome_iff_eq_none, ← hready]
      exact hopen
    refine ⟨⟨rfl, hc.session⟩, fun out n hacc => ?_, fun out hhear s => ?_⟩
    · unfold Accounted at hacc ⊢
      rw [if_neg (by simp [hnone])] at hacc
      rw [StreamAction.uses_append]
      rcases Nat.lt_trichotomy n c.streams with hlt | rfl | hgt
      · rw [if_pos hlt] at hacc
        rw [if_neg (by simp; omega), if_pos (by simp; omega)]
        simpa [StreamAction.on, hlt.ne'] using hacc
      · rw [if_neg (lt_irrefl _)] at hacc
        rw [if_pos rfl, hacc]
        refine ⟨Nat.lt_succ_self _, ?_⟩
        simpa [StreamAction.on] using @Custody.held_opened [.used] (by simp)
      · rw [if_neg hgt.le.not_gt] at hacc
        rw [if_neg (by simp; omega), if_neg (by simp; omega)]
        simpa [StreamAction.on, hgt.ne] using hacc
    · rw [StreamAction.listening_append]
      cases s with
      | own n =>
        have := hhear (.own n)
        simp only [List.foldl_cons, List.foldl_nil, hears, hearsFrom, ChannelStream.own.injEq]
          at this ⊢
        split_ifs with hn
        · simp [hn]
        · rw [this]
          omega
      | peer p =>
        have := hhear (.peer p)
        simpa [hears, hearsFrom] using this

/-- The stream is given up with one last action. -/
theorem follows_givenUp (hinv : Inv c') (hraw : c'.streamRaw = none)
    (hstreams : c'.streams = c.streams) (hpeer : c'.peerStreamRaw = c.peerStreamRaw)
    (huses : ∀ n, uses acts n = if c.streamRaw = some n then [.closed] else [])
    (hhears : ∀ s b, acts.foldl (hears s) b = b) : Follows c c' acts where
  inv := hinv
  accounts out n hacc := by
    unfold Accounted at hacc ⊢
    rw [hraw, hstreams, StreamAction.uses_append, huses n, if_neg (by simp)]
    by_cases hheld : c.streamRaw = some n
    · rw [if_pos hheld] at hacc ⊢
      rw [if_pos hacc.1]
      exact hacc.2.concat .closed
    · rw [if_neg hheld] at hacc ⊢
      rw [List.append_nil]
      exact hacc
  hearing out hhear s := by
    rw [StreamAction.listening_append, hhears, hhear s]
    cases s with
    | own n => simp only [hearsFrom, hstreams]
    | peer p => simp only [hearsFrom, hpeer]

theorem follows_resetStream (hc : Inv c) : Follows c c.resetStream.1 c.resetStream.2 := by
  unfold resetStream
  cases hraw : c.streamRaw with
  | none => exact follows_quiet hc rfl rfl rfl StreamAction.quiet_nil
  | some n =>
    refine follows_givenUp ⟨rfl, hc.session⟩ rfl rfl rfl (fun m => ?_) fun _ _ => rfl
    simp [StreamAction.on, hraw]

theorem follows_sendOnStream (hc : Inv c) (data : List UInt8) :
    Follows c c (c.sendOnStream data) := by
  refine ⟨hc, fun out n hacc => ?_, fun out hhear s => ?_⟩
  · unfold sendOnStream Accounted at *
    rw [StreamAction.uses_append]
    split_ifs at hacc ⊢ with hheld hlt
    · exact ⟨hacc.1, hacc.2.append (by simp [hheld, StreamAction.on])⟩
    all_goals
      cases hraw : c.streamRaw with
      | none => simpa using hacc
      | some m =>
        have hne : m ≠ n := by simpa [hraw] using hheld
        simpa [StreamAction.on, hne] using hacc
  · have hsame : (c.sendOnStream data).foldl (hears s) (listening out s) = listening out s := by
      unfold sendOnStream
      cases c.streamRaw <;> rfl
    rw [StreamAction.listening_append, hsame, hhear s]

theorem follows_sendByMode (hc : Inv c) (data : List UInt8) (now : ℤ) :
    Follows c (c.sendByMode data now).1 (c.sendByMode data now).2 := by
  have hsend := follows_sendOnStream hc data
  unfold sendByMode
  cases c.chan.cfg.reliability with
  | reliableOrdered => exact hsend
  | unreliable =>
    refine follows_quiet hc rfl rfl rfl ?_
    dsimp only
    split_ifs
    · simp [Quiet, StreamAction.on, hears]
    · exact StreamAction.quiet_nil
  | partialReliableTtl =>
    dsimp only
    split_ifs
    · exact follows_resetStream hc
    · exact hsend
  | partialReliableCount =>
    dsimp only
    split_ifs
    · exact follows_resetStream hc
    · have hcount : Follows c { c with prCountRemaining := c.prCountRemaining - 1 } [] :=
        follows_quiet ⟨hc.ready, hc.session⟩ rfl rfl rfl StreamAction.quiet_nil
      exact hcount.trans (follows_sendOnStream hcount.inv data)
    · exact hsend

theorem follows_send (hc : Inv c) (data : List UInt8) (a : SessionAnswer) (now : ℤ) :
    Follows c (c.send data a now).1 (c.send data a now).2 := by
  have hopen := follows_ensureStreamOpen hc a
  unfold send
  split_ifs with hnothing hneeds
  · exact follows_quiet hc rfl rfl rfl StreamAction.quiet_nil
  · dsimp only
    split_ifs
    · exact hopen
    · exact hopen.trans (follows_sendByMode hopen.inv data now)
  · exact follows_sendByMode hc data now

/-- `open()` marks the channel open, gets the stream that its mode needs, and reports. -/
theorem open_eq (hsession : c.session = true) (hopened : c.chan.opened = false)
    (a : SessionAnswer) :
    ∃ rs : List ChannelReport, c.open a =
      if c.chan.cfg.reliability = .unreliable then
        ({ c with chan.opened := true }, rs.map .report ++ [.returned kOk])
      else
        ((({ c with chan.opened := true } : SendingChannel).ensureStreamOpen a).1,
          (({ c with chan.opened := true } : SendingChannel).ensureStreamOpen a).2.1
            ++ (rs.map .report ++ [.returned kOk])) := by
  unfold SendingChannel.open
  rw [if_neg (by simp [hsession]), if_neg (by simp [hopened])]
  dsimp only
  split_ifs
  · exact ⟨_, by rw [List.nil_append]⟩
  · exact ⟨_, by rw [List.append_assoc]⟩

theorem open_idle (h : ¬ (c.session = true ∧ c.chan.opened = false)) (a : SessionAnswer) :
    ∃ status, c.open a = (c, [.returned status]) := by
  unfold SendingChannel.open
  split_ifs with hsession hopened
  · exact ⟨_, rfl⟩
  · exact ⟨_, rfl⟩
  · exact absurd ⟨by simpa using hsession, by simpa using hopened⟩ h

theorem follows_open (hc : Inv c) (a : SessionAnswer) :
    Follows c (c.open a).1 (c.open a).2 := by
  have hreturned : ∀ status, Quiet [.returned status] := fun status => by
    simp [Quiet, StreamAction.on, hears]
  by_cases h : c.session = true ∧ c.chan.opened = false
  · obtain ⟨rs, heq⟩ := open_eq h.1 h.2 a
    have hquiet : Quiet (rs.map .report ++ [.returned kOk]) :=
      (StreamAction.quiet_reports rs).append (hreturned kOk)
    have hmark : Follows c { c with chan.opened := true } [] :=
      follows_quiet ⟨hc.ready, fun _ => h.1⟩ rfl rfl rfl StreamAction.quiet_nil
    rw [heq]
    split_ifs
    · exact hmark.trans (follows_quiet hmark.inv rfl rfl rfl hquiet)
    · have hstream := hmark.trans (follows_ensureStreamOpen hmark.inv a)
      exact hstream.trans (follows_quiet hstream.inv rfl rfl rfl hquiet)
  · obtain ⟨status, heq⟩ := open_idle h a
    rw [heq]
    exact follows_quiet hc rfl rfl rfl (hreturned status)

theorem follows_detachPeerStream (hc : Inv c) :
    Follows c c.detachPeerStream.1 c.detachPeerStream.2 := by
  unfold detachPeerStream
  have hlog : ∀ n,
      uses (c.peerStreamRaw.toList.map fun p => .setOnData (.peer p) false) n = [] := by
    intro n
    cases c.peerStreamRaw <;> rfl
  refine ⟨⟨hc.ready, hc.session⟩, fun out n hacc => ?_, fun out hhear s => ?_⟩
  · unfold Accounted at hacc ⊢
    rw [StreamAction.uses_append, hlog n, List.append_nil]
    exact hacc
  · have hs := hhear s
    rw [StreamAction.listening_append]
    cases s with
    | own n =>
      rw [show c.hearsFrom (.own n) = (n < c.streams) from rfl] at hs
      cases c.peerStreamRaw <;> simpa [hears, hearsFrom] using hs
    | peer p =>
      cases hraw : c.peerStreamRaw with
      | none => simpa [hears, hearsFrom, hraw] using hs
      | some q =>
        by_cases hq : q = p
        · simp [hears, hearsFrom, hq]
        · simpa [hears, hearsFrom, hraw, hq] using hs

theorem follows_close : Follows c c.close.1 c.close.2 := by
  let c₁ : SendingChannel :=
    { c with chan := { c.chan with opened := false, streamReady := false }, streamRaw := none }
  have hgone : Follows c c₁ (c.streamRaw.toList.map StreamAction.closed) := by
    refine follows_givenUp ⟨rfl, fun h => by cases h⟩ rfl rfl rfl (fun n => ?_) fun s b => ?_
    · cases c.streamRaw with
      | none => simp
      | some m => simp [StreamAction.on]
    · cases c.streamRaw <;> rfl
  have hdetached := follows_detachPeerStream hgone.inv
  have hrest : Quiet ((if c.session then [StreamAction.setOnDatagram false,
      StreamAction.setOnPeerStream false] else []) ++ c.chan.close.2.map .report) := by
    refine StreamAction.Quiet.append ?_ (StreamAction.quiet_reports _)
    split_ifs <;> simp [Quiet, StreamAction.on, hears]
  have hall := (hgone.trans hdetached).trans
    (follows_quiet hdetached.inv rfl rfl rfl hrest)
  rwa [← List.append_assoc] at hall

/-- What the inbound side leaves alone. -/
theorem inbound_same (chan : WebTransportDataChannel) (data : List UInt8) :
    (chan.onPeerStream.streamReady = chan.streamReady ∧ chan.onPeerStream.opened = chan.opened
        ∧ chan.onPeerStream.cfg = chan.cfg)
      ∧ (chan.onPeerStreamData data).1.streamReady = chan.streamReady
      ∧ (chan.onPeerStreamData data).1.opened = chan.opened
      ∧ (chan.onPeerStreamData data).1.cfg = chan.cfg := by
  constructor
  · unfold WebTransportDataChannel.onPeerStream
    split_ifs <;> exact ⟨rfl, rfl, rfl⟩
  · unfold WebTransportDataChannel.onPeerStreamData WebTransportDataChannel.headerDone
    dsimp only
    repeat' split
    all_goals exact ⟨rfl, rfl, rfl⟩

theorem onPeerStream_adopts {p : ℕ}
    (h : ¬ (!c.chan.opened || decide (c.chan.cfg.reliability = .unreliable)) = true) :
    c.onPeerStream p = ({ c.detachPeerStream.1 with
        chan := c.detachPeerStream.1.chan.onPeerStream, peerStreamRaw := some p },
      c.detachPeerStream.2 ++ [.setOnData (.peer p) true]) := if_neg h

theorem follows_onPeerStream (hc : Inv c) (p : ℕ) :
    Follows c (c.onPeerStream p).1 (c.onPeerStream p).2 := by
  by_cases h : (!c.chan.opened || decide (c.chan.cfg.reliability = .unreliable)) = true
  · rw [show c.onPeerStream p = (c, []) from if_pos h]
    exact follows_quiet hc rfl rfl rfl StreamAction.quiet_nil
  · rw [onPeerStream_adopts h]
    have hdetached := follows_detachPeerStream hc
    obtain ⟨hready, hopened, -⟩ := (inbound_same c.detachPeerStream.1.chan []).1
    refine hdetached.trans ⟨⟨?_, fun ho => ?_⟩, fun out n hacc => ?_, fun out hhear s => ?_⟩
    · exact hready.trans hdetached.inv.ready
    · exact hdetached.inv.session (hopened.symm.trans ho)
    · unfold Accounted at hacc ⊢
      rw [StreamAction.uses_append, StreamAction.uses_cons, StreamAction.uses_nil]
      simpa [StreamAction.on] using hacc
    · have hs := hhear s
      rw [StreamAction.listening_append]
      cases s with
      | own n => simpa [hears, hearsFrom] using hs
      | peer q =>
        rw [show c.detachPeerStream.1.hearsFrom (.peer q) = ((none : Option ℕ) = some q) from rfl]
          at hs
        by_cases hq : p = q
        · simp [hears, hearsFrom, hq]
        · simpa [hears, hearsFrom, hq] using hs

theorem follows_onData (hc : Inv c) (s : ChannelStream) (data : List UInt8) :
    Follows c (c.onData s data).1 (c.onData s data).2 := by
  unfold onData
  cases s with
  | own n => exact follows_quiet hc rfl rfl rfl (StreamAction.quiet_reports _)
  | peer p =>
    obtain ⟨hready, hopened, -⟩ := (inbound_same c.chan data).2
    refine follows_quiet ⟨?_, fun h => ?_⟩ rfl rfl rfl (StreamAction.quiet_reports _)
    · exact hready.trans hc.ready
    · exact hc.session (hopened.symm.trans h)

theorem inv_configure (hc : Inv c) (cfg : DataChannelConfig) (now : ℤ) :
    Inv (c.configure cfg now) := by
  unfold configure
  split_ifs <;> exact ⟨hc.ready, hc.session⟩

theorem follows_call (hc : Inv c) (e : Call) : Follows c (c.call e).1 (c.call e).2 := by
  cases e with
  | «open» a => exact follows_open hc a
  | close => exact follows_close
  | send data a now => exact follows_send hc data a now
  | attachSessionCallbacks =>
    refine follows_quiet hc rfl rfl rfl ?_
    change Quiet c.attachSessionCallbacks
    unfold attachSessionCallbacks
    split_ifs <;> simp [Quiet, StreamAction.on, hears]
  | setOnMessage set =>
    exact follows_quiet ⟨hc.ready, hc.session⟩ rfl rfl rfl StreamAction.quiet_nil
  | setOnState set =>
    exact follows_quiet ⟨hc.ready, hc.session⟩ rfl rfl rfl StreamAction.quiet_nil
  | onPeerStream p => exact follows_onPeerStream hc p
  | onData s data => exact follows_onData hc s data
  | onSessionDatagram bytes =>
    exact follows_quiet hc rfl rfl rfl (StreamAction.quiet_reports _)

theorem follows_step (hc : Inv c) (e : Event) : Follows c (c.step e).1 (c.step e).2 := by
  cases e with
  | configure cfg now =>
    have hinv := inv_configure hc cfg now
    refine follows_quiet hinv ?_ ?_ ?_ StreamAction.quiet_nil
    all_goals
      simp only [step, configure]
      split_ifs <;> rfl
  | call e => exact follows_call hc e

/-- What is known after a run: the streams are accounted for, and so are the callbacks. -/
structure Known (c : SendingChannel) (out : List StreamAction) : Prop where
  inv : Inv c
  accounts : ∀ n, Accounted c out n
  hearing : ∀ s, listening out s = true ↔ c.hearsFrom s

theorem known_run (session : Bool) (events : List Event) :
    Known (machine.exec { session } events).1 (machine.exec { session } events).2 := by
  have hstep : ∀ c out e, Known c out → True →
      Known (machine.step c e).1 (out ++ (machine.step c e).2) := fun c out e h _ =>
    have hf := follows_step h.inv e
    ⟨hf.inv, fun n => hf.accounts out n (h.accounts n), hf.hearing out h.hearing⟩
  have hstart : Known { session } [] := by
    refine ⟨⟨rfl, fun h => by cases h⟩, fun n => by simp [Accounted], fun s => ?_⟩
    cases s <;> simp [listening, hearsFrom]
  simpa using Machine.exec_history hstep events hstart Machine.meets_true

/-- The channel holds one stream at most. Every other one that it opened it closed or reset once,
and it did nothing with it after that. -/
theorem channel_streams (session : Bool) (events : List Event) (n : ℕ) :
    let r := machine.exec { session } events
    Accounted r.1 r.2 n ∧ (r.1.chan.streamReady = true ↔ r.1.streamRaw.isSome) := by
  have h := known_run session events
  exact ⟨h.accounts n, by rw [h.inv.ready]⟩

/-- No call takes back the callback of a stream that the channel opened, `close` no more than the
others, and what such a stream receives is passed on as long as there is a message callback. -/
theorem callbacks_after_close (session : Bool) (events : List Event) (s : ChannelStream)
    (data : List UInt8) :
    let r := machine.exec { session } (events ++ [.call .close])
    (listening r.2 s = true ↔ ∃ n < r.1.streams, s = .own n)
      ∧ (listening r.2 s = true → (r.1.onData s data).2
          = if r.1.chan.onMsg then [.report (.message data)] else []) := by
  have h := known_run session (events ++ [.call .close])
  set r := machine.exec { session } (events ++ [.call .close]) with hr
  have hclosed : r.1.peerStreamRaw = none := by
    rw [hr, Machine.exec_append]
    rfl
  have hiff : listening r.2 s = true ↔ ∃ n < r.1.streams, s = .own n := by
    rw [h.hearing s]
    cases s with
    | own n => simp [hearsFrom]
    | peer p => simp [hearsFrom, hclosed]
  refine ⟨hiff, fun hlistens => ?_⟩
  obtain ⟨n, -, rfl⟩ := hiff.1 hlistens
  simp only [onData, WebTransportDataChannel.onStreamData]
  split_ifs <;> rfl

/-! ### Payloads -/

variable {sends : List (List UInt8 × ℤ)} {data : List UInt8} {now : ℤ}

@[simp] theorem lets_nil (c : SendingChannel) : c.lets [] = [] := by
  unfold lets DataChannelConfig.lets
  cases c.chan.cfg.reliability <;> simp

/-- The actions hand over what the mode lets through of the sends, and reset a stream for each of
the others. -/
structure Spends (c c' : SendingChannel) (acts : List StreamAction)
    (sends : List (List UInt8 × ℤ)) : Prop where
  lets : ∀ rest, c.lets (sends ++ rest) = c.lets sends ++ c'.lets rest
  handed : handed acts = (c.lets sends).map Prod.fst
  refused : (StreamAction.handed acts).length + (resets acts).length = sends.length

/-- What hands nothing over and changes nothing that the mode goes by. -/
structure Silent (c c' : SendingChannel) (acts : List StreamAction) : Prop where
  lets : ∀ rest, c'.lets rest = c.lets rest
  handed : handed acts = []
  resets : resets acts = []

theorem Silent.spends (h : Silent c c' acts) : Spends c c' acts [] where
  lets rest := by simp [h.lets]
  handed := by simp [h.handed]
  refused := by simp [h.handed, h.resets]

theorem Silent.trans_spends (h : Silent c c' acts) (h' : Spends c' c'' acts' sends) :
    Spends c c'' (acts ++ acts') sends where
  lets rest := by rw [← h.lets, ← h.lets, h'.lets]
  handed := by rw [StreamAction.handed_append, h.handed, List.nil_append, h'.handed, h.lets]
  refused := by
    rw [StreamAction.handed_append, StreamAction.resets_append, h.handed, h.resets]
    exact h'.refused

theorem Silent.trans (h : Silent c c' acts) (h' : Silent c' c'' acts') :
    Silent c c'' (acts ++ acts') where
  lets rest := (h'.lets rest).trans (h.lets rest)
  handed := by rw [StreamAction.handed_append, h.handed, h'.handed, List.append_nil]
  resets := by rw [StreamAction.resets_append, h.resets, h'.resets, List.append_nil]

theorem silent_nil (hlets : ∀ rest, c'.lets rest = c.lets rest) : Silent c c' [] :=
  ⟨hlets, rfl, rfl⟩

theorem silent_reports (hlets : ∀ rest, c'.lets rest = c.lets rest) (rs : List ChannelReport) :
    Silent c c' (rs.map .report) :=
  ⟨hlets, StreamAction.handed_reports rs, StreamAction.resets_reports rs⟩

theorem sendOnStream_of_some {n : ℕ} (hraw : c.streamRaw = some n) :
    c.sendOnStream data = [.sent n data] := by
  simp [sendOnStream, hraw]

theorem resetStream_of_some {n : ℕ} (hraw : c.streamRaw = some n) :
    c.resetStream
      = ({ c with streamRaw := none, chan.streamReady := false }, [.reset n]) := by
  simp [resetStream, hraw]

/-- The switch, once the channel has what its mode needs. -/
theorem spends_sendByMode (hsession : c.session = true)
    (hstream : c.chan.cfg.reliability = .unreliable ∨ ∃ n, c.streamRaw = some n) :
    Spends c (c.sendByMode data now).1 (c.sendByMode data now).2 [(data, now)] := by
  unfold sendByMode
  cases hmode : c.chan.cfg.reliability with
  | unreliable =>
    refine ⟨fun rest => ?_, ?_, ?_⟩ <;>
      simp [lets, DataChannelConfig.lets, hmode, hsession, handed, resets]
  | reliableOrdered =>
    obtain ⟨n, hraw⟩ := hstream.resolve_left (by simp [hmode])
    refine ⟨fun rest => ?_, ?_, ?_⟩ <;>
      simp [lets, DataChannelConfig.lets, hmode, sendOnStream_of_some hraw, handed, resets]
  | partialReliableTtl =>
    obtain ⟨n, hraw⟩ := hstream.resolve_left (by simp [hmode])
    dsimp only
    split_ifs with hlate
    · rw [resetStream_of_some hraw]
      refine ⟨fun rest => ?_, ?_, ?_⟩ <;>
        simp [lets, DataChannelConfig.lets, hmode, handed, resets, hlate.not_ge]
    · refine ⟨fun rest => ?_, ?_, ?_⟩ <;>
        simp [lets, DataChannelConfig.lets, hmode, sendOnStream_of_some hraw, handed, resets,
          not_lt.1 hlate]
  | partialReliableCount =>
    obtain ⟨n, hraw⟩ := hstream.resolve_left (by simp [hmode])
    dsimp only
    split_ifs with hnone hcounted
    · rw [resetStream_of_some hraw]
      refine ⟨fun rest => ?_, ?_, ?_⟩ <;>
        simp [lets, DataChannelConfig.lets, hmode, handed, resets, hnone, kUnbounded]
    · obtain ⟨k, hk⟩ : ∃ k, c.prCountRemaining.toNat = k + 1 :=
        Nat.exists_eq_succ_of_ne_zero fun h => hnone (UInt16.toNat_inj.1 h)
      have hless : (c.prCountRemaining - 1).toNat = k := by
        rw [UInt16.toNat_sub_of_le _ _ (by rw [UInt16.le_iff_toNat_le, hk]; simp), hk]
        rfl
      have hstill : c.prCountRemaining - 1 ≠ kUnbounded := by
        intro h
        have := c.prCountRemaining.toNat_lt
        rw [h] at hless
        have hmax : kUnbounded.toNat = 65535 := rfl
        omega
      refine ⟨fun rest => ?_, ?_, ?_⟩ <;>
        simp [lets, DataChannelConfig.lets, hmode, sendOnStream_of_some hraw, handed, resets,
          hcounted, hk, hless, hstill]
    · refine ⟨fun rest => ?_, ?_, ?_⟩ <;>
        simp [lets, DataChannelConfig.lets, hmode, sendOnStream_of_some hraw, handed, resets,
          not_not.1 hcounted]

theorem silent_ensureStreamOpen (c : SendingChannel) (a : SessionAnswer) :
    Silent c (c.ensureStreamOpen a).1 (c.ensureStreamOpen a).2.1 := by
  unfold ensureStreamOpen
  split_ifs <;> exact ⟨fun _ => rfl, rfl, rfl⟩

/-- A channel that is open gets its stream exactly if the session gives it one. -/
theorem ensureStreamOpen_opened (hsession : c.session = true) (hready : c.chan.streamReady = false)
    (a : SessionAnswer) : (c.ensureStreamOpen a).2.2 = (a.connected && a.gives) := by
  unfold ensureStreamOpen
  rcases a with ⟨_ | _, _ | _⟩ <;> simp [hsession, hready]

theorem ensureStreamOpen_ready (c : SendingChannel) (a : SessionAnswer) :
    (c.ensureStreamOpen a).1.session = c.session
      ∧ ((c.ensureStreamOpen a).2.2 = true →
        (c.ensureStreamOpen a).1.chan.streamReady = true) := by
  unfold ensureStreamOpen
  split_ifs with hsession hready
  · exact ⟨rfl, fun h => by cases h⟩
  · exact ⟨rfl, fun _ => hready⟩
  · exact ⟨rfl, fun h => by cases h⟩
  · exact ⟨rfl, fun h => by cases h⟩
  · exact ⟨rfl, fun _ => rfl⟩

/-- A channel that needs its stream goes on to the switch if the session gives it one. -/
theorem spends_opening (hc : Inv c) (hopened : c.chan.opened = true) (hdata : data ≠ [])
    (hmode : c.chan.cfg.reliability ≠ .unreliable) (hready : c.chan.streamReady = false)
    (a : SessionAnswer) :
    Spends c (c.send data a now).1 (c.send data a now).2 (c.reaches (.send data a now)) := by
  have hsession := hc.session hopened
  have hgets := ensureStreamOpen_opened hsession hready a
  have hsilent := silent_ensureStreamOpen c a
  obtain ⟨hkeeps, hopen⟩ := ensureStreamOpen_ready c a
  unfold send
  rw [if_neg (by simp [hopened, hdata]), if_pos ⟨hmode, hready⟩]
  change Spends c _ _ (if _ then _ else _)
  dsimp only
  cases hgiven : (c.ensureStreamOpen a).2.2 with
  | true =>
    have hinv := (follows_ensureStreamOpen hc a).inv
    have hsome := Option.isSome_iff_exists.1 (hinv.ready.symm.trans (hopen hgiven))
    rw [hgiven] at hgets
    rw [if_neg (by simp), if_pos ⟨hopened, hdata, .inr (.inr (by simpa using hgets.symm))⟩]
    exact hsilent.trans_spends (spends_sendByMode (hkeeps.trans hsession) (.inr hsome))
  | false =>
    rw [hgiven] at hgets
    rw [if_pos (by simp), if_neg fun h => ?_]
    · exact hsilent.spends
    · rcases h.2.2 with h | h | h
      · exact hmode h
      · rw [hready] at h
        cases h
      · simp [h] at hgets

theorem spends_send (hc : Inv c) (a : SessionAnswer) :
    Spends c (c.send data a now).1 (c.send data a now).2 (c.reaches (.send data a now)) := by
  by_cases hneeds : c.chan.opened = true ∧ data ≠ []
  · obtain ⟨hopened, hdata⟩ := hneeds
    by_cases hstream : c.chan.cfg.reliability = .unreliable ∨ c.chan.streamReady = true
    · have hgo : c.send data a now = c.sendByMode data now := by
        unfold send
        rw [if_neg (by simp [hopened, hdata]), if_neg fun h => ?_]
        rcases hstream with hs | hs
        · exact h.1 hs
        · simp [h.2] at hs
      have hreaches : c.reaches (.send data a now) = [(data, now)] :=
        if_pos ⟨hopened, hdata, hstream.imp_right .inl⟩
      rw [hgo, hreaches]
      refine spends_sendByMode (hc.session hopened) (hstream.imp_right fun hready => ?_)
      exact Option.isSome_iff_exists.1 (hc.ready.symm.trans hready)
    · obtain ⟨hmode, hready⟩ := not_or.1 hstream
      exact spends_opening hc hopened hdata hmode (by simpa using hready) a
  · have hidle : c.send data a now = (c, []) := if_pos (by
      by_cases hopened : c.chan.opened = true
      · simpa [hopened] using hneeds
      · simp [hopened])
    have hreaches : c.reaches (.send data a now) = [] := if_neg fun h => hneeds ⟨h.1, h.2.1⟩
    rw [hidle, hreaches]
    exact (silent_nil fun _ => rfl).spends

theorem silent_open (c : SendingChannel) (a : SessionAnswer) :
    Silent c (c.open a).1 (c.open a).2 := by
  by_cases h : c.session = true ∧ c.chan.opened = false
  · obtain ⟨rs, heq⟩ := open_eq h.1 h.2 a
    have hmark : Silent c { c with chan.opened := true } [] := silent_nil fun _ => rfl
    have hlast : ∀ c : SendingChannel, Silent c c (rs.map .report ++ [.returned kOk]) := fun _ =>
      (silent_reports (fun _ => rfl) rs).trans ⟨fun _ => rfl, rfl, rfl⟩
    rw [heq]
    split_ifs
    · exact hmark.trans (hlast _)
    · exact hmark.trans ((silent_ensureStreamOpen _ a).trans (hlast _))
  · obtain ⟨status, heq⟩ := open_idle h a
    rw [heq]
    exact ⟨fun _ => rfl, rfl, rfl⟩

theorem silent_close (c : SendingChannel) : Silent c c.close.1 c.close.2 := by
  refine ⟨fun _ => rfl, ?_, ?_⟩
  all_goals
    unfold SendingChannel.close detachPeerStream
    cases c.streamRaw <;> cases c.peerStreamRaw <;> cases c.session <;>
      simp [StreamAction.handed, StreamAction.resets]

theorem silent_onPeerStream (c : SendingChannel) (p : ℕ) :
    Silent c (c.onPeerStream p).1 (c.onPeerStream p).2 := by
  by_cases h : (!c.chan.opened || decide (c.chan.cfg.reliability = .unreliable)) = true
  · rw [show c.onPeerStream p = (c, []) from if_pos h]
    exact silent_nil fun _ => rfl
  · rw [onPeerStream_adopts h]
    refine ⟨fun rest => ?_, ?_, ?_⟩
    · unfold SendingChannel.lets
      dsimp only
      rw [(inbound_same c.detachPeerStream.1.chan []).1.2.2]
      rfl
    all_goals
      unfold detachPeerStream
      cases c.peerStreamRaw <;> rfl

theorem silent_onData (c : SendingChannel) (s : ChannelStream) (data : List UInt8) :
    Silent c (c.onData s data).1 (c.onData s data).2 := by
  unfold onData
  cases s with
  | own n => exact silent_reports (fun _ => rfl) _
  | peer p =>
    refine silent_reports (fun rest => ?_) _
    unfold SendingChannel.lets
    dsimp only
    rw [(inbound_same c.chan data).2.2.2]

theorem spends_call (hc : Inv c) (e : Call) :
    Spends c (c.call e).1 (c.call e).2 (c.reaches e) := by
  cases e with
  | send data a now => exact spends_send hc a
  | «open» a => exact (silent_open c a).spends
  | close => exact (silent_close c).spends
  | attachSessionCallbacks =>
    refine (Silent.mk (fun _ => rfl) ?_ ?_).spends
    all_goals
      simp only [call, attachSessionCallbacks]
      split_ifs <;> rfl
  | setOnMessage set =>
    have hset : Silent c { c with chan.onMsg := set } [] := silent_nil fun _ => rfl
    exact hset.spends
  | setOnState set =>
    have hset : Silent c { c with chan.onState := set } [] := silent_nil fun _ => rfl
    exact hset.spends
  | onPeerStream p => exact (silent_onPeerStream c p).spends
  | onData s data => exact (silent_onData c s data).spends
  | onSessionDatagram bytes =>
    exact (silent_reports (fun _ => rfl) _).spends

theorem spends_calls (calls : List Call) : ∀ {c : SendingChannel}, Inv c →
    let r := machine.exec c (calls.map .call)
    handed r.2 = (c.lets (c.sends calls)).map Prod.fst
      ∧ (handed r.2).length + (resets r.2).length = (c.sends calls).length := by
  induction calls with
  | nil => exact fun _ => ⟨by simp [handed, sends], rfl⟩
  | cons e calls ih =>
    intro c hc
    have hstep := spends_call hc e
    obtain ⟨hhanded, hcount⟩ := ih (follows_call hc e).inv
    have hrun : (machine.exec c ((e :: calls).map .call)).2
        = (c.call e).2 ++ (machine.exec (c.call e).1 (calls.map .call)).2 := rfl
    dsimp only
    rw [hrun, sends, StreamAction.handed_append, StreamAction.resets_append, hstep.lets,
      List.map_append, hstep.handed, hhanded]
    refine ⟨rfl, ?_⟩
    rw [← hstep.handed, ← hhanded]
    have := hstep.refused
    simp only [List.length_append] at hcount ⊢
    omega

theorem configure_lets (c : SendingChannel) (cfg : DataChannelConfig) (now : ℤ)
    (sends : List (List UInt8 × ℤ)) :
    (c.configure cfg now).lets sends
      = cfg.lets (if cfg.maxPacketLifetimeMs = 0 then c.prTtlDeadline
          else now + cfg.maxPacketLifetimeMs.toNat * kNanosecondsPerLifetimeMs)
        cfg.maxRetransmits sends := by
  have hpos : 0 < cfg.maxPacketLifetimeMs ↔ ¬ cfg.maxPacketLifetimeMs = 0 :=
    UInt16.pos_iff_ne_zero
  unfold configure lets DataChannelConfig.lets
  cases hmode : cfg.reliability with
  | partialReliableTtl =>
    by_cases hlife : cfg.maxPacketLifetimeMs = 0 <;> simp [hmode, hpos, hlife]
  | _ => simp [hmode]

/-- After it is configured a channel hands over what its mode lets through of the sends that reach
the switch, in their order and each once. For each of the others it resets a stream. -/
theorem payloads_handed (session : Bool) (before : List Event) (cfg : DataChannelConfig) (now : ℤ)
    (calls : List Call) :
    let b := (machine.exec { session } before).1
    let c := b.configure cfg now
    let r := machine.exec c (calls.map .call)
    let deadline :=
      if cfg.maxPacketLifetimeMs = 0 then b.prTtlDeadline
      else now + cfg.maxPacketLifetimeMs.toNat * kNanosecondsPerLifetimeMs
    handed r.2 = (cfg.lets deadline cfg.maxRetransmits (c.sends calls)).map Prod.fst
      ∧ (handed r.2).length + (resets r.2).length = (c.sends calls).length := by
  have hb := (known_run session before).inv
  obtain ⟨hhanded, hcount⟩ := spends_calls calls (inv_configure hb cfg now)
  rw [configure_lets] at hhanded
  exact ⟨hhanded, hcount⟩

/-- A count of zero lets nothing through, and each send opens a stream to reset it. -/
example :
    let r := machine.exec {} [.configure { reliability := .partialReliableCount } 0,
      .call (.open {}), .call (.send [1] {} 0), .call (.send [2] {} 0)]
    handed r.2 = [] ∧ resets r.2 = [0, 1] := by
  decide

end SendingChannel

end NimRtc
