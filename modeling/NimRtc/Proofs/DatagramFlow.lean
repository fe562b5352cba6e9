import NimRtc.IceReceive

/-!
# Where the datagrams go

The queue is emptied from its front only, by `last_recv_packet` one by one and by `recv` as a whole. A
call of `recv` owns what it took: no other call passes it on, so what it has passed on and what it
has left are together what it took, however the calls are interleaved: a report about one call
leaves what is said of the others as it is. Without a callback there is nothing it passes on.
-/

namespace NimRtc

namespace Ice

namespace ReceiveReport

variable {out out' : List ReceiveReport} {call : ℕ}

@[simp] theorem arrivals_append : arrivals (out ++ out') = arrivals out ++ arrivals out' :=
  List.filterMap_append ..

@[simp] theorem departures_append : departures (out ++ out') = departures out ++ departures out' :=
  List.flatMap_append

@[simp] theorem takenBy_append : takenBy call (out ++ out') = takenBy call out ++ takenBy call out' :=
  List.flatMap_append

@[simp] theorem passedBy_append :
    passedBy call (out ++ out') = passedBy call out ++ passedBy call out' :=
  List.filterMap_append ..

/-- The call that a report is about. -/
def caller : ReceiveReport → Option ℕ
  | .took call _ _ => some call
  | .passed call _ _ => some call
  | .recvReturned call _ => some call
  | _ => none

section Frame

variable {o : ReceiveReport} (ho : o.caller ≠ some call)
include ho

theorem passedBy_frame : passedBy call (out ++ [o]) = passedBy call out := by
  rw [passedBy_append]
  cases o with
  | passed call' cb data =>
    have hne : call' ≠ call := fun heq => ho (congrArg some heq)
    simp [passedBy, hne]
  | arrived data => exact List.append_nil _
  | took call' cb data => exact List.append_nil _
  | recvReturned call' n => exact List.append_nil _
  | returned data => exact List.append_nil _

theorem takenBy_frame : takenBy call (out ++ [o]) = takenBy call out := by
  rw [takenBy_append]
  cases o with
  | took call' cb data =>
    have hne : call' ≠ call := fun heq => ho (congrArg some heq)
    cases cb <;> simp [takenBy, hne]
  | arrived data => exact List.append_nil _
  | passed call' cb data => exact List.append_nil _
  | recvReturned call' n => exact List.append_nil _
  | returned data => exact List.append_nil _

theorem mem_frame {r : ReceiveReport} (hr : r.caller = some call) : r ∈ out ++ [o] ↔ r ∈ out := by
  rw [List.mem_append, List.mem_singleton]
  constructor
  · rintro (h | rfl)
    · exact h
    · exact absurd hr ho
  · exact .inl

end Frame

end ReceiveReport

open ReceiveReport

namespace ReceiveQueue

/-- The calls that run, that have returned and that are still to come. -/
structure Inv (s : ReceiveQueue) (out : List ReceiveReport) : Prop where
  conserved : Conserved s out
  running : ∀ call c, s.calls call = some c → c.dispatched = (passedBy call out).length
    ∧ (∀ cb, c.cb = some cb → ∃ taken, .took call (some cb) taken ∈ out)
    ∧ ∀ n, .recvReturned call n ∉ out
  fresh : ∀ call, s.nextCall ≤ call → s.calls call = none ∧ passedBy call out = []
    ∧ takenBy call out = [] ∧ ∀ n, .recvReturned call n ∉ out

/-- What the invariant says of one call. -/
structure CallInv (s : ReceiveQueue) (out : List ReceiveReport) (call : ℕ) : Prop where
  passes : passedBy call out ++ s.toPass call = takenBy call out
  callback : ∀ cb data, .passed call cb data ∈ out → ∃ taken, .took call (some cb) taken ∈ out
  counts : ∀ n, .recvReturned call n ∈ out →
    n = (passedBy call out).length ∧ passedBy call out = takenBy call out
  running : ∀ c, s.calls call = some c → c.dispatched = (passedBy call out).length
    ∧ (∀ cb, c.cb = some cb → ∃ taken, .took call (some cb) taken ∈ out)
    ∧ ∀ n, .recvReturned call n ∉ out
  fresh : s.nextCall ≤ call → s.calls call = none ∧ passedBy call out = []
    ∧ takenBy call out = [] ∧ ∀ n, .recvReturned call n ∉ out

variable {s s' : ReceiveQueue} {out : List ReceiveReport} {o : ReceiveReport} {call : ℕ}

theorem Inv.callInv (h : Inv s out) (call : ℕ) : CallInv s out call :=
  ⟨h.conserved.passes call, h.conserved.callback call, h.conserved.counts call, h.running call,
    h.fresh call⟩

theorem inv_of_calls (hqueue : departures out ++ s.rxQueue = arrivals out)
    (h : ∀ call, CallInv s out call) : Inv s out :=
  ⟨⟨hqueue, fun call => (h call).passes, fun call => (h call).callback,
      fun call => (h call).counts⟩,
    fun call => (h call).running, fun call => (h call).fresh⟩

/-- A report about another call, or about none, leaves a call alone. -/
theorem CallInv.frame (h : CallInv s out call) (hcalls : s'.calls call = s.calls call)
    (hnext : s.nextCall ≤ s'.nextCall) (ho : o.caller ≠ some call) :
    CallInv s' (out ++ [o]) call where
  passes := by
    rw [passedBy_frame ho, takenBy_frame ho, ← h.passes, toPass, toPass, hcalls]
  callback cb data hp := by
    obtain ⟨taken, ht⟩ := h.callback cb data ((mem_frame ho rfl).1 hp)
    exact ⟨taken, List.mem_append_left _ ht⟩
  counts n hn := by
    rw [passedBy_frame ho, takenBy_frame ho]
    exact h.counts n ((mem_frame ho rfl).1 hn)
  running c hc := by
    rw [hcalls] at hc
    obtain ⟨hcount, hcb, hnot⟩ := h.running c hc
    rw [passedBy_frame ho]
    refine ⟨hcount, fun cb heq => ?_, fun n hn => hnot n ((mem_frame ho rfl).1 hn)⟩
    obtain ⟨taken, ht⟩ := hcb cb heq
    exact ⟨taken, List.mem_append_left _ ht⟩
  fresh hle := by
    obtain ⟨hnone, hp, ht, hnot⟩ := h.fresh (hnext.trans hle)
    rw [hcalls, passedBy_frame ho, takenBy_frame ho]
    exact ⟨hnone, hp, ht, fun n hn => hnot n ((mem_frame ho rfl).1 hn)⟩

/-- What says nothing about calls leaves them alone. -/
theorem Inv.aside (h : Inv s out) (hcalls : s'.calls = s.calls) (hnext : s'.nextCall = s.nextCall)
    (ho : o.caller = none) (hqueue : departures (out ++ [o]) ++ s'.rxQueue = arrivals (out ++ [o])) :
    Inv s' (out ++ [o]) := by
  refine inv_of_calls hqueue fun call => (h.callInv call).frame (congrFun hcalls call) hnext.ge ?_
  rw [ho]
  exact (Option.some_ne_none call).symm

/-- A call takes the whole queue. -/
theorem Inv.takes (h : Inv s out) :
    Inv { s with
        nextCall := s.nextCall + 1
        rxQueue := []
        calls := Function.update s.calls s.nextCall (some ⟨s.recvCb, s.rxQueue, 0⟩) }
      (out ++ [.took s.nextCall s.recvCb s.rxQueue]) := by
  have hqueue : departures (out ++ [.took s.nextCall s.recvCb s.rxQueue]) ++ []
      = arrivals (out ++ [.took s.nextCall s.recvCb s.rxQueue]) := by
    rw [departures_append, arrivals_append, ← h.conserved.queue]
    simp [departures, arrivals]
  refine inv_of_calls hqueue fun call => ?_
  by_cases hcall : call = s.nextCall
  · -- no call of this number has reported anything yet
    obtain ⟨-, hpassed, htaken, hnot⟩ := h.fresh s.nextCall le_rfl
    have hnone : passedBy s.nextCall (out ++ [.took s.nextCall s.recvCb s.rxQueue]) = [] := by
      rw [passedBy_append, hpassed]
      rfl
    subst hcall
    constructor
    case passes =>
      rw [hnone, takenBy_append, htaken]
      cases hcb : s.recvCb <;> simp [toPass, takenBy]
    case callback =>
      intro cb data hp
      have hp' : .passed s.nextCall cb data ∈ out := by simpa using hp
      obtain ⟨taken, ht⟩ := h.conserved.callback _ cb data hp'
      exact ⟨taken, List.mem_append_left _ ht⟩
    case counts =>
      intro n hn
      exact absurd (by simpa using hn) (hnot n)
    case running =>
      intro c hc
      simp only [Function.update_self, Option.some.injEq] at hc
      obtain rfl := hc
      rw [hnone]
      refine ⟨rfl, fun cb heq => ⟨s.rxQueue, ?_⟩, fun n hn => hnot n (by simpa using hn)⟩
      rw [← heq]
      exact List.mem_append_right _ List.mem_cons_self
    case fresh => exact fun hle => absurd hle (Nat.not_succ_le_self _)
  · exact (h.callInv call).frame (Function.update_of_ne hcall _ _) (Nat.le_succ _)
      fun heq => hcall (Option.some.inj heq).symm

theorem Inv.passes (h : Inv s out) {cb dispatched : ℕ} {data : Datagram}
    {drained : List Datagram} (hc : s.calls call = some ⟨some cb, data :: drained, dispatched⟩) :
    Inv { s with calls := Function.update s.calls call (some ⟨some cb, drained, dispatched + 1⟩) }
      (out ++ [.passed call cb data]) := by
  have hqueue : departures (out ++ [.passed call cb data]) ++ s.rxQueue
      = arrivals (out ++ [.passed call cb data]) := by
    rw [departures_append, arrivals_append]
    simpa [departures, arrivals] using h.conserved.queue
  refine inv_of_calls hqueue fun call' => ?_
  by_cases hcall : call' = call
  · obtain ⟨hcount, hcb, hnot⟩ := h.running call _ hc
    have hpassed : passedBy call (out ++ [.passed call cb data]) = passedBy call out ++ [data] := by
      rw [passedBy_append]
      simp [passedBy]
    have htaken : takenBy call (out ++ [.passed call cb data]) = takenBy call out := by
      rw [takenBy_append]
      exact List.append_nil _
    obtain ⟨taken, ht⟩ := hcb cb rfl
    have htook : .took call (some cb) taken ∈ out ++ [.passed call cb data] :=
      List.mem_append_left _ ht
    subst hcall
    constructor
    case passes =>
      rw [hpassed, htaken, ← h.conserved.passes]
      simp [toPass, hc]
    case callback =>
      intro cb' data' hp
      rcases List.mem_append.1 hp with hp | hp
      · obtain ⟨taken', ht'⟩ := h.conserved.callback _ cb' data' hp
        exact ⟨taken', List.mem_append_left _ ht'⟩
      · cases List.mem_singleton.1 hp
        exact ⟨taken, htook⟩
    case counts =>
      intro n hn
      exact absurd (by simpa using hn) (hnot n)
    case running =>
      intro c hc'
      simp only [Function.update_self, Option.some.injEq] at hc'
      obtain rfl := hc'
      rw [hpassed]
      refine ⟨by simpa using hcount, fun cb' heq => ?_, fun n hn => hnot n (by simpa using hn)⟩
      obtain rfl := Option.some.inj heq
      exact ⟨taken, htook⟩
    case fresh =>
      intro hle
      rw [(h.fresh _ hle).1] at hc
      cases hc
  · exact (h.callInv call').frame (Function.update_of_ne hcall _ _) le_rfl
      fun heq => hcall (Option.some.inj heq).symm

/-- A call returns with the number that it has passed on, which is all of what it took. -/
theorem Inv.returns (h : Inv s out) {n next : ℕ} {calls : ℕ → Option RecvCall}
    (hnext : s.nextCall ≤ next) (hcall : call < next)
    (hcalls : calls = Function.update s.calls call none)
    (hn : n = (passedBy call out).length) (hall : s.toPass call = []) :
    Inv { s with calls, nextCall := next } (out ++ [.recvReturned call n]) := by
  have hqueue : departures (out ++ [.recvReturned call n]) ++ s.rxQueue
      = arrivals (out ++ [.recvReturned call n]) := by
    rw [departures_append, arrivals_append]
    simpa [departures, arrivals] using h.conserved.queue
  refine inv_of_calls hqueue fun call' => ?_
  by_cases heq : call' = call
  · have hpassed : passedBy call (out ++ [.recvReturned call n]) = passedBy call out := by
      rw [passedBy_append]
      exact List.append_nil _
    have htaken : takenBy call (out ++ [.recvReturned call n]) = takenBy call out := by
      rw [takenBy_append]
      exact List.append_nil _
    have hpasses := h.conserved.passes call
    rw [hall, List.append_nil] at hpasses
    subst heq
    constructor
    case passes =>
      rw [hpassed, htaken, ← hpasses]
      simp [toPass, hcalls]
    case callback =>
      intro cb data hp
      have hp' : .passed call' cb data ∈ out := by simpa using hp
      obtain ⟨taken, ht⟩ := h.conserved.callback _ cb data hp'
      exact ⟨taken, List.mem_append_left _ ht⟩
    case counts =>
      intro n' hn'
      rw [hpassed, htaken]
      rcases List.mem_append.1 hn' with hn' | hn'
      · exact h.conserved.counts _ n' hn'
      · cases List.mem_singleton.1 hn'
        exact ⟨hn, hpasses⟩
    case running =>
      intro c hc
      simp only [hcalls, Function.update_self] at hc
      cases hc
    case fresh => exact fun hle => absurd hcall (Nat.not_lt.2 hle)
  · exact (h.callInv call').frame (by simp only [hcalls, Function.update_of_ne heq]) hnext
      fun hsome => heq (Option.some.inj hsome).symm

theorem Inv.recvCb (h : Inv s out) (onRecv : Option ℕ) : Inv { s with recvCb := onRecv } out :=
  ⟨⟨h.conserved.queue, h.conserved.passes, h.conserved.callback, h.conserved.counts⟩, h.running,
    h.fresh⟩

theorem Inv.step (h : Inv s out) (e : ReceiveEvent) :
    Inv (receiving.step s e).1 (out ++ (receiving.step s e).2) := by
  have hsame : Inv s (out ++ []) := by
    rw [List.append_nil]
    exact h
  cases e with
  | arrives data =>
    refine h.aside rfl rfl rfl ?_
    rw [departures_append, arrivals_append, ← h.conserved.queue]
    simp [departures, arrivals, receiving, ReceiveQueue.step, juiceRecvCb]
  | setCallbacks onRecv =>
    simp only [receiving, ReceiveQueue.step, List.append_nil]
    exact h.recvCb onRecv
  | recv =>
    simp only [receiving, ReceiveQueue.step, ReceiveQueue.recv]
    split_ifs with hempty
    · obtain ⟨hnone, hp, -, -⟩ := h.fresh s.nextCall le_rfl
      refine h.returns (Nat.le_succ _) (Nat.lt_succ_self _) ?_ (by rw [hp]; rfl) ?_
      · rw [← hnone, Function.update_eq_self]
      · rw [toPass, hnone]
    · exact h.takes
  | dispatch call =>
    simp only [receiving, ReceiveQueue.step, ReceiveQueue.dispatch]
    split
    · rename_i cb data drained dispatched hc
      exact h.passes hc
    · exact hsame
  | recvReturns call =>
    simp only [receiving, ReceiveQueue.step, ReceiveQueue.recvReturns]
    cases hc : s.calls call with
    | none => exact hsame
    | some c =>
      simp only
      split_ifs with hleft
      · exact hsame
      · have hlt : call < s.nextCall := by
          by_contra hle
          rw [(h.fresh call (Nat.le_of_not_lt hle)).1] at hc
          cases hc
        refine h.returns le_rfl hlt rfl (h.running call c hc).1 ?_
        obtain ⟨cb, drained, dispatched⟩ := c
        rw [toPass, hc]
        cases cb with
        | none => rfl
        | some cb => simpa using hleft
  | lastRecvPacket =>
    simp only [receiving, ReceiveQueue.step, ReceiveQueue.lastRecvPacket]
    cases hqueue : s.rxQueue with
    | nil => exact hsame
    | cons data rest =>
      refine h.aside rfl rfl rfl ?_
      rw [departures_append, arrivals_append, ← h.conserved.queue, hqueue]
      simp [departures, arrivals]

theorem Inv.start (recvCb : Option ℕ) : Inv { recvCb } [] where
  conserved :=
    ⟨rfl, fun _ => rfl, fun _ _ _ hp => absurd hp List.not_mem_nil,
      fun _ _ hn => absurd hn List.not_mem_nil⟩
  running _ _ hc := by cases hc
  fresh _ _ := ⟨rfl, rfl, rfl, fun _ => List.not_mem_nil⟩

/-- A datagram is entered when it arrives, and at no other event. -/
theorem arrivals_step (s : ReceiveQueue) (e : ReceiveEvent) :
    arrivals (receiving.step s e).2 = e.datagram.toList := by
  cases e with
  | arrives data => rfl
  | setCallbacks onRecv => rfl
  | recv =>
    simp only [receiving, ReceiveQueue.step, ReceiveQueue.recv]
    split_ifs <;> rfl
  | dispatch call =>
    simp only [receiving, ReceiveQueue.step, ReceiveQueue.dispatch]
    split <;> rfl
  | recvReturns call =>
    simp only [receiving, ReceiveQueue.step, ReceiveQueue.recvReturns]
    split
    · split_ifs <;> rfl
    · rfl
  | lastRecvPacket =>
    simp only [receiving, ReceiveQueue.step, ReceiveQueue.lastRecvPacket]
    split <;> rfl

theorem arrivals_run : ∀ (es : List ReceiveEvent) (s : ReceiveQueue),
    arrivals (receiving.exec s es).2 = es.filterMap ReceiveEvent.datagram
  | [], _ => rfl
  | e :: es, s => by
    have hstep := arrivals_step s e
    rw [Machine.exec_cons, arrivals_append, arrivals_run es]
    cases hdata : e.datagram <;> simp [hstep, hdata]

/-- In any interleaving, each datagram that arrives is entered once, no datagram is lost in the queue
and none of those that are taken for a callback is. -/
theorem datagrams_conserved (recvCb : Option ℕ) (es : List ReceiveEvent) :
    let run := receiving.exec { recvCb } es
    arrivals run.2 = es.filterMap ReceiveEvent.datagram ∧ Conserved run.1 run.2 :=
  ⟨arrivals_run es _, (Machine.exec_history (fun _ _ e hinv _ => hinv.step e) es (Inv.start recvCb)
    Machine.meets_true).conserved⟩

/-- What `recv` takes before a callback is registered is passed to none. -/
theorem taken_without_callback : ¬ ∀ (recvCb : Option ℕ) (es : List ReceiveEvent) (data : Datagram),
    .arrives data ∈ es →
      data ∈ (receiving.exec { recvCb } es).1.rxQueue
        ∨ .returned data ∈ (receiving.exec { recvCb } es).2
        ∨ ∃ call cb, .passed call cb data ∈ (receiving.exec { recvCb } es).2 := by
  intro hall
  have hrun : (receiving.exec {} [.arrives [1], .recv, .recvReturns 0, .setCallbacks (some 0)]).1.rxQueue
        = []
      ∧ (receiving.exec {} [.arrives [1], .recv, .recvReturns 0, .setCallbacks (some 0)]).2
        = [.arrived [1], .took 0 none [[1]], .recvReturned 0 0] := ⟨rfl, rfl⟩
  have h := hall none [.arrives [1], .recv, .recvReturns 0, .setCallbacks (some 0)] [1]
  rw [hrun.1, hrun.2] at h
  rcases h List.mem_cons_self with hq | hr | ⟨call, cb, hp⟩
  · cases hq
  · simp at hr
  · simp at hp

end ReceiveQueue

end Ice

end NimRtc
