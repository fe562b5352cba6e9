import NimRtc.Proofs.ArqStep

/-!
# Delivery over the ARQ transport

The drain loop after an in-order delivery starts at the number just delivered. Where `rx_buffer_`
does not hold that number the loop does nothing, and what is pushed is the sender's stream from
the first number received on; where it does, the payload is pushed twice. Starting there, the
loop also never reaches the number after it, which stays buffered and acknowledged.
-/

namespace NimRtc

namespace Net

/-- Every step keeps this while few packets are in flight and no frame is pushed twice. -/
structure Inv (n : Net) : Prop where
  txSeq : n.sender.txSeq = seqOf n.handed.length
  data : ∀ f ∈ n.toReceiver, ∃ i, n.Names i f
  pending : ∀ q ∈ n.sender.txPending, ∃ i, n.Names i q.framed
  acks : ∀ f ∈ n.toSender, ∃ r, f = kFrameAck :: r
  fresh : n.receiver.rxInitialized = false →
    n.pushed = [] ∧ n.first = 0 ∧ n.received = [] ∧ n.receiver.rxBuffer = ∅
  started : n.receiver.rxInitialized = true →
    0 < n.pushed.length ∧ n.receiver.rxBaseSeq = seqOf (n.first + n.pushed.length - 1)
  inOrder : ∀ j p, n.pushed[j]? = some p → n.handed[n.first + j]? = some (some p)
  ahead : ∀ k v, n.receiver.rxBuffer.lookup k = some v →
    ∃ i, n.first + n.pushed.length ≤ i ∧ k = seqOf i ∧ n.handed[i]? = some (some v)

variable {n : Net}

theorem Names.lt {i : ℕ} {f : List UInt8} (h : n.Names i f) : i < n.handed.length := by
  obtain ⟨p, hp, -⟩ := h
  exact (List.getElem?_eq_some_iff.1 hp).1

/-- Handing out more numbers does not rename a frame. -/
theorem Names.append {i : ℕ} {f : List UInt8} (h : n.Names i f) {m : Net}
    {l : List (Option (List UInt8))} (hm : m.handed = n.handed ++ l) : m.Names i f := by
  have hlt := h.lt
  obtain ⟨p, hp, hf⟩ := h
  exact ⟨p, by rw [hm, List.getElem?_append_left hlt, hp], hf⟩

theorem getElem?_append_of_some {α : Type*} {l r : List α} {i : ℕ} {x : α} (h : l[i]? = some x) :
    (l ++ r)[i]? = some x := by
  rw [List.getElem?_append_left (List.getElem?_eq_some_iff.1 h).1, h]

theorem Inv.pushed_le (hI : n.Inv) (hs : n.receiver.rxInitialized = true) :
    n.first + n.pushed.length ≤ n.handed.length := by
  have hpos := (hI.started hs).1
  obtain ⟨p, hp⟩ : ∃ p, n.pushed[n.pushed.length - 1]? = some p :=
    ⟨_, List.getElem?_eq_getElem (by omega)⟩
  have hlt := (List.getElem?_eq_some_iff.1 (hI.inOrder _ p hp)).1
  omega

theorem inv_init (cs cr : RawUdpConfig) (sa ra : Endpoint) : (init cs cr sa ra).Inv := by
  have hfresh : ∀ c : RawUdpConfig, (ArqRawUdp.open { cfg := c } true).2.txSeq = 0
      ∧ (ArqRawUdp.open { cfg := c } true).2.txPending = []
      ∧ (ArqRawUdp.open { cfg := c } true).2.rx = ([], ∅, 0, false) := by
    intro c
    unfold ArqRawUdp.open
    split_ifs <;> exact ⟨rfl, rfl, rfl⟩
  obtain ⟨hseq, hpend, -⟩ := hfresh cs
  obtain ⟨-, -, hrx⟩ := hfresh cr
  simp only [ArqRawUdp.rx, Prod.mk.injEq] at hrx
  obtain ⟨-, hbuf, hbase, hinit⟩ := hrx
  refine ⟨hseq, by simp [init], by simp [init, hpend], by simp [init], ?_, ?_, by simp [init], ?_⟩
  · exact fun _ => ⟨rfl, rfl, rfl, hbuf⟩
  · intro h
    rw [init, hinit] at h
    cases h
  · intro k v h
    rw [init, hbuf] at h
    simp at h

/-! ## Taking a DATA frame -/

/-- The number of an accepted frame, once the receiver has started, is past those pushed. -/
theorem Inv.next_le (hI : n.Inv) (hfew : n.FewInFlight) {i : ℕ} (hi : n.Recent i)
    (hs : n.receiver.rxInitialized = true) (hacc : n.receiver.accepts (seqOf i) = true) :
    n.first + n.pushed.length ≤ i := by
  obtain ⟨hpos, hbase⟩ := hI.started hs
  have hle := hI.pushed_le hs
  have hspan := hfew.2.2
  obtain ⟨hlt, hrec⟩ := hi
  simp only [ArqRawUdp.accepts, hs, hbase, Bool.not_true, Bool.false_or, Bool.and_eq_true,
    decide_eq_true_eq] at hacc
  obtain ⟨⟨hne, -⟩, haft⟩ := hacc
  rw [seqAfter_seqOf (by omega) (by omega)] at haft
  have : n.first + n.pushed.length - 1 ≠ i := by
    rintro rfl
    exact hne rfl
  omega

theorem Inv.next_iff (hI : n.Inv) (hfew : n.FewInFlight) {i : ℕ} (hi : n.Recent i)
    (hs : n.receiver.rxInitialized = true) :
    seqOf i = n.receiver.rxBaseSeq + 1 ↔ i = n.first + n.pushed.length := by
  obtain ⟨hpos, hbase⟩ := hI.started hs
  have hle := hI.pushed_le hs
  have hspan := hfew.2.2
  obtain ⟨hlt, hrec⟩ := hi
  rw [hbase, seqOf_add_one, Nat.sub_add_cancel (by omega)]
  constructor
  · intro h
    exact seqOf_inj h (by omega) (by omega)
  · rintro rfl
    rfl

/-- A frame that arrives starts the receiver, is turned away, is the next and is pushed, or is
kept, when it is not in `rx_buffer_` already. -/
theorem deliverData_cases (hI : n.Inv) (hfew : n.FewInFlight) (k : ℕ)
    (hub : n.InOrderUnbuffered 0 (.deliverData k)) :
    n.deliverData k = n ∨ ∃ i p a fs, n.toReceiver[k]? = some (buildDataFrame (seqOf i) p)
      ∧ n.handed[i]? = some (some p) ∧ n.Recent i ∧ (∀ f ∈ fs, ∃ r, f = kFrameAck :: r)
      ∧ ((n.receiver.rxInitialized = false
          ∧ a.rx = (n.receiver.rxDelivered ++ [p], n.receiver.rxBuffer, seqOf i, true)
          ∧ n.deliverData k = { n with
            receiver := a
            toReceiver := n.toReceiver.eraseIdx k
            toSender := n.toSender ++ fs
            pushed := n.pushed ++ [p]
            first := i
            received := n.received ++ [i] })
        ∨ (n.receiver.rxInitialized = true ∧ a.rx = n.receiver.rx
          ∧ n.deliverData k = { n with
            receiver := a
            toReceiver := n.toReceiver.eraseIdx k
            toSender := n.toSender ++ fs })
        ∨ (n.receiver.rxInitialized = true ∧ i = n.first + n.pushed.length
          ∧ seqOf i ∉ n.receiver.rxBuffer
          ∧ a.rx = (n.receiver.rxDelivered ++ [p], n.receiver.rxBuffer, seqOf i, true)
          ∧ n.deliverData k = { n with
            receiver := a
            toReceiver := n.toReceiver.eraseIdx k
            toSender := n.toSender ++ fs
            pushed := n.pushed ++ [p]
            received := n.received ++ [i] })
        ∨ (n.receiver.rxInitialized = true ∧ n.first + n.pushed.length < i
          ∧ a.rx = (n.receiver.rxDelivered, n.receiver.rxBuffer.insert (seqOf i) p,
            n.receiver.rxBaseSeq, true)
          ∧ n.deliverData k = { n with
            receiver := a
            toReceiver := n.toReceiver.eraseIdx k
            toSender := n.toSender ++ fs
            received := n.received ++ [i] })) := by
  cases hk : n.toReceiver[k]? with
  | none => exact .inl (by simp [deliverData, hk])
  | some f =>
    obtain ⟨i, hi, p, hp, rfl⟩ := hfew.1 f (List.mem_of_getElem? hk)
    have hlatest : latestIndex n.handed.length (seqOf i) = i := by
      have := hi.2
      exact latestIndex_seqOf hi.1 (by omega)
    refine .inr ⟨i, p, (n.receiver.recvData n.senderAddr (seqOf i) p).1,
      route n.senderAddr (n.receiver.recvData n.senderAddr (seqOf i) p).2, rfl, hp, hi,
      route_frames (n.receiver.recvData_frames _ _ _), ?_⟩
    simp only [deliverData, hk, recvMain_buildDataFrame, frameSeq_buildDataFrame,
      Option.filter_some]
    rcases n.receiver.recvData_cases n.senderAddr (seqOf i) p with
        ⟨hs, hrx⟩ | ⟨hs, hacc, hrx⟩ | ⟨hs, hacc, hseq, hrx⟩ | ⟨hs, hacc, hseq, hrx⟩
    · refine .inl ⟨hs, hrx, ?_⟩
      have hdel := congrArg (·.1) hrx
      have hacc : n.receiver.accepts (seqOf i) = true := by simp [ArqRawUdp.accepts, hs]
      simp only [ArqRawUdp.rx] at hdel
      simp [hdel, hacc, hs, hlatest]
    · refine .inr (.inl ⟨hs, hrx, ?_⟩)
      have hdel := congrArg (·.1) hrx
      simp only [ArqRawUdp.rx] at hdel
      simp [hdel, hacc, hs]
    · have hmem : seqOf i ∉ n.receiver.rxBuffer := by
        have := hub (seqOf i) (by simp [hk, frameSeq_buildDataFrame]) hs hseq 0 le_rfl
        rwa [seqOf_add] at this
      rw [n.receiver.deliverInOrder_rx p (hseq ▸ hmem), ← hseq, hs] at hrx
      refine .inr (.inr (.inl ⟨hs, (hI.next_iff hfew hi hs).1 hseq, hmem, hrx, ?_⟩))
      have hdel := congrArg (·.1) hrx
      simp only [ArqRawUdp.rx] at hdel
      simp [hdel, hacc, hs, hlatest]
    · have hne := (hI.next_iff hfew hi hs).not.1 hseq
      have hle := hI.next_le hfew hi hs hacc
      rw [hs] at hrx
      refine .inr (.inr (.inr ⟨hs, by omega, hrx, ?_⟩))
      have hdel := congrArg (·.1) hrx
      simp only [ArqRawUdp.rx] at hdel
      simp [hdel, hacc, hs, hlatest]

/-! ## The invariant along a run -/

/-- Losing and duplicating datagrams. -/
theorem Inv.network (hI : n.Inv) {d a : List (List UInt8)} (hd : ∀ f ∈ d, f ∈ n.toReceiver)
    (ha : ∀ f ∈ a, f ∈ n.toSender) : Inv { n with toReceiver := d, toSender := a } :=
  { hI with
    data := fun f hf => hI.data f (hd f hf)
    acks := fun f hf => hI.acks f (ha f hf) }

/-- Numbers handed out later do not disturb what the invariant says of the earlier ones. -/
theorem Inv.handed (hI : n.Inv) {a : ArqRawUdp} {x : Option (List UInt8)} {d : List (List UInt8)}
    (hseq : a.txSeq = n.sender.txSeq + 1)
    (hd : ∀ f ∈ d, ∃ i, Names { n with handed := n.handed ++ [x] } i f)
    (hpend : ∀ q ∈ a.txPending, ∃ i, Names { n with handed := n.handed ++ [x] } i q.framed) :
    Inv { n with sender := a, toReceiver := n.toReceiver ++ d, handed := n.handed ++ [x] } where
  txSeq := by
    rw [hseq, hI.txSeq, seqOf_add_one, List.length_append, List.length_singleton]
  data f hf := by
    rcases List.mem_append.1 hf with hf | hf
    · obtain ⟨i, hi⟩ := hI.data f hf
      exact ⟨i, hi.append rfl⟩
    · exact hd f hf
  pending := hpend
  acks := hI.acks
  fresh := hI.fresh
  started := hI.started
  inOrder j p hp := getElem?_append_of_some (hI.inOrder j p hp)
  ahead k v h := by
    obtain ⟨i, hi, hk, hv⟩ := hI.ahead k v h
    exact ⟨i, hi, hk, getElem?_append_of_some hv⟩

theorem inv_send (hI : n.Inv) (dst : Endpoint) (data : List UInt8) (now : ℤ) :
    (n.send dst data now).Inv := by
  have hold : ∀ x, ∀ q ∈ n.sender.txPending,
      ∃ i, Names { n with handed := n.handed ++ [x] } i q.framed := by
    intro x q hq
    obtain ⟨i, hi⟩ := hI.pending q hq
    exact ⟨i, hi.append rfl⟩
  rcases n.send_cases dst data now with
      h | ⟨a, hseq, hpend, h⟩ | ⟨a, q, fs, hseq, hpend, -, hframed, hfs, h⟩
  · rw [h]
    exact hI
  · rw [h]
    simpa using hI.handed (d := []) hseq (by simp) (hpend ▸ hold none)
  · rw [h]
    have hnew : Names { n with handed := n.handed ++ [some data] } n.handed.length q.framed :=
      ⟨data, by simp, by rw [hframed, hI.txSeq]⟩
    refine hI.handed hseq (fun f hf => ⟨_, hfs f hf ▸ hnew⟩) fun q' hq' => ?_
    rw [hpend] at hq'
    rcases List.mem_append.1 hq' with hq' | hq'
    · exact hold _ q' hq'
    · rw [List.mem_singleton.1 hq']
      exact ⟨_, hnew⟩

theorem inv_tick (hI : n.Inv) (now : ℤ) : (n.tick now).Inv := by
  obtain ⟨a, fs, hseq, hpend, hfs, h⟩ := n.tick_cases now
  rw [h]
  refine { hI with txSeq := hseq.trans hI.txSeq, data := ?_, pending := ?_ }
  · intro f hf
    rcases List.mem_append.1 hf with hf | hf
    · exact hI.data f hf
    · obtain ⟨q, hq, rfl⟩ := hfs f hf
      exact hI.pending q hq
  · intro q hq
    obtain ⟨q', hq', -, hframed⟩ := hpend q hq
    obtain ⟨i, hi⟩ := hI.pending q' hq'
    exact ⟨i, hframed ▸ hi⟩

theorem inv_deliverAck (hI : n.Inv) (k : ℕ) : (n.deliverAck k).Inv := by
  rcases n.deliverAck_cases k hI.acks with h | ⟨a, l, hseq, hpend, h⟩
  · rw [h]
    exact hI
  · rw [h]
    exact { hI with
      txSeq := hseq.trans hI.txSeq
      pending := fun q hq => hI.pending q (hpend q hq)
      acks := fun f hf => hI.acks f (List.mem_of_mem_eraseIdx hf) }

theorem getElem?_concat_cases {α : Type*} {l : List α} {x y : α} {j : ℕ}
    (h : (l ++ [x])[j]? = some y) : l[j]? = some y ∨ j = l.length ∧ y = x := by
  rcases Nat.lt_trichotomy j l.length with hlt | rfl | hgt
  · rw [List.getElem?_append_left hlt] at h
    exact .inl h
  · rw [List.getElem?_concat_length, Option.some.injEq] at h
    exact .inr ⟨rfl, h.symm⟩
  · rw [List.getElem?_eq_none (by simp; omega)] at h
    cases h

theorem inv_deliverData (hI : n.Inv) (hfew : n.FewInFlight) (k : ℕ)
    (hub : n.InOrderUnbuffered 0 (.deliverData k)) : (n.deliverData k).Inv := by
  rcases deliverData_cases hI hfew k hub with h | ⟨i, p, a, fs, hk, hp, hi, hfs, hcase⟩
  · rw [h]
    exact hI
  have hdata : ∀ f ∈ n.toReceiver.eraseIdx k, ∃ i, n.Names i f := fun f hf =>
    hI.data f (List.mem_of_mem_eraseIdx hf)
  have hacks : ∀ f ∈ n.toSender ++ fs, ∃ r, f = kFrameAck :: r := by
    intro f hf
    rcases List.mem_append.1 hf with hf | hf
    · exact hI.acks f hf
    · exact hfs f hf
  rcases hcase with ⟨hs, hrx, h⟩ | ⟨hs, hrx, h⟩ | ⟨hs, hnext, hmem, hrx, h⟩ | ⟨hs, hlt, hrx, h⟩
  · obtain ⟨hpushed, -, -, hbuf⟩ := hI.fresh hs
    simp only [ArqRawUdp.rx, Prod.mk.injEq] at hrx
    obtain ⟨-, hbuf', hbase, hinit⟩ := hrx
    rw [h]
    refine ⟨hI.txSeq, hdata, hI.pending, hacks, ?_, ?_, ?_, ?_⟩
    · simp [hinit]
    · intro _
      simp [hpushed, hbase]
    · intro j q hq
      simp only [hpushed, List.nil_append] at hq
      rcases getElem?_concat_cases (l := []) hq with hq | ⟨rfl, rfl⟩
      · simp at hq
      · exact hp
    · intro key v hv
      simp [hbuf', hbuf] at hv
  · simp only [ArqRawUdp.rx, Prod.mk.injEq] at hrx
    obtain ⟨-, hbuf, hbase, hinit⟩ := hrx
    rw [h]
    refine ⟨hI.txSeq, hdata, hI.pending, hacks, ?_, ?_, hI.inOrder, ?_⟩
    · simp [hinit, hs]
    · intro _
      simpa only [hbase] using hI.started hs
    · simpa only [hbuf] using hI.ahead
  · simp only [ArqRawUdp.rx, Prod.mk.injEq] at hrx
    obtain ⟨-, hbuf, hbase, hinit⟩ := hrx
    rw [h]
    refine ⟨hI.txSeq, hdata, hI.pending, hacks, ?_, ?_, ?_, ?_⟩
    · simp [hinit]
    · intro _
      refine ⟨by simp, ?_⟩
      rw [hbase, hnext, List.length_append, List.length_singleton, ← Nat.add_assoc,
        Nat.add_sub_cancel]
    · intro j q hq
      rcases getElem?_concat_cases hq with hq | ⟨rfl, rfl⟩
      · exact hI.inOrder j q hq
      · rw [← hnext]
        exact hp
    · intro key v hv
      rw [hbuf] at hv
      obtain ⟨i', hle, rfl, hv'⟩ := hI.ahead key v hv
      have hne : i' ≠ i := by
        rintro rfl
        exact hmem (AList.lookup_isSome.1 (by rw [hv]; rfl))
      refine ⟨i', ?_, rfl, hv'⟩
      simp only [List.length_append, List.length_singleton]
      omega
  · simp only [ArqRawUdp.rx, Prod.mk.injEq] at hrx
    obtain ⟨-, hbuf, hbase, hinit⟩ := hrx
    rw [h]
    refine ⟨hI.txSeq, hdata, hI.pending, hacks, ?_, ?_, hI.inOrder, ?_⟩
    · simp [hinit]
    · intro _
      simpa only [hbase] using hI.started hs
    · intro key v hv
      rw [hbuf] at hv
      by_cases hkey : key = seqOf i
      · subst hkey
        rw [AList.lookup_insert, Option.some.injEq] at hv
        exact ⟨i, le_of_lt hlt, rfl, hv ▸ hp⟩
      · rw [AList.lookup_insert_ne hkey] at hv
        exact hI.ahead key v hv

theorem mem_append_getElem? {l : List (List UInt8)} {k : ℕ} :
    ∀ f ∈ l ++ l[k]?.toList, f ∈ l := by
  intro f hf
  rcases List.mem_append.1 hf with hf | hf
  · exact hf
  · exact List.mem_of_getElem? (Option.mem_toList.1 hf)

theorem inv_step (hI : n.Inv) (hfew : n.FewInFlight) :
    ∀ e : NetEvent, n.InOrderUnbuffered 0 e → (n.step e).Inv
  | .send dst data now, _ => inv_send hI dst data now
  | .tick now, _ => inv_tick hI now
  | .loseData _, _ => hI.network (fun _ => List.mem_of_mem_eraseIdx) fun _ hf => hf
  | .loseAck _, _ => hI.network (fun _ hf => hf) fun _ => List.mem_of_mem_eraseIdx
  | .dupData _, _ => hI.network mem_append_getElem? fun _ hf => hf
  | .dupAck _, _ => hI.network (fun _ hf => hf) mem_append_getElem?
  | .deliverData k, hub => inv_deliverData hI hfew k hub
  | .deliverAck k, _ => inv_deliverAck hI k
  | .recv, _ => { hI with }

/-! ## In-order delivery, once each -/

/-- While the first frame taken is the sender's first, the numbers pushed start at the first. -/
theorem first_step (hI : n.Inv) (hfew : n.FewInFlight) (hfirst : n.first = 0) :
    ∀ e : NetEvent, n.FirstIsFirst e → n.InOrderUnbuffered 0 e → (n.step e).first = 0
  | .send dst data now, _, _ => by
    rcases n.send_cases dst data now with h | ⟨a, -, -, h⟩ | ⟨a, q, fs, -, -, -, -, -, h⟩ <;>
      rw [step, h] <;> exact hfirst
  | .tick _, _, _ => hfirst
  | .loseData _, _, _ => hfirst
  | .loseAck _, _, _ => hfirst
  | .dupData _, _, _ => hfirst
  | .dupAck _, _, _ => hfirst
  | .deliverAck k, _, _ => by
    rcases n.deliverAck_cases k hI.acks with h | ⟨a, l, -, -, h⟩ <;> rw [step, h] <;> exact hfirst
  | .recv, _, _ => hfirst
  | .deliverData k, hff, hub => by
    rcases deliverData_cases hI hfew k hub with h | ⟨i, p, a, fs, hk, -, hi, -, hcase⟩
    · rw [step, h]
      exact hfirst
    rcases hcase with ⟨hs, -, h⟩ | ⟨-, -, h⟩ | ⟨-, -, -, -, h⟩ | ⟨-, -, -, h⟩
    · rw [step, h]
      obtain ⟨p', -, hframe⟩ := hff _ hk hs
      obtain ⟨hpushed, -, -, -⟩ := hI.fresh hs
      have hspan := hfew.2.2
      have hseq : seqOf i = seqOf 0 := by
        have hsame := congrArg frameSeq hframe
        simpa only [frameSeq_buildDataFrame, Option.some.injEq] using hsame
      have hlt := hi.1
      rw [hpushed, hfirst] at hspan
      simp only [List.length_nil] at hspan
      show i = 0
      exact seqOf_inj hseq (by omega) (by omega)
    all_goals
      rw [step, h]
      exact hfirst

theorem Inv.pushed_of_sent (hI : n.Inv) (hfirst : n.first = 0) : n.pushed <+: n.sent := by
  have hpre : n.pushed.map some <+: n.handed := by
    rw [List.prefix_iff_getElem?]
    intro j hj
    have hj' : j < n.pushed.length := by simpa using hj
    have := hI.inOrder j n.pushed[j] (List.getElem?_eq_getElem hj')
    simpa [hfirst] using this
  have := hpre.filterMap id
  rwa [List.filterMap_map, Function.id_comp, List.filterMap_some] at this

/-- While fewer than `2^15` packets are in flight, the receiver starts with the sender's first
frame, and no frame arrives in order whose number `rx_buffer_` holds, what is pushed is a prefix
of what was sent. -/
theorem pushed_prefix_sent (cs cr : RawUdpConfig) (sa ra : Endpoint) (es : List NetEvent)
    (h : machine.Meets
      (fun n e => n.FewInFlight ∧ n.FirstIsFirst e ∧ n.InOrderUnbuffered 0 e)
      (init cs cr sa ra) es) :
    (run (init cs cr sa ra) es).pushed <+: (run (init cs cr sa ra) es).sent := by
  have hrun := Machine.exec_keeps (M := machine) (I := fun n => n.Inv ∧ n.first = 0)
    (fun n e hn hok => ⟨inv_step hn.1 hok.1 e hok.2.2, first_step hn.1 hok.1 hn.2 e hok.2.1 hok.2.2⟩)
    es ⟨inv_init cs cr sa ra, rfl⟩ h
  exact hrun.1.pushed_of_sent hrun.2

def socketConfig : RawUdpConfig := { enableRealSocket := true }

/-- Three payloads sent, the third duplicated by the network: it overtakes the second and is
acknowledged before the second arrives. -/
def overtaken : List NetEvent :=
  [.send [2] [10] 0, .send [2] [11] 0, .send [2] [12] 0, .deliverData 0, .dupData 1,
    .deliverData 1, .deliverAck 1, .deliverData 0]

/-- One payload lost and sent again, the other sent twice by the network. -/
def resent : List NetEvent :=
  [.send [2] [10] 0, .send [2] [11] 0, .dupData 0, .deliverData 0, .loseData 0, .tick 60,
    .deliverData 2, .deliverAck 0, .deliverData 0, .recv]

theorem pushed_prefix_sent_resent :
    (run (init socketConfig socketConfig [1] [2]) resent).pushed
      <+: (run (init socketConfig socketConfig [1] [2]) resent).sent :=
  pushed_prefix_sent socketConfig socketConfig [1] [2] resent (by decide)

/-- The overtaken frame's duplicate arrives in order and is pushed, and so is what the map held
for it. -/
theorem pushed_twice :
    machine.Meets (fun n e => n.FewInFlight ∧ n.FirstIsFirst e)
        (init socketConfig socketConfig [1] [2]) (overtaken ++ [NetEvent.deliverData 0])
      ∧ (run (init socketConfig socketConfig [1] [2]) (overtaken ++ [NetEvent.deliverData 0])).pushed
        = [[10], [11], [12], [12]]
      ∧ ¬ (run (init socketConfig socketConfig [1] [2])
          (overtaken ++ [NetEvent.deliverData 0])).pushed
        <+: (run (init socketConfig socketConfig [1] [2])
          (overtaken ++ [NetEvent.deliverData 0])).sent := by
  decide

/-! ## Acknowledged and delivered -/

/-- What has been received is pushed or kept, and the next number is not kept. -/
structure Kept (n : Net) : Prop where
  kept : ∀ i ∈ n.received, i < n.first + n.pushed.length ∨ seqOf i ∈ n.receiver.rxBuffer
  gap : n.receiver.rxInitialized = true →
    seqOf (n.first + n.pushed.length) ∉ n.receiver.rxBuffer

theorem InOrderUnbuffered.mono {l m : ℕ} (hlm : l ≤ m) {e : NetEvent}
    (h : n.InOrderUnbuffered m e) : n.InOrderUnbuffered l e := by
  cases e with
  | deliverData k => exact fun seq hseq hs hnext d hd => h seq hseq hs hnext d (Nat.le_trans hd hlm)
  | _ => trivial

theorem kept_deliverData (hI : n.Inv) (hK : n.Kept) (hfew : n.FewInFlight) (k : ℕ)
    (hub : n.InOrderUnbuffered 1 (.deliverData k)) : (n.deliverData k).Kept := by
  rcases deliverData_cases hI hfew k (hub.mono (Nat.zero_le 1)) with
      h | ⟨i, p, a, fs, hk, -, hi, -, hcase⟩
  · rw [h]
    exact hK
  rcases hcase with ⟨hs, hrx, h⟩ | ⟨hs, hrx, h⟩ | ⟨hs, hnext, hmem, hrx, h⟩ | ⟨hs, hlt, hrx, h⟩
  · obtain ⟨hpushed, -, hrec, hbuf⟩ := hI.fresh hs
    simp only [ArqRawUdp.rx, Prod.mk.injEq] at hrx
    obtain ⟨-, hbuf', -, -⟩ := hrx
    rw [h]
    refine ⟨?_, ?_⟩
    · intro j hj
      rw [hrec] at hj
      simp only [List.nil_append, List.mem_singleton] at hj
      exact .inl (by simp [hj])
    · intro _
      simp [hbuf', hbuf]
  · simp only [ArqRawUdp.rx, Prod.mk.injEq] at hrx
    obtain ⟨-, hbuf, -, hinit⟩ := hrx
    rw [h]
    exact ⟨by simpa only [hbuf] using hK.kept, by simpa only [hbuf, hinit] using hK.gap⟩
  · simp only [ArqRawUdp.rx, Prod.mk.injEq] at hrx
    obtain ⟨-, hbuf, -, -⟩ := hrx
    have hsucc : seqOf (i + 1) ∉ n.receiver.rxBuffer := by
      have hseq := (hI.next_iff hfew hi hs).2 hnext
      have := hub (seqOf i) (by simp [hk, frameSeq_buildDataFrame]) hs hseq 1 le_rfl
      rwa [seqOf_add] at this
    rw [h]
    refine ⟨?_, ?_⟩
    · intro j hj
      simp only [List.length_append, List.length_singleton, hbuf]
      rcases List.mem_append.1 hj with hj | hj
      · rcases hK.kept j hj with hlt | hbuf
        · exact .inl (by omega)
        · exact .inr hbuf
      · have := List.mem_singleton.1 hj
        exact .inl (by omega)
    · intro _
      simp only [List.length_append, List.length_singleton, hbuf]
      rwa [← Nat.add_assoc, ← hnext]
  · simp only [ArqRawUdp.rx, Prod.mk.injEq] at hrx
    obtain ⟨-, hbuf, -, -⟩ := hrx
    rw [h]
    refine ⟨?_, ?_⟩
    · intro j hj
      simp only [hbuf, AList.mem_insert]
      rcases List.mem_append.1 hj with hj | hj
      · exact (hK.kept j hj).imp id .inr
      · exact .inr (.inl (by rw [List.mem_singleton.1 hj]))
    · intro _ hmem
      simp only [hbuf, AList.mem_insert] at hmem
      rcases hmem with heq | hmem
      · have hle := hI.pushed_le hs
        have hspan := hfew.2.2
        have hlen := hi.1
        have := seqOf_inj heq (by omega) (by omega)
        omega
      · exact hK.gap hs hmem

theorem kept_step (hI : n.Inv) (hK : n.Kept) (hfew : n.FewInFlight) :
    ∀ e : NetEvent, n.InOrderUnbuffered 1 e → (n.step e).Kept
  | .send dst data now, _ => by
    rcases n.send_cases dst data now with h | ⟨a, -, -, h⟩ | ⟨a, q, fs, -, -, -, -, -, h⟩ <;>
      rw [step, h] <;> exact ⟨hK.kept, hK.gap⟩
  | .tick _, _ => ⟨hK.kept, hK.gap⟩
  | .loseData _, _ => ⟨hK.kept, hK.gap⟩
  | .loseAck _, _ => ⟨hK.kept, hK.gap⟩
  | .dupData _, _ => ⟨hK.kept, hK.gap⟩
  | .dupAck _, _ => ⟨hK.kept, hK.gap⟩
  | .deliverData k, hub => kept_deliverData hI hK hfew k hub
  | .deliverAck k, _ => by
    rcases n.deliverAck_cases k hI.acks with h | ⟨a, l, -, -, h⟩ <;> rw [step, h] <;>
      exact ⟨hK.kept, hK.gap⟩
  | .recv, _ => ⟨hK.kept, hK.gap⟩

/-- The numbers received without a gap are pushed. -/
theorem Kept.pushed_of_received (hI : n.Inv) (hK : n.Kept) {s : ℕ}
    (hrec : ∀ i, n.first ≤ i → i ≤ s → i ∈ n.received) {i : ℕ} (hfi : n.first ≤ i) (his : i ≤ s) :
    n.Pushed i := by
  have hs : n.receiver.rxInitialized = true := by
    by_contra hs
    have hnil := (hI.fresh (by simpa using hs)).2.2.1
    have := hrec i hfi his
    simp [hnil] at this
  have hlen : s < n.first + n.pushed.length := by
    by_contra hle
    -- the first number not pushed would be received, so kept, and it is the gap
    rcases hK.kept _ (hrec (n.first + n.pushed.length) (by omega) (by omega)) with hlt | hmem
    · omega
    · exact hK.gap hs hmem
  have hi : i - n.first < n.pushed.length := by omega
  refine ⟨n.pushed[i - n.first], ?_, List.getElem?_eq_getElem hi⟩
  have := hI.inOrder _ _ (List.getElem?_eq_getElem hi)
  rwa [Nat.add_sub_cancel' hfi] at this

/-- While fewer than `2^15` packets are in flight and no frame arrives in order whose number or
whose successor `rx_buffer_` holds, what is acknowledged is delivered once the gap before it is
closed. -/
theorem acks_truthful (cs cr : RawUdpConfig) (sa ra : Endpoint) (es : List NetEvent)
    (h : machine.Meets (fun n e => n.FewInFlight ∧ n.InOrderUnbuffered 1 e)
      (init cs cr sa ra) es) :
    (run (init cs cr sa ra) es).AcksTruthful := by
  have hinit : (init cs cr sa ra).Kept := by
    refine ⟨by simp [init], fun hs => ?_⟩
    have hpos := ((inv_init cs cr sa ra).started hs).1
    simp [init] at hpos
  have hrun := Machine.exec_keeps (M := machine) (I := fun n => n.Inv ∧ n.Kept)
    (fun n e hn hok => ⟨inv_step hn.1 hok.1 e (hok.2.mono (Nat.zero_le 1)),
      kept_step hn.1 hn.2 hok.1 e hok.2⟩) es ⟨inv_init cs cr sa ra, hinit⟩ h
  exact fun s hrec i _ hfi his => hrun.2.pushed_of_received hrun.1 hrec hfi his

theorem acks_truthful_resent :
    (run (init socketConfig socketConfig [1] [2]) resent).acked = [0]
      ∧ (run (init socketConfig socketConfig [1] [2]) resent).AcksTruthful :=
  ⟨by decide, acks_truthful socketConfig socketConfig [1] [2] resent (by decide)⟩

/-- The third payload is acknowledged while it is kept, and stays there after the second has
arrived. -/
theorem acked_not_pushed :
    machine.Meets (fun n _ => n.FewInFlight) (init socketConfig socketConfig [1] [2]) overtaken
      ∧ (run (init socketConfig socketConfig [1] [2]) overtaken).pushed = [[10], [11]]
      ∧ ¬ (run (init socketConfig socketConfig [1] [2]) overtaken).AcksTruthful := by
  refine ⟨by decide, by decide, fun h => ?_⟩
  have hrec : ∀ i ≤ 2, i ∈ (run (init socketConfig socketConfig [1] [2]) overtaken).received := by
    decide
  obtain ⟨p, -, hp⟩ := h 2 (fun i _ hi => hrec i hi) 2 (by decide) (by decide)
    le_rfl
  have hnone : (run (init socketConfig socketConfig [1] [2]) overtaken).pushed[2 -
      (run (init socketConfig socketConfig [1] [2]) overtaken).first]? = none := by
    decide
  rw [hnone] at hp
  cases hp

end Net

end NimRtc
