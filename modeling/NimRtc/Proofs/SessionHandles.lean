import NimRtc.Lib.History
import NimRtc.WebTransportSession

/-!
# No handle is used once it is closed

What one step does with one handle, from which follows what a run does with it: a handle is opened,
used and closed once, or left open by a stream that msquic is done with. The exceptions are a stream
that does not start, and what a client has open for its connection when it is destroyed too early.
-/

namespace NimRtc.MsQuic

open Custody (Use Held GivenUp)

namespace Action

variable (a : Action) (out out' : List Action) (h : HQUIC)

@[simp] theorem uses_nil : uses [] h = [] := rfl

@[simp] theorem uses_cons : uses (a :: out) h = a.on h ++ uses out h := rfl

@[simp] theorem uses_append : uses (out ++ out') h = uses out h ++ uses out' h :=
  List.flatMap_append

@[simp] theorem failed_nil : failed [] = [] := rfl

@[simp] theorem failed_cons : failed (a :: out) = a.failedStarts ++ failed out := rfl

@[simp] theorem failed_append : failed (out ++ out') = failed out ++ failed out' :=
  List.flatMap_append

end Action

open MsQuic.Action (uses failed)

attribute [local simp] Action.on Action.opens Action.closes Action.ends Action.handles
  Action.failedStarts

/-! ### One step -/

/-- What a step does with one handle. -/
inductive Passes (w w' : Link) (log : List Action) (h : HQUIC) : Prop
  | untouched (hheld : h ∈ w'.held ↔ h ∈ w.held) (hnew : w.handles ≤ h → w'.handles ≤ h)
      (huses : uses log h = [])
  | used (hbefore : h ∈ w.held) (hafter : h ∈ w'.held) (huses : ∀ u ∈ uses log h, u = .used)
  | opened (hnew : h = w.handles) (hafter : h ∈ w'.held) {us : List Use} (hus : ∀ u ∈ us, u = .used)
      (huses : uses log h = .opened :: us)
  | refused (hnew : h = w.handles) (hlt : h < w'.handles) (hafter : h ∉ w'.held)
      (huses : uses log h = [.opened, .used, .closed])
  | notStarted (hfailed : h ∈ failed log)
  | givenUp (hbefore : h ∈ w.held) (hafter : h ∉ w'.held) {us : List Use} {last : Use}
      (hus : ∀ u ∈ us, u = .used) (hlast : last = .closed ∨ last = .left)
      (huses : uses log h = us ++ [last])
  | leaked (hbefore : h ∈ w.held) (hafter : h ∉ w'.held) (hleaked : h ∈ w'.leaked)
      (huses : uses log h = [])

/-- The handles of a session are different and not new, and its connection is one of them. -/
structure Valid (w : Link) : Prop where
  nodup : w.held.Nodup
  lt : ∀ h ∈ w.held, h < w.handles
  conn : ∀ h ∈ w.session.conn, h ∈ w.base

structure Follows (w w' : Link) (log : List Action) : Prop where
  valid : Valid w'
  handles : w.handles ≤ w'.handles
  leaked : ∀ h ∈ w.leaked, h ∈ w'.leaked
  passes : ∀ h, Passes w w' log h
  failed : ∀ h ∈ failed log, h = w.handles ∧ h < w'.handles ∧ h ∉ w'.held
    ∧ uses log h = [.opened, .used, .closed, .used, .closed]

variable {w w' : Link} {out log : List Action} {h : HQUIC}

theorem Accounted.fresh (hacc : Accounted w out h) (hv : Valid w) (hnew : w.handles ≤ h) :
    h ∉ failed out ∧ uses out h = [] := by
  unfold Accounted at hacc
  split_ifs at hacc with hfail
  · exact absurd hacc.1 hnew.not_gt
  · rcases hacc with ⟨-, huses⟩ | ⟨hheld, -⟩ | ⟨hlt, -⟩
    · exact ⟨hfail, huses⟩
    · exact absurd (hv.lt h hheld) hnew.not_gt
    · exact absurd hlt hnew.not_gt

theorem Accounted.held (hacc : Accounted w out h) (hv : Valid w) (hheld : h ∈ w.held) :
    h ∉ failed out ∧ Held (uses out h) := by
  have hlt := hv.lt h hheld
  unfold Accounted at hacc
  split_ifs at hacc with hfail
  · exact absurd hheld hacc.2.1
  · rcases hacc with ⟨hnew, -⟩ | ⟨-, huses⟩ | ⟨-, hnot, -⟩
    · exact absurd hlt hnew.not_gt
    · exact ⟨hfail, huses⟩
    · exact absurd hheld hnot

/-- A step keeps account of every handle. -/
theorem Accounted.step (hv : Valid w) (hf : Follows w w' log) (hacc : Accounted w out h) :
    Accounted w' (out ++ log) h := by
  by_cases hfail : h ∈ failed log
  · obtain ⟨hnew, hlt, hafter, huses⟩ := hf.failed h hfail
    obtain ⟨-, hnone⟩ := hacc.fresh hv hnew.ge
    rw [Accounted, if_pos (by simp [hfail])]
    refine ⟨hlt, hafter, ?_⟩
    rw [Action.uses_append, hnone, huses]
    rfl
  · have hiff : h ∈ failed (out ++ log) ↔ h ∈ failed out := by simp [hfail]
    have hfresh := fun hnew => hacc.fresh hv hnew
    have hheld := fun hbefore => hacc.held hv hbefore
    rcases hf.passes h with ⟨hsame, hnew, huses⟩ | ⟨hbefore, hafter, huses⟩ |
      ⟨rfl, hafter, hus, huses⟩ | ⟨rfl, hlt, hafter, huses⟩ | hfailed |
      ⟨hbefore, hafter, hus, hlast, huses⟩ | ⟨hbefore, hafter, hleaked, huses⟩
    · have hlater : h < w.handles → h < w'.handles := fun hlt => hlt.trans_le hf.handles
      unfold Accounted at hacc ⊢
      simp only [hiff, Action.uses_append, huses, List.append_nil, hsame]
      split_ifs at hacc ⊢ with hout
      · exact ⟨hlater hacc.1, hacc.2⟩
      · rcases hacc with ⟨hle, hnone⟩ | hin | ⟨hlt, hgone⟩
        · exact .inl ⟨hnew hle, hnone⟩
        · exact .inr (.inl hin)
        · obtain ⟨hnot, hgone⟩ := hgone
          exact .inr (.inr ⟨hlater hlt, hnot,
            hgone.imp_right (Or.imp_right fun hopen => ⟨hf.leaked h hopen.1, hopen.2⟩)⟩)
    · obtain ⟨hout, hin⟩ := hheld hbefore
      rw [Accounted, if_neg (by rwa [hiff]), Action.uses_append]
      exact .inr (.inl ⟨hafter, hin.append huses⟩)
    · obtain ⟨hout, hnone⟩ := hfresh le_rfl
      rw [Accounted, if_neg (by rwa [hiff]), Action.uses_append, hnone, huses]
      exact .inr (.inl ⟨hafter, Custody.held_opened hus⟩)
    · obtain ⟨hout, hnone⟩ := hfresh le_rfl
      rw [Accounted, if_neg (by rwa [hiff]), Action.uses_append, hnone, huses]
      exact .inr (.inr ⟨hlt, hafter, .inl ⟨1, rfl⟩⟩)
    · exact absurd hfailed hfail
    · obtain ⟨hout, hin⟩ := hheld hbefore
      have hlt := (hv.lt h hbefore).trans_le hf.handles
      rw [Accounted, if_neg (by rwa [hiff]), Action.uses_append, huses, ← List.append_assoc]
      refine .inr (.inr ⟨hlt, hafter, ?_⟩)
      rcases hlast with rfl | rfl
      · exact .inl ((hin.append hus).concat _)
      · exact .inr (.inl ((hin.append hus).concat _))
    · obtain ⟨hout, hin⟩ := hheld hbefore
      have hlt := (hv.lt h hbefore).trans_le hf.handles
      rw [Accounted, if_neg (by rwa [hiff]), Action.uses_append, huses, List.append_nil]
      exact .inr (.inr ⟨hlt, hafter, .inr (.inr ⟨hleaked, hin⟩)⟩)

/-! ### The steps of a session -/

theorem follows_quiet (hv : Valid w) (hstreams : w'.session.streamHandles = w.session.streamHandles)
    (hbase : w'.base = w.base) (hhandles : w'.handles = w.handles) (hleaked : w'.leaked = w.leaked)
    (hconn : w'.session.conn = w.session.conn ∨ w'.session.conn = none)
    (hlog : ∀ a ∈ log, ∀ h, ∀ u ∈ a.on h, u = .used ∧ h ∈ w.held)
    (hfailed : failed log = []) : Follows w w' log := by
  have hheld : w'.held = w.held := by rw [Link.held, Link.held, hstreams, hbase]
  refine ⟨⟨hheld ▸ hv.nodup, fun h hin => ?_, fun h hin => ?_⟩, hhandles.ge, fun h hin => ?_,
    fun h => ?_, fun h hin => ?_⟩
  · rw [hheld] at hin
    rw [hhandles]
    exact hv.lt h hin
  · rw [hbase]
    rcases hconn with hsame | hnone
    · exact hv.conn h (hsame ▸ hin)
    · rw [hnone] at hin
      cases hin
  · rwa [hleaked]
  · have huses : ∀ u ∈ uses log h, u = .used ∧ h ∈ w.held := fun u hu => by
      obtain ⟨a, ha, hua⟩ := List.mem_flatMap.1 hu
      exact hlog a ha h u hua
    rcases huses' : uses log h with _ | ⟨u, us⟩
    · exact .untouched (by rw [hheld]) (fun hle => hhandles.le.trans hle) huses'
    · have hin := (huses u (by rw [huses']; exact List.mem_cons_self)).2
      exact .used hin (hheld ▸ hin) fun u hu => (huses u hu).1
  · rw [hfailed] at hin
    exact absurd hin List.not_mem_nil

/-- A step that gives some handles up and does nothing with the others. -/
theorem follows_givenUp (hv : Valid w) (gone : List HQUIC) (hheld : w.held.Perm (gone ++ w'.held))
    (hhandles : w'.handles = w.handles) (hleaked : w'.leaked = w.leaked)
    (hconn : ∀ h ∈ w'.session.conn, h ∈ w'.base)
    (hgone : ∀ h ∈ gone, ∃ us last, (∀ u ∈ us, u = Use.used) ∧ (last = .closed ∨ last = .left)
      ∧ uses log h = us ++ [last])
    (hother : ∀ h, h ∉ gone → uses log h = []) (hfailed : failed log = []) :
    Follows w w' log := by
  have hnodup := hheld.nodup_iff.1 hv.nodup
  obtain ⟨-, hnodup', hdisjoint⟩ := List.nodup_append'.1 hnodup
  have hmem : ∀ h, h ∈ w.held ↔ h ∈ gone ∨ h ∈ w'.held := fun h => by
    rw [hheld.mem_iff, List.mem_append]
  refine ⟨⟨hnodup', fun h hin => ?_, hconn⟩, hhandles.ge, fun h hin => hleaked ▸ hin, fun h => ?_,
    fun h hin => ?_⟩
  · rw [hhandles]
    exact hv.lt h ((hmem h).2 (.inr hin))
  · by_cases hin : h ∈ gone
    · obtain ⟨us, last, hus, hlast, huses⟩ := hgone h hin
      exact .givenUp ((hmem h).2 (.inl hin)) (hdisjoint hin) hus hlast huses
    · refine .untouched ?_ (fun hle => hhandles.le.trans hle) (hother h hin)
      rw [hmem, or_iff_right hin]
  · rw [hfailed] at hin
    exact absurd hin List.not_mem_nil

theorem streamHandles_split {x : MsQuicSessionImpl} {unidirectional : Bool} {i : ℕ} {s : QuicStream}
    (hs : x.stream? unidirectional i = some s) :
    ∃ pre post : List HQUIC, x.streamHandles = pre ++ s.stream.toList ++ post
      ∧ ∀ s' : QuicStream, (x.setStream unidirectional i s').streamHandles
          = pre ++ s'.stream.toList ++ post := by
  have hsplit : ∀ {l : List QuicStream}, l[i]? = some s →
      l = l.take i ++ s :: l.drop (i + 1)
        ∧ ∀ s', l.set i s' = l.take i ++ s' :: l.drop (i + 1) := fun {l} hl => by
    obtain ⟨hlt, hget⟩ := List.getElem?_eq_some_iff.1 hl
    refine ⟨?_, fun s' => by rw [List.set_eq_take_append_cons_drop, if_pos hlt]⟩
    rw [← hget, List.getElem_cons_drop, List.take_append_drop]
  have hone : ∀ s' : QuicStream, [s'].filterMap (·.stream) = s'.stream.toList := fun s' => by
    rcases hstream : s'.stream with _ | h <;> simp [hstream]
  unfold MsQuicSessionImpl.stream? at hs
  split_ifs at hs with huni
  · obtain ⟨hbefore, hafter⟩ := hsplit hs
    refine ⟨(x.bidiStreams ++ x.uniStreams.take i).filterMap (·.stream),
      (x.uniStreams.drop (i + 1)).filterMap (·.stream), ?_, fun s' => ?_⟩
    · rw [MsQuicSessionImpl.streamHandles, ← hone s, ← List.filterMap_append,
        ← List.filterMap_append, List.append_assoc, List.append_assoc, List.singleton_append,
        ← hbefore]
    · rw [MsQuicSessionImpl.streamHandles, MsQuicSessionImpl.setStream, if_pos huni, hafter,
        ← hone s', ← List.filterMap_append, ← List.filterMap_append, List.append_assoc,
        List.append_assoc, List.singleton_append]
  · obtain ⟨hbefore, hafter⟩ := hsplit hs
    refine ⟨(x.bidiStreams.take i).filterMap (·.stream),
      (x.bidiStreams.drop (i + 1) ++ x.uniStreams).filterMap (·.stream), ?_, fun s' => ?_⟩
    · rw [MsQuicSessionImpl.streamHandles, ← hone s, ← List.filterMap_append,
        ← List.filterMap_append, List.append_assoc, List.singleton_append, ← List.cons_append,
        ← List.append_assoc, ← hbefore]
    · rw [MsQuicSessionImpl.streamHandles, MsQuicSessionImpl.setStream, if_neg huni, hafter,
        ← hone s', ← List.filterMap_append, ← List.filterMap_append, List.append_assoc,
        List.append_assoc, List.singleton_append, List.cons_append]

@[simp] theorem base_setStream (unidirectional : Bool) (i : ℕ) (s : QuicStream) :
    { w with session := w.session.setStream unidirectional i s }.base = w.base := by
  cases unidirectional <;> rfl

theorem conn_setStream (x : MsQuicSessionImpl) (unidirectional : Bool) (i : ℕ) (s : QuicStream) :
    (x.setStream unidirectional i s).conn = x.conn := by
  cases unidirectional <;> rfl

/-- A stream that keeps its handle keeps the handles of the session. -/
theorem streamHandles_setStream {x : MsQuicSessionImpl} {unidirectional : Bool} {i : ℕ}
    {s s' : QuicStream} (hs : x.stream? unidirectional i = some s) (hsame : s'.stream = s.stream) :
    (x.setStream unidirectional i s').streamHandles = x.streamHandles := by
  obtain ⟨pre, post, hbefore, hafter⟩ := streamHandles_split hs
  rw [hafter, hbefore, hsame]

theorem mem_held_of_stream {unidirectional : Bool} {i : ℕ} {s : QuicStream}
    (hs : w.session.stream? unidirectional i = some s) (hh : s.stream = some h) : h ∈ w.held := by
  obtain ⟨pre, post, hbefore, -⟩ := streamHandles_split hs
  rw [Link.held, hbefore, hh]
  simp

theorem follows_onStream {unidirectional : Bool} {i : ℕ}
    {f : QuicStream → QuicStream × List Action} (hv : Valid w)
    (hsame : ∀ s, (f s).1.stream = s.stream)
    (hlog : ∀ s, ∀ a ∈ (f s).2, ∀ h, ∀ u ∈ a.on h, u = .used ∧ s.stream = some h)
    (hfailed : ∀ s, failed (f s).2 = []) :
    Follows w (w.onStream unidirectional i f).1 (w.onStream unidirectional i f).2 := by
  unfold Link.onStream
  split
  · exact follows_quiet hv rfl rfl rfl rfl (.inl rfl) (by simp) rfl
  · rename_i s hs
    refine follows_quiet hv (streamHandles_setStream hs (hsame s)) (base_setStream _ _ _) rfl rfl
      (.inl (conn_setStream _ _ _ _)) (fun a ha h u hu => ?_) (hfailed s)
    · obtain ⟨hused, hh⟩ := hlog s a ha h u hu
      exact ⟨hused, mem_held_of_stream hs hh⟩

theorem shutdown_stream (s : QuicStream) (flags : List ShutdownFlag) :
    (s.shutdown flags).1.stream = s.stream := by
  unfold QuicStream.shutdown
  split
  · rfl
  · split_ifs <;> rfl

theorem on_shutdown (s : QuicStream) (flags : List ShutdownFlag) :
    ∀ a ∈ (s.shutdown flags).2, ∀ h, ∀ u ∈ a.on h, u = .used ∧ s.stream = some h := by
  unfold QuicStream.shutdown
  rcases hstream : s.stream with _ | h
  · simp
  · split_ifs <;> simp [eq_comm]

theorem failed_shutdown (s : QuicStream) (flags : List ShutdownFlag) :
    failed (s.shutdown flags).2 = [] := by
  unfold QuicStream.shutdown
  split
  · rfl
  · split_ifs <;> rfl

/-- A stream that msquic is done with leaves its handle open. -/
theorem follows_onStreamClosed {unidirectional : Bool} {i : ℕ} (hv : Valid w) :
    Follows w (w.onStream unidirectional i QuicStream.onStreamClosed).1
      (w.onStream unidirectional i QuicStream.onStreamClosed).2 := by
  unfold Link.onStream
  split
  · exact follows_quiet hv rfl rfl rfl rfl (.inl rfl) (by simp) rfl
  · rename_i s hs
    obtain ⟨pre, post, hbefore, hafter⟩ := streamHandles_split hs
    refine follows_givenUp hv s.stream.toList ?_ rfl rfl ?_ ?_ ?_ ?_
    · rw [Link.held, Link.held, base_setStream, hbefore, hafter, QuicStream.onStreamClosed,
        Option.toList_none, List.append_nil, ← List.append_assoc, ← List.append_assoc]
      exact (List.perm_append_comm.append_right _).append_right _
    · intro h hin
      rw [conn_setStream] at hin
      rw [base_setStream]
      exact hv.conn h hin
    · intro h hin
      refine ⟨[], .left, by simp, .inr rfl, ?_⟩
      rw [Option.mem_toList] at hin
      rw [QuicStream.onStreamClosed, hin]
      simp
    · intro h hin
      rw [Option.mem_toList] at hin
      rcases hstream : s.stream with _ | c
      · rw [QuicStream.onStreamClosed, hstream]
        rfl
      · have hne : c ≠ h := fun heq => hin (heq ▸ hstream)
        rw [QuicStream.onStreamClosed, hstream]
        simp [hne.symm]
    · rw [QuicStream.onStreamClosed]
      rcases s.stream with _ | c <;> rfl

theorem uses_destroy (s : QuicStream) (h : HQUIC) :
    (s.stream = some h → ∃ us, (∀ u ∈ us, u = Use.used) ∧ uses s.destroy h = us ++ [.closed])
      ∧ (s.stream ≠ some h → uses s.destroy h = []) ∧ failed s.destroy = [] := by
  unfold QuicStream.destroy
  rcases s.stream with _ | c
  · simp
  · refine ⟨fun heq => ?_, fun hne => ?_, ?_⟩
    · obtain rfl := Option.some.inj heq
      refine ⟨if s.closed then [] else [.used], ?_, ?_⟩
      · split_ifs <;> simp
      · split_ifs <;> simp
    · have hne' : h ≠ c := fun heq => hne (heq ▸ rfl)
      split_ifs <;>
        simp [hne']
    · split_ifs <;> rfl

theorem uses_flatMap_destroy (h : HQUIC) : ∀ l : List QuicStream, (l.filterMap (·.stream)).Nodup →
    (h ∈ l.filterMap (·.stream) →
        ∃ us, (∀ u ∈ us, u = Use.used) ∧ uses (l.flatMap (·.destroy)) h = us ++ [.closed])
      ∧ (h ∉ l.filterMap (·.stream) → uses (l.flatMap (·.destroy)) h = [])
      ∧ failed (l.flatMap (·.destroy)) = []
  | [], _ => by simp
  | s :: l, hnodup => by
    obtain ⟨hown, hother, hfailed⟩ := uses_destroy s h
    rw [List.flatMap_cons, Action.uses_append, Action.failed_append, hfailed, List.nil_append]
    rcases hstream : s.stream with _ | c
    · rw [List.filterMap_cons_none hstream] at hnodup ⊢
      rw [hother (by rw [hstream]; simp), List.nil_append]
      exact uses_flatMap_destroy h l hnodup
    · rw [List.filterMap_cons_some hstream] at hnodup ⊢
      obtain ⟨hnotMem, hnodup⟩ := List.nodup_cons.1 hnodup
      obtain ⟨hin, hout, hfailed'⟩ := uses_flatMap_destroy h l hnodup
      refine ⟨fun hmem => ?_, fun hmem => ?_, hfailed'⟩
      · by_cases heq : h = c
        · obtain ⟨us, hus, huses⟩ := hown (heq ▸ hstream)
          rw [huses, hout (heq ▸ hnotMem), List.append_nil]
          exact ⟨us, hus, rfl⟩
        · rw [hother fun h' => heq (Option.some.inj (h'.symm.trans hstream)), List.nil_append]
          exact hin ((List.mem_cons.1 hmem).resolve_left heq)
      · obtain ⟨hne, hmem⟩ := not_or.1 (List.mem_cons.not.1 hmem)
        rw [hother fun h' => hne (Option.some.inj (h'.symm.trans hstream)), hout hmem,
          List.append_nil]

theorem follows_clear (hv : Valid w) :
    Follows w (w.onSession MsQuicSessionImpl.clear).1 (w.onSession MsQuicSessionImpl.clear).2 := by
  have hnodup : ((w.session.bidiStreams ++ w.session.uniStreams).filterMap (·.stream)).Nodup :=
    (List.nodup_append'.1 hv.nodup).1
  have huses := fun h => uses_flatMap_destroy h _ hnodup
  have hlog : (w.onSession MsQuicSessionImpl.clear).2
      = (w.session.bidiStreams ++ w.session.uniStreams).flatMap (·.destroy) :=
    List.flatMap_append.symm
  have hheld : (w.onSession MsQuicSessionImpl.clear).1.held = w.base := List.nil_append _
  refine follows_givenUp hv w.session.streamHandles ?_ rfl rfl ?_ (fun h hin => ?_)
    (fun h hout => ?_) ?_
  · rw [hheld, Link.held]
  · exact hv.conn
  · obtain ⟨us, hus, hall⟩ := (huses h).1 hin
    exact ⟨us, .closed, hus, .inl rfl, hlog ▸ hall⟩
  · rw [hlog]
    exact (huses h).2.1 hout
  · rw [hlog]
    exact (huses 0).2.2

/-- What a log does that closes one handle at most. -/
theorem uses_map_close {f : HQUIC → Action}
    (hclose : ∀ c h, (f c).on h = if h = c then [.closed] else []) (c : Option HQUIC) (h : HQUIC) :
    uses (c.toList.map f) h = if h ∈ c.toList then [.closed] else [] := by
  rcases c with _ | c
  · simp
  · rw [Option.toList_some, List.map_singleton, Action.uses_cons, Action.uses_nil, hclose,
      List.append_nil]
    simp only [List.mem_singleton]

theorem follows_closeHandles (hv : Valid w) :
    Follows w (w.onSession MsQuicSessionImpl.closeHandles).1
      (w.onSession MsQuicSessionImpl.closeHandles).2 := by
  obtain ⟨-, hbase, -⟩ := List.nodup_append'.1 hv.nodup
  obtain ⟨howned, -, -⟩ := List.nodup_append'.1 hbase
  obtain ⟨htwo, -, hreg⟩ := List.nodup_append'.1 howned
  obtain ⟨-, -, hconf⟩ := List.nodup_append'.1 htwo
  have huses : ∀ h, uses (w.onSession MsQuicSessionImpl.closeHandles).2 h
      = (if h ∈ w.session.ownConnection.toList then [Use.closed] else [])
        ++ (if h ∈ w.session.ownConfiguration.toList then [Use.closed] else [])
        ++ (if h ∈ w.session.ownRegistration.toList then [Use.closed] else []) := fun h => by
    rw [Link.onSession, MsQuicSessionImpl.closeHandles, Action.uses_append, Action.uses_append,
      uses_map_close, uses_map_close, uses_map_close]
    all_goals
      intro c h
      simp only [Action.on, Action.opens, Action.closes, Action.ends, Action.handles,
        List.not_mem_nil, if_false, List.mem_singleton]
      split_ifs <;> rfl
  have hbase' : (w.onSession MsQuicSessionImpl.closeHandles).1.base = w.borrowed := by
    unfold Link.onSession MsQuicSessionImpl.closeHandles Link.base MsQuicSessionImpl.ownConnection
      MsQuicSessionImpl.ownConfiguration MsQuicSessionImpl.ownRegistration
    cases w.session.ownsConnection <;> cases w.session.ownsConfiguration <;>
      cases w.session.ownsRegistration <;> rfl
  refine follows_givenUp hv (w.session.ownConnection.toList ++ w.session.ownConfiguration.toList
    ++ w.session.ownRegistration.toList) ?_ rfl rfl ?_ (fun h hin => ?_) (fun h hout => ?_) ?_
  · rw [Link.held, Link.base, Link.held, hbase']
    exact List.perm_append_comm_assoc _ _ _
  · intro h hin
    cases hin
  · refine ⟨[], .closed, by simp, .inl rfl, ?_⟩
    rw [huses]
    rcases List.mem_append.1 hin with hin | hin
    · have hnotReg := fun hin' => hreg hin hin'
      rcases List.mem_append.1 hin with hin | hin
      · rw [if_pos hin, if_neg fun hin' => hconf hin hin', if_neg hnotReg]
        rfl
      · rw [if_neg fun hin' => hconf hin' hin, if_pos hin, if_neg hnotReg]
        rfl
    · rw [if_neg fun hin' => hreg (List.mem_append_left _ hin') hin,
        if_neg fun hin' => hreg (List.mem_append_right _ hin') hin, if_pos hin]
      rfl
  · obtain ⟨hout, hnotReg⟩ := not_or.1 (List.mem_append.not.1 hout)
    obtain ⟨hnotConn, hnotConf⟩ := not_or.1 (List.mem_append.not.1 hout)
    rw [huses, if_neg hnotConn, if_neg hnotConf, if_neg hnotReg]
    rfl
  · unfold Link.onSession MsQuicSessionImpl.closeHandles
    rcases w.session.ownConnection with _ | c <;> rcases w.session.ownConfiguration with _ | c' <;>
      rcases w.session.ownRegistration with _ | c'' <;> rfl

/-- What a session that is closed says to its streams. -/
theorem follows_close (hv : Valid w) :
    Follows w (w.onSession MsQuicSessionImpl.close).1 (w.onSession MsQuicSessionImpl.close).2 := by
  unfold Link.onSession MsQuicSessionImpl.close
  split_ifs with hclosing
  · exact follows_quiet hv rfl rfl rfl rfl (.inl rfl) (by simp) rfl
  · have hstreams : ∀ l : List QuicStream,
        (l.map (·.close.1)).filterMap (·.stream) = l.filterMap (·.stream) := fun l => by
      rw [List.filterMap_map]
      exact congrArg (List.filterMap · l) (funext fun s => shutdown_stream s _)
    have hconn : (if w.session.ownsConnection then w.session.ownConnection else none)
        = w.session.ownConnection := by
      unfold MsQuicSessionImpl.ownConnection
      split_ifs <;> rfl
    refine follows_quiet hv ?_ ?_ rfl rfl ?_ (fun a ha h u hu => ?_) ?_
    · unfold MsQuicSessionImpl.streamHandles
      rw [List.filterMap_append, List.filterMap_append, hstreams, hstreams]
    · exact congrArg (fun c : Option HQUIC => c.toList ++ w.session.ownConfiguration.toList
        ++ w.session.ownRegistration.toList ++ w.borrowed) hconn
    · unfold MsQuicSessionImpl.ownConnection
      split_ifs
      · exact .inl rfl
      · exact .inr rfl
    · rw [List.append_assoc, List.mem_append, List.mem_append, List.mem_flatMap, List.mem_flatMap]
        at ha
      rcases ha with ⟨s, hs, ha⟩ | ⟨s, hs, ha⟩ | ha
      · obtain ⟨hused, hh⟩ := on_shutdown s _ a ha h u hu
        refine ⟨hused, List.mem_append_left _ (List.mem_filterMap.2 ⟨s, ?_, hh⟩)⟩
        exact List.mem_append_left _ hs
      · obtain ⟨hused, hh⟩ := on_shutdown s _ a ha h u hu
        refine ⟨hused, List.mem_append_left _ (List.mem_filterMap.2 ⟨s, ?_, hh⟩)⟩
        exact List.mem_append_right _ hs
      · obtain ⟨c, hc, rfl⟩ := List.mem_map.1 ha
        have hheld : c ∈ w.held := by
          simp [Link.held, Link.base, MsQuicSessionImpl.own, hc]
        simp only [Action.on, Action.opens, Action.closes, Action.ends, Action.handles,
          List.not_mem_nil, if_false, List.mem_singleton] at hu
        split_ifs at hu with heq
        · rw [List.mem_singleton] at hu
          exact ⟨hu, heq ▸ hheld⟩
        · cases hu
    · rw [Action.failed_append, Action.failed_append]
      have hnone : ∀ l : List QuicStream, failed (l.flatMap (·.close.2)) = [] := fun l => by
        unfold Action.failed
        rw [List.flatMap_assoc, List.flatMap_eq_nil_iff]
        exact fun s _ => failed_shutdown s _
      rw [hnone, hnone]
      rcases w.session.ownConnection with _ | c <;> rfl

theorem streamHandles_pushStream (x : MsQuicSessionImpl) (s : QuicStream) :
    (x.pushStream s).streamHandles.Perm (s.stream.toList ++ x.streamHandles) := by
  have hone : [s].filterMap (·.stream) = s.stream.toList := by
    rcases hstream : s.stream with _ | h <;> simp [hstream]
  unfold MsQuicSessionImpl.pushStream MsQuicSessionImpl.streamHandles
  split_ifs
  · rw [← List.append_assoc, List.filterMap_append, hone]
    exact List.perm_append_comm
  · rw [List.append_assoc, List.filterMap_append, List.filterMap_append, hone,
      List.filterMap_append]
    exact List.perm_append_comm_assoc _ _ _

/-- A step with a handle that is new, and held from then on. -/
theorem follows_opened (hv : Valid w) (s : QuicStream) (hstream : s.stream = some w.handles)
    {us : List Use} (hus : ∀ u ∈ us, u = .used)
    (hlog : ∀ h, uses log h = if h = w.handles then .opened :: us else [])
    (hfailed : failed log = []) :
    Follows w { w with handles := w.handles + 1, session := w.session.pushStream s } log := by
  set w' : Link := { w with handles := w.handles + 1, session := w.session.pushStream s } with hw'
  have hbase : w'.base = w.base := by
    rw [hw']
    unfold Link.base MsQuicSessionImpl.pushStream
    split_ifs <;> rfl
  have hheld : w'.held.Perm (w.handles :: w.held) := by
    rw [Link.held, hbase, Link.held, ← List.cons_append]
    have hpush := streamHandles_pushStream w.session s
    rw [hstream] at hpush
    exact hpush.append_right _
  have hnew : w.handles ∉ w.held := fun hin => absurd (hv.lt _ hin) (lt_irrefl _)
  have hnodup : w'.held.Nodup := hheld.nodup_iff.2 (List.nodup_cons.2 ⟨hnew, hv.nodup⟩)
  refine ⟨⟨hnodup, fun h hin => ?_, fun h hin => ?_⟩, Nat.le_succ _, fun _ hin => hin, fun h => ?_,
    fun h hin => ?_⟩
  · rcases List.mem_cons.1 (hheld.mem_iff.1 hin) with rfl | hin
    · exact Nat.lt_succ_self _
    · exact (hv.lt h hin).trans (Nat.lt_succ_self _)
  · rw [hbase]
    refine hv.conn h ?_
    rw [hw', MsQuicSessionImpl.pushStream] at hin
    split_ifs at hin <;> exact hin
  · by_cases heq : h = w.handles
    · refine .opened heq (hheld.mem_iff.2 (heq ▸ List.mem_cons_self)) hus ?_
      rw [hlog, if_pos heq]
    · refine .untouched ?_ (fun hle => Nat.lt_of_le_of_ne hle (Ne.symm heq)) ?_
      · rw [hheld.mem_iff, List.mem_cons, or_iff_right heq]
      · rw [hlog, if_neg heq]
  · rw [hfailed] at hin
    exact absurd hin List.not_mem_nil

theorem follows_openStream (hv : Valid w) (unidirectional : Bool) (a : OpenAnswers) :
    Follows w (w.openStream unidirectional a).1 (w.openStream unidirectional a).2 := by
  unfold Link.openStream
  split_ifs with hready hstart
  · exact follows_quiet hv rfl rfl rfl rfl (.inl rfl) (by simp) rfl
  · have hnew : w.handles ∉ w.held := fun hin => absurd (hv.lt _ hin) (lt_irrefl _)
    refine ⟨⟨hv.nodup, fun h hin => (hv.lt h hin).trans (Nat.lt_succ_self _), hv.conn⟩,
      Nat.le_succ _, fun _ hin => hin, fun h => ?_, fun h hin => ?_⟩
    · by_cases heq : h = w.handles
      · refine .notStarted ?_
        simp [hstart, heq]
      · refine .untouched Iff.rfl (fun hle => Nat.lt_of_le_of_ne hle (Ne.symm heq)) ?_
        simp [QuicStream.destroy, heq]
    · have heq : h = w.handles := by simpa [hstart, QuicStream.destroy] using hin
      refine ⟨heq, heq ▸ Nat.lt_succ_self _, heq ▸ hnew, ?_⟩
      simp [QuicStream.destroy, heq]
  · refine follows_opened hv _ rfl (by simp : ∀ u ∈ [Use.used], u = .used) (fun h => ?_) ?_
    · by_cases heq : h = w.handles <;>
        simp [heq]
    · simp [hstart]

theorem follows_onPeerStreamStarted (hv : Valid w) (unidirectional wrapper : Bool) :
    Follows w (w.onPeerStreamStarted unidirectional wrapper).1
      (w.onPeerStreamStarted unidirectional wrapper).2 := by
  unfold Link.onPeerStreamStarted
  split_ifs with hrefused
  · have hnew : w.handles ∉ w.held := fun hin => absurd (hv.lt _ hin) (lt_irrefl _)
    refine ⟨⟨hv.nodup, fun h hin => (hv.lt h hin).trans (Nat.lt_succ_self _), hv.conn⟩,
      Nat.le_succ _, fun _ hin => hin, fun h => ?_, fun h hin => ?_⟩
    · by_cases heq : h = w.handles
      · refine .refused heq (heq ▸ Nat.lt_succ_self _) (heq ▸ hnew) ?_
        simp [heq]
      · refine .untouched Iff.rfl (fun hle => Nat.lt_of_le_of_ne hle (Ne.symm heq)) ?_
        simp [heq]
    · simp at hin
  · refine follows_opened hv _ rfl (by simp : ∀ u ∈ ([] : List Use), u = .used) (fun h => ?_) rfl
    by_cases heq : h = w.handles <;> simp [heq]

theorem follows_silent (hv : Valid w)
    (hstreams : w'.session.streamHandles = w.session.streamHandles) (hbase : w'.base = w.base)
    (hhandles : w'.handles = w.handles) (hleaked : w'.leaked = w.leaked)
    (hconn : w'.session.conn = w.session.conn) : Follows w w' [] :=
  follows_quiet hv hstreams hbase hhandles hleaked (.inl hconn) (by simp) rfl

theorem follows_idle (hv : Valid w) : Follows w w [] := follows_silent hv rfl rfl rfl rfl rfl

theorem follows_returned (hv : Valid w) (status : UInt32) : Follows w w [.returned status] :=
  follows_quiet hv rfl rfl rfl rfl (.inl rfl) (by simp) rfl

theorem follows_send (hv : Valid w) (unidirectional : Bool) (i : ℕ) (bytes : List UInt8)
    (a : SendAnswers) :
    Follows w (w.send unidirectional i bytes a).1 (w.send unidirectional i bytes a).2 := by
  unfold Link.send
  split
  · exact follows_idle hv
  · rename_i s hs
    split
    · exact follows_returned hv _
    · rename_i c hc
      have hheld : c ∈ w.held := mem_held_of_stream hs hc
      split_ifs
      · exact follows_returned hv _
      · exact follows_returned hv _
      · exact follows_returned hv _
      · unfold Link.sendOn
        split_ifs with hfail huni
        · exact follows_quiet hv rfl rfl rfl rfl (.inl rfl) (by simp [hheld]) rfl
        · refine follows_quiet hv (streamHandles_setStream hs ?_) (base_setStream _ _ _) rfl rfl
            (.inl (conn_setStream _ _ _ _)) (by simp [hheld]) rfl
          rfl
        · exact follows_quiet hv rfl rfl rfl rfl (.inl rfl) (by simp [hheld]) rfl

theorem follows_sendDatagram (hv : Valid w) (bytes : List UInt8) (a : SendAnswers) :
    Follows w (w.sendDatagram bytes a).1 (w.sendDatagram bytes a).2 := by
  have hheld : ∀ h, w.session.conn = some h → h ∈ w.held := fun h hconn =>
    List.mem_append_right _ (hv.conn h hconn)
  unfold Link.sendDatagram
  split_ifs
  · exact follows_returned hv _
  · exact follows_returned hv _
  · exact follows_returned hv _
  · exact follows_returned hv _
  · refine follows_quiet hv rfl rfl rfl rfl (.inl rfl) ?_ rfl
    simpa using hheld
  · refine follows_quiet hv rfl rfl rfl rfl (.inl rfl) ?_ rfl
    simpa using hheld

theorem follows_onReceive (hv : Valid w) (i : ℕ) (bytes : List UInt8) (a : SendAnswers) :
    Follows w (w.onReceive i bytes a).1 (w.onReceive i bytes a).2 := by
  unfold Link.onReceive
  split
  · exact follows_idle hv
  · split_ifs
    · exact follows_idle hv
    · exact follows_send hv _ _ _ _

/-- What a session that goes away has open is leaked. -/
theorem follows_forget (hv : Valid w) : Follows w w.forget [] := by
  have hbase : w.forget.base = w.borrowed := by
    unfold Link.forget Link.base MsQuicSessionImpl.gone MsQuicSessionImpl.own
      MsQuicSessionImpl.ownConnection MsQuicSessionImpl.ownConfiguration
      MsQuicSessionImpl.ownRegistration
    simp
  have hheld : w.held.Perm (w.session.own ++ w.forget.held) := by
    rw [Link.held, Link.base, Link.held, hbase]
    exact List.perm_append_comm_assoc _ _ _
  obtain ⟨-, hnodup, hdisjoint⟩ := List.nodup_append'.1 (hheld.nodup_iff.1 hv.nodup)
  have hmem : ∀ h, h ∈ w.held ↔ h ∈ w.session.own ∨ h ∈ w.forget.held := fun h => by
    rw [hheld.mem_iff, List.mem_append]
  refine ⟨⟨hnodup, fun h hin => hv.lt h ((hmem h).2 (.inr hin)), fun h hin => by cases hin⟩, le_rfl,
    fun h hin => List.mem_append_left _ hin, fun h => ?_, fun h hin => absurd hin List.not_mem_nil⟩
  by_cases hown : h ∈ w.session.own
  · exact .leaked ((hmem h).2 (.inl hown)) (hdisjoint hown) (List.mem_append_right _ hown) rfl
  · refine .untouched ?_ id rfl
    rw [hmem, or_iff_right hown]

/-- The step of two steps that follow each other. -/
theorem Accounted.step₂ {w'' : Link} {log' : List Action} (hv : Valid w) (hf : Follows w w' log)
    (hf' : Valid w' → Follows w' w'' log') (hacc : ∀ h, Accounted w out h) :
    Valid w'' ∧ ∀ h, Accounted w'' (out ++ (log ++ log')) h := by
  have hf'' := hf' hf.valid
  refine ⟨hf''.valid, fun h => ?_⟩
  rw [← List.append_assoc]
  exact ((hacc h).step hv hf).step hf.valid hf''

theorem accounted_report (hv : Valid w) (r : Report) (hacc : ∀ h, Accounted w out h) :
    Valid (w.report r).1 ∧ ∀ h, Accounted (w.report r).1 (out ++ (w.report r).2) h := by
  have hone : ∀ {w' : Link} {log : List Action}, Follows w w' log →
      Valid w' ∧ ∀ h, Accounted w' (out ++ log) h := fun hf =>
    ⟨hf.valid, fun h => (hacc h).step hv hf⟩
  cases r with
  | connected => exact hone (follows_silent hv rfl rfl rfl rfl rfl)
  | shutdownInitiatedByTransport => exact hone (follows_silent hv rfl rfl rfl rfl rfl)
  | shutdownInitiatedByPeer => exact hone (follows_silent hv rfl rfl rfl rfl rfl)
  | shutdownComplete =>
    let w₁ : Link := { w with session := { w.session with state := .closed } }
    have hv₁ : Valid w₁ := ⟨hv.nodup, hv.lt, hv.conn⟩
    obtain ⟨hv', hacc'⟩ := Accounted.step₂ hv₁ (follows_clear hv₁) follows_closeHandles hacc
    exact ⟨⟨hv'.nodup, hv'.lt, hv'.conn⟩, hacc'⟩
  | peerStreamStarted unidirectional wrapper => exact hone (follows_onPeerStreamStarted hv _ _)
  | datagramStateChanged sendEnabled maxSendLength =>
    exact hone (follows_silent hv rfl rfl rfl rfl rfl)
  | receive i bytes a => exact hone (follows_onReceive hv _ _ _)
  | peerAborted unidirectional i =>
    refine hone (follows_onStream hv (fun s => ?_) (by simp) fun _ => rfl)
    unfold QuicStream.onPeerAborted
    split_ifs <;> rfl
  | streamShutdownComplete unidirectional i => exact hone (follows_onStreamClosed hv)

theorem accounted_step (hv : Valid w) (e : Event) (hacc : ∀ h, Accounted w out h) :
    Valid (w.step e).1 ∧ ∀ h, Accounted (w.step e).1 (out ++ (w.step e).2) h := by
  have hone : ∀ {w' : Link} {log : List Action}, Follows w w' log →
      Valid w' ∧ ∀ h, Accounted w' (out ++ log) h := fun hf =>
    ⟨hf.valid, fun h => (hacc h).step hv hf⟩
  cases e with
  | openStream unidirectional a => exact hone (follows_openStream hv _ _)
  | send unidirectional i bytes a => exact hone (follows_send hv _ _ _ _)
  | closeStream unidirectional i =>
    exact hone (follows_onStream hv (fun s => shutdown_stream s _) (fun s => on_shutdown s _)
      fun s => failed_shutdown s _)
  | resetStream unidirectional i =>
    exact hone (follows_onStream hv (fun s => shutdown_stream s _) (fun s => on_shutdown s _)
      fun s => failed_shutdown s _)
  | setOnData i => exact hone (follows_onStream hv (fun _ => rfl) (by simp) fun _ => rfl)
  | setOnPeerStream set => exact hone (follows_silent hv rfl rfl rfl rfl rfl)
  | seedDatagramState sendEnabled maxSendLength known =>
    cases known <;> exact hone (follows_silent hv rfl rfl rfl rfl rfl)
  | sendDatagram bytes a => exact hone (follows_sendDatagram hv _ _)
  | close => exact hone (follows_close hv)
  | destroy =>
    obtain ⟨hv', hacc'⟩ := Accounted.step₂ hv (follows_close hv) follows_clear hacc
    have hforget := follows_forget hv'
    refine ⟨hforget.valid, fun h => ?_⟩
    have hlast := (hacc' h).step hv' hforget
    rwa [List.append_nil] at hlast
  | sendComplete k =>
    unfold Link.step
    dsimp only
    split
    · exact hone (follows_idle hv)
    · exact hone (follows_quiet hv rfl rfl rfl rfl (.inl rfl) (by simp) rfl)
  | datagramSendStateChanged k isFinal =>
    unfold Link.step
    dsimp only
    split
    · exact hone (follows_idle hv)
    · split_ifs
      · exact hone (follows_quiet hv rfl rfl rfl rfl (.inl rfl) (by simp) rfl)
      · exact hone (follows_idle hv)
  | report r =>
    unfold Link.step
    dsimp only
    split_ifs
    · exact hone (follows_idle hv)
    · exact accounted_report hv r hacc

/-! ### A run -/

theorem accounted_start (hhandles : w.handles = 3) (hheld : w.held.Perm [0, 1, 2])
    (hfailed : failed log = []) (hopened : ∀ h < 3, Held (uses log h))
    (hrest : ∀ h : ℕ, uses log (h + 3) = []) (h : HQUIC) : Accounted w log h := by
  rw [Accounted, if_neg (by simp [hfailed]), hhandles]
  rcases h with _ | _ | _ | h
  · exact .inr (.inl ⟨by simp [hheld.mem_iff], hopened 0 (by decide)⟩)
  · exact .inr (.inl ⟨by simp [hheld.mem_iff], hopened 1 (by decide)⟩)
  · exact .inr (.inl ⟨by simp [hheld.mem_iff], hopened 2 (by decide)⟩)
  · exact .inl ⟨Nat.le_add_left 3 h, hrest h⟩

theorem started_accounted (hstart : Started w log) : Valid w ∧ ∀ h, Accounted w log h := by
  rcases hstart with ⟨apiOk, a, hconnect⟩ | haccept
  · unfold connect at hconnect
    split_ifs at hconnect <;> simp only [Prod.mk.injEq, reduceCtorEq, false_and] at hconnect
    obtain ⟨hw, rfl⟩ := hconnect
    obtain rfl := Except.ok.inj hw
    refine ⟨⟨by decide, by decide, by decide⟩,
      accounted_start rfl (by decide) rfl (fun h hlt => ?_) fun h => by simp⟩
    rcases h with _ | _ | _ | h
    · exact ⟨2, rfl⟩
    · exact ⟨2, rfl⟩
    · exact ⟨2, rfl⟩
    · exact absurd hlt (Nat.not_lt.2 (Nat.le_add_left 3 h))
  · obtain ⟨rfl, rfl⟩ := Prod.mk.inj haccept
    refine ⟨⟨by decide, by decide, by decide⟩,
      accounted_start rfl (by decide) rfl (fun h hlt => ?_) fun h => by simp⟩
    rcases h with _ | _ | _ | h
    · exact ⟨1, rfl⟩
    · exact ⟨1, rfl⟩
    · exact ⟨1, rfl⟩
    · exact absurd hlt (Nat.not_lt.2 (Nat.le_add_left 3 h))

theorem started_open (hstart : Started w log) : w.leaked = [] ∧ w.finished = false := by
  rcases hstart with ⟨apiOk, a, hconnect⟩ | haccept
  · unfold connect at hconnect
    split_ifs at hconnect <;> simp only [Prod.mk.injEq, reduceCtorEq, false_and] at hconnect
    obtain ⟨hw, -⟩ := hconnect
    obtain rfl := Except.ok.inj hw
    exact ⟨rfl, rfl⟩
  · obtain ⟨rfl, -⟩ := Prod.mk.inj haccept
    exact ⟨rfl, rfl⟩

/-- A client that does not come up has closed what it opened. -/
theorem connect_error {apiOk : Bool} {a : ConnectAnswers} {e : RuntimeError}
    (hconnect : connect apiOk a = (.error e, log)) (h : HQUIC) :
    uses log h = [] ∨ GivenUp .closed (uses log h) := by
  unfold connect at hconnect
  split_ifs at hconnect <;> simp only [Prod.mk.injEq, reduceCtorEq, false_and] at hconnect <;>
    obtain ⟨-, rfl⟩ := hconnect
  all_goals rcases h with _ | _ | _ | h
  all_goals
    first
    | exact .inr ⟨0, rfl⟩
    | exact .inr ⟨1, rfl⟩
    | exact .inr ⟨2, rfl⟩
    | exact .inl rfl

/-! ### What is leaked -/

/-- What the session opened itself, what it left open, and whether it has come to its end. -/
def Link.fate (w : Link) : List HQUIC × List HQUIC × Bool := (w.session.own, w.leaked, w.finished)

/-- The session comes to its end. -/
def Event.isLast : Event → Prop
  | .destroy => True
  | .report r => r = .shutdownComplete
  | _ => False

theorem fate_setStream (unidirectional : Bool) (i : ℕ) (s : QuicStream) :
    { w with session := w.session.setStream unidirectional i s }.fate = w.fate := by
  cases unidirectional <;> rfl

theorem fate_onStream (unidirectional : Bool) (i : ℕ) (f : QuicStream → QuicStream × List Action) :
    (w.onStream unidirectional i f).1.fate = w.fate := by
  unfold Link.onStream
  split
  · rfl
  · exact fate_setStream _ _ _

theorem own_pushStream (x : MsQuicSessionImpl) (s : QuicStream) : (x.pushStream s).own = x.own := by
  unfold MsQuicSessionImpl.pushStream
  split_ifs <;> rfl

theorem own_close (x : MsQuicSessionImpl) : x.close.1.own = x.own := by
  unfold MsQuicSessionImpl.close
  split_ifs
  · rfl
  · unfold MsQuicSessionImpl.own MsQuicSessionImpl.ownConnection
    cases x.ownsConnection <;> rfl

theorem own_gone (x : MsQuicSessionImpl) : x.gone.own = [] := by
  unfold MsQuicSessionImpl.gone MsQuicSessionImpl.own MsQuicSessionImpl.ownConnection
    MsQuicSessionImpl.ownConfiguration MsQuicSessionImpl.ownRegistration
  simp

theorem own_closeHandles (x : MsQuicSessionImpl) : x.closeHandles.1.own = [] := by
  unfold MsQuicSessionImpl.closeHandles MsQuicSessionImpl.own MsQuicSessionImpl.ownConnection
    MsQuicSessionImpl.ownConfiguration MsQuicSessionImpl.ownRegistration
  cases x.ownsConfiguration <;> cases x.ownsRegistration <;> simp

theorem fate_openStream (unidirectional : Bool) (a : OpenAnswers) :
    (w.openStream unidirectional a).1.fate = w.fate := by
  unfold Link.openStream
  split_ifs
  · rfl
  · rfl
  · exact congrArg (·, w.leaked, w.finished) (own_pushStream _ _)

theorem fate_send (unidirectional : Bool) (i : ℕ) (bytes : List UInt8) (a : SendAnswers) :
    (w.send unidirectional i bytes a).1.fate = w.fate := by
  unfold Link.send
  split
  · rfl
  · split
    · rfl
    · split_ifs
      · rfl
      · rfl
      · rfl
      · unfold Link.sendOn
        split_ifs
        · rfl
        · exact fate_setStream _ _ _
        · rfl

theorem fate_sendDatagram (bytes : List UInt8) (a : SendAnswers) :
    (w.sendDatagram bytes a).1.fate = w.fate := by
  unfold Link.sendDatagram
  split_ifs <;> rfl

theorem fate_report {r : Report} (hlast : r ≠ .shutdownComplete) : (w.report r).1.fate = w.fate := by
  cases r with
  | connected => rfl
  | shutdownInitiatedByTransport => rfl
  | shutdownInitiatedByPeer => rfl
  | shutdownComplete => exact absurd rfl hlast
  | peerStreamStarted unidirectional wrapper =>
    unfold Link.report Link.onPeerStreamStarted
    dsimp only
    split_ifs
    · rfl
    · exact congrArg (·, w.leaked, w.finished) (own_pushStream _ _)
  | datagramStateChanged sendEnabled maxSendLength => rfl
  | receive i bytes a =>
    unfold Link.report Link.onReceive
    dsimp only
    split
    · rfl
    · split_ifs
      · rfl
      · exact fate_send _ _ _ _
  | peerAborted unidirectional i => exact fate_onStream _ _ _
  | streamShutdownComplete unidirectional i => exact fate_onStream _ _ _

theorem fate_step {e : Event} (hlast : ¬ e.isLast) : (w.step e).1.fate = w.fate := by
  cases e with
  | openStream unidirectional a => exact fate_openStream _ _
  | send unidirectional i bytes a => exact fate_send _ _ _ _
  | closeStream unidirectional i => exact fate_onStream _ _ _
  | resetStream unidirectional i => exact fate_onStream _ _ _
  | setOnData i => exact fate_onStream _ _ _
  | setOnPeerStream set => rfl
  | seedDatagramState sendEnabled maxSendLength known => cases known <;> rfl
  | sendDatagram bytes a => exact fate_sendDatagram _ _
  | close => exact congrArg (·, w.leaked, w.finished) (own_close w.session)
  | destroy => exact absurd trivial hlast
  | sendComplete k =>
    unfold Link.step
    dsimp only
    split <;> rfl
  | datagramSendStateChanged k isFinal =>
    unfold Link.step
    dsimp only
    split
    · rfl
    · split_ifs <;> rfl
  | report r =>
    unfold Link.step
    dsimp only
    split_ifs
    · rfl
    · exact fate_report hlast

theorem fate_destroy : w.destroy.1.fate = ([], w.leaked ++ w.session.own, true) := by
  have hown : (w.onSession MsQuicSessionImpl.close).1.session.own = w.session.own := own_close _
  have hclear : ((w.onSession MsQuicSessionImpl.close).1.onSession
      MsQuicSessionImpl.clear).1.session.own = w.session.own := hown
  unfold Link.destroy Link.forget Link.fate
  simp only [own_gone, hclear]
  rfl

theorem fate_onShutdownComplete : w.onShutdownComplete.1.fate = ([], w.leaked, true) :=
  congrArg (·, w.leaked, true) (own_closeHandles _)

/-- Once the session has come to its end, nothing is leaked any more. -/
theorem leaked_finished : ∀ (es : List Event) {w : Link}, w.session.own = [] → w.finished = true →
    (Link.machine.exec w es).1.leaked = w.leaked
  | [], _, _, _ => rfl
  | e :: es, w, hown, hfinished => by
    have hfate : (w.step e).1.fate = w.fate := by
      by_cases hlast : e.isLast
      · cases e with
        | destroy =>
          refine fate_destroy.trans ?_
          rw [Link.fate, hown, hfinished, List.append_nil]
        | report r =>
          unfold Link.step
          dsimp only
          rw [if_pos hfinished]
        | _ => exact hlast.elim
      · exact fate_step hlast
    simp only [Link.fate, Prod.mk.injEq] at hfate
    rw [Machine.exec_cons]
    exact (leaked_finished es (hfate.1.trans hown) (hfate.2.2.trans hfinished)).trans hfate.2.1

theorem leaked_run : ∀ (es : List Event) {w : Link}, w.leaked = [] → w.finished = false →
    (Link.machine.exec w es).1.leaked = if destroyedFirst es then w.session.own else []
  | [], _, hleaked, _ => hleaked
  | e :: es, w, hleaked, hfinished => by
    rw [Machine.exec_cons]
    show (Link.machine.exec (w.step e).1 es).1.leaked = _
    by_cases hlast : e.isLast
    · -- what is leaked is settled by this event
      cases e with
      | destroy =>
        have hfate := fate_destroy (w := w)
        simp only [Link.fate, Prod.mk.injEq] at hfate
        refine (leaked_finished es hfate.1 hfate.2.2).trans (hfate.2.1.trans ?_)
        rw [hleaked, destroyedFirst]
        rfl
      | report r =>
        obtain rfl : r = .shutdownComplete := hlast
        have hstep : (w.step (.report .shutdownComplete)).1 = w.onShutdownComplete.1 := by
          unfold Link.step
          dsimp only
          rw [hfinished]
          rfl
        have hfate := fate_onShutdownComplete (w := w)
        simp only [Link.fate, Prod.mk.injEq] at hfate
        rw [hstep, destroyedFirst]
        exact (leaked_finished es hfate.1 hfate.2.2).trans (hfate.2.1.trans hleaked)
      | _ => exact hlast.elim
    · have hfate := fate_step (w := w) hlast
      simp only [Link.fate, Prod.mk.injEq] at hfate
      have hfirst : destroyedFirst (e :: es) = destroyedFirst es :=
        destroyedFirst.eq_4 e es (fun heq => hlast (heq ▸ trivial)) fun heq =>
          hlast (show e.isLast from heq ▸ rfl)
      rw [leaked_run es (hfate.2.1.trans hleaked) (hfate.2.2.trans hfinished), hfate.1, hfirst]

/-- In every run of a session, a handle is opened, then used, and closed once after that, unless the
session still holds it or msquic was done with its stream before it was closed. A stream that does
not start is closed twice. What the session opened for its connection stays open exactly when the
session is destroyed before the connection has come to its end. -/
theorem session_handles (hstart : Started w log) (es : List Event) (h : HQUIC) :
    Accounted (Link.machine.exec w es).1 (log ++ (Link.machine.exec w es).2) h
      ∧ (Link.machine.exec w es).1.leaked = if destroyedFirst es then w.session.own else [] := by
  obtain ⟨hv, hacc⟩ := started_accounted hstart
  obtain ⟨hleaked, hfinished⟩ := started_open hstart
  have hstep : ∀ w out e, (Valid w ∧ ∀ h, Accounted w out h) → True →
      Valid (Link.machine.step w e).1
        ∧ ∀ h, Accounted (Link.machine.step w e).1 (out ++ (Link.machine.step w e).2) h :=
    fun _ _ e hinv _ => accounted_step hinv.1 e hinv.2
  exact ⟨(Machine.exec_history hstep es ⟨hv, hacc⟩ Machine.meets_true).2 h,
    leaked_run es hleaked hfinished⟩

/-- A stream of a server that does not start, and a client that is destroyed while it is connected. -/
theorem session_handles_exceptions :
    Accounted (Link.machine.exec accept.1 [.openStream false ⟨true, true, .other 1⟩]).1
        (accept.2 ++ (Link.machine.exec accept.1 [.openStream false ⟨true, true, .other 1⟩]).2) 3
      ∧ ∃ client log, connect true {} = (.ok client, log)
        ∧ (Link.machine.exec client [.report .connected, .destroy]).1.leaked = [2, 1, 0] :=
  ⟨(session_handles (.inr rfl) [.openStream false ⟨true, true, .other 1⟩] 3).1, _, _, rfl,
    (session_handles (.inl ⟨true, {}, rfl⟩) [.report .connected, .destroy] 2).2⟩

end NimRtc.MsQuic

/-!
## Every payload is released once

The payloads of a session, by number: those that were released and those that msquic still has.
-/

namespace NimRtc.MsQuic

namespace Action

variable (a : Action) (out out' : List Action)

@[simp] theorem released_nil : released [] = [] := rfl

@[simp] theorem released_cons : released (a :: out) = a.releases ++ released out := rfl

@[simp] theorem released_append : released (out ++ out') = released out ++ released out' :=
  List.flatMap_append

end Action

open MsQuic.Action (released)

attribute [local simp] Action.releases

variable {w w' : Link} {out log : List Action}

theorem Released.same (hrel : Released w out) (hsends : w'.sends = w.sends)
    (hdatagrams : w'.datagrams = w.datagrams) (hpayloads : w'.payloads = w.payloads)
    (hlog : released log = []) : Released w' (out ++ log) := by
  rw [Released, Action.released_append, hlog, List.append_nil, hsends, hdatagrams, hpayloads]
  exact hrel

/-- One more payload, which is released at once or goes to msquic. -/
theorem Released.more (hrel : Released w out) (hpayloads : w'.payloads = w.payloads + 1)
    (hone : (released log ++ (w'.sends ++ w'.datagrams)).Perm
      (w.payloads :: (w.sends ++ w.datagrams))) : Released w' (out ++ log) := by
  rw [Released, Action.released_append, hpayloads, List.range_succ, List.append_assoc]
  have hmove : (w.payloads :: (w.sends ++ w.datagrams)).Perm
      ((w.sends ++ w.datagrams) ++ [w.payloads]) := (List.perm_append_singleton _ _).symm
  rw [Released] at hrel
  have hassoc : (released out ++ (w.sends ++ w.datagrams ++ [w.payloads])).Perm
      (released out ++ (w.sends ++ w.datagrams) ++ [w.payloads]) :=
    .of_eq (List.append_assoc _ _ _).symm
  exact (((hone.trans hmove).append_left _).trans hassoc).trans (hrel.append_right _)

theorem released_map_none {l : List QuicStream} {f : QuicStream → List Action}
    (hf : ∀ s, released (f s) = []) : released (l.flatMap f) = [] := by
  rw [Action.released, List.flatMap_assoc, List.flatMap_eq_nil_iff]
  exact fun s _ => hf s

theorem released_shutdown (s : QuicStream) (flags : List ShutdownFlag) :
    released (s.shutdown flags).2 = [] := by
  unfold QuicStream.shutdown
  split
  · rfl
  · split_ifs <;> rfl

theorem released_destroy (s : QuicStream) : released s.destroy = [] := by
  unfold QuicStream.destroy
  split
  · rfl
  · split_ifs <;> rfl

theorem released_map_toList {f : HQUIC → Action} (hf : ∀ h, (f h).releases = [])
    (c : Option HQUIC) : released (c.toList.map f) = [] := by
  rcases c with _ | c
  · rfl
  · exact (List.append_nil _).trans (hf c)

theorem released_sessionClose (x : MsQuicSessionImpl) : released x.close.2 = [] := by
  unfold MsQuicSessionImpl.close
  split_ifs
  · rfl
  · have hclose : ∀ s : QuicStream, released s.close.2 = [] := fun s => released_shutdown s _
    rw [Action.released_append, Action.released_append, released_map_none hclose,
      released_map_none hclose, released_map_toList fun _ => rfl]
    rfl

theorem released_clear (x : MsQuicSessionImpl) : released x.clear.2 = [] := by
  rw [MsQuicSessionImpl.clear, Action.released_append, released_map_none released_destroy,
    released_map_none released_destroy]
  rfl

theorem released_closeHandles (x : MsQuicSessionImpl) : released x.closeHandles.2 = [] := by
  rw [MsQuicSessionImpl.closeHandles, Action.released_append, Action.released_append,
    released_map_toList fun _ => rfl, released_map_toList fun _ => rfl,
    released_map_toList fun _ => rfl]
  rfl

theorem Released.onStream {unidirectional : Bool} {i : ℕ}
    {f : QuicStream → QuicStream × List Action} (hrel : Released w out)
    (hf : ∀ s, released (f s).2 = []) :
    Released (w.onStream unidirectional i f).1 (out ++ (w.onStream unidirectional i f).2) := by
  unfold Link.onStream
  split
  · exact hrel.same rfl rfl rfl rfl
  · exact hrel.same rfl rfl rfl (hf _)

theorem Released.send (hrel : Released w out) (unidirectional : Bool) (i : ℕ) (bytes : List UInt8)
    (a : SendAnswers) : Released (w.send unidirectional i bytes a).1
      (out ++ (w.send unidirectional i bytes a).2) := by
  unfold Link.send
  split
  · exact hrel.same rfl rfl rfl rfl
  · split
    · exact hrel.same rfl rfl rfl rfl
    · split_ifs
      · exact hrel.same rfl rfl rfl rfl
      · exact hrel.same rfl rfl rfl rfl
      · exact hrel.same rfl rfl rfl rfl
      · unfold Link.sendOn
        split_ifs
        · exact hrel.more rfl (.refl _)
        · exact hrel.more rfl (by simp)
        · exact hrel.more rfl (by simp)

theorem Released.sendDatagram (hrel : Released w out) (bytes : List UInt8) (a : SendAnswers) :
    Released (w.sendDatagram bytes a).1 (out ++ (w.sendDatagram bytes a).2) := by
  unfold Link.sendDatagram
  split_ifs
  · exact hrel.same rfl rfl rfl rfl
  · exact hrel.same rfl rfl rfl rfl
  · exact hrel.same rfl rfl rfl rfl
  · exact hrel.same rfl rfl rfl rfl
  · exact hrel.more rfl (by simp)
  · have hlast := List.perm_append_singleton w.payloads (w.sends ++ w.datagrams)
    rw [List.append_assoc] at hlast
    exact hrel.more rfl hlast

/-- A payload that msquic has done with. -/
theorem Released.done {payload : ℕ} (hrel : Released w out) (hlog : released log = [payload])
    (hpayloads : w'.payloads = w.payloads)
    (hone : (payload :: (w'.sends ++ w'.datagrams)).Perm (w.sends ++ w.datagrams)) :
    Released w' (out ++ log) := by
  rw [Released, Action.released_append, hlog, hpayloads, List.append_assoc]
  exact (hone.append_left _).trans hrel

theorem Released.report (hrel : Released w out) (r : Report) :
    Released (w.report r).1 (out ++ (w.report r).2) := by
  cases r with
  | connected => exact hrel.same rfl rfl rfl rfl
  | shutdownInitiatedByTransport => exact hrel.same rfl rfl rfl rfl
  | shutdownInitiatedByPeer => exact hrel.same rfl rfl rfl rfl
  | shutdownComplete =>
    exact hrel.same rfl rfl rfl ((Action.released_append _ _).trans
      (List.append_eq_nil_iff.2 ⟨released_clear _, released_closeHandles _⟩))
  | peerStreamStarted unidirectional wrapper =>
    unfold Link.report Link.onPeerStreamStarted
    dsimp only
    split_ifs <;> exact hrel.same rfl rfl rfl rfl
  | datagramStateChanged sendEnabled maxSendLength => exact hrel.same rfl rfl rfl rfl
  | receive i bytes a =>
    unfold Link.report Link.onReceive
    dsimp only
    split
    · exact hrel.same rfl rfl rfl rfl
    · split_ifs
      · exact hrel.same rfl rfl rfl rfl
      · exact hrel.send _ _ _ _
  | peerAborted unidirectional i => exact hrel.onStream fun _ => rfl
  | streamShutdownComplete unidirectional i =>
    exact hrel.onStream fun s => released_map_toList (fun _ => rfl) s.stream

theorem Released.step (hrel : Released w out) (e : Event) :
    Released (w.step e).1 (out ++ (w.step e).2) := by
  cases e with
  | openStream unidirectional a =>
    unfold Link.step Link.openStream
    dsimp only
    split_ifs <;> exact hrel.same rfl rfl rfl rfl
  | send unidirectional i bytes a => exact hrel.send _ _ _ _
  | closeStream unidirectional i => exact hrel.onStream fun s => released_shutdown s _
  | resetStream unidirectional i => exact hrel.onStream fun s => released_shutdown s _
  | setOnData i => exact hrel.onStream fun _ => rfl
  | setOnPeerStream set => exact hrel.same rfl rfl rfl rfl
  | seedDatagramState sendEnabled maxSendLength known => exact hrel.same rfl rfl rfl rfl
  | sendDatagram bytes a => exact hrel.sendDatagram _ _
  | close => exact hrel.same rfl rfl rfl (released_sessionClose _)
  | destroy =>
    exact hrel.same rfl rfl rfl ((Action.released_append _ _).trans
      (List.append_eq_nil_iff.2 ⟨released_sessionClose _, released_clear _⟩))
  | sendComplete k =>
    unfold Link.step
    dsimp only
    split
    · exact hrel.same rfl rfl rfl rfl
    · rename_i payload hget
      obtain ⟨hlt, hget⟩ := List.getElem?_eq_some_iff.1 hget
      refine hrel.done rfl rfl ?_
      rw [← List.cons_append, ← hget]
      exact (List.getElem_cons_eraseIdx_perm hlt).append_right _
  | datagramSendStateChanged k isFinal =>
    unfold Link.step
    dsimp only
    split
    · exact hrel.same rfl rfl rfl rfl
    · rename_i payload hget
      obtain ⟨hlt, hget⟩ := List.getElem?_eq_some_iff.1 hget
      split_ifs
      · refine hrel.done rfl rfl (List.perm_middle.symm.trans ?_)
        rw [← hget]
        exact (List.getElem_cons_eraseIdx_perm hlt).append_left _
      · exact hrel.same rfl rfl rfl rfl
  | report r =>
    unfold Link.step
    dsimp only
    split_ifs
    · exact hrel.same rfl rfl rfl rfl
    · exact hrel.report r

theorem started_released (hstart : Started w log) : Released w log := by
  rcases hstart with ⟨apiOk, a, hconnect⟩ | haccept
  · unfold connect at hconnect
    split_ifs at hconnect <;> simp only [Prod.mk.injEq, reduceCtorEq, false_and] at hconnect
    obtain ⟨hw, rfl⟩ := hconnect
    obtain rfl := Except.ok.inj hw
    exact .refl _
  · obtain ⟨rfl, rfl⟩ := Prod.mk.inj haccept
    exact .refl _

/-- In every run of a session, each payload that it made was released once, or msquic still has it
and it was not released. -/
theorem session_payloads (hstart : Started w log) (es : List Event) :
    Released (Link.machine.exec w es).1 (log ++ (Link.machine.exec w es).2) :=
  Machine.exec_history (fun _ _ e hrel _ => hrel.step e) es (started_released hstart)
    Machine.meets_true

/-- A datagram that is rejected, and another that msquic sends. -/
theorem session_payloads_datagrams :
    Released (Link.machine.exec accept.1 [.sendDatagram [1] { rc := .invalidState },
        .sendDatagram [2] {}, .datagramSendStateChanged 0 true]).1
      (accept.2 ++ (Link.machine.exec accept.1 [.sendDatagram [1] { rc := .invalidState },
        .sendDatagram [2] {}, .datagramSendStateChanged 0 true]).2) :=
  session_payloads (.inr rfl) [.sendDatagram [1] { rc := .invalidState }, .sendDatagram [2] {},
    .datagramSendStateChanged 0 true]

end NimRtc.MsQuic
