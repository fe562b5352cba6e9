import NimRtc.Lib.History
import NimRtc.WebTransportListener

/-!
# No connection of a listener is left open

What one step does with one handle, from which follows what a run does with it. `stop` closes every
handle that is still open once, and every connection that msquic did not give the configuration for
the second time.
-/

namespace NimRtc.MsQuic

open Custody (Use Held GivenUp)

namespace Server

variable {w w' : Server} {log : List ListenerAction} {h : HQUIC} {us : List Use}

@[simp] theorem listenerUses_nil : listenerUses [] h = [] := rfl

@[simp] theorem listenerUses_cons (a : ListenerAction) :
    listenerUses (a :: log) h = a.on h ++ listenerUses log h := rfl

@[simp] theorem listenerUses_append (log' : List ListenerAction) :
    listenerUses (log ++ log') h = listenerUses log h ++ listenerUses log' h :=
  List.flatMap_append

attribute [local simp] ListenerAction.on Action.on Action.opens Action.closes Action.ends
  Action.handles

/-- The handles of a server are different and not new, and a connection that was refused is still among
those that `stop` closes. -/
structure Valid (w : Server) : Prop where
  nodup : (w.streams.map (·.1) ++ w.closing).Nodup
  lt : ∀ h ∈ w.streams.map (·.1) ++ w.closing, h < w.handles
  refused : ∀ h ∈ w.refused, h < w.handles ∧ h ∉ w.streams.map (·.1)
    ∧ (w.impl.stopped = false → h ∈ w.impl.connections)
  stopped : w.impl.stopped = true → w.closing = []

theorem mem_held : h ∈ w.held ↔ h ∈ w.streams.map (·.1) ∨ h ∈ w.closing ∧ h ∉ w.refused := by
  rw [held, List.mem_append, List.mem_filter, decide_eq_true_eq]

theorem Valid.held_lt (hv : Valid w) (hheld : h ∈ w.held) : h < w.handles := by
  rw [mem_held] at hheld
  exact hv.lt h (List.mem_append.2 (hheld.imp_right And.left))

theorem Valid.not_refused (hv : Valid w) (hheld : h ∈ w.held) : h ∉ w.refused := by
  intro hrefused
  rcases mem_held.1 hheld with hstream | hclosing
  · exact (hv.refused h hrefused).2.1 hstream
  · exact hclosing.2 hrefused

theorem Accounted.fresh (hv : Valid w) (hacc : w.Accounted us h) (hnew : w.handles ≤ h) :
    h ∉ w.refused ∧ us = [] := by
  have hrefused : h ∉ w.refused := fun hin => ((hv.refused h hin).1).not_ge hnew
  rw [Accounted, if_neg hrefused] at hacc
  rcases hacc with hnone | ⟨hheld, -⟩ | ⟨hlt, -⟩
  · exact ⟨hrefused, hnone.2⟩
  · exact absurd (hv.held_lt hheld) hnew.not_gt
  · exact absurd hlt hnew.not_gt

theorem Accounted.open (hv : Valid w) (hacc : w.Accounted us h) (hheld : h ∈ w.held) : Held us := by
  rw [Accounted, if_neg (hv.not_refused hheld)] at hacc
  rcases hacc with ⟨hnew, -⟩ | ⟨-, hopen⟩ | ⟨-, hnot, -⟩
  · exact absurd (hv.held_lt hheld) hnew.not_gt
  · exact hopen
  · exact absurd hheld hnot

/-- A step that does nothing with a handle. -/
theorem Accounted.untouched (hacc : w.Accounted us h) (hrefused : h ∈ w'.refused ↔ h ∈ w.refused)
    (hstopped : w'.impl.stopped = w.impl.stopped) (hheld : h ∈ w'.held ↔ h ∈ w.held)
    (hle : w.handles ≤ w'.handles) (hnew : w.handles ≤ h → w'.handles ≤ h) : w'.Accounted us h := by
  unfold Accounted at hacc ⊢
  simp only [hrefused, hstopped, hheld]
  split_ifs at hacc ⊢ with hin hstop
  · exact hacc
  · exact hacc
  · rcases hacc with ⟨hge, hnone⟩ | hopen | ⟨hlt, hgone⟩
    · exact .inl ⟨hnew hge, hnone⟩
    · exact .inr (.inl hopen)
    · exact .inr (.inr ⟨hlt.trans_le hle, hgone⟩)

theorem accounted_held (hv : Valid w) (hheld : h ∈ w.held) (hus : Held us) : w.Accounted us h := by
  rw [Accounted, if_neg (hv.not_refused hheld)]
  exact .inr (.inl ⟨hheld, hus⟩)

theorem accounted_givenUp (hrefused : h ∉ w.refused) (hlt : h < w.handles) (hheld : h ∉ w.held)
    (hus : GivenUp .closed us) : w.Accounted us h := by
  rw [Accounted, if_neg hrefused]
  exact .inr (.inr ⟨hlt, hheld, hus⟩)

/-- What a step keeps. -/
structure Follows (w w' : Server) (log : List ListenerAction) : Prop where
  valid : Valid w'
  accounted : ∀ us h, w.Accounted us h → w'.Accounted (us ++ listenerUses log h) h

/-- Nothing is done but with the handles that are open, which are used. -/
def Uses (w : Server) (log : List ListenerAction) (h : HQUIC) : Prop :=
  ∀ u ∈ listenerUses log h, u = .used ∧ h ∈ w.held

theorem Uses.nothing (hu : Uses w log h) (hheld : h ∉ w.held) : listenerUses log h = [] :=
  List.eq_nil_iff_forall_not_mem.2 fun u hin => hheld (hu u hin).2

/-! ### The kinds of steps -/

theorem follows_quiet (hv : Valid w) (hstreams : w'.streams = w.streams) (himpl : w'.impl = w.impl)
    (hhandles : w'.handles = w.handles) (hrefused : w'.refused = w.refused)
    (huses : ∀ h, Uses w log h) : Follows w w' log := by
  have hclosing : w'.closing = w.closing := by rw [closing, closing, himpl]
  have hheld : w'.held = w.held := by rw [held, held, hstreams, hclosing, hrefused]
  have hv' : Valid w' := by
    constructor
    · rw [hstreams, hclosing]
      exact hv.nodup
    · rw [hstreams, hclosing, hhandles]
      exact hv.lt
    · rw [hstreams, hhandles, hrefused, himpl]
      exact hv.refused
    · rw [himpl, hclosing]
      exact hv.stopped
  refine ⟨hv', fun us h hacc => ?_⟩
  by_cases hin : h ∈ w.held
  · exact accounted_held hv' (hheld ▸ hin)
      ((hacc.open hv hin).append fun u hu => (huses h u hu).1)
  · rw [(huses h).nothing hin, List.append_nil]
    exact hacc.untouched (by rw [hrefused]) (by rw [himpl]) (by rw [hheld]) hhandles.ge
      fun hle => hhandles.le.trans hle

/-- A new handle, which stays open. -/
theorem follows_opened (hv : Valid w) (hhandles : w'.handles = w.handles + 1)
    (hopen : (w'.streams.map (·.1) ++ w'.closing).Perm
      (w.handles :: (w.streams.map (·.1) ++ w.closing)))
    (hheld : ∀ h, h ∈ w'.held ↔ h = w.handles ∨ h ∈ w.held)
    (hconnections : ∀ h ∈ w.impl.connections, h ∈ w'.impl.connections)
    (hstreams : ∀ h ∈ w'.streams.map (·.1), h = w.handles ∨ h ∈ w.streams.map (·.1))
    (hrefused : w'.refused = w.refused) (hstopped : w'.impl.stopped = false)
    (hrunning : w.impl.stopped = false)
    (hnew : ∃ vs, (∀ v ∈ vs, v = Use.used) ∧ listenerUses log w.handles = .opened :: vs)
    (huses : ∀ h ≠ w.handles, Uses w log h) : Follows w w' log := by
  have hv' : Valid w' := by
    constructor
    · rw [hopen.nodup_iff, List.nodup_cons]
      exact ⟨fun hin => (hv.lt _ hin).false, hv.nodup⟩
    · intro h hin
      rw [hhandles]
      rcases List.mem_cons.1 (hopen.mem_iff.1 hin) with rfl | hin
      · exact Nat.lt_succ_self _
      · exact (hv.lt h hin).trans (Nat.lt_succ_self _)
    · intro h hin
      rw [hrefused] at hin
      obtain ⟨hlt, hnot, hconn⟩ := hv.refused h hin
      refine ⟨hhandles ▸ hlt.trans (Nat.lt_succ_self _), fun hstream => ?_, fun _ =>
        hconnections h (hconn hrunning)⟩
      rcases hstreams h hstream with rfl | hstream
      · exact hlt.false
      · exact hnot hstream
    · intro hstop
      rw [hstopped] at hstop
      cases hstop
  refine ⟨hv', fun us h hacc => ?_⟩
  by_cases hfresh : h = w.handles
  · subst hfresh
    obtain ⟨vs, hvs, heq⟩ := hnew
    rw [(hacc.fresh hv le_rfl).2, heq]
    exact accounted_held hv' ((hheld _).2 (.inl rfl)) (Custody.held_opened hvs)
  · by_cases hin : h ∈ w.held
    · exact accounted_held hv' ((hheld h).2 (.inr hin))
        ((hacc.open hv hin).append fun u hu => (huses h hfresh u hu).1)
    · rw [(huses h hfresh).nothing hin, List.append_nil]
      refine hacc.untouched (by rw [hrefused]) (hstopped.trans hrunning.symm) ?_
        (by rw [hhandles]; exact Nat.le_succ _) fun hle => ?_
      · rw [hheld, or_iff_right hfresh]
      · rw [hhandles]
        exact Nat.lt_of_le_of_ne hle (Ne.symm hfresh)

/-- A new handle, which is closed at once. -/
theorem follows_openedClosed (hv : Valid w) (hhandles : w'.handles = w.handles + 1)
    (hstreams : w'.streams = w.streams) (himpl : w'.impl = w.impl)
    (hrefused : w'.refused = w.refused) (hnew : GivenUp .closed (listenerUses log w.handles))
    (huses : ∀ h ≠ w.handles, listenerUses log h = []) : Follows w w' log := by
  have hclosing : w'.closing = w.closing := by rw [closing, closing, himpl]
  have hheld : w'.held = w.held := by rw [held, held, hstreams, hclosing, hrefused]
  have hle : w.handles ≤ w'.handles := hhandles ▸ Nat.le_succ _
  refine ⟨?_, fun us h hacc => ?_⟩
  · constructor
    · rw [hstreams, hclosing]
      exact hv.nodup
    · intro h hin
      rw [hstreams, hclosing] at hin
      exact (hv.lt h hin).trans_le hle
    · intro h hin
      rw [hrefused] at hin
      rw [hstreams, himpl]
      exact (hv.refused h hin).imp_left fun hlt => hlt.trans_le hle
    · rw [himpl, hclosing]
      exact hv.stopped
  · by_cases hfresh : h = w.handles
    · subst hfresh
      obtain ⟨hnot, hnone⟩ := hacc.fresh hv le_rfl
      rw [hnone, List.nil_append]
      refine accounted_givenUp (by rwa [hrefused]) (by rw [hhandles]; exact Nat.lt_succ_self _)
        (fun hin => ?_) hnew
      rw [hheld] at hin
      exact (hv.held_lt hin).false
    · rw [huses h hfresh, List.append_nil]
      refine hacc.untouched (by rw [hrefused]) (by rw [himpl]) (by rw [hheld]) hle fun hge => ?_
      rw [hhandles]
      exact Nat.lt_of_le_of_ne hge (Ne.symm hfresh)

/-- A new connection that msquic does not give the configuration. -/
theorem follows_refused (hv : Valid w) (hhandles : w'.handles = w.handles + 1)
    (hstreams : w'.streams = w.streams)
    (hclosing : w'.closing.Perm (w.handles :: w.closing))
    (hconnections : w'.impl.connections = w.impl.connections ++ [w.handles])
    (hrefused : w'.refused = w.refused ++ [w.handles]) (hstopped : w'.impl.stopped = false)
    (hrunning : w.impl.stopped = false)
    (hnew : listenerUses log w.handles = [.opened, .used, .closed])
    (huses : ∀ h ≠ w.handles, Uses w log h) : Follows w w' log := by
  have hle : w.handles ≤ w'.handles := hhandles ▸ Nat.le_succ _
  have hlast : w.handles < w'.handles := hhandles ▸ Nat.lt_succ_self _
  have hnotStream : w.handles ∉ w.streams.map (·.1) := fun hin =>
    (hv.lt _ (List.mem_append_left _ hin)).false
  have hnotRefused : w.handles ∉ w.refused := fun hin => (hv.refused _ hin).1.false
  have hheld : ∀ h ≠ w.handles, (h ∈ w'.held ↔ h ∈ w.held) := fun h hne => by
    rw [mem_held, mem_held, hstreams, hclosing.mem_iff, hrefused]
    simp [hne]
  have hv' : Valid w' := by
    constructor
    · rw [hstreams, (hclosing.append_left _).nodup_iff, List.perm_middle.nodup_iff,
        List.nodup_cons]
      exact ⟨fun hin => (hv.lt _ hin).false, hv.nodup⟩
    · intro h hin
      rw [hstreams, (hclosing.append_left _).mem_iff, List.perm_middle.mem_iff] at hin
      rcases List.mem_cons.1 hin with rfl | hin
      · exact hlast
      · exact (hv.lt h hin).trans_le hle
    · intro h hin
      rw [hrefused, List.mem_append, List.mem_singleton] at hin
      rw [hstreams]
      rcases hin with hin | rfl
      · obtain ⟨hlt, hnot, hconn⟩ := hv.refused h hin
        exact ⟨hlt.trans_le hle, hnot, fun _ => by simp [hconnections, hconn hrunning]⟩
      · exact ⟨hlast, hnotStream, fun _ => by simp [hconnections]⟩
    · intro hstop
      rw [hstopped] at hstop
      cases hstop
  refine ⟨hv', fun us h hacc => ?_⟩
  by_cases hfresh : h = w.handles
  · subst hfresh
    rw [Accounted, if_pos (by simp [hrefused]), (hacc.fresh hv le_rfl).2, hnew, hstopped]
    rfl
  · by_cases hin : h ∈ w.held
    · exact accounted_held hv' ((hheld h hfresh).2 hin)
        ((hacc.open hv hin).append fun u hu => (huses h hfresh u hu).1)
    · rw [(huses h hfresh).nothing hin, List.append_nil]
      refine hacc.untouched (by simp [hrefused, hfresh]) (hstopped.trans hrunning.symm)
        (hheld h hfresh) hle fun hge => ?_
      rw [hhandles]
      exact Nat.lt_of_le_of_ne hge (Ne.symm hfresh)

/-! ### The steps -/

theorem follows_idle (hv : Valid w) : Follows w w [] :=
  follows_quiet hv rfl rfl rfl rfl fun h => by simp [Uses]

theorem Valid.running (hv : Valid w) (hclosing : h ∈ w.closing) : w.impl.stopped = false := by
  by_contra hstop
  rw [hv.stopped (by simpa using hstop)] at hclosing
  cases hclosing

theorem Valid.configuration_held (hv : Valid w) (hc : w.impl.configuration = some h) :
    h ∈ w.held := by
  have hclosing : h ∈ w.closing := by simp [closing, hc]
  refine mem_held.2 (.inr ⟨hclosing, fun hrefused => ?_⟩)
  have hconn := (hv.refused h hrefused).2.2 (hv.running hclosing)
  have hnodup := (List.nodup_append.1 hv.nodup).2.1
  rw [closing, hc, List.append_assoc, List.nodup_append] at hnodup
  exact hnodup.2.2 h (List.mem_append_right _ hconn) h (by simp) rfl

/-- The connection is new in the list. -/
theorem closing_connections {impl : ListenerImpl}
    (himpl : impl = { w.impl with connections := w.impl.connections ++ [h] })
    (himpl' : w'.impl = impl) : w'.closing.Perm (h :: w.closing) := by
  have hsplit : w'.closing = (w.impl.listener.toList ++ w.impl.connections)
      ++ h :: (w.impl.configuration.toList ++ w.impl.registration.toList) := by
    rw [closing, himpl', himpl]
    simp
  have hbefore : w.closing = (w.impl.listener.toList ++ w.impl.connections)
      ++ (w.impl.configuration.toList ++ w.impl.registration.toList) := by
    rw [closing, List.append_assoc _ _ w.impl.registration.toList]
  rw [hsplit, hbefore]
  exact List.perm_middle

theorem follows_newConnection (hv : Valid w) (rc : QuicStatus) :
    Follows w (w.newConnection rc).1 (w.newConnection rc).2 := by
  unfold newConnection
  split
  · rename_i listener configuration hlistener hconfiguration
    have hheld := hv.configuration_held hconfiguration
    have hne : w.handles ≠ configuration := (hv.held_lt hheld).ne'
    have hrunning : w.impl.stopped = false := hv.running (h := listener) (by simp [closing, hlistener])
    dsimp only
    split_ifs with hfail
    · refine follows_refused hv rfl rfl (closing_connections rfl rfl) rfl rfl hrunning hrunning ?_
        fun h hnew => ?_
      · simp [hne]
      · by_cases hc : h = configuration
        · subst hc
          simp [Uses, hne.symm, hheld]
        · simp [Uses, hnew, hc]
    · have hclosing : ∀ w' : Server,
          w'.impl = { w.impl with connections := w.impl.connections ++ [w.handles] } →
          w'.closing.Perm (w.handles :: w.closing) := fun w' => closing_connections rfl
      refine follows_opened hv rfl ?_ (fun h => ?_) (fun h hin => ?_) (fun h hin => .inr hin) rfl
        hrunning hrunning ⟨[.used], by simp, ?_⟩ fun h hnew => ?_
      · exact ((hclosing _ rfl).append_left _).trans List.perm_middle
      · rw [mem_held, mem_held, (hclosing _ rfl).mem_iff, List.mem_cons]
        have hnot : w.handles ∉ w.refused := fun hin => (hv.refused _ hin).1.false
        by_cases hnew : h = w.handles
        · simp [hnew, hnot]
        · simp [hnew]
      · exact List.mem_append_left _ hin
      · simp [hne]
      · by_cases hc : h = configuration
        · subst hc
          simp [Uses, hne.symm, hheld]
        · simp [Uses, hnew, hc]
  · exact follows_idle hv

/-- A stream that is new and reports to a handler. -/
theorem follows_stream (hv : Valid w) (conn : HQUIC) (hrunning : w.impl.stopped = false)
    (hstreams : w'.streams = w.streams ++ [(w.handles, conn)]) (himpl : w'.impl = w.impl)
    (hhandles : w'.handles = w.handles + 1) (hrefused : w'.refused = w.refused)
    (hnew : ∃ vs, (∀ v ∈ vs, v = Use.used) ∧ listenerUses log w.handles = .opened :: vs)
    (huses : ∀ h ≠ w.handles, Uses w log h) : Follows w w' log := by
  have hclosing : w'.closing = w.closing := by rw [closing, closing, himpl]
  refine follows_opened hv hhandles ?_ (fun h => ?_) (fun h hin => by rwa [himpl]) (fun h hin => ?_)
    hrefused (by rw [himpl, hrunning]) hrunning hnew huses
  · rw [hstreams, hclosing, List.map_append, List.append_assoc]
    exact List.perm_middle
  · rw [mem_held, mem_held, hstreams, hclosing, hrefused, List.map_append, List.mem_append]
    simp only [List.map_cons, List.map_nil, List.mem_singleton]
    rw [or_comm (b := h = w.handles), or_assoc]
  · rw [hstreams, List.map_append, List.mem_append] at hin
    rcases hin with hin | hin
    · exact .inr hin
    · exact .inl (List.mem_singleton.1 hin)

theorem Reports.running {conn : HQUIC} (hv : Valid w) (h : w.Reports conn) :
    w.impl.stopped = false := by
  refine hv.running (h := conn) ?_
  simp [closing, h.2]

theorem follows_connected (hv : Valid w) (conn : HQUIC) (a : ControlAnswers) :
    Follows w (w.connected conn a).1 (w.connected conn a).2 := by
  unfold connected sendSettings
  dsimp only
  split_ifs with hreports hopen hstart hsend
  · exact follows_idle hv
  · exact follows_openedClosed hv rfl rfl rfl rfl ⟨1, by simp⟩ fun h hne => by simp [hne]
  · exact follows_openedClosed hv rfl rfl rfl rfl ⟨2, by simp⟩ fun h hne => by simp [hne]
  · refine follows_stream hv conn (hreports.running hv) rfl rfl rfl rfl
      ⟨[.used, .used], by simp, by simp⟩ fun h hne => ?_
    simp [Uses, hne]
  · exact follows_idle hv

theorem follows_peerStreamStarted (hv : Valid w) (conn : HQUIC) :
    Follows w (w.peerStreamStarted conn).1 (w.peerStreamStarted conn).2 := by
  unfold peerStreamStarted
  split_ifs with hreports
  · refine follows_stream hv conn (hreports.running hv) rfl rfl rfl rfl ⟨[], by simp, by simp⟩
      fun h hne => ?_
    simp [Uses, hne]
  · exact follows_idle hv

theorem follows_request (hv : Valid w) (stream : HQUIC) (rc : QuicStatus) :
    Follows w (w.request stream rc).1 (w.request stream rc).2 := by
  unfold request
  split
  · exact follows_idle hv
  · rename_i c conn hfind
    have hheld : c ∈ w.held := by
      refine mem_held.2 (.inl ?_)
      exact List.mem_map_of_mem (f := (·.1)) (List.mem_of_find?_eq_some hfind)
    dsimp only
    split_ifs
    · exact follows_quiet hv rfl rfl rfl rfl fun h => by simp +contextual [Uses, hheld]
    · exact follows_quiet hv rfl rfl rfl rfl fun h => by simp +contextual [Uses, hheld]

theorem follows_sendComplete (hv : Valid w) (k : ℕ) :
    Follows w (w.sendComplete k).1 (w.sendComplete k).2 := by
  unfold sendComplete
  split
  · exact follows_idle hv
  · exact follows_quiet hv rfl rfl rfl rfl fun h => by simp [Uses]

theorem follows_onStreamClosed (hv : Valid w) (stream : HQUIC) :
    Follows w (w.onStreamClosed stream).1 (w.onStreamClosed stream).2 := by
  unfold onStreamClosed
  split_ifs with hin
  · have hstreams : ∀ h, h ∈ (w.streams.filter (·.1 ≠ stream)).map (·.1)
        ↔ h ∈ w.streams.map (·.1) ∧ h ≠ stream := fun h => by
      simp only [List.mem_map, List.mem_filter, decide_eq_true_eq]
      constructor
      · rintro ⟨x, ⟨hx, hne⟩, rfl⟩
        exact ⟨⟨x, hx, rfl⟩, hne⟩
      · rintro ⟨⟨x, hx, rfl⟩, hne⟩
        exact ⟨x, ⟨hx, hne⟩, rfl⟩
    have hsub : ((w.streams.filter (·.1 ≠ stream)).map (·.1)).Sublist (w.streams.map (·.1)) :=
      List.filter_sublist.map _
    have hheldStream : stream ∈ w.held := mem_held.2 (.inl hin)
    have hnotClosing : stream ∉ w.closing := fun hclosing =>
      (List.nodup_append.1 hv.nodup).2.2 stream hin stream hclosing rfl
    have hheld : ∀ h, h ∈ Server.held { w with streams := w.streams.filter (·.1 ≠ stream) }
        ↔ h ∈ w.held ∧ h ≠ stream := fun h => by
      rw [mem_held, mem_held, hstreams]
      constructor
      · rintro (⟨hs, hne⟩ | hc)
        · exact ⟨.inl hs, hne⟩
        · exact ⟨.inr hc, fun heq => hnotClosing (heq ▸ hc.1)⟩
      · rintro ⟨hs | hc, hne⟩
        · exact .inl ⟨hs, hne⟩
        · exact .inr hc
    refine ⟨⟨hv.nodup.sublist (hsub.append_right _), fun h hmem => ?_, fun h hrefused => ?_,
      hv.stopped⟩, fun us h hacc => ?_⟩
    · exact hv.lt h ((hsub.append_right _).subset hmem)
    · obtain ⟨hlt, hnot, hconn⟩ := hv.refused h hrefused
      exact ⟨hlt, fun hs => hnot (hsub.subset hs), hconn⟩
    · by_cases heq : h = stream
      · subst heq
        have huses : listenerUses [.quic (.streamClose h)] h = [.closed] := by simp
        rw [huses]
        exact accounted_givenUp (hv.not_refused hheldStream) (hv.held_lt hheldStream)
          (fun hmem => ((hheld h).1 hmem).2 rfl) ((hacc.open hv hheldStream).concat _)
      · have huses : listenerUses [.quic (.streamClose stream)] h = [] := by simp [heq]
        rw [huses, List.append_nil]
        exact hacc.untouched Iff.rfl rfl (by rw [hheld, and_iff_left heq]) le_rfl id
  · exact follows_idle hv

/-! ### The end -/

/-- The log closes the handles of the list, each once, and does nothing else. -/
def Closes (log : List ListenerAction) (l : List HQUIC) : Prop :=
  ∀ h, listenerUses log h = if h ∈ l then [.closed] else []

theorem closes_map {l : List HQUIC} (f : HQUIC → ListenerAction)
    (hf : ∀ x h, (f x).on h = if h = x then [.closed] else []) (hnodup : l.Nodup) :
    Closes (l.map f) l := by
  induction l with
  | nil => exact fun h => rfl
  | cons x l ih =>
    intro h
    rw [List.nodup_cons] at hnodup
    rw [List.map_cons, listenerUses_cons, hf, ih hnodup.2]
    by_cases heq : h = x
    · subst heq
      simp [hnodup.1]
    · simp [heq]

theorem Closes.append {log' : List ListenerAction} {l l' : List HQUIC} (h : Closes log l)
    (h' : Closes log' l') (hnodup : (l ++ l').Nodup) : Closes (log ++ log') (l ++ l') := by
  intro x
  rw [listenerUses_append, h, h']
  by_cases hin : x ∈ l
  · have hnot : x ∉ l' := fun hin' => (List.nodup_append.1 hnodup).2.2 x hin x hin' rfl
    simp [hin, hnot]
  · simp [hin]

theorem closes_stop (hv : Valid w) (hrunning : w.impl.stopped = false) :
    Closes w.stop.2 w.closing := by
  have hnodup : w.closing.Nodup := (List.nodup_append.1 hv.nodup).2.1
  have hon : ∀ f : HQUIC → ListenerAction,
      (∀ x h, (f x).on h = if h = x then [Use.closed] else []) →
        ∀ o : Option HQUIC, Closes (o.toList.map f) o.toList := fun f hf o =>
    closes_map f hf (by cases o <;> simp)
  rw [stop, if_neg (by simp [hrunning])]
  unfold closing at hnodup ⊢
  have hbefore := (List.nodup_append.1 hnodup).1
  have hfirst := (List.nodup_append.1 hbefore).1
  refine Closes.append (Closes.append (Closes.append ?_ ?_ hfirst) ?_ hbefore) ?_ hnodup
  · exact hon _ (fun x h => by by_cases heq : h = x <;> simp [heq]) _
  · exact closes_map _ (fun x h => by by_cases heq : h = x <;> simp [heq]) (List.nodup_append.1 hfirst).2.1
  · exact hon _ (fun x h => by by_cases heq : h = x <;> simp [heq]) _
  · exact hon _ (fun x h => by by_cases heq : h = x <;> simp [heq]) _

theorem follows_stop (hv : Valid w) : Follows w w.stop.1 w.stop.2 := by
  rcases hstop : w.impl.stopped with _ | _
  · have huses := closes_stop hv hstop
    have hafter : w.stop.1 = { w with impl := { stopped := true } } := by
      rw [stop, if_neg (by simp [hstop])]
    have hclosing : w.stop.1.closing = [] := by rw [hafter]; rfl
    have hnodup := List.nodup_append.1 hv.nodup
    have hheld : ∀ h, h ∈ w.stop.1.held ↔ h ∈ w.streams.map (·.1) := fun h => by
      rw [mem_held, hclosing, hafter]
      simp
    refine ⟨⟨?_, fun h hin => ?_, fun h hin => ?_, fun _ => hclosing⟩, fun us h hacc => ?_⟩
    · rw [hclosing, List.append_nil, hafter]
      exact hnodup.1
    · rw [hclosing, List.append_nil, hafter] at hin
      rw [hafter]
      exact hv.lt h (List.mem_append_left _ hin)
    · rw [hafter] at hin ⊢
      obtain ⟨hlt, hnot, -⟩ := hv.refused h hin
      exact ⟨hlt, hnot, fun hrunning => by cases hrunning⟩
    · rw [huses h]
      by_cases hrefused : h ∈ w.refused
      · have hin : h ∈ w.closing := by simp [closing, (hv.refused h hrefused).2.2 hstop]
        rw [Accounted, if_pos hrefused, hstop] at hacc
        rw [Accounted, hafter, if_pos hrefused, hacc, if_pos hin]
        rfl
      · by_cases hin : h ∈ w.closing
        · have hbefore : h ∈ w.held := mem_held.2 (.inr ⟨hin, hrefused⟩)
          rw [if_pos hin]
          refine accounted_givenUp (by rwa [hafter]) (by rw [hafter]; exact hv.held_lt hbefore)
            (fun hmem => ?_) ((hacc.open hv hbefore).concat _)
          exact hnodup.2.2 h ((hheld h).1 hmem) h hin rfl
        · rw [if_neg hin, List.append_nil, Accounted, hafter, if_neg hrefused]
          rw [Accounted, if_neg hrefused] at hacc
          have hsame : h ∈ Server.held { w with impl := { stopped := true } } ↔ h ∈ w.held := by
            rw [← hafter, hheld, mem_held]
            simp [hin]
          rwa [hsame]
  · have hidle : w.stop = (w, []) := by rw [stop, if_pos hstop]
    rw [hidle]
    exact follows_idle hv

/-! ### A run -/

theorem follows_step (hv : Valid w) (e : ServerEvent) : Follows w (w.step e).1 (w.step e).2 := by
  cases e with
  | newConnection rc => exact follows_newConnection hv rc
  | connected conn a => exact follows_connected hv conn a
  | peerStreamStarted conn => exact follows_peerStreamStarted hv conn
  | request stream rc => exact follows_request hv stream rc
  | sendComplete k => exact follows_sendComplete hv k
  | streamShutdownComplete stream => exact follows_onStreamClosed hv stream
  | shutdownComplete conn => exact follows_quiet hv rfl rfl rfl rfl fun h => by simp [Uses, step]
  | stop => exact follows_stop hv

variable {apiOk : Bool} {port : UInt16} {a : ListenAnswers}

theorem listen_accounted (hlisten : listen apiOk port a = (.ok w, log)) :
    Valid w ∧ ∀ h, w.Accounted (listenerUses log h) h := by
  unfold listen at hlisten
  dsimp only at hlisten
  split_ifs at hlisten <;> simp only [Prod.mk.injEq, reduceCtorEq, false_and] at hlisten
  obtain ⟨hw, rfl⟩ := hlisten
  obtain rfl := Except.ok.inj hw
  have hrefused : listening.refused = [] := rfl
  refine ⟨⟨by decide, by decide, by simp [hrefused], by decide⟩, fun h => ?_⟩
  rw [Accounted, if_neg (by simp [hrefused])]
  rcases h with _ | _ | _ | h
  · exact .inr (.inl ⟨by decide, 2, rfl⟩)
  · exact .inr (.inl ⟨by decide, 1, rfl⟩)
  · exact .inr (.inl ⟨by decide, 1, rfl⟩)
  · exact .inl ⟨Nat.le_add_left 3 h, rfl⟩

/-- A listener that does not come up has closed what it opened. -/
theorem listen_error {e : ListenError} (hlisten : listen apiOk port a = (.error e, log)) (h : HQUIC) :
    listenerUses log h = [] ∨ GivenUp .closed (listenerUses log h) := by
  unfold listen at hlisten
  dsimp only at hlisten
  split_ifs at hlisten <;> simp only [Prod.mk.injEq, reduceCtorEq, false_and] at hlisten <;>
    obtain ⟨-, rfl⟩ := hlisten
  all_goals rcases h with _ | _ | _ | h
  all_goals
    first
    | exact .inr ⟨0, rfl⟩
    | exact .inr ⟨1, rfl⟩
    | exact .inr ⟨2, rfl⟩
    | exact .inl rfl

/-- In every run of a listener that came up, a handle is opened, then used, and closed once after that,
unless it is still open. `stop` leaves only streams open, and closes the connections that msquic did
not give the configuration, which were closed then, once more. -/
theorem listener_handles (hlisten : listen apiOk port a = (.ok w, log)) (es : List ServerEvent)
    (h : HQUIC) :
    (machine.exec w es).1.Accounted (listenerUses (log ++ (machine.exec w es).2) h) h
      ∧ ((machine.exec w es).1.impl.stopped = true → h ∈ (machine.exec w es).1.held →
        h ∈ (machine.exec w es).1.streams.map (·.1)) := by
  have hstep : ∀ w out e, (Valid w ∧ ∀ h, w.Accounted (listenerUses out h) h) → True →
      Valid (machine.step w e).1
        ∧ ∀ h, (machine.step w e).1.Accounted (listenerUses (out ++ (machine.step w e).2) h) h := by
    intro w out e hinv _
    obtain ⟨hv', hacc'⟩ := follows_step hinv.1 e
    refine ⟨hv', fun h => ?_⟩
    rw [listenerUses_append]
    exact hacc' _ h (hinv.2 h)
  obtain ⟨hv, hacc⟩ :=
    Machine.exec_history hstep es (listen_accounted hlisten) Machine.meets_true
  refine ⟨hacc h, fun hstop hheld => ?_⟩
  rw [mem_held, hv.stopped hstop] at hheld
  simpa using hheld

/-- A connection that does not get the configuration, before a stop. -/
theorem listener_handles_refused :
    (machine.exec listening [.newConnection (.other 1), .stop]).1.Accounted
        (listenerUses ((listen true 4433 {}).2
          ++ (machine.exec listening [.newConnection (.other 1), .stop]).2) 3) 3
      ∧ ((machine.exec listening [.newConnection (.other 1), .stop]).1.impl.stopped = true →
        3 ∈ (machine.exec listening [.newConnection (.other 1), .stop]).1.held →
        3 ∈ (machine.exec listening [.newConnection (.other 1), .stop]).1.streams.map (·.1)) := by
  have hlisten : listen true 4433 {} = (.ok listening, (listen true 4433 {}).2) := rfl
  exact listener_handles hlisten [.newConnection (.other 1), .stop] 3

end Server

end NimRtc.MsQuic
