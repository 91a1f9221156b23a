/-
This file proves that the receive window of a session, whose numbers do not wrap
around, is that of a pcb, whose numbers have 32 bits: the functions of the
receiving half do to the pcb in a run what the run does to the window.
-/

import Libn2t.TcpReassembly

namespace Net2Tr

/-- The numbers of a window are those of a pcb, taken as positions. -/
structure RcvWindow.Shows (w : RcvWindow) (isn : UInt32) (pcb : TcpRcv) : Prop where
  rcvNxt : pcb.rcvNxt = seqAt isn w.rcvNxt
  rcvWnd : pcb.rcvWnd.toNat = w.rcvWnd
  rcvAnnWnd : pcb.rcvAnnWnd.toNat = w.rcvAnnWnd
  rcvAnnRightEdge : pcb.rcvAnnRightEdge = seqAt isn w.rcvAnnRightEdge
  wndScale : pcb.wndScale = w.wndScale
  mss : pcb.mss.toNat = w.mss

/-- What an event of a session does to its pcb: the bytes in order, or the end of the stream, are
taken and given back. -/
def TcpRcv.nextWindow (pcb : TcpRcv) : WindowEvent → Option TcpRcv
  | .tcp (.recv data) =>
    (pcb.take (UInt32.ofNat data.length)).map fun pcb => (afterReceive ⟨pcb, data, false⟩).pcb
  | .tcp .fin => (pcb.take 1).map fun pcb => (afterReceive ⟨pcb, [], true⟩).pcb
  | .tcp _ => some pcb
  | .output => some pcb.announce

namespace RcvWindow

theorem updateRcvAnnWnd_ends (w : RcvWindow) : w.updateRcvAnnWnd.rcvNxt = w.rcvNxt ∧
    w.updateRcvAnnWnd.rcvAnnRightEdge = w.rcvAnnRightEdge ∧
    w.updateRcvAnnWnd.rcvWnd = w.rcvWnd := by
  obtain ⟨_, update, -⟩ := w.updateRcvAnnWnd_cases
  rw [update]
  exact ⟨rfl, rfl, rfl⟩

theorem receive_ends (w : RcvWindow) (tcplen : Nat) :
    (w.receive tcplen).rcvNxt = w.rcvNxt + tcplen ∧
    (w.receive tcplen).rcvAnnRightEdge = w.rcvAnnRightEdge ∧
    (w.receive tcplen).rcvWnd = w.rcvWnd - tcplen :=
  updateRcvAnnWnd_ends _

theorem recved_ends (w : RcvWindow) (len : Nat) : (w.recved len).rcvNxt = w.rcvNxt ∧
    (w.recved len).rcvAnnRightEdge = w.rcvAnnRightEdge := by
  unfold recved
  dsimp only
  split
  · exact ⟨(updateRcvAnnWnd_ends _).1, (updateRcvAnnWnd_ends _).2.1⟩
  · exact ⟨(updateRcvAnnWnd_ends _).1, (updateRcvAnnWnd_ends _).2.1⟩

theorem fin_ends (w : RcvWindow) : w.fin.rcvNxt = w.rcvNxt + 1 ∧
    w.fin.rcvAnnRightEdge = w.rcvAnnRightEdge := by
  obtain ⟨nxt, right, -⟩ := w.receive_ends 1
  unfold fin
  dsimp only
  split
  · exact ⟨nxt, right⟩
  · exact ⟨nxt, right⟩

end RcvWindow

namespace RcvWindow.Shows

variable {w : RcvWindow} {isn : UInt32} {pcb : TcpRcv}

/-- The window after a SYN. -/
theorem listenInput (seqno : UInt32) (mss : UInt16) (wndScale sack : Bool) :
    (RcvWindow.listenInput 0 wndScale mss.toNat).Shows seqno
      (.listenInput seqno mss wndScale sack) := by
  refine ⟨seqAt_add_one seqno 0 ▸ congrArg (· + 1) (seqAt_zero seqno).symm, ?_, ?_,
    seqAt_add_one seqno 0 ▸ congrArg (· + 1) (seqAt_zero seqno).symm, rfl, rfl⟩
  all_goals cases wndScale <;> rfl

theorem tcpWndMax (shows : w.Shows isn pcb) : pcb.tcpWndMax.toNat = w.tcpWndMax := by
  unfold TcpRcv.tcpWndMax RcvWindow.tcpWndMax
  rw [shows.wndScale]
  cases w.wndScale with
  | true => rfl
  | false => rfl

/-- The announced window is updated in the same way. -/
theorem updateRcvAnnWnd (shows : w.Shows isn pcb) (narrow : w.rcvWnd ≤ 5840)
    (edge : w.rcvAnnRightEdge ≤ w.rcvNxt + w.rcvWnd) (near : w.rcvNxt ≤ w.rcvAnnRightEdge + 1) :
    w.updateRcvAnnWnd.Shows isn pcb.tcpUpdateRcvAnnWnd.1 := by
  have mss : pcb.mss.toUInt32.toNat = w.mss := pcb.mss.toNat_toUInt32.trans shows.mss
  have step : (min (UInt32.ofNat (tcpWnd / 2)) pcb.mss.toUInt32).toNat =
      min (tcpWnd / 2) w.mss := by
    rw [toNat_min, mss]
    rfl
  have half : min (tcpWnd / 2) w.mss ≤ 2920 := Nat.min_le_left _ _
  have geq : tcpSeqGeq (pcb.rcvNxt + pcb.rcvWnd)
      (pcb.rcvAnnRightEdge + min (UInt32.ofNat (tcpWnd / 2)) pcb.mss.toUInt32) =
        decide (w.rcvAnnRightEdge + min (tcpWnd / 2) w.mss ≤ w.rcvNxt + w.rcvWnd) := by
    rw [shows.rcvNxt, shows.rcvAnnRightEdge, seqAt_add, seqAt_add, step, shows.rcvWnd]
    exact tcpSeqGeq_seqAt ⟨by omega, by omega⟩
  have gt : tcpSeqGt pcb.rcvNxt pcb.rcvAnnRightEdge =
      decide (w.rcvAnnRightEdge < w.rcvNxt) := by
    rw [shows.rcvNxt, shows.rcvAnnRightEdge]
    exact tcpSeqGt_seqAt ⟨by omega, by omega⟩
  unfold TcpRcv.tcpUpdateRcvAnnWnd RcvWindow.updateRcvAnnWnd
  dsimp only
  rw [geq, gt]
  by_cases wide : w.rcvAnnRightEdge + min (tcpWnd / 2) w.mss ≤ w.rcvNxt + w.rcvWnd
  · rw [if_pos (decide_eq_true wide), if_pos wide]
    exact { shows with rcvAnnWnd := shows.rcvWnd }
  · rw [if_neg (decide_eq_true_iff.not.mpr wide), if_neg wide]
    by_cases beyond : w.rcvAnnRightEdge < w.rcvNxt
    · rw [if_pos (decide_eq_true beyond), if_pos beyond]
      exact { shows with rcvAnnWnd := rfl }
    · rw [if_neg (decide_eq_true_iff.not.mpr beyond), if_neg beyond]
      refine { shows with rcvAnnWnd := ?_ }
      change (pcb.rcvAnnRightEdge - pcb.rcvNxt).toNat = w.rcvAnnRightEdge - w.rcvNxt
      rw [shows.rcvNxt, shows.rcvAnnRightEdge, seqAt_sub isn (Nat.le_of_not_lt beyond),
        UInt32.toNat_ofNat']
      omega

/-- What is received in order is taken. -/
theorem receive (shows : w.Shows isn pcb) (narrow : w.rcvWnd ≤ 5840)
    (edge : w.rcvAnnRightEdge ≤ w.rcvNxt + w.rcvWnd) {tcplen : UInt32}
    (fits : tcplen.toNat ≤ w.rcvWnd) (near : w.rcvNxt + tcplen.toNat ≤ w.rcvAnnRightEdge + 1) :
    ∃ pcb', pcb.take tcplen = some pcb' ∧ (w.receive tcplen.toNat).Shows isn pcb' := by
  have within : tcplen ≤ pcb.rcvWnd :=
    UInt32.le_iff_toNat_le.mpr (by rw [shows.rcvWnd]; exact fits)
  have left : (pcb.rcvWnd - tcplen).toNat = w.rcvWnd - tcplen.toNat := by
    rw [UInt32.toNat_sub_of_le _ _ within, shows.rcvWnd]
  rw [TcpRcv.take, if_pos within]
  refine ⟨_, rfl, updateRcvAnnWnd ?_ ?_ ?_ near⟩
  · exact { shows with
      rcvNxt := (congrArg (· + tcplen) shows.rcvNxt).trans (seqAt_add isn w.rcvNxt tcplen)
      rcvWnd := left }
  · exact (Nat.sub_le _ _).trans narrow
  · change w.rcvAnnRightEdge ≤ w.rcvNxt + tcplen.toNat + (w.rcvWnd - tcplen.toNat)
    omega

/-- What is processed is given back. -/
theorem recved (shows : w.Shows isn pcb) (len : UInt16) (narrow : w.rcvWnd ≤ 5840)
    (edge : w.rcvAnnRightEdge ≤ w.rcvNxt + w.rcvWnd) (near : w.rcvNxt ≤ w.rcvAnnRightEdge + 1) :
    (w.recved len.toNat).Shows isn (pcb.tcpRecved len) := by
  have max := w.tcpWndMax_eq
  have small := len.toNat_lt
  have sum : (pcb.rcvWnd + len.toUInt32).toNat = (w.rcvWnd + len.toNat) % 2 ^ 32 := by
    rw [UInt32.toNat_add, shows.rcvWnd, UInt16.toNat_toUInt32]
  have ack : ∀ {w' : RcvWindow} {pcb' : TcpRcv} (asks : Prop) [Decidable asks],
      w'.Shows isn pcb' → w'.Shows isn (if asks then pcb'.tcpAckNow else pcb') := by
    intro w' pcb' asks _ shows'
    split
    · exact { shows' with }
    · exact shows'
  have overflow : (pcb.rcvWnd + len.toUInt32 > pcb.tcpWndMax ∨
      pcb.rcvWnd + len.toUInt32 < pcb.rcvWnd) ↔
        ((w.rcvWnd + len.toNat) % 2 ^ 32 > w.tcpWndMax ∨
          (w.rcvWnd + len.toNat) % 2 ^ 32 < w.rcvWnd) := by
    rw [gt_iff_lt, UInt32.lt_iff_toNat_lt, UInt32.lt_iff_toNat_lt, sum, shows.tcpWndMax,
      shows.rcvWnd]
  unfold TcpRcv.tcpRecved RcvWindow.recved
  dsimp only
  by_cases full : (w.rcvWnd + len.toNat) % 2 ^ 32 > w.tcpWndMax ∨
      (w.rcvWnd + len.toNat) % 2 ^ 32 < w.rcvWnd
  · rw [if_pos full, if_pos (overflow.mpr full)]
    refine ack _ (updateRcvAnnWnd { shows with rcvWnd := shows.tcpWndMax } max.le ?_ near)
    change w.rcvAnnRightEdge ≤ w.rcvNxt + w.tcpWndMax
    omega
  · rw [if_neg full, if_neg (overflow.not.mpr full)]
    rw [not_or, Nat.not_lt, Nat.not_lt] at full
    refine ack _ (updateRcvAnnWnd { shows with rcvWnd := sum } (full.1.trans max.le) ?_ near)
    change w.rcvAnnRightEdge ≤ w.rcvNxt + (w.rcvWnd + len.toNat) % 2 ^ 32
    omega

theorem output (shows : w.Shows isn pcb) : w.output.Shows isn pcb.announce := by
  refine { shows with rcvAnnRightEdge := ?_ }
  change pcb.rcvNxt + pcb.rcvAnnWnd = _
  rw [shows.rcvNxt, seqAt_add, shows.rcvAnnWnd]
  rfl

/-- Bytes in order are taken and given back. -/
theorem recv (shows : w.Shows isn pcb) (isOpen : w.Open) {data : Bytes} (bytes : 0 < data.length)
    (short : data.length < 2 ^ 16) (within : w.rcvNxt + data.length ≤ w.rcvAnnRightEdge) :
    ∃ pcb', pcb.nextWindow (.tcp (.recv data)) = some pcb' ∧
      ((w.receive data.length).recved (data.length % 2 ^ 16)).Shows isn pcb' := by
  have max := w.tcpWndMax_eq
  have full := isOpen.full
  have edge := isOpen.edge
  have length : (UInt32.ofNat data.length).toNat = data.length := by
    rw [UInt32.toNat_ofNat']
    omega
  have fits : data.length ≤ w.rcvWnd := by omega
  obtain ⟨taken, is, took⟩ := shows.receive (by omega) edge (length.le.trans fits)
    (by rw [length]; omega)
  rw [length] at took
  obtain ⟨nxt, right, wnd⟩ := w.receive_ends data.length
  have given := took.recved (UInt16.ofNat data.length) (by omega) (by omega) (by omega)
  rw [UInt16.toNat_ofNat'] at given
  refine ⟨_, by rw [TcpRcv.nextWindow, is]; rfl, ?_⟩
  unfold TcpRcv.afterReceive
  dsimp only
  rw [if_neg Bool.false_ne_true, if_pos (List.ne_nil_of_length_pos bytes),
    if_neg fun both => Bool.false_ne_true both.1]
  exact given

/-- The end of the stream is taken. -/
theorem fin (shows : w.Shows isn pcb) (isOpen : w.Open) (near : w.rcvNxt ≤ w.rcvAnnRightEdge) :
    ∃ pcb', pcb.nextWindow (.tcp .fin) = some pcb' ∧ w.fin.Shows isn pcb' := by
  have max := w.tcpWndMax_eq
  have full := isOpen.full
  have fits : (1 : UInt32).toNat ≤ w.rcvWnd := by
    change 1 ≤ _
    omega
  obtain ⟨taken, is, took⟩ := shows.receive (by omega) isOpen.edge fits (Nat.succ_le_succ near)
  have less : (1 : UInt32).toNat = 1 := rfl
  rw [less] at took
  obtain ⟨-, -, wnd⟩ := w.receive_ends 1
  have more : (w.receive 1).rcvWnd ≠ (w.receive 1).tcpWndMax := by
    rw [RcvWindow.tcpWndMax_eq]
    omega
  have more' : taken.rcvWnd ≠ taken.tcpWndMax := by
    rw [Ne, ← UInt32.toNat_inj, took.rcvWnd, took.tcpWndMax]
    exact more
  refine ⟨_, by rw [TcpRcv.nextWindow, is]; rfl, ?_⟩
  unfold TcpRcv.afterReceive RcvWindow.fin
  dsimp only
  rw [if_pos more, if_pos rfl, if_neg (not_not.mpr rfl), if_pos ⟨rfl, more'⟩]
  refine { took with rcvWnd := ?_ }
  change (taken.rcvWnd + 1).toNat = (w.receive 1).rcvWnd + 1
  rw [UInt32.toNat_add, took.rcvWnd]
  change (_ + 1) % 2 ^ 32 = _
  omega

end RcvWindow.Shows

namespace WindowedSession

variable {state : WindowedSession} {isn : UInt32} {pcb : TcpRcv}

/-- The window is open and that of a pcb. Nothing but the end of the stream has come from beyond
what was announced. -/
structure Shown (state : WindowedSession) (isn : UInt32) (pcb : TcpRcv) : Prop where
  shows : state.window.Shows isn pcb
  isOpen : state.window.Open
  near : state.window.rcvNxt ≤ state.window.rcvAnnRightEdge + 1
  announced : state.session.pcb.state = .established →
    state.window.rcvNxt ≤ state.window.rcvAnnRightEdge

/-- An event does to the pcb what it does to the window. -/
theorem Shown.step (shown : Shown state isn pcb) {event : WindowEvent}
    (enabled : state.enabled event) :
    ∃ pcb', pcb.nextWindow event = some pcb' ∧ Shown (state.step event) isn pcb' := by
  have isOpen := nextWindow_open shown.isOpen enabled
  cases event with
  | output =>
    exact ⟨_, rfl, shown.shows.output, isOpen, Nat.le_succ_of_le (Nat.le_add_right _ _),
      fun _ => Nat.le_add_right _ _⟩
  | tcp event =>
    have before := state.session.established_before event
    cases event with
    | recv data =>
      obtain ⟨⟨_, _, _, bytes, short⟩, within⟩ := enabled
      obtain ⟨pcb', is, shows⟩ := shown.shows.recv shown.isOpen bytes short within
      have inside : (nextWindow state.window (.tcp (.recv data))).rcvNxt ≤
          (nextWindow state.window (.tcp (.recv data))).rcvAnnRightEdge := by
        rw [nextWindow, (RcvWindow.recved_ends _ _).1, (RcvWindow.recved_ends _ _).2,
          (RcvWindow.receive_ends _ _).1, (RcvWindow.receive_ends _ _).2.1]
        exact within
      exact ⟨pcb', is, shows, isOpen, Nat.le_succ_of_le inside, fun _ => inside⟩
    | fin =>
      have announced := shown.announced enabled.2.2
      obtain ⟨pcb', is, shows⟩ := shown.shows.fin shown.isOpen announced
      obtain ⟨nxt, right⟩ := state.window.fin_ends
      refine ⟨pcb', is, shows, isOpen, ?_, fun established => absurd rfl (before established).2⟩
      change state.window.fin.rcvNxt ≤ state.window.fin.rcvAnnRightEdge + 1
      omega
    | connected | wrote | read | readError | sent | finalAck | rst | abort | reuse =>
      exact ⟨pcb, rfl, shown.shows, shown.isOpen, shown.near,
        fun established => shown.announced (before established).1⟩

/-- In every run the window is that of the pcb, and no assertion about it fails. -/
theorem Shown.runs (shown : Shown state isn pcb) {events : List WindowEvent}
    (legal : windowSystem.Legal state events) :
    ∃ pcb', events.foldlM TcpRcv.nextWindow pcb = some pcb' ∧
      Shown (windowSystem.run events state) isn pcb' := by
  induction events generalizing state pcb with
  | nil => exact ⟨pcb, rfl, shown⟩
  | cons event rest inductionHypothesis =>
    obtain ⟨enabled, later⟩ := (windowSystem.legal_cons state event rest).mp legal
    obtain ⟨next, is, shown'⟩ := shown.step enabled
    obtain ⟨last, run, shown''⟩ := inductionHypothesis shown' later
    exact ⟨last, by rw [List.foldlM_cons, is]; exact run, shown''⟩

end WindowedSession

/-- In every run of a session from the SYN on, the window that is computed without wrapping around
is the one that the functions of the receiving half compute with 32-bit numbers. -/
theorem window_of_pcb (localIp remoteIp : IpCell) (localPort remotePort : Port) (seqno : UInt32)
    (mss : UInt16) (wndScale sack : Bool) (events : List WindowEvent) :
    let state := WindowedSession.init localIp remoteIp localPort remotePort
      (RcvWindow.listenInput 0 wndScale mss.toNat)
    windowSystem.Legal state events →
      ∃ pcb, events.foldlM TcpRcv.nextWindow (.listenInput seqno mss wndScale sack) = some pcb ∧
        (windowSystem.run events state).window.Shows seqno pcb := by
  intro state legal
  have shown : WindowedSession.Shown state seqno (.listenInput seqno mss wndScale sack) :=
    ⟨.listenInput seqno mss wndScale sack, RcvWindow.listenInput_open 0 wndScale mss.toNat,
      Nat.le_succ _, fun _ => le_rfl⟩
  obtain ⟨pcb, is, shown'⟩ := shown.runs legal
  exact ⟨pcb, is, shown'.shows⟩

end Net2Tr
