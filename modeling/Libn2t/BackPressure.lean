/-
This file is about the client bytes that wait in `recv_buf` of a `Socket`: are
they bounded by the receive window that lwIP advertises?

The recv callback gives every segment back to the window with `tcp_recved`, also
one that nobody has asked for and that goes into `recv_buf`, while `tcp_recved`
is for data that the application has processed. So the window never closes, and
as long as the session does not ask for data the client may send one window
after another.
-/

import Libn2t.TcpInvariant

namespace Net2Tr

/-- `TCP_WND`, which is four times `TCP_MSS`. -/
def tcpWnd : Nat := 4 * 1460

/-- The receive window of a pcb. Sequence numbers do not wrap around here; lwIP only looks at
differences of them. -/
structure RcvWindow where
  rcvNxt : Nat
  rcvWnd : Nat
  rcvAnnWnd : Nat
  rcvAnnRightEdge : Nat
  wndScale : Bool
  mss : Nat
deriving DecidableEq, Repr

namespace RcvWindow

variable (w : RcvWindow)

/-- `TCP_WND_MAX`. -/
def tcpWndMax : Nat := if w.wndScale then tcpWnd else min tcpWnd 0xFFFF

/-- What `tcp_alloc` and `tcp_listen_input` set up for a SYN; `wndScale` is whether its options ask
for window scaling. -/
def listenInput (seqno : Nat) (wndScale : Bool) (mss : Nat) : RcvWindow where
  rcvNxt := seqno + 1
  rcvWnd := if wndScale then tcpWnd else min tcpWnd 0xFFFF
  rcvAnnWnd := if wndScale then tcpWnd else min tcpWnd 0xFFFF
  rcvAnnRightEdge := seqno + 1
  wndScale := wndScale
  mss := mss

/-- `tcp_update_rcv_ann_wnd`. -/
def updateRcvAnnWnd : RcvWindow :=
  if w.rcvNxt + w.rcvWnd ≥ w.rcvAnnRightEdge + min (tcpWnd / 2) w.mss then
    { w with rcvAnnWnd := w.rcvWnd }
  else if w.rcvNxt > w.rcvAnnRightEdge then { w with rcvAnnWnd := 0 }
  else { w with rcvAnnWnd := w.rcvAnnRightEdge - w.rcvNxt }

/-- `tcp_receive`, for the next `tcplen` sequence numbers. -/
def receive (tcplen : Nat) : RcvWindow :=
  { w with rcvNxt := w.rcvNxt + tcplen, rcvWnd := w.rcvWnd - tcplen }.updateRcvAnnWnd

/-- `tcp_recved`. -/
def recved (len : Nat) : RcvWindow :=
  let rcvWnd := (w.rcvWnd + len) % 2 ^ 32
  if rcvWnd > w.tcpWndMax ∨ rcvWnd < w.rcvWnd then
    { w with rcvWnd := w.tcpWndMax }.updateRcvAnnWnd
  else { w with rcvWnd := rcvWnd }.updateRcvAnnWnd

/-- What `tcp_input` does for a FIN. -/
def fin : RcvWindow :=
  let w := w.receive 1
  if w.rcvWnd ≠ w.tcpWndMax then { w with rcvWnd := w.rcvWnd + 1 } else w

/-- A segment goes out and advertises the window. -/
def output : RcvWindow := { w with rcvAnnRightEdge := w.rcvNxt + w.rcvAnnWnd }

/-- Everything received has been given back, and no more than the window has been advertised. -/
structure Open : Prop where
  full : w.rcvWnd = w.tcpWndMax
  edge : w.rcvAnnRightEdge ≤ w.rcvNxt + w.rcvWnd
  announced : w.rcvAnnWnd ≤ w.rcvWnd

end RcvWindow

/-- A session with the receive window of its pcb. `unasked` counts the bytes that have found no recv
handler since the last `async_recv`. -/
structure WindowedSession where
  session : TcpSession
  window : RcvWindow
  unasked : Nat
deriving DecidableEq, Repr

/-- An event of the session, or a segment to the client. -/
inductive WindowEvent where
  | tcp (event : TcpEvent)
  | output
deriving DecidableEq, Repr

namespace TcpSession

/-- The session calls `async_recv`. -/
def asks (s : TcpSession) : TcpEvent → Bool
  | .wrote ok => ok && s.status = .forward
  | .read data _ => s.status = .request && (3 < data.length && data.take 3 = replyHead)
  | _ => false

/-- The bytes of the event that no recv handler takes. -/
def parks (s : TcpSession) : TcpEvent → Nat
  | .recv data => if s.pcb.recv ∧ s.inSock.recv = none then data.length else 0
  | _ => 0

end TcpSession

namespace WindowedSession

/-- The session of a fresh pcb, started, with a window. -/
def init (localIp remoteIp : IpCell) (localPort remotePort : Port) (window : RcvWindow) :
    WindowedSession where
  session := .init localIp remoteIp localPort remotePort
  window := window
  unasked := 0

/-- The event can happen; client data respects the advertised window. -/
def enabled (state : WindowedSession) : WindowEvent → Prop
  | .tcp (.recv data) => state.session.enabled (.recv data) ∧
    state.window.rcvNxt + data.length ≤ state.window.rcvAnnRightEdge
  | .tcp event => state.session.enabled event
  | .output => True

/-- What the event does to the window. Whether or not a recv callback is registered, lwIP's own
included, it ends with `tcp_recved`. -/
def nextWindow (window : RcvWindow) : WindowEvent → RcvWindow
  | .tcp (.recv data) => (window.receive data.length).recved (data.length % 2 ^ 16)
  | .tcp .fin => window.fin
  | .tcp _ => window
  | .output => window.output

/-- The effect of an event. -/
def step (state : WindowedSession) (event : WindowEvent) : WindowedSession :=
  match event with
  | .tcp tcp =>
    { session := state.session.step tcp
      window := nextWindow state.window event
      unasked :=
        if state.session.asks tcp then 0 else state.unasked + state.session.parks tcp }
  | .output => { state with window := nextWindow state.window event }

/-- The waiting bytes fit the maximum window. -/
def Bounded (state : WindowedSession) : Prop :=
  state.session.inSock.recvBuf.length ≤ state.window.tcpWndMax

/-- A segment that finds no recv handler brings the bytes that have found none since the last
`async_recv` to at most one maximum window. -/
def Paced (state : WindowedSession) : WindowEvent → Prop
  | .tcp (.recv data) =>
    state.session.pcb.recv = true → state.session.inSock.recv = none →
      state.unasked + data.length ≤ state.window.tcpWndMax
  | _ => True

instance (state : WindowedSession) (event : WindowEvent) : Decidable (state.enabled event) :=
  match event with
  | .tcp (.recv data) =>
    inferInstanceAs (Decidable (state.session.enabled (.recv data) ∧ _ ≤ _))
  | .tcp (.connected ok) => inferInstanceAs (Decidable (state.session.enabled (.connected ok)))
  | .tcp (.wrote ok) => inferInstanceAs (Decidable (state.session.enabled (.wrote ok)))
  | .tcp (.read data accepted) =>
    inferInstanceAs (Decidable (state.session.enabled (.read data accepted)))
  | .tcp .readError => inferInstanceAs (Decidable (state.session.enabled .readError))
  | .tcp .fin => inferInstanceAs (Decidable (state.session.enabled .fin))
  | .tcp (.sent len) => inferInstanceAs (Decidable (state.session.enabled (.sent len)))
  | .tcp .finalAck => inferInstanceAs (Decidable (state.session.enabled .finalAck))
  | .tcp .rst => inferInstanceAs (Decidable (state.session.enabled .rst))
  | .tcp .abort => inferInstanceAs (Decidable (state.session.enabled .abort))
  | .tcp (.reuse localIp remoteIp localPort remotePort) =>
    inferInstanceAs (Decidable
      (state.session.enabled (.reuse localIp remoteIp localPort remotePort)))
  | .output => isTrue trivial

instance (state : WindowedSession) : Decidable state.Bounded :=
  inferInstanceAs (Decidable (_ ≤ _))

instance (state : WindowedSession) (event : WindowEvent) : Decidable (state.Paced event) :=
  match event with
  | .tcp (.recv _) => inferInstanceAs (Decidable (_ → _ → _ ≤ _))
  | .tcp (.connected _) | .tcp (.wrote _) | .tcp (.read _ _) | .tcp .readError | .tcp .fin
  | .tcp (.sent _) | .tcp .finalAck | .tcp .rst | .tcp .abort | .tcp (.reuse ..) | .output =>
    isTrue trivial

end WindowedSession

/-- A session with its window as a transition system. -/
def windowSystem : Transition.System WindowedSession WindowEvent where
  enabled := WindowedSession.enabled
  step := WindowedSession.step

instance (state : WindowedSession) (event : WindowEvent) :
    Decidable (windowSystem.enabled state event) :=
  inferInstanceAs (Decidable (state.enabled event))

namespace RcvWindow

variable {w : RcvWindow}

/-! ### The window -/

theorem tcpWndMax_eq (w : RcvWindow) : w.tcpWndMax = 5840 := by
  unfold tcpWndMax
  split <;> rfl

theorem listenInput_open (seqno : Nat) (wndScale : Bool) (mss : Nat) :
    (listenInput seqno wndScale mss).Open :=
  ⟨rfl, Nat.le_add_right _ _, Nat.le_refl _⟩

theorem updateRcvAnnWnd_cases (w : RcvWindow) :
    ∃ rcvAnnWnd, w.updateRcvAnnWnd = { w with rcvAnnWnd := rcvAnnWnd } ∧
      (w.rcvAnnRightEdge ≤ w.rcvNxt + w.rcvWnd → rcvAnnWnd ≤ w.rcvWnd) := by
  unfold updateRcvAnnWnd
  split
  · exact ⟨w.rcvWnd, rfl, fun _ => Nat.le_refl _⟩
  · split
    · exact ⟨0, rfl, fun _ => Nat.zero_le _⟩
    · exact ⟨_, rfl, Nat.sub_le_iff_le_add'.mpr⟩

/-- What is received shrinks the window from the left. -/
theorem Open.receive (isOpen : w.Open) {tcplen : Nat} (fits : tcplen ≤ w.rcvWnd) :
    ∃ rcvAnnWnd ≤ w.rcvWnd - tcplen, w.receive tcplen =
      { w with
        rcvNxt := w.rcvNxt + tcplen
        rcvWnd := w.rcvWnd - tcplen
        rcvAnnWnd := rcvAnnWnd } := by
  obtain ⟨rcvAnnWnd, update, announced⟩ := updateRcvAnnWnd_cases
    { w with rcvNxt := w.rcvNxt + tcplen, rcvWnd := w.rcvWnd - tcplen }
  refine ⟨rcvAnnWnd, announced ?_, update⟩
  have edge := isOpen.edge
  change w.rcvAnnRightEdge ≤ w.rcvNxt + tcplen + (w.rcvWnd - tcplen)
  omega

/-- What is received and given back leaves the window open. -/
theorem Open.recved (isOpen : w.Open) {len : Nat} (fits : len ≤ w.rcvWnd) :
    ((w.receive len).recved (len % 2 ^ 16)).Open := by
  obtain ⟨earlier, _, received⟩ := isOpen.receive fits
  obtain ⟨full, edge, _⟩ := isOpen
  have max := w.tcpWndMax_eq
  rw [received, Nat.mod_eq_of_lt (by omega), RcvWindow.recved]
  dsimp only
  rw [Nat.sub_add_cancel fits, Nat.mod_eq_of_lt (by omega)]
  change (if w.rcvWnd > w.tcpWndMax ∨ w.rcvWnd < w.rcvWnd - len then _ else _ : RcvWindow).Open
  rw [if_neg (by omega)]
  obtain ⟨rcvAnnWnd, update, announced⟩ := updateRcvAnnWnd_cases
    { w with rcvNxt := w.rcvNxt + len, rcvAnnWnd := earlier }
  have right : w.rcvAnnRightEdge ≤ w.rcvNxt + len + w.rcvWnd := by omega
  rw [update]
  exact ⟨full, right, announced right⟩

theorem Open.fin (isOpen : w.Open) : w.fin.Open := by
  have max := w.tcpWndMax_eq
  have full := isOpen.full
  have edge := isOpen.edge
  obtain ⟨rcvAnnWnd, announced, received⟩ := @Open.receive _ isOpen 1 (by omega)
  rw [RcvWindow.fin, received]
  change (if w.rcvWnd - 1 ≠ w.tcpWndMax then _ else _ : RcvWindow).Open
  rw [if_pos (by omega)]
  refine ⟨?_, ?_, ?_⟩
  · change w.rcvWnd - 1 + 1 = w.tcpWndMax
    omega
  · change w.rcvAnnRightEdge ≤ w.rcvNxt + 1 + (w.rcvWnd - 1 + 1)
    omega
  · change rcvAnnWnd ≤ w.rcvWnd - 1 + 1
    omega

theorem Open.output (isOpen : w.Open) : w.output.Open := by
  obtain ⟨full, edge, announced⟩ := isOpen
  exact ⟨full, Nat.add_le_add_left announced _, announced⟩

end RcvWindow

namespace TcpSession

variable {s t u : TcpSession}

/-! ### What waits in the socket -/

/-- The waiting bytes are the same, and a closed connection has stayed closed. -/
structure Holds (s t : TcpSession) : Prop where
  recvBuf : t.inSock.recvBuf = s.inSock.recvBuf
  pcbFreed : t.inSock.pcbFreed = false → s.inSock.pcbFreed = false

theorem Holds.trans (first : Holds s t) (second : Holds t u) : Holds s u where
  recvBuf := second.recvBuf.trans first.recvBuf
  pcbFreed live := first.pcbFreed (second.pcbFreed live)

theorem Holds.of_eq (recvBuf : t.inSock.recvBuf = s.inSock.recvBuf)
    (pcbFreed : t.inSock.pcbFreed = s.inSock.pcbFreed) : Holds s t :=
  ⟨recvBuf, fun live => pcbFreed.symm.trans live⟩

theorem holds_destroy (s : TcpSession) : Holds s s.destroy :=
  .of_eq s.destroy_recvBuf s.destroy_pcbFreed

theorem holds_release (s : TcpSession) : Holds s s.release := by
  rcases s.release_cases with same | destructed
  · rw [same]
    exact .of_eq rfl rfl
  · rw [destructed]
    exact s.holds_destroy.trans (.of_eq rfl rfl)

theorem holds_runSent (s : TcpSession) (call : Option (SentHandler × Bool)) :
    Holds s (s.runSent call) := by
  match call with
  | none => exact .of_eq rfl rfl
  | some (.inAsyncWrite, false) =>
    change Holds s s.inSent
    unfold inSent
    split <;> exact .of_eq rfl rfl
  | some (.inAsyncWrite, true) => exact s.holds_destroy

theorem holds_sentEvent (s : TcpSession) (len : Nat) : Holds s (s.sentEvent len) := by
  by_cases registered : s.pcb.sent = true
  · by_cases done : s.inSock.pendingLen - UInt32.ofNat len = 0
    · rw [sentEvent_done registered len done]
      refine Holds.trans ?_ (holds_runSent _ _)
      exact .of_eq rfl rfl
    · rw [sentEvent_counting registered len done]
      exact .of_eq rfl rfl
  · rw [Bool.not_eq_true] at registered
    rw [sentEvent_unregistered registered]
    exact .of_eq rfl rfl

theorem holds_errEvent (s : TcpSession) (err : Err) : Holds s (s.errEvent err) := by
  cases registered : s.inSock.err with
  | none =>
    simp only [errEvent, Socket.errCallback, registered, runErr]
    exact ⟨rfl, fun wrong => by cases wrong⟩
  | some handler =>
    cases handler
    rw [errEvent_eq registered]
    refine Holds.trans ?_ (holds_destroy _)
    exact ⟨rfl, fun wrong => by cases wrong⟩

theorem holds_inAsyncWrite (s : TcpSession) (data : Bytes) (accepted : Bool) :
    Holds s (s.inAsyncWrite data accepted) := by
  by_cases freed : s.inSock.pcbFreed = true
  · rw [inAsyncWrite_freed freed]
    refine Holds.trans ?_ (holds_destroy _)
    exact .of_eq rfl rfl
  · rw [Bool.not_eq_true] at freed
    rw [inAsyncWrite_live freed]
    exact .of_eq rfl rfl

/-- Asking on an open connection takes everything that waits. -/
theorem inAsyncRead_empties (live : s.inSock.pcbFreed = false) :
    s.inAsyncRead.inSock.recvBuf = [] ∧ s.inAsyncRead.inSock.pcbFreed = false := by
  by_cases empty : s.inSock.recvBuf = []
  · rw [inAsyncRead_park live empty]
    exact ⟨empty, live⟩
  · rw [inAsyncRead_take live empty]
    unfold inRecv
    split <;> exact ⟨rfl, live⟩

theorem holds_inAsyncRead (freed : s.inSock.pcbFreed = true) : Holds s s.inAsyncRead := by
  rw [inAsyncRead_freed freed]
  refine Holds.trans ?_ (holds_destroy _)
  exact .of_eq rfl rfl

/-- What an event leaves in the socket, on a connection that is open before. -/
structure Leaves (s : TcpSession) (event : TcpEvent) (t : TcpSession) : Prop where
  recvBuf : s.inSock.pcbFreed = false → t.inSock.recvBuf.length =
    if s.asks event then 0 else s.inSock.recvBuf.length + s.parks event
  less : s.parks event = 0 → t.inSock.recvBuf.length ≤ s.inSock.recvBuf.length
  pcbFreed : t.inSock.pcbFreed = false → s.inSock.pcbFreed = false

theorem Leaves.of_holds {event : TcpEvent} (quiet : s.asks event = false)
    (nothing : s.parks event = 0) (holds : Holds s t) : Leaves s event t := by
  refine ⟨fun _ => ?_, fun _ => ?_, holds.pcbFreed⟩
  · rw [quiet, nothing, holds.recvBuf]
    rfl
  · rw [holds.recvBuf]

theorem Leaves.release {event : TcpEvent} (leaves : Leaves s event t) :
    Leaves s event t.release := by
  have released := t.holds_release
  refine ⟨fun live => ?_, fun nothing => ?_, fun live => leaves.pcbFreed (released.pcbFreed live)⟩
  · rw [released.recvBuf]
    exact leaves.recvBuf live
  · rw [released.recvBuf]
    exact leaves.less nothing

/-- The handler asks for data. -/
theorem Leaves.of_inAsyncRead {event : TcpEvent} (asks : s.asks event = true)
    (same : t.inSock = s.inSock) : Leaves s event t.inAsyncRead := by
  by_cases freed : s.inSock.pcbFreed = true
  · have holds := holds_inAsyncRead (s := t) (by rw [same]; exact freed)
    refine ⟨fun live => ?_, fun _ => ?_, fun live => ?_⟩
    · cases freed.symm.trans live
    · rw [holds.recvBuf, same]
    · exact same ▸ holds.pcbFreed live
  · rw [Bool.not_eq_true] at freed
    obtain ⟨empty, _⟩ := inAsyncRead_empties (s := t) (by rw [same]; exact freed)
    refine ⟨fun _ => ?_, fun _ => ?_, fun _ => freed⟩
    · rw [empty, if_pos asks]
      rfl
    · rw [empty]
      exact Nat.zero_le _

theorem leaves_wrote (s : TcpSession) (ok : Bool) : Leaves s (.wrote ok) (s.step (.wrote ok)) := by
  refine Leaves.release ?_
  cases ok with
  | false =>
    refine .of_holds rfl rfl (Holds.trans (t := s.complete .write false) ?_ (holds_destroy _))
    exact .of_eq rfl rfl
  | true =>
    have quiet (other : s.status ≠ .forward) : s.asks (.wrote true) = false := by
      rw [asks, Bool.true_and, decide_eq_false other]
    change Leaves s _ (s.complete .write true).outSent
    unfold outSent
    split
    · rename_i handshake
      refine .of_holds (quiet fun wrong => ?_) rfl (.of_eq rfl rfl)
      cases handshake.symm.trans wrong
    · rename_i request
      refine .of_holds (quiet fun wrong => ?_) rfl (.of_eq rfl rfl)
      cases request.symm.trans wrong
    · rename_i forward
      refine .of_inAsyncRead ?_ rfl
      rw [asks, Bool.true_and]
      exact decide_eq_true forward
    · rename_i destroyed
      refine .of_holds (quiet fun wrong => ?_) rfl (.of_eq rfl rfl)
      cases destroyed.symm.trans wrong

theorem leaves_read (s : TcpSession) (data : Bytes) (accepted : Bool) :
    Leaves s (.read data accepted) (s.step (.read data accepted)) := by
  have quiet (other : s.status ≠ .request) : s.asks (.read data accepted) = false := by
    rw [asks, decide_eq_false other, Bool.false_and]
  refine Leaves.release ?_
  unfold outRecv
  split
  · rename_i handshake
    have other : s.asks (.read data accepted) = false :=
      quiet fun wrong => by cases handshake.symm.trans wrong
    split
    · refine .of_holds other rfl (Holds.trans ?_ (holds_destroy _))
      exact .of_eq rfl rfl
    · dsimp only
      split
      · exact .of_holds other rfl (.of_eq rfl rfl)
      · exact .of_holds other rfl (.of_eq rfl rfl)
  · rename_i request
    have status : s.status = .request := request
    split
    · rename_i rejected
      refine .of_holds ?_ rfl (Holds.trans ?_ (holds_destroy _))
      · rw [asks, Bool.and_eq_false_iff, Bool.and_eq_false_iff, decide_eq_false_iff_not,
          decide_eq_false_iff_not, not_lt]
        exact Or.inr (rejected.imp_right fun other => decide_eq_false other)
      · exact .of_eq rfl rfl
    · rename_i passed
      obtain ⟨long, head⟩ := not_or.mp passed
      have asked : s.asks (.read data accepted) = true := by
        rw [asks, decide_eq_true status, decide_eq_true (not_le.mp long),
          decide_eq_true (not_not.mp head)]
        rfl
      have taken : Leaves s (.read data accepted) (inAsyncRead
          { s.complete .read true with reads := s.reads ++ [data], status := .forward }) :=
        .of_inAsyncRead asked rfl
      exact ⟨taken.recvBuf, taken.less, taken.pcbFreed⟩
  · rename_i forward
    refine .of_holds (quiet fun wrong => ?_) rfl (Holds.trans ?_ (holds_inAsyncWrite _ _ _))
    · cases forward.symm.trans wrong
    · exact .of_eq rfl rfl
  · rename_i destroyed
    refine .of_holds (quiet fun wrong => ?_) rfl (.of_eq rfl rfl)
    cases destroyed.symm.trans wrong

/-- Client data goes to the parked handler, into the buffer, or to nobody. -/
theorem leaves_recv (s : TcpSession) (data : Bytes) :
    Leaves s (.recv data) (s.step (.recv data)) := by
  refine Leaves.release ?_
  by_cases registered : s.pcb.recv = true
  · cases parked : s.inSock.recv with
    | none =>
      have parks : s.parks (.recv data) = data.length := by
        rw [TcpSession.parks, if_pos ⟨registered, parked⟩]
      rw [recvEvent_buffered registered parked]
      refine ⟨fun _ => ?_, fun nothing => ?_, fun live => live⟩
      · rw [parks]
        exact List.length_append
      · rw [parks] at nothing
        change (s.inSock.recvBuf ++ data).length ≤ _
        rw [List.length_append, nothing]
        exact Nat.le_refl _
    | some handler =>
      cases handler
      have nothing : s.parks (.recv data) = 0 := by
        rw [TcpSession.parks, parked]
        exact if_neg (fun wrong => by cases wrong.2)
      rw [recvEvent_parked registered parked]
      refine .of_holds rfl nothing ?_
      unfold runRecv
      dsimp only
      split
      · refine Holds.trans ?_ (holds_destroy _)
        exact .of_eq rfl rfl
      · unfold inRecv
        split <;> exact .of_eq rfl rfl
  · have nothing : s.parks (.recv data) = 0 := by
      rw [TcpSession.parks]
      exact if_neg fun wrong => registered wrong.1
    rw [Bool.not_eq_true] at registered
    rw [recvEvent_unregistered registered]
    exact .of_holds rfl nothing (.of_eq rfl rfl)

theorem leaves_step (s : TcpSession) (event : TcpEvent) : Leaves s event (s.step event) := by
  cases event with
  | connected ok =>
    refine Leaves.release ?_
    cases ok with
    | false =>
      refine .of_holds rfl rfl (Holds.trans (t := s.complete .connect false) ?_ (holds_destroy _))
      exact .of_eq rfl rfl
    | true => exact .of_holds rfl rfl (.of_eq rfl rfl)
  | wrote ok => exact s.leaves_wrote ok
  | read data accepted => exact s.leaves_read data accepted
  | readError =>
    refine Leaves.release (.of_holds rfl rfl ?_)
    refine Holds.trans (t := s.complete .read false) ?_ (holds_destroy _)
    exact .of_eq rfl rfl
  | recv data => exact s.leaves_recv data
  | fin =>
    refine Leaves.release (.of_holds rfl rfl ?_)
    by_cases registered : s.pcb.recv = true
    · rw [recvEvent_fin (by exact registered)]
      exact ⟨rfl, fun wrong => by cases wrong⟩
    · rw [Bool.not_eq_true] at registered
      rw [recvEvent_unregistered (by exact registered)]
      exact .of_eq rfl rfl
  | sent len =>
    refine Leaves.release (.of_holds rfl rfl (Holds.trans ?_ (holds_sentEvent _ len)))
    exact .of_eq rfl rfl
  | finalAck => exact .of_holds rfl rfl (.of_eq rfl rfl)
  | rst =>
    refine .of_holds rfl rfl (Holds.trans (t := if s.pcb.errf then (s.errEvent .rst).release else s)
      ?_ (.of_eq rfl rfl))
    split
    · exact (s.holds_errEvent .rst).trans (holds_release _)
    · exact .of_eq rfl rfl
  | abort =>
    refine .of_holds rfl rfl ?_
    unfold step
    dsimp only
    split
    · refine Holds.trans ?_ (holds_release _)
      refine Holds.trans ?_ (holds_errEvent _ .abrt)
      exact .of_eq rfl rfl
    · exact .of_eq rfl rfl
  | reuse => exact .of_holds rfl rfl (.of_eq rfl rfl)

end TcpSession

namespace WindowedSession

variable {state : WindowedSession}

/-! ### The count of the unasked bytes -/

/-- The window is open, and while the connection is open the bytes that wait are those that nobody
has asked for. -/
structure Tallied (state : WindowedSession) : Prop where
  wired : state.session.Wired
  window : state.window.Open
  unasked : state.session.inSock.pcbFreed = false →
    state.session.inSock.recvBuf.length = state.unasked

/-- What can happen to the window leaves it open. -/
theorem nextWindow_open (isOpen : state.window.Open) {event : WindowEvent}
    (enabled : state.enabled event) : (nextWindow state.window event).Open := by
  cases event with
  | output => exact isOpen.output
  | tcp event =>
    cases event with
    | recv data =>
      have edge := isOpen.edge
      have inside : state.window.rcvNxt + data.length ≤ state.window.rcvAnnRightEdge := enabled.2
      exact isOpen.recved (by omega)
    | fin => exact isOpen.fin
    | connected | wrote | read | readError | sent | finalAck | rst | abort | reuse => exact isOpen

/-- The session takes its part in every event but the output. -/
theorem session_enabled {event : TcpEvent} (enabled : state.enabled (.tcp event)) :
    state.session.enabled event := by
  cases event with
  | recv data => exact enabled.1
  | connected | wrote | read | readError | fin | sent | finalAck | rst | abort | reuse =>
    exact enabled

theorem Tallied.step (tallied : state.Tallied) {event : WindowEvent}
    (enabled : state.enabled event) : (state.step event).Tallied := by
  have window := nextWindow_open tallied.window enabled
  cases event with
  | output => exact ⟨tallied.wired, window, tallied.unasked⟩
  | tcp event =>
    have leaves := state.session.leaves_step event
    refine ⟨tallied.wired.step event (session_enabled enabled), window, fun live => ?_⟩
    have before : state.session.inSock.pcbFreed = false := leaves.pcbFreed live
    have waiting := leaves.recvBuf before
    rw [tallied.unasked before] at waiting
    exact waiting

/-- A session whose recv callback is registered, on an established connection, has an open
socket. -/
theorem Tallied.live (tallied : state.Tallied) (registered : state.session.pcb.recv = true)
    (established : state.session.pcb.state = .established) :
    state.session.inSock.pcbFreed = false := by
  have undestroyed : state.session.status ≠ .destroy := fun destroyed =>
    Bool.false_ne_true ((tallied.wired.cancelled destroyed).1.symm.trans registered)
  rw [← Bool.not_eq_true]
  exact fun freed => tallied.wired.ended undestroyed freed established

/-- From a state in which the waiting bytes fit the window, a step leads to another one exactly if
it brings no segment that exceeds what a session may leave unasked. -/
theorem Tallied.bounded_step (tallied : state.Tallied) (bounded : state.Bounded)
    {event : WindowEvent} (enabled : state.enabled event) :
    (state.step event).Bounded ↔ state.Paced event := by
  have max (w : RcvWindow) : w.tcpWndMax = state.window.tcpWndMax :=
    w.tcpWndMax_eq.trans state.window.tcpWndMax_eq.symm
  have less {event : TcpEvent} (nothing : state.session.parks event = 0) :
      (state.step (.tcp event)).Bounded := by
    have shrinks := (state.session.leaves_step event).less nothing
    rw [Bounded, max]
    exact shrinks.trans bounded
  cases event with
  | output =>
    refine iff_of_true ?_ trivial
    rw [Bounded, max]
    exact bounded
  | tcp event =>
    cases event with
    | recv data =>
      by_cases parks : state.session.pcb.recv = true ∧ state.session.inSock.recv = none
      · obtain ⟨_, _, established, _⟩ := session_enabled enabled
        have live := tallied.live parks.1 established
        have waiting := (state.session.leaves_step (.recv data)).recvBuf live
        rw [TcpSession.parks, if_pos parks, tallied.unasked live] at waiting
        have total : (state.step (.tcp (.recv data))).session.inSock.recvBuf.length =
            state.unasked + data.length := waiting
        rw [Bounded, max, total]
        exact ⟨fun fits _ _ => fits, fun paced => paced parks.1 parks.2⟩
      · refine iff_of_true (less ?_) fun registered unhandled =>
          absurd ⟨registered, unhandled⟩ parks
        rw [TcpSession.parks, if_neg parks]
    | connected | wrote | read | readError | fin | sent | finalAck | rst | abort | reuse =>
      exact iff_of_true (less rfl) trivial

end WindowedSession

/-- The bytes that wait in `recv_buf` never exceed the maximum window, exactly if no segments that
find no recv handler bring together more than one window between two calls of `async_recv`. -/
theorem recvBuf_bounded (localIp remoteIp : IpCell) (localPort remotePort : Port)
    (window : RcvWindow) (isOpen : window.Open) (events : List WindowEvent)
    (legal : windowSystem.Legal (.init localIp remoteIp localPort remotePort window) events) :
    windowSystem.Throughout WindowedSession.Bounded
        (.init localIp remoteIp localPort remotePort window) events ↔
      windowSystem.Guarded WindowedSession.Paced
        (.init localIp remoteIp localPort remotePort window) events := by
  have tallied : (WindowedSession.init localIp remoteIp localPort remotePort window).Tallied :=
    ⟨TcpSession.wired_init localIp remoteIp localPort remotePort, isOpen, fun _ => rfl⟩
  exact windowSystem.throughout_iff WindowedSession.Tallied WindowedSession.Bounded
    (fun _ _ enabled tallied _ => tallied.step enabled)
    (fun _ _ enabled tallied bounded => tallied.bounded_step bounded enabled)
    legal tallied (Nat.zero_le _)

/-- The window of a pcb whose SYN has been answered. -/
abbrev freshWindow : RcvWindow := (RcvWindow.listenInput 0 true 1460).output

/-- The session of a client whose window is fresh. -/
abbrev freshSession : WindowedSession :=
  .init sampleDst.1 sampleSrc.1 sampleDst.2 sampleSrc.2 freshWindow

/-- A full segment arrives and is acknowledged. -/
abbrev fullSegment : List WindowEvent := [.tcp (.recv (List.replicate 1460 0x61)), .output]

/-- One segment while the session is connecting to the proxy. -/
theorem recvBuf_bounded_segment :
    windowSystem.Throughout WindowedSession.Bounded freshSession fullSegment :=
  (recvBuf_bounded sampleDst.1 sampleSrc.1 sampleDst.2 sampleSrc.2 freshWindow
    (RcvWindow.listenInput_open 0 true 1460).output fullSegment (by decide +kernel)).mpr
    (by decide +kernel)

/-- Five full segments while the session is connecting to the proxy. -/
abbrev fullSegments : List WindowEvent := (List.replicate 5 fullSegment).flatten

/-- All five respect the window that was advertised, and 7300 bytes wait. -/
theorem recvBuf_bounded_segments :
    windowSystem.Legal freshSession fullSegments ∧
      ¬ windowSystem.Throughout WindowedSession.Bounded freshSession fullSegments := by
  decide +kernel

end Net2Tr
