/-
This file puts a socket and its connection together. The model of a socket lets
`tcp_write` take what fits the send buffer and no more, lets an acknowledgement
be for bytes that wait for one, and has lwIP call back only while it owns the
pcb. This is what the sending half of its connection does: a run of the two is a
run of each, and both count the same.

A nested call is an event of its own, as in the model of a socket. So is a call
of `tcp_output`, which does nothing while a segment of its connection is
processed.
-/

import Libn2t.TcpSendBuffer

namespace Net2Tr

/-- A socket and the sending half of its connection. -/
structure SocketConn (RecvHandler SentHandler ErrHandler : Type) where
  sock : SocketRun RecvHandler SentHandler ErrHandler
  conn : SndRun

/-- What happens to the two: a method of the socket is called; `tcp_output` is called; a segment
comes, with its acknowledgement, its data and its FIN one after the other; `tcp_fasttmr` sends a FIN
that is pending; the slow timer runs; the connection is reset or aborted. -/
inductive SocketConnEvent (RecvHandler SentHandler ErrHandler : Type) where
  | asyncRecv (handler : RecvHandler)
  | asyncSend (packet : Bytes) (handler : SentHandler) (mem : Nat → Bool)
  | asyncErr (handler : ErrHandler)
  | cancel
  | output (ticks : UInt32) (ok : Nat → Bool) (ackNow : Option AckOutcome)
  | ack (seqno ackno : UInt32) (wnd : UInt16) (tcplen : UInt32) (mss : Option UInt16)
    (gotFin : Bool) (ticks : UInt32)
  | recv (p : PbufChain)
  | fin (mem : Bool)
  | fasttmr (mem : Bool)
  | slowtmr (mem : Bool) (ticks : UInt32) (ok : Nat → Bool) (ackNow : Option AckOutcome)
  | err (err : Err)

variable {RecvHandler SentHandler ErrHandler : Type}

/-- The bytes that `async_send` gives to `tcp_write`, whose length is a `u16_t`. -/
def sendPart (packet : Bytes) : Bytes := packet.take (packet.length % 2 ^ 16)

/-- The lengths in the calls of the sent callback for what a segment acknowledges: the loop of
`tcp_input` reports at most `0xffff` bytes at once. -/
def sentLens : Nat → Nat → List Nat
  | 0, _ => []
  | fuel + 1, acked =>
    if acked = 0 then [] else min acked 0xffff :: sentLens fuel (acked - min acked 0xffff)

namespace SocketConn

/-- A new socket, and a connection that has just been accepted. -/
def new (pcb : TcpPcb) (snd : TcpSnd) : SocketConn RecvHandler SentHandler ErrHandler :=
  ⟨.new pcb, .init snd⟩

variable (run : SocketConn RecvHandler SentHandler ErrHandler)

/-- `async_send` calls `tcp_write`, and that takes the data. -/
def accepts (packet : Bytes) (mem : Nat → Bool) : Bool :=
  !run.sock.sock.pcbFreed &&
    (match run.conn.pcb.tcpWrite (sendPart packet) mem with
      | some (_, .ok) => true
      | _ => false)

/-- The calls of callbacks for an acknowledgement. -/
def sentCalls (processed : Option (TcpSnd × UInt32)) :
    List (SocketEvent RecvHandler SentHandler ErrHandler) :=
  match processed with
  | none => []
  | some (_, acked) =>
    if run.sock.pcb.sent then (sentLens acked.toNat acked.toNat).map .sent else []

/-- What an event is for the socket. The err callback is called when the slow timer gives the
connection up, and when it is reset or aborted. -/
def socketEvents : SocketConnEvent RecvHandler SentHandler ErrHandler →
    List (SocketEvent RecvHandler SentHandler ErrHandler)
  | .asyncRecv handler => [.asyncRecv handler]
  | .asyncSend packet handler mem => [.asyncSend packet handler (run.accepts packet mem)]
  | .asyncErr handler => [.asyncErr handler]
  | .cancel => [.cancel]
  | .ack seqno ackno wnd tcplen mss gotFin ticks =>
    run.sentCalls (run.conn.pcb.processAck seqno ackno wnd tcplen mss gotFin ticks)
  | .recv p => [.recv p]
  | .fin _ => [.fin]
  | .slowtmr mem ticks ok ackNow =>
    if (run.conn.step (.slowtmr mem ticks ok ackNow)).ended ∧ run.sock.pcb.errf then [.err .abrt]
    else []
  | .err err => if run.sock.pcb.errf then [.err err] else []
  | .output .. | .fasttmr _ => []

/-- What an event is for the connection. The recv callback closes it when there is no data. -/
def sndEvents : SocketConnEvent RecvHandler SentHandler ErrHandler → List SndEvent
  | .asyncSend packet _ mem =>
    if run.sock.sock.pcbFreed then [] else [.write (sendPart packet) mem]
  | .output ticks ok ackNow => [.output ticks ok ackNow]
  | .ack seqno ackno wnd tcplen mss gotFin ticks =>
    [.ack seqno ackno wnd tcplen mss gotFin ticks]
  | .fin mem | .fasttmr mem => [.close mem]
  | .slowtmr mem ticks ok ackNow => [.slowtmr mem ticks ok ackNow]
  | .err _ => [.pcbRemove]
  | .asyncRecv _ | .asyncErr _ | .cancel | .recv _ => []

/-- Methods may be called at any time; lwIP does something only for a pcb in `tcp_active_pcbs`. It
calls the recv callback as long as it has not reported the end of the stream with it. -/
def enabled : SocketConnEvent RecvHandler SentHandler ErrHandler → Prop
  | .asyncRecv _ | .asyncSend .. | .asyncErr _ | .cancel => run.conn.failed = false
  | .output .. | .ack .. | .slowtmr .. | .err _ =>
    run.conn.failed = false ∧ run.conn.ended = false
  | .recv _ =>
    run.conn.failed = false ∧ run.conn.ended = false ∧ run.sock.pcb.recv = true ∧
      run.sock.sock.pcbFreed = false
  | .fin _ =>
    run.conn.failed = false ∧ run.conn.ended = false ∧ run.sock.pcb.recv = true ∧
      run.sock.sock.pcbFreed = false ∧ run.conn.pcb.state = .closeWait
  | .fasttmr _ =>
    run.conn.failed = false ∧ run.conn.ended = false ∧ run.sock.sock.pcbFreed = true ∧
      run.conn.pcb.closePend = true

/-- The effect of an event. -/
def step (event : SocketConnEvent RecvHandler SentHandler ErrHandler) :
    SocketConn RecvHandler SentHandler ErrHandler where
  sock := socketSystem.run (run.socketEvents event) run.sock
  conn := sndSystem.run (run.sndEvents event) run.conn

instance (event : SocketConnEvent RecvHandler SentHandler ErrHandler) :
    Decidable (run.enabled event) :=
  match event with
  | .asyncRecv _ | .asyncSend .. | .asyncErr _ | .cancel => inferInstanceAs (Decidable (_ = _))
  | .output .. | .ack .. | .slowtmr .. | .err _ => inferInstanceAs (Decidable (_ ∧ _))
  | .recv _ => inferInstanceAs (Decidable (_ ∧ _ ∧ _ ∧ _))
  | .fin _ => inferInstanceAs (Decidable (_ ∧ _ ∧ _ ∧ _ ∧ _))
  | .fasttmr _ => inferInstanceAs (Decidable (_ ∧ _ ∧ _ ∧ _))

/-- Nothing is sent through a socket that has taken its callbacks back. -/
def SendsRegistered : SocketConnEvent RecvHandler SentHandler ErrHandler → Prop
  | .asyncSend .. => run.sock.pcb.sent = true ∨ run.sock.sock.pcbFreed = true
  | _ => True

instance (event : SocketConnEvent RecvHandler SentHandler ErrHandler) :
    Decidable (run.SendsRegistered event) :=
  match event with
  | .asyncSend .. => inferInstanceAs (Decidable (_ ∨ _))
  | .asyncRecv _ | .asyncErr _ | .cancel | .output .. | .ack .. | .recv _ | .fin _ | .fasttmr _
  | .slowtmr .. | .err _ => isTrue trivial

end SocketConn

/-- A socket and its connection as a transition system. -/
def socketConnSystem : Transition.System (SocketConn RecvHandler SentHandler ErrHandler)
    (SocketConnEvent RecvHandler SentHandler ErrHandler) where
  enabled := SocketConn.enabled
  step := SocketConn.step

instance (run : SocketConn RecvHandler SentHandler ErrHandler)
    (event : SocketConnEvent RecvHandler SentHandler ErrHandler) :
    Decidable (socketConnSystem.enabled run event) :=
  inferInstanceAs (Decidable (run.enabled event))

/-! ### Calls of the sent callback -/

/-- What fits a `u16_t` is reported at once. -/
theorem sentLens_eq {acked : Nat} (small : acked ≤ 0xffff) :
    sentLens acked acked = if acked = 0 then [] else [acked] := by
  cases acked with
  | zero => rfl
  | succ fuel =>
    rw [sentLens, if_neg (Nat.succ_ne_zero fuel), if_neg (Nat.succ_ne_zero fuel),
      Nat.min_eq_left small, Nat.sub_self]
    cases fuel <;> rfl

theorem sendPart_length (packet : Bytes) : (sendPart packet).length = packet.length % 2 ^ 16 :=
  List.length_take_of_le (Nat.mod_le _ _)

/-! ### What the connection counts -/

namespace SndRun

variable {conn : SndRun}

/-- A connection that takes data is in use. -/
theorem ended_of_takesData (takes : TcpSnd.takesData conn.pcb.state = true) :
    conn.ended = false := by
  unfold ended
  cases state : conn.pcb.state with
  | timeWait | closed =>
    rw [state] at takes
    cases takes
  | _ => rfl

theorem close_counts (conn : SndRun) (mem : Bool) :
    (conn.step (.close mem)).written = conn.written ∧
      (conn.step (.close mem)).acked = conn.acked := by
  unfold step
  dsimp only
  split <;> exact ⟨rfl, rfl⟩

/-- Sending counts nothing and leaves the state. -/
theorem Balanced.output_counts (balanced : conn.Balanced) (ticks : UInt32) (ok : Nat → Bool)
    (ackNow : Option AckOutcome) :
    (conn.step (.output ticks ok ackNow)).written = conn.written ∧
      (conn.step (.output ticks ok ackNow)).acked = conn.acked ∧
      (conn.step (.output ticks ok ackNow)).pcb.state = conn.pcb.state := by
  obtain ⟨pcb, sent, err, output, sends⟩ :=
    TcpSnd.tcpOutput_spec conn.pcb ticks ok ackNow balanced.accounted.unsent_valid
  unfold SndRun.step
  dsimp only
  rw [output]
  exact ⟨rfl, rfl, sends.state⟩

/-- The slow timer counts nothing, and leaves the state unless it gives the connection up. -/
theorem Balanced.slowtmr_counts (balanced : conn.Balanced) (mem : Bool) (ticks : UInt32)
    (ok : Nat → Bool) (ackNow : Option AckOutcome) :
    (conn.step (.slowtmr mem ticks ok ackNow)).written = conn.written ∧
      (conn.step (.slowtmr mem ticks ok ackNow)).acked = conn.acked ∧
      ((conn.step (.slowtmr mem ticks ok ackNow)).ended = true ∨
        (conn.step (.slowtmr mem ticks ok ackNow)).pcb.state = conn.pcb.state) := by
  unfold SndRun.step
  dsimp only
  split
  · exact ⟨rfl, rfl, Or.inr rfl⟩
  case h_2 pcb sent runs =>
    refine ⟨rfl, rfl, ?_⟩
    rcases (TcpSnd.tcpSlowtmr_spec balanced.accounted.unacked_valid
      balanced.accounted.unsent_valid runs).state with closed | same
    · exact Or.inl (by simp [ended, closed])
    · exact Or.inr same

end SndRun

/-! ### The invariant -/

namespace SocketConn

variable {run : SocketConn RecvHandler SentHandler ErrHandler}

/-- The socket and its connection count the same, as long as acknowledgements are reported; until
the socket has seen the end of the connection, the connection takes data. -/
structure Agrees (run : SocketConn RecvHandler SentHandler ErrHandler) : Prop where
  queued : run.sock.queued = run.conn.written.length
  acked : run.sock.pcb.sent = true → run.sock.acked = run.conn.acked ∧
    run.conn.acked + run.sock.pcb.unacked = run.conn.written.length
  callbacks : run.sock.pcb.errf = run.sock.pcb.sent
  takes : run.sock.pcb.sent = true → run.sock.sock.pcbFreed = false →
    TcpSnd.takesData run.conn.pcb.state = true
  established : run.sock.sock.pcbFreed = false → run.sock.pcb.state = .established
  unfreed : run.conn.ended = false → run.sock.pcb.freed = false
  balanced : run.conn.ended = false → run.conn.Balanced

/-- What `tcp_write` makes of a call of `async_send`. -/
theorem accepts_spec (balanced : run.conn.Balanced) (unseen : run.sock.sock.pcbFreed = false)
    (packet : Bytes) (mem : Nat → Bool) :
    (run.conn.step (.write (sendPart packet) mem)).written.length = run.conn.written.length +
        (if run.accepts packet mem then packet.length % 2 ^ 16 else 0) ∧
      (run.conn.step (.write (sendPart packet) mem)).acked = run.conn.acked ∧
      (run.conn.step (.write (sendPart packet) mem)).pcb.state = run.conn.pcb.state ∧
      (run.accepts packet mem = true →
        packet.length % 2 ^ 16 ≤ run.conn.pcb.sndBuf.toNat) := by
  have length := sendPart_length packet
  unfold accepts SndRun.step
  rw [unseen, Bool.not_false, Bool.true_and]
  dsimp only
  cases writes : run.conn.pcb.tcpWrite (sendPart packet) mem with
  | none => exact ⟨rfl, rfl, rfl, fun wrong => by cases wrong⟩
  | some result =>
    obtain ⟨pcb, err⟩ := result
    obtain ⟨notOk, quiet⟩ | ⟨ok, written⟩ := TcpSnd.tcpWrite_spec balanced.accounted.unsent_valid
      balanced.accounted.mss (by rw [length]; exact Nat.mod_lt _ (by decide)) writes
    · cases err
      case ok => exact absurd rfl notOk
      all_goals exact ⟨rfl, rfl, quiet.state, fun wrong => by cases wrong⟩
    · subst ok
      refine ⟨?_, rfl, written.sameState, fun _ => length ▸ written.fits⟩
      rw [List.length_append, length]
      rfl

/-- An event keeps the invariant, and may happen to the socket and to its connection. -/
structure Fits (run : SocketConn RecvHandler SentHandler ErrHandler)
    (event : SocketConnEvent RecvHandler SentHandler ErrHandler) : Prop where
  agrees : (run.step event).Agrees
  socket : socketSystem.Legal run.sock (run.socketEvents event)
  connection : sndSystem.Legal run.conn (run.sndEvents event)

namespace Agrees

/-- Only the connection has done something, and it has counted nothing. -/
theorem withConn (agrees : run.Agrees) {conn : SndRun} (written : conn.written = run.conn.written)
    (acked : run.sock.pcb.sent = true → conn.acked = run.conn.acked)
    (takes : run.sock.pcb.sent = true → run.sock.sock.pcbFreed = false →
      TcpSnd.takesData conn.pcb.state = true)
    (inUse : run.conn.ended = false) (balanced : conn.ended = false → conn.Balanced) :
    Agrees { run with conn := conn } where
  queued := by
    rw [written]
    exact agrees.queued
  acked registered := by
    rw [written, acked registered]
    exact agrees.acked registered
  callbacks := agrees.callbacks
  takes := takes
  established := agrees.established
  unfreed _ := agrees.unfreed inUse
  balanced := balanced

/-- Only the socket has done something, and it has counted nothing. -/
theorem withSock (agrees : run.Agrees) {sock : SocketRun RecvHandler SentHandler ErrHandler}
    (queued : sock.queued = run.sock.queued) (acked : sock.acked = run.sock.acked)
    (unacked : sock.pcb.unacked = run.sock.pcb.unacked)
    (callbacks : sock.pcb.errf = sock.pcb.sent)
    (registered : sock.pcb.sent = true → run.sock.pcb.sent = true)
    (pcbFreed : sock.sock.pcbFreed = false → run.sock.sock.pcbFreed = false ∧
      sock.pcb.state = run.sock.pcb.state)
    (unfreed : run.conn.ended = false → sock.pcb.freed = run.sock.pcb.freed) :
    Agrees { run with sock := sock } where
  queued := queued.trans agrees.queued
  acked stays := by
    rw [acked, unacked]
    exact agrees.acked (registered stays)
  callbacks := callbacks
  takes stays unseen := agrees.takes (registered stays) (pcbFreed unseen).1
  established unseen := (pcbFreed unseen).2.trans (agrees.established (pcbFreed unseen).1)
  unfreed inUse := (unfreed inUse).trans (agrees.unfreed inUse)
  balanced := agrees.balanced

/-- A connection ends, and the socket is told if it has not taken its callbacks back. -/
theorem ends (agrees : run.Agrees) (conn : SndRun) (written : conn.written = run.conn.written)
    (acked : conn.acked = run.conn.acked) (ended : conn.ended = true)
    (inUse : run.conn.ended = false) (err : Err) :
    Agrees ⟨socketSystem.run (if run.sock.pcb.errf then [.err err] else []) run.sock, conn⟩ ∧
      socketSystem.Legal run.sock (if run.sock.pcb.errf then [.err err] else []) := by
  have gone : ∀ {P : Prop}, conn.ended = false → P := fun inUse => by
    rw [ended] at inUse
    cases inUse
  cases told : run.sock.pcb.errf with
  | true =>
    have seen : (run.sock.step (.err err)).sock.pcbFreed = true :=
      (SocketRun.errCallback_nobody run.sock.sock err).1
    have never : ∀ {P : Prop}, (run.sock.step (.err err)).sock.pcbFreed = false → P :=
      fun unseen => by
        rw [seen] at unseen
        cases unseen
    refine ⟨⟨?_, fun registered => ?_, agrees.callbacks, fun _ => never, never, gone, gone⟩,
      (socketSystem.legal_cons _ _ _).mpr
        ⟨⟨told, agrees.unfreed inUse⟩, socketSystem.legal_nil _⟩⟩
    · rw [written]
      exact agrees.queued
    · rw [written, acked]
      exact agrees.acked registered
  | false =>
    have silent : ∀ {P : Prop}, run.sock.pcb.sent = true → P := fun registered => by
      rw [← agrees.callbacks, told] at registered
      cases registered
    refine ⟨⟨?_, silent, agrees.callbacks, silent, agrees.established, gone, gone⟩,
      socketSystem.legal_nil _⟩
    rw [written]
    exact agrees.queued

/-- A packet is sent: what `tcp_write` takes fits the send buffer, and both count it. -/
theorem asyncSend (agrees : run.Agrees) (packet : Bytes) (handler : SentHandler)
    (mem : Nat → Bool) (going : run.conn.failed = false)
    (registered : run.SendsRegistered (.asyncSend packet handler mem)) :
    run.Fits (.asyncSend packet handler mem) := by
  cases seen : run.sock.sock.pcbFreed with
  | true =>
    have refused : run.accepts packet mem = false := by
      rw [accepts, seen]
      rfl
    have idle : run.sock.step (.asyncSend packet handler (run.accepts packet mem)) = run.sock := by
      simp [SocketRun.step, Socket.asyncSend, seen]
    have nothing : run.sndEvents (.asyncSend packet handler mem) = [] := if_pos seen
    refine ⟨?_, ?_, ?_⟩
    · have same : run.step (.asyncSend packet handler mem) = run := by
        rw [step, nothing]
        exact congrArg (SocketConn.mk · run.conn) idle
      rw [same]
      exact agrees
    · refine (socketSystem.legal_cons _ _ _).mpr ⟨fun accepted => ?_, socketSystem.legal_nil _⟩
      rw [refused] at accepted
      cases accepted
    · rw [nothing]
      exact sndSystem.legal_nil _
  | false =>
    have registered : run.sock.pcb.sent = true :=
      registered.resolve_right (by rw [seen]; exact Bool.false_ne_true)
    have takes := agrees.takes registered seen
    have inUse := SndRun.ended_of_takesData takes
    have balanced := agrees.balanced inUse
    obtain ⟨written, acked, state, fits⟩ := accepts_spec balanced seen packet mem
    have writes : run.sndEvents (.asyncSend packet handler mem) =
        [.write (sendPart packet) mem] := if_neg (by rw [seen]; exact Bool.false_ne_true)
    have short : (sendPart packet).length < 2 ^ 16 := by
      rw [sendPart_length]
      exact Nat.mod_lt _ (by decide)
    obtain ⟨reported, waiting⟩ := agrees.acked registered
    have queued := agrees.queued
    have pcb : (run.sock.step (.asyncSend packet handler (run.accepts packet mem))).pcb =
        (run.sock.pcb.touch .asyncSend).write (packet.length % 2 ^ 16)
          (run.accepts packet mem) := by
      simp [SocketRun.step, Socket.asyncSend, seen]
    have pcbFreed : (run.sock.step (.asyncSend packet handler
        (run.accepts packet mem))).sock.pcbFreed = run.sock.sock.pcbFreed :=
      SocketRun.asyncSend_pcbFreed _ _ _ _ _
    have counts : (run.sock.step (.asyncSend packet handler (run.accepts packet mem))).queued =
        run.sock.queued + if run.accepts packet mem then packet.length % 2 ^ 16 else 0 := by
      simp [SocketRun.step, seen]
    have next : run.step (.asyncSend packet handler mem) =
        ⟨run.sock.step (.asyncSend packet handler (run.accepts packet mem)),
          run.conn.step (.write (sendPart packet) mem)⟩ := by
      rw [step, writes]
      rfl
    refine ⟨?_, ?_, ?_⟩
    · rw [next]
      refine ⟨?_, fun _ => ⟨?_, ?_⟩, ?_, fun _ _ => ?_, fun _ => ?_, fun _ => ?_,
        fun _ => balanced.write short mem⟩
      · rw [counts, written, queued]
      · change run.sock.acked = _
        rw [acked, reported]
      · change _ + (run.sock.step _).pcb.unacked = _
        rw [pcb, TcpPcb.write_unacked, TcpPcb.touch_unacked, acked, written]
        omega
      · change (run.sock.step _).pcb.errf = (run.sock.step _).pcb.sent
        rw [pcb]
        simpa using agrees.callbacks
      · change TcpSnd.takesData (run.conn.step _).pcb.state = true
        rw [state]
        exact takes
      · change (run.sock.step _).pcb.state = _
        rw [pcb]
        simpa using agrees.established seen
      · change (run.sock.step _).pcb.freed = _
        rw [pcb]
        simpa using agrees.unfreed inUse
    · refine (socketSystem.legal_cons _ _ _).mpr ⟨fun accepted => ?_, socketSystem.legal_nil _⟩
      have fits := fits accepted
      have room := balanced.accounted.sndBuf
      have taken := balanced.taken
      omega
    · rw [writes]
      exact (sndSystem.legal_cons _ _ _).mpr ⟨⟨going, inUse, short⟩, sndSystem.legal_nil _⟩

/-- A segment acknowledges only what waits for it, and both count it. -/
theorem ack (agrees : run.Agrees) (seqno ackno : UInt32) (wnd : UInt16) (tcplen : UInt32)
    (mss : Option UInt16) (gotFin : Bool) (ticks : UInt32) (going : run.conn.failed = false)
    (inUse : run.conn.ended = false) :
    run.Fits (.ack seqno ackno wnd tcplen mss gotFin ticks) := by
  have balanced := agrees.balanced inUse
  obtain ⟨pcb, acked, pcb₁, processed, takes, same, -⟩ :=
    TcpSnd.processAck_spec balanced.accounted seqno ackno wnd tcplen mss gotFin ticks
  obtain ⟨-, bytes⟩ := takes.accounted balanced.accounted
  have room := balanced.accounted.sndBuf
  have taken := balanced.taken
  change _ = 11680 at room
  have conn : run.conn.step (.ack seqno ackno wnd tcplen mss gotFin ticks) =
      { run.conn with pcb := pcb, acked := run.conn.acked + acked.toNat } := by
    unfold SndRun.step
    dsimp only
    rw [processed]
  have after : ({ run.conn with pcb := pcb, acked := run.conn.acked + acked.toNat } :
      SndRun).ended = false → SndRun.Balanced _ := fun inUse =>
    (conn ▸ (balanced.ack seqno ackno wnd tcplen mss gotFin ticks).1).resolve_left
      (by rw [inUse]; exact Bool.false_ne_true)
  have calls : run.socketEvents (.ack seqno ackno wnd tcplen mss gotFin ticks) =
      if run.sock.pcb.sent ∧ acked.toNat ≠ 0 then [.sent acked.toNat] else [] := by
    rw [socketEvents, processed, sentCalls, sentLens_eq (by omega)]
    cases run.sock.pcb.sent with
    | false => rfl
    | true =>
      by_cases none : acked.toNat = 0
      · simp [none]
      · simp [none]
  have legal : sndSystem.Legal run.conn
      (run.sndEvents (.ack seqno ackno wnd tcplen mss gotFin ticks)) :=
    (sndSystem.legal_cons _ _ _).mpr ⟨⟨going, inUse⟩, sndSystem.legal_nil _⟩
  have next : run.step (.ack seqno ackno wnd tcplen mss gotFin ticks) =
      ⟨socketSystem.run (if run.sock.pcb.sent ∧ acked.toNat ≠ 0 then [.sent acked.toNat] else [])
        run.sock, { run.conn with pcb := pcb, acked := run.conn.acked + acked.toNat }⟩ := by
    rw [step, calls, ← conn]
    rfl
  have open_ : run.sock.pcb.sent = true → run.sock.sock.pcbFreed = false →
      TcpSnd.takesData pcb.state = true := fun registered unseen =>
    same.trans (agrees.takes registered unseen)
  split at calls
  case isTrue reports =>
    obtain ⟨registered, some_⟩ := reports
    obtain ⟨reported, waiting⟩ := agrees.acked registered
    have pcbFreed : (run.sock.step (.sent acked.toNat)).sock.pcbFreed = run.sock.sock.pcbFreed :=
      SocketRun.sentCallback_pcbFreed _ _
    refine ⟨?_, ?_, legal⟩
    · rw [next, if_pos ⟨registered, some_⟩]
      refine ⟨agrees.queued, fun _ => ⟨?_, ?_⟩, agrees.callbacks, fun _ unseen => ?_,
        fun unseen => ?_, fun _ => agrees.unfreed inUse, after⟩
      · exact congrArg (· + acked.toNat) reported
      · change run.conn.acked + acked.toNat + (run.sock.pcb.unacked - acked.toNat) =
          run.conn.written.length
        omega
      · exact open_ registered (pcbFreed ▸ unseen)
      · exact agrees.established (pcbFreed ▸ unseen)
    · rw [calls]
      exact (socketSystem.legal_cons _ _ _).mpr ⟨⟨registered, agrees.unfreed inUse,
        Nat.pos_of_ne_zero some_, by omega, by omega⟩, socketSystem.legal_nil _⟩
  case isFalse silent =>
    refine ⟨?_, ?_, legal⟩
    · rw [next, if_neg silent]
      refine agrees.withConn rfl (fun registered => ?_) open_ inUse after
      have none : acked.toNat = 0 := not_not.mp fun some_ => silent ⟨registered, some_⟩
      change run.conn.acked + acked.toNat = _
      rw [none, Nat.add_zero]
    · rw [calls]
      exact socketSystem.legal_nil _

/-- The recv callback without data: the socket sees the end of the stream and closes. -/
theorem fin (agrees : run.Agrees) (mem : Bool) (enabled : run.enabled (.fin mem)) :
    run.Fits (.fin mem) := by
  obtain ⟨going, inUse, registered, unseen, -⟩ := enabled
  have balanced := agrees.balanced inUse
  have waited := agrees.established unseen
  obtain ⟨written, acked⟩ := run.conn.close_counts mem
  have closed : Agrees { run with sock := run.sock.step .fin } :=
    agrees.withSock rfl rfl (by simp [SocketRun.step, Socket.recvCallback])
      (by simpa [SocketRun.step, Socket.recvCallback] using agrees.callbacks)
      (by simp [SocketRun.step, Socket.recvCallback]) (fun wrong => by cases wrong)
      (fun _ => by simp [SocketRun.step, Socket.recvCallback])
  refine ⟨?_, ?_, ?_⟩
  · exact closed.withConn written (fun _ => acked) (fun _ wrong => by cases wrong) inUse
      (fun _ => (balanced.close mem).1)
  · exact (socketSystem.legal_cons _ _ _).mpr
      ⟨⟨registered, agrees.unfreed inUse, waited⟩, socketSystem.legal_nil _⟩
  · exact (sndSystem.legal_cons _ _ _).mpr ⟨⟨going, inUse⟩, sndSystem.legal_nil _⟩

/-- The slow timer, which may give the connection up. -/
theorem slowtmr (agrees : run.Agrees) (mem : Bool) (ticks : UInt32) (ok : Nat → Bool)
    (ackNow : Option AckOutcome) (going : run.conn.failed = false)
    (inUse : run.conn.ended = false) : run.Fits (.slowtmr mem ticks ok ackNow) := by
  have balanced := agrees.balanced inUse
  obtain ⟨written, acked, state⟩ := balanced.slowtmr_counts mem ticks ok ackNow
  have legal : sndSystem.Legal run.conn (run.sndEvents (.slowtmr mem ticks ok ackNow)) :=
    (sndSystem.legal_cons _ _ _).mpr ⟨⟨going, inUse⟩, sndSystem.legal_nil _⟩
  cases ended : (run.conn.step (.slowtmr mem ticks ok ackNow)).ended with
  | true =>
    have calls : run.socketEvents (.slowtmr mem ticks ok ackNow) =
        if run.sock.pcb.errf then [.err .abrt] else [] := by
      rw [socketEvents, ended]
      simp
    obtain ⟨after, told⟩ := agrees.ends _ written acked ended inUse .abrt
    refine ⟨?_, ?_, legal⟩
    · rw [step, calls]
      exact after
    · rw [calls]
      exact told
  | false =>
    have calls : run.socketEvents (.slowtmr mem ticks ok ackNow) = [] := by
      rw [socketEvents, ended]
      simp
    have same := state.resolve_left (by rw [ended]; exact Bool.false_ne_true)
    refine ⟨?_, ?_, legal⟩
    · rw [step, calls]
      exact agrees.withConn written (fun _ => acked)
        (fun registered unseen => (congrArg TcpSnd.takesData same).trans
          (agrees.takes registered unseen))
        inUse (fun _ => (balanced.slowtmr mem ticks ok ackNow).resolve_left
          (by rw [ended]; exact Bool.false_ne_true))
    · rw [calls]
      exact socketSystem.legal_nil _

/-- Every event keeps the invariant, and may happen to the socket and to its connection. -/
theorem fits (agrees : run.Agrees)
    {event : SocketConnEvent RecvHandler SentHandler ErrHandler} (enabled : run.enabled event)
    (registered : run.SendsRegistered event) : run.Fits event := by
  cases event with
  | asyncRecv handler =>
    obtain ⟨pcbFreed, -⟩ := SocketRun.asyncRecv_nobody run.sock.sock handler
    refine ⟨?_, (socketSystem.legal_cons _ _ _).mpr ⟨trivial, socketSystem.legal_nil _⟩,
      sndSystem.legal_nil _⟩
    exact agrees.withSock rfl rfl rfl agrees.callbacks id
      (fun unseen => ⟨pcbFreed ▸ unseen, rfl⟩) (fun _ => rfl)
  | asyncSend packet handler mem => exact agrees.asyncSend packet handler mem enabled registered
  | asyncErr handler =>
    refine ⟨?_, (socketSystem.legal_cons _ _ _).mpr ⟨trivial, socketSystem.legal_nil _⟩,
      sndSystem.legal_nil _⟩
    exact agrees.withSock rfl rfl rfl agrees.callbacks id
      (fun unseen => ⟨SocketRun.asyncErr_pcbFreed run.sock.sock handler ▸ unseen, rfl⟩)
      (fun _ => rfl)
  | cancel =>
    refine ⟨?_, (socketSystem.legal_cons _ _ _).mpr ⟨trivial, socketSystem.legal_nil _⟩,
      sndSystem.legal_nil _⟩
    exact agrees.withSock rfl rfl (run.sock.pcb.touch_unacked .cancel) rfl
      (fun wrong => by cases wrong) (fun unseen => ⟨unseen, run.sock.pcb.touch_state .cancel⟩)
      (fun _ => run.sock.pcb.touch_freed .cancel)
  | output ticks ok ackNow =>
    obtain ⟨going, inUse⟩ := enabled
    have balanced := agrees.balanced inUse
    obtain ⟨written, acked, state⟩ := balanced.output_counts ticks ok ackNow
    refine ⟨?_, socketSystem.legal_nil _, (sndSystem.legal_cons _ _ _).mpr
      ⟨⟨going, inUse⟩, sndSystem.legal_nil _⟩⟩
    exact agrees.withConn written (fun _ => acked)
      (fun registered unseen => (congrArg TcpSnd.takesData state).trans
        (agrees.takes registered unseen))
      inUse (fun _ => (balanced.output ticks ok ackNow).1)
  | ack seqno ackno wnd tcplen mss gotFin ticks =>
    exact agrees.ack seqno ackno wnd tcplen mss gotFin ticks enabled.1 enabled.2
  | recv p =>
    obtain ⟨going, inUse, registered, unseen⟩ := enabled
    obtain ⟨pcbFreed, -⟩ := SocketRun.recvCallback_nobody run.sock.sock run.sock.pcb p.toStr
    have pcb : (run.sock.step (.recv p)).pcb = run.sock.pcb.touch .recvCallback := by
      unfold SocketRun.step Socket.recvCallback
      dsimp only
      split <;> rfl
    refine ⟨?_, (socketSystem.legal_cons _ _ _).mpr ⟨⟨registered, agrees.unfreed inUse,
      agrees.established unseen⟩, socketSystem.legal_nil _⟩, sndSystem.legal_nil _⟩
    have after : Agrees { run with sock := run.sock.step (.recv p) } :=
      agrees.withSock rfl rfl (by rw [pcb, TcpPcb.touch_unacked])
        (by rw [pcb, TcpPcb.touch_errf, TcpPcb.touch_sent]; exact agrees.callbacks)
        (by rw [pcb, TcpPcb.touch_sent]; exact id)
        (fun unseen => ⟨pcbFreed ▸ unseen, by rw [pcb, TcpPcb.touch_state]⟩)
        (fun _ => by rw [pcb, TcpPcb.touch_freed])
    exact after
  | fin mem => exact agrees.fin mem enabled
  | fasttmr mem =>
    obtain ⟨going, inUse, seen, -⟩ := enabled
    obtain ⟨written, acked⟩ := run.conn.close_counts mem
    refine ⟨?_, socketSystem.legal_nil _, (sndSystem.legal_cons _ _ _).mpr
      ⟨⟨going, inUse⟩, sndSystem.legal_nil _⟩⟩
    exact agrees.withConn written (fun _ => acked)
      (fun _ unseen => by rw [seen] at unseen; cases unseen) inUse
      (fun _ => ((agrees.balanced inUse).close mem).1)
  | slowtmr mem ticks ok ackNow => exact agrees.slowtmr mem ticks ok ackNow enabled.1 enabled.2
  | err err =>
    obtain ⟨going, inUse⟩ := enabled
    obtain ⟨after, told⟩ := agrees.ends (run.conn.step .pcbRemove) rfl rfl rfl inUse err
    exact ⟨after, told, (sndSystem.legal_cons _ _ _).mpr
      ⟨⟨going, inUse⟩, sndSystem.legal_nil _⟩⟩

end Agrees

/-- A new socket and a new connection agree. -/
theorem Agrees.new (pcb : TcpPcb) {snd : TcpSnd} (fresh : snd.Fresh) :
    (SocketConn.new pcb snd : SocketConn RecvHandler SentHandler ErrHandler).Agrees where
  queued := rfl
  acked _ := ⟨rfl, rfl⟩
  callbacks := rfl
  takes _ _ := congrArg TcpSnd.takesData fresh.state
  established _ := rfl
  unfreed _ := rfl
  balanced _ := by
    refine ⟨fresh.accounted, ?_⟩
    change 0 + total lenOf snd.queue = 0
    rw [fresh.queue]
    rfl

end SocketConn

/-- A packet is sent and acknowledged with the FIN of the client, and the FIN of the socket is. -/
def sampleConnection : List (SocketConnEvent Nat Nat Nat) :=
  [.asyncSend [1, 2, 3] 0 fun _ => true, .output 1 (fun _ => true) none,
    .ack 100 6514 8760 1 none true 2, .fin true, .output 2 (fun _ => true) (some .sent),
    .ack 101 6515 8760 0 none false 3]

/-- What that is for the socket. -/
def sampleCallbacks : List (SocketEvent Nat Nat Nat) :=
  [.asyncSend [1, 2, 3] 0 true, .sent 3, .fin]

end Net2Tr
