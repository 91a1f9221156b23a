/-
This file is about the counter `pending_len` of a `Socket`. `async_send` adds
the whole length of the packet, gives `tcp_write` that length cut to 16 bits,
and does not look at the result. So the counter is the number of bytes in
flight, and the handler can still be called, exactly as long as every packet is
shorter than 64 KiB and accepted by `tcp_write`.
-/

import Libn2t.SocketRun

namespace Net2Tr

variable {RecvHandler SentHandler ErrHandler : Type}

namespace SocketRun

/-- `pending_len` is what `tcp_write` queued less what has been acknowledged; every byte given to
`async_send` was queued; and a sent handler is parked only while something is unacknowledged. -/
structure Accounted (run : SocketRun RecvHandler SentHandler ErrHandler) : Prop where
  pendingLen : run.sock.pendingLen.toNat + run.acked = run.queued
  whole : run.queued = run.offered
  answered : run.sock.sent ≠ none → run.acked < run.queued

/-- The sends of a socket add up while lwIP owns the pcb. -/
def SendsAccounted (run : SocketRun RecvHandler SentHandler ErrHandler) : Prop :=
  run.pcb.freed = false → run.Accounted

/-- A packet sent on an open connection is shorter than 64 KiB and accepted by `tcp_write`, or it
is empty and waits for earlier bytes. -/
def QueuedWhole (run : SocketRun RecvHandler SentHandler ErrHandler) :
    SocketEvent RecvHandler SentHandler ErrHandler → Prop
  | .asyncSend packet _ accepted =>
    run.sock.pcbFreed = true ∨ (packet = [] ∧ run.sock.pendingLen ≠ 0) ∨
      (packet ≠ [] ∧ packet.length < 2 ^ 16 ∧ accepted = true)
  | _ => True

instance (run : SocketRun RecvHandler SentHandler ErrHandler)
    (event : SocketEvent RecvHandler SentHandler ErrHandler) : Decidable (run.QueuedWhole event) :=
  match event with
  | .asyncSend packet _ accepted =>
    inferInstanceAs (Decidable
      (run.sock.pcbFreed = true ∨ (packet = [] ∧ run.sock.pendingLen ≠ 0) ∨
        (packet ≠ [] ∧ packet.length < 2 ^ 16 ∧ accepted = true)))
  | .asyncRecv _ | .asyncErr _ | .cancel | .recv _ | .fin | .sent _ | .err _ => isTrue trivial

variable {run : SocketRun RecvHandler SentHandler ErrHandler}

/-- The bytes that lwIP holds are those queued and not acknowledged, and they fit the send
buffer. -/
structure InFlight (run : SocketRun RecvHandler SentHandler ErrHandler) : Prop where
  closed : run.pcb.freed = true → run.sock.pcbFreed = true
  unacked : run.pcb.unacked + run.acked = run.queued
  fits : run.pcb.unacked ≤ tcpSndBuf

/-- A step that leaves the sending side alone. -/
structure SendFrame (run next : SocketRun RecvHandler SentHandler ErrHandler) : Prop where
  freed : next.pcb.freed = run.pcb.freed
  pcbFreed : run.sock.pcbFreed = true → next.sock.pcbFreed = true
  unacked : next.pcb.unacked = run.pcb.unacked
  pendingLen : next.sock.pendingLen = run.sock.pendingLen
  sent : next.sock.sent = run.sock.sent ∨ next.sock.sent = none
  offered : next.offered = run.offered
  queued : next.queued = run.queued
  acked : next.acked = run.acked

theorem SendFrame.inFlight {next : SocketRun RecvHandler SentHandler ErrHandler}
    (frame : SendFrame run next) (inFlight : run.InFlight) : next.InFlight := by
  refine ⟨fun freed => ?_, ?_, ?_⟩
  · rw [frame.freed] at freed
    exact frame.pcbFreed (inFlight.closed freed)
  · rw [frame.unacked, frame.acked, frame.queued]
    exact inFlight.unacked
  · rw [frame.unacked]
    exact inFlight.fits

theorem SendFrame.accounted {next : SocketRun RecvHandler SentHandler ErrHandler}
    (frame : SendFrame run next) (accounted : run.SendsAccounted) : next.SendsAccounted := by
  intro live
  rw [frame.freed] at live
  obtain ⟨pendingLen, whole, answered⟩ := accounted live
  refine ⟨?_, ?_, fun parked => ?_⟩
  · rw [frame.pendingLen, frame.acked, frame.queued]
    exact pendingLen
  · rw [frame.queued, frame.offered]
    exact whole
  · rw [frame.acked, frame.queued]
    rcases frame.sent with same | dropped
    · exact answered (same ▸ parked)
    · exact absurd dropped parked

/-- What the events other than sends, acknowledgements and errors do to the sending side. -/
theorem step_sendFrame (event : SocketEvent RecvHandler SentHandler ErrHandler)
    (receiving : match event with
      | .asyncSend .. | .sent _ | .err _ => False
      | _ => True) : SendFrame run (run.step event) := by
  cases event with
  | asyncRecv handler =>
    unfold SocketRun.step Socket.asyncRecv
    dsimp only
    split
    · exact ⟨rfl, id, rfl, rfl, Or.inl rfl, rfl, rfl, rfl⟩
    · split <;> exact ⟨rfl, id, rfl, rfl, Or.inl rfl, rfl, rfl, rfl⟩
  | asyncErr handler =>
    unfold SocketRun.step Socket.asyncErr
    dsimp only
    split <;> exact ⟨rfl, id, rfl, rfl, Or.inl rfl, rfl, rfl, rfl⟩
  | cancel =>
    exact ⟨TcpPcb.touch_freed .cancel run.pcb, id, TcpPcb.touch_unacked .cancel run.pcb, rfl,
      Or.inr rfl, rfl, rfl, rfl⟩
  | recv p =>
    have freed := TcpPcb.touch_freed .recvCallback run.pcb
    have unacked := TcpPcb.touch_unacked .recvCallback run.pcb
    unfold SocketRun.step Socket.recvCallback
    dsimp only
    split <;> exact ⟨freed, id, unacked, rfl, Or.inl rfl, rfl, rfl, rfl⟩
  | fin =>
    exact ⟨(TcpPcb.close_freed _).trans (TcpPcb.touch_freed .recvCallback _), fun _ => rfl,
      (TcpPcb.close_unacked _).trans (TcpPcb.touch_unacked .recvCallback _), rfl, Or.inl rfl, rfl,
      rfl, rfl⟩
  | asyncSend packet handler accepted => exact receiving.elim
  | sent len => exact receiving.elim
  | err err => exact receiving.elim

/-! ### A send -/

theorem step_asyncSend_of_closed (closed : run.sock.pcbFreed = true) (packet : Bytes)
    (handler : SentHandler) (accepted : Bool) :
    run.step (.asyncSend packet handler accepted) = run := by
  simp only [SocketRun.step, Socket.asyncSend, closed, if_true]

theorem step_asyncSend_of_open (opened : run.sock.pcbFreed = false) (packet : Bytes)
    (handler : SentHandler) (accepted : Bool) :
    run.step (.asyncSend packet handler accepted) =
      { run with
        sock := { run.sock with
          pendingLen := run.sock.pendingLen + UInt32.ofNat packet.length
          sent := some handler }
        pcb := (run.pcb.touch .asyncSend).write (packet.length % 2 ^ 16) accepted
        offered := run.offered + packet.length
        queued := run.queued + if accepted then packet.length % 2 ^ 16 else 0 } := by
  simp only [SocketRun.step, Socket.asyncSend, opened, Bool.false_eq_true, if_false]

/-- `tcp_write` queues all of a packet only if its length is no more than 16 bits wide and it is
accepted, or there is nothing to queue. -/
theorem queues_whole_iff (length : Nat) (accepted : Bool) :
    (if accepted = true then length % 2 ^ 16 else 0) = length ↔
      length = 0 ∨ length < 2 ^ 16 ∧ accepted = true := by
  cases accepted with
  | false => simp only [Bool.false_eq_true, if_false, and_false, or_false, eq_comm]
  | true =>
    simp only [if_true, and_true, Nat.mod_eq_iff_lt (show 2 ^ 16 ≠ 0 by decide)]
    omega

theorem InFlight.asyncSend (inFlight : run.InFlight) {packet : Bytes} (handler : SentHandler)
    {accepted : Bool}
    (enabled : run.enabled (.asyncSend packet handler accepted)) :
    (run.step (.asyncSend packet handler accepted)).InFlight := by
  cases closed : run.sock.pcbFreed with
  | true => rwa [step_asyncSend_of_closed closed]
  | false =>
    have live : run.pcb.freed ≠ true := fun freed =>
      absurd (inFlight.closed freed) (by rw [closed]; exact Bool.false_ne_true)
    have unacked := inFlight.unacked
    have fits := inFlight.fits
    rw [step_asyncSend_of_open closed]
    refine ⟨fun freed => ?_, ?_, ?_⟩
    · rw [TcpPcb.write_freed, TcpPcb.touch_freed] at freed
      exact absurd freed live
    · rw [TcpPcb.write_unacked, TcpPcb.touch_unacked]
      dsimp only
      omega
    · rw [TcpPcb.write_unacked, TcpPcb.touch_unacked]
      cases accepted with
      | true =>
        have room : packet.length % 2 ^ 16 ≤ tcpSndBuf - run.pcb.unacked := enabled rfl
        rw [if_pos rfl]
        omega
      | false => exact fits

/-- The sends still add up after a send exactly if it was queued whole. -/
theorem asyncSend_accounted (inFlight : run.InFlight) (accounted : run.SendsAccounted)
    {packet : Bytes} (handler : SentHandler) {accepted : Bool}
    (enabled : run.enabled (.asyncSend packet handler accepted)) :
    (run.step (.asyncSend packet handler accepted)).SendsAccounted ↔
      run.QueuedWhole (.asyncSend packet handler accepted) := by
  cases closed : run.sock.pcbFreed with
  | true =>
    rw [step_asyncSend_of_closed closed]
    exact iff_of_true accounted (Or.inl closed)
  | false =>
    have live : run.pcb.freed = false := by
      cases freed : run.pcb.freed with
      | false => rfl
      | true => rw [inFlight.closed freed] at closed; cases closed
    obtain ⟨pendingLen, whole, answered⟩ := accounted live
    have unacked := inFlight.unacked
    have fits := inFlight.fits
    have queuesWhole := queues_whole_iff packet.length accepted
    have room : accepted = true → packet.length % 2 ^ 16 ≤ tcpSndBuf - run.pcb.unacked := enabled
    have empty : packet = [] ↔ packet.length = 0 := List.length_eq_zero_iff.symm
    have idle : run.sock.pendingLen = 0 ↔ run.sock.pendingLen.toNat = 0 :=
      UInt32.toNat_inj.symm
    rw [step_asyncSend_of_open closed]
    simp only [QueuedWhole, closed, Bool.false_eq_true, false_or, ne_eq, empty, idle]
    constructor
    · intro next
      obtain ⟨_, nextWhole, nextAnswered⟩ :=
        next (by rw [TcpPcb.write_freed, TcpPcb.touch_freed]; exact live)
      dsimp only at nextWhole nextAnswered
      have later := nextAnswered (Option.some_ne_none handler)
      rcases queuesWhole.mp (by omega) with nothing | short
      · exact Or.inl ⟨nothing, by rw [nothing, Nat.zero_mod, ite_self] at later; omega⟩
      · by_cases nothing : packet.length = 0
        · exact Or.inl ⟨nothing, by rw [nothing, Nat.zero_mod, ite_self] at later; omega⟩
        · exact Or.inr ⟨nothing, short⟩
    · intro queuedWhole _
      have all : (if accepted = true then packet.length % 2 ^ 16 else 0) = packet.length :=
        queuesWhole.mpr (queuedWhole.imp And.left And.right)
      have short : packet.length ≤ tcpSndBuf - run.pcb.unacked := by
        rcases queuedWhole with ⟨nothing, _⟩ | ⟨_, short, taken⟩
        · rw [nothing]
          exact Nat.zero_le _
        · have taken := room taken
          rwa [Nat.mod_eq_of_lt short] at taken
      rw [tcpSndBuf] at fits short
      refine ⟨?_, ?_, fun _ => ?_⟩
      · dsimp only
        rw [all, UInt32.toNat_add, UInt32.toNat_ofNat']
        omega
      · dsimp only
        rw [all, whole]
      · dsimp only
        rw [all]
        omega

/-! ### An acknowledgement and an error -/

theorem step_sent (len : Nat) :
    (run.step (.sent len)).sock.pendingLen = run.sock.pendingLen - UInt32.ofNat len ∧
      (run.step (.sent len)).sock.sent =
        (if run.sock.pendingLen - UInt32.ofNat len = 0 then none else run.sock.sent) ∧
      (run.step (.sent len)).sock.pcbFreed = run.sock.pcbFreed := by
  unfold SocketRun.step Socket.sentCallback
  dsimp only
  split
  · exact ⟨rfl, rfl, rfl⟩
  · exact ⟨rfl, rfl, rfl⟩

theorem InFlight.sent (inFlight : run.InFlight) {len : Nat} (enabled : run.enabled (.sent len)) :
    (run.step (.sent len)).InFlight := by
  obtain ⟨_, _, pcbFreed⟩ := run.step_sent len
  have bound : len ≤ run.pcb.unacked := enabled.2.2.2.2
  have unacked := inFlight.unacked
  have fits := inFlight.fits
  refine ⟨fun freed => pcbFreed.trans (inFlight.closed freed), ?_, ?_⟩
  · show run.pcb.unacked - len + (run.acked + len) = run.queued
    omega
  · show run.pcb.unacked - len ≤ tcpSndBuf
    omega

/-- The sent handler goes with the last byte in flight. -/
theorem sent_accounted (inFlight : run.InFlight) (accounted : run.SendsAccounted) {len : Nat}
    (enabled : run.enabled (.sent len)) : (run.step (.sent len)).SendsAccounted := by
  intro live
  obtain ⟨pendingLen, whole, answered⟩ := accounted live
  obtain ⟨nextPendingLen, nextSent, _⟩ := run.step_sent len
  have bound : len ≤ run.pcb.unacked := enabled.2.2.2.2
  have unacked := inFlight.unacked
  have fits := inFlight.fits
  have left : (run.sock.pendingLen - UInt32.ofNat len).toNat = run.pcb.unacked - len := by
    rw [tcpSndBuf] at fits
    rw [UInt32.toNat_sub, UInt32.toNat_ofNat']
    omega
  refine ⟨?_, whole, fun parked => ?_⟩
  · rw [nextPendingLen, left]
    show run.pcb.unacked - len + (run.acked + len) = run.queued
    omega
  · rw [nextSent] at parked
    show run.acked + len < run.queued
    have more : run.sock.pendingLen - UInt32.ofNat len ≠ 0 := fun done => parked (if_pos done)
    have positive : (run.sock.pendingLen - UInt32.ofNat len).toNat ≠ 0 := fun done =>
      more (UInt32.toNat_inj.mp done)
    omega

/-- After an error lwIP owns the pcb no longer. -/
theorem step_err (err : Err) :
    (run.step (.err err)).pcb.freed = true ∧ (run.step (.err err)).sock.pcbFreed = true :=
  ⟨rfl, (errCallback_nobody run.sock err).1⟩

theorem InFlight.step (inFlight : run.InFlight)
    {event : SocketEvent RecvHandler SentHandler ErrHandler} (enabled : run.enabled event) :
    (run.step event).InFlight := by
  cases event with
  | asyncSend packet handler accepted => exact inFlight.asyncSend handler enabled
  | sent len => exact inFlight.sent enabled
  | err err => exact ⟨fun _ => (run.step_err err).2, inFlight.unacked, inFlight.fits⟩
  | asyncRecv handler => exact (step_sendFrame _ trivial).inFlight inFlight
  | asyncErr handler => exact (step_sendFrame _ trivial).inFlight inFlight
  | cancel => exact (step_sendFrame _ trivial).inFlight inFlight
  | recv p => exact (step_sendFrame _ trivial).inFlight inFlight
  | fin => exact (step_sendFrame _ trivial).inFlight inFlight

/-- From a state in which the sends add up, a step leads to another one exactly if it is no send
or one that is queued whole. -/
theorem sendsAccounted_step (inFlight : run.InFlight) (accounted : run.SendsAccounted)
    {event : SocketEvent RecvHandler SentHandler ErrHandler} (enabled : run.enabled event) :
    (run.step event).SendsAccounted ↔ run.QueuedWhole event := by
  cases event with
  | asyncSend packet handler accepted =>
    exact asyncSend_accounted inFlight accounted handler enabled
  | sent len => exact iff_of_true (sent_accounted inFlight accounted enabled) trivial
  | err err =>
    exact iff_of_true (fun live => absurd (live.symm.trans (run.step_err err).1)
      Bool.false_ne_true) trivial
  | asyncRecv handler => exact iff_of_true ((step_sendFrame _ trivial).accounted accounted) trivial
  | asyncErr handler => exact iff_of_true ((step_sendFrame _ trivial).accounted accounted) trivial
  | cancel => exact iff_of_true ((step_sendFrame _ trivial).accounted accounted) trivial
  | recv p => exact iff_of_true ((step_sendFrame _ trivial).accounted accounted) trivial
  | fin => exact iff_of_true ((step_sendFrame _ trivial).accounted accounted) trivial

end SocketRun

/-- In a run of a socket the sends add up throughout, exactly if each packet sent on an open
connection is shorter than 64 KiB and accepted by `tcp_write`, or is empty and waits for earlier
bytes. -/
theorem sends_accounted (pcb : TcpPcb)
    (events : List (SocketEvent RecvHandler SentHandler ErrHandler))
    (legal : socketSystem.Legal (.new pcb) events) :
    socketSystem.Throughout SocketRun.SendsAccounted (.new pcb) events ↔
      socketSystem.Guarded SocketRun.QueuedWhole (.new pcb) events := by
  have inFlight : (SocketRun.new pcb : SocketRun RecvHandler SentHandler ErrHandler).InFlight :=
    ⟨fun freed => absurd freed Bool.false_ne_true, rfl, Nat.zero_le _⟩
  have accounted : (SocketRun.new pcb :
      SocketRun RecvHandler SentHandler ErrHandler).SendsAccounted :=
    fun _ => ⟨rfl, rfl, fun parked => absurd rfl parked⟩
  exact socketSystem.throughout_iff SocketRun.InFlight SocketRun.SendsAccounted
    (fun _ _ enabled inFlight _ => inFlight.step enabled)
    (fun _ _ enabled inFlight accounted => SocketRun.sendsAccounted_step inFlight accounted enabled)
    legal inFlight accounted

/-- Two sends, acknowledged in three parts. -/
abbrev sendingRun : List (SocketEvent Nat Nat Nat) :=
  [.asyncSend [0x61, 0x62] 0 true, .sent 1, .asyncSend [0x63] 1 true, .sent 1, .sent 1]

theorem sends_accounted_parts :
    socketSystem.Throughout SocketRun.SendsAccounted (.new samplePcb) sendingRun :=
  (sends_accounted samplePcb sendingRun (by decide)).mpr (by decide)

/-- A packet that `tcp_write` does not take. -/
abbrev refusedRun : List (SocketEvent Nat Nat Nat) := [.asyncSend [0x61, 0x62] 0 false]

/-- The counter stands at 2 with nothing in flight. -/
theorem sends_accounted_refused :
    socketSystem.Legal (.new samplePcb) refusedRun ∧
      ¬ socketSystem.Throughout SocketRun.SendsAccounted (.new samplePcb) refusedRun := by
  refine ⟨by decide, fun throughout => ?_⟩
  have accounted : (socketSystem.run refusedRun (.new samplePcb)).Accounted := throughout.2 rfl
  exact absurd accounted.pendingLen (by decide)

end Net2Tr
