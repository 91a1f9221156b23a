/-
This file proves what every run of a session keeps about its wiring: until
`destroy` all callbacks and the err handler are registered, after it nothing
is, and an open session whose pcb was not closed by the client still owns a
live one.

Each method and each callback has its lemma, which says what the call does in
the cases the caller can tell apart. The proofs about runs use these lemmas and
do not unfold the methods again.
-/

import Libn2t.TcpSession

namespace Net2Tr

namespace TcpSession

/-! ### What `destroy` changes -/

@[simp] theorem destroy_status (s : TcpSession) : s.destroy.status = .destroy := by
  unfold destroy
  split
  · assumption
  · rfl

@[simp] theorem destroy_written (s : TcpSession) : s.destroy.written = s.written := by
  unfold destroy
  split <;> rfl

@[simp] theorem destroy_reads (s : TcpSession) : s.destroy.reads = s.reads := by
  unfold destroy
  split <;> rfl

@[simp] theorem destroy_delivered (s : TcpSession) : s.destroy.delivered = s.delivered := by
  unfold destroy
  split <;> rfl

@[simp] theorem destroy_told (s : TcpSession) : s.destroy.told = s.told := by
  unfold destroy
  split <;> rfl

@[simp] theorem destroy_ops (s : TcpSession) : s.destroy.ops = s.ops := by
  unfold destroy
  split <;> rfl

@[simp] theorem destroy_alive (s : TcpSession) : s.destroy.alive = s.alive := by
  unfold destroy
  split <;> rfl

@[simp] theorem destroy_recvBuf (s : TcpSession) :
    s.destroy.inSock.recvBuf = s.inSock.recvBuf := by
  unfold destroy
  split <;> rfl

@[simp] theorem destroy_pcbFreed (s : TcpSession) :
    s.destroy.inSock.pcbFreed = s.inSock.pcbFreed := by
  unfold destroy
  split <;> rfl

@[simp] theorem destroy_freed (s : TcpSession) : s.destroy.pcb.freed = s.pcb.freed := by
  unfold destroy
  split
  · rfl
  · simp [Socket.cancel, TcpPcb.unregister]

@[simp] theorem destroy_state (s : TcpSession) : s.destroy.pcb.state = s.pcb.state := by
  unfold destroy
  split
  · rfl
  · simp [Socket.cancel, TcpPcb.unregister]

@[simp] theorem destroy_ends (s : TcpSession) : s.destroy.pcb.ends = s.pcb.ends := by
  unfold destroy
  split
  · rfl
  · simp [Socket.cancel]

/-- A second `destroy` does nothing. -/
theorem destroy_of_destroyed {s : TcpSession} (destroyed : s.status = .destroy) :
    s.destroy = s := by
  rw [destroy, if_pos destroyed]

/-! ### What the last reference leaves behind -/

theorem release_cases (s : TcpSession) : s.release = s ∨ s.release = s.destructor := by
  unfold release
  split
  · exact Or.inl rfl
  · exact Or.inr rfl

/-- Releasing a destroyed session leaves it destroyed. -/
theorem release_status {s : TcpSession} (destroyed : s.status = .destroy) :
    s.release.status = .destroy := by
  rcases s.release_cases with same | destructed
  · rw [same, destroyed]
  · rw [destructed]
    exact s.destroy_status

/-! ### What the calls into the socket do -/

/-- After the end of the stream the recv handler is told so at once. -/
theorem inAsyncRead_freed {s : TcpSession} (freed : s.inSock.pcbFreed = true) :
    s.inAsyncRead = { s with told := true }.destroy := by
  simp only [inAsyncRead, Socket.asyncRecv, freed, if_true, runRecv]

/-- With an empty buffer the recv handler is parked. -/
theorem inAsyncRead_park {s : TcpSession} (freed : s.inSock.pcbFreed = false)
    (empty : s.inSock.recvBuf = []) :
    s.inAsyncRead = { s with inSock := { s.inSock with recv := some .inAsyncRead } } := by
  simp only [inAsyncRead, Socket.asyncRecv, freed, empty, Bool.false_eq_true, if_false,
    List.length_nil, if_true, runRecv]

/-- Buffered data is handed over at once. -/
theorem inAsyncRead_take {s : TcpSession} (freed : s.inSock.pcbFreed = false)
    (full : s.inSock.recvBuf ≠ []) :
    s.inAsyncRead =
      { s with inSock := { s.inSock with recvBuf := [] } }.inRecv s.inSock.recvBuf := by
  have length : ¬ s.inSock.recvBuf.length = 0 := by
    rwa [List.length_eq_zero_iff]
  simp only [inAsyncRead, Socket.asyncRecv, freed, Bool.false_eq_true, if_false, length, runRecv]

/-- After the end of the stream the sent handler is told so at once. -/
theorem inAsyncWrite_freed {s : TcpSession} (freed : s.inSock.pcbFreed = true) (data : Bytes)
    (accepted : Bool) :
    s.inAsyncWrite data accepted = { s with sends := s.sends ++ [data] }.destroy := by
  simp only [inAsyncWrite, Socket.asyncSend, freed, if_true, runSent]

/-- Otherwise the data is given to lwIP and the handler waits for the acknowledgement. -/
theorem inAsyncWrite_live {s : TcpSession} (freed : s.inSock.pcbFreed = false) (data : Bytes)
    (accepted : Bool) :
    s.inAsyncWrite data accepted =
      { s with
        inSock := { s.inSock with
          pendingLen := s.inSock.pendingLen + UInt32.ofNat data.length
          sent := some .inAsyncWrite }
        pcb := (s.pcb.touch .asyncSend).write (data.length % 2 ^ 16) accepted
        sends := s.sends ++ [data] } := by
  simp only [inAsyncWrite, Socket.asyncSend, freed, Bool.false_eq_true, if_false, runSent]

/-! ### Only the destructor ends the life of the object -/

theorem alive_inRecv (s : TcpSession) (data : Bytes) : (s.inRecv data).alive = s.alive := by
  unfold inRecv
  split <;> rfl

theorem alive_inAsyncRead (s : TcpSession) : s.inAsyncRead.alive = s.alive := by
  by_cases freed : s.inSock.pcbFreed = true
  · rw [inAsyncRead_freed freed, destroy_alive]
  · rw [Bool.not_eq_true] at freed
    by_cases empty : s.inSock.recvBuf = []
    · rw [inAsyncRead_park freed empty]
    · rw [inAsyncRead_take freed empty, alive_inRecv]

theorem alive_inAsyncWrite (s : TcpSession) (data : Bytes) (accepted : Bool) :
    (s.inAsyncWrite data accepted).alive = s.alive := by
  by_cases freed : s.inSock.pcbFreed = true
  · rw [inAsyncWrite_freed freed, destroy_alive]
  · rw [Bool.not_eq_true] at freed
    rw [inAsyncWrite_live freed]

theorem alive_outRecv (s : TcpSession) (data : Bytes) (accepted : Bool) :
    (s.outRecv data accepted).alive = s.alive := by
  unfold outRecv
  split
  · split_ifs
    · exact s.destroy_alive
    · dsimp only
      split <;> rfl
  · split_ifs
    · exact s.destroy_alive
    · exact alive_inAsyncRead { s with status := .forward }
  · exact s.alive_inAsyncWrite data accepted
  · rfl

theorem alive_outSent (s : TcpSession) : s.outSent.alive = s.alive := by
  unfold outSent
  split
  · rfl
  · rfl
  · exact s.alive_inAsyncRead
  · rfl

/-! ### The wiring of callbacks and handlers -/

/-- Until `destroy` the callbacks and the err handler are registered, after it nothing is; the
relaying handlers wait in their slots only while forwarding. -/
structure Wired (s : TcpSession) : Prop where
  registered : s.status ≠ .destroy →
    s.pcb.recv = true ∧ s.pcb.sent = true ∧ s.pcb.errf = true ∧ s.inSock.err = some .start
  cancelled : s.status = .destroy →
    s.pcb.recv = false ∧ s.pcb.sent = false ∧ s.pcb.errf = false ∧
      s.inSock.recv = none ∧ s.inSock.sent = none ∧ s.inSock.err = none
  early : s.status = .handshake ∨ s.status = .request →
    s.inSock.recv = none ∧ s.inSock.sent = none
  live : s.status ≠ .destroy → s.inSock.pcbFreed = false →
    s.pcb.freed = false ∧ s.pcb.state = .established
  ended : s.status ≠ .destroy → s.inSock.pcbFreed = true → s.pcb.state ≠ .established
  closed : s.alive = true → s.pcb.state = .lastAck → s.inSock.pcbFreed = true

/-- The wiring is about the handler slots, the registered callbacks and the fate of the pcb. -/
theorem Wired.congr {s t : TcpSession} (wired : s.Wired) (status : t.status = s.status)
    (inSock : t.inSock = s.inSock) (recv : t.pcb.recv = s.pcb.recv)
    (sent : t.pcb.sent = s.pcb.sent) (errf : t.pcb.errf = s.pcb.errf)
    (freed : t.pcb.freed = s.pcb.freed) (state : t.pcb.state = s.pcb.state)
    (alive : t.alive = s.alive) : t.Wired := by
  obtain ⟨registered, cancelled, early, live, ended, closed⟩ := wired
  refine ⟨?_, ?_, ?_, ?_, ?_, ?_⟩
  · rwa [status, inSock, recv, sent, errf]
  · rwa [status, inSock, recv, sent, errf]
  · rwa [status, inSock]
  · rwa [status, inSock, freed, state]
  · rwa [status, inSock, state]
  · rwa [alive, inSock, state]

/-- A session that stays open may move on, fill or empty the slots of the relaying handlers and
change its buffers. -/
theorem Wired.adjust {s t : TcpSession} (wired : s.Wired) (undestroyed : s.status ≠ .destroy)
    (open' : t.status ≠ .destroy)
    (early : t.status = .handshake ∨ t.status = .request →
      t.inSock.recv = none ∧ t.inSock.sent = none)
    (err : t.inSock.err = s.inSock.err) (pcbFreed : t.inSock.pcbFreed = s.inSock.pcbFreed)
    (recv : t.pcb.recv = s.pcb.recv) (sent : t.pcb.sent = s.pcb.sent)
    (errf : t.pcb.errf = s.pcb.errf) (freed : t.pcb.freed = s.pcb.freed)
    (state : t.pcb.state = s.pcb.state) (alive : t.alive = s.alive) : t.Wired := by
  obtain ⟨registered, _, _, live, ended, closed⟩ := wired
  refine ⟨?_, fun destroyed => absurd destroyed open', early, ?_, ?_, ?_⟩
  · rw [recv, sent, errf, err]
    exact fun _ => registered undestroyed
  · rw [pcbFreed, freed, state]
    exact fun _ => live undestroyed
  · rw [pcbFreed, state]
    exact fun _ => ended undestroyed
  · rwa [alive, state, pcbFreed]

/-- `destroy` cancels everything, whatever the session looked like before. -/
theorem wired_destroy {s : TcpSession} (undestroyed : s.status ≠ .destroy)
    (closed : s.alive = true → s.pcb.state = .lastAck → s.inSock.pcbFreed = true) :
    s.destroy.Wired := by
  refine ⟨?_, ?_, ?_, ?_, ?_, ?_⟩
  · intro other
    exact absurd s.destroy_status other
  · intro _
    rw [TcpSession.destroy, if_neg undestroyed]
    exact ⟨rfl, rfl, rfl, rfl, rfl, rfl⟩
  · rw [destroy_status]
    rintro (early | early) <;> cases early
  · intro other
    exact absurd s.destroy_status other
  · intro other
    exact absurd s.destroy_status other
  · simpa using closed

theorem Wired.destroy {s : TcpSession} (wired : s.Wired) : s.destroy.Wired := by
  by_cases destroyed : s.status = .destroy
  · rw [destroy_of_destroyed destroyed]
    exact wired
  · exact wired_destroy destroyed wired.closed

theorem Wired.destructor {s : TcpSession} (wired : s.Wired) : s.destructor.Wired := by
  have destroyed := wired.destroy.cancelled s.destroy_status
  obtain ⟨recv, sent, errf, slots⟩ := destroyed
  constructor
  · intro other
    exact absurd s.destroy_status other
  · intro _
    refine ⟨?_, ?_, ?_, slots⟩ <;> simp only [TcpSession.destructor, Socket.destructor] <;>
      split <;> simp_all [TcpPcb.close, TcpPcb.unregister] <;> split <;> rfl
  · intro early
    have status := s.destroy_status
    simp only [TcpSession.destructor, status] at early
    rcases early with early | early <;> cases early
  · intro other
    exact absurd s.destroy_status other
  · intro other
    exact absurd s.destroy_status other
  · intro alive
    cases alive

theorem Wired.release {s : TcpSession} (wired : s.Wired) : s.release.Wired := by
  unfold TcpSession.release
  split
  · exact wired
  · exact wired.destructor

theorem Wired.outAsyncRead {s : TcpSession} (wired : s.Wired) : s.outAsyncRead.Wired :=
  wired.congr rfl rfl rfl rfl rfl rfl rfl rfl

theorem Wired.outAsyncWrite {s : TcpSession} (wired : s.Wired) (data : Bytes) :
    (s.outAsyncWrite data).Wired :=
  wired.congr rfl rfl rfl rfl rfl rfl rfl rfl

theorem Wired.complete {s : TcpSession} (wired : s.Wired) (kind : OutKind) (ok : Bool) :
    (s.complete kind ok).Wired :=
  wired.congr rfl rfl rfl rfl rfl rfl rfl rfl

theorem Wired.inRecv {s : TcpSession} (wired : s.Wired) (data : Bytes) :
    (s.inRecv data).Wired := by
  unfold TcpSession.inRecv
  split
  · exact wired.outAsyncWrite data
  · exact wired

theorem Wired.inSent {s : TcpSession} (wired : s.Wired) : s.inSent.Wired := by
  unfold TcpSession.inSent
  split
  · exact wired.outAsyncRead
  · exact wired

theorem Wired.runRecv {s : TcpSession} (wired : s.Wired)
    (call : Option (RecvHandler × Bool × Bytes)) : (s.runRecv call).Wired := by
  match call with
  | none => exact wired
  | some (.inAsyncRead, false, packet) => exact wired.inRecv packet
  | some (.inAsyncRead, true, _) =>
    have told : TcpSession.Wired { s with told := true } :=
      wired.congr rfl rfl rfl rfl rfl rfl rfl rfl
    exact told.destroy

theorem Wired.runSent {s : TcpSession} (wired : s.Wired) (call : Option (SentHandler × Bool)) :
    (s.runSent call).Wired := by
  match call with
  | none => exact wired
  | some (.inAsyncWrite, false) => exact wired.inSent
  | some (.inAsyncWrite, true) => exact wired.destroy

theorem forward_undestroyed {s : TcpSession} (forward : s.status = .forward) :
    s.status ≠ .destroy := by
  rw [forward]
  decide

theorem forward_late {s : TcpSession} (forward : s.status = .forward) {slots : Prop} :
    s.status = .handshake ∨ s.status = .request → slots := by
  rw [forward]
  rintro (early | early) <;> cases early

theorem Wired.inAsyncRead {s : TcpSession} (wired : s.Wired) (forward : s.status = .forward) :
    s.inAsyncRead.Wired := by
  have undestroyed := forward_undestroyed forward
  by_cases freed : s.inSock.pcbFreed = true
  · rw [inAsyncRead_freed freed]
    exact wired_destroy undestroyed wired.closed
  · rw [Bool.not_eq_true] at freed
    by_cases empty : s.inSock.recvBuf = []
    · rw [inAsyncRead_park freed empty]
      exact wired.adjust undestroyed undestroyed (forward_late forward) rfl rfl rfl rfl rfl rfl
        rfl rfl
    · rw [inAsyncRead_take freed empty]
      refine Wired.inRecv ?_ _
      exact wired.adjust undestroyed undestroyed (forward_late forward) rfl rfl rfl rfl rfl rfl
        rfl rfl

theorem Wired.inAsyncWrite {s : TcpSession} (wired : s.Wired) (forward : s.status = .forward)
    (data : Bytes) (accepted : Bool) : (s.inAsyncWrite data accepted).Wired := by
  have undestroyed := forward_undestroyed forward
  by_cases freed : s.inSock.pcbFreed = true
  · rw [inAsyncWrite_freed freed]
    exact wired_destroy undestroyed wired.closed
  · rw [Bool.not_eq_true] at freed
    rw [inAsyncWrite_live freed]
    refine wired.adjust undestroyed undestroyed (forward_late forward) rfl rfl ?_ ?_ ?_ ?_ ?_
      rfl <;> simp

theorem Wired.outRecv {s : TcpSession} (wired : s.Wired) (data : Bytes) (accepted : Bool) :
    (s.outRecv data accepted).Wired := by
  unfold TcpSession.outRecv
  split
  · rename_i handshake
    split_ifs
    · exact wired.destroy
    · have requesting : TcpSession.Wired
          { s with status := .request, pcb := (s.pcb.touch .dstAddr).touch .dstPort } := by
        refine wired.adjust (by rw [handshake]; decide) (fun destroyed => by cases destroyed)
          (fun _ => wired.early (Or.inl handshake)) rfl rfl ?_ ?_ ?_ ?_ ?_ rfl <;> simp
      dsimp only
      split
      · exact requesting.outAsyncWrite _
      · exact requesting
  · rename_i request
    split_ifs
    · exact wired.destroy
    · refine Wired.outAsyncRead (Wired.inAsyncRead ?_ rfl)
      exact wired.adjust (by rw [request]; decide) (forward_undestroyed rfl) (forward_late rfl)
        rfl rfl rfl rfl rfl rfl rfl rfl
  · exact wired.inAsyncWrite (by assumption) data accepted
  · exact wired

theorem Wired.outSent {s : TcpSession} (wired : s.Wired) : s.outSent.Wired := by
  unfold TcpSession.outSent
  split
  · exact wired.outAsyncRead
  · exact wired.outAsyncRead
  · exact wired.inAsyncRead (by assumption)
  · exact wired

/-- A registered callback belongs to a session that is not destroyed. -/
theorem Wired.undestroyed {s : TcpSession} (wired : s.Wired)
    (registered : s.pcb.recv = true ∨ s.pcb.sent = true ∨ s.pcb.errf = true) :
    s.status ≠ .destroy := by
  intro destroyed
  obtain ⟨recv, sent, errf, _⟩ := wired.cancelled destroyed
  rw [recv, sent, errf] at registered
  rcases registered with registered | registered | registered <;> cases registered

/-- lwIP may free the pcb of a session that has been destroyed or knows of the closing. -/
theorem Wired.free {s : TcpSession} (wired : s.Wired)
    (known : s.status = .destroy ∨ s.inSock.pcbFreed = true) :
    TcpSession.Wired { s with pcb := s.pcb.free } := by
  refine ⟨wired.registered, wired.cancelled, wired.early, ?_, ?_, ?_⟩
  · intro undestroyed unclosed
    rcases known with destroyed | closed
    · exact absurd destroyed undestroyed
    · rw [closed] at unclosed
      cases unclosed
  · intro _ _ established
    cases established
  · intro _ lastAck
    cases lastAck

/-- The err callback of an open session destroys it. -/
theorem errEvent_eq {s : TcpSession} (registered : s.inSock.err = some .start) (err : Err) :
    s.errEvent err =
      { s with inSock := { s.inSock with pcbFreed := true, err := none } }.destroy := by
  simp only [errEvent, Socket.errCallback, registered, runErr]

/-! ### The callbacks of lwIP -/

/-- Client data reaches a session that is not destroyed: it goes to the parked handler or into
the buffer. -/
theorem recvEvent_parked {s : TcpSession} (registered : s.pcb.recv = true)
    (parked : s.inSock.recv = some .inAsyncRead) (data : Bytes) :
    s.recvEvent (some data) =
      { s with
        inSock := { s.inSock with recv := none }
        pcb := s.pcb.touch .recvCallback
        delivered := s.delivered ++ data }.runRecv
          (some (.inAsyncRead, s.inSock.pcbFreed, data)) := by
  simp only [recvEvent, registered, if_true, Socket.recvCallback, parked, Option.getD_some]

theorem recvEvent_buffered {s : TcpSession} (registered : s.pcb.recv = true)
    (unparked : s.inSock.recv = none) (data : Bytes) :
    s.recvEvent (some data) =
      { s with
        inSock := { s.inSock with recvBuf := s.inSock.recvBuf ++ data }
        pcb := s.pcb.touch .recvCallback
        delivered := s.delivered ++ data } := by
  simp only [recvEvent, registered, if_true, Socket.recvCallback, unparked, Option.getD_some,
    runRecv]

theorem recvEvent_fin {s : TcpSession} (registered : s.pcb.recv = true) :
    s.recvEvent none =
      { s with
        inSock := { s.inSock with pcbFreed := true }
        pcb := (s.pcb.touch .recvCallback).close } := by
  simp only [recvEvent, registered, if_true, Socket.recvCallback, Option.getD_none,
    List.append_nil, runRecv]

theorem recvEvent_unregistered {s : TcpSession} (unregistered : s.pcb.recv = false)
    (p : Option Bytes) : s.recvEvent p = s := by
  simp only [recvEvent, unregistered, Bool.false_eq_true, if_false]

/-- The acknowledgement of the last outstanding byte calls the parked sent handler. -/
theorem sentEvent_done {s : TcpSession} (registered : s.pcb.sent = true) (len : Nat)
    (done : s.inSock.pendingLen - UInt32.ofNat len = 0) :
    s.sentEvent len =
      { s with inSock := { s.inSock with pendingLen := 0, sent := none } }.runSent
        (s.inSock.sent.map fun tmp => (tmp, s.inSock.pcbFreed)) := by
  simp only [sentEvent, registered, if_true, Socket.sentCallback, done]

theorem sentEvent_counting {s : TcpSession} (registered : s.pcb.sent = true) (len : Nat)
    (more : s.inSock.pendingLen - UInt32.ofNat len ≠ 0) :
    s.sentEvent len =
      { s with inSock := { s.inSock with
        pendingLen := s.inSock.pendingLen - UInt32.ofNat len } } := by
  simp only [sentEvent, registered, if_true, Socket.sentCallback, more, if_false, runSent]

theorem sentEvent_unregistered {s : TcpSession} (unregistered : s.pcb.sent = false)
    (len : Nat) : s.sentEvent len = s := by
  simp only [sentEvent, unregistered, Bool.false_eq_true, if_false]

theorem Wired.recvEvent {s : TcpSession} (wired : s.Wired) (data : Bytes) :
    (s.recvEvent (some data)).Wired := by
  by_cases registered : s.pcb.recv = true
  · have undestroyed := wired.undestroyed (Or.inl registered)
    cases parked : s.inSock.recv with
    | none =>
      rw [recvEvent_buffered registered parked]
      refine wired.adjust undestroyed undestroyed wired.early rfl rfl ?_ ?_ ?_ ?_ ?_ rfl <;> simp
    | some handler =>
      rw [recvEvent_parked registered parked]
      refine Wired.runRecv ?_ _
      refine wired.adjust undestroyed undestroyed (fun early => ?_) rfl rfl ?_ ?_ ?_ ?_ ?_ rfl
      · exact ⟨rfl, (wired.early early).2⟩
      all_goals simp
  · rw [Bool.not_eq_true] at registered
    rw [recvEvent_unregistered registered]
    exact wired

theorem Wired.fin {s : TcpSession} (wired : s.Wired) :
    ({ s with pcb := { s.pcb with state := .closeWait } }.recvEvent none).Wired := by
  by_cases registered : s.pcb.recv = true
  · have undestroyed := wired.undestroyed (Or.inl registered)
    rw [recvEvent_fin (by exact registered)]
    refine ⟨fun _ => ?_, fun destroyed => absurd destroyed undestroyed, wired.early, ?_, ?_, ?_⟩
    · simpa [TcpPcb.close] using wired.registered undestroyed
    · intro _ unclosed
      cases unclosed
    · intro _ _
      simp [TcpPcb.close]
    · intro _ _
      rfl
  · rw [Bool.not_eq_true] at registered
    rw [recvEvent_unregistered (by exact registered)]
    refine ⟨wired.registered, wired.cancelled, wired.early, ?_, ?_, ?_⟩
    · intro undestroyed
      rw [(wired.registered undestroyed).1] at registered
      cases registered
    · intro _ _ established
      cases established
    · intro _ lastAck
      cases lastAck

theorem Wired.sentEvent {s : TcpSession} (wired : s.Wired) (len : Nat) :
    (s.sentEvent len).Wired := by
  by_cases registered : s.pcb.sent = true
  · have undestroyed := wired.undestroyed (Or.inr (Or.inl registered))
    by_cases done : s.inSock.pendingLen - UInt32.ofNat len = 0
    · rw [sentEvent_done registered len done]
      refine Wired.runSent ?_ _
      exact wired.adjust undestroyed undestroyed (fun early => ⟨(wired.early early).1, rfl⟩) rfl
        rfl rfl rfl rfl rfl rfl rfl
    · rw [sentEvent_counting registered len done]
      exact wired.adjust undestroyed undestroyed wired.early rfl rfl rfl rfl rfl rfl rfl rfl
  · rw [Bool.not_eq_true] at registered
    rw [sentEvent_unregistered registered]
    exact wired

/-- A reset or an abort destroys a session that is not destroyed yet. -/
theorem Wired.errEvent {s : TcpSession} (wired : s.Wired) (undestroyed : s.status ≠ .destroy)
    (err : Err) : (s.errEvent err).Wired := by
  rw [errEvent_eq (wired.registered undestroyed).2.2.2]
  exact wired_destroy undestroyed fun _ _ => rfl

/-- Every event keeps the wiring. -/
theorem Wired.step {s : TcpSession} (wired : s.Wired) (event : TcpEvent)
    (enabled : s.enabled event) : (s.step event).Wired := by
  cases event with
  | connected ok =>
    refine Wired.release ?_
    split
    · exact (wired.complete .connect ok).outAsyncWrite greeting
    · exact (wired.complete .connect ok).destroy
  | wrote ok =>
    refine Wired.release ?_
    split
    · exact (wired.complete .write ok).outSent
    · exact (wired.complete .write ok).destroy
  | read data accepted =>
    refine Wired.release (Wired.outRecv ?_ data accepted)
    exact wired.congr rfl rfl rfl rfl rfl rfl rfl rfl
  | readError => exact (wired.complete .read false).destroy.release
  | recv data => exact (wired.recvEvent data).release
  | fin => exact wired.fin.release
  | sent len =>
    refine Wired.release (Wired.sentEvent ?_ len)
    exact wired.congr rfl rfl rfl rfl rfl rfl rfl rfl
  | finalAck =>
    obtain ⟨alive, _, lastAck, _⟩ := enabled
    exact wired.free (Or.inr (wired.closed alive lastAck))
  | rst =>
    unfold TcpSession.step
    dsimp only
    split
    · rename_i registered
      have undestroyed := wired.undestroyed (Or.inr (Or.inr registered))
      refine (wired.errEvent undestroyed .rst).release.free (Or.inl ?_)
      refine release_status ?_
      rw [errEvent_eq (wired.registered undestroyed).2.2.2, destroy_status]
    · rename_i unregistered
      refine wired.free (Or.inl ?_)
      by_contra undestroyed
      exact unregistered (wired.registered undestroyed).2.2.1
  | abort =>
    unfold TcpSession.step
    dsimp only
    split
    · rename_i registered
      have undestroyed := wired.undestroyed (Or.inr (Or.inr registered))
      refine Wired.release ?_
      rw [errEvent_eq (by exact (wired.registered undestroyed).2.2.2)]
      exact wired_destroy undestroyed fun _ _ => rfl
    · rename_i unregistered
      refine wired.free (Or.inl ?_)
      by_contra undestroyed
      exact unregistered (wired.registered undestroyed).2.2.1
  | reuse => exact wired.congr rfl rfl rfl rfl rfl rfl rfl rfl

theorem wired_init (localIp remoteIp : IpCell) (localPort remotePort : Port) :
    (init localIp remoteIp localPort remotePort).Wired := by
  refine ⟨fun _ => ⟨rfl, rfl, rfl, rfl⟩, ?_, fun _ => ⟨rfl, rfl⟩, fun _ _ => ⟨rfl, rfl⟩, ?_, ?_⟩
  · intro destroyed
    cases destroyed
  · intro _ ended
    cases ended
  · intro _ lastAck
    cases lastAck

/-! ### What the calls do to the pcb -/

/-- The calls of a session leave the ends and the ownership of its pcb alone, never open it again,
misuse only a freed one and never forget a misuse. -/
structure PcbFrame (s t : TcpSession) : Prop where
  ends : t.pcb.ends = s.pcb.ends
  freed : t.pcb.freed = s.pcb.freed
  state : t.pcb.state = .established → s.pcb.state = .established
  clean : s.pcb.freed = false → t.pcb.misuses = s.pcb.misuses
  lasting : s.pcb.misuses ≠ [] → t.pcb.misuses ≠ []

theorem PcbFrame.localIp {s t : TcpSession} (frame : PcbFrame s t) :
    t.pcb.localIp = s.pcb.localIp := congrArg Ends.localIp frame.ends

theorem PcbFrame.localPort {s t : TcpSession} (frame : PcbFrame s t) :
    t.pcb.localPort = s.pcb.localPort := congrArg Ends.localPort frame.ends

theorem PcbFrame.of_eq {s t : TcpSession} (same : t.pcb = s.pcb) : PcbFrame s t := by
  refine ⟨?_, ?_, ?_, fun _ => ?_, fun misused => ?_⟩ <;> rw [same]
  · exact id
  · exact misused

theorem PcbFrame.trans {s t u : TcpSession} (first : PcbFrame s t) (second : PcbFrame t u) :
    PcbFrame s u where
  ends := second.ends.trans first.ends
  freed := second.freed.trans first.freed
  state isOpen := first.state (second.state isOpen)
  clean live := (second.clean (first.freed.trans live)).trans (first.clean live)
  lasting misused := second.lasting (first.lasting misused)

theorem PcbFrame.before {s s' t : TcpSession} (frame : PcbFrame s' t) (same : s'.pcb = s.pcb) :
    PcbFrame s t :=
  (PcbFrame.of_eq same).trans frame

theorem PcbFrame.after {s t t' : TcpSession} (frame : PcbFrame s t) (same : t'.pcb = t.pcb) :
    PcbFrame s t' :=
  frame.trans (.of_eq same)

/-- Touching the pcb and changing what lwIP knows of it. -/
theorem PcbFrame.of_touch {s t : TcpSession} (op : SocketOp)
    (ends : t.pcb.ends = s.pcb.ends) (freed : t.pcb.freed = s.pcb.freed)
    (state : t.pcb.state = .established → s.pcb.state = .established)
    (misuses : t.pcb.misuses = (s.pcb.touch op).misuses) : PcbFrame s t := by
  refine ⟨ends, freed, state, fun live => ?_, fun misused => ?_⟩
  · rw [misuses, TcpPcb.touch_of_live op live]
  · rw [misuses]
    exact TcpPcb.misuses_touch_ne_nil op misused

theorem frame_destroy (s : TcpSession) : PcbFrame s s.destroy := by
  by_cases destroyed : s.status = .destroy
  · exact .of_eq (by rw [destroy_of_destroyed destroyed])
  · refine .of_touch .cancel s.destroy_ends s.destroy_freed (by rw [s.destroy_state]; exact id) ?_
    rw [destroy, if_neg destroyed]
    rfl

theorem frame_destructor (s : TcpSession) : PcbFrame s s.destructor := by
  refine s.frame_destroy.trans ?_
  by_cases freed : s.destroy.inSock.pcbFreed = true
  · refine .of_eq ?_
    simp only [destructor, Socket.destructor, freed, if_true]
  · have shape : s.destructor.pcb = (s.destroy.pcb.touch .destructor).unregister.close := by
      simp only [destructor, Socket.destructor, freed]
      rfl
    refine .of_touch .destructor ?_ ?_ ?_ ?_ <;> rw [shape]
    · simp
    · rw [TcpPcb.close_freed]
      exact TcpPcb.touch_freed _ _
    · exact fun isOpen => absurd isOpen (TcpPcb.close_not_established _)
    · rw [TcpPcb.close_misuses]
      rfl

theorem frame_release (s : TcpSession) : PcbFrame s s.release := by
  rcases s.release_cases with same | destructed
  · exact .of_eq (by rw [same])
  · rw [destructed]
    exact s.frame_destructor

theorem frame_inRecv (s : TcpSession) (data : Bytes) : PcbFrame s (s.inRecv data) := by
  refine .of_eq ?_
  unfold inRecv
  split <;> rfl

theorem frame_inAsyncRead (s : TcpSession) : PcbFrame s s.inAsyncRead := by
  by_cases freed : s.inSock.pcbFreed = true
  · rw [inAsyncRead_freed freed]
    exact (frame_destroy _).before rfl
  · rw [Bool.not_eq_true] at freed
    by_cases empty : s.inSock.recvBuf = []
    · rw [inAsyncRead_park freed empty]
      exact .of_eq rfl
    · rw [inAsyncRead_take freed empty]
      exact (frame_inRecv _ _).before rfl

theorem frame_inAsyncWrite (s : TcpSession) (data : Bytes) (accepted : Bool) :
    PcbFrame s (s.inAsyncWrite data accepted) := by
  by_cases freed : s.inSock.pcbFreed = true
  · rw [inAsyncWrite_freed freed]
    exact (frame_destroy _).before rfl
  · rw [Bool.not_eq_true] at freed
    rw [inAsyncWrite_live freed]
    refine .of_touch .asyncSend ?_ ?_ ?_ ?_ <;> simp

theorem frame_outRecv (s : TcpSession) (data : Bytes) (accepted : Bool) :
    PcbFrame s (s.outRecv data accepted) := by
  unfold outRecv
  split
  · split_ifs
    · exact s.frame_destroy
    · have first : PcbFrame s { s with pcb := s.pcb.touch .dstAddr } :=
        .of_touch .dstAddr (by simp) (by simp) (by simp) rfl
      have second : PcbFrame { s with pcb := s.pcb.touch .dstAddr }
          { s with status := .request, pcb := (s.pcb.touch .dstAddr).touch .dstPort } :=
        .of_touch .dstPort (by simp) (by simp) (by simp) rfl
      dsimp only
      split
      · exact (first.trans second).trans (.of_eq rfl)
      · exact first.trans second
  · split_ifs
    · exact s.frame_destroy
    · have forwarding : PcbFrame s { s with status := .forward } := .of_eq rfl
      exact (forwarding.trans (frame_inAsyncRead _)).after rfl
  · exact s.frame_inAsyncWrite data accepted
  · exact .of_eq rfl

theorem frame_outSent (s : TcpSession) : PcbFrame s s.outSent := by
  unfold outSent
  split
  · exact .of_eq rfl
  · exact .of_eq rfl
  · exact s.frame_inAsyncRead
  · exact .of_eq rfl

theorem frame_runRecv (s : TcpSession) (call : Option (RecvHandler × Bool × Bytes)) :
    PcbFrame s (s.runRecv call) := by
  match call with
  | none => exact .of_eq rfl
  | some (.inAsyncRead, false, packet) => exact s.frame_inRecv packet
  | some (.inAsyncRead, true, _) =>
    exact PcbFrame.before (frame_destroy { s with told := true }) rfl

theorem frame_runSent (s : TcpSession) (call : Option (SentHandler × Bool)) :
    PcbFrame s (s.runSent call) := by
  match call with
  | none => exact .of_eq rfl
  | some (.inAsyncWrite, false) =>
    refine .of_eq ?_
    show s.inSent.pcb = s.pcb
    unfold inSent
    split <;> rfl
  | some (.inAsyncWrite, true) => exact s.frame_destroy

theorem frame_recvEvent (s : TcpSession) (data : Bytes) :
    PcbFrame s (s.recvEvent (some data)) := by
  by_cases registered : s.pcb.recv = true
  · cases parked : s.inSock.recv with
    | none =>
      rw [recvEvent_buffered registered parked]
      refine .of_touch .recvCallback ?_ ?_ ?_ rfl <;> simp
    | some handler =>
      rw [recvEvent_parked registered parked]
      refine .trans ?_ (frame_runRecv _ _)
      refine .of_touch .recvCallback ?_ ?_ ?_ rfl <;> simp
  · rw [Bool.not_eq_true] at registered
    rw [recvEvent_unregistered registered]
    exact .of_eq rfl

theorem frame_recvEvent_none (s : TcpSession) : PcbFrame s (s.recvEvent none) := by
  by_cases registered : s.pcb.recv = true
  · rw [recvEvent_fin registered]
    refine .of_touch .recvCallback ?_ ?_ ?_ (TcpPcb.close_misuses _)
    · simp
    · simp
    · exact fun isOpen => absurd isOpen (TcpPcb.close_not_established _)
  · rw [Bool.not_eq_true] at registered
    rw [recvEvent_unregistered registered]
    exact .of_eq rfl

theorem frame_fin (s : TcpSession) :
    PcbFrame s ({ s with pcb := { s.pcb with state := .closeWait } }.recvEvent none) := by
  have closing : PcbFrame s { s with pcb := { s.pcb with state := .closeWait } } :=
    ⟨rfl, rfl, fun isOpen => (by cases isOpen), fun _ => rfl, fun misused => misused⟩
  exact closing.trans (frame_recvEvent_none _)

theorem frame_sentEvent (s : TcpSession) (len : Nat) : PcbFrame s (s.sentEvent len) := by
  by_cases registered : s.pcb.sent = true
  · by_cases done : s.inSock.pendingLen - UInt32.ofNat len = 0
    · rw [sentEvent_done registered len done]
      exact (frame_runSent _ _).before rfl
    · rw [sentEvent_counting registered len done]
      exact .of_eq rfl
  · rw [Bool.not_eq_true] at registered
    rw [sentEvent_unregistered registered]
    exact .of_eq rfl

theorem frame_errEvent (s : TcpSession) (err : Err) : PcbFrame s (s.errEvent err) := by
  unfold errEvent Socket.errCallback
  dsimp only
  split
  · exact (frame_destroy _).before rfl
  · exact .of_eq rfl

/-- The events with which lwIP frees the pcb. -/
def freesPcb : TcpEvent → Bool
  | .finalAck | .rst | .abort => true
  | _ => false

/-- All other events but the reuse of the block keep its endpoint and owner. -/
theorem frame_step (s : TcpSession) (event : TcpEvent) (keeps : freesPcb event = false)
    (fresh : ∀ localIp remoteIp localPort remotePort,
      event ≠ .reuse localIp remoteIp localPort remotePort) :
    PcbFrame s (s.step event) := by
  cases event with
  | connected ok =>
    refine PcbFrame.trans ?_ (frame_release _)
    split
    · exact .of_eq rfl
    · exact (frame_destroy _).before rfl
  | wrote ok =>
    refine PcbFrame.trans ?_ (frame_release _)
    split
    · exact (frame_outSent _).before rfl
    · exact (frame_destroy _).before rfl
  | read data accepted =>
    refine PcbFrame.trans ?_ (frame_release _)
    exact (frame_outRecv _ data accepted).before rfl
  | readError =>
    refine PcbFrame.trans ?_ (frame_release _)
    exact (frame_destroy _).before rfl
  | recv data => exact (s.frame_recvEvent data).trans (frame_release _)
  | fin => exact s.frame_fin.trans (frame_release _)
  | sent len =>
    refine PcbFrame.trans ?_ (frame_release _)
    have acked : PcbFrame s { s with pcb := { s.pcb with unacked := s.pcb.unacked - len } } :=
      ⟨rfl, rfl, id, fun _ => rfl, fun misused => misused⟩
    exact acked.trans (frame_sentEvent _ len)
  | finalAck => cases keeps
  | rst => cases keeps
  | abort => cases keeps
  | reuse localIp remoteIp localPort remotePort => exact absurd rfl (fresh _ _ _ _)

/-- A connection that is open after an event has been open before it, and no FIN has come. -/
theorem established_before (s : TcpSession) (event : TcpEvent)
    (isOpen : (s.step event).pcb.state = .established) :
    s.pcb.state = .established ∧ event ≠ .fin := by
  cases event with
  | fin =>
    have closing := ((frame_recvEvent_none _).trans (frame_release _)).state isOpen
    cases closing
  | finalAck => cases isOpen
  | rst => cases isOpen
  | abort =>
    unfold step at isOpen
    dsimp only at isOpen
    split at isOpen
    · cases ((frame_errEvent _ _).trans (frame_release _)).state isOpen
    · cases isOpen
  | reuse localIp remoteIp localPort remotePort => exact ⟨isOpen, fun wrong => by cases wrong⟩
  | connected ok | wrote ok | read data accepted | readError | recv data | sent len =>
    exact ⟨(s.frame_step _ rfl fun _ _ _ _ wrong => by cases wrong).state isOpen,
      fun wrong => by cases wrong⟩

/-- After those events the pcb is gone. -/
theorem freed_step (s : TcpSession) (event : TcpEvent) (frees : freesPcb event = true) :
    (s.step event).pcb.freed = true := by
  cases event with
  | finalAck => rfl
  | rst => rfl
  | abort =>
    unfold step
    dsimp only
    split
    · exact ((frame_errEvent _ _).trans (frame_release _)).freed
    · rfl
  | _ => cases frees

end TcpSession

end Net2Tr
