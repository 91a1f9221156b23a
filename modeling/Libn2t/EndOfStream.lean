/-
This file is about the client's orderly close. The recv callback for the FIN
sets a flag and closes the pcb; the session learns of it when it next asks for
data, because `async_recv` looks at the flag first. Whatever `recv_buf` held
when the FIN arrived is then never asked for again.

The invariant is what holds from the FIN on: nothing is delivered any more, and
nothing is taken out of the buffer. Together with the flow, which says that
written and buffered bytes make up the delivered ones, it gives the exact
condition under which the close loses nothing.
-/

import Libn2t.TcpFlow

namespace Net2Tr

namespace TcpSession

/-- From the FIN on: the connection does not come back, an open session has the flag set, and
buffer and delivered bytes stay what they were. -/
structure Ended (recvBuf delivered : Bytes) (s : TcpSession) : Prop where
  state : s.pcb.state ≠ .established
  known : s.status ≠ .destroy → s.inSock.pcbFreed = true
  buffered : s.inSock.recvBuf = recvBuf
  delivered : s.delivered = delivered

variable {recvBuf delivered : Bytes} {s t : TcpSession}

/-- What `Ended` is about. -/
theorem Ended.congr (ended : Ended recvBuf delivered s) (state : t.pcb.state = s.pcb.state)
    (status : t.status ≠ .destroy → s.status ≠ .destroy)
    (pcbFreed : t.inSock.pcbFreed = s.inSock.pcbFreed)
    (buffered : t.inSock.recvBuf = s.inSock.recvBuf)
    (same : t.delivered = s.delivered) : Ended recvBuf delivered t := by
  refine ⟨?_, ?_, buffered.trans ended.buffered, same.trans ended.delivered⟩
  · rw [state]
    exact ended.state
  · intro undestroyed
    rw [pcbFreed]
    exact ended.known (status undestroyed)

theorem Ended.destroy (ended : Ended recvBuf delivered s) :
    Ended recvBuf delivered s.destroy :=
  ended.congr s.destroy_state (fun undestroyed => absurd s.destroy_status undestroyed)
    s.destroy_pcbFreed s.destroy_recvBuf s.destroy_delivered

theorem close_not_established {pcb : TcpPcb} (state : pcb.state ≠ .established) :
    pcb.close.state ≠ .established := by
  unfold TcpPcb.close
  split
  · intro wrong
    cases wrong
  · rename_i established
    exact absurd established state
  · intro wrong
    cases wrong
  · exact state

theorem Ended.release (ended : Ended recvBuf delivered s) :
    Ended recvBuf delivered s.release := by
  rcases s.release_cases with same | destructed
  · rw [same]
    exact ended
  · rw [destructed]
    obtain ⟨state, known, buffered, deliveredEq⟩ := ended.destroy
    refine ⟨?_, known, buffered, deliveredEq⟩
    simp only [destructor, Socket.destructor]
    split
    · exact state
    · refine close_not_established ?_
      simpa [TcpPcb.unregister] using state

theorem Ended.runSent (ended : Ended recvBuf delivered s) (call : Option (SentHandler × Bool)) :
    Ended recvBuf delivered (s.runSent call) := by
  match call with
  | none => exact ended
  | some (.inAsyncWrite, false) =>
    show Ended recvBuf delivered s.inSent
    unfold inSent
    split
    · exact ended.congr rfl id rfl rfl rfl
    · exact ended
  | some (.inAsyncWrite, true) => exact ended.destroy

/-- Asking for data after the FIN takes nothing out of the buffer. -/
theorem Ended.inAsyncRead (ended : Ended recvBuf delivered s)
    (undestroyed : s.status ≠ .destroy) : Ended recvBuf delivered s.inAsyncRead := by
  rw [inAsyncRead_freed (ended.known undestroyed)]
  have told : Ended recvBuf delivered { s with told := true } := ended.congr rfl id rfl rfl rfl
  exact told.destroy

theorem Ended.inAsyncWrite (ended : Ended recvBuf delivered s) (data : Bytes)
    (accepted : Bool) : Ended recvBuf delivered (s.inAsyncWrite data accepted) := by
  by_cases freed : s.inSock.pcbFreed = true
  · rw [inAsyncWrite_freed freed]
    have logged : Ended recvBuf delivered { s with sends := s.sends ++ [data] } :=
      ended.congr rfl id rfl rfl rfl
    exact logged.destroy
  · rw [Bool.not_eq_true] at freed
    rw [inAsyncWrite_live freed]
    refine ended.congr ?_ id rfl rfl rfl
    simp

theorem Ended.outRecv (ended : Ended recvBuf delivered s) (data : Bytes) (accepted : Bool) :
    Ended recvBuf delivered (s.outRecv data accepted) := by
  unfold TcpSession.outRecv
  split
  · rename_i handshake
    split_ifs
    · exact ended.destroy
    · have requesting : Ended recvBuf delivered
          { s with status := .request, pcb := (s.pcb.touch .dstAddr).touch .dstPort } := by
        refine ended.congr ?_ (fun _ => by rw [handshake]; decide) rfl rfl rfl
        simp
      dsimp only
      split
      · exact requesting.congr rfl id rfl rfl rfl
      · exact requesting
  · rename_i request
    split_ifs
    · exact ended.destroy
    · have forwarding : Ended recvBuf delivered { s with status := .forward } :=
        ended.congr rfl (fun _ => by rw [request]; decide) rfl rfl rfl
      have told := forwarding.inAsyncRead (fun wrong => by cases wrong)
      exact told.congr rfl id rfl rfl rfl
  · exact ended.inAsyncWrite data accepted
  · exact ended

theorem Ended.outSent (ended : Ended recvBuf delivered s) :
    Ended recvBuf delivered s.outSent := by
  unfold TcpSession.outSent
  split
  · exact ended.congr rfl id rfl rfl rfl
  · exact ended.congr rfl id rfl rfl rfl
  · rename_i forward
    exact ended.inAsyncRead (forward_undestroyed forward)
  · exact ended

theorem Ended.sentEvent (ended : Ended recvBuf delivered s) (len : Nat) :
    Ended recvBuf delivered (s.sentEvent len) := by
  by_cases registered : s.pcb.sent = true
  · by_cases done : s.inSock.pendingLen - UInt32.ofNat len = 0
    · rw [sentEvent_done registered len done]
      refine Ended.runSent ?_ _
      exact ended.congr rfl id rfl rfl rfl
    · rw [sentEvent_counting registered len done]
      exact ended.congr rfl id rfl rfl rfl
  · rw [Bool.not_eq_true] at registered
    rw [sentEvent_unregistered registered]
    exact ended

theorem Ended.errEvent (ended : Ended recvBuf delivered s) (wired : s.inSock.err = some .start)
    (err : Err) : Ended recvBuf delivered (s.errEvent err) := by
  rw [errEvent_eq wired]
  have flagged : Ended recvBuf delivered
      { s with inSock := { s.inSock with pcbFreed := true, err := none } } :=
    ⟨ended.state, fun _ => rfl, ended.buffered, ended.delivered⟩
  exact flagged.destroy

theorem Ended.free (ended : Ended recvBuf delivered s) :
    Ended recvBuf delivered { s with pcb := s.pcb.free } :=
  ⟨(fun wrong => by cases wrong), ended.known, ended.buffered, ended.delivered⟩

/-- The FIN freezes the buffer and the delivered bytes. -/
theorem ended_fin (wired : s.Wired) :
    Ended s.inSock.recvBuf s.delivered (s.step .fin) := by
  refine Ended.release ?_
  by_cases registered : s.pcb.recv = true
  · rw [recvEvent_fin (by exact registered)]
    refine ⟨?_, fun _ => rfl, rfl, rfl⟩
    refine close_not_established ?_
    rw [TcpPcb.touch_state]
    intro wrong
    cases wrong
  · rw [Bool.not_eq_true] at registered
    rw [recvEvent_unregistered (by exact registered)]
    refine ⟨(fun wrong => by cases wrong), ?_, rfl, rfl⟩
    intro undestroyed
    cases registered.symm.trans (wired.registered undestroyed).1

/-- Every later event leaves them as they are. -/
theorem Ended.step (ended : Ended recvBuf delivered s) (wired : s.Wired) (event : TcpEvent)
    (enabled : s.enabled event) : Ended recvBuf delivered (s.step event) := by
  cases event with
  | connected ok =>
    refine Ended.release ?_
    have completed : Ended recvBuf delivered (s.complete .connect ok) :=
      ended.congr rfl id rfl rfl rfl
    split
    · exact completed.congr rfl id rfl rfl rfl
    · exact completed.destroy
  | wrote ok =>
    refine Ended.release ?_
    have completed : Ended recvBuf delivered (s.complete .write ok) :=
      ended.congr rfl id rfl rfl rfl
    split
    · exact completed.outSent
    · exact completed.destroy
  | read data accepted =>
    refine Ended.release (Ended.outRecv ?_ data accepted)
    exact ended.congr rfl id rfl rfl rfl
  | readError =>
    refine Ended.release (Ended.destroy ?_)
    exact ended.congr rfl id rfl rfl rfl
  | recv data => exact absurd enabled.2.2.1 ended.state
  | fin => exact absurd enabled.2.2 ended.state
  | sent len =>
    refine Ended.release (Ended.sentEvent ?_ len)
    exact ended.congr rfl id rfl rfl rfl
  | finalAck => exact ended.free
  | rst =>
    unfold TcpSession.step
    dsimp only
    split
    · rename_i registered
      have undestroyed := wired.undestroyed (Or.inr (Or.inr registered))
      exact (ended.errEvent (wired.registered undestroyed).2.2.2 .rst).release.free
    · exact ended.free
  | abort =>
    unfold TcpSession.step
    dsimp only
    split
    · rename_i registered
      have undestroyed := wired.undestroyed (Or.inr (Or.inr registered))
      exact (ended.free.errEvent (wired.registered undestroyed).2.2.2 .abrt).release
    · exact ended.free
  | reuse => exact ended.congr rfl id rfl rfl rfl

/-- The client bytes handed to `async_write`: everything after the greeting and the request. -/
def clientBytes (s : TcpSession) : Bytes := (s.written.drop 2).flatten

end TcpSession

/-- Take a run in which the client's FIN arrives and in which a recv handler has been told of the
end. Everything the client sent before the FIN has been handed to `async_write` exactly if
`recv_buf` was empty when the FIN arrived. -/
theorem clientBytes_told (localIp remoteIp : IpCell) (localPort remotePort : Port)
    (before after : List TcpEvent)
    (legal : tcpSystem.Legal (.init localIp remoteIp localPort remotePort)
      (before ++ .fin :: after))
    (told : (tcpSystem.run (before ++ .fin :: after)
      (.init localIp remoteIp localPort remotePort)).told = true) :
    (tcpSystem.run (before ++ .fin :: after)
        (.init localIp remoteIp localPort remotePort)).clientBytes =
      (tcpSystem.run before (.init localIp remoteIp localPort remotePort)).delivered ↔
    (tcpSystem.run before (.init localIp remoteIp localPort remotePort)).inSock.recvBuf = [] := by
  have flow := (run_wired_flow legal).2
  rw [tcpSystem.legal_append, tcpSystem.legal_cons] at legal
  obtain ⟨legalBefore, enabledFin, legalAfter⟩ := legal
  have wired := (run_wired_flow legalBefore).1
  have ended := tcpSystem.invariant
    (fun s => s.Wired ∧ TcpSession.Ended
      (tcpSystem.run before (.init localIp remoteIp localPort remotePort)).inSock.recvBuf
      (tcpSystem.run before (.init localIp remoteIp localPort remotePort)).delivered s)
    (fun _ event enabled both =>
      ⟨both.1.step event enabled, both.2.step both.1 event enabled⟩)
    legalAfter ⟨wired.step .fin enabledFin, TcpSession.ended_fin wired⟩
  rw [← tcpSystem.run_cons, ← tcpSystem.run_append] at ended
  obtain ⟨request, chunks, written, whole⟩ := (flow.told told).2.2
  rw [ended.2.buffered, ended.2.delivered] at whole
  rw [TcpSession.clientBytes, written]
  show chunks.flatten = _ ↔ _
  constructor
  · intro all
    rw [all] at whole
    exact List.append_right_eq_self.mp whole
  · intro empty
    rw [empty, List.append_nil] at whole
    exact whole

/-- The client's segment is written before its FIN arrives, and the end is told after the
write. -/
abbrev promptRun : List TcpEvent × List TcpEvent :=
  ([.connected true, .wrote true, .read methodReply true, .wrote true,
    .read [5, 0, 0, 1, 0, 0, 0, 0, 0, 0] true, .recv [0x61, 0x62]], [.wrote true])

theorem clientBytes_told_prompt :
    (tcpSystem.run (promptRun.1 ++ .fin :: promptRun.2) sampleSession).clientBytes =
      (tcpSystem.run promptRun.1 sampleSession).delivered ↔
    (tcpSystem.run promptRun.1 sampleSession).inSock.recvBuf = [] :=
  clientBytes_told sampleDst.1 sampleSrc.1 sampleDst.2 sampleSrc.2 promptRun.1 promptRun.2
    (by decide) (by decide)

/-- The client's segment and its FIN arrive before the connection to the proxy is there. -/
abbrev earlyRun : List TcpEvent × List TcpEvent :=
  ([.recv [0x61, 0x62]], [.connected true, .wrote true, .read methodReply true, .wrote true,
    .read [5, 0, 0, 1, 0, 0, 0, 0, 0, 0] true])

/-- The handshake succeeds, the recv handler is told of the end, and the segment is lost. -/
theorem clientBytes_told_early :
    tcpSystem.Legal sampleSession (earlyRun.1 ++ .fin :: earlyRun.2) ∧
      (tcpSystem.run (earlyRun.1 ++ .fin :: earlyRun.2) sampleSession).told = true ∧
      (tcpSystem.run earlyRun.1 sampleSession).delivered = [0x61, 0x62] ∧
      (tcpSystem.run (earlyRun.1 ++ .fin :: earlyRun.2) sampleSession).clientBytes = [] := by
  decide

end Net2Tr
