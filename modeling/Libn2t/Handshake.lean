/-
This file proves what a session writes to the proxy first: the greeting, and
then the request, which is built in the step that processes the method reply.
Nothing is assumed about the pcb. The callbacks of lwIP, whatever they find
registered, only relay, and relaying comes after the request.
-/

import Libn2t.TcpFlow
import Libn2t.AddressText

namespace Net2Tr

/-- The request names the raw address and port of the local end. -/
theorem connectRequest_eq (localIp : IpCell) (localPort : Port) :
    connectRequest localIp localPort =
      some (connectHead ++ localIp.ip.atyp :: localIp.ip.bytes ++ beBytes2 localPort.toNat) := by
  obtain ⟨text, printed, parsed⟩ :=
    addrportToSocks5_ipaddrNtoa localIp.ip localIp.past localPort localIp.tagged_v6
  have ntoa : localIp.ntoa = some text := printed
  rw [connectRequest, ntoa, Option.bind_eq_bind, Option.bind_some, parsed, Option.bind_eq_bind,
    Option.bind_some]
  rfl

/-- A completion of an operation on `out_sock`. -/
def TcpEvent.completion : TcpEvent → Bool
  | .connected _ | .wrote _ | .read _ _ | .readError => true
  | _ => false

namespace TcpSession

/-! ### Relaying -/

/-- From the first state to the second the session has at most relayed or destroyed itself: before
`FORWARD` it has written nothing and started nothing. -/
structure OnlyRelays (s t : TcpSession) : Prop where
  status : t.status = s.status ∨ t.status = .destroy
  early : s.status ≠ .forward → t.ops = s.ops ∧ t.written = s.written
  noConnect : s.NoConnect → t.NoConnect
  written : s.written <+: t.written

variable {s t u : TcpSession}

theorem OnlyRelays.of_eq (status : t.status = s.status ∨ t.status = .destroy)
    (ops : t.ops = s.ops) (written : t.written = s.written) : OnlyRelays s t := by
  refine ⟨status, fun _ => ⟨ops, written⟩, fun noConnect => ?_, ?_⟩
  · rw [NoConnect, ops]
    exact noConnect
  · exact written ▸ List.prefix_rfl

theorem OnlyRelays.trans (first : OnlyRelays s t) (second : OnlyRelays t u) : OnlyRelays s u := by
  refine ⟨?_, fun early => ?_, fun noConnect => second.noConnect (first.noConnect noConnect),
    first.written.trans second.written⟩
  · rcases second.status with same | destroyed
    · rw [same]
      exact first.status
    · exact Or.inr destroyed
  · have still : t.status ≠ .forward := by
      rcases first.status with same | destroyed
      · rw [same]
        exact early
      · rw [destroyed]
        exact fun wrong => by cases wrong
    obtain ⟨ops, written⟩ := first.early early
    obtain ⟨laterOps, laterWritten⟩ := second.early still
    exact ⟨laterOps.trans ops, laterWritten.trans written⟩

/-- A call that starts in a state with the same status, operations and buffers. -/
theorem OnlyRelays.before {s' : TcpSession} (relays : OnlyRelays s' t)
    (status : s'.status = s.status) (ops : s'.ops = s.ops)
    (written : s'.written = s.written) : OnlyRelays s t :=
  (OnlyRelays.of_eq (Or.inl status) ops written).trans relays

theorem onlyRelays_destroy (s : TcpSession) : OnlyRelays s s.destroy :=
  .of_eq (Or.inr s.destroy_status) s.destroy_ops s.destroy_written

theorem onlyRelays_release (s : TcpSession) : OnlyRelays s s.release := by
  rcases s.release_cases with same | destructed
  · rw [same]
    exact .of_eq (Or.inl rfl) rfl rfl
  · rw [destructed]
    exact .of_eq (Or.inr s.destroy_status) s.destroy_ops s.destroy_written

theorem onlyRelays_outAsyncWrite (forward : s.status = .forward) (data : Bytes) :
    OnlyRelays s (s.outAsyncWrite data) :=
  ⟨Or.inl rfl, fun early => absurd forward early,
    fun noConnect => noConnect.append (fun wrong => by cases wrong), List.prefix_append _ _⟩

theorem onlyRelays_outAsyncRead (forward : s.status = .forward) : OnlyRelays s s.outAsyncRead :=
  ⟨Or.inl rfl, fun early => absurd forward early,
    fun noConnect => noConnect.append (fun wrong => by cases wrong), List.prefix_rfl⟩

theorem onlyRelays_runRecv (s : TcpSession) (call : Option (RecvHandler × Bool × Bytes)) :
    OnlyRelays s (s.runRecv call) := by
  match call with
  | none => exact .of_eq (Or.inl rfl) rfl rfl
  | some (.inAsyncRead, true, _) =>
    exact (onlyRelays_destroy { s with told := true }).before rfl rfl rfl
  | some (.inAsyncRead, false, packet) =>
    show OnlyRelays s (s.inRecv packet)
    unfold inRecv
    split
    · rename_i forward
      exact onlyRelays_outAsyncWrite forward packet
    · exact .of_eq (Or.inl rfl) rfl rfl

theorem onlyRelays_runSent (s : TcpSession) (call : Option (SentHandler × Bool)) :
    OnlyRelays s (s.runSent call) := by
  match call with
  | none => exact .of_eq (Or.inl rfl) rfl rfl
  | some (.inAsyncWrite, true) => exact onlyRelays_destroy s
  | some (.inAsyncWrite, false) =>
    show OnlyRelays s s.inSent
    unfold inSent
    split
    · rename_i forward
      exact onlyRelays_outAsyncRead forward
    · exact .of_eq (Or.inl rfl) rfl rfl

theorem onlyRelays_inAsyncRead (s : TcpSession) : OnlyRelays s s.inAsyncRead :=
  (onlyRelays_runRecv _ _).before rfl rfl rfl

theorem onlyRelays_inAsyncWrite (s : TcpSession) (data : Bytes) (accepted : Bool) :
    OnlyRelays s (s.inAsyncWrite data accepted) :=
  (onlyRelays_runSent _ _).before rfl rfl rfl

theorem onlyRelays_recvEvent (s : TcpSession) (p : Option Bytes) :
    OnlyRelays s (s.recvEvent p) := by
  unfold recvEvent
  split
  · exact (onlyRelays_runRecv _ _).before rfl rfl rfl
  · exact .of_eq (Or.inl rfl) rfl rfl

theorem onlyRelays_sentEvent (s : TcpSession) (len : Nat) : OnlyRelays s (s.sentEvent len) := by
  unfold sentEvent
  split
  · exact (onlyRelays_runSent _ _).before rfl rfl rfl
  · exact .of_eq (Or.inl rfl) rfl rfl

theorem onlyRelays_errEvent (s : TcpSession) (err : Err) : OnlyRelays s (s.errEvent err) := by
  unfold errEvent runErr
  dsimp only
  split
  · exact .of_eq (Or.inl rfl) rfl rfl
  · exact (onlyRelays_destroy _).before rfl rfl rfl

/-- Before `FORWARD` no event but a completion has an effect on the handshake. -/
theorem onlyRelays_step (s : TcpSession) (event : TcpEvent) (other : event.completion = false) :
    OnlyRelays s (s.step event) := by
  cases event with
  | recv data => exact (s.onlyRelays_recvEvent (some data)).trans (onlyRelays_release _)
  | fin =>
    have relays := onlyRelays_recvEvent { s with pcb := { s.pcb with state := .closeWait } } none
    exact (relays.trans (onlyRelays_release _)).before rfl rfl rfl
  | sent len =>
    have relays := onlyRelays_sentEvent
      { s with pcb := { s.pcb with unacked := s.pcb.unacked - len } } len
    exact (relays.trans (onlyRelays_release _)).before rfl rfl rfl
  | finalAck => exact .of_eq (Or.inl rfl) rfl rfl
  | rst =>
    unfold step
    dsimp only
    split
    · exact ((s.onlyRelays_errEvent .rst).trans (onlyRelays_release _)).trans
        (.of_eq (Or.inl rfl) rfl rfl)
    · exact .of_eq (Or.inl rfl) rfl rfl
  | abort =>
    unfold step
    dsimp only
    split
    · have relays := onlyRelays_errEvent { s with pcb := s.pcb.free } .abrt
      exact (relays.trans (onlyRelays_release _)).before rfl rfl rfl
    · exact .of_eq (Or.inl rfl) rfl rfl
  | reuse => exact .of_eq (Or.inl rfl) rfl rfl
  | _ => cases other

/-! ### The second buffer that is written -/

/-- The second buffer given to `async_write`: the request. -/
def requested (s : TcpSession) : Option Bytes := s.written[1]?

theorem requested_of_eq {s t : TcpSession} (written : t.written = s.written) :
    t.requested = s.requested := by
  rw [requested, requested, written]

/-- Relaying leaves the request alone. -/
theorem OnlyRelays.requested (relays : OnlyRelays s t)
    (long : s.status = .forward → 2 ≤ s.written.length) : t.requested = s.requested := by
  by_cases forward : s.status = .forward
  · obtain ⟨more, grown⟩ := relays.written
    rw [TcpSession.requested, TcpSession.requested, ← grown]
    exact List.getElem?_append_left (long forward)
  · exact requested_of_eq (relays.early forward).2

/-- A read changes the request only when it is the method reply of the handshake. -/
theorem requested_outRecv {s : TcpSession}
    (requesting : s.status = .request → 2 ≤ s.written.length)
    (long : s.status = .forward → 2 ≤ s.written.length) (data : Bytes) (accepted : Bool) :
    (s.outRecv data accepted).requested = s.requested ∨
      (s.status = .handshake ∧ data = methodReply ∧ ∃ req,
        connectRequest s.pcb.localIp s.pcb.localPort = some req ∧
          (s.outRecv data accepted).written = s.written ++ [req]) := by
  unfold outRecv
  split
  · rename_i handshake
    split_ifs with other
    · exact Or.inl (requested_of_eq s.destroy_written)
    · rw [ne_eq, not_not] at other
      simp only [TcpPcb.touch_localIp, TcpPcb.touch_localPort]
      cases built : connectRequest s.pcb.localIp s.pcb.localPort with
      | none => exact Or.inl rfl
      | some req => exact Or.inr ⟨handshake, other, req, rfl, rfl⟩
  · rename_i request
    split_ifs
    · exact Or.inl (requested_of_eq s.destroy_written)
    · have relays := onlyRelays_inAsyncRead { s with status := .forward }
      exact Or.inl (relays.requested fun _ => requesting request)
  · exact Or.inl ((s.onlyRelays_inAsyncWrite data accepted).requested long)
  · exact Or.inl rfl

/-! ### The pace of the handshake -/

/-- How far a session has come in writing the greeting and the request. -/
structure Paced (s : TcpSession) : Prop where
  connecting : s.NoConnect ∨ (s.ops = [⟨.connect, true⟩] ∧ s.written = [])
  greeted : s.status = .handshake → s.NoConnect → s.written = [greeting]
  requested : s.status = .request → s.ops = [] ∨ 2 ≤ s.written.length
  long : s.status = .forward → 2 ≤ s.written.length

theorem Split.long {s : TcpSession} (split : s.Split) : 2 ≤ s.written.length := by
  obtain ⟨request, chunks, written, _⟩ := split
  rw [written, List.length_cons, List.length_cons]
  omega

theorem Flow.paced {s : TcpSession} (flow : s.Flow) : s.Paced := by
  refine ⟨flow.connecting, fun handshake => (flow.handshake handshake).2.2.2, ?_,
    fun forward => (flow.forward forward).2.2.1.long⟩
  intro request
  rcases (flow.request request).2.2.2.2 with ⟨req, written⟩ | ⟨_, idle⟩
  · rw [written]
    exact Or.inr le_rfl
  · exact Or.inl idle

/-- While the connection is pending nothing else is, and nothing has been written. -/
theorem Paced.unconnected {s : TcpSession} (paced : s.Paced) {ok : Bool}
    (pending : s.pending .connect ok = true) :
    s.ops = [⟨.connect, true⟩] ∧ s.written = [] := by
  obtain ⟨op, member, kind⟩ := exists_of_pending pending
  exact paced.connecting.resolve_left fun noConnect => noConnect op member kind

/-- While another operation is pending the connection is not. -/
theorem Paced.noConnect {s : TcpSession} (paced : s.Paced) {kind : OutKind} {ok : Bool}
    (other : kind ≠ .connect) (pending : s.pending kind ok = true) : s.NoConnect := by
  obtain ⟨op, member, same⟩ := exists_of_pending pending
  refine paced.connecting.resolve_right fun connecting => ?_
  rw [connecting.1, List.mem_singleton] at member
  rw [member] at same
  exact other same.symm

/-- An operation is pending in `REQUEST` only once the request is written. -/
theorem Paced.long_of_pending {s : TcpSession} (paced : s.Paced) {kind : OutKind} {ok : Bool}
    (pending : s.pending kind ok = true) (request : s.status = .request) :
    2 ≤ s.written.length := by
  obtain ⟨op, member, _⟩ := exists_of_pending pending
  exact (paced.requested request).resolve_left (List.ne_nil_of_mem member)

/-- Relaying keeps the pace. -/
theorem Paced.relays (paced : s.Paced) (relays : OnlyRelays s t) : t.Paced := by
  have undestroyed {status : Status} (now : t.status = status) (other : status ≠ .destroy) :
      s.status = status := by
    rcases relays.status with same | destroyed
    · exact same.symm.trans now
    · exact absurd (now.symm.trans destroyed) other
  refine ⟨?_, ?_, ?_, ?_⟩
  · rcases paced.connecting with noConnect | ⟨ops, written⟩
    · exact Or.inl (relays.noConnect noConnect)
    · have early : s.status ≠ .forward := by
        intro forward
        have long := paced.long forward
        rw [written] at long
        cases long
      obtain ⟨sameOps, sameWritten⟩ := relays.early early
      exact Or.inr ⟨sameOps.trans ops, sameWritten.trans written⟩
  · intro now noConnect
    have handshake := undestroyed now fun wrong => by cases wrong
    obtain ⟨ops, written⟩ := relays.early (by rw [handshake]; exact fun wrong => by cases wrong)
    rw [written]
    rw [NoConnect, ops] at noConnect
    exact paced.greeted handshake noConnect
  · intro now
    have request := undestroyed now fun wrong => by cases wrong
    obtain ⟨ops, written⟩ := relays.early (by rw [request]; exact fun wrong => by cases wrong)
    rw [ops, written]
    exact paced.requested request
  · intro now
    exact (paced.long (undestroyed now fun wrong => by cases wrong)).trans
      relays.written.length_le

theorem Paced.release (paced : s.Paced) : s.release.Paced :=
  paced.relays s.onlyRelays_release

theorem Paced.destroy (paced : s.Paced) : s.destroy.Paced :=
  paced.relays s.onlyRelays_destroy

/-- Completing an operation other than the connection. -/
theorem Paced.complete (paced : s.Paced) {kind : OutKind} {ok : Bool} (other : kind ≠ .connect)
    (pending : s.pending kind ok = true) : (s.complete kind ok).Paced := by
  have noConnect := paced.noConnect other pending
  exact ⟨Or.inl (noConnect.complete kind ok),
    fun handshake _ => paced.greeted handshake noConnect,
    fun request => Or.inr (paced.long_of_pending pending request), paced.long⟩

/-- Reading on, with the request written if it has been built. -/
theorem Paced.outAsyncRead (paced : s.Paced) (noConnect : s.NoConnect)
    (requested : s.status = .request → 2 ≤ s.written.length) : s.outAsyncRead.Paced :=
  ⟨Or.inl (noConnect.append (fun wrong => by cases wrong)),
    fun handshake _ => paced.greeted handshake noConnect,
    fun request => Or.inr (requested request), paced.long⟩

theorem Paced.connected (paced : s.Paced) (ok : Bool) (pending : s.pending .connect ok = true) :
    (s.step (.connected ok)).Paced := by
  obtain ⟨ops, written⟩ := paced.unconnected pending
  have early {status : Status} (now : s.status = status) : status ≠ .forward ∧
      (status = .request → False) := by
    refine ⟨?_, ?_⟩
    · rintro rfl
      have long := paced.long now
      rw [written] at long
      cases long
    · rintro rfl
      rcases paced.requested now with idle | long
      · rw [ops] at idle
        cases idle
      · rw [written] at long
        cases long
  have idle : (s.complete .connect ok).ops = [] := by
    simp [TcpSession.complete, ops]
  refine Paced.release ?_
  split
  · have noConnect : ((s.complete .connect ok).outAsyncWrite greeting).NoConnect := by
      intro op member
      rw [TcpSession.outAsyncWrite, idle, List.nil_append, List.mem_singleton] at member
      rw [member]
      exact fun wrong => by cases wrong
    refine ⟨Or.inl noConnect, fun _ _ => ?_, fun request => ((early request).2 rfl).elim,
      fun forward => ((early forward).1 rfl).elim⟩
    show s.written ++ [greeting] = [greeting]
    rw [written, List.nil_append]
  · have noConnect : (s.complete .connect ok).destroy.NoConnect := by
      intro op member
      rw [destroy_ops, idle] at member
      cases member
    have destroyed (status : Status) (other : status ≠ .destroy) :
        (s.complete .connect ok).destroy.status ≠ status :=
      fun wrong => other (wrong.symm.trans (destroy_status _))
    exact ⟨Or.inl noConnect,
      fun wrong => absurd wrong (destroyed _ fun wrong => by cases wrong),
      fun wrong => absurd wrong (destroyed _ fun wrong => by cases wrong),
      fun wrong => absurd wrong (destroyed _ fun wrong => by cases wrong)⟩

theorem Paced.outSent (paced : s.Paced) (noConnect : s.NoConnect)
    (requested : s.status = .request → 2 ≤ s.written.length) : s.outSent.Paced := by
  unfold TcpSession.outSent
  split
  · exact paced.outAsyncRead noConnect requested
  · exact paced.outAsyncRead noConnect requested
  · exact paced.relays s.onlyRelays_inAsyncRead
  · exact paced

theorem Paced.outRecv (paced : s.Paced) (noConnect : s.NoConnect)
    (requested : s.status = .request → 2 ≤ s.written.length) (data : Bytes) (accepted : Bool) :
    (s.outRecv data accepted).Paced := by
  unfold TcpSession.outRecv
  split
  · rename_i handshake
    have greeted := paced.greeted handshake noConnect
    split_ifs
    · exact paced.destroy
    · simp only [TcpPcb.touch_localIp, TcpPcb.touch_localPort, connectRequest_eq]
      refine ⟨Or.inl (noConnect.append (fun wrong => by cases wrong)),
        (fun wrong => by cases wrong), fun _ => Or.inr ?_, (fun wrong => by cases wrong)⟩
      simp [TcpSession.outAsyncWrite, greeted]
  · rename_i request
    split_ifs
    · exact paced.destroy
    · have forwarding : TcpSession.Paced { s with status := .forward } :=
        ⟨Or.inl noConnect, (fun wrong => by cases wrong), (fun wrong => by cases wrong),
          fun _ => requested request⟩
      have relays := onlyRelays_inAsyncRead { s with status := .forward }
      have read := forwarding.relays relays
      refine read.outAsyncRead (relays.noConnect noConnect) fun _ => ?_
      exact (requested request).trans relays.written.length_le
  · exact paced.relays (s.onlyRelays_inAsyncWrite data accepted)
  · exact paced

theorem Paced.step (paced : s.Paced) {event : TcpEvent} (enabled : s.enabled event) :
    (s.step event).Paced := by
  cases event with
  | connected ok => exact paced.connected ok enabled.2
  | wrote ok =>
    have completed := paced.complete (fun wrong => by cases wrong) enabled.2
    have noConnect := paced.noConnect (fun wrong => by cases wrong) enabled.2
    refine Paced.release ?_
    split
    · exact completed.outSent (noConnect.complete .write ok)
        (paced.long_of_pending enabled.2)
    · exact completed.destroy
  | read data accepted =>
    have completed := paced.complete (fun wrong => by cases wrong) enabled.2.1
    have noConnect := paced.noConnect (fun wrong => by cases wrong) enabled.2.1
    have recorded : TcpSession.Paced
        { s.complete .read true with reads := s.reads ++ [data] } :=
      ⟨completed.connecting, completed.greeted, completed.requested, completed.long⟩
    exact (recorded.outRecv (noConnect.complete .read true)
      (paced.long_of_pending enabled.2.1) data accepted).release
  | readError =>
    exact (paced.complete (fun wrong => by cases wrong) enabled.2).destroy.release
  | _ => exact paced.relays (s.onlyRelays_step _ rfl)

/-! ### The request -/

theorem requested_release (s : TcpSession) : s.release.requested = s.requested := by
  refine requested_of_eq ?_
  rcases s.release_cases with same | destructed
  · rw [same]
  · rw [destructed]
    exact s.destroy_written

theorem requested_outSent (long : s.status = .forward → 2 ≤ s.written.length) :
    s.outSent.requested = s.requested := by
  unfold outSent
  split
  · rfl
  · rfl
  · exact s.onlyRelays_inAsyncRead.requested long
  · rfl

/-- The request is written once, when the method reply arrives in the handshake. -/
theorem requested_step {s : TcpSession} (paced : s.Paced) (event : TcpEvent)
    (enabled : s.enabled event) :
    (s.step event).requested = s.requested ∨
      (s.status = .handshake ∧ (∃ accepted, event = .read methodReply accepted) ∧
        (s.step event).requested = connectRequest s.pcb.localIp s.pcb.localPort) := by
  have long : s.status = .forward → 2 ≤ s.written.length := paced.long
  cases event with
  | connected ok =>
    obtain ⟨_, written⟩ := paced.unconnected enabled.2
    refine Or.inl ((requested_release _).trans ?_)
    split
    · rw [requested, requested, outAsyncWrite, complete, written]
      rfl
    · exact requested_of_eq (destroy_written _)
  | wrote ok =>
    refine Or.inl ((requested_release _).trans ?_)
    split
    · exact requested_outSent long
    · exact requested_of_eq (destroy_written _)
  | read data accepted =>
    have noConnect := paced.noConnect (fun wrong => by cases wrong) enabled.2.1
    have cases := requested_outRecv
      (s := { s.complete .read true with reads := s.reads ++ [data] })
      (paced.long_of_pending enabled.2.1) paced.long data accepted
    rcases cases with same | ⟨handshake, reply, req, built, written⟩
    · exact Or.inl ((requested_release _).trans same)
    · refine Or.inr ⟨handshake, ⟨accepted, by rw [reply]⟩, (requested_release _).trans ?_⟩
      have greeted : s.written = [greeting] := paced.greeted handshake noConnect
      have built' : connectRequest s.pcb.localIp s.pcb.localPort = some req := built
      refine (congrArg (fun buffers => buffers[1]?) written).trans ?_
      rw [built']
      show (s.written ++ [req])[1]? = some req
      rw [greeted]
      rfl
  | readError => exact Or.inl ((requested_release _).trans (requested_of_eq (destroy_written _)))
  | _ => exact Or.inl ((s.onlyRelays_step _ rfl).requested paced.long)

end TcpSession

end Net2Tr
