/-
This file is about the server-to-client direction of a session: when does the
payload that follows the server's two replies reach the client unchanged,
however TCP cuts the server's bytes into reads?

The session takes each read for one message of the handshake. In an undisturbed
run that reaches forwarding it has read the method reply, one more read that it
took for the reply to the request, and has sent all later reads on. So the
payload arrives exactly if the first two reads are the two replies, and the
session then never gets stuck.
-/

import Libn2t.Upstream

namespace Net2Tr

/-- A complete success reply to `CONNECT`: `05 00 00`, an address of one of the three types and a
port. -/
def SuccessReply (reply : Bytes) : Prop :=
  ∃ bndAddr bndPort : Bytes, bndPort.length = 2 ∧
    ((bndAddr.length = 4 ∧ reply = replyHead ++ 0x01 :: bndAddr ++ bndPort) ∨
      (bndAddr.length = 16 ∧ reply = replyHead ++ 0x04 :: bndAddr ++ bndPort) ∨
      (bndAddr.length < 256 ∧
        reply = replyHead ++ 0x03 :: UInt8.ofNat bndAddr.length :: bndAddr ++ bndPort))

/-- A success reply passes the check of `out_recv`. -/
theorem SuccessReply.accepted {reply : Bytes} (success : SuccessReply reply) :
    3 < reply.length ∧ reply.take 3 = replyHead := by
  obtain ⟨bndAddr, bndPort, port, ⟨_, rfl⟩ | ⟨_, rfl⟩ | ⟨_, rfl⟩⟩ := success <;>
    refine ⟨?_, rfl⟩ <;> simp [replyHead]

/-- The data of the reads of a run. -/
def readData (events : List TcpEvent) : List Bytes :=
  events.filterMap fun event =>
    match event with
    | .read data _ => some data
    | _ => none

theorem readData_append (first second : List TcpEvent) :
    readData (first ++ second) = readData first ++ readData second :=
  List.filterMap_append

namespace TcpSession

/-- Nothing goes wrong: no error on the proxy connection, every `tcp_write` accepted, and from
lwIP only client data and acknowledgements. -/
def Undisturbed (_ : TcpSession) : TcpEvent → Prop
  | .connected ok => ok = true
  | .wrote ok => ok = true
  | .read _ accepted => accepted = true
  | .recv _ => True
  | .sent _ => True
  | _ => False

instance (s : TcpSession) (event : TcpEvent) : Decidable (s.Undisturbed event) :=
  match event with
  | .connected ok => inferInstanceAs (Decidable (ok = true))
  | .wrote ok => inferInstanceAs (Decidable (ok = true))
  | .read _ accepted => inferInstanceAs (Decidable (accepted = true))
  | .recv _ | .sent _ => isTrue trivial
  | .readError | .fin | .finalAck | .rst | .abort | .reuse .. => isFalse id

/-- Every undisturbed run over these reads ends in `FORWARD` with the payload sent to the client,
and every undisturbed run over some first part of them can go on to all of them. -/
def Relays (s : TcpSession) (chunks : List Bytes) (payload : Bytes) : Prop :=
  (∀ events, tcpSystem.Guarded Undisturbed s events → readData events = chunks →
    (tcpSystem.run events s).status = .forward ∧
      (tcpSystem.run events s).sends.flatten = payload) ∧
  ∀ events, tcpSystem.Guarded Undisturbed s events → readData events <+: chunks →
    ∃ more, tcpSystem.Guarded Undisturbed (tcpSystem.run events s) more ∧
      readData (events ++ more) = chunks

/-! ### Pending operations -/

/-- The number of pending reads. -/
def readOps (s : TcpSession) : Nat := s.ops.countP fun op => op.kind = .read

theorem readOps_complete {s : TcpSession} {kind : OutKind} {ok : Bool}
    (pending : s.pending kind ok = true) :
    (s.complete kind ok).readOps + (if kind = .read then 1 else 0) = s.readOps :=
  opCount_complete pending .read

theorem usable_complete {s : TcpSession} (usable : ∀ op ∈ s.ops, op.usable = true)
    (kind : OutKind) (ok : Bool) : ∀ op ∈ (s.complete kind ok).ops, op.usable = true :=
  fun op member => usable op (List.mem_of_mem_eraseP member)

theorem usable_append {ops : List OutOp} (usable : ∀ op ∈ ops, op.usable = true) {op : OutOp}
    (new : op.usable = true) : ∀ member ∈ ops ++ [op], member.usable = true := by
  intro member inside
  rcases List.mem_append.mp inside with old | added
  · exact usable member old
  · rw [List.mem_singleton.mp added]
    exact new

/-! ### The invariant of undisturbed runs -/

/-- An open session of an undisturbed run: its operations can succeed, the handshake has one
pending, and while forwarding either a read is pending or sent bytes wait for their
acknowledgement. -/
structure Relaying (s : TcpSession) : Prop where
  alive : s.alive = true
  unended : s.inSock.pcbFreed = false
  outOpen : s.outOpen = true
  usable : ∀ op ∈ s.ops, op.usable = true
  busy : s.status = .handshake ∨ s.status = .request → s.ops ≠ [] ∧ s.sends = []
  forwarded : s.status = .forward → ∃ reply, s.reads = methodReply :: reply :: s.sends
  idle : s.inSock.sent = none → s.inSock.pendingLen = 0 ∧ s.pcb.unacked = 0
  reading : s.status = .forward → s.inSock.sent = none → s.readOps = 1
  sending : s.inSock.sent ≠ none →
    s.readOps = 0 ∧ 0 < s.pcb.unacked ∧ s.pcb.unacked ≤ recvBufSize ∧
      s.inSock.pendingLen = UInt32.ofNat s.pcb.unacked

/-- An open session keeps itself alive through its err handler. -/
theorem release_of_open {s : TcpSession} (wired : s.Wired) (undestroyed : s.status ≠ .destroy) :
    s.release = s := by
  have registered := (wired.registered undestroyed).2.2.2
  rw [release, if_pos]
  simp [referenced, registered]

/-- A destroyed session stays destroyed. -/
theorem destroyed_step {s : TcpSession} (wired : s.Wired) (destroyed : s.status = .destroy)
    (event : TcpEvent) : (s.step event).status = .destroy := by
  obtain ⟨recv, sent, errf, _⟩ := wired.cancelled destroyed
  cases event with
  | connected ok =>
    refine release_status ?_
    split
    · exact destroyed
    · exact destroy_status _
  | wrote ok =>
    refine release_status ?_
    split
    · have status : (s.complete .write ok).status = .destroy := destroyed
      rw [outSent, status]
      exact destroyed
    · exact destroy_status _
  | read data accepted =>
    refine release_status ?_
    have status : ({ s.complete .read true with reads := s.reads ++ [data] } :
        TcpSession).status = .destroy := destroyed
    rw [outRecv, status]
  | readError => exact release_status (destroy_status _)
  | recv data =>
    refine release_status ?_
    rw [recvEvent_unregistered recv]
    exact destroyed
  | fin =>
    refine release_status ?_
    rw [recvEvent_unregistered (by exact recv)]
    exact destroyed
  | sent len =>
    refine release_status ?_
    rw [sentEvent_unregistered (by exact sent)]
    exact destroyed
  | finalAck => exact destroyed
  | rst =>
    unfold step
    dsimp only
    rw [errf, if_neg Bool.false_ne_true]
    exact destroyed
  | abort =>
    unfold step
    dsimp only
    rw [errf, if_neg Bool.false_ne_true]
    exact destroyed
  | reuse => exact destroyed

/-- Asking for client data starts at most a write. -/
theorem inAsyncRead_shape {s : TcpSession} (unended : s.inSock.pcbFreed = false)
    (forward : s.status = .forward) :
    (∃ recv recvBuf, s.inAsyncRead =
        { s with inSock := { s.inSock with recv := recv, recvBuf := recvBuf } }) ∨
      ∃ data recvBuf, s.inAsyncRead = TcpSession.outAsyncWrite data
        { s with inSock := { s.inSock with recvBuf := recvBuf } } := by
  by_cases empty : s.inSock.recvBuf = []
  · exact Or.inl ⟨_, s.inSock.recvBuf, inAsyncRead_park unended empty⟩
  · refine Or.inr ⟨s.inSock.recvBuf, [], ?_⟩
    rw [inAsyncRead_take unended empty, inRecv, if_pos (by exact forward)]

theorem readOps_append_read (s : TcpSession) (usable : Bool) :
    (s.ops ++ [(⟨.read, usable⟩ : OutOp)]).countP (fun op : OutOp => op.kind = .read) =
      s.readOps + 1 := by
  rw [List.countP_append]
  rfl

theorem readOps_append_write (s : TcpSession) (usable : Bool) :
    (s.ops ++ [(⟨.write, usable⟩ : OutOp)]).countP (fun op : OutOp => op.kind = .read) =
      s.readOps := by
  rw [List.countP_append]
  rfl

/-- A forwarding session whose reads and acknowledgements are in order stays so when it asks for
client data. -/
theorem Relaying.inAsyncRead {s : TcpSession} (relaying : s.Relaying)
    (forward : s.status = .forward) :
    s.inAsyncRead.Relaying ∧ s.inAsyncRead.status = .forward := by
  rcases inAsyncRead_shape relaying.unended forward with ⟨recv, recvBuf, shape⟩ |
    ⟨data, recvBuf, shape⟩
  · rw [shape]
    exact ⟨⟨relaying.alive, relaying.unended, relaying.outOpen, relaying.usable, relaying.busy,
      relaying.forwarded, relaying.idle, relaying.reading, relaying.sending⟩, forward⟩
  · rw [shape]
    refine ⟨⟨relaying.alive, relaying.unended, relaying.outOpen, ?_, ?_, relaying.forwarded,
      relaying.idle, ?_, ?_⟩, forward⟩
    · exact usable_append relaying.usable relaying.outOpen
    · exact forward_late forward
    · intro _ unparked
      exact (s.readOps_append_write _).trans (relaying.reading forward unparked)
    · intro parked
      obtain ⟨none, rest⟩ := relaying.sending parked
      exact ⟨(s.readOps_append_write _).trans none, rest⟩

/-- Completing another operation than a read, and starting the next step of the handshake or
asking for client data. -/
theorem Relaying.outSent {s : TcpSession} (relaying : s.Relaying) (wired : s.Wired)
    (undestroyed : s.status ≠ .destroy) (pending : s.pending .write true = true) :
    (s.complete .write true).outSent.Relaying ∧
      (s.complete .write true).outSent.status = s.status := by
  have count : (s.complete .write true).readOps = s.readOps := readOps_complete pending
  have usable := usable_complete relaying.usable .write true
  have handshaking (early : s.status = .handshake ∨ s.status = .request) :
      (s.complete .write true).outAsyncRead.Relaying := by
    have unsent := (wired.early early).2
    refine ⟨relaying.alive, relaying.unended, relaying.outOpen, ?_, ?_, ?_, relaying.idle, ?_, ?_⟩
    · exact usable_append usable relaying.outOpen
    · intro _
      exact ⟨List.append_ne_nil_of_right_ne_nil _ (List.cons_ne_nil _ _),
        (relaying.busy early).2⟩
    · intro forward
      rcases early with early | early <;> cases early.symm.trans forward
    · intro forward
      rcases early with early | early <;> cases early.symm.trans forward
    · intro parked
      exact absurd unsent parked
  cases status : s.status with
  | handshake =>
    have shape : (s.complete .write true).status = .handshake := status
    rw [TcpSession.outSent, shape]
    exact ⟨handshaking (Or.inl status), status⟩
  | request =>
    have shape : (s.complete .write true).status = .request := status
    rw [TcpSession.outSent, shape]
    exact ⟨handshaking (Or.inr status), status⟩
  | forward =>
    have shape : (s.complete .write true).status = .forward := status
    rw [TcpSession.outSent, shape]
    have completed : (s.complete .write true).Relaying := by
      refine ⟨relaying.alive, relaying.unended, relaying.outOpen, usable, forward_late status,
        relaying.forwarded, relaying.idle, ?_, ?_⟩
      · intro forward unparked
        exact count.trans (relaying.reading forward unparked)
      · intro parked
        obtain ⟨none, rest⟩ := relaying.sending parked
        exact ⟨count.trans none, rest⟩
    exact completed.inAsyncRead status
  | destroy => exact absurd status undestroyed

theorem Relaying.connected {s : TcpSession} (relaying : s.Relaying) (flow : s.Flow)
    (wired : s.Wired) (undestroyed : s.status ≠ .destroy)
    (pending : s.pending .connect true = true) :
    ((s.complete .connect true).outAsyncWrite greeting).Relaying := by
  have early : s.status = .handshake := by
    have connecting := (flow.unconnected pending).2.2
    cases status : s.status with
    | handshake => rfl
    | request => exact absurd (flow.request status).2.2.2.1 connecting
    | forward => exact absurd (flow.forward status).2.1 connecting
    | destroy => exact absurd status undestroyed
  refine ⟨relaying.alive, relaying.unended, relaying.outOpen, ?_, ?_, ?_, relaying.idle, ?_, ?_⟩
  · exact usable_append (usable_complete relaying.usable .connect true) relaying.outOpen
  · intro _
    exact ⟨List.append_ne_nil_of_right_ne_nil _ (List.cons_ne_nil _ _),
      (relaying.busy (Or.inl early)).2⟩
  · intro forward
    cases early.symm.trans forward
  · intro forward
    cases early.symm.trans forward
  · intro parked
    exact absurd (wired.early (Or.inl early)).2 parked

theorem Relaying.recvEvent {s : TcpSession} (relaying : s.Relaying) (wired : s.Wired)
    (undestroyed : s.status ≠ .destroy) (data : Bytes) :
    (s.recvEvent (some data)).Relaying ∧ (s.recvEvent (some data)).status ≠ .destroy := by
  have registered := (wired.registered undestroyed).1
  cases parked : s.inSock.recv with
  | none =>
    rw [recvEvent_buffered registered parked]
    refine ⟨⟨relaying.alive, relaying.unended, relaying.outOpen, relaying.usable, relaying.busy,
      relaying.forwarded, ?_, relaying.reading, ?_⟩, undestroyed⟩
    · simpa using relaying.idle
    · intro parked
      obtain ⟨none, rest⟩ := relaying.sending parked
      exact ⟨none, by simpa using rest⟩
  | some handler =>
    rw [recvEvent_parked registered parked, relaying.unended]
    show (TcpSession.inRecv data _).Relaying ∧ (TcpSession.inRecv data _).status ≠ .destroy
    have forward : s.status = .forward := by
      cases status : s.status with
      | handshake => cases parked.symm.trans (wired.early (Or.inl status)).1
      | request => cases parked.symm.trans (wired.early (Or.inr status)).1
      | forward => rfl
      | destroy => exact absurd status undestroyed
    rw [inRecv, if_pos (by exact forward)]
    refine ⟨⟨relaying.alive, relaying.unended, relaying.outOpen, ?_, forward_late forward,
      relaying.forwarded, ?_, ?_, ?_⟩, undestroyed⟩
    · exact usable_append relaying.usable relaying.outOpen
    · simpa [outAsyncWrite] using relaying.idle
    · intro _ unsent
      exact (s.readOps_append_write _).trans (relaying.reading forward unsent)
    · intro sent
      obtain ⟨none, rest⟩ := relaying.sending sent
      refine ⟨(s.readOps_append_write _).trans none, ?_⟩
      simpa [outAsyncWrite] using rest

/-- A forwarding session that waits for an acknowledgement. -/
theorem Relaying.parked {s : TcpSession} (relaying : s.Relaying) (wired : s.Wired)
    (undestroyed : s.status ≠ .destroy) (waiting : 0 < s.pcb.unacked) :
    s.inSock.sent = some .inAsyncWrite ∧ s.status = .forward := by
  cases sent : s.inSock.sent with
  | none =>
    have idle := (relaying.idle sent).2
    omega
  | some handler =>
    refine ⟨rfl, ?_⟩
    cases status : s.status with
    | handshake => cases sent.symm.trans (wired.early (Or.inl status)).2
    | request => cases sent.symm.trans (wired.early (Or.inr status)).2
    | forward => rfl
    | destroy => exact absurd status undestroyed

/-- What the sent callback subtracts is the acknowledged part of `pending_len`. -/
theorem pendingLen_sub {unacked len : Nat} (short : unacked ≤ recvBufSize) (bound : len ≤ unacked) :
    UInt32.ofNat unacked - UInt32.ofNat len = UInt32.ofNat (unacked - len) ∧
      (UInt32.ofNat (unacked - len) = 0 ↔ len = unacked) := by
  refine ⟨(UInt32.ofNat_sub bound).symm, ?_⟩
  unfold recvBufSize at short
  rw [← UInt32.toNat_inj, UInt32.toNat_ofNat', UInt32.toNat_zero]
  omega

/-- An acknowledgement of everything lets the session read on; any other only counts down. -/
theorem Relaying.sentEvent {s : TcpSession} (relaying : s.Relaying) (wired : s.Wired)
    (undestroyed : s.status ≠ .destroy) {len : Nat} (positive : 0 < len)
    (bound : len ≤ s.pcb.unacked) :
    (({ s with pcb := { s.pcb with unacked := s.pcb.unacked - len } } :
      TcpSession).sentEvent len).Relaying ∧
    (({ s with pcb := { s.pcb with unacked := s.pcb.unacked - len } } :
      TcpSession).sentEvent len).status = s.status ∧
    (len = s.pcb.unacked → (({ s with pcb := { s.pcb with unacked := s.pcb.unacked - len } } :
      TcpSession).sentEvent len).inSock.sent = none) := by
  have registered := (wired.registered undestroyed).2.1
  obtain ⟨parked, forward⟩ := relaying.parked wired undestroyed (lt_of_lt_of_le positive bound)
  obtain ⟨none, _, short, pendingLen⟩ :=
    relaying.sending (by rw [parked]; exact Option.some_ne_none _)
  obtain ⟨left, all⟩ := pendingLen_sub short bound
  rw [← pendingLen] at left
  by_cases complete : len = s.pcb.unacked
  · have shape : ({ s with pcb := { s.pcb with unacked := s.pcb.unacked - len } } :
        TcpSession).sentEvent len =
          ({ s with
              inSock := { s.inSock with pendingLen := 0, sent := Option.none }
              pcb := { s.pcb with unacked := s.pcb.unacked - len } } :
            TcpSession).outAsyncRead := by
      rw [sentEvent_done (s := { s with pcb := { s.pcb with unacked := s.pcb.unacked - len } })
        registered len (left.trans (all.mpr complete))]
      simp only [parked, relaying.unended, Option.map_some, runSent, Bool.false_eq_true, if_false,
        inSent, forward, if_true]
    rw [shape]
    refine ⟨⟨relaying.alive, relaying.unended, relaying.outOpen, ?_, forward_late forward,
      relaying.forwarded, ?_, ?_, ?_⟩, rfl, fun _ => rfl⟩
    · exact usable_append relaying.usable relaying.outOpen
    · intro _
      refine ⟨rfl, ?_⟩
      show s.pcb.unacked - len = 0
      omega
    · intro _ _
      exact (s.readOps_append_read _).trans (congrArg (· + 1) none)
    · intro wrong
      exact absurd rfl wrong
  · have more : s.inSock.pendingLen - UInt32.ofNat len ≠ 0 := by
      rw [left]
      exact fun done => complete (all.mp done)
    rw [sentEvent_counting (s := { s with pcb := { s.pcb with unacked := s.pcb.unacked - len } })
      registered len more]
    refine ⟨⟨relaying.alive, relaying.unended, relaying.outOpen, relaying.usable, relaying.busy,
      relaying.forwarded, ?_, ?_, ?_⟩, rfl, fun wrong => absurd wrong complete⟩
    · intro wrong
      cases parked.symm.trans wrong
    · intro _ wrong
      cases parked.symm.trans wrong
    · intro _
      refine ⟨none, ?_, ?_, left⟩
      · show 0 < s.pcb.unacked - len
        omega
      · show s.pcb.unacked - len ≤ recvBufSize
        omega

/-! ### Reads -/

/-- The first read is not the method reply, or the second does not begin like a success reply. -/
def Misread (reads : List Bytes) : Prop :=
  ∃ data rest, (reads = data :: rest ∧ data ≠ methodReply) ∨
    (reads = methodReply :: data :: rest ∧ (data.length ≤ 3 ∨ data.take 3 ≠ replyHead))

theorem Misread.append {reads : List Bytes} (misread : Misread reads) (more : List Bytes) :
    Misread (reads ++ more) := by
  obtain ⟨data, rest, ⟨rfl, other⟩ | ⟨rfl, other⟩⟩ := misread
  · exact ⟨data, rest ++ more, Or.inl ⟨rfl, other⟩⟩
  · exact ⟨data, rest ++ more, Or.inr ⟨rfl, other⟩⟩

/-- The success reply starts both loops. -/
theorem relaying_forwarding {s : TcpSession} (alive : s.alive = true)
    (unended : s.inSock.pcbFreed = false) (outOpen : s.outOpen = true)
    (usable : ∀ op ∈ s.ops, op.usable = true) (unsent : s.inSock.sent = none)
    (idle : s.inSock.pendingLen = 0 ∧ s.pcb.unacked = 0) (none : s.readOps = 0)
    (forward : s.status = .forward) (reads : ∃ reply, s.reads = methodReply :: reply :: s.sends) :
    s.inAsyncRead.outAsyncRead.status ≠ .destroy ∧ s.inAsyncRead.outAsyncRead.Relaying := by
  have undestroyed := forward_undestroyed forward
  rcases inAsyncRead_shape unended forward with ⟨recv, recvBuf, shape⟩ | ⟨data, recvBuf, shape⟩
  · rw [shape]
    refine ⟨undestroyed, alive, unended, outOpen, ?_, forward_late forward, fun _ => reads,
      fun _ => idle, ?_, fun sent => absurd unsent sent⟩
    · exact usable_append usable outOpen
    · intro _ _
      exact (s.readOps_append_read _).trans (congrArg (· + 1) none)
  · rw [shape]
    refine ⟨undestroyed, alive, unended, outOpen, ?_, forward_late forward, fun _ => reads,
      fun _ => idle, ?_, fun sent => absurd unsent sent⟩
    · exact usable_append (usable_append usable outOpen) outOpen
    · intro _ _
      refine (readOps_append_read (s.outAsyncWrite data) _).trans (congrArg (· + 1) ?_)
      exact (s.readOps_append_write _).trans none

/-- A completed read with its data. -/
abbrev readTaken (data : Bytes) (s : TcpSession) : TcpSession :=
  { s.complete .read true with reads := s.reads ++ [data] }

/-- The read has moved the session on, or it was the wrong reply. -/
def ReadOn (s : TcpSession) (data : Bytes) : Prop :=
  (((s.readTaken data).outRecv data true).status ≠ .destroy ∧
      ((s.readTaken data).outRecv data true).Relaying) ∨
    (((s.readTaken data).outRecv data true).status = .destroy ∧ Misread (s.reads ++ [data]))

theorem Relaying.method {s : TcpSession} (relaying : s.Relaying) (wired : s.Wired)
    (flow : s.Flow) (handshake : s.status = .handshake) (data : Bytes) : s.ReadOn data := by
  have usable := usable_complete relaying.usable .read true
  have shape : (s.readTaken data).status = .handshake := handshake
  have unsent := (wired.early (Or.inl handshake)).2
  rw [ReadOn, outRecv, shape]
  dsimp only
  by_cases same : data = methodReply
  · rw [if_neg (not_not_intro same)]
    simp only [TcpPcb.touch_localIp, TcpPcb.touch_localPort, connectRequest_eq]
    refine Or.inl ⟨(fun wrong => by cases wrong), relaying.alive, relaying.unended,
      relaying.outOpen, ?_, ?_, (fun wrong => by cases wrong), ?_,
      (fun wrong => by cases wrong), fun wrong => absurd unsent wrong⟩
    · exact usable_append usable relaying.outOpen
    · intro _
      exact ⟨List.append_ne_nil_of_right_ne_nil _ (List.cons_ne_nil _ _),
        (relaying.busy (Or.inl handshake)).2⟩
    · intro _
      obtain ⟨pendingLen, unacked⟩ := relaying.idle unsent
      refine ⟨pendingLen, ?_⟩
      simpa [outAsyncWrite, complete] using unacked
  · rw [if_pos same]
    refine Or.inr ⟨destroy_status _, data, [], Or.inl ⟨?_, same⟩⟩
    rw [(flow.handshake handshake).1]
    rfl

theorem Relaying.reply {s : TcpSession} (relaying : s.Relaying) (wired : s.Wired) (flow : s.Flow)
    (request : s.status = .request) (pending : s.pending .read true = true) (data : Bytes) :
    s.ReadOn data := by
  have count : (s.complete .read true).readOps + 1 = s.readOps := readOps_complete pending
  have usable := usable_complete relaying.usable .read true
  have shape : (s.readTaken data).status = .request := request
  have unsent := (wired.early (Or.inr request)).2
  have reads : s.reads ++ [data] = [methodReply, data] := by
    rw [(flow.request request).1]
    rfl
  rw [ReadOn, outRecv, shape]
  dsimp only
  by_cases bad : data.length ≤ 3 ∨ data.take 3 ≠ replyHead
  · rw [if_pos bad]
    exact Or.inr ⟨destroy_status _, data, [], Or.inr ⟨reads, bad⟩⟩
  · rw [if_neg bad]
    refine Or.inl (relaying_forwarding relaying.alive relaying.unended relaying.outOpen usable
      unsent (relaying.idle unsent) ?_ rfl ⟨data, ?_⟩)
    · have short : s.readOps ≤ 1 :=
        List.countP_le_length.trans (flow.request request).2.2.1
      show (s.complete .read true).readOps = 0
      omega
    · show s.reads ++ [data] = methodReply :: data :: s.sends
      rw [reads, (relaying.busy (Or.inr request)).2]

theorem Relaying.payload {s : TcpSession} (relaying : s.Relaying) (forward : s.status = .forward)
    (pending : s.pending .read true = true) {data : Bytes} (positive : 0 < data.length)
    (bound : data.length ≤ recvBufSize) : s.ReadOn data := by
  have count : (s.complete .read true).readOps + 1 = s.readOps := readOps_complete pending
  have usable := usable_complete relaying.usable .read true
  have shape : (s.readTaken data).status = .forward := forward
  have unsent : s.inSock.sent = none := by
    by_contra sent
    have none := (relaying.sending sent).1
    omega
  have single := relaying.reading forward unsent
  obtain ⟨pendingLen, unacked⟩ := relaying.idle unsent
  rw [ReadOn, outRecv, shape]
  dsimp only
  rw [inAsyncWrite_live (by exact relaying.unended)]
  have sentLength : (TcpPcb.write (data.length % 2 ^ 16) true
      (s.pcb.touch .asyncSend)).unacked = data.length := by
    unfold recvBufSize at bound
    rw [TcpPcb.write, if_pos rfl]
    show (s.pcb.touch .asyncSend).unacked + data.length % 2 ^ 16 = data.length
    rw [TcpPcb.touch_unacked]
    omega
  refine Or.inl ⟨forward_undestroyed forward, relaying.alive, relaying.unended, relaying.outOpen,
    usable, forward_late forward, ?_, (fun wrong => by cases wrong),
    (fun _ wrong => by cases wrong), ?_⟩
  · intro _
    obtain ⟨reply, reads⟩ := relaying.forwarded forward
    refine ⟨reply, ?_⟩
    show s.reads ++ [data] = methodReply :: reply :: (s.sends ++ [data])
    rw [reads]
    rfl
  · intro _
    refine ⟨?_, ?_, ?_, ?_⟩
    · show (s.complete .read true).readOps = 0
      omega
    · exact sentLength.symm ▸ positive
    · exact sentLength.symm ▸ bound
    · show s.inSock.pendingLen + UInt32.ofNat data.length = _
      rw [pendingLen, UInt32.zero_add]
      exact congrArg UInt32.ofNat sentLength.symm

/-- A read moves an open session on, unless it is the wrong reply. -/
theorem Relaying.read {s : TcpSession} (relaying : s.Relaying) (wired : s.Wired) (flow : s.Flow)
    (undestroyed : s.status ≠ .destroy) (pending : s.pending .read true = true) {data : Bytes}
    (positive : 0 < data.length) (bound : data.length ≤ recvBufSize) : s.ReadOn data := by
  cases status : s.status with
  | handshake => exact relaying.method wired flow status data
  | request => exact relaying.reply wired flow status pending data
  | forward => exact relaying.payload status pending positive bound
  | destroy => exact absurd status undestroyed

/-! ### The record of the reads -/

theorem reads_release (s : TcpSession) : s.release.reads = s.reads := by
  rcases s.release_cases with same | destructed
  · rw [same]
  · rw [destructed]
    exact s.destroy_reads

theorem reads_runRecv (s : TcpSession) (call : Option (RecvHandler × Bool × Bytes)) :
    (s.runRecv call).reads = s.reads := by
  match call with
  | none => rfl
  | some (.inAsyncRead, false, packet) =>
    show (s.inRecv packet).reads = s.reads
    unfold inRecv
    split <;> rfl
  | some (.inAsyncRead, true, _) => exact destroy_reads { s with told := true }

theorem reads_runSent (s : TcpSession) (call : Option (SentHandler × Bool)) :
    (s.runSent call).reads = s.reads := by
  match call with
  | none => rfl
  | some (.inAsyncWrite, false) =>
    show s.inSent.reads = s.reads
    unfold inSent
    split <;> rfl
  | some (.inAsyncWrite, true) => exact s.destroy_reads

theorem reads_outRecv (s : TcpSession) (data : Bytes) (accepted : Bool) :
    (s.outRecv data accepted).reads = s.reads := by
  unfold outRecv
  split
  · split_ifs
    · exact s.destroy_reads
    · dsimp only
      split <;> rfl
  · split_ifs
    · exact s.destroy_reads
    · exact reads_runRecv _ _
  · exact reads_runSent _ _
  · rfl

/-- Every event but a read leaves the record alone, if nothing goes wrong. -/
theorem reads_step (s : TcpSession) (event : TcpEvent) (undisturbed : s.Undisturbed event) :
    (s.step event).reads = s.reads ++ readData [event] := by
  have kept {t : TcpSession} (same : t.reads = s.reads) : t.release.reads = s.reads ++ [] := by
    rw [reads_release, same, List.append_nil]
  cases event with
  | connected ok =>
    refine kept ?_
    rw [if_pos (by exact undisturbed)]
    rfl
  | wrote ok =>
    refine kept ?_
    rw [if_pos (by exact undisturbed), outSent]
    split
    · rfl
    · rfl
    · exact reads_runRecv _ _
    · rfl
  | read data accepted => exact (reads_release _).trans (reads_outRecv _ _ _)
  | recv data =>
    refine kept ?_
    rw [recvEvent]
    split
    · exact reads_runRecv _ _
    · rfl
  | sent len =>
    refine kept ?_
    rw [sentEvent]
    split
    · exact reads_runSent _ _
    · rfl
  | _ => exact undisturbed.elim

/-! ### Runs -/

theorem Relaying.release {s : TcpSession} (relaying : s.Relaying) (wired : s.Wired)
    (undestroyed : s.status ≠ .destroy) :
    s.release.status ≠ .destroy ∧ s.release.Relaying := by
  rw [release_of_open wired undestroyed]
  exact ⟨undestroyed, relaying⟩

/-- An undisturbed event keeps the session open, unless it is a read that is the wrong reply. -/
theorem Relaying.step {s : TcpSession} (relaying : s.Relaying) (wired : s.Wired) (flow : s.Flow)
    (undestroyed : s.status ≠ .destroy) (event : TcpEvent) (enabled : s.enabled event)
    (undisturbed : s.Undisturbed event) :
    ((s.step event).status ≠ .destroy ∧ (s.step event).Relaying) ∨
      ((s.step event).status = .destroy ∧ Misread (s.reads ++ readData [event])) := by
  cases event with
  | connected ok =>
    have true : ok = true := undisturbed
    subst true
    refine Or.inl (Relaying.release (relaying.connected flow wired undestroyed enabled.2) ?_ ?_)
    · exact (wired.complete .connect true).outAsyncWrite greeting
    · exact undestroyed
  | wrote ok =>
    have true : ok = true := undisturbed
    subst true
    have sent := relaying.outSent wired undestroyed enabled.2
    refine Or.inl (sent.1.release (wired.complete .write true).outSent ?_)
    rw [sent.2]
    exact undestroyed
  | read data accepted =>
    have true : accepted = true := undisturbed
    subst true
    obtain ⟨_, pending, positive, bound⟩ := enabled
    have same : TcpSession.Wired { s.complete .read true with reads := s.reads ++ [data] } :=
      wired.congr rfl rfl rfl rfl rfl rfl rfl rfl
    rcases relaying.read wired flow undestroyed pending positive bound with
      ⟨opened, again⟩ | ⟨destroyed, misread⟩
    · exact Or.inl (again.release (same.outRecv data true) opened)
    · exact Or.inr ⟨release_status destroyed, misread⟩
  | recv data =>
    obtain ⟨again, opened⟩ := relaying.recvEvent wired undestroyed data
    exact Or.inl (again.release (wired.recvEvent data) opened)
  | sent len =>
    have same : TcpSession.Wired
        { s with pcb := { s.pcb with unacked := s.pcb.unacked - len } } :=
      wired.congr rfl rfl rfl rfl rfl rfl rfl rfl
    obtain ⟨again, status, _⟩ := relaying.sentEvent wired undestroyed enabled.2.2.1 enabled.2.2.2.2
    exact Or.inl (again.release (same.sentEvent len) (by rw [status]; exact undestroyed))
  | _ => exact undisturbed.elim

/-- What an undisturbed run keeps: the wiring, the flow, and an open session as long as no read
was the wrong reply. -/
structure Course (s : TcpSession) : Prop where
  wired : s.Wired
  flow : s.Flow
  course : (s.status ≠ .destroy ∧ s.Relaying) ∨ (s.status = .destroy ∧ Misread s.reads)

theorem Course.step {s : TcpSession} (course : s.Course) (event : TcpEvent)
    (enabled : s.enabled event) (undisturbed : s.Undisturbed event) : (s.step event).Course := by
  have wired := course.wired.step event enabled
  refine ⟨wired, course.flow.step course.wired event enabled, ?_⟩
  rw [s.reads_step event undisturbed]
  rcases course.course with ⟨undestroyed, relaying⟩ | ⟨destroyed, misread⟩
  · exact relaying.step course.wired course.flow undestroyed event enabled undisturbed
  · exact Or.inr ⟨destroyed_step course.wired destroyed event, misread.append _⟩

theorem course_init (localIp remoteIp : IpCell) (localPort remotePort : Port) :
    (init localIp remoteIp localPort remotePort).Course := by
  refine ⟨wired_init _ _ _ _, flow_init _ _ _ _, Or.inl ⟨(fun wrong => by cases wrong), ?_⟩⟩
  refine ⟨rfl, rfl, rfl, ?_, ?_, (fun wrong => by cases wrong), fun _ => ⟨rfl, rfl⟩,
    (fun wrong => by cases wrong), fun sent => absurd rfl sent⟩
  · intro op member
    rw [List.mem_singleton.mp member]
  · intro _
    exact ⟨List.cons_ne_nil _ _, rfl⟩

/-- An undisturbed run keeps the course and records its reads. -/
theorem Course.run {s : TcpSession} (course : s.Course) {events : List TcpEvent}
    (guarded : tcpSystem.Guarded Undisturbed s events) :
    (tcpSystem.run events s).Course ∧
      (tcpSystem.run events s).reads = s.reads ++ readData events := by
  induction events generalizing s with
  | nil => exact ⟨course, (List.append_nil _).symm⟩
  | cons event rest inductionHypothesis =>
    rw [tcpSystem.guarded_cons] at guarded
    obtain ⟨⟨enabled, undisturbed⟩, guarded⟩ := guarded
    obtain ⟨kept, reads⟩ := inductionHypothesis (course.step event enabled undisturbed) guarded
    refine ⟨kept, reads.trans ?_⟩
    rw [s.reads_step event undisturbed, List.append_assoc, ← readData_append]
    rfl

/-! ### Progress -/

theorem pending_of_member {s : TcpSession} {op : OutOp} (member : op ∈ s.ops)
    (usable : op.usable = true) : s.pending op.kind true = true := by
  refine List.any_eq_true.mpr ⟨op, member, ?_⟩
  rw [usable]
  simp

/-- A session whose next read can happen after some more events that are not reads. -/
def CanRead (s : TcpSession) : Prop :=
  ∃ more, tcpSystem.Guarded Undisturbed s more ∧ readData more = [] ∧
    (tcpSystem.run more s).alive = true ∧ (tcpSystem.run more s).pending .read true = true

/-- One event that is not a read may come first. -/
theorem CanRead.before {s : TcpSession} {event : TcpEvent} (canRead : (s.step event).CanRead)
    (enabled : s.enabled event) (undisturbed : s.Undisturbed event)
    (silent : readData [event] = []) : s.CanRead := by
  obtain ⟨more, guarded, none, alive, pending⟩ := canRead
  refine ⟨event :: more, ⟨⟨enabled, undisturbed⟩, guarded⟩, ?_, alive, pending⟩
  rw [← List.singleton_append, readData_append, silent, none]
  rfl

/-- A pending read is all it takes. -/
theorem Relaying.canRead {s : TcpSession} (relaying : s.Relaying) (reading : 0 < s.readOps) :
    s.CanRead := by
  obtain ⟨op, member, read⟩ := List.countP_pos_iff.mp reading
  have pending := pending_of_member member (relaying.usable op member)
  rw [of_decide_eq_true read] at pending
  exact ⟨[], trivial, rfl, relaying.alive, pending⟩

/-- In the handshake the completion of a write starts a read. -/
theorem canRead_of_write {s : TcpSession} (relaying : s.Relaying) (wired : s.Wired)
    (early : s.status = .handshake ∨ s.status = .request)
    (pending : s.pending .write true = true) : s.CanRead := by
  have undestroyed : s.status ≠ .destroy := by
    rcases early with early | early <;> rw [early] <;> decide
  have enabled : s.enabled (.wrote true) := ⟨relaying.alive, pending⟩
  refine CanRead.before ?_ enabled rfl rfl
  obtain ⟨sent, status⟩ := relaying.outSent wired undestroyed pending
  have shape : s.step (.wrote true) = (s.complete .write true).outAsyncRead := by
    have opened : (s.complete .write true).outSent.status ≠ .destroy := by
      rw [status]
      exact undestroyed
    refine (release_of_open (wired.complete .write true).outSent opened).trans ?_
    unfold outSent
    split
    · rfl
    · rfl
    · rename_i forward
      rcases early with early | early <;> cases early.symm.trans forward
    · rename_i destroyed
      exact absurd destroyed undestroyed
  have reading : 0 < (s.complete .write true).outAsyncRead.readOps := by
    rw [show (s.complete .write true).outAsyncRead.readOps = _ from readOps_append_read _ _]
    exact Nat.succ_pos _
  rw [shape]
  refine Relaying.canRead ?_ reading
  rw [← shape]
  exact (sent.release (wired.complete .write true).outSent
    (by rw [status]; exact undestroyed)).2

/-- An open session of an undisturbed run always gets to its next read. -/
theorem Relaying.progress {s : TcpSession} (relaying : s.Relaying) (wired : s.Wired)
    (flow : s.Flow) (undestroyed : s.status ≠ .destroy) : s.CanRead := by
  have handshaking (early : s.status = .handshake ∨ s.status = .request) : s.CanRead := by
    obtain ⟨op, member⟩ := List.exists_mem_of_ne_nil _ (relaying.busy early).1
    have usable := relaying.usable op member
    have pending := pending_of_member member usable
    cases kind : op.kind with
    | read =>
      refine relaying.canRead (List.countP_pos_iff.mpr ⟨op, member, ?_⟩)
      simp [kind]
    | write =>
      rw [kind] at pending
      exact canRead_of_write relaying wired early pending
    | connect =>
      rw [kind] at pending
      have enabled : s.enabled (.connected true) := ⟨relaying.alive, pending⟩
      refine CanRead.before ?_ enabled rfl rfl
      have connected := relaying.connected flow wired undestroyed pending
      have later := (wired.complete .connect true).outAsyncWrite greeting
      have shape : s.step (.connected true) = (s.complete .connect true).outAsyncWrite greeting :=
        release_of_open later undestroyed
      rw [shape]
      refine canRead_of_write connected later early ?_
      have member : (⟨.write, s.outOpen⟩ : OutOp) ∈
          ((s.complete .connect true).outAsyncWrite greeting).ops :=
        List.mem_append_right _ (List.mem_singleton_self _)
      exact pending_of_member member relaying.outOpen
  cases status : s.status with
  | handshake => exact handshaking (Or.inl status)
  | request => exact handshaking (Or.inr status)
  | forward =>
    cases sent : s.inSock.sent with
    | none =>
      refine relaying.canRead ?_
      rw [relaying.reading status sent]
      exact Nat.one_pos
    | some handler =>
      obtain ⟨_, positive, short, _⟩ :=
        relaying.sending (by rw [sent]; exact Option.some_ne_none _)
      have enabled : s.enabled (.sent s.pcb.unacked) := by
        refine ⟨relaying.alive, (wired.live undestroyed relaying.unended).1, positive, ?_, le_rfl⟩
        unfold recvBufSize at short
        omega
      refine CanRead.before ?_ enabled trivial rfl
      obtain ⟨again, later, unparked⟩ := relaying.sentEvent wired undestroyed positive le_rfl
      have same : TcpSession.Wired
          { s with pcb := { s.pcb with unacked := s.pcb.unacked - s.pcb.unacked } } :=
        wired.congr rfl rfl rfl rfl rfl rfl rfl rfl
      have opened := release_of_open (same.sentEvent s.pcb.unacked)
        (by rw [later]; exact undestroyed)
      have shape : s.step (.sent s.pcb.unacked) = _ := opened
      rw [shape]
      refine again.canRead ?_
      rw [again.reading (later.trans status) (unparked rfl)]
      exact Nat.one_pos
  | destroy => exact absurd status undestroyed

/-- Reads that begin with both replies are not misread. -/
theorem not_misread {reply : Bytes} (success : SuccessReply reply) {rest reads : List Bytes}
    (first : reads <+: methodReply :: reply :: rest) : ¬ Misread reads := by
  obtain ⟨long, head⟩ := success.accepted
  rintro ⟨data, more, ⟨rfl, other⟩ | ⟨rfl, other⟩⟩
  · obtain ⟨_, shape⟩ := first
    exact other (List.cons.inj shape).1
  · obtain ⟨_, shape⟩ := first
    have same : data = reply := (List.cons.inj (List.cons.inj shape).2).1
    rw [same] at other
    rcases other with short | other
    · omega
    · exact other head

/-- A session that has read both replies relays everything it has read since. -/
theorem Course.relayed {reply : Bytes} (success : SuccessReply reply) {rest : List Bytes}
    {s : TcpSession} (course : s.Course) (all : s.reads = methodReply :: reply :: rest) :
    s.status = .forward ∧ s.sends = rest := by
  have unspoiled := not_misread success ⟨[], (List.append_nil _).trans all⟩
  obtain ⟨undestroyed, relaying⟩ := course.course.resolve_right fun both => unspoiled both.2
  have forward : s.status = .forward := by
    cases status : s.status with
    | handshake => cases all.symm.trans (course.flow.handshake status).1
    | request => cases all.symm.trans (course.flow.request status).1
    | forward => rfl
    | destroy => exact absurd status undestroyed
  obtain ⟨second, shape⟩ := relaying.forwarded forward
  rw [all] at shape
  exact ⟨forward, (List.cons.inj (List.cons.inj shape).2).2.symm⟩

/-- Reads that begin with both replies can all be made. -/
theorem Course.reads_all {reply : Bytes} (success : SuccessReply reply) {rest : List Bytes}
    (left : List Bytes) {s : TcpSession} (course : s.Course)
    (whole : s.reads ++ left = methodReply :: reply :: rest)
    (sizes : ∀ chunk ∈ left, 0 < chunk.length ∧ chunk.length ≤ recvBufSize) :
    ∃ more, tcpSystem.Guarded Undisturbed s more ∧ readData more = left := by
  induction left generalizing s with
  | nil => exact ⟨[], trivial, rfl⟩
  | cons chunk left inductionHypothesis =>
    have unspoiled : ¬ Misread s.reads := not_misread success ⟨_, whole⟩
    obtain ⟨undestroyed, relaying⟩ := course.course.resolve_right fun both => unspoiled both.2
    obtain ⟨wait, guarded, silent, alive, pending⟩ :=
      relaying.progress course.wired course.flow undestroyed
    obtain ⟨waited, reads⟩ := course.run guarded
    rw [silent, List.append_nil] at reads
    obtain ⟨size, sizes⟩ := List.forall_mem_cons.mp sizes
    have enabled : (tcpSystem.run wait s).enabled (.read chunk true) :=
      ⟨alive, pending, size.1, size.2⟩
    have next : ((tcpSystem.run wait s).step (.read chunk true)).reads ++ left =
        methodReply :: reply :: rest := by
      rw [reads_step _ _ (by rfl), reads, List.append_assoc]
      exact whole
    obtain ⟨more, guardedMore, readsMore⟩ :=
      inductionHypothesis (waited.step (.read chunk true) enabled rfl) next sizes
    refine ⟨wait ++ .read chunk true :: more, ?_, ?_⟩
    · rw [tcpSystem.guarded_append]
      exact ⟨guarded, ⟨enabled, rfl⟩, guardedMore⟩
    · rw [readData_append, silent, ← readsMore]
      rfl

end TcpSession

/-- Let the server send the method reply, a success reply and a payload. However its bytes are
cut into reads, an undisturbed session relays the payload exactly if the first read is the
method reply and the second one is the success reply. -/
theorem payload_relayed (localIp remoteIp : IpCell) (localPort remotePort : Port)
    (reply payload : Bytes) (chunks : List Bytes) (success : SuccessReply reply)
    (stream : chunks.flatten = methodReply ++ reply ++ payload)
    (sizes : ∀ chunk ∈ chunks, 0 < chunk.length ∧ chunk.length ≤ recvBufSize) :
    (TcpSession.init localIp remoteIp localPort remotePort).Relays chunks payload ↔
      ∃ rest, chunks = methodReply :: reply :: rest := by
  have start := TcpSession.course_init localIp remoteIp localPort remotePort
  constructor
  · rintro ⟨safe, live⟩
    obtain ⟨events, guarded, reads⟩ := live [] trivial List.nil_prefix
    rw [List.nil_append] at reads
    obtain ⟨forward, payloadSent⟩ := safe events guarded reads
    obtain ⟨course, recorded⟩ := start.run guarded
    obtain ⟨_, relaying⟩ := course.course.resolve_right fun both =>
      TcpSession.forward_undestroyed forward both.1
    obtain ⟨second, shape⟩ := relaying.forwarded forward
    rw [recorded, reads] at shape
    have chunksShape : chunks = methodReply :: second :: _ := shape
    rw [chunksShape, List.flatten_cons, List.flatten_cons, payloadSent, ← List.append_assoc]
      at stream
    have same := List.append_cancel_left (List.append_cancel_right stream)
    rw [same] at chunksShape
    exact ⟨_, chunksShape⟩
  · rintro ⟨rest, rfl⟩
    have payloadEq : rest.flatten = payload := by
      rw [List.flatten_cons, List.flatten_cons, ← List.append_assoc] at stream
      exact List.append_cancel_left stream
    constructor
    · intro events guarded reads
      obtain ⟨course, recorded⟩ := start.run guarded
      obtain ⟨forward, sends⟩ := course.relayed success (recorded.trans reads)
      exact ⟨forward, by rw [sends, payloadEq]⟩
    · intro events guarded reads
      obtain ⟨course, recorded⟩ := start.run guarded
      obtain ⟨left, whole⟩ := reads
      have left_sizes : ∀ chunk ∈ left, 0 < chunk.length ∧ chunk.length ≤ recvBufSize := by
        intro chunk member
        refine sizes chunk ?_
        rw [← whole]
        exact List.mem_append_right _ member
      obtain ⟨more, guardedMore, readsMore⟩ :=
        course.reads_all success left (by rw [recorded]; exact whole) left_sizes
      exact ⟨more, guardedMore, by rw [readData_append, readsMore, whole]⟩

/-- A success reply with the address `0.0.0.0:0`. -/
abbrev anyReply : Bytes := [5, 0, 0, 1, 0, 0, 0, 0, 0, 0]

/-- The two replies and a payload, each in a read of its own. -/
theorem payload_relayed_apart :
    sampleSession.Relays [methodReply, anyReply, [0x68, 0x69]] [0x68, 0x69] ↔
      ∃ rest, [methodReply, anyReply, [0x68, 0x69]] = methodReply :: anyReply :: rest :=
  payload_relayed sampleDst.1 sampleSrc.1 sampleDst.2 sampleSrc.2 anyReply [0x68, 0x69]
    [methodReply, anyReply, [0x68, 0x69]]
    ⟨[0, 0, 0, 0], [0, 0], rfl, Or.inl ⟨rfl, rfl⟩⟩ rfl (by decide)

/-- The same bytes with the payload right behind the success reply in one read: the session
forwards, but the payload is lost. -/
theorem payload_relayed_together :
    [methodReply, anyReply ++ [0x68, 0x69]].flatten = methodReply ++ anyReply ++ [0x68, 0x69] ∧
      ¬ sampleSession.Relays [methodReply, anyReply ++ [0x68, 0x69]] [0x68, 0x69] := by
  refine ⟨rfl, fun relays => ?_⟩
  have guarded : tcpSystem.Guarded TcpSession.Undisturbed sampleSession
      [.connected true, .wrote true, .read methodReply true, .wrote true,
        .read (anyReply ++ [0x68, 0x69]) true] := by decide
  have lost : (tcpSystem.run [.connected true, .wrote true, .read methodReply true, .wrote true,
      .read (anyReply ++ [0x68, 0x69]) true] sampleSession).sends.flatten = [] := by decide
  cases lost.symm.trans (relays.1 _ guarded rfl).2

end Net2Tr
