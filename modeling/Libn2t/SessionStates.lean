/-
This file proves the state machine of `TCPSession`: how the status moves, that
each relaying loop has one thing outstanding at a time, and that a destroyed
session is silent.

The loops are counted in tokens. A token of the reading loop is a pending read
on the proxy connection or a parked sent handler; a token of the writing loop is
a pending connect or write, or a parked recv handler. Every callback gives a
token back before its handler takes one, so the loops never grow, and the
handshake has a single token for both.
-/

import Libn2t.Downstream

namespace Net2Tr

/-- The moves of `status`. -/
inductive StatusMove : Status → Status → Prop where
  | stays (status : Status) : StatusMove status status
  | requests : StatusMove .handshake .request
  | forwards : StatusMove .request .forward
  | destroys (status : Status) : StatusMove status .destroy

namespace TcpSession

/-- The tokens of the loop that reads from the server. -/
def reading (s : TcpSession) : Nat := s.opCount .read + s.inSock.sent.toList.length

/-- The tokens of the loop that writes to the server. -/
def writing (s : TcpSession) : Nat :=
  s.opCount .connect + s.opCount .write + s.inSock.recv.toList.length

/-- The operations that may still reach an open connection. -/
def usableOps (s : TcpSession) : List OutOp := s.ops.filter OutOp.usable

/-- What the sent callback works on. -/
def sendSide (s : TcpSession) : UInt32 × Option SentHandler × Nat :=
  (s.inSock.pendingLen, s.inSock.sent, s.pcb.unacked)

/-! ### What the methods spend -/

/-- From the first state to the second the loops take at most so many tokens. The status stays or
becomes `DESTROY`, which closes the proxy connection; only a destroyed session is deleted; a closed
connection gets no usable operation; and nothing is sent to the client. -/
structure Spends (s t : TcpSession) (reads writes : Nat) : Prop where
  reading : t.reading ≤ s.reading + reads
  writing : t.writing ≤ s.writing + writes
  status : t.status = s.status ∨ t.status = .destroy
  closed : (s.status = .destroy → s.outOpen = false) → t.status = .destroy → t.outOpen = false
  usable : s.outOpen = false → t.outOpen = false ∧ t.usableOps.Sublist s.usableOps
  sends : t.sends = s.sends
  sendSide : t.status = .destroy ∨ t.sendSide = s.sendSide
  life : t.alive = s.alive ∨ t.alive = false ∧ t.status = .destroy

variable {s t u : TcpSession} {reads writes : Nat}

/-- A step that leaves alone all that the loops are about. -/
theorem Spends.of_eq (ops : t.ops = s.ops) (recv : t.inSock.recv = s.inSock.recv)
    (status : t.status = s.status) (outOpen : t.outOpen = s.outOpen) (sends : t.sends = s.sends)
    (sendSide : t.sendSide = s.sendSide) (alive : t.alive = s.alive) : Spends s t 0 0 := by
  have sent : t.inSock.sent = s.inSock.sent := congrArg (fun side => side.2.1) sendSide
  refine ⟨?_, ?_, Or.inl status, ?_, ?_, sends, Or.inr sendSide, Or.inl alive⟩
  · rw [TcpSession.reading, opCount, ops, sent]
    exact le_rfl
  · rw [TcpSession.writing, opCount, opCount, ops, recv]
    exact le_rfl
  · rw [status, outOpen]
    exact id
  · intro shut
    rw [outOpen, usableOps, ops]
    exact ⟨shut, List.Sublist.refl _⟩

theorem Spends.refl (s : TcpSession) : Spends s s 0 0 := .of_eq rfl rfl rfl rfl rfl rfl rfl

theorem Spends.trans {moreReads moreWrites : Nat} (first : Spends s t reads writes)
    (second : Spends t u moreReads moreWrites) :
    Spends s u (reads + moreReads) (writes + moreWrites) := by
  refine ⟨?_, ?_, ?_, fun closed => second.closed (first.closed closed), fun shut => ?_,
    second.sends.trans first.sends, ?_, ?_⟩
  · have := first.reading
    have := second.reading
    omega
  · have := first.writing
    have := second.writing
    omega
  · rcases second.status with same | destroyed
    · rw [same]
      exact first.status
    · exact Or.inr destroyed
  · obtain ⟨stillShut, fewer⟩ := first.usable shut
    obtain ⟨shutLater, fewerLater⟩ := second.usable stillShut
    exact ⟨shutLater, fewerLater.trans fewer⟩
  · rcases second.sendSide with destroyed | same
    · exact Or.inl destroyed
    · rcases first.sendSide with destroyed | sameFirst
      · refine Or.inl ?_
        rcases second.status with stays | moved
        · rw [stays, destroyed]
        · exact moved
      · exact Or.inr (same.trans sameFirst)
  · rcases second.life with same | dead
    · rcases first.life with sameFirst | ⟨dead, destroyed⟩
      · exact Or.inl (same.trans sameFirst)
      · refine Or.inr ⟨same.trans dead, ?_⟩
        rcases second.status with stays | moved
        · rw [stays, destroyed]
        · exact moved
    · exact Or.inr dead

theorem Spends.mono {moreReads moreWrites : Nat} (spends : Spends s t reads writes)
    (reading : reads ≤ moreReads) (writing : writes ≤ moreWrites) :
    Spends s t moreReads moreWrites :=
  { spends with
    reading := spends.reading.trans (Nat.add_le_add_left reading _)
    writing := spends.writing.trans (Nat.add_le_add_left writing _) }

theorem spends_destroy (s : TcpSession) : Spends s s.destroy 0 0 := by
  by_cases destroyed : s.status = .destroy
  · rw [destroy_of_destroyed destroyed]
    exact .refl s
  · rw [destroy, if_neg destroyed]
    refine ⟨Nat.add_le_add_left (Nat.zero_le _) _, Nat.add_le_add_left (Nat.zero_le _) _,
      Or.inr rfl, fun _ _ => rfl, fun _ => ⟨rfl, List.Sublist.refl _⟩, rfl, Or.inl rfl, Or.inl rfl⟩

theorem spends_release (s : TcpSession) : Spends s s.release 0 0 := by
  rcases s.release_cases with same | destructed
  · rw [same]
    exact .refl s
  · rw [destructed]
    have destroyed := s.spends_destroy
    exact { destroyed with
      status := Or.inr s.destroy_status
      sendSide := Or.inl s.destroy_status
      life := Or.inr ⟨rfl, s.destroy_status⟩ }

theorem opCount_append (s : TcpSession) (kind : OutKind) (other : OutKind) :
    (s.ops ++ [(⟨kind, s.outOpen⟩ : OutOp)]).countP (fun op : OutOp => op.kind = other) =
      s.opCount other + if kind = other then 1 else 0 := by
  rw [List.countP_append, opCount]
  by_cases same : kind = other
  · rw [if_pos same, List.countP_singleton, if_pos (by simpa using same)]
  · rw [if_neg same, List.countP_singleton, if_neg (by simpa using same)]

theorem usable_append_shut (shut : s.outOpen = false) (kind : OutKind) :
    (s.ops ++ [(⟨kind, s.outOpen⟩ : OutOp)]).filter OutOp.usable = s.usableOps := by
  rw [List.filter_append, List.filter_cons_of_neg (by rw [shut]; exact Bool.false_ne_true),
    List.filter_nil, List.append_nil, usableOps]

theorem spends_outAsyncRead (s : TcpSession) : Spends s s.outAsyncRead 1 0 := by
  refine ⟨?_, ?_, Or.inl rfl, id, fun shut => ⟨shut, ?_⟩, rfl, Or.inr rfl, Or.inl rfl⟩
  · show List.countP _ _ + _ ≤ _
    rw [outAsyncRead, opCount_append, if_pos rfl, TcpSession.reading]
    dsimp only
    omega
  · show List.countP _ _ + List.countP _ _ + _ ≤ _
    rw [outAsyncRead, opCount_append, opCount_append, if_neg (fun same => by cases same),
      if_neg (fun same => by cases same)]
    exact le_rfl
  · rw [usableOps, outAsyncRead, usable_append_shut shut]

theorem spends_outAsyncWrite (s : TcpSession) (data : Bytes) :
    Spends s (s.outAsyncWrite data) 0 1 := by
  refine ⟨?_, ?_, Or.inl rfl, id, fun shut => ⟨shut, ?_⟩, rfl, Or.inr rfl, Or.inl rfl⟩
  · show List.countP _ _ + _ ≤ _
    rw [outAsyncWrite, opCount_append, if_neg (fun same => by cases same)]
    exact le_rfl
  · show List.countP _ _ + List.countP _ _ + _ ≤ _
    rw [outAsyncWrite, opCount_append, opCount_append, if_neg (fun same => by cases same),
      if_pos rfl, TcpSession.writing]
    dsimp only
    omega
  · rw [usableOps, outAsyncWrite, usable_append_shut shut]

theorem spends_inRecv (s : TcpSession) (data : Bytes) : Spends s (s.inRecv data) 0 1 := by
  unfold inRecv
  split
  · exact s.spends_outAsyncWrite data
  · exact (Spends.refl s).mono le_rfl (Nat.zero_le 1)

theorem spends_inSent (s : TcpSession) : Spends s s.inSent 1 0 := by
  unfold inSent
  split
  · exact s.spends_outAsyncRead
  · exact (Spends.refl s).mono (Nat.zero_le 1) le_rfl

theorem spends_inAsyncRead (s : TcpSession) : Spends s s.inAsyncRead 0 1 := by
  by_cases freed : s.inSock.pcbFreed = true
  · rw [inAsyncRead_freed freed]
    have told : Spends s { s with told := true } 0 0 := .of_eq rfl rfl rfl rfl rfl rfl rfl
    exact (told.trans (spends_destroy _)).mono le_rfl (Nat.zero_le 1)
  · rw [Bool.not_eq_true] at freed
    by_cases empty : s.inSock.recvBuf = []
    · rw [inAsyncRead_park freed empty]
      refine ⟨le_rfl, ?_, Or.inl rfl, id, fun shut => ⟨shut, List.Sublist.refl _⟩, rfl,
        Or.inr rfl, Or.inl rfl⟩
      rw [TcpSession.writing, TcpSession.writing]
      exact Nat.add_le_add (Nat.le_add_right _ _) le_rfl
    · rw [inAsyncRead_take freed empty]
      have taken : Spends s { s with inSock := { s.inSock with recvBuf := [] } } 0 0 :=
        .of_eq rfl rfl rfl rfl rfl rfl rfl
      exact taken.trans (spends_inRecv _ _)

/-- The handler of a parked recv slot takes the token the slot held. -/
theorem spends_runRecv (s : TcpSession) (handler : RecvHandler) (pcbFreed : Bool)
    (packet : Bytes) : Spends s (s.runRecv (some (handler, pcbFreed, packet))) 0 1 := by
  cases pcbFreed with
  | true =>
    have told : Spends s { s with told := true } 0 0 := .of_eq rfl rfl rfl rfl rfl rfl rfl
    exact (told.trans (spends_destroy _)).mono le_rfl (Nat.zero_le 1)
  | false => exact s.spends_inRecv packet

theorem spends_runSent (s : TcpSession) (handler : SentHandler) (pcbFreed : Bool) :
    Spends s (s.runSent (some (handler, pcbFreed))) 1 0 := by
  cases pcbFreed with
  | true => exact s.spends_destroy.mono (Nat.zero_le 1) le_rfl
  | false => exact s.spends_inSent

/-! ### What the events do -/

/-- The event is a call of the sent callback. -/
def acknowledging : TcpEvent → Bool
  | .sent _ => true
  | _ => false

/-- How the state before an event relates to the state in which its handler starts, the handler
taking at most so many tokens. -/
inductive Prepares (s c : TcpSession) (reads writes : Nat) : TcpEvent → Prop where
  | keeps (event : TcpEvent) (status : c.status = s.status) (sends : c.sends = s.sends)
      (sendSide : s.status = .destroy ∨ acknowledging event = false ∧ c.sendSide = s.sendSide)
      (reading : c.reading + reads ≤ s.reading) (writing : c.writing + writes ≤ s.writing) :
      Prepares s c reads writes event
  | answers (event : TcpEvent) (early : s.status = .handshake ∨ s.status = .request)
      (status : c.status = s.status ∨ s.status = .handshake ∧ c.status = .request)
      (sends : c.sends = s.sends)
      (sendSide : acknowledging event = false ∧ c.sendSide = s.sendSide)
      (tokens : c.reading + reads + (c.writing + writes) ≤ s.reading + s.writing) :
      Prepares s c reads writes event
  | forwards (event : TcpEvent) (request : s.status = .request) (status : c.status = .forward)
      (sends : c.sends = s.sends)
      (sendSide : acknowledging event = false ∧ c.sendSide = s.sendSide) (pending : 1 ≤ s.reading)
      (reading : c.reading + reads ≤ s.reading) (writing : c.writing + writes ≤ s.writing + 1) :
      Prepares s c reads writes event
  | sends (data : Bytes) (accepted : Bool) (forward : s.status = .forward)
      (pending : 1 ≤ s.opCount .read) (status : c.status = .forward)
      (sends : c.sends = s.sends ++ [data])
      (sendSide : c.sendSide =
        if s.inSock.pcbFreed then s.sendSide
        else (s.inSock.pendingLen + UInt32.ofNat data.length, some .inAsyncWrite,
          s.pcb.unacked + if accepted then data.length % 2 ^ 16 else 0))
      (reading : c.reading + reads ≤ s.reading) (writing : c.writing + writes ≤ s.writing) :
      Prepares s c reads writes (.read data accepted)
  | acknowledges (len : Nat) (undestroyed : s.status ≠ .destroy) (status : c.status = s.status)
      (sends : c.sends = s.sends)
      (sendSide : c.sendSide = (s.inSock.pendingLen - UInt32.ofNat len,
        if s.inSock.pendingLen - UInt32.ofNat len = 0 then none else s.inSock.sent,
        s.pcb.unacked - len))
      (reading : c.reading + reads ≤ s.reading) (writing : c.writing + writes ≤ s.writing) :
      Prepares s c reads writes (.sent len)

/-- What an event does to a session: its handler starts in a prepared state and spends what that
leaves. -/
def Takes (s t : TcpSession) (event : TcpEvent) : Prop :=
  ∃ c reads writes, s.Prepares c reads writes event ∧
    (c.outOpen = s.outOpen ∧ c.alive = s.alive ∧ c.ops.Sublist s.ops) ∧ Spends c t reads writes

theorem Takes.andThen {event : TcpEvent} (takes : Takes s t event) (spends : Spends t u 0 0) :
    Takes s u event := by
  obtain ⟨c, reads, writes, prepares, same, first⟩ := takes
  exact ⟨c, reads, writes, prepares, same, first.trans spends⟩

theorem Spends.prepared {c : TcpSession} {event : TcpEvent} (spends : Spends c t reads writes)
    (prepares : s.Prepares c reads writes event)
    (same : c.outOpen = s.outOpen ∧ c.alive = s.alive ∧ c.ops.Sublist s.ops) : Takes s t event :=
  ⟨c, reads, writes, prepares, same, spends⟩

/-- An event whose handler starts in the state before it. -/
theorem Spends.takes {event : TcpEvent} (spends : Spends s t 0 0)
    (quiet : acknowledging event = false) : Takes s t event :=
  spends.prepared (.keeps event rfl rfl (Or.inr ⟨quiet, rfl⟩) le_rfl le_rfl)
    ⟨rfl, rfl, List.Sublist.refl _⟩

theorem reading_complete {kind : OutKind} {ok : Bool} (pending : s.pending kind ok = true) :
    (s.complete kind ok).reading + (if kind = .read then 1 else 0) = s.reading := by
  have reads := opCount_complete pending .read
  have sent : (s.complete kind ok).inSock.sent = s.inSock.sent := rfl
  rw [TcpSession.reading, TcpSession.reading, sent]
  omega

theorem writing_complete {kind : OutKind} {ok : Bool} (pending : s.pending kind ok = true) :
    (s.complete kind ok).writing + (if kind = .read then 0 else 1) = s.writing := by
  have connects := opCount_complete pending .connect
  have writes := opCount_complete pending .write
  have recv : (s.complete kind ok).inSock.recv = s.inSock.recv := rfl
  rw [TcpSession.writing, TcpSession.writing, recv]
  cases kind with
  | connect =>
    rw [if_pos rfl] at connects
    rw [if_neg (fun same => by cases same)] at writes
    rw [if_neg (fun same => by cases same)]
    omega
  | read =>
    rw [if_neg (fun same => by cases same)] at connects writes
    rw [if_pos rfl]
    omega
  | write =>
    rw [if_neg (fun same => by cases same)] at connects
    rw [if_pos rfl] at writes
    rw [if_neg (fun same => by cases same)]
    omega

theorem complete_ops (s : TcpSession) (kind : OutKind) (ok : Bool) :
    (s.complete kind ok).ops.Sublist s.ops := List.eraseP_sublist

theorem takes_connected {ok : Bool} (pending : s.pending .connect ok = true) :
    Takes s (s.step (.connected ok)) (.connected ok) := by
  have reading : (s.complete .connect ok).reading + 0 = s.reading := reading_complete pending
  have writing : (s.complete .connect ok).writing + 1 = s.writing := writing_complete pending
  refine Takes.andThen ?_ (spends_release _)
  refine ⟨s.complete .connect ok, 0, 1,
    .keeps _ rfl rfl (Or.inr ⟨rfl, rfl⟩) reading.le writing.le, ⟨rfl, rfl, s.complete_ops _ _⟩, ?_⟩
  cases ok with
  | true => exact spends_outAsyncWrite _ greeting
  | false => exact (spends_destroy _).mono le_rfl (Nat.zero_le 1)

theorem takes_wrote {ok : Bool} (pending : s.pending .write ok = true) :
    Takes s (s.step (.wrote ok)) (.wrote ok) := by
  have reading : (s.complete .write ok).reading + 0 = s.reading := reading_complete pending
  have writing : (s.complete .write ok).writing + 1 = s.writing := writing_complete pending
  have stays : Prepares s (s.complete .write ok) 0 1 (.wrote ok) :=
    .keeps _ rfl rfl (Or.inr ⟨rfl, rfl⟩) reading.le writing.le
  have swaps (early : s.status = .handshake ∨ s.status = .request) :
      Prepares s (s.complete .write ok) 1 0 (.wrote ok) :=
    .answers _ early (Or.inl rfl) rfl ⟨rfl, rfl⟩ (by omega)
  refine Takes.andThen ?_ (spends_release _)
  cases ok with
  | false =>
    exact ⟨_, _, _, stays, ⟨rfl, rfl, s.complete_ops _ _⟩,
      (spends_destroy _).mono le_rfl (Nat.zero_le 1)⟩
  | true =>
    have same : (s.complete .write true).status = s.status := rfl
    rw [if_pos rfl, outSent, same]
    cases status : s.status with
    | handshake =>
      exact ⟨_, _, _, swaps (Or.inl status), ⟨rfl, rfl, s.complete_ops _ _⟩, spends_outAsyncRead _⟩
    | request =>
      exact ⟨_, _, _, swaps (Or.inr status), ⟨rfl, rfl, s.complete_ops _ _⟩, spends_outAsyncRead _⟩
    | forward => exact ⟨_, _, _, stays, ⟨rfl, rfl, s.complete_ops _ _⟩, spends_inAsyncRead _⟩
    | destroy =>
      exact ⟨_, _, _, stays, ⟨rfl, rfl, s.complete_ops _ _⟩,
        (Spends.refl _).mono le_rfl (Nat.zero_le 1)⟩

/-- A read has been completed and its token given back; nothing else has changed that the loops are
about. -/
structure TakenBack (s c : TcpSession) : Prop where
  same : c.outOpen = s.outOpen ∧ c.alive = s.alive ∧ c.ops.Sublist s.ops
  status : c.status = s.status
  sends : c.sends = s.sends
  inSock : c.inSock = s.inSock
  pcb : c.pcb = s.pcb
  count : c.opCount .read + 1 = s.opCount .read
  reading : c.reading + 1 = s.reading
  writing : c.writing = s.writing

theorem takenBack {ok : Bool} (pending : s.pending .read ok = true) (data : Bytes) :
    TakenBack s { s.complete .read ok with reads := s.reads ++ [data] } :=
  ⟨⟨rfl, rfl, s.complete_ops _ _⟩, rfl, rfl, rfl, rfl, opCount_complete pending .read,
    reading_complete pending, writing_complete pending⟩

theorem TakenBack.sendSide {c : TcpSession} (back : TakenBack s c) : c.sendSide = s.sendSide := by
  rw [TcpSession.sendSide, TcpSession.sendSide, back.inSock, back.pcb]

/-- Keeping to the tokens that are left. -/
theorem TakenBack.takes {c : TcpSession} (back : TakenBack s c) (spends : Spends c t 0 0)
    (data : Bytes) (accepted : Bool) : Takes s t (.read data accepted) := by
  refine spends.prepared (.keeps _ back.status back.sends (Or.inr ⟨rfl, back.sendSide⟩) ?_ ?_)
    back.same
  · exact (Nat.le_add_right _ 1).trans back.reading.le
  · exact back.writing.le

/-- The token of the read goes to the request. -/
theorem TakenBack.request {c : TcpSession} (back : TakenBack s c)
    (handshake : s.status = .handshake) (data : Bytes) (accepted : Bool) :
    Takes s
      (match connectRequest ((c.pcb.touch .dstAddr).touch .dstPort).localIp
          ((c.pcb.touch .dstAddr).touch .dstPort).localPort with
        | some req => ({ c with
            status := .request
            pcb := (c.pcb.touch .dstAddr).touch .dstPort } : TcpSession).outAsyncWrite req
        | none => { c with status := .request, pcb := (c.pcb.touch .dstAddr).touch .dstPort })
      (.read data accepted) := by
  set next : TcpSession :=
    { c with status := .request, pcb := (c.pcb.touch .dstAddr).touch .dstPort }
  have answers (writes : Nat) (spare : writes ≤ 1) : Prepares s next 0 writes
      (.read data accepted) := by
    refine .answers _ (Or.inl handshake) (Or.inr ⟨handshake, rfl⟩) back.sends ⟨rfl, ?_⟩ ?_
    · rw [← back.sendSide, TcpSession.sendSide, TcpSession.sendSide]
      simp only [next, TcpPcb.touch_unacked]
    · have reading : next.reading + 1 = s.reading := back.reading
      have writing : next.writing = s.writing := back.writing
      omega
  split
  · exact (spends_outAsyncWrite next _).prepared (answers 1 le_rfl) back.same
  · exact (Spends.refl next).prepared (answers 0 (Nat.zero_le 1)) back.same

/-- The token of the read goes to the next read, and the writing loop gets its own. -/
theorem TakenBack.forward {c : TcpSession} (back : TakenBack s c) (request : s.status = .request)
    (data : Bytes) (accepted : Bool) :
    Takes s ({ c with status := .forward } : TcpSession).inAsyncRead.outAsyncRead
      (.read data accepted) := by
  refine ((spends_inAsyncRead { c with status := .forward }).trans
    (spends_outAsyncRead _)).prepared ?_ back.same
  have reading := back.reading
  refine .forwards _ request rfl back.sends ⟨rfl, back.sendSide⟩ (by omega) ?_ ?_
  · exact back.reading.le
  · exact Nat.add_le_add_right back.writing.le 1

/-- The token of the read goes to the sent handler. -/
theorem TakenBack.send {c : TcpSession} (back : TakenBack s c) (forward : s.status = .forward)
    (data : Bytes) (accepted : Bool) :
    Takes s (c.inAsyncWrite data accepted) (.read data accepted) := by
  have pending : 1 ≤ s.opCount .read := by
    have count := back.count
    omega
  have status : c.status = .forward := back.status.trans forward
  have sends : c.sends ++ [data] = s.sends ++ [data] := congrArg (· ++ [data]) back.sends
  by_cases freed : s.inSock.pcbFreed = true
  · rw [inAsyncWrite_freed (by rw [back.inSock]; exact freed)]
    refine (spends_destroy { c with sends := c.sends ++ [data] }).prepared ?_ back.same
    refine .sends data accepted forward pending status sends ?_ ?_ ?_
    · rw [freed, if_pos rfl]
      exact back.sendSide
    · exact (Nat.le_add_right _ 1).trans back.reading.le
    · exact back.writing.le
  · rw [Bool.not_eq_true] at freed
    rw [inAsyncWrite_live (by rw [back.inSock]; exact freed)]
    refine (Spends.refl _).prepared ?_ back.same
    refine .sends data accepted forward pending status sends ?_ ?_ back.writing.le
    · rw [freed, if_neg Bool.false_ne_true, TcpSession.sendSide, back.inSock, back.pcb]
      simp only [TcpPcb.write_unacked, TcpPcb.touch_unacked]
    · have count := back.count
      show c.opCount .read + 1 + 0 ≤ s.reading
      rw [TcpSession.reading]
      omega

theorem takes_outRecv {ok : Bool} (pending : s.pending .read ok = true) (data : Bytes)
    (accepted : Bool) :
    Takes s (({ s.complete .read ok with reads := s.reads ++ [data] } :
      TcpSession).outRecv data accepted) (.read data accepted) := by
  have back := takenBack pending data
  unfold outRecv
  split
  · rename_i handshake
    split
    · exact back.takes (spends_destroy _) data accepted
    · exact back.request handshake data accepted
  · rename_i request
    split
    · exact back.takes (spends_destroy _) data accepted
    · exact back.forward request data accepted
  · rename_i forward
    exact back.send forward data accepted
  · exact back.takes (.refl _) data accepted

/-- lwIP's data goes to the parked handler, which gives the slot's token back. -/
theorem takes_recvEvent (s : TcpSession) (data : Bytes) :
    Takes s (s.recvEvent (some data)) (.recv data) := by
  by_cases registered : s.pcb.recv = true
  · cases parked : s.inSock.recv with
    | none =>
      rw [recvEvent_buffered registered parked]
      refine Spends.takes (.of_eq rfl rfl rfl rfl rfl ?_ rfl) rfl
      simp only [sendSide, TcpPcb.touch_unacked]
    | some handler =>
      rw [recvEvent_parked registered parked]
      refine (spends_runRecv _ _ _ _).prepared (.keeps _ rfl rfl (Or.inr ⟨rfl, ?_⟩) le_rfl ?_)
        ⟨rfl, rfl, List.Sublist.refl _⟩
      · simp only [sendSide, TcpPcb.touch_unacked]
      · rw [TcpSession.writing, TcpSession.writing, parked]
        exact le_rfl
  · rw [recvEvent_unregistered (Bool.eq_false_of_not_eq_true registered)]
    exact (Spends.refl s).takes rfl

theorem takes_fin (s : TcpSession) :
    Takes s ({ s with pcb := { s.pcb with state := .closeWait } }.recvEvent none) .fin := by
  refine Spends.takes ?_ rfl
  by_cases registered : s.pcb.recv = true
  · rw [recvEvent_fin (by exact registered)]
    refine .of_eq rfl rfl rfl rfl rfl ?_ rfl
    simp only [sendSide, TcpPcb.close_unacked, TcpPcb.touch_unacked]
  · rw [recvEvent_unregistered (s := { s with pcb := { s.pcb with state := .closeWait } })
      (Bool.eq_false_of_not_eq_true registered)]
    exact .of_eq rfl rfl rfl rfl rfl rfl rfl

/-- An acknowledgement counts down, and the last one calls the parked handler, which gives the
slot's token back. -/
theorem takes_sent (wired : s.Wired) (len : Nat) :
    Takes s ({ s with pcb := { s.pcb with unacked := s.pcb.unacked - len } }.sentEvent len)
      (.sent len) := by
  set acked : TcpSession := { s with pcb := { s.pcb with unacked := s.pcb.unacked - len } }
  by_cases registered : s.pcb.sent = true
  · have undestroyed := wired.undestroyed (Or.inr (Or.inl registered))
    by_cases done : s.inSock.pendingLen - UInt32.ofNat len = 0
    · rw [sentEvent_done (s := acked) registered len done]
      have counted : TcpSession.sendSide
          { acked with inSock := { acked.inSock with pendingLen := 0, sent := none } } =
          (s.inSock.pendingLen - UInt32.ofNat len,
            if s.inSock.pendingLen - UInt32.ofNat len = 0 then none else s.inSock.sent,
            s.pcb.unacked - len) := by
        rw [if_pos done, done]
        rfl
      cases parked : acked.inSock.sent with
      | none =>
        exact (Spends.refl _).prepared (.acknowledges len undestroyed rfl rfl counted
          (Nat.add_le_add_left (Nat.zero_le _) _) le_rfl) ⟨rfl, rfl, List.Sublist.refl _⟩
      | some handler =>
        refine (spends_runSent _ _ _).prepared (.acknowledges len undestroyed rfl rfl counted ?_
          le_rfl) ⟨rfl, rfl, List.Sublist.refl _⟩
        have one : s.reading = s.opCount .read + 1 := by
          rw [TcpSession.reading, show s.inSock.sent = some handler from parked]
          rfl
        rw [one]
        exact le_rfl
    · rw [sentEvent_counting (s := acked) registered len done]
      refine (Spends.refl _).prepared (.acknowledges len undestroyed rfl rfl ?_ le_rfl le_rfl)
        ⟨rfl, rfl, List.Sublist.refl _⟩
      rw [if_neg done]
      rfl
  · rw [sentEvent_unregistered (s := acked) (Bool.eq_false_of_not_eq_true registered)]
    have destroyed : s.status = .destroy := by
      by_contra undestroyed
      exact registered (wired.registered undestroyed).2.1
    exact (Spends.refl acked).prepared (.keeps _ rfl rfl (Or.inl destroyed) le_rfl le_rfl)
      ⟨rfl, rfl, List.Sublist.refl _⟩

theorem spends_free (s : TcpSession) : Spends s { s with pcb := s.pcb.free } 0 0 :=
  .of_eq rfl rfl rfl rfl rfl rfl rfl

theorem spends_errEvent (wired : s.Wired) (undestroyed : s.status ≠ .destroy) (err : Err) :
    Spends s (s.errEvent err) 0 0 := by
  rw [errEvent_eq (wired.registered undestroyed).2.2.2]
  have cleared : Spends s
      { s with inSock := { s.inSock with pcbFreed := true, err := none } } 0 0 :=
    .of_eq rfl rfl rfl rfl rfl rfl rfl
  exact cleared.trans (spends_destroy _)

/-- What every event does. -/
theorem takes_step (wired : s.Wired) {event : TcpEvent} (enabled : s.enabled event) :
    Takes s (s.step event) event := by
  cases event with
  | connected ok => exact takes_connected enabled.2
  | wrote ok => exact takes_wrote enabled.2
  | read data accepted => exact (takes_outRecv enabled.2.1 data accepted).andThen (spends_release _)
  | readError =>
    have reading : (s.complete .read false).reading + 1 = s.reading := reading_complete enabled.2
    have writing : (s.complete .read false).writing + 0 = s.writing := writing_complete enabled.2
    exact ((spends_destroy (s.complete .read false)).trans (spends_release _)).prepared
      (.keeps _ rfl rfl (Or.inr ⟨rfl, rfl⟩) (by omega) (by omega)) ⟨rfl, rfl, s.complete_ops _ _⟩
  | recv data => exact (s.takes_recvEvent data).andThen (spends_release _)
  | fin => exact s.takes_fin.andThen (spends_release _)
  | sent len => exact (takes_sent wired len).andThen (spends_release _)
  | finalAck => exact s.spends_free.takes rfl
  | rst =>
    unfold step
    dsimp only
    split
    · rename_i registered
      have undestroyed := wired.undestroyed (Or.inr (Or.inr registered))
      exact (((spends_errEvent wired undestroyed .rst).trans (spends_release _)).trans
        (spends_free _)).takes rfl
    · exact s.spends_free.takes rfl
  | abort =>
    unfold step
    dsimp only
    split
    · rename_i registered
      have undestroyed := wired.undestroyed (Or.inr (Or.inr registered))
      have freed : ({ s with pcb := s.pcb.free } : TcpSession).inSock.err = some .start :=
        (wired.registered undestroyed).2.2.2
      rw [errEvent_eq freed]
      have cleared : Spends s ({ s with
          pcb := s.pcb.free
          inSock := { s.inSock with pcbFreed := true, err := none } } : TcpSession) 0 0 :=
        .of_eq rfl rfl rfl rfl rfl rfl rfl
      exact ((cleared.trans (spends_destroy _)).trans (spends_release _)).takes rfl
    · exact s.spends_free.takes rfl
  | reuse localIp remoteIp localPort remotePort =>
    have same : Spends s (s.step (.reuse localIp remoteIp localPort remotePort)) 0 0 :=
      .of_eq rfl rfl rfl rfl rfl rfl rfl
    exact same.takes rfl

/-! ### The state machine -/

/-- The handshake has one token for both loops, and each loop has at most one. -/
structure Tidy (s : TcpSession) : Prop where
  early : s.status = .handshake ∨ s.status = .request → s.reading + s.writing ≤ 1
  reading : s.reading ≤ 1
  writing : s.writing ≤ 1
  closed : s.status = .destroy → s.outOpen = false

/-- Spending no more than the tokens that are left keeps the session tidy. -/
theorem Spends.tidy (spends : Spends s t reads writes)
    (early : s.status = .handshake ∨ s.status = .request →
      s.reading + reads + (s.writing + writes) ≤ 1)
    (reading : s.reading + reads ≤ 1) (writing : s.writing + writes ≤ 1)
    (closed : s.status = .destroy → s.outOpen = false) : t.Tidy := by
  have moreReading := spends.reading
  have moreWriting := spends.writing
  refine ⟨fun stillEarly => ?_, moreReading.trans reading, moreWriting.trans writing,
    spends.closed closed⟩
  rcases spends.status with same | destroyed
  · have := early (same ▸ stillEarly)
    omega
  · rw [destroyed] at stillEarly
    rcases stillEarly with wrong | wrong <;> cases wrong

theorem Tidy.takes (tidy : s.Tidy) {event : TcpEvent} (takes : Takes s t event) : t.Tidy := by
  obtain ⟨c, reads, writes, prepares, ⟨outOpen, _, _⟩, spends⟩ := takes
  have one := tidy.reading
  have other := tidy.writing
  cases prepares with
  | keeps event status sends sendSide reading writing =>
    refine spends.tidy (fun early => ?_) (by omega) (by omega) ?_
    · have := tidy.early (status ▸ early)
      omega
    · rw [status, outOpen]
      exact tidy.closed
  | answers event early status sends sendSide tokens =>
    have := tidy.early early
    refine spends.tidy (fun _ => by omega) (by omega) (by omega) fun destroyed => ?_
    rcases status with same | ⟨_, request⟩
    · rw [← same, destroyed] at early
      rcases early with wrong | wrong <;> cases wrong
    · cases destroyed.symm.trans request
  | forwards event request status sends sendSide pending reading writing =>
    have := tidy.early (Or.inr request)
    exact spends.tidy (forward_late status) (by omega) (by omega)
      fun destroyed => absurd destroyed (forward_undestroyed status)
  | sends data accepted forward pending status sends sendSide reading writing =>
    exact spends.tidy (forward_late status) (by omega) (by omega)
      fun destroyed => absurd destroyed (forward_undestroyed status)
  | acknowledges len undestroyed status sends sendSide reading writing =>
    refine spends.tidy (fun early => ?_) (by omega) (by omega)
      fun destroyed => absurd (status ▸ destroyed) undestroyed
    have := tidy.early (status ▸ early)
    omega

theorem tidy_init (localIp remoteIp : IpCell) (localPort remotePort : Port) :
    (init localIp remoteIp localPort remotePort).Tidy :=
  ⟨fun _ => le_rfl, Nat.zero_le 1, le_rfl, fun wrong => by cases wrong⟩

/-- The status moves forward or to `DESTROY`. -/
theorem Takes.status {event : TcpEvent} (takes : Takes s t event) :
    StatusMove s.status t.status := by
  obtain ⟨c, reads, writes, prepares, _, spends⟩ := takes
  rcases spends.status with same | destroyed
  · rw [same]
    cases prepares with
    | keeps event status => exact status ▸ .stays _
    | answers event early status =>
      rcases status with same | ⟨handshake, request⟩
      · exact same ▸ .stays _
      · rw [handshake, request]
        exact .requests
    | forwards event request status =>
      rw [request, status]
      exact .forwards
    | sends data accepted forward pending status =>
      rw [forward, status]
      exact .stays _
    | acknowledges len undestroyed status => exact status ▸ .stays _
  · rw [destroyed]
    exact .destroys _

/-- A send is started by a pending read of a forwarding session, and by nothing else. -/
theorem Takes.sends {event : TcpEvent} (takes : Takes s t event) (sent : t.sends ≠ s.sends) :
    s.status = .forward ∧ 1 ≤ s.opCount .read := by
  obtain ⟨c, reads, writes, prepares, _, spends⟩ := takes
  rw [spends.sends] at sent
  cases prepares with
  | keeps event status sends => exact absurd sends sent
  | answers event early status sends => exact absurd sends sent
  | forwards event request status sends => exact absurd sends sent
  | sends data accepted forward pending => exact ⟨forward, pending⟩
  | acknowledges len undestroyed status sends => exact absurd sends sent

/-- A destroyed session stays shut and starts nothing that could reach the server. -/
theorem Takes.shut {event : TcpEvent} (takes : Takes s t event) (shut : s.outOpen = false) :
    t.outOpen = false ∧ t.usableOps.Sublist s.usableOps := by
  obtain ⟨c, reads, writes, _, ⟨outOpen, _, ops⟩, spends⟩ := takes
  obtain ⟨stillShut, fewer⟩ := spends.usable (outOpen.trans shut)
  exact ⟨stillShut, fewer.trans (ops.filter OutOp.usable)⟩

/-- Only a destroyed session is deleted. -/
theorem Takes.life {event : TcpEvent} (takes : Takes s t event) :
    t.alive = s.alive ∨ t.alive = false ∧ t.status = .destroy := by
  obtain ⟨c, reads, writes, _, ⟨_, alive, _⟩, spends⟩ := takes
  exact spends.life.imp_left fun same => same.trans alive

/-- A destroyed session is silent: its slots are empty, the proxy connection is closed, and no
event makes it send to the client, open the connection again or start an operation on it while it
is open. -/
structure Silent (s : TcpSession) : Prop where
  slots : s.inSock.recv = none ∧ s.inSock.sent = none ∧ s.inSock.err = none
  closed : s.outOpen = false
  stays : ∀ event, s.enabled event → (s.step event).status = .destroy ∧
    (s.step event).outOpen = false ∧ (s.step event).sends = s.sends ∧
    (s.step event).usableOps.Sublist s.usableOps

/-- The state machine: the moves of the status; one read and one write at most; a parked recv
handler or a parked sent handler only while forwarding and instead of the write or read; a send
only when none is uncompleted; and silence once destroyed. -/
structure Orderly (s : TcpSession) : Prop where
  moves : ∀ event, s.enabled event → StatusMove s.status (s.step event).status
  reads : s.opCount .read ≤ 1
  writes : s.opCount .write ≤ 1
  parked : s.inSock.recv ≠ none → s.status = .forward ∧ s.opCount .write = 0
  uncompleted : s.inSock.sent ≠ none → s.status = .forward ∧ s.opCount .read = 0
  alone : ∀ event, s.enabled event → (s.step event).sends ≠ s.sends → s.inSock.sent = none
  silent : s.status = .destroy → s.Silent

theorem Wired.forward (wired : s.Wired)
    (parked : s.inSock.recv ≠ none ∨ s.inSock.sent ≠ none) : s.status = .forward := by
  have clear : s.inSock.recv = none ∧ s.inSock.sent = none → False := fun ⟨recv, sent⟩ =>
    parked.elim (fun wrong => wrong recv) fun wrong => wrong sent
  cases status : s.status with
  | handshake => exact (clear (wired.early (Or.inl status))).elim
  | request => exact (clear (wired.early (Or.inr status))).elim
  | forward => rfl
  | destroy =>
    obtain ⟨_, _, _, recv, sent, _⟩ := wired.cancelled status
    exact (clear ⟨recv, sent⟩).elim

theorem length_toList_of_ne_none {Item : Type} {slot : Option Item} (taken : slot ≠ none) :
    slot.toList.length = 1 := by
  obtain ⟨item, rfl⟩ := Option.ne_none_iff_exists'.mp taken
  rfl

theorem Tidy.orderly (tidy : s.Tidy) (wired : s.Wired) : s.Orderly := by
  have reading := tidy.reading
  have writing := tidy.writing
  rw [TcpSession.reading] at reading
  rw [TcpSession.writing] at writing
  refine ⟨fun event enabled => (takes_step wired enabled).status, by omega, by omega,
    fun parked => ⟨wired.forward (Or.inl parked), ?_⟩,
    fun parked => ⟨wired.forward (Or.inr parked), ?_⟩, fun event enabled sent => ?_,
    fun destroyed => ?_⟩
  · rw [length_toList_of_ne_none parked] at writing
    omega
  · rw [length_toList_of_ne_none parked] at reading
    omega
  · have pending := ((takes_step wired enabled).sends sent).2
    by_contra parked
    rw [length_toList_of_ne_none parked] at reading
    omega
  · obtain ⟨_, _, _, recv, sent, err⟩ := wired.cancelled destroyed
    have shut := tidy.closed destroyed
    refine ⟨⟨recv, sent, err⟩, shut, fun event enabled => ?_⟩
    have takes := takes_step wired enabled
    obtain ⟨stillShut, fewer⟩ := takes.shut shut
    refine ⟨destroyed_step wired destroyed event, stillShut, ?_, fewer⟩
    by_contra sends
    exact forward_undestroyed (takes.sends sends).1 destroyed

end TcpSession

/-- Every state that a session reaches is orderly. -/
theorem session_orderly (localIp remoteIp : IpCell) (localPort remotePort : Port)
    (events : List TcpEvent)
    (legal : tcpSystem.Legal (.init localIp remoteIp localPort remotePort) events) :
    (tcpSystem.run events (.init localIp remoteIp localPort remotePort)).Orderly := by
  have reached := tcpSystem.invariant (fun s => s.Wired ∧ s.Tidy)
    (fun s event enabled holds =>
      ⟨holds.1.step event enabled, holds.2.takes (TcpSession.takes_step holds.1 enabled)⟩)
    legal ⟨TcpSession.wired_init .., TcpSession.tidy_init ..⟩
  exact reached.2.orderly reached.1

/-- A session that forwards and then loses the client, after which a write on the proxy connection
still reports success. -/
theorem session_orderly_aborted :
    (tcpSystem.run (relayingRun ++ [.abort, .wrote true]) sampleSession).Orderly ∧
      (tcpSystem.run (relayingRun ++ [.abort, .wrote true]) sampleSession).status = .destroy :=
  ⟨session_orderly sampleDst.1 sampleSrc.1 sampleDst.2 sampleSrc.2 _ (by decide), by decide⟩

end Net2Tr
