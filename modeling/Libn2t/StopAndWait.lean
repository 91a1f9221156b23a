/-
This file proves that a session sends to the client one read at a time. If
`tcp_write` accepts what it is given, each payload finds the send buffer free,
and its handler runs once, in the sent callback that acknowledges its last byte.

Each payload has a record of the bytes acknowledged and the runs of its handler.
At any time all records but the last are settled, and the last one lacks exactly
the bytes that lwIP holds.
-/

import Libn2t.SessionStates
import Libn2t.SocketRun

namespace Net2Tr

/-- A payload given to `tcp_write`, the number of its bytes that sent callbacks have acknowledged,
and how often its handler has run. -/
structure SendRecord where
  payload : Bytes
  acked : Nat
  runs : Nat
deriving DecidableEq, Repr

namespace SendRecord

/-- Acknowledged bytes are credited to the payloads in order. -/
def credit : Nat → List SendRecord → List SendRecord
  | _, [] => []
  | len, record :: rest =>
    let part := min len (record.payload.length - record.acked)
    { record with acked := record.acked + part } :: credit (len - part) rest

/-- The handler in the slot is that of the last payload. -/
def ranLast : List SendRecord → List SendRecord
  | [] => []
  | [record] => [{ record with runs := record.runs + 1 }]
  | record :: next :: rest => record :: ranLast (next :: rest)

/-- All of the payload is acknowledged and its handler has run once. -/
def Settled (record : SendRecord) : Prop :=
  record.acked = record.payload.length ∧ record.runs = 1

/-- All payloads are settled but for the last one, if bytes are outstanding. -/
inductive Ledger : List SendRecord → Nat → Prop where
  | idle {records : List SendRecord} (settled : ∀ record ∈ records, record.Settled) :
      Ledger records 0
  | waiting {records : List SendRecord} {last : SendRecord} {outstanding : Nat}
      (settled : ∀ record ∈ records, record.Settled) (positive : 0 < outstanding)
      (left : last.acked + outstanding = last.payload.length) (unrun : last.runs = 0) :
      Ledger (records ++ [last]) outstanding

theorem ranLast_concat (records : List SendRecord) (last : SendRecord) :
    ranLast (records ++ [last]) = records ++ [{ last with runs := last.runs + 1 }] := by
  induction records with
  | nil => rfl
  | cons record rest inductionHypothesis =>
    cases rest with
    | nil => rfl
    | cons next rest =>
      rw [List.cons_append, List.cons_append, ranLast, ← List.cons_append, inductionHypothesis]
      rfl

/-- Settled payloads take no credit. -/
theorem credit_concat {records : List SendRecord} (settled : ∀ record ∈ records, record.Settled)
    {last : SendRecord} {len outstanding : Nat}
    (left : last.acked + outstanding = last.payload.length) (bound : len ≤ outstanding) :
    credit len (records ++ [last]) = records ++ [{ last with acked := last.acked + len }] := by
  induction records with
  | nil =>
    have part : min len (last.payload.length - last.acked) = len := by omega
    simp only [List.nil_append, credit, part]
  | cons record rest inductionHypothesis =>
    have full := (settled record List.mem_cons_self).1
    have part : min len (record.payload.length - record.acked) = 0 := by omega
    have later := inductionHypothesis fun other member =>
      settled other (List.mem_cons_of_mem _ member)
    simp only [List.cons_append, credit, part, Nat.add_zero, Nat.sub_zero, later]

/-- An acknowledgement within the outstanding bytes is credited to the last payload, whose handler
runs if nothing is left. -/
theorem Ledger.acknowledge {records : List SendRecord} {outstanding : Nat}
    (ledger : Ledger records outstanding) {len : Nat} (positive : 0 < len)
    (bound : len ≤ outstanding) :
    Ledger (if len = outstanding then ranLast (credit len records) else credit len records)
      (outstanding - len) := by
  cases ledger with
  | idle settled => omega
  | @waiting records last _ settled some left unrun =>
    rw [credit_concat settled left bound]
    by_cases all : len = outstanding
    · rw [if_pos all, ranLast_concat, all, Nat.sub_self]
      refine .idle fun record member => ?_
      rcases List.mem_append.mp member with old | new
      · exact settled record old
      · rw [List.mem_singleton.mp new]
        exact ⟨left, by rw [unrun]⟩
    · rw [if_neg all]
      refine .waiting settled (by omega) ?_ unrun
      show last.acked + len + (outstanding - len) = last.payload.length
      omega

/-- A payload is sent when nothing is outstanding. -/
theorem Ledger.give {records : List SendRecord} (ledger : Ledger records 0) {payload : Bytes}
    (nonempty : 0 < payload.length) :
    Ledger (records ++ [⟨payload, 0, 0⟩]) payload.length := by
  cases ledger with
  | idle settled => exact .waiting settled nonempty (Nat.zero_add _) rfl
  | waiting settled positive => exact absurd positive (Nat.lt_irrefl 0)

/-- The handler of a payload has run exactly if all of it is acknowledged, and then once. -/
theorem Ledger.runs {records : List SendRecord} {outstanding : Nat}
    (ledger : Ledger records outstanding) {record : SendRecord} (member : record ∈ records) :
    record.acked ≤ record.payload.length ∧
      record.runs = if record.acked = record.payload.length then 1 else 0 := by
  have done {record : SendRecord} (settled : record.Settled) :
      record.acked ≤ record.payload.length ∧
        record.runs = if record.acked = record.payload.length then 1 else 0 :=
    ⟨settled.1.le, by rw [if_pos settled.1, settled.2]⟩
  cases ledger with
  | idle settled => exact done (settled record member)
  | waiting settled positive left unrun =>
    rcases List.mem_append.mp member with old | new
    · exact done (settled record old)
    · rw [List.mem_singleton.mp new]
      exact ⟨by omega, by rw [if_neg (by omega), unrun]⟩

end SendRecord

/-! ### The records of a session -/

/-- A session with a record of each payload it has given to `tcp_write`. -/
structure SendRun where
  session : TcpSession
  records : List SendRecord
deriving DecidableEq, Repr

namespace SendRun

/-- What an event acknowledges: the sent callback reports bytes, and may run the handler. -/
def acknowledged (run : SendRun) : TcpEvent → List SendRecord
  | .sent len =>
    if run.session.pcb.sent then
      if (run.session.inSock.sentCallback len).2.isSome then
        SendRecord.ranLast (SendRecord.credit len run.records)
      else SendRecord.credit len run.records
    else run.records
  | _ => run.records

/-- The payloads that the calls of `async_send` of an event give to `tcp_write`. -/
def given (run : SendRun) (event : TcpEvent) : List Bytes :=
  if run.session.inSock.pcbFreed then []
  else (run.session.step event).sends.drop run.session.sends.length

def step (run : SendRun) (event : TcpEvent) : SendRun where
  session := run.session.step event
  records := run.acknowledged event ++ (run.given event).map fun payload => ⟨payload, 0, 0⟩

/-- `tcp_write` accepts what it is given. -/
def WritesAccepted (_ : SendRun) : TcpEvent → Prop
  | .read _ accepted => accepted = true
  | _ => True

instance (run : SendRun) (event : TcpEvent) : Decidable (run.WritesAccepted event) :=
  match event with
  | .read _ accepted => inferInstanceAs (Decidable (accepted = true))
  | .connected _ | .wrote _ | .readError | .recv _ | .fin | .sent _ | .finalAck | .rst | .abort
  | .reuse .. => isTrue trivial

end SendRun

/-- A session with its records as a transition system. -/
def sendSystem : Transition.System SendRun TcpEvent where
  enabled run event := run.session.enabled event
  step := SendRun.step

instance (run : SendRun) (event : TcpEvent) : Decidable (sendSystem.enabled run event) :=
  inferInstanceAs (Decidable (run.session.enabled event))

namespace SendRun

/-- `pending_len` counts the bytes lwIP holds, which came in one read, and a sent handler is parked
exactly while there are any. -/
def Counted (side : UInt32 × Option SentHandler × Nat) : Prop :=
  side.1.toNat = side.2.2 ∧ side.2.2 ≤ recvBufSize ∧ (side.2.1 ≠ none ↔ 0 < side.2.2)

theorem Counted.send {side : UInt32 × Option SentHandler × Nat} (counted : Counted side)
    (unparked : side.2.1 = none) {data : Bytes} (nonempty : 0 < data.length)
    (short : data.length ≤ recvBufSize) (handler : SentHandler) :
    Counted (side.1 + UInt32.ofNat data.length, some handler,
      side.2.2 + data.length % 2 ^ 16) := by
  obtain ⟨pendingLen, _, parked⟩ := counted
  have none : side.2.2 = 0 := by
    by_contra some
    exact parked.mpr (Nat.pos_of_ne_zero some) unparked
  have small : data.length % 2 ^ 16 = data.length := by
    rw [recvBufSize] at short
    exact Nat.mod_eq_of_lt (by omega)
  rw [none, Nat.zero_add, small]
  refine ⟨?_, short, iff_of_true (Option.some_ne_none handler) nonempty⟩
  rw [none] at pendingLen
  rw [recvBufSize] at short
  dsimp only
  rw [UInt32.toNat_add, UInt32.toNat_ofNat', pendingLen]
  omega

/-- What the sent callback subtracts is within `pending_len`, and it meets 0 exactly when the last
byte is acknowledged. -/
theorem Counted.left {side : UInt32 × Option SentHandler × Nat} (counted : Counted side) {len : Nat}
    (bound : len ≤ side.2.2) :
    (side.1 - UInt32.ofNat len).toNat = side.2.2 - len ∧
      (side.1 - UInt32.ofNat len = 0 ↔ len = side.2.2) := by
  obtain ⟨pendingLen, short, _⟩ := counted
  rw [recvBufSize] at short
  have left : (side.1 - UInt32.ofNat len).toNat = side.2.2 - len := by
    rw [UInt32.toNat_sub, UInt32.toNat_ofNat']
    omega
  refine ⟨left, ?_⟩
  rw [← UInt32.toNat_inj, left, UInt32.toNat_zero]
  omega

theorem Counted.acknowledge {side : UInt32 × Option SentHandler × Nat} (counted : Counted side)
    {len : Nat} (bound : len ≤ side.2.2) :
    Counted (side.1 - UInt32.ofNat len,
      if side.1 - UInt32.ofNat len = 0 then none else side.2.1, side.2.2 - len) := by
  obtain ⟨left, all⟩ := counted.left bound
  obtain ⟨_, short, parked⟩ := counted
  refine ⟨left, (Nat.sub_le _ _).trans short, ?_⟩
  dsimp only
  split
  · rename_i done
    exact iff_of_false (fun wrong => wrong rfl) (by rw [all.mp done]; omega)
  · rename_i more
    rw [parked]
    have rest : len ≠ side.2.2 := fun wrong => more (all.mpr wrong)
    omega

/-- The invariant of a run: until the session is destroyed the records are behind by what lwIP
holds. -/
structure Paced (run : SendRun) : Prop where
  wired : run.session.Wired
  tidy : run.session.Tidy
  counted : run.session.status ≠ .destroy → Counted run.session.sendSide
  ledger : ∃ outstanding, SendRecord.Ledger run.records outstanding ∧
    (run.session.status ≠ .destroy → outstanding = run.session.pcb.unacked)

variable {run : SendRun}

/-- While a sent handler is parked no read is pending, so a pending read finds the counter at 0. -/
theorem Paced.free (paced : run.Paced) (undestroyed : run.session.status ≠ .destroy)
    (pending : 1 ≤ run.session.opCount .read) :
    run.session.inSock.sent = none ∧ run.session.inSock.pendingLen = 0 ∧
      run.session.pcb.unacked = 0 := by
  obtain ⟨pendingLen, _, parked⟩ := paced.counted undestroyed
  have reading := paced.tidy.reading
  rw [TcpSession.reading] at reading
  have unparked : run.session.inSock.sent = none := by
    by_contra taken
    rw [TcpSession.length_toList_of_ne_none taken] at reading
    omega
  have none : run.session.pcb.unacked = 0 := by
    by_contra some
    exact parked.mpr (Nat.pos_of_ne_zero some) unparked
  exact ⟨unparked, UInt32.toNat_inj.mp (pendingLen.trans none), none⟩

/-- The sent callback runs a handler exactly when the last byte is acknowledged. -/
theorem Paced.runs (paced : run.Paced) (undestroyed : run.session.status ≠ .destroy) {len : Nat}
    (positive : 0 < len) (bound : len ≤ run.session.pcb.unacked) :
    (run.session.inSock.sentCallback len).2.isSome = true ↔ len = run.session.pcb.unacked := by
  have counted := paced.counted undestroyed
  have all := (counted.left bound).2
  have parked : run.session.inSock.sent ≠ none := counted.2.2.mpr (by
    show 0 < run.session.pcb.unacked
    omega)
  obtain ⟨handler, slot⟩ := Option.ne_none_iff_exists'.mp parked
  unfold Socket.sentCallback
  dsimp only
  split
  · rename_i done
    rw [slot]
    exact iff_of_true rfl (all.mp done)
  · rename_i more
    exact iff_of_false Bool.false_ne_true fun wrong => more (all.mpr wrong)

theorem given_of_same {event : TcpEvent}
    (same : (run.session.step event).sends = run.session.sends) : run.given event = [] := by
  unfold given
  split
  · rfl
  · rw [same, List.drop_length]

theorem acknowledged_of_quiet {event : TcpEvent}
    (quiet : TcpSession.acknowledging event = false) :
    run.acknowledged event = run.records := by
  cases event with
  | sent len => cases quiet
  | _ => rfl

/-- A destroyed session has no sent callback. -/
theorem Paced.acknowledged_of_destroyed (paced : run.Paced)
    (destroyed : run.session.status = .destroy) (event : TcpEvent) :
    run.acknowledged event = run.records := by
  cases event with
  | sent len =>
    have unregistered := (paced.wired.cancelled destroyed).2.1
    simp only [acknowledged, unregistered, Bool.false_eq_true, if_false]
  | _ => rfl

/-- A step that neither gives nor acknowledges anything. -/
theorem Paced.quiet (paced : run.Paced) {event : TcpEvent} (enabled : run.session.enabled event)
    (acknowledged : run.acknowledged event = run.records) (given : run.given event = [])
    (sendSide : run.session.status = .destroy ∨ (run.session.step event).status = .destroy ∨
      (run.session.step event).sendSide = run.session.sendSide) : (run.step event).Paced := by
  have records : (run.step event).records = run.records := by
    show run.acknowledged event ++ _ = _
    rw [acknowledged, given, List.map_nil, List.append_nil]
  have same (undestroyed : (run.session.step event).status ≠ .destroy) :
      run.session.status ≠ .destroy ∧
        (run.session.step event).sendSide = run.session.sendSide := by
    rcases sendSide with destroyed | destroyed | same
    · exact absurd (TcpSession.destroyed_step paced.wired destroyed event) undestroyed
    · exact absurd destroyed undestroyed
    · exact ⟨fun destroyed => undestroyed
        (TcpSession.destroyed_step paced.wired destroyed event), same⟩
  refine ⟨paced.wired.step event enabled,
    paced.tidy.takes (TcpSession.takes_step paced.wired enabled), fun undestroyed => ?_, ?_⟩
  · obtain ⟨before, side⟩ := same undestroyed
    show Counted (run.session.step event).sendSide
    rw [side]
    exact paced.counted before
  · obtain ⟨outstanding, ledger, behind⟩ := paced.ledger
    rw [records]
    refine ⟨outstanding, ledger, fun undestroyed => ?_⟩
    obtain ⟨before, side⟩ := same undestroyed
    rw [behind before]
    exact congrArg (fun side => side.2.2) side.symm

/-- A payload is given to `tcp_write` when nothing is outstanding. -/
theorem Paced.sends (paced : run.Paced) {data : Bytes} {accepted : Bool}
    (enabled : run.session.enabled (.read data accepted)) (taken : accepted = true)
    (forward : run.session.status = .forward) (pending : 1 ≤ run.session.opCount .read)
    (sends : (run.session.step (.read data accepted)).sends = run.session.sends ++ [data])
    (sendSide : (run.session.step (.read data accepted)).status = .destroy ∨
      (run.session.step (.read data accepted)).sendSide =
        (run.session.inSock.pendingLen + UInt32.ofNat data.length, some .inAsyncWrite,
          run.session.pcb.unacked + if accepted then data.length % 2 ^ 16 else 0))
    (unended : run.session.inSock.pcbFreed = false) :
    (run.step (.read data accepted)).Paced := by
  have undestroyed := TcpSession.forward_undestroyed forward
  have bounds := enabled
  obtain ⟨_, _, nonempty, short⟩ := bounds
  obtain ⟨unparked, _, none⟩ := paced.free undestroyed pending
  have given : run.given (.read data accepted) = [data] := by
    rw [SendRun.given, unended, if_neg Bool.false_ne_true, sends, List.drop_left]
  have side (still : (run.session.step (.read data accepted)).status ≠ .destroy) :
      (run.session.step (.read data accepted)).sendSide =
        (run.session.inSock.pendingLen + UInt32.ofNat data.length, some .inAsyncWrite,
          run.session.pcb.unacked + data.length % 2 ^ 16) := by
    rw [sendSide.resolve_left still, taken, if_pos rfl]
  refine ⟨paced.wired.step _ enabled,
    paced.tidy.takes (TcpSession.takes_step paced.wired enabled), fun still => ?_, ?_⟩
  · show Counted (run.session.step (.read data accepted)).sendSide
    rw [side still]
    exact (paced.counted undestroyed).send unparked nonempty short .inAsyncWrite
  · obtain ⟨outstanding, ledger, behind⟩ := paced.ledger
    rw [behind undestroyed, none] at ledger
    refine ⟨data.length, ?_, fun still => ?_⟩
    · show SendRecord.Ledger (run.records ++ (run.given _).map _) data.length
      rw [given]
      exact ledger.give nonempty
    · have unacked := congrArg (fun side => side.2.2) (side still)
      rw [recvBufSize] at short
      show data.length = (run.session.step (.read data accepted)).pcb.unacked
      rw [show (run.session.step (.read data accepted)).pcb.unacked =
        run.session.pcb.unacked + data.length % 2 ^ 16 from unacked, none]
      omega

/-- An acknowledgement is credited to the last payload. -/
theorem Paced.acknowledges (paced : run.Paced) {len : Nat}
    (enabled : run.session.enabled (.sent len)) (undestroyed : run.session.status ≠ .destroy)
    (sends : (run.session.step (.sent len)).sends = run.session.sends)
    (sendSide : (run.session.step (.sent len)).status = .destroy ∨
      (run.session.step (.sent len)).sendSide = (run.session.inSock.pendingLen - UInt32.ofNat len,
        if run.session.inSock.pendingLen - UInt32.ofNat len = 0 then none
          else run.session.inSock.sent,
        run.session.pcb.unacked - len)) : (run.step (.sent len)).Paced := by
  have bounds := enabled
  obtain ⟨_, _, positive, _, bound⟩ := bounds
  have registered := (paced.wired.registered undestroyed).2.1
  have records : (run.step (.sent len)).records =
      if len = run.session.pcb.unacked then
        SendRecord.ranLast (SendRecord.credit len run.records)
      else SendRecord.credit len run.records := by
    show run.acknowledged (.sent len) ++ (run.given _).map _ = _
    rw [given_of_same sends, List.map_nil, List.append_nil]
    simp only [acknowledged, registered, if_true, paced.runs undestroyed positive bound]
  refine ⟨paced.wired.step _ enabled,
    paced.tidy.takes (TcpSession.takes_step paced.wired enabled), fun still => ?_, ?_⟩
  · show Counted (run.session.step (.sent len)).sendSide
    rw [sendSide.resolve_left still]
    exact (paced.counted undestroyed).acknowledge bound
  · obtain ⟨outstanding, ledger, behind⟩ := paced.ledger
    rw [behind undestroyed] at ledger
    rw [records]
    refine ⟨_, ledger.acknowledge positive bound, fun still => ?_⟩
    exact congrArg (fun side => side.2.2) (sendSide.resolve_left still).symm

theorem Paced.step (paced : run.Paced) {event : TcpEvent} (enabled : run.session.enabled event)
    (accepted : run.WritesAccepted event) : (run.step event).Paced := by
  obtain ⟨c, reads, writes, prepares, _, spends⟩ :=
    TcpSession.takes_step paced.wired enabled
  have later {side : UInt32 × Option SentHandler × Nat} (same : c.sendSide = side) :
      (run.session.step event).status = .destroy ∨
        (run.session.step event).sendSide = side :=
    spends.sendSide.imp_right fun unchanged => unchanged.trans same
  cases prepares with
  | keeps _ status sends sendSide =>
    have given := given_of_same (spends.sends.trans sends)
    rcases sendSide with destroyed | ⟨quiet, same⟩
    · exact paced.quiet enabled (paced.acknowledged_of_destroyed destroyed event) given
        (Or.inl destroyed)
    · exact paced.quiet enabled (acknowledged_of_quiet quiet) given (Or.inr (later same))
  | answers _ early status sends sendSide =>
    exact paced.quiet enabled (acknowledged_of_quiet sendSide.1)
      (given_of_same (spends.sends.trans sends)) (Or.inr (later sendSide.2))
  | forwards _ request status sends sendSide =>
    exact paced.quiet enabled (acknowledged_of_quiet sendSide.1)
      (given_of_same (spends.sends.trans sends)) (Or.inr (later sendSide.2))
  | sends data taken forward pending status sends sendSide =>
    cases ended : run.session.inSock.pcbFreed with
    | true =>
      rw [ended, if_pos rfl] at sendSide
      have given : run.given (.read data taken) = [] := by
        rw [SendRun.given, ended, if_pos rfl]
      exact paced.quiet enabled (acknowledged_of_quiet rfl) given (Or.inr (later sendSide))
    | false =>
      rw [ended, if_neg Bool.false_ne_true] at sendSide
      exact paced.sends enabled accepted forward pending (spends.sends.trans sends)
        (later sendSide) ended
  | acknowledges len undestroyed status sends sendSide =>
    exact paced.acknowledges enabled undestroyed (spends.sends.trans sends) (later sendSide)

theorem paced_init (localIp remoteIp : IpCell) (localPort remotePort : Port) :
    (⟨.init localIp remoteIp localPort remotePort, []⟩ : SendRun).Paced := by
  refine ⟨TcpSession.wired_init .., TcpSession.tidy_init .., fun _ => ?_, 0, ?_, fun _ => rfl⟩
  · exact ⟨rfl, Nat.zero_le _, iff_of_false (fun wrong => wrong rfl) (Nat.lt_irrefl 0)⟩
  · exact .idle fun record member => by cases member

/-- Stop and wait. A send finds `pending_len` at 0, no sent handler parked and room for its
payload, which fits the free send buffer. The sent callback stays within `pending_len` and has a
handler when it reaches 0. And the handler of a payload has run exactly if sent callbacks have
acknowledged all of the payload, and then once. -/
structure InTurn (run : SendRun) : Prop where
  sends : ∀ event data, run.session.enabled event → run.WritesAccepted event →
    (run.session.step event).sends = run.session.sends ++ [data] →
    run.session.inSock.pendingLen = 0 ∧ run.session.inSock.sent = none ∧ 1 ≤ data.length ∧
      data.length ≤ recvBufSize ∧ data.length ≤ tcpSndBuf - run.session.pcb.unacked
  counts : ∀ len, run.session.enabled (.sent len) → run.session.pcb.sent = true →
    len ≤ run.session.inSock.pendingLen.toNat ∧
      (run.session.inSock.pendingLen - UInt32.ofNat len = 0 → run.session.inSock.sent ≠ none)
  runs : ∀ record ∈ run.records, record.acked ≤ record.payload.length ∧
    record.runs = if record.acked = record.payload.length then 1 else 0

theorem Paced.inTurn (paced : run.Paced) : run.InTurn := by
  refine ⟨fun event data enabled accepted sent => ?_, fun len enabled registered => ?_,
    fun record member => ?_⟩
  · have some : (run.session.step event).sends ≠ run.session.sends := fun same => by
      rw [same] at sent
      exact List.cons_ne_nil _ _ (List.self_eq_append_right.mp sent)
    obtain ⟨c, reads, writes, prepares, _, spends⟩ :=
      TcpSession.takes_step paced.wired enabled
    rw [spends.sends] at sent some
    cases prepares with
    | keeps _ status sends => exact absurd sends some
    | answers _ early status sends => exact absurd sends some
    | forwards _ request status sends => exact absurd sends some
    | acknowledges len undestroyed status sends => exact absurd sends some
    | sends other _ forward pending status sends =>
      have same : other = data := List.singleton_injective (List.append_cancel_left
        (sends.symm.trans sent))
      subst same
      obtain ⟨unparked, pendingLen, none⟩ :=
        paced.free (TcpSession.forward_undestroyed forward) pending
      obtain ⟨_, _, nonempty, short⟩ := enabled
      refine ⟨pendingLen, unparked, nonempty, short, ?_⟩
      rw [none, tcpSndBuf]
      rw [recvBufSize] at short
      omega
  · have undestroyed := paced.wired.undestroyed (Or.inr (Or.inl registered))
    obtain ⟨pendingLen, _, parked⟩ := paced.counted undestroyed
    obtain ⟨_, _, positive, _, bound⟩ := enabled
    refine ⟨bound.trans pendingLen.ge, fun _ => parked.mpr ?_⟩
    show 0 < run.session.pcb.unacked
    omega
  · obtain ⟨outstanding, ledger, _⟩ := paced.ledger
    exact ledger.runs member

end SendRun

/-- In every run of a session in which `tcp_write` accepts what it is given, the sends to the
client take turns. -/
theorem sends_in_turn (localIp remoteIp : IpCell) (localPort remotePort : Port)
    (events : List TcpEvent)
    (accepted : sendSystem.Guarded SendRun.WritesAccepted
      ⟨.init localIp remoteIp localPort remotePort, []⟩ events) :
    (sendSystem.run events ⟨.init localIp remoteIp localPort remotePort, []⟩).InTurn :=
  (sendSystem.guarded_induction SendRun.Paced
    (fun _ _ enabled accepted paced => paced.step enabled accepted) accepted
    (SendRun.paced_init ..)).inTurn

/-- Two payloads, the first acknowledged in two parts. -/
abbrev turnsRun : List TcpEvent :=
  [.connected true, .wrote true, .read methodReply true, .wrote true, .read anyReply true,
    .read [0x61, 0x62] true, .sent 1, .sent 1, .read [0x63] true]

theorem sends_in_turn_parts :
    (sendSystem.run turnsRun ⟨sampleSession, []⟩).InTurn ∧
      (sendSystem.run turnsRun ⟨sampleSession, []⟩).records =
        [⟨[0x61, 0x62], 2, 1⟩, ⟨[0x63], 0, 0⟩] :=
  ⟨sends_in_turn sampleDst.1 sampleSrc.1 sampleDst.2 sampleSrc.2 turnsRun (by decide), by decide⟩

end Net2Tr
