/-
This file is about `recv_buf` of `UDPSession`, which both sockets read into.

asio fills the buffer when a socket becomes ready and runs the handler later, and
the handler takes the bytes out of the buffer. One read at a time is safe. When
the association stands a read is started on each socket, and from then on the
data of one can be overwritten by the other before its handler has run.
-/

import Libn2t.Association

namespace Net2Tr

/-- A session with the contents of `recv_buf`, the reads that have been performed and whose
handlers have not run, and a record of the bytes of each read with what its handler found. -/
structure BufferedSession where
  session : UdpSession
  recvBuf : Bytes
  performed : List (UdpOpKind × Bytes)
  parsed : List (Bytes × Bytes)
deriving DecidableEq, Repr

/-- A read fills the buffer, the handler of a performed read runs, a datagram is offered to the
session, or any other completion is delivered. -/
inductive BufferEvent where
  | perform (kind : UdpOpKind) (data : Bytes)
  | handler (kind : UdpOpKind) (connectOk : Bool) (failing : Option Nat)
  | process (packet : UdpPacket) (fails : Bool)
  | completion (event : UdpEvent)
deriving DecidableEq, Repr

/-- `async_read_some` on `tcp_sock` and `async_receive` on `out_sock`. -/
def UdpOpKind.isRead : UdpOpKind → Bool
  | .tcpRead | .outRead => true
  | .connect | .tcpWrite => false

namespace BufferedSession

/-- A session that is started, with anything in its buffer. -/
def new (id : Nat) (initialPacket : UdpPacket) (memory : Bytes) : BufferedSession where
  session := (UdpSession.new id initialPacket).start
  recvBuf := memory
  performed := []
  parsed := []

/-- The read of this kind has been performed, and its handler has not run. -/
def isPerformed (state : BufferedSession) (kind : UdpOpKind) : Bool :=
  state.performed.any fun read => read.1 = kind

/-- `string(recv_buf, length)`. -/
def contents (state : BufferedSession) (length : Nat) : Bytes := state.recvBuf.take length

/-- What the handler of a read passes to `tcp_recv` or `out_recv`. -/
def received (kind : UdpOpKind) (data : Bytes) (connectOk : Bool) (failing : Option Nat) :
    UdpEvent :=
  if kind = .tcpRead then .read data connectOk failing else .received data

/-- The event can happen. A read can be performed when it has been started and not before its
predecessor has been handled, and a performed read can no longer fail. -/
def enabled (state : BufferedSession) : BufferEvent → Prop
  | .perform kind data =>
    state.session.alive ∧ kind.isRead ∧ state.session.pending kind true ∧
      state.isPerformed kind = false ∧ (kind = .tcpRead → 0 < data.length) ∧
      data.length ≤ recvBufSize
  | .handler kind _ _ => state.session.alive ∧ state.isPerformed kind
  | .process _ _ => state.session.alive
  | .completion (.read _ _ _) | .completion (.received _) => False
  | .completion .readError =>
    state.session.enabled .readError ∧ state.isPerformed .tcpRead = false
  | .completion .receiveError =>
    state.session.enabled .receiveError ∧ state.isPerformed .outRead = false
  | .completion event => state.session.enabled event

/-- The effect of an event. -/
def step (state : BufferedSession) : BufferEvent → BufferedSession
  | .perform kind data =>
    { state with
      recvBuf := data ++ state.recvBuf.drop data.length
      performed := state.performed ++ [(kind, data)] }
  | .handler kind connectOk failing =>
    match state.performed.find? fun read => read.1 = kind with
    | none => state
    | some (_, data) =>
      let found := state.contents data.length
      { state with
        session := (state.session.step (received kind found connectOk failing)).1
        performed := state.performed.eraseP fun read => read.1 = kind
        parsed := state.parsed ++ [(data, found)] }
  | .process packet fails =>
    { state with session := ((state.session.process packet fails).map Prod.fst).getD state.session }
  | .completion event => { state with session := (state.session.step event).1 }

/-- At most one read is outstanding, and every handler has found the bytes of its read. -/
def Owned (state : BufferedSession) : Prop :=
  state.session.ops.countP (fun op => op.kind.isRead) ≤ 1 ∧
    ∀ read ∈ state.parsed, read.2 = read.1

/-- The handler of a read does not enter `FORWARD`. -/
def StaysOut (state : BufferedSession) : BufferEvent → Prop
  | .handler .tcpRead connectOk _ =>
    ∀ read ∈ state.performed, read.1 = .tcpRead →
      ¬ state.session.EntersForward (state.contents read.2.length) connectOk
  | _ => True

end BufferedSession

/-- A session with its buffer as a transition system. -/
def bufferSystem : Transition.System BufferedSession BufferEvent where
  enabled := BufferedSession.enabled
  step := BufferedSession.step

instance (state : BufferedSession) (event : BufferEvent) :
    Decidable (bufferSystem.enabled state event) :=
  match event with
  | .perform kind data =>
    inferInstanceAs (Decidable (_ ∧ _ ∧ _ ∧ _ ∧ (kind = .tcpRead → 0 < data.length) ∧
      data.length ≤ recvBufSize))
  | .handler _ _ _ => inferInstanceAs (Decidable (_ ∧ _))
  | .process _ _ => inferInstanceAs (Decidable (state.session.alive = true))
  | .completion (.read _ _ _) | .completion (.received _) => isFalse not_false
  | .completion .readError | .completion .receiveError =>
    inferInstanceAs (Decidable (_ ∧ _ = false))
  | .completion (.connected ok) =>
    inferInstanceAs (Decidable (state.session.enabled (.connected ok)))
  | .completion (.wrote ok) => inferInstanceAs (Decidable (state.session.enabled (.wrote ok)))
  | .completion .expire => inferInstanceAs (Decidable (state.session.enabled .expire))
  | .completion (.waited ok) => inferInstanceAs (Decidable (state.session.enabled (.waited ok)))

instance (state : BufferedSession) (event : BufferEvent) : Decidable (state.StaysOut event) :=
  match event with
  | .handler .tcpRead connectOk _ =>
    inferInstanceAs (Decidable (∀ read ∈ state.performed, read.1 = .tcpRead →
      ¬ state.session.EntersForward (state.contents read.2.length) connectOk))
  | .perform _ _ | .handler .connect _ _ | .handler .tcpWrite _ _ | .handler .outRead _ _
  | .process _ _ | .completion _ => isTrue trivial

instance (state : BufferedSession) : Decidable state.Owned :=
  inferInstanceAs (Decidable (_ ≤ 1 ∧ ∀ read ∈ state.parsed, read.2 = read.1))

namespace UdpSession

/-! ### The operations of a session outside `FORWARD` -/

@[simp] theorem destroy_ops (s : UdpSession) : s.destroy.ops = s.ops := by
  unfold destroy
  split <;> rfl

@[simp] theorem release_ops (s : UdpSession) : s.release.ops = s.ops := by
  unfold release
  split
  · rfl
  · exact s.destroy_ops

/-- The operation whose completion is delivered is the only one. -/
theorem complete_of_pending {s : UdpSession} (few : s.ops.length ≤ 1) {kind : UdpOpKind} {ok : Bool}
    (pending : s.pending kind ok = true) : (s.complete kind ok).ops = [] := by
  obtain ⟨op, member, delivered⟩ := List.any_eq_true.mp pending
  have only : s.ops = [op] := by
    obtain ⟨other, one⟩ := List.length_eq_one_iff.mp
      (le_antisymm few (List.length_pos_of_mem member))
    rw [one] at member ⊢
    rw [List.mem_singleton.mp member]
  rw [complete, only]
  exact List.eraseP_cons_of_pos
    (p := fun op : UdpOp => decide (op.kind = kind) && (op.usable || !ok)) delivered

/-- A read that does not enter `FORWARD` starts at most a write. -/
theorem tcpRecv_ops {s : UdpSession} {data : Bytes} {connectOk : Bool}
    (other : ¬ s.EntersForward data connectOk) (failing : Option Nat) :
    (s.tcpRecv data connectOk failing).1.ops = s.ops ∨
      (s.tcpRecv data connectOk failing).1.ops = s.ops ++ [⟨.tcpWrite, s.tcpOpen⟩] := by
  unfold tcpRecv
  split
  · split
    · exact Or.inl s.destroy_ops
    · exact Or.inr rfl
  · rename_i request
    split
    · exact Or.inl s.destroy_ops
    · rename_i head
      split
      · exact Or.inl s.destroy_ops
      · rename_i decoded
        split
        · exact Or.inl rfl
        · split
          · rename_i connected
            refine absurd ⟨request, connected, not_not.mp (not_or.mp head).2, ?_⟩ other
            rw [decoded]
            rfl
          · exact Or.inl (destroy_ops _)
  · exact Or.inl s.destroy_ops
  · exact Or.inl rfl

/-- Outside `FORWARD` a receive on `out_sock` starts nothing. -/
theorem outRecv_ops {s : UdpSession} (notForward : s.status ≠ .forward) (data : Bytes) :
    (s.outRecv data).1.ops = s.ops := by
  have status : s.cancelTimer.asyncWaitTimer.status ≠ .forward := notForward
  unfold outRecv
  dsimp only
  rw [if_neg status]
  rfl

/-- Outside `FORWARD` a completion leaves at most one operation. -/
theorem handle_few {s : UdpSession} (few : s.ops.length ≤ 1) (notForward : s.status ≠ .forward)
    {event : UdpEvent} (enabled : s.enabled event)
    (other : ∀ data connectOk failing, event = .read data connectOk failing →
      ¬ s.EntersForward data connectOk) :
    (s.handle event).1.ops.length ≤ 1 := by
  have ended {kind : UdpOpKind} {ok : Bool} (pending : s.pending kind ok = true) {t : UdpSession}
      (same : t.ops = (s.complete kind ok).ops) : t.ops.length ≤ 1 := by
    rw [same, complete_of_pending few pending]
    exact Nat.zero_le 1
  have started {kind : UdpOpKind} {ok : Bool} (pending : s.pending kind ok = true) {t : UdpSession}
      {op : UdpOp} (one : t.ops = (s.complete kind ok).ops ++ [op]) : t.ops.length ≤ 1 := by
    rw [one, complete_of_pending few pending]
    exact Nat.le_refl 1
  cases event with
  | connected ok =>
    cases ok with
    | false => exact ended enabled.2 (destroy_ops _)
    | true => exact started enabled.2 rfl
  | wrote ok =>
    cases ok with
    | false => exact ended enabled.2 (destroy_ops _)
    | true =>
      change (s.complete .tcpWrite true).tcpSent.ops.length ≤ 1
      unfold tcpSent
      split
      · exact started enabled.2 rfl
      · exact started enabled.2 rfl
      · exact ended enabled.2 rfl
      · exact ended enabled.2 rfl
  | read data connectOk failing =>
    have stays : ¬ (s.complete .tcpRead true).EntersForward data connectOk :=
      other data connectOk failing rfl
    rcases tcpRecv_ops stays failing with same | one
    · exact ended enabled.2.1 same
    · exact started enabled.2.1 one
  | readError => exact ended enabled.2 (destroy_ops _)
  | received data =>
    exact ended enabled.2.1 (outRecv_ops (s := s.complete .outRead true) notForward data)
  | receiveError => exact ended enabled.2 (destroy_ops _)
  | expire => exact few
  | waited ok =>
    cases ok with
    | false => exact few
    | true =>
      change (destroy _).ops.length ≤ 1
      rw [destroy_ops]
      exact few

/-- Only a read can enter `FORWARD`. -/
theorem handle_notForward {s : UdpSession} (notForward : s.status ≠ .forward) {event : UdpEvent}
    (other : ∀ data connectOk failing, event = .read data connectOk failing →
      ¬ s.EntersForward data connectOk) :
    (s.handle event).1.status ≠ .forward := by
  by_cases isRead : ∃ data connectOk failing, event = .read data connectOk failing
  · obtain ⟨data, connectOk, failing, rfl⟩ := isRead
    have stays : ¬ (s.complete .tcpRead true).EntersForward data connectOk :=
      other data connectOk failing rfl
    rcases tcpRecv_other stays failing with destroyed | ⟨_, _, run⟩
    · exact fun wrong => by cases destroyed.symm.trans wrong
    · change ((s.complete .tcpRead true).tcpRecv data connectOk failing).1.status ≠ _
      rw [run]
      exact fun wrong => by cases wrong
  · push Not at isRead
    rcases s.handle_status isRead with same | destroyed
    · rw [same]
      exact notForward
    · exact fun wrong => by cases destroyed.symm.trans wrong

/-- Outside `FORWARD` a completion leaves at most one operation and does not enter `FORWARD`. -/
theorem step_few {s : UdpSession} (few : s.ops.length ≤ 1) (notForward : s.status ≠ .forward)
    {event : UdpEvent} (enabled : s.enabled event)
    (other : ∀ data connectOk failing, event = .read data connectOk failing →
      ¬ s.EntersForward data connectOk) :
    (s.step event).1.ops.length ≤ 1 ∧ (s.step event).1.status ≠ .forward := by
  constructor
  · change (s.handle event).1.release.ops.length ≤ 1
    rw [release_ops]
    exact handle_few few notForward enabled other
  · have handled := handle_notForward notForward other
    rcases (s.handle event).1.release_status with same | destroyed
    · change (s.handle event).1.release.status ≠ _
      rw [same]
      exact handled
    · exact fun wrong => by cases destroyed.symm.trans wrong

end UdpSession

namespace BufferedSession

/-- Outside `FORWARD` there is at most one operation, and a performed read is that one and its
bytes are in the buffer. -/
structure Single (state : BufferedSession) : Prop where
  few : state.session.ops.length ≤ 1
  notForward : state.session.status ≠ .forward
  performed : state.performed = [] ∨ ∃ kind data, kind.isRead = true ∧
    (kind = .tcpRead → 0 < data.length) ∧ data.length ≤ recvBufSize ∧
    state.performed = [(kind, data)] ∧ state.session.ops = [⟨kind, true⟩] ∧
    state.contents data.length = data
  parsed : ∀ read ∈ state.parsed, read.2 = read.1

theorem Single.owned {state : BufferedSession} (single : state.Single) : state.Owned :=
  ⟨(List.countP_le_length).trans single.few, single.parsed⟩

theorem single_new (id : Nat) (initialPacket : UdpPacket) (memory : Bytes) :
    (new id initialPacket memory).Single :=
  ⟨Nat.le_refl 1, (fun wrong => by cases wrong), Or.inl rfl, fun _ wrong => by cases wrong⟩

/-- A performed read is the one that is looked up. -/
theorem isPerformed_single {state : BufferedSession} {kind other : UdpOpKind} {data : Bytes}
    (performed : state.performed = [(kind, data)]) :
    state.isPerformed other = true ↔ kind = other := by
  rw [isPerformed, performed, List.any_cons, List.any_nil, Bool.or_false]
  exact decide_eq_true_iff

theorem isPerformed_nil {state : BufferedSession} (performed : state.performed = [])
    (kind : UdpOpKind) : state.isPerformed kind = false := by
  rw [isPerformed, performed]
  rfl

/-- A step that leaves the operations and the buffer alone. -/
theorem Single.of_session {state : BufferedSession} (single : state.Single) {t : UdpSession}
    (ops : t.ops = state.session.ops) (notForward : t.status ≠ .forward) :
    { state with session := t }.Single := by
  obtain ⟨few, _, performed, parsed⟩ := single
  refine ⟨?_, notForward, ?_, parsed⟩
  · change t.ops.length ≤ 1
    rw [ops]
    exact few
  · rcases performed with none | ⟨kind, data, isRead, more, fits, one, op, found⟩
    · exact Or.inl none
    · exact Or.inr ⟨kind, data, isRead, more, fits, one, ops.trans op, found⟩

/-- The only outstanding read fills the buffer. -/
theorem Single.perform {state : BufferedSession} (single : state.Single) {kind : UdpOpKind}
    {data : Bytes} (enabled : state.enabled (.perform kind data)) :
    (state.step (.perform kind data)).Single := by
  obtain ⟨few, notForward, performed, parsed⟩ := single
  obtain ⟨_, isRead, pending, notPerformed, more, fits⟩ := enabled
  obtain ⟨op, member, delivered⟩ := List.any_eq_true.mp pending
  rw [Bool.and_eq_true, Bool.not_true, Bool.or_false, decide_eq_true_iff] at delivered
  have only : state.session.ops = [⟨kind, true⟩] := by
    obtain ⟨other, one⟩ := List.length_eq_one_iff.mp
      (le_antisymm few (List.length_pos_of_mem member))
    rw [one] at member ⊢
    rw [← List.mem_singleton.mp member, ← delivered.1, ← delivered.2]
  have none : state.performed = [] := by
    rcases performed with none | ⟨other, _, _, _, _, one, op, _⟩
    · exact none
    · rw [only] at op
      have same : kind = other := congrArg UdpOp.kind (List.singleton_inj.mp op)
      have wrong : state.isPerformed kind = true := (isPerformed_single one).mpr same.symm
      exact absurd (notPerformed.symm.trans wrong) Bool.false_ne_true
  refine ⟨few, notForward,
    Or.inr ⟨kind, data, isRead, more, fits, ?_, only, List.take_left' rfl⟩, parsed⟩
  change state.performed ++ [(kind, data)] = _
  rw [none, List.nil_append]

/-- What the handler of the only read does. -/
theorem step_handler {state : BufferedSession} {kind : UdpOpKind} {data : Bytes}
    (one : state.performed = [(kind, data)]) (found : state.contents data.length = data)
    (connectOk : Bool) (failing : Option Nat) :
    state.step (.handler kind connectOk failing) =
      { state with
        session := (state.session.step (received kind data connectOk failing)).1
        performed := []
        parsed := state.parsed ++ [(data, data)] } := by
  have looked : state.performed.find? (fun read => read.1 = kind) = some (kind, data) := by
    rw [one]
    exact List.find?_cons_of_pos (decide_eq_true rfl)
  have erased : state.performed.eraseP (fun read => read.1 = kind) = [] := by
    rw [one]
    exact List.eraseP_cons_of_pos (decide_eq_true rfl)
  unfold step
  dsimp only
  rw [looked]
  dsimp only
  rw [found, erased]

/-- The handler of the only read finds its bytes. -/
theorem Single.handler {state : BufferedSession} (single : state.Single) {kind : UdpOpKind}
    {connectOk : Bool} {failing : Option Nat}
    (enabled : state.enabled (.handler kind connectOk failing))
    (staysOut : state.StaysOut (.handler kind connectOk failing)) :
    (state.step (.handler kind connectOk failing)).Single := by
  obtain ⟨few, notForward, performed, parsed⟩ := single
  obtain ⟨alive, isPerformed⟩ := enabled
  rcases performed with none | ⟨other, data, isRead, more, fits, one, op, found⟩
  · exact absurd ((isPerformed_nil none kind).symm.trans isPerformed) Bool.false_ne_true
  · obtain rfl : other = kind := (isPerformed_single one).mp isPerformed
    have pending : state.session.pending other true = true :=
      (UdpSession.pending_iff op other true).mpr rfl
    have next : (state.session.step (received other data connectOk failing)).1.ops.length ≤ 1 ∧
        (state.session.step (received other data connectOk failing)).1.status ≠ .forward := by
      cases other with
      | connect => cases isRead
      | tcpWrite => cases isRead
      | tcpRead =>
        refine UdpSession.step_few few notForward ⟨alive, pending, more rfl, fits⟩ ?_
        intro read connected fails same
        obtain ⟨rfl, rfl, rfl⟩ := UdpEvent.read.inj same
        have stays := staysOut (.tcpRead, data) (by rw [one]; exact List.mem_cons_self) rfl
        rw [found] at stays
        exact stays
      | outRead =>
        refine UdpSession.step_few few notForward ⟨alive, pending, fits⟩ ?_
        intro read connected fails same
        cases same
    rw [step_handler one found]
    refine ⟨next.1, next.2, Or.inl rfl, fun read member => ?_⟩
    · rcases List.mem_append.mp member with earlier | new
      · exact parsed read earlier
      · rw [List.mem_singleton.mp new]

/-- A completion that is not that of a performed read. -/
theorem Single.completion {state : BufferedSession} (single : state.Single) {event : UdpEvent}
    (enabled : state.enabled (.completion event)) : (state.step (.completion event)).Single := by
  have offered : state.session.enabled event ∧
      ∀ data connectOk failing, event ≠ .read data connectOk failing := by
    cases event with
    | read data connectOk failing => exact False.elim enabled
    | received data => exact False.elim enabled
    | readError => exact ⟨enabled.1, fun _ _ _ wrong => by cases wrong⟩
    | receiveError => exact ⟨enabled.1, fun _ _ _ wrong => by cases wrong⟩
    | _ => exact ⟨enabled, fun _ _ _ wrong => by cases wrong⟩
  obtain ⟨few, notForward⟩ := UdpSession.step_few single.few single.notForward offered.1
    (fun data connectOk failing same => absurd same (offered.2 data connectOk failing))
  rcases single.performed with none | ⟨kind, data, isRead, more, fits, one, op, found⟩
  · exact ⟨few, notForward, Or.inl none, single.parsed⟩
  · have only {other : UdpOpKind} {ok : Bool} (pending : state.session.pending other ok = true) :
        other = kind := (UdpSession.pending_iff op other ok).mp pending
    have unperformed {other : UdpOpKind} {ok : Bool}
        (pending : state.session.pending other ok = true) :
        state.isPerformed other ≠ false := by
      rw [(isPerformed_single one).mpr (only pending).symm]
      exact fun wrong => by cases wrong
    refine single.of_session ?_ notForward
    change (state.session.handle event).1.release.ops = _
    rw [UdpSession.release_ops]
    cases event with
    | connected ok =>
      obtain rfl := only enabled.2
      cases isRead
    | wrote ok =>
      obtain rfl := only enabled.2
      cases isRead
    | read data connectOk failing => exact False.elim enabled
    | readError => exact absurd enabled.2 (unperformed enabled.1.2)
    | received data => exact False.elim enabled
    | receiveError => exact absurd enabled.2 (unperformed enabled.1.2)
    | expire => rfl
    | waited ok =>
      cases ok with
      | false => rfl
      | true => exact UdpSession.destroy_ops _

theorem Single.step {state : BufferedSession} (single : state.Single) {event : BufferEvent}
    (enabled : state.enabled event) (staysOut : state.StaysOut event) :
    (state.step event).Single := by
  cases event with
  | perform kind data => exact single.perform enabled
  | handler kind connectOk failing => exact single.handler enabled staysOut
  | process packet fails =>
    cases taken : state.session.process packet fails with
    | none =>
      unfold BufferedSession.step
      dsimp only
      rw [taken]
      exact single
    | some result =>
      have relayed := UdpSession.relayed_process taken
      unfold BufferedSession.step
      dsimp only
      rw [taken]
      refine single.of_session relayed.ops ?_
      change result.1.status ≠ _
      rw [relayed.status]
      exact single.notForward
  | completion event => exact single.completion enabled

/-- Entering `FORWARD` leaves two outstanding reads. -/
theorem not_owned_of_entering {state : BufferedSession} (single : state.Single)
    {event : BufferEvent} (enters : ¬ state.StaysOut event) : ¬ (state.step event).Owned := by
  cases event with
  | handler kind connectOk failing =>
    cases kind with
    | tcpRead =>
      unfold StaysOut at enters
      push Not at enters
      obtain ⟨read, member, isTcp, enters⟩ := enters
      rcases single.performed with none | ⟨kind, data, _, _, _, one, op, found⟩
      · rw [none] at member
        cases member
      · rw [one] at member
        obtain rfl := List.mem_singleton.mp member
        obtain rfl : kind = .tcpRead := isTcp
        rw [found] at enters
        obtain ⟨address, port, run⟩ := UdpSession.EntersForward.run
          (s := state.session.complete .tcpRead true) enters failing
        have relayed := UdpSession.relayed_inRecvAll
          (state.session.initialPacket :: state.session.sendQue) failing
          ((state.session.complete .tcpRead true).associated address port)
        have both : (state.session.step (.read data connectOk failing)).1.ops =
            [⟨.tcpRead, state.session.tcpOpen⟩, ⟨.outRead, true⟩] := by
          change (UdpSession.tcpRecv data connectOk failing _).1.release.ops = _
          rw [UdpSession.release_ops, run]
          refine relayed.ops.trans ?_
          change (state.session.complete .tcpRead true).ops ++ _ ++ _ = _
          rw [UdpSession.complete_ops op]
          rfl
        rw [step_handler one found]
        rintro ⟨few, _⟩
        change (state.session.step (.read data connectOk failing)).1.ops.countP _ ≤ 1 at few
        rw [both] at few
        exact Nat.not_succ_le_self 1 few
    | _ => exact absurd trivial enters
  | _ => exact absurd trivial enters

end BufferedSession

/-- In a run of a session there is at most one outstanding read and every handler finds the bytes
of its read, exactly if no step enters `FORWARD`. -/
theorem buffer_owned (id : Nat) (initialPacket : UdpPacket) (memory : Bytes)
    (events : List BufferEvent)
    (legal : bufferSystem.Legal (.new id initialPacket memory) events) :
    bufferSystem.Throughout BufferedSession.Owned (.new id initialPacket memory) events ↔
      bufferSystem.Guarded BufferedSession.StaysOut (.new id initialPacket memory) events := by
  have start := BufferedSession.single_new id initialPacket memory
  have exactly (state : BufferedSession) (event : BufferEvent)
      (enabled : bufferSystem.enabled state event) (single : state.Single) :
      (bufferSystem.step state event).Owned ↔ state.StaysOut event := by
    refine ⟨fun owned => ?_, fun staysOut => (single.step enabled staysOut).owned⟩
    by_contra enters
    exact BufferedSession.not_owned_of_entering single enters owned
  refine bufferSystem.throughout_iff BufferedSession.Single BufferedSession.Owned ?_ ?_ legal start
    start.owned
  · intro state event enabled single owned
    exact single.step enabled ((exactly state event enabled single).mp owned)
  · intro state event enabled single _
    exact exactly state event enabled single

/-- An association that the proxy refuses. -/
abbrev refusedAssociation : List BufferEvent :=
  [.completion (.connected true), .completion (.wrote true), .perform .tcpRead methodReply,
    .process (samplePacket [0x62]) false, .handler .tcpRead true none, .completion (.wrote true),
    .perform .tcpRead [5, 1, 0, 1, 0, 0, 0, 0, 0, 0], .handler .tcpRead true none]

theorem buffer_owned_refused :
    bufferSystem.Throughout BufferedSession.Owned
      (.new 0 (samplePacket [0x61]) (List.replicate recvBufSize 0)) refusedAssociation :=
  (buffer_owned 0 (samplePacket [0x61]) (List.replicate recvBufSize 0) refusedAssociation
    (by decide)).mpr (by decide)

/-- A reply from 10.0.0.1 is received, and before its handler runs the proxy's TCP side sends
bytes that look like a reply from 10.0.0.9. -/
abbrev overwrittenRun : List BufferEvent :=
  [.completion (.connected true), .completion (.wrote true), .perform .tcpRead methodReply,
    .handler .tcpRead true none, .completion (.wrote true), .perform .tcpRead relayReply,
    .handler .tcpRead true none, .perform .outRead [0, 0, 0, 1, 10, 0, 0, 1, 0, 53, 0x61],
    .perform .tcpRead [0, 0, 0, 1, 10, 0, 0, 9, 0, 53, 0x62], .handler .outRead true none]

/-- The handler parses the other bytes. -/
theorem buffer_owned_overwritten :
    bufferSystem.Legal (.new 0 (samplePacket [0x61]) (List.replicate recvBufSize 0))
        overwrittenRun ∧
      ¬ (bufferSystem.run overwrittenRun
        (.new 0 (samplePacket [0x61]) (List.replicate recvBufSize 0))).Owned := by
  decide

end Net2Tr
