/-
This file proves that no callback runs on a deleted session. lwIP keeps the pcb,
and the raw pointer it passes to the callbacks, longer than the session lives,
so two things matter: that a deleted session has no callback registered, and
that a callback does not touch its `SocketInternal` once the handler it ran has
let go of the last reference.

For the first the runs go on after the session is deleted, with any traffic on
the pcb. For the second the three callbacks are taken statement by statement,
with the moment at which the last reference goes and a record of every use.
-/

import Libn2t.SessionStates

namespace Net2Tr

namespace TcpSession

/-! ### Traffic after the session is gone -/

/-- The traffic on a pcb whose session has been deleted. Its connection state is not followed, so
any event of lwIP may come. -/
def orphaned (s : TcpSession) : TcpEvent → Prop
  | .recv _ | .fin | .finalAck | .rst | .abort => s.pcb.freed = false
  | .sent len => s.pcb.freed = false ∧ len ≤ s.pcb.unacked
  | .reuse .. => s.pcb.freed = true
  | .connected _ | .wrote _ | .read .. | .readError => False

/-- What such traffic does to the pcb. -/
def orphanStep (s : TcpSession) : TcpEvent → TcpSession
  | .sent len => { s with pcb := { s.pcb with unacked := s.pcb.unacked - len } }
  | .finalAck | .rst | .abort => { s with pcb := s.pcb.free }
  | .reuse localIp remoteIp localPort remotePort =>
    { s with pcb := { s.pcb with
      localIp := localIp
      remoteIp := remoteIp
      localPort := localPort
      remotePort := remotePort } }
  | .connected _ | .wrote _ | .read .. | .readError | .recv _ | .fin => s

/-- lwIP calls a callback that `set_pcb` has registered for this session. -/
def invokes (s : TcpSession) : TcpEvent → Bool
  | .recv _ | .fin => s.pcb.recv
  | .sent _ => s.pcb.sent
  | .rst | .abort => s.pcb.errf
  | .connected _ | .wrote _ | .read .. | .readError | .finalAck | .reuse .. => false

end TcpSession

/-- A session and its pcb, also after the session has been deleted. -/
def pcbSystem : Transition.System TcpSession TcpEvent where
  enabled s event := if s.alive then s.enabled event else s.orphaned event
  step s event := if s.alive then s.step event else s.orphanStep event

instance (s : TcpSession) (event : TcpEvent) : Decidable (s.orphaned event) :=
  match event with
  | .recv _ | .fin | .finalAck | .rst | .abort => inferInstanceAs (Decidable (s.pcb.freed = false))
  | .sent len => inferInstanceAs (Decidable (s.pcb.freed = false ∧ len ≤ s.pcb.unacked))
  | .reuse .. => inferInstanceAs (Decidable (s.pcb.freed = true))
  | .connected _ | .wrote _ | .read .. | .readError => isFalse id

instance (s : TcpSession) (event : TcpEvent) : Decidable (pcbSystem.enabled s event) :=
  inferInstanceAs (Decidable (if s.alive then s.enabled event else s.orphaned event))

namespace TcpSession

/-- A deleted session has no callback registered. -/
structure Detached (s : TcpSession) : Prop where
  wired : s.alive = true → s.Wired
  unregistered : s.alive = false → s.pcb.recv = false ∧ s.pcb.sent = false ∧ s.pcb.errf = false

variable {s : TcpSession}

theorem orphanStep_unregistered (event : TcpEvent) :
    (s.orphanStep event).alive = s.alive ∧ (s.orphanStep event).pcb.recv = s.pcb.recv ∧
      (s.orphanStep event).pcb.sent = s.pcb.sent ∧ (s.orphanStep event).pcb.errf = s.pcb.errf := by
  cases event <;> exact ⟨rfl, rfl, rfl, rfl⟩

theorem Detached.step (detached : s.Detached) {event : TcpEvent}
    (enabled : pcbSystem.enabled s event) : (pcbSystem.step s event).Detached := by
  cases alive : s.alive with
  | true =>
    have wired := detached.wired alive
    have now : s.enabled event := by
      simpa only [pcbSystem, alive, if_true] using enabled
    have next : pcbSystem.step s event = s.step event := by
      simp only [pcbSystem, alive, if_true]
    rw [next]
    refine ⟨fun _ => wired.step event now, fun dead => ?_⟩
    rcases (takes_step wired now).life with same | ⟨_, destroyed⟩
    · cases dead.symm.trans (same.trans alive)
    · obtain ⟨recv, sent, errf, _⟩ := (wired.step event now).cancelled destroyed
      exact ⟨recv, sent, errf⟩
  | false =>
    have next : pcbSystem.step s event = s.orphanStep event := by
      simp only [pcbSystem, alive, Bool.false_eq_true, if_false]
    obtain ⟨stays, recv, sent, errf⟩ := s.orphanStep_unregistered event
    rw [next]
    refine ⟨fun wrong => ?_, fun _ => ?_⟩
    · cases wrong.symm.trans (stays.trans alive)
    · rw [recv, sent, errf]
      exact detached.unregistered alive

/-- lwIP calls a callback of a session that lives and has not been destroyed. -/
theorem Detached.invokes (detached : s.Detached) {event : TcpEvent}
    (invoked : s.invokes event = true) : s.alive = true ∧ s.Wired ∧ s.status ≠ .destroy := by
  have registered : s.pcb.recv = true ∨ s.pcb.sent = true ∨ s.pcb.errf = true := by
    cases event with
    | recv data => exact Or.inl invoked
    | fin => exact Or.inl invoked
    | sent len => exact Or.inr (Or.inl invoked)
    | rst => exact Or.inr (Or.inr invoked)
    | abort => exact Or.inr (Or.inr invoked)
    | connected ok => cases invoked
    | wrote ok => cases invoked
    | read data accepted => cases invoked
    | readError => cases invoked
    | finalAck => cases invoked
    | reuse => cases invoked
  cases alive : s.alive with
  | true => exact ⟨rfl, detached.wired alive, (detached.wired alive).undestroyed registered⟩
  | false =>
    obtain ⟨recv, sent, errf⟩ := detached.unregistered alive
    rw [recv, sent, errf] at registered
    rcases registered with wrong | wrong | wrong <;> cases wrong

end TcpSession

/-! ### The callbacks, statement by statement -/

/-- A callback that lwIP is running. `tmp` is whether its local copy of a handler refers to the
session, and `uses` has an entry for each use of the `SocketInternal` and each call of a handler:
whether the session was there. -/
structure CallbackFrame where
  session : TcpSession
  tmp : Bool
  uses : List Bool
deriving DecidableEq, Repr

namespace CallbackFrame

/-- lwIP calls the callback. -/
def call (s : TcpSession) : CallbackFrame := ⟨s, false, []⟩

/-- The session is deleted when nothing refers to it. -/
def settle (frame : CallbackFrame) : CallbackFrame :=
  if frame.tmp || frame.session.referenced then frame
  else { frame with session := frame.session.destructor }

/-- A statement that uses the `SocketInternal`. -/
def use (update : TcpSession → TcpSession) (frame : CallbackFrame) : CallbackFrame where
  session := update frame.session
  tmp := frame.tmp
  uses := frame.uses ++ [frame.session.alive]

/-- The copy of a handler slot, which holds what the slot holds. -/
def copy (held : Bool) (frame : CallbackFrame) : CallbackFrame :=
  { frame.use id with tmp := held }

/-- The assignment of an empty handler to a slot, which lets go of what the slot held. -/
def clear (update : TcpSession → TcpSession) (frame : CallbackFrame) : CallbackFrame :=
  (frame.use update).settle

/-- The call of the copy, with its handler. -/
def run (handler : TcpSession → TcpSession) (frame : CallbackFrame) : CallbackFrame :=
  (frame.use handler).settle

/-- The end of the scope of the copy. -/
def drop (frame : CallbackFrame) : CallbackFrame := { frame with tmp := false }.settle

/-! The statements of the callbacks that change the `SocketInternal` or the pcb. -/

def setPcbFreed (s : TcpSession) : TcpSession :=
  { s with inSock := { s.inSock with pcbFreed := true } }

def tcpClose (s : TcpSession) : TcpSession :=
  { s with pcb := (s.pcb.touch .recvCallback).close }

def tcpRecved (packet : Bytes) (s : TcpSession) : TcpSession :=
  { s with pcb := s.pcb.touch .recvCallback, delivered := s.delivered ++ packet }

def clearRecv (s : TcpSession) : TcpSession := { s with inSock := { s.inSock with recv := none } }

def appendRecvBuf (packet : Bytes) (s : TcpSession) : TcpSession :=
  { s with inSock := { s.inSock with recvBuf := s.inSock.recvBuf ++ packet } }

def subPendingLen (len : Nat) (s : TcpSession) : TcpSession :=
  { s with inSock := { s.inSock with pendingLen := s.inSock.pendingLen - UInt32.ofNat len } }

def clearSent (s : TcpSession) : TcpSession := { s with inSock := { s.inSock with sent := none } }

def clearErr (s : TcpSession) : TcpSession := { s with inSock := { s.inSock with err := none } }

def pushErr (err : Err) (s : TcpSession) : TcpSession :=
  { s with inSock := { s.inSock with errQue := s.inSock.errQue ++ [err] } }

/-- The recv callback. -/
def recv (s : TcpSession) (p : Option Bytes) : CallbackFrame :=
  match p with
  | none => (((call s).use setPcbFreed).use tcpClose)
  | some packet =>
    let frame := ((call s).use (tcpRecved packet)).use id
    match frame.session.inSock.recv with
    | some handler =>
      let frame := ((frame.copy true).clear clearRecv).use id
      (frame.run (.runRecv (some (handler, frame.session.inSock.pcbFreed, packet)))).drop
    | none => frame.use (appendRecvBuf packet)

/-- The sent callback. -/
def sent (s : TcpSession) (len : Nat) : CallbackFrame :=
  let frame := ((call s).use (subPendingLen len)).use id
  if frame.session.inSock.pendingLen = 0 then
    let tmp := frame.session.inSock.sent
    let frame := ((frame.copy tmp.isSome).clear clearSent).use id
    (frame.run (.runSent (tmp.map fun tmp => (tmp, frame.session.inSock.pcbFreed)))).drop
  else frame

/-- The err callback. -/
def err (s : TcpSession) (err : Err) : CallbackFrame :=
  let frame := ((call s).use setPcbFreed).use id
  match frame.session.inSock.err with
  | some handler =>
    let frame := (frame.copy true).clear clearErr
    (frame.run (.runErr (some (handler, err)))).drop
  | none => frame.use (pushErr err)

/-- Every use so far found the session. -/
def Sound (frame : CallbackFrame) : Prop := ∀ used ∈ frame.uses, used = true

variable {s : TcpSession}

/-- An err handler in its slot refers to the session. -/
theorem referenced_of_err (registered : s.inSock.err = some .start) : s.referenced = true := by
  simp only [TcpSession.referenced, registered, Option.isSome_some, Bool.or_true]

theorem release_of_err (registered : s.inSock.err = some .start) : s.release = s := by
  rw [TcpSession.release, if_pos (referenced_of_err registered)]

theorem drop_session (frame : CallbackFrame) : frame.drop.session = frame.session.release := by
  rw [drop, settle, TcpSession.release]
  dsimp only
  rw [Bool.false_or]
  split <;> rfl

theorem drop_uses (frame : CallbackFrame) : frame.drop.uses = frame.uses := by
  rw [drop, settle]
  dsimp only
  split <;> rfl

/-- A callback has come to a state without a use of a deleted session. -/
structure At (frame : CallbackFrame) (s : TcpSession) (tmp : Bool) : Prop where
  session : frame.session = s
  tmp : frame.tmp = tmp
  sound : frame.Sound

theorem at_call (s : TcpSession) : At (call s) s false :=
  ⟨rfl, rfl, fun used member => by cases member⟩

variable {frame : CallbackFrame} {tmp : Bool}

theorem At.use (here : At frame s tmp) (alive : s.alive = true)
    (update : TcpSession → TcpSession) : At (frame.use update) (update s) tmp := by
  refine ⟨congrArg update here.session, here.tmp, fun used member => ?_⟩
  rcases List.mem_append.mp member with before | now
  · exact here.sound used before
  · rw [List.mem_singleton.mp now, here.session]
    exact alive

theorem At.copy (here : At frame s tmp) (alive : s.alive = true) (held : Bool) :
    At (frame.copy held) s held :=
  ⟨here.session, rfl, (here.use alive id).sound⟩

/-- The copy, or the err handler in its slot, keeps the session. -/
theorem At.settle (here : At frame s tmp) (kept : tmp = true ∨ s.inSock.err = some .start) :
    At frame.settle s tmp := by
  have same : frame.settle = frame := by
    rw [CallbackFrame.settle, here.tmp, here.session, if_pos]
    rcases kept with held | registered
    · rw [held, Bool.true_or]
    · rw [referenced_of_err registered, Bool.or_true]
  rw [same]
  exact here

/-- The handler runs while the session is kept, and what may delete the session is the end of the
scope of the copy. -/
theorem At.finish (here : At frame s tmp) (alive : s.alive = true)
    (handler : TcpSession → TcpSession)
    (kept : tmp = true ∨ (handler s).inSock.err = some .start) :
    (frame.run handler).drop.Sound ∧ (frame.run handler).drop.session = (handler s).release := by
  have ran : At (frame.run handler) (handler s) tmp := (here.use alive handler).settle kept
  refine ⟨?_, by rw [drop_session, ran.session]⟩
  unfold Sound
  rw [drop_uses]
  exact ran.sound

/-- The recv callback does what the session model says, and uses the session only while it is
there. -/
theorem recv_sound (alive : s.alive = true) (registered : s.pcb.recv = true)
    (errSlot : s.inSock.err = some .start) (p : Option Bytes) :
    (recv s p).Sound ∧ (recv s p).session = (s.recvEvent p).release := by
  cases p with
  | none =>
    have closed := ((at_call s).use alive setPcbFreed).use alive tcpClose
    have model : s.recvEvent none = tcpClose (setPcbFreed s) := TcpSession.recvEvent_fin registered
    rw [model, release_of_err (s := tcpClose (setPcbFreed s)) errSlot]
    exact ⟨closed.sound, closed.session⟩
  | some packet =>
    have tested := ((at_call s).use alive (tcpRecved packet)).use alive id
    unfold recv
    dsimp only
    rw [tested.session]
    cases parked : s.inSock.recv with
    | some handler =>
      have slot : (id (tcpRecved packet s)).inSock.recv = some handler := parked
      have cleared : At ((((((call s).use (tcpRecved packet)).use id).copy true).clear
          clearRecv).use id) (clearRecv (tcpRecved packet s)) true :=
        (((tested.copy alive true).use alive clearRecv).settle (Or.inl rfl)).use alive id
      have model : s.recvEvent (some packet) =
          (clearRecv (tcpRecved packet s)).runRecv
            (some (handler, s.inSock.pcbFreed, packet)) :=
        TcpSession.recvEvent_parked registered parked packet
      rw [slot, model]
      dsimp only
      rw [cleared.session]
      exact cleared.finish alive _ (Or.inl rfl)
    | none =>
      have slot : (id (tcpRecved packet s)).inSock.recv = none := parked
      have model : s.recvEvent (some packet) = appendRecvBuf packet (tcpRecved packet s) :=
        TcpSession.recvEvent_buffered registered parked packet
      have buffered := tested.use alive (appendRecvBuf packet)
      rw [slot, model,
        release_of_err (s := appendRecvBuf packet (tcpRecved packet s)) errSlot]
      exact ⟨buffered.sound, buffered.session⟩

/-- The sent callback likewise. -/
theorem sent_sound (alive : s.alive = true) (registered : s.pcb.sent = true)
    (errSlot : s.inSock.err = some .start) (len : Nat) :
    (sent s len).Sound ∧ (sent s len).session = (s.sentEvent len).release := by
  have tested := ((at_call s).use alive (subPendingLen len)).use alive id
  unfold sent
  dsimp only
  rw [tested.session]
  by_cases done : s.inSock.pendingLen - UInt32.ofNat len = 0
  · have zero : (id (subPendingLen len s)).inSock.pendingLen = 0 := done
    have model : s.sentEvent len =
        (clearSent (subPendingLen len s)).runSent
          (s.inSock.sent.map fun tmp => (tmp, s.inSock.pcbFreed)) := by
      rw [TcpSession.sentEvent_done registered len done, ← done]
      rfl
    rw [if_pos zero, model]
    cases parked : s.inSock.sent with
    | some handler =>
      have slot : (id (subPendingLen len s)).inSock.sent = some handler := parked
      have cleared : At ((((((call s).use (subPendingLen len)).use id).copy true).clear
          clearSent).use id) (clearSent (subPendingLen len s)) true :=
        (((tested.copy alive true).use alive clearSent).settle (Or.inl rfl)).use alive id
      rw [slot]
      simp only [Option.isSome_some, Option.map_some]
      rw [cleared.session]
      exact cleared.finish alive _ (Or.inl rfl)
    | none =>
      have slot : (id (subPendingLen len s)).inSock.sent = none := parked
      have cleared : At ((((((call s).use (subPendingLen len)).use id).copy false).clear
          clearSent).use id) (clearSent (subPendingLen len s)) false :=
        (((tested.copy alive false).use alive clearSent).settle (Or.inr errSlot)).use alive id
      rw [slot]
      simp only [Option.isSome_none, Option.map_none]
      exact cleared.finish alive _ (Or.inr errSlot)
  · have more : (id (subPendingLen len s)).inSock.pendingLen ≠ 0 := done
    have model : s.sentEvent len = subPendingLen len s :=
      TcpSession.sentEvent_counting registered len done
    rw [if_neg more, model, release_of_err (s := subPendingLen len s) errSlot]
    exact ⟨tested.sound, tested.session⟩

/-- The err callback likewise. -/
theorem err_sound (alive : s.alive = true) (errSlot : s.inSock.err = some .start) (error : Err) :
    (err s error).Sound ∧ (err s error).session = (s.errEvent error).release := by
  have tested := ((at_call s).use alive setPcbFreed).use alive id
  have slot : (id (setPcbFreed s)).inSock.err = some .start := errSlot
  have cleared : At (((((call s).use setPcbFreed).use id).copy true).clear clearErr)
      (clearErr (setPcbFreed s)) true :=
    ((tested.copy alive true).use alive clearErr).settle (Or.inl rfl)
  have model : s.errEvent error = (clearErr (setPcbFreed s)).runErr (some (.start, error)) :=
    TcpSession.errEvent_eq errSlot error
  unfold err
  dsimp only
  rw [tested.session, slot, model]
  exact cleared.finish alive _ (Or.inl rfl)

end CallbackFrame

namespace TcpSession

variable {s : TcpSession}

/-- The callback that an event of lwIP runs, in the state lwIP runs it in. -/
def callback (s : TcpSession) : TcpEvent → CallbackFrame
  | .recv data => .recv s (some data)
  | .fin => .recv { s with pcb := { s.pcb with state := .closeWait } } none
  | .sent len => .sent { s with pcb := { s.pcb with unacked := s.pcb.unacked - len } } len
  | .rst => .err s .rst
  | .abort => .err { s with pcb := s.pcb.free } .abrt
  | .connected _ | .wrote _ | .read .. | .readError | .finalAck | .reuse .. => .call s

/-- What lwIP does with the pcb after the callback: on a RST it frees it. -/
def afterCallback (s : TcpSession) : TcpEvent → TcpSession
  | .rst => { s with pcb := s.pcb.free }
  | _ => s

/-- A callback that lwIP runs does what the session model says, and uses the session only while it
is there. -/
theorem Wired.callback_sound (wired : s.Wired) (alive : s.alive = true) {event : TcpEvent}
    (invoked : s.invokes event = true) :
    (s.callback event).Sound ∧ s.step event = (s.callback event).session.afterCallback event := by
  cases event with
  | recv data =>
    have errSlot := (wired.registered (wired.undestroyed (Or.inl invoked))).2.2.2
    obtain ⟨sound, session⟩ := CallbackFrame.recv_sound alive invoked errSlot (some data)
    exact ⟨sound, session.symm⟩
  | fin =>
    have errSlot := (wired.registered (wired.undestroyed (Or.inl invoked))).2.2.2
    obtain ⟨sound, session⟩ := CallbackFrame.recv_sound
      (s := { s with pcb := { s.pcb with state := .closeWait } }) alive invoked errSlot none
    exact ⟨sound, session.symm⟩
  | sent len =>
    have errSlot := (wired.registered (wired.undestroyed (Or.inr (Or.inl invoked)))).2.2.2
    obtain ⟨sound, session⟩ := CallbackFrame.sent_sound
      (s := { s with pcb := { s.pcb with unacked := s.pcb.unacked - len } }) alive invoked errSlot
      len
    exact ⟨sound, session.symm⟩
  | rst =>
    have registered : s.pcb.errf = true := invoked
    have errSlot := (wired.registered (wired.undestroyed (Or.inr (Or.inr invoked)))).2.2.2
    obtain ⟨sound, session⟩ := CallbackFrame.err_sound alive errSlot .rst
    have freed : s.step .rst = (s.errEvent .rst).release.afterCallback .rst := by
      unfold TcpSession.step
      dsimp only
      rw [if_pos registered]
      rfl
    exact ⟨sound, freed.trans (congrArg (afterCallback · .rst) session.symm)⟩
  | abort =>
    have registered : s.pcb.errf = true := invoked
    have errSlot := (wired.registered (wired.undestroyed (Or.inr (Or.inr invoked)))).2.2.2
    obtain ⟨sound, session⟩ := CallbackFrame.err_sound
      (s := { s with pcb := s.pcb.free }) alive errSlot .abrt
    have ran : s.step .abort =
        (({ s with pcb := s.pcb.free } : TcpSession).errEvent .abrt).release := by
      unfold TcpSession.step
      dsimp only
      rw [if_pos registered]
    exact ⟨sound, ran.trans session.symm⟩
  | connected ok => cases invoked
  | wrote ok => cases invoked
  | read data accepted => cases invoked
  | readError => cases invoked
  | finalAck => cases invoked
  | reuse => cases invoked

end TcpSession

/-- In every run of a session, and of its pcb after the session has been deleted, lwIP calls a
callback only while the session is there. The callback then takes the step of the session, and
every use it makes of its `SocketInternal` finds it there. -/
theorem callbacks_safe (localIp remoteIp : IpCell) (localPort remotePort : Port)
    (events : List TcpEvent)
    (legal : pcbSystem.Legal (.init localIp remoteIp localPort remotePort) events)
    (event : TcpEvent)
    (invoked : (pcbSystem.run events
      (.init localIp remoteIp localPort remotePort)).invokes event = true) :
    (pcbSystem.run events (.init localIp remoteIp localPort remotePort)).alive = true ∧
    ((pcbSystem.run events (.init localIp remoteIp localPort remotePort)).callback
      event).Sound ∧
    pcbSystem.step (pcbSystem.run events (.init localIp remoteIp localPort remotePort)) event =
      ((pcbSystem.run events (.init localIp remoteIp localPort remotePort)).callback
        event).session.afterCallback event := by
  have start : (TcpSession.init localIp remoteIp localPort remotePort).Detached :=
    ⟨fun _ => TcpSession.wired_init .., fun dead => by cases dead⟩
  have detached := pcbSystem.invariant TcpSession.Detached
    (fun _ _ enabled detached => detached.step enabled) legal start
  obtain ⟨alive, wired, _⟩ := detached.invokes invoked
  obtain ⟨sound, step⟩ := wired.callback_sound alive invoked
  refine ⟨alive, sound, ?_⟩
  rw [← step]
  exact if_pos alive

/-- A forwarding session that has sent a byte to a client which then closes. -/
abbrev lastByteRun : List TcpEvent := relayingRun ++ [.wrote true, .read [0x63] true, .fin]

/-- The sent callback that acknowledges the byte deletes the session. -/
theorem callbacks_safe_lastByte :
    ((pcbSystem.run lastByteRun sampleSession).alive = true ∧
    ((pcbSystem.run lastByteRun sampleSession).callback (.sent 1)).Sound ∧
    pcbSystem.step (pcbSystem.run lastByteRun sampleSession) (.sent 1) =
      ((pcbSystem.run lastByteRun sampleSession).callback (.sent 1)).session.afterCallback
        (.sent 1)) ∧
    (pcbSystem.step (pcbSystem.run lastByteRun sampleSession) (.sent 1)).alive = false :=
  ⟨callbacks_safe sampleDst.1 sampleSrc.1 sampleDst.2 sampleSrc.2 lastByteRun (by decide) (.sent 1)
    (by decide), by decide⟩

end Net2Tr
