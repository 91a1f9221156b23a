/-
This file is about a `Socket` by itself, with any owner: its methods and lwIP's
callbacks in any order. A method or callback is done with the socket when it
calls a handler, so whatever the handler does with the socket in turn comes
next in the run, and a run is a plain sequence however the calls are nested.

Two results are about what the recv handlers see. The bytes lwIP delivers are
the ones handed over followed by the ones buffered. And nobody is left waiting
on a closed connection exactly as long as a FIN finds no recv handler parked and
an error finds none, or an err handler that it can tell.
-/

import Libn2t.InetChksum
import Libn2t.TcpSession
import Mathlib.Data.List.Perm.Subperm

namespace Net2Tr

/-- A socket with its pcb, and what has happened to it: the data delivered by lwIP, the recv
handlers registered and called, whether the err handler has been run for the last event that set
`pcb_freed`, and the numbers of bytes given to `async_send`, queued by `tcp_write` and reported
as acknowledged. -/
structure SocketRun (RecvHandler SentHandler ErrHandler : Type) where
  sock : Socket RecvHandler SentHandler ErrHandler
  pcb : TcpPcb
  arrived : List Bytes
  registered : List RecvHandler
  handed : List (RecvHandler × Bytes)
  told : Bool
  offered : Nat
  queued : Nat
  acked : Nat
deriving DecidableEq, Repr

/-- The methods of `Socket` and the callbacks it registers. `accepted` is whether `tcp_write`
queues the data; `recv` carries the pbufs, and no pbuf is `fin`. -/
inductive SocketEvent (RecvHandler SentHandler ErrHandler : Type) where
  | asyncRecv (handler : RecvHandler)
  | asyncSend (packet : Bytes) (handler : SentHandler) (accepted : Bool)
  | asyncErr (handler : ErrHandler)
  | cancel
  | recv (p : PbufChain)
  | fin
  | sent (len : Nat)
  | err (err : Err)
deriving DecidableEq, Repr

/-- `TCP_SND_BUF`. -/
def tcpSndBuf : Nat := 8 * 1460

variable {RecvHandler SentHandler ErrHandler : Type}

namespace SocketRun

variable (run : SocketRun RecvHandler SentHandler ErrHandler)

/-- A new socket with a pcb that has just been accepted. -/
def new (pcb : TcpPcb) : SocketRun RecvHandler SentHandler ErrHandler where
  sock := .new
  pcb := Socket.setPcb { pcb with state := .established, unacked := 0, freed := false }
  arrived := []
  registered := []
  handed := []
  told := false
  offered := 0
  queued := 0
  acked := 0

/-- lwIP calls only registered callbacks of a pcb it owns. Data and the FIN come while the
connection is established, and `tcp_write` queues data only if it fits the send buffer. -/
def enabled : SocketEvent RecvHandler SentHandler ErrHandler → Prop
  | .asyncRecv _ => True
  | .asyncSend packet _ accepted =>
    accepted = true → packet.length % 2 ^ 16 ≤ tcpSndBuf - run.pcb.unacked
  | .asyncErr _ => True
  | .cancel => True
  | .recv _ => run.pcb.recv = true ∧ run.pcb.freed = false ∧ run.pcb.state = .established
  | .fin => run.pcb.recv = true ∧ run.pcb.freed = false ∧ run.pcb.state = .established
  | .sent len => run.pcb.sent = true ∧ run.pcb.freed = false ∧ 0 < len ∧ len < 2 ^ 16 ∧
      len ≤ run.pcb.unacked
  | .err _ => run.pcb.errf = true ∧ run.pcb.freed = false

/-- The handler and the packet of a call. -/
def called (call : Option (RecvHandler × Bool × Bytes)) : List (RecvHandler × Bytes) :=
  (call.map fun (handler, _, packet) => (handler, packet)).toList

/-- The effect of an event. -/
def step : SocketEvent RecvHandler SentHandler ErrHandler →
    SocketRun RecvHandler SentHandler ErrHandler
  | .asyncRecv handler =>
    let (sock, call) := run.sock.asyncRecv handler
    { run with
      sock := sock
      registered := run.registered ++ [handler]
      handed := run.handed ++ called call }
  | .asyncSend packet handler accepted =>
    let (sock, pcb, _) := run.sock.asyncSend run.pcb packet handler accepted
    { run with
      sock := sock
      pcb := pcb
      offered := if run.sock.pcbFreed then run.offered else run.offered + packet.length
      queued :=
        if run.sock.pcbFreed then run.queued
        else run.queued + (if accepted then packet.length % 2 ^ 16 else 0) }
  | .asyncErr handler =>
    let (sock, call) := run.sock.asyncErr handler
    { run with sock := sock, told := run.told || call.isSome }
  | .cancel =>
    let (sock, pcb) := run.sock.cancel run.pcb
    { run with sock := sock, pcb := pcb }
  | .recv p =>
    let (sock, pcb, call) := run.sock.recvCallback run.pcb (some p.toStr)
    { run with
      sock := sock
      pcb := pcb
      arrived := run.arrived ++ [p.toStr]
      handed := run.handed ++ called call }
  | .fin =>
    let (sock, pcb, call) := run.sock.recvCallback { run.pcb with state := .closeWait } none
    { run with sock := sock, pcb := pcb, handed := run.handed ++ called call, told := false }
  | .sent len =>
    let (sock, _) := run.sock.sentCallback len
    { run with
      sock := sock
      pcb := { run.pcb with unacked := run.pcb.unacked - len }
      acked := run.acked + len }
  | .err err =>
    let (sock, call) := run.sock.errCallback err
    { run with sock := sock, pcb := run.pcb.free, told := call.isSome }

end SocketRun

/-- A socket as a transition system. -/
def socketSystem : Transition.System (SocketRun RecvHandler SentHandler ErrHandler)
    (SocketEvent RecvHandler SentHandler ErrHandler) where
  enabled := SocketRun.enabled
  step := SocketRun.step

instance (run : SocketRun RecvHandler SentHandler ErrHandler)
    (event : SocketEvent RecvHandler SentHandler ErrHandler) :
    Decidable (socketSystem.enabled run event) :=
  match event with
  | .asyncRecv _ | .asyncErr _ | .cancel => isTrue trivial
  | .asyncSend packet _ accepted =>
    inferInstanceAs (Decidable
      (accepted = true → packet.length % 2 ^ 16 ≤ tcpSndBuf - run.pcb.unacked))
  | .recv _ | .fin =>
    inferInstanceAs (Decidable
      (run.pcb.recv = true ∧ run.pcb.freed = false ∧ run.pcb.state = .established))
  | .sent len =>
    inferInstanceAs (Decidable (run.pcb.sent = true ∧ run.pcb.freed = false ∧ 0 < len ∧
      len < 2 ^ 16 ∧ len ≤ run.pcb.unacked))
  | .err _ => inferInstanceAs (Decidable (run.pcb.errf = true ∧ run.pcb.freed = false))

/-! ### What the recv handlers see -/

namespace SocketEvent

/-- The payloads of the pbufs an event delivers. -/
def delivered : SocketEvent RecvHandler SentHandler ErrHandler → Option Bytes
  | .recv p => some (p.pbufs.map Pbuf.payload).flatten
  | _ => none

/-- The recv handler an event registers. -/
def registers : SocketEvent RecvHandler SentHandler ErrHandler → Option RecvHandler
  | .asyncRecv handler => some handler
  | _ => none

end SocketEvent

namespace SocketRun

variable {run : SocketRun RecvHandler SentHandler ErrHandler}

/-- What was handed over and what is buffered are the bytes that arrived; a parked handler means
an empty buffer; the handlers called and the one parked are distinct registrations. -/
structure Conserved (run : SocketRun RecvHandler SentHandler ErrHandler) : Prop where
  bytes : (run.handed.map Prod.snd).flatten ++ run.sock.recvBuf = run.arrived.flatten
  parked : run.sock.recv ≠ none → run.sock.recvBuf = []
  once : (run.handed.map Prod.fst ++ run.sock.recv.toList).Subperm run.registered

/-- A step that leaves the receiving side alone, or drops the parked handler. -/
theorem Conserved.of_eq {next : SocketRun RecvHandler SentHandler ErrHandler}
    (conserved : run.Conserved) (recvBuf : next.sock.recvBuf = run.sock.recvBuf)
    (recv : next.sock.recv = run.sock.recv ∨ next.sock.recv = none)
    (arrived : next.arrived = run.arrived) (registered : next.registered = run.registered)
    (handed : next.handed = run.handed) : next.Conserved := by
  obtain ⟨bytes, parked, once⟩ := conserved
  refine ⟨?_, ?_, ?_⟩
  · rw [handed, recvBuf, arrived]
    exact bytes
  · rw [recvBuf]
    rcases recv with same | dropped
    · rw [same]
      exact parked
    · rw [dropped]
      exact fun wrong => absurd rfl wrong
  · rw [handed, registered]
    rcases recv with same | dropped
    · rw [same]
      exact once
    · rw [dropped, Option.toList_none, List.append_nil]
      exact (List.sublist_append_left _ _).subperm.trans once

/-- A registered handler is called at once or parked. -/
theorem Conserved.asyncRecv (conserved : run.Conserved) (handler : RecvHandler) :
    (run.step (.asyncRecv handler)).Conserved := by
  obtain ⟨bytes, parked, once⟩ := conserved
  have called : (run.handed.map Prod.fst ++ [handler]).Subperm (run.registered ++ [handler]) :=
    List.Subperm.append ((List.sublist_append_left _ _).subperm.trans once) (.refl [handler])
  unfold SocketRun.step Socket.asyncRecv
  dsimp only
  split
  · refine ⟨?_, parked, ?_⟩
    · simpa only [SocketRun.called, Option.map_some, Option.toList_some, List.map_append,
        List.map_cons, List.map_nil, List.flatten_append, List.flatten_singleton,
        List.append_nil] using bytes
    · have both : (run.handed.map Prod.fst ++ run.sock.recv.toList ++ [handler]).Subperm
          (run.registered ++ [handler]) := List.Subperm.append once (.refl [handler])
      have swapped : (run.handed.map Prod.fst ++ run.sock.recv.toList ++ [handler]).Perm
          (run.handed.map Prod.fst ++ [handler] ++ run.sock.recv.toList) := by
        rw [List.append_assoc, List.append_assoc]
        exact List.perm_append_comm.append_left _
      simpa only [SocketRun.called, Option.map_some, Option.toList_some, List.map_append,
        List.map_cons, List.map_nil] using swapped.subperm_right.mp both
  · split
    · rename_i empty
      have none : run.sock.recvBuf = [] := List.eq_nil_of_length_eq_zero empty
      refine ⟨?_, fun _ => none, ?_⟩
      · simpa only [SocketRun.called, Option.map_none, Option.toList_none, List.append_nil]
          using bytes
      · simpa only [SocketRun.called, Option.map_none, Option.toList_none, List.append_nil,
          Option.toList_some] using called
    · rename_i full
      have idle : run.sock.recv = none := by
        by_contra waiting
        exact full (List.length_eq_zero_iff.mpr (parked waiting))
      refine ⟨?_, fun wrong => absurd idle wrong, ?_⟩
      · simpa only [SocketRun.called, Option.map_some, Option.toList_some, List.map_append,
          List.map_cons, List.map_nil, List.flatten_append, List.flatten_singleton,
          List.append_nil] using bytes
      · simpa only [SocketRun.called, Option.map_some, Option.toList_some, List.map_append,
          List.map_cons, List.map_nil, idle, Option.toList_none, List.append_nil] using called

/-- Data goes to the parked handler or into the buffer. -/
theorem Conserved.recv (conserved : run.Conserved) (p : PbufChain) :
    (run.step (.recv p)).Conserved := by
  obtain ⟨bytes, parked, once⟩ := conserved
  unfold SocketRun.step Socket.recvCallback
  dsimp only
  cases waiting : run.sock.recv with
  | some tmp =>
    have empty : run.sock.recvBuf = [] :=
      parked (by rw [waiting]; exact Option.some_ne_none tmp)
    rw [empty, List.append_nil] at bytes
    rw [waiting] at once
    refine ⟨?_, fun _ => empty, ?_⟩
    · simp only [SocketRun.called, Option.map_some, Option.toList_some, List.map_append,
        List.map_cons, List.map_nil, List.flatten_append, List.flatten_singleton, empty,
        List.append_nil, bytes]
    · simpa only [SocketRun.called, Option.map_some, Option.toList_some, Option.toList_none,
        List.map_append, List.map_cons, List.map_nil, List.append_nil] using once
  | none =>
    rw [waiting] at once
    refine ⟨?_, fun wrong => absurd rfl wrong, ?_⟩
    · simp only [SocketRun.called, Option.map_none, Option.toList_none, List.append_nil,
        List.flatten_append, List.flatten_singleton, ← bytes, List.append_assoc]
    · simpa only [SocketRun.called, Option.map_none, Option.toList_none, List.append_nil, waiting]
        using once

theorem asyncSend_receiving (sock : Socket RecvHandler SentHandler ErrHandler) (pcb : TcpPcb)
    (packet : Bytes) (handler : SentHandler) (accepted : Bool) :
    (sock.asyncSend pcb packet handler accepted).1.recv = sock.recv ∧
      (sock.asyncSend pcb packet handler accepted).1.recvBuf = sock.recvBuf := by
  unfold Socket.asyncSend
  split <;> exact ⟨rfl, rfl⟩

theorem sentCallback_receiving (sock : Socket RecvHandler SentHandler ErrHandler) (len : Nat) :
    (sock.sentCallback len).1.recv = sock.recv ∧
      (sock.sentCallback len).1.recvBuf = sock.recvBuf := by
  unfold Socket.sentCallback
  dsimp only
  split <;> exact ⟨rfl, rfl⟩

theorem errCallback_receiving (sock : Socket RecvHandler SentHandler ErrHandler) (err : Err) :
    (sock.errCallback err).1.recv = sock.recv ∧
      (sock.errCallback err).1.recvBuf = sock.recvBuf := by
  unfold Socket.errCallback
  dsimp only
  split <;> exact ⟨rfl, rfl⟩

theorem asyncErr_receiving (sock : Socket RecvHandler SentHandler ErrHandler)
    (handler : ErrHandler) :
    (sock.asyncErr handler).1.recv = sock.recv ∧
      (sock.asyncErr handler).1.recvBuf = sock.recvBuf := by
  unfold Socket.asyncErr
  split <;> exact ⟨rfl, rfl⟩

theorem Conserved.step (conserved : run.Conserved)
    (event : SocketEvent RecvHandler SentHandler ErrHandler) : (run.step event).Conserved := by
  cases event with
  | asyncRecv handler => exact conserved.asyncRecv handler
  | asyncSend packet handler accepted =>
    obtain ⟨recv, recvBuf⟩ := asyncSend_receiving run.sock run.pcb packet handler accepted
    exact conserved.of_eq recvBuf (Or.inl recv) rfl rfl rfl
  | asyncErr handler =>
    obtain ⟨recv, recvBuf⟩ := asyncErr_receiving run.sock handler
    exact conserved.of_eq recvBuf (Or.inl recv) rfl rfl rfl
  | cancel => exact conserved.of_eq rfl (Or.inr rfl) rfl rfl rfl
  | recv p => exact conserved.recv p
  | fin => exact conserved.of_eq rfl (Or.inl rfl) rfl rfl (List.append_nil _)
  | sent len =>
    obtain ⟨recv, recvBuf⟩ := sentCallback_receiving run.sock len
    exact conserved.of_eq recvBuf (Or.inl recv) rfl rfl rfl
  | err err =>
    obtain ⟨recv, recvBuf⟩ := errCallback_receiving run.sock err
    exact conserved.of_eq recvBuf (Or.inl recv) rfl rfl rfl

/-- What an event adds to the bytes that arrived and to the registrations. -/
theorem step_logs (run : SocketRun RecvHandler SentHandler ErrHandler)
    (event : SocketEvent RecvHandler SentHandler ErrHandler) :
    (run.step event).arrived = run.arrived ++ event.delivered.toList ∧
      (run.step event).registered = run.registered ++ event.registers.toList := by
  cases event with
  | asyncRecv handler => exact ⟨(List.append_nil _).symm, rfl⟩
  | asyncSend packet handler accepted => exact ⟨(List.append_nil _).symm, (List.append_nil _).symm⟩
  | asyncErr handler => exact ⟨(List.append_nil _).symm, (List.append_nil _).symm⟩
  | cancel => exact ⟨(List.append_nil _).symm, (List.append_nil _).symm⟩
  | recv p => exact ⟨rfl, (List.append_nil _).symm⟩
  | fin => exact ⟨(List.append_nil _).symm, (List.append_nil _).symm⟩
  | sent len => exact ⟨(List.append_nil _).symm, (List.append_nil _).symm⟩
  | err err => exact ⟨(List.append_nil _).symm, (List.append_nil _).symm⟩

end SocketRun

/-- In every run of a socket the packets given to recv handlers, followed by what is buffered, are
the data delivered by lwIP; a recv handler is parked only while nothing is buffered; and the
handlers called and the one parked are distinct registrations. -/
theorem bytes_received (pcb : TcpPcb)
    (events : List (SocketEvent RecvHandler SentHandler ErrHandler))
    (legal : socketSystem.Legal (.new pcb) events) :
    ((socketSystem.run events (.new pcb)).handed.map Prod.snd).flatten ++
        (socketSystem.run events (.new pcb)).sock.recvBuf =
      (events.filterMap SocketEvent.delivered).flatten ∧
    ((socketSystem.run events (.new pcb)).sock.recv ≠ none →
      (socketSystem.run events (.new pcb)).sock.recvBuf = []) ∧
    ((socketSystem.run events (.new pcb)).handed.map Prod.fst ++
        (socketSystem.run events (.new pcb)).sock.recv.toList).Subperm
      (events.filterMap SocketEvent.registers) := by
  have start : (SocketRun.new pcb : SocketRun RecvHandler SentHandler ErrHandler).Conserved :=
    ⟨rfl, fun _ => rfl, .refl []⟩
  have conserved := socketSystem.invariant SocketRun.Conserved
    (fun _ event _ conserved => conserved.step event) legal start
  have arrived := socketSystem.run_log (fun _ => True) SocketRun.arrived SocketEvent.delivered
    (fun _ _ _ _ => trivial) (fun run event _ _ => (run.step_logs event).1) legal trivial
  have registered := socketSystem.run_log (fun _ => True) SocketRun.registered
    SocketEvent.registers (fun _ _ _ _ => trivial)
    (fun run event _ _ => (run.step_logs event).2) legal trivial
  have once := conserved.once
  rw [registered] at once
  exact ⟨conserved.bytes.trans (congrArg List.flatten arrived), conserved.parked, once⟩

/-- The pcb of 10.0.0.2:5000 for 10.0.0.1:443. -/
abbrev samplePcb : TcpPcb := .fresh sampleDst.1 sampleSrc.1 sampleDst.2 sampleSrc.2

/-- Data in two pbufs for a parked handler, data for the buffer, a handler that finds it there,
and the end. -/
abbrev receivingRun : List (SocketEvent Nat Nat Nat) :=
  [.asyncRecv 0, .recv ⟨⟨[0x61], false⟩, [⟨[0x62], false⟩]⟩, .recv ⟨⟨[0x63], false⟩, []⟩,
    .asyncRecv 1, .asyncRecv 2, .fin, .asyncRecv 3]

theorem bytes_received_bothWays :
    socketSystem.Legal (.new samplePcb) receivingRun ∧
    ((socketSystem.run receivingRun (.new samplePcb)).handed.map Prod.snd).flatten ++
        (socketSystem.run receivingRun (.new samplePcb)).sock.recvBuf =
      (receivingRun.filterMap SocketEvent.delivered).flatten ∧
    ((socketSystem.run receivingRun (.new samplePcb)).sock.recv ≠ none →
      (socketSystem.run receivingRun (.new samplePcb)).sock.recvBuf = []) ∧
    ((socketSystem.run receivingRun (.new samplePcb)).handed.map Prod.fst ++
        (socketSystem.run receivingRun (.new samplePcb)).sock.recv.toList).Subperm
      (receivingRun.filterMap SocketEvent.registers) :=
  ⟨by decide, bytes_received samplePcb receivingRun (by decide)⟩

/-! ### Who is told that the connection is closed -/

namespace SocketRun

/-- Once the connection is closed no recv handler is parked, unless the err handler has been run
for it. -/
def NobodyWaits (run : SocketRun RecvHandler SentHandler ErrHandler) : Prop :=
  run.sock.pcbFreed = true → run.sock.recv = none ∨ run.told = true

/-- A FIN finds no recv handler parked; an error finds none, or an err handler. -/
def TellsOwner (run : SocketRun RecvHandler SentHandler ErrHandler) :
    SocketEvent RecvHandler SentHandler ErrHandler → Prop
  | .fin => run.sock.recv = none
  | .err _ => run.sock.recv = none ∨ run.sock.err.isSome = true
  | _ => True

instance (run : SocketRun RecvHandler SentHandler ErrHandler)
    (event : SocketEvent RecvHandler SentHandler ErrHandler) : Decidable (run.TellsOwner event) :=
  match event with
  | .fin => inferInstanceAs (Decidable (run.sock.recv = none))
  | .err _ => inferInstanceAs (Decidable (run.sock.recv = none ∨ run.sock.err.isSome = true))
  | .asyncRecv _ | .asyncSend .. | .asyncErr _ | .cancel | .recv _ | .sent _ => isTrue trivial

instance (run : SocketRun RecvHandler SentHandler ErrHandler) : Decidable run.NobodyWaits :=
  inferInstanceAs (Decidable (_ → _))

variable {run : SocketRun RecvHandler SentHandler ErrHandler}

/-- A step that closes nothing, parks nothing on a closed connection and takes back no notice. -/
theorem NobodyWaits.of_eq {next : SocketRun RecvHandler SentHandler ErrHandler}
    (nobody : run.NobodyWaits) (pcbFreed : next.sock.pcbFreed = run.sock.pcbFreed)
    (recv : next.sock.pcbFreed = true → next.sock.recv = run.sock.recv ∨ next.sock.recv = none)
    (told : run.told = true → next.told = true) : next.NobodyWaits := by
  intro closed
  rcases recv closed with same | dropped
  · rw [same]
    exact (nobody (pcbFreed ▸ closed)).imp_right told
  · exact Or.inl dropped

theorem asyncRecv_nobody (sock : Socket RecvHandler SentHandler ErrHandler)
    (handler : RecvHandler) :
    (sock.asyncRecv handler).1.pcbFreed = sock.pcbFreed ∧
      ((sock.asyncRecv handler).1.pcbFreed = true →
        (sock.asyncRecv handler).1.recv = sock.recv) := by
  unfold Socket.asyncRecv
  split
  · exact ⟨rfl, fun _ => rfl⟩
  · rename_i opened
    split
    · exact ⟨rfl, fun closed => absurd closed opened⟩
    · exact ⟨rfl, fun _ => rfl⟩

theorem asyncSend_pcbFreed (sock : Socket RecvHandler SentHandler ErrHandler) (pcb : TcpPcb)
    (packet : Bytes) (handler : SentHandler) (accepted : Bool) :
    (sock.asyncSend pcb packet handler accepted).1.pcbFreed = sock.pcbFreed := by
  unfold Socket.asyncSend
  split <;> rfl

theorem sentCallback_pcbFreed (sock : Socket RecvHandler SentHandler ErrHandler) (len : Nat) :
    (sock.sentCallback len).1.pcbFreed = sock.pcbFreed := by
  unfold Socket.sentCallback
  dsimp only
  split <;> rfl

theorem asyncErr_pcbFreed (sock : Socket RecvHandler SentHandler ErrHandler)
    (handler : ErrHandler) : (sock.asyncErr handler).1.pcbFreed = sock.pcbFreed := by
  unfold Socket.asyncErr
  split <;> rfl

theorem recvCallback_nobody (sock : Socket RecvHandler SentHandler ErrHandler) (pcb : TcpPcb)
    (packet : Bytes) :
    (sock.recvCallback pcb (some packet)).1.pcbFreed = sock.pcbFreed ∧
      ((sock.recvCallback pcb (some packet)).1.recv = sock.recv ∨
        (sock.recvCallback pcb (some packet)).1.recv = none) := by
  unfold Socket.recvCallback
  dsimp only
  split
  · exact ⟨rfl, Or.inr rfl⟩
  · exact ⟨rfl, Or.inl rfl⟩

/-- An err callback closes the connection, and runs the err handler if there is one. -/
theorem errCallback_nobody (sock : Socket RecvHandler SentHandler ErrHandler) (err : Err) :
    (sock.errCallback err).1.pcbFreed = true ∧
      (sock.errCallback err).2.isSome = sock.err.isSome := by
  unfold Socket.errCallback
  cases handler : sock.err with
  | some tmp => exact ⟨rfl, rfl⟩
  | none => exact ⟨rfl, rfl⟩

/-- From a state in which nobody waits, a step leads to another one exactly if it tells the
owner. -/
theorem NobodyWaits.step (nobody : run.NobodyWaits)
    (event : SocketEvent RecvHandler SentHandler ErrHandler) :
    (run.step event).NobodyWaits ↔ run.TellsOwner event := by
  cases event with
  | asyncRecv handler =>
    obtain ⟨pcbFreed, recv⟩ := asyncRecv_nobody run.sock handler
    exact iff_of_true (nobody.of_eq pcbFreed (fun closed => Or.inl (recv closed)) id) trivial
  | asyncSend packet handler accepted =>
    obtain ⟨recv, _⟩ := asyncSend_receiving run.sock run.pcb packet handler accepted
    exact iff_of_true (nobody.of_eq
      (asyncSend_pcbFreed run.sock run.pcb packet handler accepted) (fun _ => Or.inl recv) id)
      trivial
  | asyncErr handler =>
    obtain ⟨recv, _⟩ := asyncErr_receiving run.sock handler
    have told : run.told = true → (run.step (.asyncErr handler)).told = true := fun told => by
      show (run.told || _) = true
      rw [told, Bool.true_or]
    exact iff_of_true (nobody.of_eq (asyncErr_pcbFreed run.sock handler) (fun _ => Or.inl recv)
      told) trivial
  | cancel => exact iff_of_true (nobody.of_eq rfl (fun _ => Or.inr rfl) id) trivial
  | recv p =>
    obtain ⟨pcbFreed, recv⟩ := recvCallback_nobody run.sock run.pcb p.toStr
    exact iff_of_true (nobody.of_eq pcbFreed (fun _ => recv) id) trivial
  | fin =>
    constructor
    · intro next
      exact (next rfl).resolve_right Bool.false_ne_true
    · exact fun idle _ => Or.inl idle
  | sent len =>
    obtain ⟨recv, _⟩ := sentCallback_receiving run.sock len
    exact iff_of_true (nobody.of_eq (sentCallback_pcbFreed run.sock len) (fun _ => Or.inl recv)
      id) trivial
  | err err =>
    obtain ⟨recv, _⟩ := errCallback_receiving run.sock err
    obtain ⟨closed, told⟩ := errCallback_nobody run.sock err
    have next : (run.step (.err err)).NobodyWaits ↔
        ((run.sock.errCallback err).1.pcbFreed = true →
          (run.sock.errCallback err).1.recv = none ∨
            (run.sock.errCallback err).2.isSome = true) := Iff.rfl
    rw [next, closed, recv, told]
    exact ⟨fun waits => waits rfl, fun tells _ => tells⟩

end SocketRun

/-- In a run of a socket nobody is left waiting on a closed connection, exactly if each FIN finds
no recv handler parked and each error finds none or an err handler. -/
theorem nobody_waits (pcb : TcpPcb) (events : List (SocketEvent RecvHandler SentHandler ErrHandler))
    (legal : socketSystem.Legal (.new pcb) events) :
    socketSystem.Throughout SocketRun.NobodyWaits (.new pcb) events ↔
      socketSystem.Guarded SocketRun.TellsOwner (.new pcb) events :=
  socketSystem.throughout_iff (fun _ => True) SocketRun.NobodyWaits (fun _ _ _ _ _ => trivial)
    (fun _ event _ _ nobody => SocketRun.NobodyWaits.step nobody event) legal trivial
    (fun wrong => absurd wrong Bool.false_ne_true)

/-- A reset with a recv handler and an err handler in place, after which both come back. -/
abbrev resetRun : List (SocketEvent Nat Nat Nat) :=
  [.asyncErr 0, .asyncRecv 1, .err .rst, .asyncErr 2, .asyncRecv 3]

theorem nobody_waits_reset :
    socketSystem.Throughout SocketRun.NobodyWaits (.new samplePcb) resetRun ∧
      (socketSystem.run resetRun (.new samplePcb)).sock.pcbFreed = true :=
  ⟨(nobody_waits samplePcb resetRun (by decide)).mpr (by decide), by decide⟩

/-- The client closes an idle connection. -/
abbrev idleFinRun : List (SocketEvent Nat Nat Nat) := [.asyncErr 0, .asyncRecv 1, .fin]

/-- The recv handler stays parked and neither handler has been run. -/
theorem nobody_waits_idleFin :
    socketSystem.Legal (.new samplePcb) idleFinRun ∧
      ¬ socketSystem.Throughout SocketRun.NobodyWaits (.new samplePcb) idleFinRun :=
  ⟨by decide, by decide⟩

end Net2Tr
