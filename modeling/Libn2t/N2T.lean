/-
This file models `N2T`: its three channels for output packets, accepted
connections and UDP packets, each a one-shot handler slot and a queue, and the
callbacks by which lwIP fills them.

The functions return the call of a handler they end with. The pcb of an
accepted connection is given to the `Socket` right before the handler is
called, and which `Socket` that is comes from a field of its own, so the accept
channel is a channel only as long as that field belongs to the waiting handler.
-/

import Libn2t.Address
import Libn2t.HandOff
import Libn2t.Transition

namespace Net2Tr

open HandOff

/-- `UDPPacket`. -/
structure UdpPacket where
  srcAddr : Text
  srcPort : Port
  dstAddr : Text
  dstPort : Port
  data : Bytes
deriving DecidableEq, Repr

/-- The channels of `N2TInternal`; `pendingSocket` is not initialised by the constructor. -/
structure N2T (OutputHandler NewConnectionHandler UdpRecvHandler SocketRef Pcb : Type) where
  output : Option OutputHandler
  newConnection : Option NewConnectionHandler
  udpRecv : Option UdpRecvHandler
  outputQue : List Bytes
  connectionQue : List Pcb
  udpQue : List UdpPacket
  pendingSocket : Option SocketRef
deriving DecidableEq, Repr

/-- `set_pcb` on a `Socket`, followed by the call of a handler. -/
structure AcceptCall (NewConnectionHandler SocketRef Pcb : Type) where
  socket : Option SocketRef
  pcb : Pcb
  handler : NewConnectionHandler
deriving DecidableEq, Repr

variable {OutputHandler NewConnectionHandler UdpRecvHandler SocketRef Pcb : Type}

namespace N2T

variable (n2t : N2T OutputHandler NewConnectionHandler UdpRecvHandler SocketRef Pcb)

/-- No handler registered, nothing queued. -/
def new : N2T OutputHandler NewConnectionHandler UdpRecvHandler SocketRef Pcb where
  output := none
  newConnection := none
  udpRecv := none
  outputQue := []
  connectionQue := []
  udpQue := []
  pendingSocket := none

/-! ### The channels -/

def outputChannel : Channel Bytes OutputHandler := ⟨n2t.output, n2t.outputQue⟩

def udpChannel : Channel UdpPacket UdpRecvHandler := ⟨n2t.udpRecv, n2t.udpQue⟩

/-- The waiting accept handler together with the `Socket` its connection will be given to. -/
def acceptChannel : Channel Pcb (Option SocketRef × NewConnectionHandler) :=
  ⟨n2t.newConnection.map fun handler => (n2t.pendingSocket, handler), n2t.connectionQue⟩

def withOutput (channel : Channel Bytes OutputHandler) :
    N2T OutputHandler NewConnectionHandler UdpRecvHandler SocketRef Pcb :=
  { n2t with output := channel.slot, outputQue := channel.queue }

def withUdp (channel : Channel UdpPacket UdpRecvHandler) :
    N2T OutputHandler NewConnectionHandler UdpRecvHandler SocketRef Pcb :=
  { n2t with udpRecv := channel.slot, udpQue := channel.queue }

/-! ### The functions -/

/-- `N2TInternal::output_cb`. -/
def outputCb (packet : Bytes) :
    N2T OutputHandler NewConnectionHandler UdpRecvHandler SocketRef Pcb ×
      Option (OutputHandler × Bytes) :=
  (n2t.withOutput (n2t.outputChannel.produce packet).1, (n2t.outputChannel.produce packet).2)

/-- The accept callback; `ok` is `err == ERR_OK`. -/
def acceptCallback (newpcb : Pcb) (ok : Bool) :
    N2T OutputHandler NewConnectionHandler UdpRecvHandler SocketRef Pcb ×
      Option (AcceptCall NewConnectionHandler SocketRef Pcb) :=
  if ok then
    match n2t.newConnection with
    | some tmp => ({ n2t with newConnection := none }, some ⟨n2t.pendingSocket, newpcb, tmp⟩)
    | none => ({ n2t with connectionQue := n2t.connectionQue ++ [newpcb] }, none)
  else (n2t, none)

/-- The udp_recv callback, from the packet on that it has put together. -/
def udpRecvCallback (packet : UdpPacket) :
    N2T OutputHandler NewConnectionHandler UdpRecvHandler SocketRef Pcb ×
      Option (UdpRecvHandler × UdpPacket) :=
  (n2t.withUdp (n2t.udpChannel.produce packet).1, (n2t.udpChannel.produce packet).2)

/-- `N2T::async_output`. -/
def asyncOutput (handler : OutputHandler) :
    N2T OutputHandler NewConnectionHandler UdpRecvHandler SocketRef Pcb ×
      Option (OutputHandler × Bytes) :=
  (n2t.withOutput (n2t.outputChannel.register handler).1,
    (n2t.outputChannel.register handler).2)

/-- `N2T::async_accept`. -/
def asyncAccept (s : SocketRef) (handler : NewConnectionHandler) :
    N2T OutputHandler NewConnectionHandler UdpRecvHandler SocketRef Pcb ×
      Option (AcceptCall NewConnectionHandler SocketRef Pcb) :=
  match n2t.connectionQue with
  | [] => ({ n2t with newConnection := some handler, pendingSocket := some s }, none)
  | pcb :: rest => ({ n2t with connectionQue := rest }, some ⟨some s, pcb, handler⟩)

/-- `N2T::async_udp_recv`. -/
def asyncUdpRecv (handler : UdpRecvHandler) :
    N2T OutputHandler NewConnectionHandler UdpRecvHandler SocketRef Pcb ×
      Option (UdpRecvHandler × UdpPacket) :=
  (n2t.withUdp (n2t.udpChannel.register handler).1, (n2t.udpChannel.register handler).2)

/-- `N2T::cancel`. -/
def cancel : N2T OutputHandler NewConnectionHandler UdpRecvHandler SocketRef Pcb :=
  { n2t with output := none, newConnection := none, udpRecv := none }

end N2T

/-- The handler and the pcb of an accept call, as an item handed over by a channel. -/
def AcceptCall.handed (call : AcceptCall NewConnectionHandler SocketRef Pcb) :
    (Option SocketRef × NewConnectionHandler) × Pcb :=
  ((call.socket, call.handler), call.pcb)

namespace N2T

variable (n2t : N2T OutputHandler NewConnectionHandler UdpRecvHandler SocketRef Pcb)

/-! ### The accept channel is a channel -/

theorem acceptCallback_produce (newpcb : Pcb) :
    (n2t.acceptCallback newpcb true).1.acceptChannel = (n2t.acceptChannel.produce newpcb).1 ∧
      (n2t.acceptCallback newpcb true).2.map AcceptCall.handed =
        (n2t.acceptChannel.produce newpcb).2 := by
  rw [acceptCallback, if_pos rfl]
  cases waiting : n2t.newConnection with
  | some tmp =>
    have slot : n2t.acceptChannel.slot = some (n2t.pendingSocket, tmp) := by
      rw [acceptChannel, waiting]
      rfl
    rw [Channel.produce_waiting slot]
    exact ⟨rfl, rfl⟩
  | none =>
    have slot : n2t.acceptChannel.slot = none := by
      rw [acceptChannel, waiting]
      rfl
    rw [Channel.produce_idle slot]
    refine ⟨?_, rfl⟩
    simp only [acceptChannel, waiting, Option.map_none]

theorem asyncAccept_register (s : SocketRef) (handler : NewConnectionHandler) :
    (n2t.asyncAccept s handler).1.acceptChannel =
        (n2t.acceptChannel.register (some s, handler)).1 ∧
      (n2t.asyncAccept s handler).2.map AcceptCall.handed =
        (n2t.acceptChannel.register (some s, handler)).2 := by
  rw [asyncAccept]
  cases queued : n2t.connectionQue with
  | nil =>
    rw [Channel.register_empty queued]
    refine ⟨?_, rfl⟩
    simp only [acceptChannel, Option.map_some]
  | cons pcb rest =>
    rw [Channel.register_queued queued]
    exact ⟨rfl, rfl⟩

/-- Accepting a connection leaves the other channels alone. -/
theorem acceptCallback_others (newpcb : Pcb) (ok : Bool) :
    (n2t.acceptCallback newpcb ok).1.outputChannel = n2t.outputChannel ∧
      (n2t.acceptCallback newpcb ok).1.udpChannel = n2t.udpChannel := by
  unfold acceptCallback
  split
  · split <;> exact ⟨rfl, rfl⟩
  · exact ⟨rfl, rfl⟩

theorem asyncAccept_others (s : SocketRef) (handler : NewConnectionHandler) :
    (n2t.asyncAccept s handler).1.outputChannel = n2t.outputChannel ∧
      (n2t.asyncAccept s handler).1.udpChannel = n2t.udpChannel := by
  unfold asyncAccept
  split <;> exact ⟨rfl, rfl⟩

theorem acceptChannel_cancel : n2t.cancel.acceptChannel = n2t.acceptChannel.cancel := rfl

end N2T

/-! ### Runs -/

/-- A running handler, with what it was called with. -/
inductive N2TCall (OutputHandler NewConnectionHandler UdpRecvHandler SocketRef Pcb : Type) where
  | output (handler : OutputHandler) (packet : Bytes)
  | accept (call : AcceptCall NewConnectionHandler SocketRef Pcb)
  | udpRecv (handler : UdpRecvHandler) (packet : UdpPacket)
deriving DecidableEq, Repr

/-- An `N2T` in use: the handlers that are running, the innermost first, and what each channel
has seen. -/
structure N2TRun (OutputHandler NewConnectionHandler UdpRecvHandler SocketRef Pcb : Type) where
  n2t : N2T OutputHandler NewConnectionHandler UdpRecvHandler SocketRef Pcb
  running : List (N2TCall OutputHandler NewConnectionHandler UdpRecvHandler SocketRef Pcb)
  outputs : History Bytes OutputHandler
  accepts : History Pcb (Option SocketRef × NewConnectionHandler)
  udps : History UdpPacket UdpRecvHandler
deriving DecidableEq, Repr

/-- What the stack, the owner of the `N2T` and its handlers do. A callback or a function may be
called at any time, by a running handler as well as by nobody; a running handler may return. -/
inductive N2TEvent (OutputHandler NewConnectionHandler UdpRecvHandler SocketRef Pcb : Type) where
  | outputCb (packet : Bytes)
  | acceptCallback (newpcb : Pcb) (ok : Bool)
  | udpRecvCallback (packet : UdpPacket)
  | asyncOutput (handler : OutputHandler)
  | asyncAccept (s : SocketRef) (handler : NewConnectionHandler)
  | asyncUdpRecv (handler : UdpRecvHandler)
  | cancel
  | handlerReturns
deriving DecidableEq, Repr

namespace N2TRun

def new : N2TRun OutputHandler NewConnectionHandler UdpRecvHandler SocketRef Pcb where
  n2t := .new
  running := []
  outputs := .empty
  accepts := .empty
  udps := .empty

variable (run : N2TRun OutputHandler NewConnectionHandler UdpRecvHandler SocketRef Pcb)

/-- Only a running handler can return. -/
def enabled : N2TEvent OutputHandler NewConnectionHandler UdpRecvHandler SocketRef Pcb → Prop
  | .handlerReturns => run.running ≠ []
  | _ => True

/-- The effect of an event. A handler that is called is the innermost running one. -/
def step : N2TEvent OutputHandler NewConnectionHandler UdpRecvHandler SocketRef Pcb →
    N2TRun OutputHandler NewConnectionHandler UdpRecvHandler SocketRef Pcb
  | .outputCb packet =>
    let (n2t, call) := run.n2t.outputCb packet
    { run with
      n2t := n2t
      running := (call.map fun call => .output call.1 call.2).toList ++ run.running
      outputs := run.outputs.produced packet call }
  | .acceptCallback newpcb ok =>
    let (n2t, call) := run.n2t.acceptCallback newpcb ok
    { run with
      n2t := n2t
      running := (call.map .accept).toList ++ run.running
      accepts :=
        if ok then run.accepts.produced newpcb (call.map AcceptCall.handed) else run.accepts }
  | .udpRecvCallback packet =>
    let (n2t, call) := run.n2t.udpRecvCallback packet
    { run with
      n2t := n2t
      running := (call.map fun call => .udpRecv call.1 call.2).toList ++ run.running
      udps := run.udps.produced packet call }
  | .asyncOutput handler =>
    let (n2t, call) := run.n2t.asyncOutput handler
    { run with
      n2t := n2t
      running := (call.map fun call => .output call.1 call.2).toList ++ run.running
      outputs := run.outputs.subscribed handler call }
  | .asyncAccept s handler =>
    let (n2t, call) := run.n2t.asyncAccept s handler
    { run with
      n2t := n2t
      running := (call.map .accept).toList ++ run.running
      accepts := run.accepts.subscribed (some s, handler) (call.map AcceptCall.handed) }
  | .asyncUdpRecv handler =>
    let (n2t, call) := run.n2t.asyncUdpRecv handler
    { run with
      n2t := n2t
      running := (call.map fun call => .udpRecv call.1 call.2).toList ++ run.running
      udps := run.udps.subscribed handler call }
  | .cancel => { run with n2t := run.n2t.cancel }
  | .handlerReturns => { run with running := run.running.tail }

/-- All three channels keep their promises. -/
structure Sound : Prop where
  outputs : HandOff.Sound run.n2t.outputChannel run.outputs
  accepts : HandOff.Sound run.n2t.acceptChannel run.accepts
  udps : HandOff.Sound run.n2t.udpChannel run.udps

variable {run}

theorem Sound.step (sound : run.Sound)
    (event : N2TEvent OutputHandler NewConnectionHandler UdpRecvHandler SocketRef Pcb) :
    (run.step event).Sound := by
  cases event with
  | outputCb packet => exact ⟨sound.outputs.produce packet, sound.accepts, sound.udps⟩
  | acceptCallback newpcb ok =>
    cases ok with
    | false => exact sound
    | true =>
      obtain ⟨channel, call⟩ := run.n2t.acceptCallback_produce newpcb
      have produced := sound.accepts.produce newpcb
      rw [← channel, ← call] at produced
      have untouched := run.n2t.acceptCallback_others newpcb true
      exact ⟨untouched.1.symm ▸ sound.outputs, produced, untouched.2.symm ▸ sound.udps⟩
  | udpRecvCallback packet => exact ⟨sound.outputs, sound.accepts, sound.udps.produce packet⟩
  | asyncOutput handler => exact ⟨sound.outputs.register handler, sound.accepts, sound.udps⟩
  | asyncAccept s handler =>
    obtain ⟨channel, call⟩ := run.n2t.asyncAccept_register s handler
    have registered := sound.accepts.register (some s, handler)
    rw [← channel, ← call] at registered
    have untouched := run.n2t.asyncAccept_others s handler
    exact ⟨untouched.1.symm ▸ sound.outputs, registered, untouched.2.symm ▸ sound.udps⟩
  | asyncUdpRecv handler => exact ⟨sound.outputs, sound.accepts, sound.udps.register handler⟩
  | cancel =>
    refine ⟨sound.outputs.cancel, ?_, sound.udps.cancel⟩
    rw [show (run.step .cancel).n2t.acceptChannel = run.n2t.acceptChannel.cancel from
      run.n2t.acceptChannel_cancel]
    exact sound.accepts.cancel
  | handlerReturns => exact ⟨sound.outputs, sound.accepts, sound.udps⟩

end N2TRun

/-- `N2T` as a transition system. -/
def n2tSystem : Transition.System
    (N2TRun OutputHandler NewConnectionHandler UdpRecvHandler SocketRef Pcb)
    (N2TEvent OutputHandler NewConnectionHandler UdpRecvHandler SocketRef Pcb) where
  enabled := N2TRun.enabled
  step := N2TRun.step

instance (run : N2TRun OutputHandler NewConnectionHandler UdpRecvHandler SocketRef Pcb)
    (event : N2TEvent OutputHandler NewConnectionHandler UdpRecvHandler SocketRef Pcb) :
    Decidable (n2tSystem.enabled run event) :=
  match event with
  | .handlerReturns => inferInstanceAs (Decidable (run.running ≠ []))
  | .outputCb _ | .acceptCallback _ _ | .udpRecvCallback _ | .asyncOutput _ | .asyncAccept _ _
  | .asyncUdpRecv _ | .cancel => isTrue trivial

/-- In every run, however the calls of handlers are nested, each channel keeps its promises: no
handler waits while items are queued, the items handed over and those queued are the arrived
ones in order, and the calls of handlers go to distinct registrations in order. For accepted
connections a registration is a `Socket` with its handler, and a call names the `Socket` that
was given the pcb. -/
theorem hand_off
    (events : List (N2TEvent OutputHandler NewConnectionHandler UdpRecvHandler SocketRef Pcb))
    (legal : n2tSystem.Legal .new events) : (n2tSystem.run events .new).Sound :=
  n2tSystem.invariant N2TRun.Sound (fun _ event _ sound => sound.step event) legal
    ⟨sound_empty, sound_empty, sound_empty⟩

/-- Two packets arrive before any handler is registered; the first handler registers the second
one while it runs. -/
abbrev nestedRun : List (N2TEvent Nat Nat Nat Nat Nat) :=
  [.outputCb [0x61], .outputCb [0x62], .asyncOutput 1, .asyncOutput 2, .handlerReturns,
    .asyncAccept 7 3, .outputCb [0x63], .handlerReturns, .acceptCallback 9 true]

theorem hand_off_nested : (n2tSystem.run nestedRun .new).Sound := hand_off nestedRun (by decide)

end Net2Tr
