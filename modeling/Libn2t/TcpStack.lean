/-
This file puts the pieces of an accepted connection together: lwIP's lists of
pcbs below, the accept channel of an `N2T` in the middle, and above it one
session for each `Socket` that is handed out.

A `Socket` holds the address of its pcb. The model therefore has a heap of
blocks, and a session works on the block at its address, whatever that block is
used for by then: a freed block keeps its contents and takes writes until it is
allocated again. What no function reads is recorded to state the results: the
4-tuples of the SYNs for which blocks were allocated, the SYN a pointer was
taken for, and the pcb as it was when its `Socket` was handed out.
-/

import Libn2t.Handshake
import Libn2t.TcpInput

namespace Net2Tr

/-- A `tcp_pcb *`, with the number of the SYN its block was allocated for when it was taken. -/
structure PcbRef where
  pointer : Nat
  syn : Nat
deriving DecidableEq, Repr

/-- A `Socket` that was handed out, with its session. -/
structure HandedSocket where
  ref : PcbRef
  pcb : TcpPcb
  session : TcpSession
deriving DecidableEq, Repr

/-- lwIP's TCP pcbs, the `N2T` whose listener is among them, and the sessions. -/
structure TcpStack where
  inp : Netif
  heap : Nat → TcpBlock
  active : List Nat
  timeWait : List Nat
  listen : List TcpPcbListen
  n2t : N2T Unit Unit Unit Unit PcbRef
  sockets : List HandedSocket
  syns : List FourTuple

/-- Memory that no pcb uses. -/
def TcpBlock.unused : TcpBlock where
  pcb := (TcpPcb.fresh (.of (.v4 ⟨0⟩)) (.of (.v4 ⟨0⟩)) 0 0).free
  netifIdx := 0
  callbackArg := none
  syn := 0

namespace TcpStack

/-- After the constructor of `N2T`. -/
def new (inp : Netif) : TcpStack where
  inp := inp
  heap := fun _ => .unused
  active := []
  timeWait := []
  listen := [n2tListener]
  n2t := .new
  sockets := []
  syns := []

variable (s : TcpStack)

def ref (pcb : Nat) : PcbRef := ⟨pcb, (s.heap pcb).syn⟩

/-- lwIP has not freed the pcb since the pointer was taken. -/
def owns (ref : PcbRef) : Bool :=
  !(s.heap ref.pointer).pcb.freed && (s.heap ref.pointer).syn = ref.syn

/-! ### Memory and lists -/

def updatePcb (pcb : Nat) (f : TcpPcb → TcpPcb) : TcpStack :=
  { s with heap := Function.update s.heap pcb { s.heap pcb with pcb := f (s.heap pcb).pcb } }

/-- `tcp_pcb_remove` and `tcp_free`, or what `tcp_slowtmr` does for them. -/
def free (pcb : Nat) : TcpStack :=
  { s.updatePcb pcb TcpPcb.free with
    active := s.active.erase pcb
    timeWait := s.timeWait.erase pcb }

/-- A change of the state, which may move the pcb to `tcp_tw_pcbs`. -/
def setState (pcb : Nat) (state : TcpState) : TcpStack :=
  let s := s.updatePcb pcb fun pcb => { pcb with state := state }
  if state = .timeWait then
    { s with active := s.active.erase pcb, timeWait := pcb :: s.timeWait }
  else s

/-- The pcb that `tcp_listen_input` sets up. -/
def synBlock (lpcb : TcpPcbListen) (segment : TcpSegment) : TcpBlock where
  pcb := { TcpPcb.fresh (.of segment.current.dest.ip) (.of segment.current.src.ip) segment.dest
    segment.src with state := .synRcvd }
  netifIdx := lpcb.netifIdx
  callbackArg := none
  syn := s.syns.length

/-- The allocated pcb is set up and registered. -/
def register (pcb : Nat) (lpcb : TcpPcbListen) (segment : TcpSegment) : TcpStack :=
  { s with
    heap := Function.update s.heap pcb (s.synBlock lpcb segment)
    active := pcb :: s.active
    syns := s.syns ++ [segment.tuple] }

/-! ### Sessions -/

/-- The session of a socket with the pcb at its address. -/
def load (socket : HandedSocket) : TcpSession :=
  { socket.session with pcb := (s.heap socket.ref.pointer).pcb }

/-- A method of the session of a socket runs. -/
def call (index : Nat) (f : TcpSession → TcpSession) : TcpStack :=
  match s.sockets[index]? with
  | none => s
  | some socket =>
    let session := f (s.load socket)
    { s.updatePcb socket.ref.pointer fun _ => session.pcb with
      sockets := s.sockets.set index { socket with session := session } }

/-- A callback runs that `set_pcb` has registered, if it has. -/
def callback (pcb : Nat) (f : TcpSession → TcpSession) : TcpStack :=
  match (s.heap pcb).callbackArg with
  | none => s
  | some index => s.call index f

/-- The call of an accept handler, which starts the session of the socket. -/
def handOut : Option (AcceptCall Unit Unit PcbRef) → TcpStack
  | none => s
  | some call =>
    let block := s.heap call.pcb.pointer
    let session := (TcpSession.accepted block.pcb).start
    { s with
      heap := Function.update s.heap call.pcb.pointer
        { block with pcb := session.pcb, callbackArg := some s.sockets.length }
      sockets := s.sockets ++ [⟨call.pcb, block.pcb, session⟩] }

/-- The accept callback. -/
def acceptCallback (pcb : Nat) : TcpStack :=
  let (n2t, call) := s.n2t.acceptCallback (s.ref pcb) true
  { s with n2t := n2t }.handOut call

/-! ### Ends of connections -/

/-- `tcp_abandon`, and the timeouts of `tcp_slowtmr`. -/
def abandon (pcb : Nat) : TcpStack :=
  let errf := (s.heap pcb).pcb.errf && (s.heap pcb).pcb.state ≠ .timeWait
  let s := s.free pcb
  if errf then s.callback pcb fun session => (session.errEvent .abrt).release else s

/-- `tcp_input` after `TF_RESET`. -/
def reset (pcb : Nat) : TcpStack :=
  let s :=
    if (s.heap pcb).pcb.errf then s.callback pcb fun session => (session.errEvent .rst).release
    else s
  s.free pcb

/-- The recv callback is called for the end of the stream, at first `tcp_recv_null`. -/
def closed (pcb : Nat) : TcpStack :=
  match (s.heap pcb).callbackArg with
  | none => s.updatePcb pcb TcpPcb.close
  | some _ => s.callback pcb fun session => (session.recvEvent none).release

/-! ### `tcp_input` -/

/-- What follows `tcp_process` in `tcp_input` when the connection was not reset. -/
def deliver (pcb : Nat) (processed : Processed) : TcpStack :=
  let s :=
    if 0 < processed.acked then
      s.callback pcb fun session => session.step (.sent processed.acked)
    else s
  if processed.closed then s.free pcb
  else if processed.data ≠ [] ∧ (s.heap pcb).pcb.state.rxClosed then s.abandon pcb
  else
    let s :=
      if processed.data ≠ [] then
        s.callback pcb fun session => session.step (.recv processed.data)
      else s
    if processed.gotFin then s.closed pcb else s

/-- The part of `tcp_input` for a segment that belongs to a connection. -/
def process (pcb : Nat) (segment : TcpSegment) (found : Received) : TcpStack :=
  let processed := tcpProcess (s.heap pcb).pcb.state segment found
  let s := if processed.accept then (s.setState pcb .established).acceptCallback pcb else s
  let s := s.setState pcb processed.state
  if processed.reset then s.reset pcb else s.deliver pcb processed

/-- `tcp_listen_input`. `place` is what `tcp_alloc` returns, and `enqueued` whether the SYN|ACK
can be put into the queue; the accept callback ignores a failed allocation. -/
def listenInput (lpcb : TcpPcbListen) (segment : TcpSegment) (place : Option Nat)
    (enqueued : Bool) : TcpStack :=
  if segment.has tcpRst then s
  else if segment.has tcpAck then s
  else if segment.has tcpSyn then
    match place with
    | none => s
    | some pcb =>
      let s := s.register pcb lpcb segment
      if enqueued then s else s.abandon pcb
  else s

/-- `tcp_input`. A segment for a pcb in `TIME_WAIT` is answered at most. -/
def input (segment : TcpSegment) (found : Received) (place : Option Nat) (enqueued : Bool) :
    TcpStack :=
  if segment.passes = false then s
  else
    match MoveToFront.search (fun pcb => (s.heap pcb).isFor s.inp segment) s.active with
    | some (pcb, active) => { s with active := active }.process pcb segment found
    | none =>
      if s.timeWait.any fun pcb => (s.heap pcb).isFor s.inp segment then s
      else
        match tcpListenLoop s.inp segment.current.dest.ip s.listen none with
        | none => s
        | some lpcb =>
          { s with listen := lpcb :: s.listen.erase lpcb }.listenInput lpcb segment place enqueued

end TcpStack

/-! ### Runs -/

/-- What happens: a segment arrives; lwIP gives up an active pcb or is done with one in
`TIME_WAIT`, by its timers or to make room for a new one; the owner of the `N2T` registers an
accept handler or cancels its handlers; an operation of a session on its connection to the proxy
completes. -/
inductive TcpStackEvent where
  | segment (segment : TcpSegment) (found : Received) (place : Option Nat) (enqueued : Bool)
  | timeout (pcb : Nat)
  | expire (pcb : Nat)
  | asyncAccept
  | cancel
  | session (index : Nat) (event : TcpEvent)
deriving DecidableEq, Repr

namespace TcpStack

variable (s : TcpStack)

/-- The event can happen. Only memory that no pcb uses is allocated. -/
def enabled : TcpStackEvent → Prop
  | .segment _ _ place _ => ∀ pcb ∈ place, (s.heap pcb).pcb.freed = true
  | .timeout pcb => pcb ∈ s.active
  | .expire pcb => pcb ∈ s.timeWait
  | .asyncAccept => True
  | .cancel => True
  | .session index event =>
    ∃ socket ∈ s.sockets[index]?, event.completion = true ∧ (s.load socket).enabled event

def step : TcpStackEvent → TcpStack
  | .segment segment found place enqueued => s.input segment found place enqueued
  | .timeout pcb => s.abandon pcb
  | .expire pcb => s.free pcb
  | .asyncAccept =>
    let (n2t, call) := s.n2t.asyncAccept () ()
    { s with n2t := n2t }.handOut call
  | .cancel => { s with n2t := s.n2t.cancel }
  | .session index event => s.call index fun session => session.step event

instance (event : TcpStackEvent) : Decidable (s.enabled event) :=
  match event with
  | .segment _ _ none _ => isTrue fun _ wrong => by cases wrong
  | .segment _ _ (some pcb) _ =>
    decidable_of_iff ((s.heap pcb).pcb.freed = true)
      ⟨fun freed _ same => Option.mem_some_iff.mp same ▸ freed,
        fun all => all pcb (Option.mem_some_iff.mpr rfl)⟩
  | .timeout pcb => inferInstanceAs (Decidable (pcb ∈ s.active))
  | .expire pcb => inferInstanceAs (Decidable (pcb ∈ s.timeWait))
  | .asyncAccept => isTrue trivial
  | .cancel => isTrue trivial
  | .session index event =>
    match found : s.sockets[index]? with
    | none => isFalse fun ⟨_, member, _⟩ => by rw [found] at member; cases member
    | some socket =>
      decidable_of_iff (event.completion = true ∧ (s.load socket).enabled event)
        ⟨fun both => ⟨socket, found, both⟩, fun ⟨other, member, both⟩ => by
          rw [found] at member
          exact Option.mem_some_iff.mp member ▸ both⟩

end TcpStack

def tcpStackSystem : Transition.System TcpStack TcpStackEvent where
  enabled := TcpStack.enabled
  step := TcpStack.step

instance (s : TcpStack) (event : TcpStackEvent) : Decidable (tcpStackSystem.enabled s event) :=
  inferInstanceAs (Decidable (s.enabled event))

end Net2Tr
