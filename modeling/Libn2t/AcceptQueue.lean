/-
This file models the connections that wait in `connection_que` of an `N2T`
because no accept handler is registered, and the `Socket`s they are given to
when one is.

Until `set_pcb` is called a connection has lwIP's default callbacks only:
`tcp_recv_null` acknowledges data and drops it, and nobody is told when lwIP
frees the pcb.

The connections are numbered by their SYNs and a number is not used again. What
becomes of memory when a freed block is used is not modelled here.
-/

import Libn2t.N2T
import Libn2t.SocketRun
import Libn2t.TcpInput

namespace Net2Tr

/-- A connection: its pcb, which is part of `run`; whether `set_pcb` has given it to a `Socket`,
which is the rest of `run`; and the data lwIP has passed up since the connection was established.
No function reads what it has passed up. -/
structure Connection (RecvHandler SentHandler ErrHandler : Type) where
  given : Bool
  run : SocketRun RecvHandler SentHandler ErrHandler
  arrived : List Bytes

/-- An `N2T` with the connections of its listener. `pending` is the segment that `tcp_input` is
busy with, after `tcp_process`; `dangling` are the pcbs lwIP had freed when they were given to a
`Socket`. -/
structure AcceptQueue (RecvHandler SentHandler ErrHandler : Type) where
  n2t : N2T Unit Unit Unit Unit Nat
  connections : Nat → Connection RecvHandler SentHandler ErrHandler
  count : Nat
  pending : Option (Nat × Processed)
  dangling : List Nat

/-- What happens: a SYN arrives; `tcp_input` processes a segment of a connection, and then goes on
with it in stages; lwIP gives a connection up; the owner of the `N2T` registers an accept handler
or cancels its handlers; the owner of a `Socket` calls a method of it, or deletes it. What a
handler does that is called from a stage comes before the next stage. -/
inductive AcceptEvent (RecvHandler SentHandler ErrHandler : Type) where
  | syn (segment : TcpSegment)
  | segment (conn : Nat) (segment : TcpSegment) (found : Received)
  | proceed
  | timeout (conn : Nat)
  | asyncAccept
  | cancel
  | socket (conn : Nat) (event : SocketEvent RecvHandler SentHandler ErrHandler)
  | delete (conn : Nat)

variable {RecvHandler SentHandler ErrHandler : Type}

/-- A method of `Socket`, and no callback. -/
def SocketEvent.isCall : SocketEvent RecvHandler SentHandler ErrHandler → Bool
  | .asyncRecv _ | .asyncSend .. | .asyncErr _ | .cancel => true
  | .recv _ | .fin | .sent _ | .err _ => false

namespace Connection

variable (c : Connection RecvHandler SentHandler ErrHandler)

def withPcb (pcb : TcpPcb) : Connection RecvHandler SentHandler ErrHandler :=
  { c with run := { c.run with pcb := pcb } }

/-- No connection yet. -/
def unused : Connection RecvHandler SentHandler ErrHandler where
  given := false
  run := { SocketRun.new samplePcb with pcb := samplePcb.free }
  arrived := []

/-- What `tcp_listen_input` sets up. -/
def ofSyn (segment : TcpSegment) : Connection RecvHandler SentHandler ErrHandler :=
  unused.withPcb
    { TcpPcb.fresh (.of segment.current.dest.ip) (.of segment.current.src.ip) segment.dest
        segment.src with
      state := .synRcvd }

def setState (state : TcpState) : Connection RecvHandler SentHandler ErrHandler :=
  c.withPcb { c.run.pcb with state := state }

/-- `tcp_process` before it calls the accept callback. -/
def establish : Connection RecvHandler SentHandler ErrHandler :=
  { c.setState .established with arrived := [] }

/-- `Socket::set_pcb` of a new `Socket`. -/
def setPcb : Connection RecvHandler SentHandler ErrHandler :=
  { c with
    given := true
    run := { SocketRun.new c.run.pcb with pcb := Socket.setPcb c.run.pcb } }

def free : Connection RecvHandler SentHandler ErrHandler := c.withPcb c.run.pcb.free

/-- lwIP frees the pcb and calls the err callback, if one is registered. -/
def fail (err : Err) : Connection RecvHandler SentHandler ErrHandler :=
  if c.run.pcb.errf then { c with run := c.run.step (.err err) } else c.free

/-- lwIP gives the connection up. -/
def timeout : Connection RecvHandler SentHandler ErrHandler :=
  if c.run.pcb.state = .timeWait then c.free else c.fail .abrt

/-- `TCP_EVENT_SENT`. -/
def sent (len : Nat) : Connection RecvHandler SentHandler ErrHandler :=
  if c.run.pcb.sent then { c with run := c.run.step (.sent len) }
  else c.withPcb { c.run.pcb with unacked := c.run.pcb.unacked - len }

/-- Data in one pbuf. -/
def chainOf (data : Bytes) : PbufChain := ⟨⟨data, false⟩, []⟩

/-- `TCP_EVENT_RECV`; what comes after the callbacks of a `Socket` were unregistered is not
recorded. -/
def pass (data : Bytes) : Connection RecvHandler SentHandler ErrHandler :=
  if c.given = false then { c with arrived := c.arrived ++ [data] }
  else if c.run.pcb.recv then
    { c with run := c.run.step (.recv (chainOf data)), arrived := c.arrived ++ [data] }
  else c

/-- `TCP_EVENT_CLOSED`, which calls `tcp_recv_null` at first. -/
def closed : Connection RecvHandler SentHandler ErrHandler :=
  if c.given = false then c.withPcb c.run.pcb.close
  else if c.run.pcb.recv then
    let (sock, pcb, _) := c.run.sock.recvCallback c.run.pcb none
    { c with run := { c.run with sock := sock, pcb := pcb, told := false } }
  else c

/-- `Socket::~Socket`. -/
def delete : Connection RecvHandler SentHandler ErrHandler :=
  let (sock, _) := c.run.sock.cancel c.run.pcb
  { c with run := { c.run with sock := sock, pcb := c.run.sock.destructor c.run.pcb } }

/-- Each byte that arrived was given to a recv handler or waits for the next one, and bytes wait
only in a `Socket` that still gives them away. -/
structure Reached : Prop where
  bytes : (c.run.handed.map Prod.snd).flatten ++ c.run.sock.recvBuf = c.arrived.flatten
  askable : c.run.sock.pcbFreed = true → c.run.sock.recvBuf = []

/-- If its callback is registered, no bytes wait in the `Socket`. -/
def Drained (callback : TcpPcb → Bool) : Prop :=
  c.given = true → callback c.run.pcb = true → c.run.sock.recvBuf = []

end Connection

namespace AcceptQueue

/-- After the constructor of `N2T`. -/
def new : AcceptQueue RecvHandler SentHandler ErrHandler where
  n2t := .new
  connections := fun _ => .unused
  count := 0
  pending := none
  dangling := []

variable (s : AcceptQueue RecvHandler SentHandler ErrHandler)

/-- The pcb of a connection. -/
def pcb (conn : Nat) : TcpPcb := (s.connections conn).run.pcb

def update (conn : Nat) (c : Connection RecvHandler SentHandler ErrHandler) :
    AcceptQueue RecvHandler SentHandler ErrHandler :=
  { s with connections := Function.update s.connections conn c }

/-- `set_pcb` and the call of the accept handler. -/
def handOut : Option (AcceptCall Unit Unit Nat) → AcceptQueue RecvHandler SentHandler ErrHandler
  | none => s
  | some call =>
    { s.update call.pcb (s.connections call.pcb).setPcb with
      dangling := if (s.pcb call.pcb).freed then s.dangling ++ [call.pcb] else s.dangling }

/-- The accept callback. -/
def acceptCallback (conn : Nat) : AcceptQueue RecvHandler SentHandler ErrHandler :=
  let (n2t, call) := s.n2t.acceptCallback conn true
  { s with n2t := n2t }.handOut call

/-- `tcp_input` up to `tcp_process`, and `TF_RESET`. -/
def input (conn : Nat) (segment : TcpSegment) (found : Received) :
    AcceptQueue RecvHandler SentHandler ErrHandler :=
  let processed := tcpProcess (s.pcb conn).state segment found
  let s :=
    if processed.accept then (s.update conn (s.connections conn).establish).acceptCallback conn
    else s
  let s := s.update conn ((s.connections conn).setState processed.state)
  if processed.reset then s.update conn ((s.connections conn).fail .rst)
  else { s with pending := some (conn, processed) }

/-- The next stage of `tcp_input`: the sent callback, the end of a connection we have closed, data,
and the end of the stream. -/
def proceed : AcceptQueue RecvHandler SentHandler ErrHandler :=
  match s.pending with
  | none => s
  | some (conn, processed) =>
    let c := s.connections conn
    if 0 < processed.acked then
      { s.update conn (c.sent processed.acked) with
        pending := some (conn, { processed with acked := 0 }) }
    else if processed.closed then { s.update conn c.free with pending := none }
    else if processed.data ≠ [] then
      if c.run.pcb.state.rxClosed then { s.update conn (c.fail .abrt) with pending := none }
      else
        { s.update conn (c.pass processed.data) with
          pending := some (conn, { processed with data := [] }) }
    else if processed.gotFin then { s.update conn c.closed with pending := none }
    else { s with pending := none }

/-- The event can happen. While `tcp_input` is busy only handlers act. -/
def enabled : AcceptEvent RecvHandler SentHandler ErrHandler → Prop
  | .syn segment => s.pending = none ∧ segment.passes = true ∧ segment.has tcpSyn = true ∧
      segment.has tcpAck = false ∧ segment.has tcpRst = false ∧
      ∀ conn < s.count, (s.pcb conn).freed = false → (s.pcb conn).tuple ≠ segment.tuple
  | .segment conn segment _ => s.pending = none ∧ segment.passes = true ∧ conn < s.count ∧
      (s.pcb conn).freed = false ∧ (s.pcb conn).state ≠ .timeWait ∧
      (s.pcb conn).tuple = segment.tuple
  | .proceed => s.pending ≠ none
  | .timeout conn => s.pending = none ∧ conn < s.count ∧ (s.pcb conn).freed = false
  | .asyncAccept => True
  | .cancel => True
  | .socket conn event => (s.connections conn).given = true ∧ event.isCall = true ∧
      (s.connections conn).run.enabled event
  | .delete conn => (s.connections conn).given = true

/-- The effect of an event. -/
def step : AcceptEvent RecvHandler SentHandler ErrHandler →
    AcceptQueue RecvHandler SentHandler ErrHandler
  | .syn segment => { s.update s.count (.ofSyn segment) with count := s.count + 1 }
  | .segment conn segment found => s.input conn segment found
  | .proceed => s.proceed
  | .timeout conn => s.update conn (s.connections conn).timeout
  | .asyncAccept =>
    let (n2t, call) := s.n2t.asyncAccept () ()
    { s with n2t := n2t }.handOut call
  | .cancel => { s with n2t := s.n2t.cancel }
  | .socket conn event =>
    s.update conn { s.connections conn with run := (s.connections conn).run.step event }
  | .delete conn => s.update conn (s.connections conn).delete

/-- lwIP still owned each pcb that was given to a `Socket`, and each byte that arrived for it since
the connection was established reaches the recv handlers of that `Socket`. -/
structure Intact : Prop where
  dangling : s.dangling = []
  reached : ∀ conn, (s.connections conn).given = true → (s.connections conn).Reached

/-- While a connection waits in the queue lwIP does not free its pcb, be it for a RST, for the
acknowledgement of our FIN or by a timeout, and no data arrives for it. -/
def Undisturbed : AcceptEvent RecvHandler SentHandler ErrHandler → Prop
  | .segment conn segment found => conn ∈ s.n2t.connectionQue →
      segment.has tcpRst = true → found.rstAcceptable = false
  | .proceed => ∀ work ∈ s.pending, work.1 ∈ s.n2t.connectionQue → work.2.acked = 0 →
      work.2.closed = false ∧ work.2.data = []
  | .timeout conn => conn ∉ s.n2t.connectionQue
  | _ => True

/-- When the callbacks of a `Socket` tell it the end of its connection, no bytes wait in it. -/
def EndsRead : AcceptEvent RecvHandler SentHandler ErrHandler → Prop
  | .segment conn segment found => segment.has tcpRst = true → found.rstAcceptable = true →
      (s.connections conn).Drained TcpPcb.errf
  | .proceed => ∀ work ∈ s.pending, work.2.acked = 0 → work.2.closed = false →
      (work.2.data ≠ [] → (s.pcb work.1).state.rxClosed = true →
        (s.connections work.1).Drained TcpPcb.errf) ∧
      (work.2.data = [] → work.2.gotFin = true → (s.connections work.1).Drained TcpPcb.recv)
  | .timeout conn => (s.pcb conn).state ≠ .timeWait → (s.connections conn).Drained TcpPcb.errf
  | _ => True

instance (event : AcceptEvent RecvHandler SentHandler ErrHandler) : Decidable (s.enabled event) :=
  match event with
  | .syn segment =>
    inferInstanceAs (Decidable (s.pending = none ∧ _ = true ∧ _ = true ∧ _ = false ∧ _ = false ∧
      ∀ conn < s.count, (s.pcb conn).freed = false → (s.pcb conn).tuple ≠ segment.tuple))
  | .segment .. =>
    inferInstanceAs (Decidable (_ = none ∧ _ = true ∧ _ < _ ∧ _ = false ∧ _ ≠ _ ∧ _ = _))
  | .proceed => inferInstanceAs (Decidable (_ ≠ none))
  | .timeout _ => inferInstanceAs (Decidable (_ = none ∧ _ < _ ∧ _ = false))
  | .asyncAccept | .cancel => isTrue trivial
  | .delete _ => inferInstanceAs (Decidable (_ = true))
  | .socket conn event =>
    haveI : Decidable ((s.connections conn).run.enabled event) :=
      inferInstanceAs (Decidable (socketSystem.enabled (s.connections conn).run event))
    inferInstanceAs (Decidable (_ ∧ _ ∧ _))

instance (c : Connection RecvHandler SentHandler ErrHandler) (callback : TcpPcb → Bool) :
    Decidable (c.Drained callback) :=
  inferInstanceAs (Decidable (_ → _ → _))

instance (event : AcceptEvent RecvHandler SentHandler ErrHandler) :
    Decidable (s.Undisturbed event) :=
  match event with
  | .segment .. => inferInstanceAs (Decidable (_ → _ → _))
  | .proceed => inferInstanceAs (Decidable (∀ work ∈ s.pending, _ → _ → _ ∧ _))
  | .timeout _ => inferInstanceAs (Decidable (¬ _))
  | .syn _ | .asyncAccept | .cancel | .socket .. | .delete _ => isTrue trivial

instance (event : AcceptEvent RecvHandler SentHandler ErrHandler) :
    Decidable (s.EndsRead event) :=
  match event with
  | .segment .. => inferInstanceAs (Decidable (_ → _ → _))
  | .proceed =>
    inferInstanceAs (Decidable (∀ work ∈ s.pending, _ → _ → (_ → _ → _) ∧ (_ → _ → _)))
  | .timeout _ => inferInstanceAs (Decidable (_ → _))
  | .syn _ | .asyncAccept | .cancel | .socket .. | .delete _ => isTrue trivial

end AcceptQueue

/-- The accept queue as a transition system. -/
def acceptSystem : Transition.System (AcceptQueue RecvHandler SentHandler ErrHandler)
    (AcceptEvent RecvHandler SentHandler ErrHandler) where
  enabled := AcceptQueue.enabled
  step := AcceptQueue.step

instance (s : AcceptQueue RecvHandler SentHandler ErrHandler)
    (event : AcceptEvent RecvHandler SentHandler ErrHandler) :
    Decidable (acceptSystem.enabled s event) :=
  inferInstanceAs (Decidable (s.enabled event))

end Net2Tr
