/-
This file models `TCPSession` over its `Socket`: the SOCKS5 handshake, the two
relaying loops and the teardown, as a transition system whose events are the
callbacks of lwIP and the completions of the asynchronous operations on the
proxy connection.

A handler that a `Socket` method calls at once is run inside that method, as in
the source. The session object lives as long as an operation or a handler slot
refers to it; after each event the model runs the destructor if nothing does.
The last five fields of the session record what it has done and are read by no
function.
-/

import Libn2t.Socket
import Libn2t.Transition

namespace Net2Tr

/-- `TCPSessionInternal::Status`. -/
inductive Status where
  | handshake | request | forward | destroy
deriving DecidableEq, Repr

/-- The handlers a session passes to `in_sock`, each named after the method that passes it. -/
inductive RecvHandler where
  | inAsyncRead
deriving DecidableEq, Repr

inductive SentHandler where
  | inAsyncWrite
deriving DecidableEq, Repr

inductive ErrHandler where
  | start
deriving DecidableEq, Repr

/-- The asynchronous operations on `out_sock`. -/
inductive OutKind where
  | connect | read | write
deriving DecidableEq, Repr

/-- An operation on `out_sock` whose completion handler has not run yet. One that was started on
a closed socket can only fail. -/
structure OutOp where
  kind : OutKind
  usable : Bool
deriving DecidableEq, Repr

/-- `TCPSessionInternal` with the pcb of its `in_sock`. -/
structure TcpSession where
  status : Status
  inSock : Socket RecvHandler SentHandler ErrHandler
  pcb : TcpPcb
  outOpen : Bool
  ops : List OutOp
  alive : Bool
  written : List Bytes
  reads : List Bytes
  sends : List Bytes
  delivered : Bytes
  told : Bool
deriving DecidableEq, Repr

/-- `sizeof(recv_buf)`. -/
def recvBufSize : Nat := 8192

/-- The greeting, which offers no authentication only. -/
def greeting : Bytes := [0x05, 0x01, 0x00]

/-- The server's choice of no authentication. -/
def methodReply : Bytes := [0x05, 0x00]

/-- The head of a success reply to the request. -/
def replyHead : Bytes := [0x05, 0x00, 0x00]

/-- The head of a `CONNECT` request. -/
def connectHead : Bytes := [0x05, 0x01, 0x00]

/-- The `CONNECT` request for the local end of a pcb; `none` is the exception of
`addrport_to_socks5`. -/
def connectRequest (localIp : IpCell) (localPort : Port) : Option Bytes := do
  let addr ← localIp.ntoa
  let socks5 ← addrportToSocks5 addr localPort
  some (connectHead ++ socks5)

namespace TcpSession

/-- `TCPSessionInternal::destroy`. -/
def destroy (s : TcpSession) : TcpSession :=
  if s.status = .destroy then s
  else
    let (inSock, pcb) := s.inSock.cancel s.pcb
    { s with status := .destroy, inSock := inSock, pcb := pcb, outOpen := false }

/-- `TCPSessionInternal::out_async_read`. -/
def outAsyncRead (s : TcpSession) : TcpSession :=
  { s with ops := s.ops ++ [⟨.read, s.outOpen⟩] }

/-- `TCPSessionInternal::out_async_write`. -/
def outAsyncWrite (data : Bytes) (s : TcpSession) : TcpSession :=
  { s with ops := s.ops ++ [⟨.write, s.outOpen⟩], written := s.written ++ [data] }

/-- `TCPSessionInternal::in_recv`. -/
def inRecv (data : Bytes) (s : TcpSession) : TcpSession :=
  if s.status = .forward then s.outAsyncWrite data else s

/-- `TCPSessionInternal::in_sent`. -/
def inSent (s : TcpSession) : TcpSession :=
  if s.status = .forward then s.outAsyncRead else s

/-- The handler passed by `in_async_read`. -/
def runRecv (call : Option (RecvHandler × Bool × Bytes)) (s : TcpSession) : TcpSession :=
  match call with
  | none => s
  | some (.inAsyncRead, pcbFreed, packet) =>
    if pcbFreed then { s with told := true }.destroy else s.inRecv packet

/-- The handler passed by `in_async_write`. -/
def runSent (call : Option (SentHandler × Bool)) (s : TcpSession) : TcpSession :=
  match call with
  | none => s
  | some (.inAsyncWrite, pcbFreed) => if pcbFreed then s.destroy else s.inSent

/-- The handler passed by `start` to `async_err`. -/
def runErr (call : Option (ErrHandler × Err)) (s : TcpSession) : TcpSession :=
  match call with
  | none => s
  | some (.start, _) => s.destroy

/-- `TCPSessionInternal::in_async_read`. -/
def inAsyncRead (s : TcpSession) : TcpSession :=
  let (inSock, call) := s.inSock.asyncRecv .inAsyncRead
  { s with inSock := inSock }.runRecv call

/-- `TCPSessionInternal::in_async_write`. -/
def inAsyncWrite (data : Bytes) (accepted : Bool) (s : TcpSession) : TcpSession :=
  let (inSock, pcb, call) := s.inSock.asyncSend s.pcb data .inAsyncWrite accepted
  { s with inSock := inSock, pcb := pcb, sends := s.sends ++ [data] }.runSent call

/-- `TCPSessionInternal::out_recv`. When `addrport_to_socks5` throws, the new status is all that
is left of the call. -/
def outRecv (data : Bytes) (accepted : Bool) (s : TcpSession) : TcpSession :=
  match s.status with
  | .handshake =>
    if data ≠ methodReply then s.destroy
    else
      let s := { s with status := .request, pcb := (s.pcb.touch .dstAddr).touch .dstPort }
      match connectRequest s.pcb.localIp s.pcb.localPort with
      | some req => s.outAsyncWrite req
      | none => s
  | .request =>
    if data.length ≤ 3 ∨ data.take 3 ≠ replyHead then s.destroy
    else { s with status := .forward }.inAsyncRead.outAsyncRead
  | .forward => s.inAsyncWrite data accepted
  | .destroy => s

/-- `TCPSessionInternal::out_sent`. -/
def outSent (s : TcpSession) : TcpSession :=
  match s.status with
  | .handshake => s.outAsyncRead
  | .request => s.outAsyncRead
  | .forward => s.inAsyncRead
  | .destroy => s

/-! ### Life of the session object -/

/-- Some operation or handler slot holds a `shared_ptr` to the session. -/
def referenced (s : TcpSession) : Bool :=
  !s.ops.isEmpty || s.inSock.recv.isSome || s.inSock.sent.isSome || s.inSock.err.isSome

/-- `TCPSession::~TCPSession`. -/
def destructor (s : TcpSession) : TcpSession :=
  let s := s.destroy
  { s with pcb := s.inSock.destructor s.pcb, alive := false }

/-- The last reference is gone. -/
def release (s : TcpSession) : TcpSession := if s.referenced then s else s.destructor

/-- A session whose socket has just been given its pcb by `set_pcb`. -/
def accepted (pcb : TcpPcb) : TcpSession where
  status := .handshake
  inSock := Socket.new
  pcb := Socket.setPcb pcb
  outOpen := false
  ops := []
  alive := true
  written := []
  reads := []
  sends := []
  delivered := []
  told := false

/-- `TCPSession::start`; `async_connect` opens the socket. -/
def start (s : TcpSession) : TcpSession :=
  let (inSock, call) := s.inSock.asyncErr .start
  let s := { s with inSock := inSock }.runErr call
  { s with outOpen := true, ops := s.ops ++ [⟨.connect, true⟩] }

end TcpSession

/-! ### Events -/

/-- What happens to a session. `read` carries the data of a successful `async_read_some` and
whether lwIP would accept the data of a `tcp_write`; the events from `recv` on are lwIP's:
client data, the client's FIN, an acknowledgement, the acknowledgement of our FIN, a RST, an
abort or timeout, and the reuse of the freed block. -/
inductive TcpEvent where
  | connected (ok : Bool)
  | wrote (ok : Bool)
  | read (data : Bytes) (accepted : Bool)
  | readError
  | recv (data : Bytes)
  | fin
  | sent (len : Nat)
  | finalAck
  | rst
  | abort
  | reuse (localIp remoteIp : IpCell) (localPort remotePort : Port)
deriving DecidableEq, Repr

namespace TcpSession

/-- An operation of the kind is pending, and can succeed if it has to. -/
def pending (s : TcpSession) (kind : OutKind) (ok : Bool) : Bool :=
  s.ops.any fun op => op.kind = kind && (op.usable || !ok)

/-- Its completion is delivered. -/
def complete (s : TcpSession) (kind : OutKind) (ok : Bool) : TcpSession :=
  { s with ops := s.ops.eraseP fun op => op.kind = kind && (op.usable || !ok) }

/-- lwIP calls the recv callback, if one is registered. -/
def recvEvent (s : TcpSession) (p : Option Bytes) : TcpSession :=
  if s.pcb.recv then
    let (inSock, pcb, call) := s.inSock.recvCallback s.pcb p
    { s with inSock := inSock, pcb := pcb, delivered := s.delivered ++ p.getD [] }.runRecv call
  else s

/-- lwIP calls the sent callback, if one is registered. -/
def sentEvent (s : TcpSession) (len : Nat) : TcpSession :=
  if s.pcb.sent then
    let (inSock, call) := s.inSock.sentCallback len
    { s with inSock := inSock }.runSent call
  else s

/-- lwIP calls the err callback. -/
def errEvent (s : TcpSession) (err : Err) : TcpSession :=
  let (inSock, call) := s.inSock.errCallback err
  { s with inSock := inSock }.runErr call

/-- The event can happen. A received segment carries at most 65535 bytes and so does one call of
the sent callback. -/
def enabled (s : TcpSession) : TcpEvent → Prop
  | .connected ok => s.alive ∧ s.pending .connect ok
  | .wrote ok => s.alive ∧ s.pending .write ok
  | .read data _ => s.alive ∧ s.pending .read true ∧ 0 < data.length ∧ data.length ≤ recvBufSize
  | .readError => s.alive ∧ s.pending .read false
  | .recv data => s.alive ∧ s.pcb.freed = false ∧ s.pcb.state = .established ∧
      0 < data.length ∧ data.length < 2 ^ 16
  | .fin => s.alive ∧ s.pcb.freed = false ∧ s.pcb.state = .established
  | .sent len => s.alive ∧ s.pcb.freed = false ∧ 0 < len ∧ len < 2 ^ 16 ∧ len ≤ s.pcb.unacked
  | .finalAck => s.alive ∧ s.pcb.freed = false ∧ s.pcb.state = .lastAck ∧ s.pcb.unacked = 0
  | .rst => s.alive ∧ s.pcb.freed = false
  | .abort => s.alive ∧ s.pcb.freed = false
  | .reuse .. => s.alive ∧ s.pcb.freed = true

instance (s : TcpSession) (event : TcpEvent) : Decidable (s.enabled event) := by
  cases event <;> unfold enabled <;> infer_instance

/-- The effect of an event. On a RST the err callback runs before lwIP frees the pcb, on an abort
or timeout after it. -/
def step (s : TcpSession) : TcpEvent → TcpSession
  | .connected ok =>
    let s := s.complete .connect ok
    (if ok then s.outAsyncWrite greeting else s.destroy).release
  | .wrote ok =>
    let s := s.complete .write ok
    (if ok then s.outSent else s.destroy).release
  | .read data accepted =>
    let s := s.complete .read true
    ({ s with reads := s.reads ++ [data] }.outRecv data accepted).release
  | .readError => (s.complete .read false).destroy.release
  | .recv data => (s.recvEvent (some data)).release
  | .fin => ({ s with pcb := { s.pcb with state := .closeWait } }.recvEvent none).release
  | .sent len =>
    ({ s with pcb := { s.pcb with unacked := s.pcb.unacked - len } }.sentEvent len).release
  | .finalAck => { s with pcb := s.pcb.free }
  | .rst =>
    let s := if s.pcb.errf then (s.errEvent .rst).release else s
    { s with pcb := s.pcb.free }
  | .abort =>
    let errf := s.pcb.errf
    let s := { s with pcb := s.pcb.free }
    if errf then (s.errEvent .abrt).release else s
  | .reuse localIp remoteIp localPort remotePort =>
    { s with pcb := { s.pcb with
      localIp := localIp
      remoteIp := remoteIp
      localPort := localPort
      remotePort := remotePort } }

end TcpSession

/-- A session as a transition system. -/
def tcpSystem : Transition.System TcpSession TcpEvent where
  enabled := TcpSession.enabled
  step := TcpSession.step

instance (s : TcpSession) (event : TcpEvent) : Decidable (tcpSystem.enabled s event) :=
  inferInstanceAs (Decidable (s.enabled event))

/-- A pcb that the listener has just handed out. -/
def TcpPcb.fresh (localIp remoteIp : IpCell) (localPort remotePort : Port) : TcpPcb where
  localIp := localIp
  remoteIp := remoteIp
  localPort := localPort
  remotePort := remotePort
  state := .established
  recv := false
  sent := false
  errf := false
  unacked := 0
  freed := false
  misuses := []

/-- The session of a fresh pcb, started. -/
def TcpSession.init (localIp remoteIp : IpCell) (localPort remotePort : Port) : TcpSession :=
  (TcpSession.accepted (.fresh localIp remoteIp localPort remotePort)).start

/-! ### A session for concrete runs -/

/-- The destination `10.0.0.1:443`. -/
abbrev sampleDst : IpCell × Port := (.of (.v4 ⟨0x0A000001⟩), 443)

/-- The client `10.0.0.2:5000`. -/
abbrev sampleSrc : IpCell × Port := (.of (.v4 ⟨0x0A000002⟩), 5000)

/-- The session of that client for that destination. -/
abbrev sampleSession : TcpSession := .init sampleDst.1 sampleSrc.1 sampleDst.2 sampleSrc.2

end Net2Tr
