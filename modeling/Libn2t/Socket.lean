/-
This file models `Socket`: the one-shot handler slots, the receive buffer and
the three callbacks it registers with lwIP.

A method or callback that calls a handler returns that call as its last
component, and the owner of the handler runs it next: in the source the call is
always the last thing the function does with the socket. The handler types are
parameters, since the socket never looks into them.
-/

import Libn2t.TcpPcb

namespace Net2Tr

/-- The `err_t` values an error callback receives. -/
inductive Err where
  | abrt | rst
deriving DecidableEq, Repr

/-- `SocketInternal` without its pcb. -/
structure Socket (RecvHandler SentHandler ErrHandler : Type) where
  recv : Option RecvHandler
  sent : Option SentHandler
  err : Option ErrHandler
  pendingLen : UInt32
  recvBuf : Bytes
  errQue : List Err
  pcbFreed : Bool
deriving DecidableEq, Repr

variable {RecvHandler SentHandler ErrHandler : Type}

namespace Socket

def new : Socket RecvHandler SentHandler ErrHandler where
  recv := none
  sent := none
  err := none
  pendingLen := 0
  recvBuf := []
  errQue := []
  pcbFreed := false

/-- `Socket::set_pcb` registers the three callbacks. -/
def setPcb (pcb : TcpPcb) : TcpPcb := { pcb with recv := true, sent := true, errf := true }

/-- The recv callback; no packet means that the remote host has closed the connection. -/
def recvCallback (sock : Socket RecvHandler SentHandler ErrHandler) (pcb : TcpPcb)
    (p : Option Bytes) : Socket RecvHandler SentHandler ErrHandler × TcpPcb ×
      Option (RecvHandler × Bool × Bytes) :=
  match p with
  | none => ({ sock with pcbFreed := true }, (pcb.touch .recvCallback).close, none)
  | some packet =>
    let pcb := pcb.touch .recvCallback
    match sock.recv with
    | some tmp => ({ sock with recv := none }, pcb, some (tmp, sock.pcbFreed, packet))
    | none => ({ sock with recvBuf := sock.recvBuf ++ packet }, pcb, none)

/-- The sent callback. -/
def sentCallback (sock : Socket RecvHandler SentHandler ErrHandler) (len : Nat) :
    Socket RecvHandler SentHandler ErrHandler × Option (SentHandler × Bool) :=
  let sock := { sock with pendingLen := sock.pendingLen - UInt32.ofNat len }
  if sock.pendingLen = 0 then
    ({ sock with sent := none }, sock.sent.map fun tmp => (tmp, sock.pcbFreed))
  else (sock, none)

/-- The err callback. -/
def errCallback (sock : Socket RecvHandler SentHandler ErrHandler) (err : Err) :
    Socket RecvHandler SentHandler ErrHandler × Option (ErrHandler × Err) :=
  let sock := { sock with pcbFreed := true }
  match sock.err with
  | some tmp => ({ sock with err := none }, some (tmp, err))
  | none => ({ sock with errQue := sock.errQue ++ [err] }, none)

/-- `Socket::async_recv`. -/
def asyncRecv (sock : Socket RecvHandler SentHandler ErrHandler) (handler : RecvHandler) :
    Socket RecvHandler SentHandler ErrHandler × Option (RecvHandler × Bool × Bytes) :=
  if sock.pcbFreed then (sock, some (handler, sock.pcbFreed, []))
  else if sock.recvBuf.length = 0 then ({ sock with recv := some handler }, none)
  else ({ sock with recvBuf := [] }, some (handler, sock.pcbFreed, sock.recvBuf))

/-- `Socket::async_send`; `accepted` is whether lwIP's `tcp_write` takes the data. -/
def asyncSend (sock : Socket RecvHandler SentHandler ErrHandler) (pcb : TcpPcb) (packet : Bytes)
    (handler : SentHandler) (accepted : Bool) :
    Socket RecvHandler SentHandler ErrHandler × TcpPcb × Option (SentHandler × Bool) :=
  if sock.pcbFreed then (sock, pcb, some (handler, sock.pcbFreed))
  else
    ({ sock with
        pendingLen := sock.pendingLen + UInt32.ofNat packet.length
        sent := some handler },
      (pcb.touch .asyncSend).write (packet.length % 2 ^ 16) accepted, none)

/-- `Socket::async_err`. -/
def asyncErr (sock : Socket RecvHandler SentHandler ErrHandler) (handler : ErrHandler) :
    Socket RecvHandler SentHandler ErrHandler × Option (ErrHandler × Err) :=
  match sock.errQue with
  | [] => ({ sock with err := some handler }, none)
  | err :: rest => ({ sock with errQue := rest }, some (handler, err))

/-- `Socket::cancel`. -/
def cancel (sock : Socket RecvHandler SentHandler ErrHandler) (pcb : TcpPcb) :
    Socket RecvHandler SentHandler ErrHandler × TcpPcb :=
  ({ sock with recv := none, sent := none, err := none }, (pcb.touch .cancel).unregister)

/-- `SocketInternal::~SocketInternal`. -/
def destructor (sock : Socket RecvHandler SentHandler ErrHandler) (pcb : TcpPcb) : TcpPcb :=
  if sock.pcbFreed then pcb else (pcb.touch .destructor).unregister.close

/-- `Socket::src_addr`. -/
def srcAddr (pcb : TcpPcb) : Option Text := pcb.remoteIp.ntoa

/-- `Socket::src_port`. -/
def srcPort (pcb : TcpPcb) : Port := pcb.remotePort

/-- `Socket::dst_addr`. -/
def dstAddr (pcb : TcpPcb) : Option Text := pcb.localIp.ntoa

/-- `Socket::dst_port`. -/
def dstPort (pcb : TcpPcb) : Port := pcb.localPort

end Socket

end Net2Tr
