/-
This file models how the patched `tcp_input` finds the pcb that an arriving
segment is for, and what `tcp_process` makes of the segment.

The patch removes the comparison of the port from the search of the listening
pcbs; addresses are still compared, with their types. Sequence numbers, windows
and reassembly are not modelled: what they say about a segment comes with it as
an argument. The state `SYN_SENT` does not occur, as no connection is opened from
this side.
-/

import Libn2t.MoveToFront
import Libn2t.TcpSession
import Libn2t.UdpPort

namespace Net2Tr

/-! ### Segments -/

/-- What identifies a connection. -/
structure FourTuple where
  localIp : IpAddr
  localPort : Port
  remoteIp : IpAddr
  remotePort : Port
deriving DecidableEq, Repr

/-- An arriving segment with its TCP header, and the addresses of its IP packet. -/
structure TcpSegment where
  current : IpCurrent
  p : PbufChain
deriving DecidableEq, Repr

def tcpFin : UInt8 := 0x01

def tcpSyn : UInt8 := 0x02

def tcpRst : UInt8 := 0x04

def tcpAck : UInt8 := 0x10

/-- `TCP_HLEN`. -/
def tcpHlen : Nat := 20

namespace TcpSegment

variable (segment : TcpSegment)

/-- A byte of the first pbuf. -/
def headerByte (index : Nat) : UInt8 := segment.p.first.payload.getD index 0

def src : Port := portOf (segment.headerByte 0) (segment.headerByte 1)

def dest : Port := portOf (segment.headerByte 2) (segment.headerByte 3)

/-- A flag of `TCPH_FLAGS`. -/
def has (flag : UInt8) : Bool := segment.headerByte 13 &&& flag ≠ 0

/-- `TCPH_HDRLEN_BYTES`. -/
def hdrlenBytes : Nat := (segment.headerByte 12).toNat / 16 * 4

/-- The 4-tuple of the connection the segment is for, with the ends as they are called here. -/
def tuple : FourTuple :=
  ⟨segment.current.dest.ip, segment.dest, segment.current.src.ip, segment.src⟩

/-- The check for the minimum length. -/
def headerOk : Bool := tcpHlen ≤ segment.p.first.payload.length

/-- Broadcasts and multicasts are not processed. -/
def unicast : Bool :=
  !segment.current.dest.ip.isBroadcast && !segment.current.dest.ip.isMulticast

/-- The checksum check. -/
def chksumOk : Bool := ipChksumPseudo segment.p 6 segment.p.totLen segment.current = 0

/-- The check of the header length. -/
def hdrlenOk : Bool :=
  tcpHlen ≤ segment.hdrlenBytes && segment.hdrlenBytes ≤ segment.p.totLen.toNat

/-- The options lie in the first pbuf, or what is left of them in the second. -/
def optionsOk : Bool :=
  segment.hdrlenBytes ≤ segment.p.first.payload.length ||
    match segment.p.rest with
    | [] => false
    | next :: _ =>
      segment.hdrlenBytes - segment.p.first.payload.length ≤ next.payload.length

/-- `tcplen` does not overflow. -/
def tcplenOk : Bool :=
  let totLen := segment.p.totLen - UInt16.ofNat segment.hdrlenBytes
  !(segment.has tcpFin || segment.has tcpSyn) || totLen ≤ totLen + 1

/-- The segment is not dropped before `tcp_input` looks for its pcb. -/
def passes : Bool :=
  segment.headerOk && segment.unicast && segment.chksumOk && segment.hdrlenOk &&
    segment.optionsOk && segment.tcplenOk

end TcpSegment

/-! ### The pcbs -/

/-- The block of a `tcp_pcb`. `callbackArg` is the number of the `Socket` whose `set_pcb` wrote
`callback_arg`; `syn` is the number of the SYN the block was last allocated for, which no function
reads. -/
structure TcpBlock where
  pcb : TcpPcb
  netifIdx : UInt8
  callbackArg : Option Nat
  syn : Nat
deriving DecidableEq, Repr

def TcpPcb.tuple (pcb : TcpPcb) : FourTuple :=
  ⟨pcb.localIp.ip, pcb.localPort, pcb.remoteIp.ip, pcb.remotePort⟩

/-- The test of the loops over `tcp_active_pcbs` and `tcp_tw_pcbs`. -/
def TcpBlock.isFor (block : TcpBlock) (inp : Netif) (segment : TcpSegment) : Bool :=
  if block.netifIdx ≠ 0 ∧ block.netifIdx ≠ inp.index then false
  else
    block.pcb.remotePort = segment.src && block.pcb.localPort = segment.dest &&
      block.pcb.remoteIp.ip = segment.current.src.ip &&
      block.pcb.localIp.ip = segment.current.dest.ip

/-- `tcp_pcb_listen`. -/
structure TcpPcbListen where
  localIp : PcbAddr
  localPort : Port
  netifIdx : UInt8
deriving DecidableEq, Repr

/-- The loop over `tcp_listen_pcbs`, which ends at a pcb with the address of the segment and else
yields the last pcb that takes any address; `lpcbAny` is the one found so far. -/
def tcpListenLoop (inp : Netif) (dest : IpAddr) :
    List TcpPcbListen → Option TcpPcbListen → Option TcpPcbListen
  | [], lpcbAny => lpcbAny
  | lpcb :: rest, lpcbAny =>
    if lpcb.netifIdx ≠ 0 ∧ lpcb.netifIdx ≠ inp.index then tcpListenLoop inp dest rest lpcbAny
    else
      match lpcb.localIp with
      | .anyType => tcpListenLoop inp dest rest (some lpcb)
      | .ip localIp =>
        if localIp.isV6 = dest.isV6 then
          if localIp = dest then some lpcb
          else if localIp.isAny then tcpListenLoop inp dest rest (some lpcb)
          else tcpListenLoop inp dest rest lpcbAny
        else tcpListenLoop inp dest rest lpcbAny

/-- The listening pcb of an `N2T`: `tcp_listen` keeps the address type `IPADDR_TYPE_ANY` and the
port, and drops the netif given to `tcp_bind_netif`. -/
def n2tListener : TcpPcbListen where
  localIp := .anyType
  localPort := 14514
  netifIdx := 0

/-! ### The state machine -/

/-- What sequence numbers and queues say about a segment: whether a RST is acceptable, whether
the ACK completes the handshake, whether it acknowledges all that was sent and nothing is unsent;
and what `tcp_receive` takes from the segment: the number of bytes acknowledged, the data that is
next in order, and whether the FIN is reached. -/
structure Received where
  rstAcceptable : Bool
  ackExpected : Bool
  allAcked : Bool
  acked : Nat
  data : Bytes
  gotFin : Bool
deriving DecidableEq, Repr

/-- What `tcp_process` leaves for the rest of `tcp_input`: the state; whether the accept callback is
called; `TF_RESET` and `TF_CLOSED`; `recv_acked`, `recv_data` and `TF_GOT_FIN`. -/
structure Processed where
  state : TcpState
  accept : Bool
  reset : Bool
  closed : Bool
  acked : Nat
  data : Bytes
  gotFin : Bool
deriving DecidableEq, Repr

/-- Nothing happens but for the segments that are sent in answer. -/
def Processed.ignored (state : TcpState) : Processed where
  state := state
  accept := false
  reset := false
  closed := false
  acked := 0
  data := []
  gotFin := false

/-- `tcp_receive` is called. -/
def Received.taken (found : Received) (state : TcpState) : Processed where
  state := state
  accept := false
  reset := false
  closed := false
  acked := found.acked
  data := found.data
  gotFin := found.gotFin

/-- `tcp_process`. -/
def tcpProcess (state : TcpState) (segment : TcpSegment) (found : Received) : Processed :=
  let allAcked := segment.has tcpAck && found.allAcked
  if segment.has tcpRst then { Processed.ignored state with reset := found.rstAcceptable }
  else if segment.has tcpSyn ∧ state ≠ .synSent ∧ state ≠ .synRcvd then .ignored state
  else
    match state with
    | .synRcvd =>
      if segment.has tcpAck ∧ found.ackExpected then
        { found.taken (if found.gotFin then .closeWait else .established) with accept := true }
      else .ignored state
    | .established | .closeWait => found.taken (if found.gotFin then .closeWait else state)
    | .finWait1 =>
      if found.gotFin then found.taken (if allAcked then .timeWait else .closing)
      else found.taken (if allAcked then .finWait2 else .finWait1)
    | .finWait2 => found.taken (if found.gotFin then .timeWait else .finWait2)
    | .closing => found.taken (if allAcked then .timeWait else .closing)
    | .lastAck => { found.taken .lastAck with closed := allAcked }
    | .closed | .listen | .synSent | .timeWait => .ignored state

/-- `TF_RXCLOSED`, which `tcp_close` sets together with the state it changes. -/
def TcpState.rxClosed : TcpState → Bool
  | .synRcvd | .established | .closeWait => false
  | _ => true

/-! ### Which pcb it is -/

/-- A pcb that is bound to no netif is for the segments with its 4-tuple. -/
theorem TcpBlock.isFor_iff {block : TcpBlock} (unbound : block.netifIdx = 0) (inp : Netif)
    (segment : TcpSegment) :
    block.isFor inp segment = true ↔ block.pcb.tuple = segment.tuple := by
  have notBound : ¬ (block.netifIdx ≠ 0 ∧ block.netifIdx ≠ inp.index) :=
    fun bound => bound.1 unbound
  rw [isFor, if_neg notBound]
  simp only [TcpPcb.tuple, TcpSegment.tuple, FourTuple.mk.injEq, Bool.and_eq_true,
    decide_eq_true_eq]
  constructor
  · rintro ⟨⟨⟨remotePort, localPort⟩, remoteIp⟩, localIp⟩
    exact ⟨localIp, localPort, remoteIp, remotePort⟩
  · rintro ⟨localIp, localPort, remoteIp, remotePort⟩
    exact ⟨⟨⟨remotePort, localPort⟩, remoteIp⟩, localIp⟩

/-- The listener of an `N2T` takes the segments for every address and port. -/
theorem tcpListenLoop_n2t (inp : Netif) (dest : IpAddr) :
    tcpListenLoop inp dest [n2tListener] none = some n2tListener := by
  have unbound : ¬ (n2tListener.netifIdx ≠ 0 ∧ n2tListener.netifIdx ≠ inp.index) :=
    fun bound => bound.1 rfl
  rw [tcpListenLoop, if_neg unbound]
  rfl

end Net2Tr
