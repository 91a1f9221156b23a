/-
This file models the one UDP control block through which all UDP traffic of an
`N2T` passes: the patched `udp_input` with the receive callback, and
`N2T::udp_send` with `udp_sendto_if_src`.

The patch makes the block accept every datagram by writing the datagram's
destination port into it, and the sender writes the source port of its packet
there, so `local_port` is a variable that both directions share. The result of
this file is that it is never read before the same event has set it: what an
event yields depends on the event alone.
-/

import Libn2t.InetChksum
import Libn2t.AddressText
import Libn2t.N2T

namespace Net2Tr

open HandOff

/-! ### Control blocks -/

/-- The local or remote address of a pcb: a zero address of type `IPADDR_TYPE_ANY`, or an address
of one of the versions. -/
inductive PcbAddr where
  | anyType
  | ip (addr : IpAddr)
deriving DecidableEq, Repr

/-- `ip_addr_isany` on the address of a pcb. -/
def PcbAddr.isAny : PcbAddr → Bool
  | .anyType => true
  | .ip addr => addr.isAny

/-- The part of the netif that the lookup of a pcb reads. -/
structure Netif where
  index : UInt8
  netmask : UInt32
deriving DecidableEq, Repr

/-- `udp_pcb`, with its address in memory. `recv` tells whether the callback is registered;
`netifIdx` is 0 for no netif. -/
structure UdpPcb where
  pointer : Nat
  localIp : PcbAddr
  localPort : Port
  remoteIp : PcbAddr
  remotePort : Port
  connected : Bool
  netifIdx : UInt8
  recv : Bool
deriving DecidableEq, Repr

/-- `udp_input_local_match`, without the assertions. -/
def udpInputLocalMatch (pcb : UdpPcb) (inp : Netif) (dest : IpAddr) : Bool :=
  if pcb.netifIdx ≠ 0 ∧ pcb.netifIdx ≠ inp.index then false
  else
    match pcb.localIp with
    | .anyType => true
    | .ip localIp =>
      match localIp, dest with
      | .v4 own, .v4 other =>
        if dest.isBroadcast then
          localIp.isAny || other.addr = 0xffffffff ||
            (own.addr &&& inp.netmask = other.addr &&& inp.netmask)
        else localIp.isAny || own = other
      | .v6 own, .v6 other => localIp.isAny || own = other
      | _, _ => false

/-- Whether a pcb is connected to the source of a datagram. -/
def udpRemoteMatch (pcb : UdpPcb) (src : IpAddr) (srcPort : Port) : Bool :=
  pcb.remotePort = srcPort && (pcb.remoteIp.isAny || pcb.remoteIp = .ip src)

/-- The patched loop of `udp_input`. The first pcb ends it, either as the perfect match or after
it has been given the port of the datagram. -/
def udpInputLookup (pcbs : List UdpPcb) (inp : Netif) (current : IpCurrent) (src dest : Port) :
    List UdpPcb × Option UdpPcb :=
  match pcbs with
  | [] => ([], none)
  | pcb :: rest =>
    if pcb.localPort = dest ∧ udpInputLocalMatch pcb inp current.dest.ip = true ∧
        udpRemoteMatch pcb current.src.ip src = true then
      (pcb :: rest, some pcb)
    else
      ({ pcb with localPort := dest } :: rest, some { pcb with localPort := dest })

/-! ### Input -/

/-- An arriving datagram with its UDP header, and the addresses of its IP packet. -/
structure UdpDatagram where
  current : IpCurrent
  p : PbufChain
deriving DecidableEq, Repr

namespace UdpDatagram

variable (datagram : UdpDatagram)

/-- A byte of the first pbuf. -/
def headerByte (index : Nat) : UInt8 := datagram.p.first.payload.getD index 0

def src : Port := portOf (datagram.headerByte 0) (datagram.headerByte 1)

def dest : Port := portOf (datagram.headerByte 2) (datagram.headerByte 3)

def chksum : UInt16 := portOf (datagram.headerByte 6) (datagram.headerByte 7)

/-- The check for the minimum length. -/
def headerOk : Bool := 8 ≤ datagram.p.first.payload.length

/-- The checksum check, where 0 stands for no checksum. -/
def chksumOk : Bool :=
  datagram.chksum = 0 ∨ ipChksumPseudo datagram.p 17 datagram.p.totLen datagram.current = 0

end UdpDatagram

/-- `udp_input` up to the call of the receive callback: the pcbs, and the pcb and the payload the
callback is called with. Without any pcb nothing reaches the repository's code. -/
def udpInput (pcbs : List UdpPcb) (inp : Netif) (datagram : UdpDatagram) :
    List UdpPcb × Option (UdpPcb × PbufChain) :=
  if datagram.headerOk = false then (pcbs, none)
  else
    let (pcbs, found) := udpInputLookup pcbs inp datagram.current datagram.src datagram.dest
    match found with
    | none => (pcbs, none)
    | some pcb =>
      if datagram.chksumOk = false then (pcbs, none)
      else if pcb.recv = false then (pcbs, none)
      else (pcbs, some (pcb, datagram.p.removeHeader 8))

/-- The packet that the receive callback puts together. -/
def recvPacket (pcb : UdpPcb) (p : PbufChain) (current : IpCurrent) (port : Port) :
    Option UdpPacket := do
  let srcAddr ← current.src.ntoa
  let dstAddr ← current.dest.ntoa
  some
    { srcAddr := srcAddr
      srcPort := port
      dstAddr := dstAddr
      dstPort := pcb.localPort
      data := p.toStr }

/-! ### Output -/

/-- The loop of `udp_new_port`; `again` bounds its jumps back. The first component is the static
variable `udp_port`, the second the result, 0 for none. -/
def udpNewPort (pcbs : List UdpPcb) : Nat → Port → Port × Port
  | again, udpPort =>
    let udpPort := if udpPort = 0xffff then 0xc000 else udpPort + 1
    if pcbs.any fun pcb => pcb.localPort = udpPort then
      match again with
      | 0 => (udpPort, 0)
      | again + 1 => udpNewPort pcbs again udpPort
    else (udpPort, udpPort)

/-- The pcbs and the static variable `udp_port`. -/
structure UdpPcbs where
  pcbs : List UdpPcb
  udpPort : Port
deriving DecidableEq, Repr

namespace UdpPcbs

variable (udp : UdpPcbs)

/-- `*upcb`. -/
def deref (upcb : Nat) : Option UdpPcb := udp.pcbs.find? fun pcb => pcb.pointer = upcb

/-- `upcb->local_port = port`. -/
def setLocalPort (upcb : Nat) (port : Port) : UdpPcbs :=
  { udp with
    pcbs := udp.pcbs.map fun pcb =>
      if pcb.pointer = upcb then { pcb with localPort := port } else pcb }

/-- `udp_bind` of a listed pcb to port 0; `false` is `ERR_USE`. -/
def bindNewPort (upcb : Nat) : UdpPcbs × Bool :=
  let (udpPort, port) := udpNewPort udp.pcbs 0x3fff udp.udpPort
  if port = 0 then ({ udp with udpPort := udpPort }, false)
  else ({ udp with udpPort := udpPort }.setLocalPort upcb port, true)

end UdpPcbs

/-- The UDP header of a datagram that is sent. -/
structure UdpHeader where
  src : Port
  dest : Port
  len : UInt16
deriving DecidableEq, Repr

/-- A datagram handed to the IP layer. -/
structure UdpOutput where
  srcIp : IpAddr
  dstIp : IpAddr
  header : UdpHeader
  data : Bytes
deriving DecidableEq, Repr

/-- What `N2T::udp_send` meets: whether the two allocations succeed and the IP layer passes the
datagram on, and the memory of the two address variables before and after a conversion that
fails. -/
structure UdpSendWorld where
  pbufAlloc : Bool
  headerAlloc : Bool
  ipOutput : Bool
  srcBefore : Ip6Addr
  srcLeft : Ip6Addr
  dstBefore : Ip6Addr
  dstLeft : Ip6Addr
deriving DecidableEq, Repr

/-- An `ip_addr_t` variable after `ipaddr_aton`, whose result is not looked at: a failing
conversion has set the type only. -/
def atonInto (cp : Text) (before left : Ip6Addr) : IpAddr :=
  match ipaddrAton cp before with
  | some addr => addr
  | none => if ipaddrAtonIsV6 cp then .v6 left else .v4 ⟨left.addr0⟩

/-- `IP_ADDR_PCB_VERSION_MATCH`. -/
def pcbVersionMatch (pcb : UdpPcb) (addr : IpAddr) : Bool :=
  match pcb.localIp with
  | .anyType => true
  | .ip localIp => localIp.isV6 = addr.isV6

/-- `udp_sendto_if_src`. -/
def udpSendtoIfSrc (udp : UdpPcbs) (upcb : Nat) (p : Bytes) (dstIp : IpAddr) (dstPort : Port)
    (srcIp : IpAddr) (world : UdpSendWorld) : UdpPcbs × Option UdpOutput :=
  match udp.deref upcb with
  | none => (udp, none)
  | some pcb =>
    if pcbVersionMatch pcb srcIp = false ∨ pcbVersionMatch pcb dstIp = false then (udp, none)
    else
      let (udp, bound) := if pcb.localPort = 0 then udp.bindNewPort upcb else (udp, true)
      if bound = false then (udp, none)
      else
        let totLen := UInt16.ofNat p.length
        if totLen + 8 < totLen then (udp, none)
        else if world.headerAlloc = false then (udp, none)
        else
          match udp.deref upcb with
          | none => (udp, none)
          | some pcb =>
            if world.ipOutput = false then (udp, none)
            else
              (udp, some
                { srcIp := srcIp
                  dstIp := dstIp
                  header := { src := pcb.localPort, dest := dstPort, len := totLen + 8 }
                  data := p })

/-- `N2T::udp_send`. The pbuf takes as many bytes as fit a 16-bit length. -/
def udpSend (udp : UdpPcbs) (upcb : Nat) (packet : UdpPacket) (world : UdpSendWorld) :
    UdpPcbs × Option UdpOutput :=
  if world.pbufAlloc = false then (udp, none)
  else
    let p := packet.data.take (packet.data.length % 2 ^ 16)
    let srcAddr := atonInto packet.srcAddr world.srcBefore world.srcLeft
    let udp := udp.setLocalPort upcb packet.srcPort
    let dstAddr := atonInto packet.dstAddr world.dstBefore world.dstLeft
    udpSendtoIfSrc udp upcb p dstAddr packet.dstPort srcAddr world

/-! ### Runs -/

/-- An `N2T` with lwIP's UDP part below it, and the datagrams handed to the IP layer. -/
structure UdpStack (OutputHandler NewConnectionHandler UdpRecvHandler SocketRef Pcb : Type) where
  udp : UdpPcbs
  run : N2TRun OutputHandler NewConnectionHandler UdpRecvHandler SocketRef Pcb
  outputs : List UdpOutput
deriving DecidableEq, Repr

/-- What happens to it. Every event may come from a running handler as well as from nobody, the
receive handler included: `udp_input` ends with the receive callback, which ends with its
handler, and `N2T::udp_send` is done with the pcb when the datagram reaches `output_cb`. -/
inductive UdpStackEvent
    (OutputHandler NewConnectionHandler UdpRecvHandler SocketRef Pcb : Type) where
  | input (datagram : UdpDatagram)
  | udpSend (packet : UdpPacket) (world : UdpSendWorld)
  | n2t (event : N2TEvent OutputHandler NewConnectionHandler UdpRecvHandler SocketRef Pcb)
deriving DecidableEq, Repr

variable {OutputHandler NewConnectionHandler UdpRecvHandler SocketRef Pcb : Type}

/-- The pcb set up by the constructor of `N2T`, with the port it holds at the moment. -/
def sharedPcb (inp : Netif) (upcb : Nat) (localPort : Port) : UdpPcb where
  pointer := upcb
  localIp := .anyType
  localPort := localPort
  remoteIp := .anyType
  remotePort := 0
  connected := false
  netifIdx := inp.index
  recv := true

namespace UdpStack

/-- The stack after the constructor of `N2T`: `upcb` is the only UDP pcb. -/
def new (inp : Netif) (upcb : Nat) (udpPort : Port) :
    UdpStack OutputHandler NewConnectionHandler UdpRecvHandler SocketRef Pcb where
  udp := { pcbs := [sharedPcb inp upcb 14514], udpPort := udpPort }
  run := .new
  outputs := []

variable (inp : Netif) (upcb : Nat)
variable (stack : UdpStack OutputHandler NewConnectionHandler UdpRecvHandler SocketRef Pcb)

/-- The source port of a packet that is sent is not 0. The receive callback is called by
`udp_input` only. -/
def enabled : UdpStackEvent OutputHandler NewConnectionHandler UdpRecvHandler SocketRef Pcb → Prop
  | .input _ => True
  | .udpSend packet _ => packet.srcPort ≠ 0
  | .n2t (.udpRecvCallback _) => False
  | .n2t event => stack.run.enabled event

/-- The receive callback, if it was called. -/
def receive (packet : Option UdpPacket) :
    UdpStack OutputHandler NewConnectionHandler UdpRecvHandler SocketRef Pcb :=
  match packet with
  | none => stack
  | some packet => { stack with run := stack.run.step (.udpRecvCallback packet) }

/-- The effect of an event. -/
def step : UdpStackEvent OutputHandler NewConnectionHandler UdpRecvHandler SocketRef Pcb →
    UdpStack OutputHandler NewConnectionHandler UdpRecvHandler SocketRef Pcb
  | .input datagram =>
    let (pcbs, call) := udpInput stack.udp.pcbs inp datagram
    { stack with udp := { stack.udp with pcbs := pcbs } }.receive
      (call.bind fun (pcb, p) => recvPacket pcb p datagram.current datagram.src)
  | .udpSend packet world =>
    let (udp, output) := Net2Tr.udpSend stack.udp upcb packet world
    { stack with udp := udp, outputs := stack.outputs ++ output.toList }
  | .n2t event => { stack with run := stack.run.step event }

end UdpStack

/-- An `N2T` with lwIP's UDP part as a transition system. -/
def udpSystem (inp : Netif) (upcb : Nat) : Transition.System
    (UdpStack OutputHandler NewConnectionHandler UdpRecvHandler SocketRef Pcb)
    (UdpStackEvent OutputHandler NewConnectionHandler UdpRecvHandler SocketRef Pcb) where
  enabled := UdpStack.enabled
  step := UdpStack.step inp upcb

instance (inp : Netif) (upcb : Nat)
    (stack : UdpStack OutputHandler NewConnectionHandler UdpRecvHandler SocketRef Pcb)
    (event : UdpStackEvent OutputHandler NewConnectionHandler UdpRecvHandler SocketRef Pcb) :
    Decidable ((udpSystem inp upcb).enabled stack event) :=
  match event with
  | .input _ => isTrue trivial
  | .udpSend packet _ => inferInstanceAs (Decidable (packet.srcPort ≠ 0))
  | .n2t (.udpRecvCallback _) => isFalse id
  | .n2t .handlerReturns => inferInstanceAs (Decidable (stack.run.running ≠ []))
  | .n2t (.outputCb _) | .n2t (.acceptCallback _ _) | .n2t (.asyncOutput _)
  | .n2t (.asyncAccept _ _) | .n2t (.asyncUdpRecv _) | .n2t .cancel => isTrue trivial

/-! ### What an event yields by itself -/

/-- The packet that reports a datagram. -/
def UdpDatagram.packet (datagram : UdpDatagram) : Option UdpPacket := do
  let srcAddr ← datagram.current.src.ntoa
  let dstAddr ← datagram.current.dest.ntoa
  some
    { srcAddr := srcAddr
      srcPort := datagram.src
      dstAddr := dstAddr
      dstPort := datagram.dest
      data := datagram.p.toStr.drop 8 }

/-- The packet a datagram yields. -/
def UdpDatagram.received (datagram : UdpDatagram) : Option UdpPacket :=
  if datagram.headerOk = true ∧ datagram.chksumOk = true then datagram.packet else none

/-- The packet an event yields. -/
def UdpStackEvent.received :
    UdpStackEvent OutputHandler NewConnectionHandler UdpRecvHandler SocketRef Pcb →
      Option UdpPacket
  | .input datagram => datagram.received
  | _ => none

/-- The bytes of a packet that fit a pbuf. -/
def UdpPacket.payload (packet : UdpPacket) : Bytes :=
  packet.data.take (packet.data.length % 2 ^ 16)

/-- The datagram that carries a packet. -/
def UdpPacket.datagram (packet : UdpPacket) (world : UdpSendWorld) : UdpOutput where
  srcIp := atonInto packet.srcAddr world.srcBefore world.srcLeft
  dstIp := atonInto packet.dstAddr world.dstBefore world.dstLeft
  header :=
    { src := packet.srcPort
      dest := packet.dstPort
      len := UInt16.ofNat packet.payload.length + 8 }
  data := packet.payload

/-- Nothing on the way of a packet fails. -/
def UdpSendWorld.passes (world : UdpSendWorld) (packet : UdpPacket) : Prop :=
  world.pbufAlloc = true ∧ world.headerAlloc = true ∧ world.ipOutput = true ∧
    ¬ UInt16.ofNat packet.payload.length + 8 < UInt16.ofNat packet.payload.length

instance (world : UdpSendWorld) (packet : UdpPacket) : Decidable (world.passes packet) :=
  inferInstanceAs (Decidable (_ ∧ _))

/-- The datagram that is sent for a packet. -/
def UdpPacket.sent (packet : UdpPacket) (world : UdpSendWorld) : Option UdpOutput :=
  if world.passes packet then some (packet.datagram world) else none

/-- The datagram an event sends. -/
def UdpStackEvent.sent :
    UdpStackEvent OutputHandler NewConnectionHandler UdpRecvHandler SocketRef Pcb →
      Option UdpOutput
  | .udpSend packet world => packet.sent world
  | _ => none

/-! ### The shared pcb -/

section SharedPcb

variable (inp : Netif) (upcb : Nat)

/-- Whatever port the pcb holds, it is the one found, and then holds the datagram's port. -/
theorem udpInputLookup_shared (localPort : Port) (current : IpCurrent) (src dest : Port) :
    udpInputLookup [sharedPcb inp upcb localPort] inp current src dest =
      ([sharedPcb inp upcb dest], some (sharedPcb inp upcb dest)) := by
  rw [udpInputLookup]
  split
  case isTrue found =>
    obtain ⟨same, _, _⟩ := found
    have port : localPort = dest := same
    rw [port]
  case isFalse => rfl

theorem udpInput_shared (localPort : Port) (datagram : UdpDatagram) :
    ∃ nextPort, (udpInput [sharedPcb inp upcb localPort] inp datagram).1 =
      [sharedPcb inp upcb nextPort] := by
  rw [udpInput, udpInputLookup_shared]
  split
  · exact ⟨localPort, rfl⟩
  · refine ⟨datagram.dest, ?_⟩
    dsimp only
    split
    · rfl
    · split <;> rfl

/-- The receive callback reports the datagram's own ports. -/
theorem udpInput_packet (localPort : Port) (datagram : UdpDatagram) :
    ((udpInput [sharedPcb inp upcb localPort] inp datagram).2.bind fun (pcb, p) =>
        recvPacket pcb p datagram.current datagram.src) = datagram.received := by
  rw [udpInput, udpInputLookup_shared, UdpDatagram.received]
  cases header : datagram.headerOk with
  | false => rfl
  | true =>
    cases chksum : datagram.chksumOk with
    | false => rfl
    | true =>
      have fits : 8 ≤ datagram.p.first.payload.length := of_decide_eq_true header
      rw [UdpDatagram.packet, ← PbufChain.toStr_removeHeader fits]
      rfl

theorem setLocalPort_shared (localPort port udpPort : Port) :
    UdpPcbs.setLocalPort ⟨[sharedPcb inp upcb localPort], udpPort⟩ upcb port =
      ⟨[sharedPcb inp upcb port], udpPort⟩ := by
  simp only [UdpPcbs.setLocalPort, List.map_cons, List.map_nil, sharedPcb, if_true]

theorem deref_shared (localPort udpPort : Port) :
    UdpPcbs.deref ⟨[sharedPcb inp upcb localPort], udpPort⟩ upcb =
      some (sharedPcb inp upcb localPort) := by
  rw [UdpPcbs.deref, List.find?_cons_of_pos]
  exact decide_eq_true rfl

theorem pcbVersionMatch_shared (localPort : Port) (addr : IpAddr) :
    pcbVersionMatch (sharedPcb inp upcb localPort) addr = true := rfl

/-- A bound pcb is not bound again, and the header gets the port it is bound to. -/
theorem udpSendtoIfSrc_shared {localPort : Port} (bound : localPort ≠ 0) (udpPort : Port)
    (p : Bytes) (dstIp : IpAddr) (dstPort : Port) (srcIp : IpAddr) (world : UdpSendWorld) :
    udpSendtoIfSrc ⟨[sharedPcb inp upcb localPort], udpPort⟩ upcb p dstIp dstPort srcIp world =
      (⟨[sharedPcb inp upcb localPort], udpPort⟩,
        if UInt16.ofNat p.length + 8 < UInt16.ofNat p.length ∨ world.headerAlloc = false ∨
            world.ipOutput = false then none
        else some
          { srcIp := srcIp
            dstIp := dstIp
            header := { src := localPort, dest := dstPort, len := UInt16.ofNat p.length + 8 }
            data := p }) := by
  have notNew : ¬ (sharedPcb inp upcb localPort).localPort = 0 := bound
  simp only [udpSendtoIfSrc, deref_shared, pcbVersionMatch_shared, Bool.true_eq_false, or_self,
    if_false, if_neg notNew]
  by_cases overflow : UInt16.ofNat p.length + 8 < UInt16.ofNat p.length
  · rw [if_pos overflow, if_pos (Or.inl overflow)]
  · rw [if_neg overflow]
    cases header : world.headerAlloc with
    | false => rw [if_pos rfl, if_pos (Or.inr (Or.inl rfl))]
    | true =>
      cases output : world.ipOutput with
      | false => rw [if_neg Bool.noConfusion, if_pos rfl, if_pos (Or.inr (Or.inr rfl))]
      | true =>
        simp only [Bool.true_eq_false, if_false, overflow, or_self]
        rfl

/-- `N2T::udp_send` sends the packet's own ports, whatever port the pcb held before. -/
theorem udpSend_shared (localPort udpPort : Port) {packet : UdpPacket}
    (nonzero : packet.srcPort ≠ 0) (world : UdpSendWorld) :
    (∃ nextPort, (udpSend ⟨[sharedPcb inp upcb localPort], udpPort⟩ upcb packet world).1 =
        ⟨[sharedPcb inp upcb nextPort], udpPort⟩) ∧
      (udpSend ⟨[sharedPcb inp upcb localPort], udpPort⟩ upcb packet world).2 =
        packet.sent world := by
  rw [udpSend, UdpPacket.sent]
  split
  case isTrue noPbuf =>
    refine ⟨⟨localPort, rfl⟩, (if_neg fun passes => ?_).symm⟩
    rw [passes.1] at noPbuf
    cases noPbuf
  case isFalse pbuf =>
    dsimp only
    rw [setLocalPort_shared, udpSendtoIfSrc_shared inp upcb nonzero]
    refine ⟨⟨packet.srcPort, rfl⟩, ?_⟩
    dsimp only
    split
    case isTrue fails =>
      refine (if_neg fun passes => ?_).symm
      obtain ⟨_, header, output, fits⟩ := passes
      rcases fails with overflow | noHeader | noOutput
      · exact fits overflow
      · rw [header] at noHeader
        cases noHeader
      · rw [output] at noOutput
        cases noOutput
    case isFalse works =>
      obtain ⟨fits, header, output⟩ := not_or.mp works |>.imp_right not_or.mp
      exact (if_pos ⟨Bool.eq_true_of_not_eq_false pbuf, Bool.eq_true_of_not_eq_false header,
        Bool.eq_true_of_not_eq_false output, fits⟩).symm

end SharedPcb

/-! ### The shared pcb in every run -/

namespace UdpStack

variable {inp : Netif} {upcb : Nat}
variable {stack : UdpStack OutputHandler NewConnectionHandler UdpRecvHandler SocketRef Pcb}

/-- The shared pcb is the only one, and the channels above it keep their promises. -/
structure Shared (inp : Netif) (upcb : Nat)
    (stack : UdpStack OutputHandler NewConnectionHandler UdpRecvHandler SocketRef Pcb) :
    Prop where
  only : ∃ localPort, stack.udp.pcbs = [sharedPcb inp upcb localPort]
  sound : stack.run.Sound

theorem receive_udp (packet : Option UdpPacket) : (stack.receive packet).udp = stack.udp := by
  cases packet <;> rfl

theorem receive_outputs (packet : Option UdpPacket) :
    (stack.receive packet).outputs = stack.outputs := by
  cases packet <;> rfl

theorem receive_arrived (packet : Option UdpPacket) :
    (stack.receive packet).run.udps.arrived = stack.run.udps.arrived ++ packet.toList := by
  cases packet with
  | none => exact (List.append_nil _).symm
  | some packet => rfl

theorem receive_sound (packet : Option UdpPacket) (sound : stack.run.Sound) :
    (stack.receive packet).run.Sound := by
  cases packet with
  | none => exact sound
  | some packet => exact sound.step (.udpRecvCallback packet)

theorem Shared.step (shared : stack.Shared inp upcb)
    (event : UdpStackEvent OutputHandler NewConnectionHandler UdpRecvHandler SocketRef Pcb)
    (enabled : stack.enabled event) : (stack.step inp upcb event).Shared inp upcb := by
  obtain ⟨⟨localPort, only⟩, sound⟩ := shared
  cases event with
  | input datagram =>
    obtain ⟨nextPort, next⟩ := udpInput_shared inp upcb localPort datagram
    rw [← only] at next
    refine ⟨⟨nextPort, ?_⟩, receive_sound _ sound⟩
    rw [UdpStack.step, receive_udp]
    exact next
  | udpSend packet world =>
    obtain ⟨⟨nextPort, next⟩, _⟩ := udpSend_shared inp upcb localPort
      stack.udp.udpPort enabled world
    rw [← only] at next
    exact ⟨⟨nextPort, congrArg UdpPcbs.pcbs next⟩, sound⟩
  | n2t event => exact ⟨⟨localPort, only⟩, sound.step event⟩

/-- The packets that have arrived grow by what the event yields. -/
theorem Shared.arrived_step (shared : stack.Shared inp upcb)
    (event : UdpStackEvent OutputHandler NewConnectionHandler UdpRecvHandler SocketRef Pcb)
    (enabled : stack.enabled event) :
    (stack.step inp upcb event).run.udps.arrived =
      stack.run.udps.arrived ++ event.received.toList := by
  obtain ⟨⟨localPort, only⟩, _⟩ := shared
  cases event with
  | input datagram =>
    have packet := udpInput_packet inp upcb localPort datagram
    rw [← only] at packet
    rw [UdpStack.step, receive_arrived, packet]
    rfl
  | udpSend packet world => exact (List.append_nil _).symm
  | n2t event =>
    cases event with
    | udpRecvCallback packet => exact enabled.elim
    | outputCb packet => exact (List.append_nil _).symm
    | acceptCallback newpcb ok => exact (List.append_nil _).symm
    | asyncOutput handler => exact (List.append_nil _).symm
    | asyncAccept s handler => exact (List.append_nil _).symm
    | asyncUdpRecv handler => exact (List.append_nil _).symm
    | cancel => exact (List.append_nil _).symm
    | handlerReturns => exact (List.append_nil _).symm

/-- The datagrams sent grow by what the event sends. -/
theorem Shared.outputs_step (shared : stack.Shared inp upcb)
    (event : UdpStackEvent OutputHandler NewConnectionHandler UdpRecvHandler SocketRef Pcb)
    (enabled : stack.enabled event) :
    (stack.step inp upcb event).outputs = stack.outputs ++ event.sent.toList := by
  obtain ⟨⟨localPort, only⟩, _⟩ := shared
  cases event with
  | input datagram =>
    rw [UdpStack.step, receive_outputs]
    exact (List.append_nil _).symm
  | udpSend packet world =>
    obtain ⟨_, sent⟩ := udpSend_shared inp upcb localPort
      stack.udp.udpPort enabled world
    rw [← only] at sent
    exact congrArg (fun output => stack.outputs ++ output.toList) sent
  | n2t event => exact (List.append_nil _).symm

end UdpStack

/-! ### The text of an address -/

/-- A text from which the address can be read back. -/
def Names (text : Text) (cell : IpCell) : Prop :=
  ∀ port, addrportToSocks5 text port =
    some (cell.ip.atyp :: cell.ip.bytes ++ beBytes2 port.toNat)

/-- `ipaddr_ntoa` of an address in memory names it. -/
theorem IpCell.ntoa_names (cell : IpCell) : ∃ text, cell.ntoa = some text ∧ Names text cell := by
  have printed (port : Port) := addrportToSocks5_ipaddrNtoa cell.ip cell.past port cell.tagged_v6
  obtain ⟨text, ntoa, _⟩ := printed 0
  refine ⟨text, ntoa, fun port => ?_⟩
  obtain ⟨other, again, parsed⟩ := printed port
  rw [Option.some.inj (ntoa.symm.trans again)]
  exact parsed

/-- A packet that reports a datagram: its addresses, its ports and the bytes after its header. -/
structure UdpDatagram.Reported (datagram : UdpDatagram) (packet : UdpPacket) : Prop where
  srcAddr : Names packet.srcAddr datagram.current.src
  srcPort : packet.srcPort = datagram.src
  dstAddr : Names packet.dstAddr datagram.current.dest
  dstPort : packet.dstPort = datagram.dest
  data : packet.data = datagram.p.toStr.drop 8

theorem UdpDatagram.packet_reported (datagram : UdpDatagram) :
    ∃ packet, datagram.packet = some packet ∧ datagram.Reported packet := by
  obtain ⟨src, srcNtoa, srcNames⟩ := datagram.current.src.ntoa_names
  obtain ⟨dst, dstNtoa, dstNames⟩ := datagram.current.dest.ntoa_names
  refine ⟨⟨src, datagram.src, dst, datagram.dest, datagram.p.toStr.drop 8⟩, ?_,
    ⟨srcNames, rfl, dstNames, rfl, rfl⟩⟩
  rw [packet, srcNtoa, dstNtoa]
  rfl

/-! ### The result -/

/-- In every run, whatever the order of the events and the nesting of the handlers, the packets
handed to receive handlers or queued for them are those of the datagrams that pass the checks, one
for each in order, and the datagrams sent are those of the packets given to `N2T::udp_send`, at
most one for each in order. A packet reports its own datagram, and a datagram carries the ports of
its own packet. -/
theorem ports_apart (inp : Netif) (upcb : Nat) (udpPort : Port)
    (events : List (UdpStackEvent OutputHandler NewConnectionHandler UdpRecvHandler SocketRef Pcb))
    (legal : (udpSystem inp upcb).Legal (.new inp upcb udpPort) events) :
    (((udpSystem inp upcb).run events (.new inp upcb udpPort)).run.udps.handed.map Prod.snd ++
        ((udpSystem inp upcb).run events (.new inp upcb udpPort)).run.n2t.udpQue =
      events.filterMap UdpStackEvent.received) ∧
    ((udpSystem inp upcb).run events (.new inp upcb udpPort)).outputs =
      events.filterMap UdpStackEvent.sent ∧
    (∀ datagram : UdpDatagram, datagram.headerOk = true → datagram.chksumOk = true →
      ∃ packet, datagram.received = some packet ∧ datagram.Reported packet) ∧
    ∀ (packet : UdpPacket) (world : UdpSendWorld) (output : UdpOutput),
      packet.sent world = some output →
      output.header.src = packet.srcPort ∧ output.header.dest = packet.dstPort := by
  have start : (UdpStack.new inp upcb udpPort :
      UdpStack OutputHandler NewConnectionHandler UdpRecvHandler SocketRef Pcb).Shared
      inp upcb := ⟨⟨14514, rfl⟩, ⟨sound_empty, sound_empty, sound_empty⟩⟩
  have preserved (stack : UdpStack OutputHandler NewConnectionHandler UdpRecvHandler SocketRef
      Pcb) (event) (enabled : (udpSystem inp upcb).enabled stack event)
      (shared : stack.Shared inp upcb) :
      ((udpSystem inp upcb).step stack event).Shared inp upcb := shared.step event enabled
  have shared := (udpSystem inp upcb).invariant (UdpStack.Shared inp upcb) preserved legal start
  have arrived := (udpSystem inp upcb).run_log (UdpStack.Shared inp upcb)
    (fun stack => stack.run.udps.arrived) UdpStackEvent.received preserved
    (fun _ event enabled shared => shared.arrived_step event enabled) legal start
  have outputs := (udpSystem inp upcb).run_log (UdpStack.Shared inp upcb)
    UdpStack.outputs UdpStackEvent.sent preserved
    (fun _ event enabled shared => shared.outputs_step event enabled) legal start
  refine ⟨shared.sound.udps.conserved.trans arrived, outputs, ?_, ?_⟩
  · intro datagram header chksum
    obtain ⟨packet, reports, reported⟩ := datagram.packet_reported
    refine ⟨packet, ?_, reported⟩
    rw [UdpDatagram.received, if_pos ⟨header, chksum⟩, reports]
  · intro packet world output sent
    rw [UdpPacket.sent] at sent
    split at sent
    · obtain rfl := Option.some.inj sent
      exact ⟨rfl, rfl⟩
    · cases sent

/-- A datagram from 10.0.0.2 to 10.0.0.1 with its UDP header. -/
abbrev sampleInput (srcPort destPort : Port) : UdpDatagram where
  current := ⟨.of (.v4 ⟨0x0A000002⟩), .of (.v4 ⟨0x0A000001⟩), rfl⟩
  p := ⟨⟨portBytes srcPort ++ portBytes destPort ++ [0, 9, 0, 0, 0x61], false⟩, []⟩

/-- The reply to such a datagram. -/
abbrev sampleReply (srcPort dstPort : Port) : UdpPacket where
  srcAddr := "10.0.0.1".toList
  srcPort := srcPort
  dstAddr := "10.0.0.2".toList
  dstPort := dstPort
  data := [0x62]

/-- The receive handler replies, and the next datagram arrives before it returns. -/
abbrev nestedReplyRun : List (UdpStackEvent Nat Nat Nat Nat Nat) :=
  [.n2t (.asyncUdpRecv 1), .input (sampleInput 5000 53),
    .udpSend (sampleReply 53 5000)
      ⟨true, true, true, ⟨0, 0, 0, 0⟩, ⟨0, 0, 0, 0⟩, ⟨0, 0, 0, 0⟩, ⟨0, 0, 0, 0⟩⟩,
    .input (sampleInput 5001 80), .n2t .handlerReturns]

theorem ports_apart_nestedReply :
    (((udpSystem ⟨1, 0⟩ 0).run nestedReplyRun (.new ⟨1, 0⟩ 0 0xc000)).run.udps.handed.map
          Prod.snd ++
        ((udpSystem ⟨1, 0⟩ 0).run nestedReplyRun (.new ⟨1, 0⟩ 0 0xc000)).run.n2t.udpQue =
      nestedReplyRun.filterMap UdpStackEvent.received) ∧
    ((udpSystem ⟨1, 0⟩ 0).run nestedReplyRun (.new ⟨1, 0⟩ 0 0xc000)).outputs =
      nestedReplyRun.filterMap UdpStackEvent.sent ∧
    (∀ datagram : UdpDatagram, datagram.headerOk = true → datagram.chksumOk = true →
      ∃ packet, datagram.received = some packet ∧ datagram.Reported packet) ∧
    ∀ (packet : UdpPacket) (world : UdpSendWorld) (output : UdpOutput),
      packet.sent world = some output →
      output.header.src = packet.srcPort ∧ output.header.dest = packet.dstPort :=
  ports_apart ⟨1, 0⟩ 0 0xc000 nestedReplyRun (by decide)

end Net2Tr
