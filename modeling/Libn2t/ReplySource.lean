/-
This file is about the source address of the datagrams that `N2T::udp_send`
injects for the replies of the proxy: is it the one in the SOCKS5 header of the
reply?

`udp_send` parses source and destination each into a tagged union. The pcb is of
type `IPADDR_TYPE_ANY` and passes the version check of either, and the IP layer
takes the version from the destination alone. So the source of the other family
is read out of the wrong member of its union.
-/

import Libn2t.AddressRoundTrip
import Libn2t.UdpPort
import Libn2t.UdpReply

namespace Net2Tr

/-- A datagram with its IP header. The IP layer may send it in fragments, which all have the
addresses of this header. -/
structure IpDatagram where
  src : IpAddr
  dst : IpAddr
  header : UdpHeader
  data : Bytes
deriving DecidableEq, Repr

/-- `ip_2_ip4`: the first word of the union. -/
def IpAddr.ip2Ip4 : IpAddr → Ip4Addr
  | .v4 ip => ip
  | .v6 ip => ⟨ip.addr0⟩

/-- `ip_2_ip6`: the four words of the union. Behind an IPv4 address stands what the variable held
before. -/
def IpAddr.ip2Ip6 (before : Ip6Addr) : IpAddr → Ip6Addr
  | .v4 ip => { before with addr0 := ip.addr }
  | .v6 ip => ip

/-- `ip_output_if_src`, with `ip4_output_if_src` and `ip6_output_if_src`. -/
def ipOutputIfSrc (srcBefore : Ip6Addr) (output : UdpOutput) : IpDatagram :=
  match output.dstIp with
  | .v6 dst =>
    { src := .v6 (output.srcIp.ip2Ip6 srcBefore)
      dst := .v6 dst
      header := output.header
      data := output.data }
  | .v4 dst =>
    { src := .v4 output.srcIp.ip2Ip4
      dst := .v4 dst
      header := output.header
      data := output.data }

/-- What `N2T::udp_send` emits. -/
def injected (udp : UdpPcbs) (upcb : Nat) (packet : UdpPacket) (world : UdpSendWorld) :
    Option IpDatagram :=
  (udpSend udp upcb packet world).2.map (ipOutputIfSrc world.srcBefore)

namespace UdpSession

/-- Whatever is emitted for the datagram comes from the address in its header and goes to the
client. -/
def SourceKept (s : UdpSession) (client : IpAddr) (data : Bytes) : Prop :=
  ∀ (source : IpAddr) (port : Port) (payload : Bytes),
    data.drop 3 = source.atyp :: source.bytes ++ beBytes2 port.toNat ++ payload →
    ∀ packet, (s.outRecv data).1.replies = s.replies ++ [packet] →
    ∀ udp upcb world datagram, injected udp upcb packet world = some datagram →
      datagram.src = source ∧ datagram.dst = client ∧
        datagram.header.dest = s.initialPacket.srcPort

end UdpSession

/-! ### What the IP layer gets -/

theorem udpSendtoIfSrc_output {udp : UdpPcbs} {upcb : Nat} {p : Bytes} {dstIp srcIp : IpAddr}
    {dstPort : Port} {world : UdpSendWorld} {output : UdpOutput}
    (sent : (udpSendtoIfSrc udp upcb p dstIp dstPort srcIp world).2 = some output) :
    output.srcIp = srcIp ∧ output.dstIp = dstIp ∧ output.header.dest = dstPort := by
  unfold udpSendtoIfSrc at sent
  split at sent
  · cases sent
  · rename_i pcb _
    split at sent
    · cases sent
    · generalize (if pcb.localPort = 0 then udp.bindNewPort upcb else (udp, true)) = bound at sent
      obtain ⟨udp, bound⟩ := bound
      dsimp only at sent
      split at sent
      · cases sent
      · split at sent
        · cases sent
        · split at sent
          · cases sent
          · split at sent
            · cases sent
            · split at sent
              · cases sent
              · rw [← Option.some.inj sent]
                exact ⟨rfl, rfl, rfl⟩

/-- The IP layer gets the two parsed addresses and the destination port. -/
theorem udpSend_output {udp : UdpPcbs} {upcb : Nat} {packet : UdpPacket} {world : UdpSendWorld}
    {output : UdpOutput} (sent : (udpSend udp upcb packet world).2 = some output) :
    output.srcIp = atonInto packet.srcAddr world.srcBefore world.srcLeft ∧
      output.dstIp = atonInto packet.dstAddr world.dstBefore world.dstLeft ∧
      output.header.dest = packet.dstPort := by
  unfold udpSend at sent
  split at sent
  · cases sent
  · exact udpSendtoIfSrc_output sent

/-- The version of the header is that of the destination, and a source of that version gets into
it. -/
theorem ipOutputIfSrc_family (before : Ip6Addr) (output : UdpOutput) :
    (ipOutputIfSrc before output).dst = output.dstIp ∧
      (ipOutputIfSrc before output).header = output.header ∧
      (ipOutputIfSrc before output).src.isV6 = output.dstIp.isV6 ∧
      (output.srcIp.isV6 = output.dstIp.isV6 →
        (ipOutputIfSrc before output).src = output.srcIp) := by
  obtain ⟨src, dst, header, data⟩ := output
  cases dst with
  | v4 dst =>
    refine ⟨rfl, rfl, rfl, fun same => ?_⟩
    cases src with
    | v4 src => rfl
    | v6 src => cases same
  | v6 dst =>
    refine ⟨rfl, rfl, rfl, fun same => ?_⟩
    cases src with
    | v4 src => cases same
    | v6 src => rfl

theorem atonInto_eq {text : Text} {before left : Ip6Addr} {ip : IpAddr}
    (parsed : ipaddrAton text before = some ip) : atonInto text before left = ip := by
  rw [atonInto, parsed]

/-- An address in memory is read back from its text. -/
theorem IpCell.aton_ntoa (cell : IpCell) {text : Text} (printed : cell.ntoa = some text)
    (before left : Ip6Addr) : atonInto text before left = cell.ip :=
  atonInto_eq (ipaddrAton_ipaddrNtoa cell.ip cell.past cell.tagged_v6 printed before)

/-- The type byte tells the family. -/
theorem IpAddr.atyp_eq_iff (first second : IpAddr) :
    first.atyp = second.atyp ↔ first.isV6 = second.isV6 := by
  cases first <;> cases second <;> simp [IpAddr.atyp, IpAddr.isV6]

/-! ### The reply -/

theorem exists_ip4Bytes (bytes : Bytes) (four : bytes.length = 4) :
    ∃ ip : Ip4Addr, ip.bytes = bytes := by
  match bytes, four with
  | [a, b, c, d], _ =>
    have boundA := a.toNat_lt
    have boundB := b.toNat_lt
    have boundC := c.toNat_lt
    have boundD := d.toNat_lt
    refine ⟨⟨UInt32.ofNat (a.toNat * 2 ^ 24 + b.toNat * 2 ^ 16 + c.toNat * 2 ^ 8 + d.toNat)⟩, ?_⟩
    have value : (UInt32.ofNat (a.toNat * 2 ^ 24 + b.toNat * 2 ^ 16 + c.toNat * 2 ^ 8 +
        d.toNat)).toNat = a.toNat * 2 ^ 24 + b.toNat * 2 ^ 16 + c.toNat * 2 ^ 8 + d.toNat :=
      UInt32.toNat_ofNat_of_lt' (by
        change _ < 2 ^ 32
        omega)
    have byte (quotient : Nat) (x : UInt8) (same : quotient % 256 = x.toNat) :
        UInt8.ofNat quotient = x := by
      apply UInt8.toNat_inj.mp
      rw [UInt8.toNat_ofNat']
      exact same
    rw [Ip4Addr.bytes, value, beBytes4, byte _ a (by omega), byte _ b (by omega),
      byte _ c (by omega), byte _ d (by omega)]

/-- What `socks5_to_addrport` accepts starts with the address of one of the families. -/
theorem Socks5Field.exists_ip {socks5 : Bytes} (field : Socks5Field socks5) :
    ∃ (source : IpAddr) (port : Port) (payload : Bytes),
      socks5 = source.atyp :: source.bytes ++ beBytes2 port.toNat ++ payload := by
  obtain ⟨address, wellFormed, high, low, payload, rfl⟩ := field.exists_address
  have port : beBytes2 (portOf high low).toNat = [high, low] := by
    rw [← portBytes_eq, portBytes_portOf]
  cases address with
  | v4 bytes =>
    obtain ⟨ip, rfl⟩ := exists_ip4Bytes bytes wellFormed
    refine ⟨.v4 ip, portOf high low, payload, ?_⟩
    rw [port, List.append_assoc]
    rfl
  | v6 bytes =>
    have sixteen : bytes.length = 16 := wellFormed
    obtain ⟨ip0, bytes0⟩ := exists_ip4Bytes (bytes.take 4) (by
      rw [List.length_take]
      omega)
    obtain ⟨ip1, bytes1⟩ := exists_ip4Bytes ((bytes.drop 4).take 4) (by
      rw [List.length_take, List.length_drop]
      omega)
    obtain ⟨ip2, bytes2⟩ := exists_ip4Bytes ((bytes.drop 8).take 4) (by
      rw [List.length_take, List.length_drop]
      omega)
    obtain ⟨ip3, bytes3⟩ := exists_ip4Bytes (bytes.drop 12) (by
      rw [List.length_drop]
      omega)
    have whole : (Ip6Addr.mk ip0.addr ip1.addr ip2.addr ip3.addr).bytes = bytes := by
      change ip0.bytes ++ ip1.bytes ++ ip2.bytes ++ ip3.bytes = bytes
      rw [bytes0, bytes1, bytes2, bytes3, List.append_assoc, List.append_assoc,
        show bytes.drop 12 = (bytes.drop 8).drop 4 by rw [List.drop_drop],
        List.take_append_drop, show bytes.drop 8 = (bytes.drop 4).drop 4 by rw [List.drop_drop],
        List.take_append_drop, List.take_append_drop]
    refine ⟨.v6 ⟨ip0.addr, ip1.addr, ip2.addr, ip3.addr⟩, portOf high low, payload, ?_⟩
    rw [port, List.append_assoc]
    change _ = 0x04 :: (Ip6Addr.bytes _ ++ _)
    rw [whole]
    rfl

/-- The address as `socks5_to_addrport` sees it. -/
def IpAddr.address : IpAddr → Address
  | .v4 ip => .v4 ip.bytes
  | .v6 ip => .v6 ip.bytes

theorem IpAddr.address_wellFormed (ip : IpAddr) : ip.address.WellFormed := by
  cases ip <;> rfl

theorem IpAddr.address_socks5 (ip : IpAddr) : ip.address.socks5 = ip.atyp :: ip.bytes := by
  cases ip <;> rfl

theorem IpAddr.aton_address (ip : IpAddr) (before left : Ip6Addr) :
    atonInto ip.address.text before left = ip := by
  cases ip with
  | v4 ip => exact atonInto_eq (ipaddrAton_dottedText ip before)
  | v6 ip => exact atonInto_eq (ipaddrAton_hexGroups ip before)

namespace UdpSession

theorem getD_of_shape {data : Bytes} {source : IpAddr} {port : Port} {payload : Bytes}
    (shape : data.drop 3 = source.atyp :: source.bytes ++ beBytes2 port.toNat ++ payload) :
    data.getD 3 0 = source.atyp := by
  have head := congrArg (fun bytes => bytes.getD 0 0) shape
  simp only [List.getD_eq_getElem?_getD, List.getElem?_drop] at head ⊢
  exact head

/-- The packet for the client carries the text of the address in the header. -/
theorem outRecv_source {s : UdpSession} (forward : s.status = .forward) {data : Bytes}
    {source : IpAddr} {port : Port} {payload : Bytes}
    (shape : data.drop 3 = source.atyp :: source.bytes ++ beBytes2 port.toNat ++ payload) :
    (s.outRecv data).1.replies = s.replies ++ [s.reply source.address.text port payload] := by
  have three : (data.take 3).length = 3 := by
    have long := congrArg List.length shape
    rw [List.length_drop, List.cons_append, List.cons_append, List.length_cons] at long
    rw [List.length_take]
    omega
  have whole : data.take 3 ++ source.address.socks5 ++ portBytes port ++ payload = data := by
    rw [source.address_socks5, portBytes_eq, List.append_assoc, List.append_assoc,
      ← List.append_assoc (source.atyp :: source.bytes), ← shape, List.take_append_drop]
  have accepted := outRecv_accepted forward (data.take 3) three source.address_wellFormed port
    payload
  rw [whole] at accepted
  exact accepted

/-- What is emitted for a reply: the version and the destination are those of the client, and a
source of that family is kept. -/
theorem injected_reply {s : UdpSession} {client : IpCell}
    (printed : client.ntoa = some s.initialPacket.srcAddr) {source : IpAddr} {port : Port}
    {payload : Bytes} {udp : UdpPcbs} {upcb : Nat} {world : UdpSendWorld} {datagram : IpDatagram}
    (emitted : injected udp upcb (s.reply source.address.text port payload) world =
      some datagram) :
    datagram.dst = client.ip ∧ datagram.header.dest = s.initialPacket.srcPort ∧
      datagram.src.isV6 = client.ip.isV6 ∧
      (source.isV6 = client.ip.isV6 → datagram.src = source) := by
  obtain ⟨output, sent, rfl⟩ := Option.map_eq_some_iff.mp emitted
  obtain ⟨src, dst, dest⟩ := udpSend_output sent
  have source_eq : output.srcIp = source := src.trans (source.aton_address _ _)
  have client_eq : output.dstIp = client.ip := dst.trans (client.aton_ntoa printed _ _)
  obtain ⟨kept, header, family, same⟩ := ipOutputIfSrc_family world.srcBefore output
  rw [source_eq, client_eq] at same
  rw [client_eq] at kept family
  exact ⟨kept, (congrArg UdpHeader.dest header).trans dest, family, same⟩

end UdpSession

/-! ### A stack that emits -/

/-- Nothing fails. -/
def workingWorld : UdpSendWorld :=
  ⟨true, true, true, ⟨0, 0, 0, 0⟩, ⟨0, 0, 0, 0⟩, ⟨0, 0, 0, 0⟩, ⟨0, 0, 0, 0⟩⟩

/-- A stack whose only UDP pcb is the shared one. -/
def workingUdp : UdpPcbs := ⟨[sharedPcb ⟨1, 0⟩ 0 14514], 0xc000⟩

/-- It sends every packet that fits a datagram. -/
theorem injected_working (packet : UdpPacket) (small : packet.data.length ≤ recvBufSize) :
    ∃ datagram, injected workingUdp 0 packet workingWorld = some datagram := by
  have fits : ¬ UInt16.ofNat packet.payload.length + 8 < UInt16.ofNat packet.payload.length := by
    have short : packet.payload.length ≤ 8192 :=
      (List.length_take_le' _ _).trans small
    rw [UInt16.lt_iff_toNat_lt, UInt16.toNat_add, UInt16.toNat_ofNat_of_lt' (by
      change _ < 2 ^ 16
      omega)]
    change ¬ (packet.payload.length + 8) % 2 ^ 16 < packet.payload.length
    omega
  suffices sent : (udpSend workingUdp 0 packet workingWorld).2.isSome = true by
    obtain ⟨output, sent⟩ := Option.isSome_iff_exists.mp sent
    exact ⟨_, by rw [injected, sent]; rfl⟩
  by_cases zero : packet.srcPort = 0
  · have bound : (if (sharedPcb ⟨1, 0⟩ 0 0).localPort = 0 then
          UdpPcbs.bindNewPort ⟨[sharedPcb ⟨1, 0⟩ 0 0], 0xc000⟩ 0
        else (⟨[sharedPcb ⟨1, 0⟩ 0 0], 0xc000⟩, true)) =
        (⟨[sharedPcb ⟨1, 0⟩ 0 0xc001], 0xc001⟩, true) := by decide
    rw [udpSend, if_neg (by decide)]
    dsimp only
    rw [zero, workingUdp, setLocalPort_shared, udpSendtoIfSrc, deref_shared]
    dsimp only
    rw [if_neg (by rw [pcbVersionMatch_shared, pcbVersionMatch_shared]; decide), bound]
    dsimp only
    change ¬ UInt16.ofNat (packet.data.take (packet.data.length % 2 ^ 16)).length + 8 <
      UInt16.ofNat (packet.data.take (packet.data.length % 2 ^ 16)).length at fits
    rw [if_neg (by decide), if_neg fits, if_neg (by decide), deref_shared]
    rfl
  · have sent := (udpSend_shared ⟨1, 0⟩ 0 14514 0xc000 zero workingWorld).2
    rw [UdpPacket.sent, if_pos ⟨rfl, rfl, rfl, fits⟩] at sent
    exact Option.isSome_iff_exists.mpr ⟨_, sent⟩

/-- A stack that works emits something for an accepted reply, with a source of the client's
family. -/
theorem UdpSession.SourceKept.family {s : UdpSession} (forward : s.status = .forward)
    {client : IpCell} (printed : client.ntoa = some s.initialPacket.srcAddr) {data : Bytes}
    (small : data.length ≤ recvBufSize) (kept : s.SourceKept client.ip data) {source : IpAddr}
    {port : Port} {payload : Bytes}
    (shape : data.drop 3 = source.atyp :: source.bytes ++ beBytes2 port.toNat ++ payload) :
    source.isV6 = client.ip.isV6 := by
  have accepted := outRecv_source forward shape
  obtain ⟨datagram, emitted⟩ := injected_working (s.reply source.address.text port payload) (by
    have length := congrArg List.length shape
    rw [List.length_drop, List.length_append] at length
    change payload.length ≤ recvBufSize
    omega)
  obtain ⟨sourceKept, _⟩ := kept source port payload shape _ accepted _ _ _ _ emitted
  obtain ⟨_, _, family, _⟩ := injected_reply printed emitted
  rw [sourceKept] at family
  exact family

/-- For a datagram from the proxy in a session with a client of either family: what is injected
for it carries the source address of its header exactly if that address is of the family of the
client's address, or nothing is accepted. -/
theorem reply_source_kept (s : UdpSession) (forward : s.status = .forward) (client : IpCell)
    (printed : client.ntoa = some s.initialPacket.srcAddr) (data : Bytes)
    (small : data.length ≤ recvBufSize) :
    s.SourceKept client.ip data ↔
      (Socks5Field (data.drop 3) → data.getD 3 0 = client.ip.atyp) := by
  constructor
  · intro kept field
    obtain ⟨source, port, payload, shape⟩ := field.exists_ip
    rw [UdpSession.getD_of_shape shape]
    exact (source.atyp_eq_iff client.ip).mpr (kept.family forward printed small shape)
  · intro family source port payload shape packet accepted udp upcb world datagram emitted
    have made := UdpSession.outRecv_source forward shape
    rw [made] at accepted
    have same := List.singleton_inj.mp (List.append_cancel_left accepted)
    rw [← same] at emitted
    obtain ⟨dst, dest, _, kept⟩ := UdpSession.injected_reply printed emitted
    have field : Socks5Field (data.drop 3) := by
      by_contra other
      have rejected := UdpSession.outRecv_rejected (s := s) data (socks5ToAddrport_eq_none other)
      rw [made] at rejected
      exact absurd rejected (by simp)
    refine ⟨kept ((source.atyp_eq_iff client.ip).mp ?_), dst, dest⟩
    rw [← UdpSession.getD_of_shape shape]
    exact family field

/-- The address 10.0.0.2 in memory. -/
abbrev sampleClient : IpCell := .of (.v4 ⟨0x0a000002⟩)

theorem reply_source_kept_sameFamily :
    forwardingSession.SourceKept sampleClient.ip [0, 0, 0, 1, 10, 0, 0, 1, 0, 53, 0x61] ↔
      (Socks5Field (([0, 0, 0, 1, 10, 0, 0, 1, 0, 53, 0x61] : Bytes).drop 3) →
        ([0, 0, 0, 1, 10, 0, 0, 1, 0, 53, 0x61] : Bytes).getD 3 0 = sampleClient.ip.atyp) :=
  reply_source_kept forwardingSession (by decide) sampleClient (by decide)
    [0, 0, 0, 1, 10, 0, 0, 1, 0, 53, 0x61] (by decide)

/-- A reply from 2001:db8::1. -/
abbrev otherFamilyReply : Bytes :=
  [0, 0, 0, 4, 0x20, 0x01, 0x0d, 0xb8, 0, 0, 0, 0, 0, 0, 0, 0, 0, 0, 0, 1, 0, 53, 0x61]

/-- The session of an IPv4 client accepts it, and a datagram from 32.1.13.184 goes out. -/
theorem reply_source_kept_otherFamily :
    udpSessionSystem.Legal (UdpSession.new 0 (samplePacket [0x61])).start
      (forwardingRun ++ [.completion (.received otherFamilyReply)]) ∧
    sampleClient.ntoa = some forwardingSession.initialPacket.srcAddr ∧
    ¬ forwardingSession.SourceKept sampleClient.ip otherFamilyReply := by
  have printed : sampleClient.ntoa = some forwardingSession.initialPacket.srcAddr := by decide
  refine ⟨by decide, printed, fun kept => ?_⟩
  have shape : otherFamilyReply.drop 3 = (IpAddr.v6 ⟨0x20010db8, 0, 0, 1⟩).atyp ::
      (IpAddr.v6 ⟨0x20010db8, 0, 0, 1⟩).bytes ++ beBytes2 (53 : Port).toNat ++ [0x61] := by decide
  have family := kept.family (by decide) printed (by decide) shape
  cases family

end Net2Tr
