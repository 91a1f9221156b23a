/-
This file proves which datagrams from the proxy `UDPSession::out_recv` turns
into packets for the client.

The guard for `RSV` and `FRAG` joins its two halves with "and", so it rejects
only datagrams of at most three bytes. A longer datagram is accepted whatever
its first three bytes are, as soon as an address field follows them.
-/

import Libn2t.UdpForward

namespace Net2Tr

/-- A datagram that is no fragment: three zero bytes, an address, a port and the payload. -/
def Unfragmented (data : Bytes) (address : Address) (port : Port) (payload : Bytes) : Prop :=
  address.WellFormed ∧ data = udpHead ++ address.socks5 ++ portBytes port ++ payload

namespace UdpSession

/-- The packet for the client that carries a payload from an address. -/
structure Reports (s : UdpSession) (address : Address) (port : Port) (payload : Bytes)
    (packet : UdpPacket) : Prop where
  srcAddr : fromString packet.srcAddr = some address
  srcPort : packet.srcPort = port
  destination : packet.destination = s.source
  data : packet.data = payload

/-- A datagram is turned into exactly one packet, which reports it, if it is no fragment, and into
none otherwise. -/
def AcceptsExactly (s : UdpSession) (data : Bytes) : Prop :=
  (∀ address port payload, Unfragmented data address port payload →
    ∃ packet, (s.outRecv data).1.replies = s.replies ++ [packet] ∧
      s.Reports address port payload packet) ∧
  ((∀ address port payload, ¬ Unfragmented data address port payload) →
    (s.outRecv data).1.replies = s.replies)

theorem destroy_replies (s : UdpSession) : s.destroy.replies = s.replies := by
  unfold destroy
  split <;> rfl

theorem outRecv_rejected {s : UdpSession} (data : Bytes)
    (rejected : socks5ToAddrport (data.drop 3) = none) :
    (s.outRecv data).1.replies = s.replies := by
  unfold outRecv
  dsimp only
  split
  · split
    · exact destroy_replies _
    · split
      · rfl
      · rename_i socks5 tail
        have same : data.drop 3 = socks5 := by
          unfold substr at tail
          split at tail
          · exact Option.some.inj tail
          · cases tail
        rw [← same, rejected]
        exact destroy_replies _
  · rfl

/-- Whatever the first three bytes are, an address field behind them is accepted. -/
theorem outRecv_accepted {s : UdpSession} (forward : s.status = .forward) (head : Bytes)
    (three : head.length = 3) {address : Address} (wellFormed : address.WellFormed)
    (port : Port) (payload : Bytes) :
    (s.outRecv (head ++ address.socks5 ++ portBytes port ++ payload)).1.replies =
      s.replies ++ [s.reply address.text port payload] := by
  obtain ⟨high, low, bytes, value⟩ := portOf_portBytes port
  have field : (head ++ address.socks5 ++ portBytes port ++ payload).drop 3 =
      address.socks5 ++ high :: low :: payload := by
    rw [bytes, List.append_assoc, List.append_assoc, ← three, List.drop_left]
    rfl
  have long : (head ++ address.socks5 ++ portBytes port ++ payload).length =
      address.socks5.length + 2 + 3 + payload.length := by
    rw [bytes]
    simp only [List.length_append, three, List.length_cons, List.length_nil]
    omega
  have tail : substr (head ++ address.socks5 ++ portBytes port ++ payload) 3 =
      some (address.socks5 ++ high :: low :: payload) := by
    rw [substr, if_pos (by omega), field]
  have rest : substr (head ++ address.socks5 ++ portBytes port ++ payload)
      (address.socks5.length + 2 + 3) = some payload := by
    rw [substr, if_pos (by omega), Nat.add_comm _ 3, ← List.drop_drop, field,
      List.drop_length_add_append]
    rfl
  have notShort : ¬ ((head ++ address.socks5 ++ portBytes port ++ payload).length ≤ 3 ∧
      (head ++ address.socks5 ++ portBytes port ++ payload).take 3 ≠ udpHead) := by
    rintro ⟨short, _⟩
    omega
  have status : s.cancelTimer.asyncWaitTimer.status = .forward := forward
  unfold outRecv
  dsimp only
  rw [if_pos status, if_neg notShort, tail]
  dsimp only
  rw [socks5ToAddrport_socks5 address wellFormed]
  dsimp only
  rw [rest, value]
  rfl

/-- A datagram that is no fragment starts with zeros, and an address field follows. -/
theorem unfragmented_iff (data : Bytes) :
    (∃ address port payload, Unfragmented data address port payload) ↔
      data.take 3 = udpHead ∧ Socks5Field (data.drop 3) := by
  constructor
  · rintro ⟨address, port, payload, wellFormed, rfl⟩
    obtain ⟨high, low, bytes, _⟩ := portOf_portBytes port
    rw [List.append_assoc, List.append_assoc]
    refine ⟨List.take_left' rfl, ?_⟩
    have field : (udpHead ++ (address.socks5 ++ (portBytes port ++ payload))).drop 3 =
        address.socks5 ++ high :: low :: payload := by
      rw [bytes]
      exact List.drop_left' rfl
    rw [field]
    exact .of_address wellFormed high low payload
  · rintro ⟨head, field⟩
    obtain ⟨address, wellFormed, high, low, payload, shape⟩ := field.exists_address
    refine ⟨address, portOf high low, payload, wellFormed, ?_⟩
    rw [portBytes_portOf, ← head, List.append_assoc, List.append_assoc]
    exact (List.take_append_drop 3 data).symm.trans (congrArg (data.take 3 ++ ·) shape)

theorem accepts_unfragmented {s : UdpSession} (forward : s.status = .forward) {data : Bytes}
    {address : Address} {port : Port} {payload : Bytes}
    (unfragmented : Unfragmented data address port payload) :
    ∃ packet, (s.outRecv data).1.replies = s.replies ++ [packet] ∧
      s.Reports address port payload packet := by
  obtain ⟨wellFormed, rfl⟩ := unfragmented
  exact ⟨s.reply address.text port payload,
    outRecv_accepted forward udpHead rfl wellFormed port payload,
    ⟨address.fromString_text wellFormed, rfl, rfl, rfl⟩⟩

end UdpSession

/-- `out_recv` accepts exactly the datagrams that are no fragment, if the datagram starts with
three zeros or no address field stands behind its first three bytes. -/
theorem replies_unfragmented (s : UdpSession) (forward : s.status = .forward) (data : Bytes) :
    s.AcceptsExactly data ↔ data.take 3 = udpHead ∨ ¬ Socks5Field (data.drop 3) := by
  constructor
  · intro exactly
    by_contra both
    obtain ⟨head, field⟩ := not_or.mp both
    have behind := not_not.mp field
    have none : ∀ address port payload, ¬ Unfragmented data address port payload :=
      fun address port payload unfragmented =>
        head ((UdpSession.unfragmented_iff data).mp ⟨address, port, payload, unfragmented⟩).1
    obtain ⟨address, wellFormed, high, low, payload, shape⟩ := behind.exists_address
    have three : (data.take 3).length = 3 := by
      have nonempty : 0 < (data.drop 3).length := by
        rw [shape, List.length_append, List.length_cons]
        omega
      rw [List.length_drop] at nonempty
      rw [List.length_take]
      omega
    have whole : data.take 3 ++ address.socks5 ++ portBytes (portOf high low) ++ payload =
        data := by
      rw [portBytes_portOf, List.append_assoc, List.append_assoc]
      exact (congrArg (data.take 3 ++ ·) shape).symm.trans (List.take_append_drop 3 data)
    have accepted := UdpSession.outRecv_accepted forward (data.take 3) three wellFormed
      (portOf high low) payload
    rw [whole, exactly.2 none] at accepted
    have length := congrArg List.length accepted
    rw [List.length_append, List.length_singleton] at length
    omega
  · intro condition
    refine ⟨fun address port payload => UdpSession.accepts_unfragmented forward, fun none => ?_⟩
    refine UdpSession.outRecv_rejected data ((socks5ToAddrport_eq_none_iff _).mpr fun field => ?_)
    rcases condition with head | rejected
    · obtain ⟨address, port, payload, unfragmented⟩ :=
        (UdpSession.unfragmented_iff data).mpr ⟨head, field⟩
      exact none address port payload unfragmented
    · exact rejected field

/-- The session of 10.0.0.2:5000 with its association standing. -/
abbrev forwardingSession : UdpSession :=
  udpSessionSystem.run forwardingRun (UdpSession.new 0 (samplePacket [0x61])).start

theorem replies_unfragmented_reply :
    forwardingSession.AcceptsExactly ([0, 0, 0, 1, 10, 0, 0, 1, 0, 53, 0x61] : Bytes) ↔
      ([0, 0, 0, 1, 10, 0, 0, 1, 0, 53, 0x61] : Bytes).take 3 = udpHead ∨
        ¬ Socks5Field (([0, 0, 0, 1, 10, 0, 0, 1, 0, 53, 0x61] : Bytes).drop 3) :=
  replies_unfragmented forwardingSession (by decide) [0, 0, 0, 1, 10, 0, 0, 1, 0, 53, 0x61]

/-- The first fragment of a datagram. -/
abbrev fragmentReply : Bytes := [0, 0, 1, 1, 10, 0, 0, 1, 0, 53, 0x61]

/-- It is accepted, in a session that a run reaches. -/
theorem replies_unfragmented_fragment :
    udpSessionSystem.Legal (UdpSession.new 0 (samplePacket [0x61])).start
      (forwardingRun ++ [.completion (.received fragmentReply)]) ∧
    forwardingSession.status = .forward ∧ ¬ forwardingSession.AcceptsExactly fragmentReply := by
  refine ⟨by decide, by decide, fun exactly => ?_⟩
  have none : ∀ address port payload, ¬ Unfragmented fragmentReply address port payload := by
    rintro address port payload ⟨_, shape⟩
    have third : fragmentReply.take 3 = udpHead := by
      rw [shape, List.append_assoc, List.append_assoc]
      exact List.take_left' rfl
    exact absurd third (by decide)
  exact absurd (exactly.2 none) (by decide)

end Net2Tr
