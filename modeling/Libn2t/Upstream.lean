/-
This file proves what reaches the proxy: the client-to-server direction of a
session.

The flow gives the order of the bytes. What it leaves open is the destination
the request names, which is read from the pcb when the server's method reply
arrives. After the client's FIN the socket closes the pcb itself, and lwIP then
frees it on the last acknowledgement without telling anyone, so the request is
right exactly as long as that reply is not processed after the pcb is gone.
-/

import Libn2t.Handshake

namespace Net2Tr

namespace TcpSession

/-! ### The destination -/

/-- The method reply is not processed after lwIP has freed the pcb. -/
def OwnsPcbAtRequest (s : TcpSession) : TcpEvent → Prop
  | .read data _ => s.status = .handshake → data = methodReply → s.pcb.freed = false
  | _ => True

instance (s : TcpSession) (event : TcpEvent) : Decidable (s.OwnsPcbAtRequest event) :=
  match event with
  | .read data _ => inferInstanceAs (Decidable (s.status = .handshake → data = methodReply → _))
  | .connected _ | .wrote _ | .readError | .recv _ | .fin | .sent _ | .finalAck | .rst | .abort
  | .reuse .. => isTrue trivial

/-- As long as lwIP owns the pcb it holds the original destination, and the request, if there is
one, names it. -/
structure Named (localIp : IpCell) (localPort : Port) (s : TcpSession) : Prop where
  owned : s.pcb.freed = false → s.pcb.localIp = localIp ∧ s.pcb.localPort = localPort
  named : s.requested = none ∨ s.requested = connectRequest localIp localPort

theorem Named.step {localIp : IpCell} {localPort : Port} {s : TcpSession}
    (named : Named localIp localPort s) (flow : s.Flow) (event : TcpEvent)
    (enabled : s.enabled event) (owns : s.OwnsPcbAtRequest event) :
    Named localIp localPort (s.step event) := by
  constructor
  · intro live
    cases frees : freesPcb event with
    | true => cases live.symm.trans (s.freed_step event frees)
    | false =>
      by_cases reused : ∃ ip1 ip2 port1 port2, event = .reuse ip1 ip2 port1 port2
      · obtain ⟨_, _, _, _, rfl⟩ := reused
        cases enabled.2.symm.trans live
      · have frame := s.frame_step event frees fun ip1 ip2 port1 port2 same =>
          reused ⟨ip1, ip2, port1, port2, same⟩
        obtain ⟨ip, port⟩ := named.owned (frame.freed.symm.trans live)
        exact ⟨frame.localIp.trans ip, frame.localPort.trans port⟩
  · rcases requested_step flow.paced event enabled with same | ⟨handshake, ⟨accepted, rfl⟩, built⟩
    · rw [same]
      exact named.named
    · obtain ⟨ip, port⟩ := named.owned (owns handshake rfl)
      rw [built, ip, port]
      exact Or.inr rfl

/-- What a session may write for a destination: the greeting, the request for it, and the
client's bytes. -/
theorem Named.written {localIp : IpCell} {localPort : Port} {s : TcpSession}
    (named : Named localIp localPort s) (flow : s.Flow) {request : Bytes}
    (built : connectRequest localIp localPort = some request) :
    s.written.flatten <+: greeting ++ request ++ s.delivered ∧
      ((greeting ++ request).length < s.written.flatten.length → Accepted s.reads) := by
  rcases flow.written with none | greeted | ⟨other, chunks, written, inside, only⟩
  · rw [none]
    refine ⟨List.nil_prefix, ?_⟩
    intro long
    cases long
  · rw [greeted, List.flatten_singleton, List.append_assoc]
    refine ⟨List.prefix_append _ _, ?_⟩
    intro long
    rw [List.length_append] at long
    omega
  · have same : other = request := by
      rcases named.named with missing | named
      · rw [requested, written] at missing
        cases missing
      · rw [requested, written, built] at named
        exact Option.some.inj named
    rw [written, same, List.flatten_cons, List.flatten_cons, ← List.append_assoc]
    refine ⟨(List.prefix_append_right_inj _).mpr inside, ?_⟩
    intro long
    refine only ?_
    rintro rfl
    rw [List.flatten_nil, List.append_nil] at long
    omega

end TcpSession

/-- In every run that does not process the method reply after lwIP has freed the pcb, what the
session has written is a prefix of the greeting, the request for the connection's original
destination and the client's bytes as lwIP delivered them; and a client byte is written only
after both replies of the server were accepted. -/
theorem client_to_server (localIp remoteIp : IpCell) (localPort remotePort : Port)
    (events : List TcpEvent)
    (guarded : tcpSystem.Guarded TcpSession.OwnsPcbAtRequest
      (.init localIp remoteIp localPort remotePort) events) :
    ∃ request, connectRequest localIp localPort = some request ∧
      (tcpSystem.run events (.init localIp remoteIp localPort remotePort)).written.flatten <+:
        greeting ++ request ++
          (tcpSystem.run events (.init localIp remoteIp localPort remotePort)).delivered ∧
      ((greeting ++ request).length < (tcpSystem.run events
          (.init localIp remoteIp localPort remotePort)).written.flatten.length →
        TcpSession.Accepted
          (tcpSystem.run events (.init localIp remoteIp localPort remotePort)).reads) := by
  have start : TcpSession.Named localIp localPort
      (.init localIp remoteIp localPort remotePort) :=
    ⟨fun _ => ⟨rfl, rfl⟩, Or.inl rfl⟩
  have kept := tcpSystem.guarded_induction
    (fun s => s.Wired ∧ s.Flow ∧ TcpSession.Named localIp localPort s)
    (fun _ event enabled owns all => ⟨all.1.step event enabled,
      all.2.1.step all.1 event enabled, all.2.2.step all.2.1 event enabled owns⟩)
    guarded ⟨TcpSession.wired_init _ _ _ _, TcpSession.flow_init _ _ _ _, start⟩
  exact ⟨_, connectRequest_eq localIp localPort,
    kept.2.2.written kept.2.1 (connectRequest_eq localIp localPort)⟩

/-- A full handshake followed by a client segment. -/
abbrev relayingRun : List TcpEvent :=
  [.connected true, .wrote true, .read methodReply true, .wrote true,
    .read [5, 0, 0, 1, 0, 0, 0, 0, 0, 0] true, .recv [0x61, 0x62]]

/-- The handshake and the client's bytes of that run are a prefix of what may be written. -/
theorem client_to_server_relaying :
    ∃ request, connectRequest sampleDst.1 sampleDst.2 = some request ∧
      (tcpSystem.run relayingRun sampleSession).written.flatten <+:
        greeting ++ request ++ (tcpSystem.run relayingRun sampleSession).delivered ∧
      ((greeting ++ request).length <
          (tcpSystem.run relayingRun sampleSession).written.flatten.length →
        TcpSession.Accepted (tcpSystem.run relayingRun sampleSession).reads) :=
  client_to_server sampleDst.1 sampleSrc.1 sampleDst.2 sampleSrc.2 relayingRun (by decide)

/-- The client closes before the proxy has chosen a method, and the block of its pcb is freed
and used again for a connection to `10.0.0.9:80`. -/
abbrev reusedRun : List TcpEvent :=
  [.connected true, .wrote true, .fin, .finalAck,
    .reuse (.of (.v4 ⟨0x0A000009⟩)) (.of (.v4 ⟨0x0A000002⟩)) 80 5001, .read methodReply true]

/-- The request of the first session then names the destination of the second. -/
theorem client_to_server_reused :
    tcpSystem.Legal sampleSession reusedRun ∧
    ∃ request, connectRequest sampleDst.1 sampleDst.2 = some request ∧
      ¬ (tcpSystem.run reusedRun sampleSession).written.flatten <+:
        greeting ++ request ++ (tcpSystem.run reusedRun sampleSession).delivered :=
  ⟨by decide, _, connectRequest_eq _ _, by decide⟩

end Net2Tr
