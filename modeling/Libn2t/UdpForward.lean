/-
This file proves what a `UDPSession` sends to the proxy. Datagrams reach
`out_sock` on three ways, as the initial packet, out of the queue that is
flushed when the association stands, and directly after that; the queue is
never cleared. From the flush until the session is destroyed what has been sent
is the initial packet and the datagrams taken so far, in order and once each.

The runs are those of one session whose datagrams carry address texts, which is
what the receive callback of `N2T` puts there, and whose sends succeed.
-/

import Libn2t.Socks5Codec
import Libn2t.UdpSession

namespace Net2Tr

namespace UdpPacket

/-- The destination is the text of an address. -/
def Addressed (packet : UdpPacket) : Prop := (fromString packet.dstAddr).isSome

instance (packet : UdpPacket) : Decidable packet.Addressed :=
  inferInstanceAs (Decidable (_ = true))

/-- A packet as it goes to the proxy. -/
def encoded (packet : UdpPacket) : Option Bytes :=
  (addrportToSocks5 packet.dstAddr packet.dstPort).map fun socks5 =>
    udpHead ++ socks5 ++ packet.data

theorem Addressed.exists_socks5 {packet : UdpPacket} (addressed : packet.Addressed) :
    ∃ socks5, addrportToSocks5 packet.dstAddr packet.dstPort = some socks5 := by
  obtain ⟨address, parsed⟩ := Option.isSome_iff_exists.mp addressed
  exact ⟨_, by rw [addrportToSocks5, parsed, Option.map_some]⟩

end UdpPacket

/-! ### Runs of one session -/

/-- A datagram offered to the session, or a completion. -/
inductive UdpRunEvent where
  | process (packet : UdpPacket)
  | completion (event : UdpEvent)
deriving DecidableEq, Repr

/-- No send in the handler of the event fails. -/
def UdpEvent.sends : UdpEvent → Prop
  | .read _ _ failing => failing = none
  | _ => True

namespace UdpSession

/-- The event can happen; sends succeed and datagrams carry address texts. -/
def runEnabled (s : UdpSession) : UdpRunEvent → Prop
  | .process packet => s.alive ∧ packet.Addressed
  | .completion event => s.enabled event ∧ event.sends

/-- The effect of an event. -/
def runStep (s : UdpSession) : UdpRunEvent → UdpSession
  | .process packet => ((s.process packet false).map Prod.fst).getD s
  | .completion event => (s.step event).1

end UdpSession

/-- One session as a transition system. -/
def udpSessionSystem : Transition.System UdpSession UdpRunEvent where
  enabled := UdpSession.runEnabled
  step := UdpSession.runStep

instance (event : UdpEvent) : Decidable event.sends :=
  match event with
  | .read _ _ failing => inferInstanceAs (Decidable (failing = none))
  | .connected _ | .wrote _ | .readError | .received _ | .receiveError | .expire | .waited _ =>
    isTrue trivial

instance (s : UdpSession) (event : UdpRunEvent) : Decidable (udpSessionSystem.enabled s event) :=
  match event with
  | .process packet => inferInstanceAs (Decidable (s.alive ∧ packet.Addressed))
  | .completion event => inferInstanceAs (Decidable (s.enabled event ∧ event.sends))

namespace UdpSession

/-! ### What has been sent -/

/-- Before the association stands nothing has been sent and the taken datagrams are queued; while
it stands all taken datagrams have been sent. -/
structure Forwards (s : UdpSession) : Prop where
  waiting : s.status = .handshake ∨ s.status = .request →
    s.sent = [] ∧ s.accepted = s.initialPacket :: s.sendQue
  forwarding : s.status = .forward → s.sent.map some = s.accepted.map UdpPacket.encoded
  addressed : ∀ packet ∈ s.accepted, packet.Addressed

/-- A step that leaves these fields alone. -/
theorem Forwards.of_eq {s t : UdpSession} (forwards : s.Forwards) (status : t.status = s.status)
    (sent : t.sent = s.sent) (accepted : t.accepted = s.accepted)
    (initialPacket : t.initialPacket = s.initialPacket) (sendQue : t.sendQue = s.sendQue) :
    t.Forwards := by
  obtain ⟨waiting, forwarding, addressed⟩ := forwards
  refine ⟨?_, ?_, ?_⟩
  · rw [status, sent, accepted, initialPacket, sendQue]
    exact waiting
  · rw [status, sent, accepted]
    exact forwarding
  · rw [accepted]
    exact addressed

theorem destroy_status (s : UdpSession) : s.destroy.status = .destroy := by
  unfold destroy
  split
  · assumption
  · rfl

/-- Of a destroyed session nothing is claimed. -/
theorem Forwards.destroyed {s t : UdpSession} (forwards : s.Forwards)
    (status : t.status = .destroy) (accepted : t.accepted = s.accepted) : t.Forwards := by
  refine ⟨fun wrong => ?_, fun wrong => ?_, ?_⟩
  · rcases wrong with wrong | wrong <;> cases status.symm.trans wrong
  · cases status.symm.trans wrong
  · rw [accepted]
    exact forwards.addressed

theorem Forwards.destroy {s : UdpSession} (forwards : s.Forwards) : s.destroy.Forwards :=
  forwards.destroyed s.destroy_status s.evolves_destroy.accepted

/-- A datagram that is sent at once. -/
theorem inRecv_sent {s : UdpSession} (forward : s.status = .forward) {packet : UdpPacket}
    (addressed : packet.Addressed) :
    (s.inRecv packet false).2 = false ∧ (s.inRecv packet false).1.status = .forward ∧
      (s.inRecv packet false).1.sent.map some = s.sent.map some ++ [packet.encoded] := by
  obtain ⟨socks5, parsed⟩ := addressed.exists_socks5
  have status : s.cancelTimer.asyncWaitTimer.status = .forward := forward
  unfold inRecv
  dsimp only
  rw [if_pos status, parsed, UdpPacket.encoded, parsed]
  refine ⟨rfl, status, ?_⟩
  show (s.sent ++ [udpHead ++ socks5 ++ packet.data]).map some = _
  rw [List.map_append]
  rfl

/-- The flush. -/
theorem inRecvAll_sent (packets : List UdpPacket) {s : UdpSession} (forward : s.status = .forward)
    (addressed : ∀ packet ∈ packets, packet.Addressed) :
    (inRecvAll none packets s).1.status = .forward ∧
      (inRecvAll none packets s).1.sent.map some =
        s.sent.map some ++ packets.map UdpPacket.encoded := by
  induction packets generalizing s with
  | nil => exact ⟨forward, (List.append_nil _).symm⟩
  | cons packet rest inductionHypothesis =>
    obtain ⟨returns, status, sent⟩ := inRecv_sent forward (addressed packet List.mem_cons_self)
    obtain ⟨later, all⟩ := inductionHypothesis status
      fun other member => addressed other (List.mem_cons_of_mem _ member)
    unfold inRecvAll
    dsimp only
    rw [show decide ((none : Option Nat) = some 0) = false from rfl, returns,
      if_neg Bool.noConfusion]
    refine ⟨later, all.trans ?_⟩
    rw [sent, List.append_assoc]
    rfl

/-- The flush sends the initial packet and what is queued. -/
theorem Forwards.flush {s t : UdpSession} (forwards : s.Forwards) (request : s.status = .request)
    (forward : t.status = .forward) (sent : t.sent = s.sent) (accepted : t.accepted = s.accepted) :
    (inRecvAll none (s.initialPacket :: s.sendQue) t).1.Forwards := by
  obtain ⟨nothing, queued⟩ := forwards.waiting (Or.inr request)
  have evolves := t.evolves_inRecvAll (s.initialPacket :: s.sendQue) none
  obtain ⟨status, flushed⟩ := inRecvAll_sent (s.initialPacket :: s.sendQue) forward
    (queued ▸ forwards.addressed)
  refine ⟨fun wrong => ?_, fun _ => ?_, ?_⟩
  · rcases wrong with wrong | wrong <;> cases status.symm.trans wrong
  · rw [evolves.accepted, flushed, sent, nothing, accepted, queued]
    rfl
  · rw [evolves.accepted, accepted]
    exact forwards.addressed

theorem Forwards.tcpRecv {s : UdpSession} (forwards : s.Forwards) (data : Bytes)
    (connectOk : Bool) : (s.tcpRecv data connectOk none).1.Forwards := by
  unfold UdpSession.tcpRecv
  split
  · rename_i handshake
    split
    · exact forwards.destroy
    · obtain ⟨sent, accepted⟩ := forwards.waiting (Or.inl handshake)
      exact ⟨fun _ => ⟨sent, accepted⟩, (fun wrong => by cases wrong), forwards.addressed⟩
  · rename_i request
    split
    · exact forwards.destroy
    · split
      · exact forwards.destroy
      · split
        · exact forwards
        · split
          · exact forwards.flush request rfl rfl rfl
          · exact Forwards.destroyed forwards (destroy_status _) (evolves_destroy _).accepted
  · exact forwards.destroy
  · exact forwards

theorem Forwards.outRecv {s : UdpSession} (forwards : s.Forwards) (data : Bytes) :
    (s.outRecv data).1.Forwards := by
  have waiting : s.cancelTimer.asyncWaitTimer.Forwards := forwards.of_eq rfl rfl rfl rfl rfl
  unfold UdpSession.outRecv
  dsimp only
  split
  · split
    · exact waiting.destroy
    · split
      · exact waiting
      · split
        · exact waiting.destroy
        · split
          · exact waiting
          · exact waiting.of_eq rfl rfl rfl rfl rfl
  · exact waiting

theorem Forwards.tcpSent {s : UdpSession} (forwards : s.Forwards) : s.tcpSent.Forwards := by
  unfold UdpSession.tcpSent
  split <;> exact forwards.of_eq rfl rfl rfl rfl rfl

theorem Forwards.release {s : UdpSession} (forwards : s.Forwards) : s.release.Forwards := by
  unfold UdpSession.release
  split
  · exact forwards
  · exact forwards.destroy.of_eq rfl rfl rfl rfl rfl

theorem Forwards.step {s : UdpSession} (forwards : s.Forwards) {event : UdpEvent}
    (sends : event.sends) : (s.step event).1.Forwards := by
  have completed (kind : UdpOpKind) (ok : Bool) : (s.complete kind ok).Forwards :=
    forwards.of_eq rfl rfl rfl rfl rfl
  refine Forwards.release ?_
  cases event with
  | connected ok =>
    cases ok with
    | false => exact (completed .connect false).destroy
    | true => exact (completed .connect true).of_eq rfl rfl rfl rfl rfl
  | wrote ok =>
    cases ok with
    | false => exact (completed .tcpWrite false).destroy
    | true => exact (completed .tcpWrite true).tcpSent
  | read data connectOk failing =>
    have succeeds : failing = none := sends
    rw [succeeds]
    exact (completed .tcpRead true).tcpRecv data connectOk
  | readError => exact (completed .tcpRead false).destroy
  | received data => exact (completed .outRead true).outRecv data
  | receiveError => exact (completed .outRead false).destroy
  | expire => exact forwards.of_eq rfl rfl rfl rfl rfl
  | waited ok =>
    have waited : { s with waits := s.waits.erase (outcome ok) }.Forwards :=
      forwards.of_eq rfl rfl rfl rfl rfl
    cases ok with
    | false => exact waited
    | true => exact waited.destroy

/-- A datagram is taken: it goes out at once or into the queue. -/
theorem Forwards.process {s : UdpSession} (forwards : s.Forwards) {packet : UdpPacket}
    (addressed : packet.Addressed) :
    ({ s with accepted := s.accepted ++ [packet] }.inRecv packet false).1.Forwards := by
  have evolves := evolves_inRecv { s with accepted := s.accepted ++ [packet] } packet false
  have everyAddressed : ∀ other ∈ s.accepted ++ [packet], other.Addressed := by
    intro other member
    rcases List.mem_append.mp member with old | new
    · exact forwards.addressed other old
    · rw [List.mem_singleton.mp new]
      exact addressed
  by_cases forward : s.status = .forward
  · obtain ⟨_, status, sent⟩ := inRecv_sent
      (s := { s with accepted := s.accepted ++ [packet] }) forward addressed
    refine ⟨fun wrong => ?_, fun _ => ?_, ?_⟩
    · rcases wrong with wrong | wrong <;> cases status.symm.trans wrong
    · rw [evolves.accepted, sent]
      show s.sent.map some ++ _ = (s.accepted ++ [packet]).map UdpPacket.encoded
      rw [forwards.forwarding forward, List.map_append]
      rfl
    · rw [evolves.accepted]
      exact everyAddressed
  · have queued : { s with accepted := s.accepted ++ [packet] }.inRecv packet false =
        ({ { s with accepted := s.accepted ++ [packet] }.cancelTimer.asyncWaitTimer with
          sendQue := s.sendQue ++ [packet] }, false) := by
      unfold inRecv
      dsimp only
      rw [if_neg]
      · rfl
      · exact forward
    rw [queued]
    refine ⟨fun waiting => ?_, fun wrong => absurd wrong forward, everyAddressed⟩
    obtain ⟨sent, accepted⟩ := forwards.waiting waiting
    refine ⟨sent, ?_⟩
    show s.accepted ++ [packet] = s.initialPacket :: (s.sendQue ++ [packet])
    rw [accepted]
    rfl

theorem Forwards.runStep {s : UdpSession} (forwards : s.Forwards) (event : UdpRunEvent)
    (enabled : s.runEnabled event) : (s.runStep event).Forwards := by
  cases event with
  | process packet =>
    show (((s.process packet false).map Prod.fst).getD s).Forwards
    unfold UdpSession.process
    split
    · exact forwards
    · exact forwards.process enabled.2
  | completion event => exact forwards.step enabled.2

/-! ### What has been taken -/

/-- The datagram an event makes the session with this source take. -/
def taken (source : Text × Port) : UdpRunEvent → Option UdpPacket
  | .process packet => if packet.source = source then some packet else none
  | .completion _ => none

theorem runStep_source (s : UdpSession) (event : UdpRunEvent) :
    (s.runStep event).source = s.source := by
  cases event with
  | process packet =>
    show (((s.process packet false).map Prod.fst).getD s).source = s.source
    cases process : s.process packet false with
    | none => rfl
    | some result =>
      obtain ⟨t, threw⟩ := result
      exact (evolves_process process).source
  | completion event => exact (s.evolves_step event).source

theorem runStep_accepted (s : UdpSession) (event : UdpRunEvent) :
    (s.runStep event).accepted = s.accepted ++ (taken s.source event).toList := by
  cases event with
  | process packet =>
    show (((s.process packet false).map Prod.fst).getD s).accepted = _
    cases process : s.process packet false with
    | none =>
      have other := (s.process_eq_none_iff packet false).mp process
      rw [taken, if_neg other]
      exact (List.append_nil _).symm
    | some result =>
      obtain ⟨t, threw⟩ := result
      have own : packet.source = s.source := by
        by_contra other
        rw [(s.process_eq_none_iff packet false).mpr other] at process
        cases process
      rw [taken, if_pos own]
      exact (evolves_process process).accepted
  | completion event =>
    rw [taken, Option.toList_none, List.append_nil]
    exact (s.evolves_step event).accepted

theorem accepted_run (s : UdpSession) (events : List UdpRunEvent)
    (legal : udpSessionSystem.Legal s events) :
    (udpSessionSystem.run events s).accepted =
      s.accepted ++ events.filterMap (taken s.source) :=
  udpSessionSystem.run_log (fun state => state.source = s.source) UdpSession.accepted
    (taken s.source)
    (fun state event _ source => (state.runStep_source event).trans source)
    (fun state event _ source => source ▸ state.runStep_accepted event) legal rfl

end UdpSession

/-- In every run of a session, whatever the order in which its datagrams arrive: nothing is sent
to the proxy before the association stands, and while it stands the initial packet and the
datagrams taken so far have been sent, each once and in order. -/
theorem datagrams_forwarded (id : Nat) (initialPacket : UdpPacket) (events : List UdpRunEvent)
    (addressed : initialPacket.Addressed)
    (legal : udpSessionSystem.Legal (UdpSession.new id initialPacket).start events) :
    ((udpSessionSystem.run events (UdpSession.new id initialPacket).start).status = .handshake ∨
        (udpSessionSystem.run events (UdpSession.new id initialPacket).start).status =
          .request →
      (udpSessionSystem.run events (UdpSession.new id initialPacket).start).sent = []) ∧
    ((udpSessionSystem.run events (UdpSession.new id initialPacket).start).status = .forward →
      (udpSessionSystem.run events (UdpSession.new id initialPacket).start).sent.map some =
        (initialPacket :: events.filterMap (UdpSession.taken initialPacket.source)).map
          UdpPacket.encoded) := by
  have start : (UdpSession.new id initialPacket).start.Forwards := by
    refine ⟨fun _ => ⟨rfl, rfl⟩, (fun wrong => by cases wrong), ?_⟩
    intro packet member
    rw [List.mem_singleton.mp member]
    exact addressed
  have forwards := udpSessionSystem.invariant UdpSession.Forwards
    (fun _ event enabled forwards => forwards.runStep event enabled) legal start
  have accepted := UdpSession.accepted_run _ events legal
  refine ⟨fun waiting => (forwards.waiting waiting).1, fun forward => ?_⟩
  rw [forwards.forwarding forward, accepted]
  rfl

/-- A datagram from 10.0.0.2. -/
abbrev samplePacket (data : Bytes) : UdpPacket where
  srcAddr := "10.0.0.2".toList
  srcPort := 5000
  dstAddr := "10.0.0.1".toList
  dstPort := 53
  data := data

/-- Datagrams before, during and after the handshake. -/
abbrev forwardingRun : List UdpRunEvent :=
  [.process (samplePacket [0x62]), .completion (.connected true), .completion (.wrote true),
    .completion (.read methodReply true none), .process (samplePacket [0x63]),
    .completion (.wrote true),
    .completion (.read [5, 0, 0, 1, 127, 0, 0, 1, 4, 56] true none),
    .process (samplePacket [0x64])]

theorem datagrams_forwarded_threeWays :
    ((udpSessionSystem.run forwardingRun
          (UdpSession.new 0 (samplePacket [0x61])).start).status = .handshake ∨
        (udpSessionSystem.run forwardingRun
          (UdpSession.new 0 (samplePacket [0x61])).start).status = .request →
      (udpSessionSystem.run forwardingRun
        (UdpSession.new 0 (samplePacket [0x61])).start).sent = []) ∧
    ((udpSessionSystem.run forwardingRun
        (UdpSession.new 0 (samplePacket [0x61])).start).status = .forward →
      (udpSessionSystem.run forwardingRun
          (UdpSession.new 0 (samplePacket [0x61])).start).sent.map some =
        (samplePacket [0x61] :: forwardingRun.filterMap
          (UdpSession.taken (samplePacket [0x61]).source)).map UdpPacket.encoded) :=
  datagrams_forwarded 0 (samplePacket [0x61]) forwardingRun (by decide) (by decide)

end Net2Tr
