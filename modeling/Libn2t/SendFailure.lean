/-
This file is about `out_sock.send`, which throws when the datagram cannot be
sent, for example after an ICMP error on the connected socket.

Nobody catches the exception, while `connect`, `cancel` and `close` report
through an error code. It leaves the handler of the session and everything that
has called it: on the direct path the handler of `async_read_udp` before it has
registered itself again and `N2T::input` under it, in the flush the completion
of the proxy's reply, and in both cases `context.run()`.
-/

import Libn2t.Association
import Libn2t.N2S

namespace Net2Tr

namespace UdpSession

/-! ### When a session throws -/

theorem inRecv_threw (s : UdpSession) {packet : UdpPacket} (addressed : packet.Addressed)
    (fails : Bool) : (s.inRecv packet fails).2 = true ↔ s.status = .forward ∧ fails = true := by
  obtain ⟨socks5, encoded⟩ := addressed.exists_socks5
  have status : s.cancelTimer.asyncWaitTimer.status = s.status := rfl
  unfold inRecv
  dsimp only
  rw [status, encoded]
  split
  · rename_i forward
    cases fails with
    | false => exact ⟨(fun wrong => by cases wrong), fun wrong => by cases wrong.2⟩
    | true => exact ⟨fun _ => ⟨forward, rfl⟩, fun _ => rfl⟩
  · rename_i other
    exact ⟨(fun wrong => by cases wrong), fun wrong => absurd wrong.1 other⟩

/-- The flush throws if the `send` of one of its packets fails. -/
theorem inRecvAll_threw {packets : List UdpPacket}
    (addressed : ∀ packet ∈ packets, packet.Addressed) (failing : Option Nat) {s : UdpSession}
    (forward : s.status = .forward) :
    (inRecvAll failing packets s).2 = true ↔
      ∃ index, failing = some index ∧ index < packets.length := by
  induction packets generalizing failing s with
  | nil =>
    refine ⟨(fun wrong => by cases wrong), ?_⟩
    rintro ⟨index, _, wrong⟩
    cases wrong
  | cons packet rest inductionHypothesis =>
    have first := s.inRecv_threw (addressed packet List.mem_cons_self) (failing = some 0)
    have status := (s.relayed_inRecv packet (failing = some 0)).status
    unfold inRecvAll
    dsimp only
    split
    · rename_i threw
      obtain ⟨_, zero⟩ := first.mp threw
      exact iff_of_true rfl ⟨0, of_decide_eq_true zero, Nat.succ_pos _⟩
    · rename_i passed
      have later : failing ≠ some 0 := fun zero =>
        passed (first.mpr ⟨forward, decide_eq_true zero⟩)
      rw [inductionHypothesis (fun other member => addressed other (List.mem_cons_of_mem _ member))
        (failing.map (· - 1)) (status.trans forward)]
      constructor
      · rintro ⟨index, shifted, inside⟩
        obtain ⟨position, rfl, rfl⟩ := Option.map_eq_some_iff.mp shifted
        refine ⟨position, rfl, ?_⟩
        rw [List.length_cons]
        omega
      · rintro ⟨index, rfl, inside⟩
        have positive : index ≠ 0 := fun zero => later (congrArg some zero)
        rw [List.length_cons] at inside
        exact ⟨index - 1, rfl, by omega⟩

/-- No other read throws. -/
theorem tcpRecv_quiet {s : UdpSession} {data : Bytes} {connectOk : Bool}
    (other : ¬ s.EntersForward data connectOk) (failing : Option Nat) :
    (s.tcpRecv data connectOk failing).2 = false := by
  unfold tcpRecv
  split
  · split <;> rfl
  · rename_i request
    split
    · rfl
    · rename_i head
      split
      · rfl
      · rename_i decoded
        obtain ⟨_, address, parsed⟩ := socks5ToAddrport_accepted decoded
        rw [parsed]
        dsimp only
        split
        · rename_i connected
          refine absurd ⟨request, connected, not_not.mp (not_or.mp head).2, ?_⟩ other
          rw [decoded]
          rfl
        · rfl
  · rfl
  · rfl

/-- A read throws if it enters `FORWARD` and a `send` of the flush fails. -/
theorem tcpRecv_threw {s : UdpSession}
    (addressed : ∀ packet ∈ s.initialPacket :: s.sendQue, packet.Addressed) (data : Bytes)
    (connectOk : Bool) (failing : Option Nat) :
    (s.tcpRecv data connectOk failing).2 = true ↔ s.EntersForward data connectOk ∧
      ∃ index, failing = some index ∧ index ≤ s.sendQue.length := by
  by_cases enters : s.EntersForward data connectOk
  · obtain ⟨address, port, run⟩ := enters.run failing
    rw [run, and_iff_right enters, inRecvAll_threw addressed failing rfl]
    simp only [List.length_cons, Nat.lt_succ_iff]
  · rw [tcpRecv_quiet enters failing]
    exact iff_of_false Bool.false_ne_true (fun wrong => enters wrong.1)

theorem process_threw {s : UdpSession} {packet : UdpPacket} (addressed : packet.Addressed)
    {fails : Bool} {outcome : UdpSession × Bool} (taken : s.process packet fails = some outcome) :
    outcome.2 = true ↔ s.status = .forward ∧ fails = true := by
  unfold process at taken
  split at taken
  · cases taken
  · rw [← Option.some.inj taken]
    exact inRecv_threw { s with accepted := s.accepted ++ [packet] } addressed fails

end UdpSession

namespace N2S

variable (s : N2S)

/-- The handler of `async_read_udp` is registered, or has been called. -/
def Registered : Prop := s.waiting .udp = true ∨ ∃ packet, .readUdp packet ∈ s.running

/-- An exception leaves the handler that runs. -/
def raises : N2SEvent → Bool
  | .proceed fails => s.throws fails
  | .session id event =>
    s.udpSessions.any fun session => session.id = id && (session.step event).2
  | _ => false

/-- The session is the one whose handler runs. -/
def Handles : N2SEvent → UdpSession → Prop
  | .proceed _, session =>
    ∃ packet rest, s.running = .readUdp packet :: rest ∧ packet.source = session.source
  | .session id _, session => session.id = id
  | _, _ => False

/-- The state behind the event, with the last call of the handler made. -/
def afterwards (event : N2SEvent) : N2S :=
  match (s.step event).running with
  | .asyncReadUdp :: _ => (s.step event).proceed false
  | _ => s.step event

/-- No exception leaves the handler, the UDP handler is registered again behind it unless `stop` has
been called, and all other sessions are as they were. -/
structure Confined (event : N2SEvent) : Prop where
  caught : s.raises event = false
  registered : s.stopped = false → s.Registered → (s.afterwards event).Registered
  others : ∀ session ∈ s.udpSessions, session.alive = true → ¬ s.Handles event session →
    session ∈ (s.step event).udpSessions

/-- Datagrams have address texts, as `N2T` makes them. -/
structure Addressed : Prop where
  calls : ∀ packet, .readUdp packet ∈ s.running → packet.Addressed
  sessions : ∀ session ∈ s.udpSessions, ∀ packet ∈ session.initialPacket :: session.sendQue,
    packet.Addressed

/-- The session that takes the datagram sends it at once. -/
def SendsAtOnce (packet : UdpPacket) : Prop :=
  ∃ session, s.udpSessions.find? (fun session =>
      session.alive && session.source = packet.source) = some session ∧
    session.status = .forward

end N2S

/-! ### The direct path -/

/-- The exception that leaves the loop is that of the first session that takes the datagram. -/
theorem sweep_threw {packet : UdpPacket} (addressed : packet.Addressed) (fails : Bool)
    (sessions : List UdpSession) :
    (sweep packet fails sessions).taker.any Prod.snd = true ↔ fails = true ∧
      ∃ session, sessions.find? (fun session =>
          session.alive && session.source = packet.source) = some session ∧
        session.status = .forward := by
  induction sessions with
  | nil =>
    refine iff_of_false Bool.false_ne_true ?_
    rintro ⟨_, session, wrong, _⟩
    cases wrong
  | cons session rest inductionHypothesis =>
    cases alive : session.alive with
    | false =>
      rw [sweep, alive, List.find?_cons_of_neg (by rw [alive]; exact Bool.false_ne_true)]
      exact inductionHypothesis
    | true =>
      cases taken : session.process packet fails with
      | none =>
        have other : session.source ≠ packet.source :=
          ((session.process_eq_none_iff packet fails).mp taken).symm
        rw [sweep, alive, taken, List.find?_cons_of_neg (by
          rw [alive, Bool.true_and, decide_eq_true_iff]
          exact other)]
        exact inductionHypothesis
      | some outcome =>
        have same : session.source = packet.source := by
          by_contra other
          cases ((session.process_eq_none_iff packet fails).mpr (Ne.symm other)).symm.trans taken
        have threw := UdpSession.process_threw addressed taken
        rw [sweep, alive, taken, List.find?_cons_of_pos (by
          rw [alive, Bool.true_and, decide_eq_true_iff]
          exact same)]
        change outcome.2 = true ↔ _
        rw [threw]
        constructor
        · rintro ⟨forward, failed⟩
          exact ⟨failed, session, rfl, forward⟩
        · rintro ⟨failed, found, first, forward⟩
          rw [Option.some.inj first]
          exact ⟨forward, failed⟩

namespace N2S

variable {s : N2S}

theorem registered_asyncReadUdp (opened : s.stopped = false) : s.asyncReadUdp.Registered := by
  rw [asyncReadUdp, if_neg (by rw [opened]; exact Bool.false_ne_true)]
  rcases s.n2t.udpChannel.register_waits ReadHandler.asyncReadUdp with waits | called
  · exact Or.inl waits
  · obtain ⟨call, called⟩ := Option.isSome_iff_exists.mp called
    refine Or.inr ⟨call.2, ?_⟩
    change _ ∈ ((s.n2t.udpChannel.register ReadHandler.asyncReadUdp).2.map _).toList ++ s.running
    rw [called]
    exact List.mem_cons_self

/-- The last call of the handler registers it. -/
theorem registered_proceed {rest : List N2SCall} (opened : s.stopped = false)
    (running : s.running = .asyncReadUdp :: rest) : (s.proceed false).Registered := by
  unfold proceed
  rw [running]
  exact registered_asyncReadUdp opened

/-- The loop leaves the live sessions of other sources alone. -/
theorem mem_sweep {packet : UdpPacket} {fails : Bool} {sessions : List UdpSession}
    {session : UdpSession} (member : session ∈ sessions) (alive : session.alive = true)
    (other : packet.source ≠ session.source) :
    session ∈ (sweep packet fails sessions).kept := by
  rcases sweep_spec packet fails sessions with missed | ⟨taker, later, threw, found⟩
  · rw [missed.kept]
    exact List.mem_filter.mpr ⟨member, alive⟩
  · obtain ⟨before, after, split, kept, _⟩ := found.split
    rw [kept, List.mem_append, List.mem_cons]
    rw [split, List.mem_append, List.mem_cons] at member
    rcases member with inFront | same | behind
    · exact Or.inl (List.mem_filter.mpr ⟨inFront, alive⟩)
    · exact absurd (same ▸ found.source) other
    · exact Or.inr (Or.inr behind)

/-- A handler that does not throw ends with `async_read_udp`. -/
theorem readUdp_quiet {packet : UdpPacket} {fails : Bool}
    (quiet : (sweep packet fails s.udpSessions).taker.any Prod.snd = false) :
    (s.readUdp packet fails).running = .asyncReadUdp :: s.running ∧
      (s.readUdp packet fails).stopped = s.stopped ∧
      ∀ session ∈ (sweep packet fails s.udpSessions).kept,
        session ∈ (s.readUdp packet fails).udpSessions := by
  unfold readUdp
  dsimp only
  split
  · rename_i taker
    rw [taker] at quiet
    cases quiet
  · exact ⟨rfl, rfl, fun _ member => member⟩
  · exact ⟨rfl, rfl, fun _ member => List.mem_append_left _ member⟩

/-- Behind a handler that does not throw everything else is in order. -/
theorem confined_direct {packet : UdpPacket} {rest : List N2SCall}
    (running : s.running = .readUdp packet :: rest) {fails : Bool}
    (caught : s.throws fails = false) : s.Confined (.proceed fails) := by
  have quiet : (sweep packet fails s.udpSessions).taker.any Prod.snd = false := by
    rw [throws, running] at caught
    exact caught
  have step :
      s.step (.proceed fails) = ({ s with running := rest } : N2S).readUdp packet fails := by
    change s.proceed fails = _
    rw [proceed, running]
  obtain ⟨next, stopped, kept⟩ :=
    @readUdp_quiet { s with running := rest } packet fails quiet
  rw [← step] at next stopped kept
  refine ⟨caught, fun opened _ => ?_, fun session member alive other => ?_⟩
  · rw [afterwards, next]
    exact registered_proceed (stopped.trans opened) next
  · refine kept session (mem_sweep member alive fun same => ?_)
    exact other ⟨packet, rest, running, same⟩

theorem confined_flush {id : Nat} {event : UdpEvent}
    (caught : s.raises (.session id event) = false) : s.Confined (.session id event) := by
  refine ⟨caught, fun opened registered => ?_, fun session member alive other => ?_⟩
  · unfold afterwards
    split
    · rename_i rest running
      exact registered_proceed opened running
    · exact registered
  · refine List.mem_map.mpr ⟨session, member, ?_⟩
    exact if_neg other

end N2S

/-- A handler that may send is confined to its session exactly if no `send` in it fails: not that
of the datagram it is called with, if the session that takes it sends at once, and not one of the
flush, if the completion enters `FORWARD`. -/
theorem send_confined (s : N2S) (addressed : s.Addressed) :
    (∀ packet rest fails, s.running = .readUdp packet :: rest →
      (s.Confined (.proceed fails) ↔ ¬ (fails = true ∧ s.SendsAtOnce packet))) ∧
    ∀ id data connectOk failing,
      (s.Confined (.session id (.read data connectOk failing)) ↔
        ∀ session ∈ s.udpSessions, session.id = id → session.EntersForward data connectOk →
          ∀ index, failing = some index → session.sendQue.length < index) := by
  constructor
  · intro packet rest fails running
    have called : packet.Addressed := addressed.calls packet (by
      rw [running]
      exact List.mem_cons_self)
    have threw : s.throws fails = true ↔ fails = true ∧ s.SendsAtOnce packet := by
      rw [N2S.throws, running]
      exact sweep_threw called fails s.udpSessions
    rw [← threw, Bool.not_eq_true]
    exact ⟨fun confined => confined.caught, N2S.confined_direct running⟩
  · intro id data connectOk failing
    have threw (session : UdpSession) (member : session ∈ s.udpSessions) :
        (session.step (.read data connectOk failing)).2 = true ↔
          session.EntersForward data connectOk ∧
            ∃ index, failing = some index ∧ index ≤ session.sendQue.length :=
      UdpSession.tcpRecv_threw (s := session.complete .tcpRead true)
        (addressed.sessions session member) data connectOk failing
    constructor
    · intro confined session member same enters index failed
      by_contra within
      have raised : s.raises (.session id (.read data connectOk failing)) = true := by
        refine List.any_eq_true.mpr ⟨session, member, ?_⟩
        rw [Bool.and_eq_true, decide_eq_true_iff]
        exact ⟨same, (threw session member).mpr ⟨enters, index, failed, not_lt.mp within⟩⟩
      rw [confined.caught] at raised
      cases raised
    · intro whole
      refine N2S.confined_flush ?_
      by_contra raised
      obtain ⟨session, member, both⟩ := List.any_eq_true.mp (eq_true_of_ne_false raised)
      rw [Bool.and_eq_true, decide_eq_true_iff] at both
      obtain ⟨enters, index, failed, within⟩ := (threw session member).mp both.2
      exact absurd within (not_le.mpr (whole session member both.1 enters index failed))

/-- The session of 10.0.0.2:5000 is about to enter `FORWARD`. -/
abbrev flushingRun : List N2SEvent :=
  [.proceed false, .proceed false, .proceed false, .udpRecvCallback (samplePacket [0x61]),
    .proceed false, .proceed false, .session 0 (.connected true), .session 0 (.wrote true),
    .session 0 (.read methodReply true none), .session 0 (.wrote true)]

/-- It is there, and another datagram has come. -/
abbrev directRun : List N2SEvent :=
  flushingRun ++ [.session 0 (.read relayReply true none), .udpRecvCallback (samplePacket [0x62])]

theorem send_confined_works :
    (n2sSystem.run directRun (.start [] [] [])).Confined (.proceed false) := by
  have running : (n2sSystem.run directRun (.start [] [] [])).running =
      [.readUdp (samplePacket [0x62])] := by decide
  have queued : (n2sSystem.run directRun (.start [] [] [])).udpSessions.flatMap
      (fun session => session.initialPacket :: session.sendQue) = [samplePacket [0x61]] := by
    decide
  have addressed : (n2sSystem.run directRun (.start [] [] [])).Addressed := by
    refine ⟨fun packet called => ?_, fun session member packet inside => ?_⟩
    · rw [running] at called
      rw [N2SCall.readUdp.inj (List.mem_singleton.mp called)]
      decide
    · have one : packet ∈ (n2sSystem.run directRun (.start [] [] [])).udpSessions.flatMap
          (fun session => session.initialPacket :: session.sendQue) :=
        List.mem_flatMap.mpr ⟨session, member, inside⟩
      rw [queued] at one
      rw [List.mem_singleton.mp one]
      decide
  exact ((send_confined _ addressed).1 (samplePacket [0x62]) [] false (by decide)).mpr
    (fun wrong => by cases wrong.1)

/-- On either path the exception ends `N2S::start`, and on the direct path the handler is left
unregistered. -/
theorem send_confined_refused :
    n2sSystem.Legal (.start [] [] []) (directRun ++ [.proceed true]) ∧
      ¬ (n2sSystem.run directRun (.start [] [] [])).Confined (.proceed true) ∧
      ¬ (n2sSystem.run (directRun ++ [.proceed true]) (.start [] [] [])).Registered ∧
      n2sSystem.Legal (.start [] [] [])
        (flushingRun ++ [.session 0 (.read relayReply true (some 0))]) ∧
      ¬ (n2sSystem.run flushingRun (.start [] [] [])).Confined
        (.session 0 (.read relayReply true (some 0))) := by
  refine ⟨by decide, fun confined => ?_, ?_, by decide, fun confined => ?_⟩
  · exact absurd confined.caught (by decide)
  · rintro (waits | ⟨packet, called⟩)
    · exact absurd waits (by decide)
    · exact absurd called (List.not_mem_nil)
  · exact absurd confined.caught (by decide)

end Net2Tr
