/-
This file proves when a datagram can fall to a session that is already dead.

After `destroy` a session stays in the list until its last handler has run, and
neither `in_recv` nor `out_recv` looks at the status before it arms the timer
again, which keeps the dead session for another minute. Both happen exactly
when a datagram of its source, or a reply received before the socket was
closed, is handled in that time.
-/

import Libn2t.UdpDispatch

namespace Net2Tr

namespace UdpSession

/-! ### When a session arms its timer -/

@[simp] theorem destroy_armings (s : UdpSession) : s.destroy.armings = s.armings := by
  unfold destroy
  split <;> rfl

theorem inRecv_arms (s : UdpSession) (packet : UdpPacket) (fails : Bool) :
    (s.inRecv packet fails).1.armings = s.armings ++ [s.status] ∧
      (s.inRecv packet fails).1.status = s.status := by
  unfold inRecv
  dsimp only
  split
  · split
    · exact ⟨rfl, rfl⟩
    · split <;> exact ⟨rfl, rfl⟩
  · exact ⟨rfl, rfl⟩

theorem inRecvAll_arms (packets : List UdpPacket) (failing : Option Nat) (s : UdpSession) :
    ∃ count, (inRecvAll failing packets s).1.armings =
      s.armings ++ List.replicate count s.status := by
  induction packets generalizing failing s with
  | nil => exact ⟨0, (List.append_nil _).symm⟩
  | cons packet rest inductionHypothesis =>
    obtain ⟨armings, status⟩ := s.inRecv_arms packet (failing = some 0)
    unfold inRecvAll
    dsimp only
    split
    · exact ⟨1, armings⟩
    · obtain ⟨count, later⟩ := inductionHypothesis (failing.map (· - 1))
        (s.inRecv packet (failing = some 0)).1
      refine ⟨count + 1, later.trans ?_⟩
      rw [armings, status, List.append_assoc, List.replicate_succ]
      rfl

theorem tcpRecv_arms (s : UdpSession) (data : Bytes) (connectOk : Bool) (failing : Option Nat) :
    ∃ count, (s.tcpRecv data connectOk failing).1.armings =
      s.armings ++ List.replicate count .forward := by
  have none {t : UdpSession} (same : t.armings = s.armings) :
      ∃ count, t.armings = s.armings ++ List.replicate count Status.forward :=
    ⟨0, same.trans (List.append_nil _).symm⟩
  unfold tcpRecv
  split
  · split
    · exact none s.destroy_armings
    · exact none rfl
  · split
    · exact none s.destroy_armings
    · split
      · exact none s.destroy_armings
      · split
        · exact none rfl
        · split
          · exact inRecvAll_arms _ _ _
          · exact none (destroy_armings _)
  · exact none s.destroy_armings
  · exact none rfl

theorem outRecv_arms (s : UdpSession) (data : Bytes) :
    (s.outRecv data).1.armings = s.armings ++ [s.status] := by
  unfold outRecv
  dsimp only
  split
  · split
    · exact destroy_armings _
    · split
      · rfl
      · split
        · exact destroy_armings _
        · split <;> rfl
  · rfl

theorem release_armings (s : UdpSession) : s.release.armings = s.armings := by
  unfold release
  split
  · rfl
  · exact s.destroy_armings

/-- Only the completion of a receive can arm the timer of a destroyed session. -/
theorem step_arms (s : UdpSession) (event : UdpEvent) :
    .destroy ∈ (s.step event).1.armings ↔
      .destroy ∈ s.armings ∨ (s.status = .destroy ∧ ∃ data, event = .received data) := by
  have none {t : UdpSession} (same : t.armings = s.armings)
      (other : ∀ data, event ≠ .received data) :
      .destroy ∈ t.armings ↔
        .destroy ∈ s.armings ∨ (s.status = .destroy ∧ ∃ data, event = .received data) := by
    rw [same]
    exact (or_iff_left fun wrong => other _ wrong.2.choose_spec).symm
  show .destroy ∈ (s.handle event).1.release.armings ↔ _
  rw [release_armings]
  cases event with
  | connected ok =>
    refine none ?_ (fun _ wrong => by cases wrong)
    unfold handle
    dsimp only
    split
    · rfl
    · exact destroy_armings _
  | wrote ok =>
    refine none ?_ (fun _ wrong => by cases wrong)
    unfold handle tcpSent
    dsimp only
    split
    · split <;> rfl
    · exact destroy_armings _
  | read data connectOk failing =>
    obtain ⟨count, armings⟩ := tcpRecv_arms (s.complete .tcpRead true) data connectOk failing
    have later : (s.handle (.read data connectOk failing)).1.armings =
        s.armings ++ List.replicate count .forward := armings
    rw [later, List.mem_append]
    refine or_congr_right ⟨fun wrong => ?_, fun wrong => ?_⟩
    · cases List.eq_of_mem_replicate wrong
    · obtain ⟨_, _, impossible⟩ := wrong
      cases impossible
  | readError => exact none (destroy_armings _) (fun _ wrong => by cases wrong)
  | received data =>
    have later : (s.handle (.received data)).1.armings = s.armings ++ [s.status] :=
      outRecv_arms _ data
    rw [later, List.mem_append, List.mem_singleton]
    exact or_congr_right ⟨fun destroyed => ⟨destroyed.symm, data, rfl⟩, fun both => both.1.symm⟩
  | receiveError => exact none (destroy_armings _) (fun _ wrong => by cases wrong)
  | expire => exact none rfl (fun _ wrong => by cases wrong)
  | waited ok =>
    refine none ?_ (fun _ wrong => by cases wrong)
    unfold handle
    dsimp only
    split
    · exact destroy_armings _
    · rfl

theorem process_arms {s t : UdpSession} {packet : UdpPacket} {fails threw : Bool}
    (taken : s.process packet fails = some (t, threw)) : t.armings = s.armings ++ [s.status] := by
  unfold process at taken
  split at taken
  · cases taken
  · have same := congrArg Prod.fst (Option.some.inj taken)
    dsimp only at same
    rw [← same]
    exact (inRecv_arms _ packet fails).1

end UdpSession

namespace UdpDispatch

/-! ### Runs of the dispatcher -/

/-- No datagram has been taken by a destroyed session, and none has armed its timer. -/
def Carried (d : UdpDispatch) : Prop :=
  (∀ taken ∈ d.taken, taken.status ≠ .destroy) ∧
    ∀ session ∈ d.everySession, .destroy ∉ session.armings

/-- The handler is not called with a datagram whose source has a live session that is destroyed,
and no receive of a destroyed session completes with success. -/
def AvoidsDead (d : UdpDispatch) : DispatchEvent → Prop
  | .handle _ => ∀ packet, d.calling = some packet → ∀ session ∈ d.udpSessions,
      session.alive = true → session.source = packet.source → session.status ≠ .destroy
  | .session id (.received _) => ∀ session ∈ d.udpSessions, session.id = id →
      session.status ≠ .destroy
  | _ => True

/-- Being carried depends on the sessions and on who has taken what. -/
theorem carried_iff {d : UdpDispatch} {sessions : List UdpSession} {log : List Taken}
    (same : d.everySession.Perm sessions) (taken : d.taken = log) :
    d.Carried ↔ (∀ taken ∈ log, taken.status ≠ .destroy) ∧
      ∀ session ∈ sessions, .destroy ∉ session.armings := by
  rw [Carried, taken]
  exact and_congr_right fun _ =>
    ⟨fun all session member => all session (same.mem_iff.mpr member),
      fun all session member => all session (same.mem_iff.mp member)⟩

theorem carried_asyncReadUdp (d : UdpDispatch) : d.asyncReadUdp.Carried ↔ d.Carried := by
  obtain ⟨taken, _, udpSessions, erased⟩ := d.asyncReadUdp_same
  unfold Carried everySession
  rw [taken, udpSessions, erased]

/-- The session the loop finds is the only live one of that source. -/
theorem found_only {d : UdpDispatch} (apart : d.udpSessions.Pairwise Apart) {packet : UdpPacket}
    {fails threw : Bool} {session later : UdpSession}
    (found : Sweep.Found packet fails d.udpSessions (sweep packet fails d.udpSessions) session
      later threw) {other : UdpSession} (member : other ∈ d.udpSessions)
    (living : other.alive = true) (source : other.source = packet.source) : other = session := by
  obtain ⟨before, after, shape, _⟩ := found.split
  rw [shape] at member apart
  rw [List.pairwise_append, List.pairwise_cons] at apart
  obtain ⟨_, ⟨middle, _⟩, across⟩ := apart
  have same : other.source = session.source := source.trans found.source
  rcases List.mem_append.mp member with first | last
  · exact absurd same (across other first session List.mem_cons_self living found.alive)
  · rcases List.mem_cons.mp last with own | behind
    · exact own
    · exact absurd same.symm (middle other behind found.alive living)

/-- A datagram that starts a session of its own is carried by it. -/
theorem carried_created {d : UdpDispatch} {packet : UdpPacket} {fails : Bool}
    (missed : Sweep.Missed packet d.udpSessions (sweep packet fails d.udpSessions)) :
    (d.handle packet fails).Carried ↔ d.Carried := by
  unfold handle
  simp only [missed.taker]
  rw [carried_asyncReadUdp]
  have perm : (UdpDispatch.everySession
      { d with
        calling := none
        udpSessions := (sweep packet fails d.udpSessions).kept ++
          [(UdpSession.new d.created packet).start]
        created := d.created + 1
        erased := d.erased ++ (sweep packet fails d.udpSessions).erased
        taken := d.taken ++ [⟨d.created, packet, .handshake⟩] }).Perm
      ((UdpSession.new d.created packet).start :: d.everySession) := by
    rw [everySession, List.append_assoc]
    exact List.perm_middle.trans ((missed.perm d.erased).cons _)
  rw [carried_iff perm rfl, List.forall_mem_append, List.forall_mem_singleton,
    List.forall_mem_cons]
  have fresh : Status.destroy ∉ (UdpSession.new d.created packet).start.armings := by
    intro wrong
    cases List.mem_singleton.mp wrong
  constructor
  · rintro ⟨⟨taken, _⟩, _, armings⟩
    exact ⟨taken, armings⟩
  · rintro ⟨taken, armings⟩
    exact ⟨⟨taken, (fun wrong => by cases wrong)⟩, fresh, armings⟩

/-- A datagram that a session takes is carried exactly if the session is not destroyed. -/
theorem carried_taken {d : UdpDispatch} {packet : UdpPacket} {fails threw : Bool}
    {session later : UdpSession}
    (found : Sweep.Found packet fails d.udpSessions (sweep packet fails d.udpSessions) session
      later threw) :
    (d.handle packet fails).Carried ↔ d.Carried ∧ session.status ≠ .destroy := by
  obtain ⟨others, kept, split⟩ := found.perm d.erased
  have next : Carried
      { d with
        calling := none
        udpSessions := (sweep packet fails d.udpSessions).kept
        erased := d.erased ++ (sweep packet fails d.udpSessions).erased
        taken := d.taken ++ [⟨session.id, packet, session.status⟩] } ↔
      d.Carried ∧ session.status ≠ .destroy := by
    have perm : (UdpDispatch.everySession
        { d with
          calling := none
          udpSessions := (sweep packet fails d.udpSessions).kept
          erased := d.erased ++ (sweep packet fails d.udpSessions).erased
          taken := d.taken ++ [⟨session.id, packet, session.status⟩] }).Perm
        (later :: others) := kept
    rw [carried_iff perm rfl, carried_iff split rfl, List.forall_mem_append,
      List.forall_mem_singleton, List.forall_mem_cons, List.forall_mem_cons,
      UdpSession.process_arms found.taken, List.mem_append, List.mem_singleton, not_or]
    constructor
    · rintro ⟨⟨taken, undestroyed⟩, ⟨armings, _⟩, rest⟩
      exact ⟨⟨taken, armings, rest⟩, undestroyed⟩
    · rintro ⟨⟨taken, armings, rest⟩, undestroyed⟩
      exact ⟨⟨taken, undestroyed⟩, ⟨armings, Ne.symm undestroyed⟩, rest⟩
  rw [← next]
  unfold handle
  simp only [found.taker]
  split
  · rfl
  · exact carried_asyncReadUdp _

/-- The body of the handler keeps datagrams carried exactly if no destroyed session takes it. -/
theorem carried_handle {d : UdpDispatch} (isolated : d.Isolated) (packet : UdpPacket)
    (fails : Bool) :
    (d.handle packet fails).Carried ↔ d.Carried ∧ ∀ session ∈ d.udpSessions,
      session.alive = true → session.source = packet.source → session.status ≠ .destroy := by
  rcases sweep_spec packet fails d.udpSessions with missed | ⟨session, later, threw, found⟩
  · rw [carried_created missed]
    refine (and_iff_left fun other member living source => ?_).symm
    exact absurd source (missed.others other member living)
  · have listed : session ∈ d.udpSessions := by
      obtain ⟨before, after, shape, _⟩ := found.split
      rw [shape]
      exact List.mem_append_right _ List.mem_cons_self
    rw [carried_taken found]
    refine and_congr_right fun _ => ⟨fun undestroyed other member living source => ?_,
      fun all => all session listed found.alive found.source.symm⟩
    rw [found_only isolated.apart found member living source]
    exact undestroyed

/-- An event of a session does so exactly if it is not the receive of a destroyed session. -/
theorem carried_session (d : UdpDispatch) (id : Nat) (event : UdpEvent) :
    Carried { d with udpSessions := d.udpSessions.map (advance id event) } ↔
      d.Carried ∧ d.AvoidsDead (.session id event) := by
  have moved (session : UdpSession) : .destroy ∈ (advance id event session).armings ↔
      .destroy ∈ session.armings ∨
        (session.id = id ∧ session.status = .destroy ∧ ∃ data, event = .received data) := by
    unfold advance
    split
    · rename_i own
      rw [session.step_arms event]
      simp only [own, true_and]
    · rename_i other
      simp only [other, false_and, or_false]
  have avoids : d.AvoidsDead (.session id event) ↔ ∀ session ∈ d.udpSessions,
      ¬ (session.id = id ∧ session.status = .destroy ∧ ∃ data, event = .received data) := by
    cases event with
    | received data =>
      refine forall₂_congr fun session _ => ?_
      constructor
      · rintro undestroyed ⟨own, destroyed, _⟩
        exact undestroyed own destroyed
      · intro avoided own destroyed
        exact avoided ⟨own, destroyed, data, rfl⟩
    | _ =>
      refine iff_of_true trivial fun session _ wrong => ?_
      obtain ⟨_, _, _, impossible⟩ := wrong
      cases impossible
  rw [avoids, Carried, Carried, everySession, everySession, List.forall_mem_append,
    List.forall_mem_append, List.forall_mem_map]
  simp only [moved, not_or, forall_and]
  constructor
  · rintro ⟨taken, ⟨armings, avoided⟩, rest⟩
    exact ⟨⟨taken, armings, rest⟩, avoided⟩
  · rintro ⟨⟨taken, armings, rest⟩, avoided⟩
    exact ⟨taken, ⟨armings, avoided⟩, rest⟩

theorem carried_step {d : UdpDispatch} (isolated : d.Isolated) (event : DispatchEvent) :
    (d.step event).Carried ↔ d.Carried ∧ d.AvoidsDead event := by
  cases event with
  | start =>
    refine (carried_asyncReadUdp { d with stopped := false }).trans ?_
    exact (and_iff_left trivial).symm
  | stop => exact (and_iff_left trivial).symm
  | cancel => exact (and_iff_left trivial).symm
  | datagram packet => exact (and_iff_left trivial).symm
  | handle fails =>
    cases calling : d.calling with
    | none =>
      have idle : d.step (.handle fails) = d := by
        simp only [step, calling]
      rw [idle]
      refine (and_iff_left ?_).symm
      intro packet wrong
      cases calling.symm.trans wrong
    | some packet =>
      rw [step_handle calling, carried_handle isolated packet fails]
      refine and_congr_right fun _ => ?_
      constructor
      · intro avoids other same
        rw [← Option.some.inj (calling.symm.trans same)]
        exact avoids
      · exact fun avoids => avoids packet calling
  | session id event => exact d.carried_session id event

end UdpDispatch

/-- In a run of the dispatcher every datagram is taken by a session that is not destroyed, and no
destroyed session arms its timer, exactly if the handler is never called with a datagram whose
source has a destroyed session that is still alive, and no receive of a destroyed session
completes with success. -/
theorem datagrams_carried (events : List DispatchEvent)
    (legal : dispatchSystem.Legal .new events) :
    (dispatchSystem.run events .new).Carried ↔
      dispatchSystem.Guarded UdpDispatch.AvoidsDead .new events := by
  have start : UdpDispatch.new.Isolated := (run_isolated_queued (dispatchSystem.legal_nil _)).1
  have clean : UdpDispatch.new.Carried := ⟨(fun _ wrong => by cases wrong),
    fun _ wrong => by cases wrong⟩
  have exact_run := dispatchSystem.guarded_iff UdpDispatch.Isolated UdpDispatch.Carried
    (fun _ event _ isolated => isolated.step event)
    (fun _ event _ isolated => UdpDispatch.carried_step isolated event) legal start
  exact exact_run.trans (and_iff_right clean)

/-- Two datagrams of one client, both before its session has connected. -/
abbrev promptDatagrams : List DispatchEvent :=
  [.start, .datagram (sampleDatagram 5000), .handle false, .datagram (sampleDatagram 5000),
    .handle false]

theorem datagrams_carried_prompt :
    (dispatchSystem.run promptDatagrams .new).Carried ↔
      dispatchSystem.Guarded UdpDispatch.AvoidsDead .new promptDatagrams :=
  datagrams_carried promptDatagrams (by decide)

/-- The connection to the proxy fails, and the second datagram comes before the aborted wait has
been delivered. -/
abbrev swallowedRun : List DispatchEvent :=
  [.start, .datagram (sampleDatagram 5000), .handle false, .session 0 (.connected false),
    .datagram (sampleDatagram 5000), .handle false]

/-- The dead session takes it and arms its timer again. -/
theorem datagrams_carried_swallowed :
    dispatchSystem.Legal .new swallowedRun ∧
      ⟨0, sampleDatagram 5000, .destroy⟩ ∈ (dispatchSystem.run swallowedRun .new).taken ∧
      ¬ (dispatchSystem.run swallowedRun .new).Carried := by
  have taken : (⟨0, sampleDatagram 5000, .destroy⟩ : Taken) ∈
      (dispatchSystem.run swallowedRun .new).taken := by decide
  exact ⟨by decide, taken, fun carried => carried.1 _ taken rfl⟩

end Net2Tr
