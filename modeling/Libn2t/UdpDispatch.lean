/-
This file models `N2SInternal::async_read_udp`: the list of UDP sessions, and
how the handler finds the one that takes a datagram, drops expired ones on its
way and registers itself again.

Registering is the last thing the handler does, and `N2T` may call it again
right there with a queued datagram. The call and the run of its body are
therefore two steps of the model: between them the datagram is the one being
called with. The list holds the sessions themselves with a flag that tells
whether the weak pointer has expired. The last four fields record what has
happened and are read by no function.
-/

import Libn2t.UdpSession

namespace Net2Tr

open HandOff

/-- The handler that `async_read_udp` registers. -/
inductive ReadHandler where
  | asyncReadUdp
deriving DecidableEq, Repr

/-- A datagram, the session that has taken it, and its status at that moment. -/
structure Taken where
  session : Nat
  packet : UdpPacket
  status : Status
deriving DecidableEq, Repr

/-- The part of `N2SInternal` that dispatches datagrams. -/
structure UdpDispatch where
  n2t : N2T Unit Unit ReadHandler Unit Unit
  calling : Option UdpPacket
  udpSessions : List UdpSession
  stopped : Bool
  created : Nat
  erased : List UdpSession
  history : History UdpPacket ReadHandler
  taken : List Taken
deriving DecidableEq, Repr

/-- The result of the loop over the sessions: the sessions left in the list, the ones erased from
it, and the session that has taken the datagram, as it was before, with whether it has thrown. -/
structure Sweep where
  kept : List UdpSession
  erased : List UdpSession
  taker : Option (UdpSession × Bool)

/-- The loop over `udp_sessions`, which ends early when a session takes the datagram. -/
def sweep (packet : UdpPacket) (fails : Bool) : List UdpSession → Sweep
  | [] => ⟨[], [], none⟩
  | session :: rest =>
    if session.alive then
      match session.process packet fails with
      | some (later, threw) => ⟨later :: rest, [], some (session, threw)⟩
      | none =>
        let result := sweep packet fails rest
        { result with kept := session :: result.kept }
    else
      let result := sweep packet fails rest
      { result with erased := session :: result.erased }

namespace UdpDispatch

/-- Nothing registered, no sessions. -/
def new : UdpDispatch where
  n2t := .new
  calling := none
  udpSessions := []
  stopped := true
  created := 0
  erased := []
  history := .empty
  taken := []

/-- `N2SInternal::async_read_udp`. -/
def asyncReadUdp (d : UdpDispatch) : UdpDispatch :=
  if d.stopped then d
  else
    let (n2t, call) := d.n2t.asyncUdpRecv .asyncReadUdp
    { d with
      n2t := n2t
      calling := call.map Prod.snd
      history := d.history.subscribed .asyncReadUdp call }

/-- `N2S::start`, as far as datagrams go. -/
def start (d : UdpDispatch) : UdpDispatch := asyncReadUdp { d with stopped := false }

/-- `N2S::stop`, as far as datagrams go. -/
def stop (d : UdpDispatch) : UdpDispatch := { d with stopped := true }

/-- The udp_recv callback of `N2T`, which may call the handler. -/
def udpRecvCallback (packet : UdpPacket) (d : UdpDispatch) : UdpDispatch :=
  let (n2t, call) := d.n2t.udpRecvCallback packet
  { d with
    n2t := n2t
    calling := (call.map Prod.snd).or d.calling
    history := d.history.produced packet call }

/-- The body of the handler. If a session throws, the handler is left at once. -/
def handle (packet : UdpPacket) (fails : Bool) (d : UdpDispatch) : UdpDispatch :=
  let result := sweep packet fails d.udpSessions
  let d := { d with
    calling := none
    udpSessions := result.kept
    erased := d.erased ++ result.erased }
  match result.taker with
  | some (session, threw) =>
    let d := { d with taken := d.taken ++ [Taken.mk session.id packet session.status] }
    if threw then d else d.asyncReadUdp
  | none =>
    { d with
      udpSessions := d.udpSessions ++ [(UdpSession.new d.created packet).start]
      created := d.created + 1
      taken := d.taken ++ [Taken.mk d.created packet .handshake] }.asyncReadUdp

end UdpDispatch

/-- What happens to the dispatcher: `start` and `stop`, `N2T::cancel`, a datagram from the stack,
the run of the handler's body, and an event of a session. -/
inductive DispatchEvent where
  | start
  | stop
  | cancel
  | datagram (packet : UdpPacket)
  | handle (fails : Bool)
  | session (id : Nat) (event : UdpEvent)
deriving DecidableEq, Repr

namespace UdpDispatch

/-- The event can happen; while the handler has been called nothing else runs on its thread. -/
def enabled (d : UdpDispatch) : DispatchEvent → Prop
  | .start => d.calling = none
  | .stop => d.calling = none
  | .cancel => d.calling = none
  | .datagram _ => True
  | .handle _ => d.calling ≠ none
  | .session id event =>
    d.calling = none ∧ ∃ session ∈ d.udpSessions, session.id = id ∧ session.enabled event

instance (d : UdpDispatch) (event : DispatchEvent) : Decidable (d.enabled event) := by
  cases event <;> unfold enabled <;> infer_instance

/-- One session of the list moves on. -/
def advance (id : Nat) (event : UdpEvent) (session : UdpSession) : UdpSession :=
  if session.id = id then (session.step event).1 else session

/-- The effect of an event. -/
def step (d : UdpDispatch) : DispatchEvent → UdpDispatch
  | .start => d.start
  | .stop => d.stop
  | .cancel => { d with n2t := d.n2t.cancel }
  | .datagram packet => d.udpRecvCallback packet
  | .handle fails =>
    match d.calling with
    | some packet => d.handle packet fails
    | none => d
  | .session id event => { d with udpSessions := d.udpSessions.map (advance id event) }

end UdpDispatch

/-- The dispatcher as a transition system. -/
def dispatchSystem : Transition.System UdpDispatch DispatchEvent where
  enabled := UdpDispatch.enabled
  step := UdpDispatch.step

instance (d : UdpDispatch) (event : DispatchEvent) : Decidable (dispatchSystem.enabled d event) :=
  inferInstanceAs (Decidable (d.enabled event))

/-! ### What the loop does -/

/-- The session that the loop finds, and what it leaves in the list. -/
structure Sweep.Found (packet : UdpPacket) (fails : Bool) (sessions : List UdpSession)
    (result : Sweep) (session later : UdpSession) (threw : Bool) : Prop where
  taken : session.process packet fails = some (later, threw)
  alive : session.alive = true
  taker : result.taker = some (session, threw)
  split : ∃ before after, sessions = before ++ session :: after ∧
    result.kept = before.filter (fun other => other.alive) ++ later :: after ∧
    result.erased = before.filter (fun other => !other.alive)

/-- No session takes the datagram. -/
structure Sweep.Missed (packet : UdpPacket) (sessions : List UdpSession) (result : Sweep) :
    Prop where
  taker : result.taker = none
  kept : result.kept = sessions.filter (fun other => other.alive)
  erased : result.erased = sessions.filter (fun other => !other.alive)
  others : ∀ session ∈ sessions, session.alive = true → session.source ≠ packet.source

section

variable {packet : UdpPacket} {fails threw : Bool} {rest : List UdpSession} {result : Sweep}
  {session found later : UdpSession}

/-- A dead session is erased on the way. -/
theorem Sweep.Missed.dead (missed : Sweep.Missed packet rest result)
    (dead : session.alive = false) :
    Sweep.Missed packet (session :: rest) { result with erased := session :: result.erased } := by
  refine ⟨missed.taker, ?_, ?_, fun other member living => ?_⟩
  · rw [List.filter_cons_of_neg (by rw [dead]; exact Bool.false_ne_true)]
    exact missed.kept
  · rw [List.filter_cons_of_pos (by rw [dead]; rfl), ← missed.erased]
  · rcases List.mem_cons.mp member with same | inside
    · rw [same, dead] at living
      cases living
    · exact missed.others other inside living

theorem Sweep.Found.dead (hit : Sweep.Found packet fails rest result found later threw)
    (dead : session.alive = false) :
    Sweep.Found packet fails (session :: rest)
      { result with erased := session :: result.erased } found later threw := by
  obtain ⟨before, after, split, kept, erased⟩ := hit.split
  refine ⟨hit.taken, hit.alive, hit.taker, session :: before, after, ?_, ?_, ?_⟩
  · rw [split]
    rfl
  · rw [List.filter_cons_of_neg (by rw [dead]; exact Bool.false_ne_true)]
    exact kept
  · rw [List.filter_cons_of_pos (by rw [dead]; rfl), ← erased]

/-- A live session of another source is passed over. -/
theorem Sweep.Missed.other (missed : Sweep.Missed packet rest result)
    (alive : session.alive = true) (other : session.source ≠ packet.source) :
    Sweep.Missed packet (session :: rest) { result with kept := session :: result.kept } := by
  refine ⟨missed.taker, ?_, ?_, fun candidate member living => ?_⟩
  · rw [List.filter_cons_of_pos alive, ← missed.kept]
  · rw [List.filter_cons_of_neg (by rw [alive]; exact Bool.false_ne_true)]
    exact missed.erased
  · rcases List.mem_cons.mp member with same | inside
    · rw [same]
      exact other
    · exact missed.others candidate inside living

theorem Sweep.Found.other (hit : Sweep.Found packet fails rest result found later threw)
    (alive : session.alive = true) :
    Sweep.Found packet fails (session :: rest)
      { result with kept := session :: result.kept } found later threw := by
  obtain ⟨before, after, split, kept, erased⟩ := hit.split
  refine ⟨hit.taken, hit.alive, hit.taker, session :: before, after, ?_, ?_, ?_⟩
  · rw [split]
    rfl
  · rw [List.filter_cons_of_pos alive]
    exact congrArg (session :: ·) kept
  · rw [List.filter_cons_of_neg (by rw [alive]; exact Bool.false_ne_true)]
    exact erased

end

/-- The loop finds a live session of the datagram's source or there is none. -/
theorem sweep_spec (packet : UdpPacket) (fails : Bool) (sessions : List UdpSession) :
    Sweep.Missed packet sessions (sweep packet fails sessions) ∨
      ∃ session later threw,
        Sweep.Found packet fails sessions (sweep packet fails sessions) session later threw := by
  induction sessions with
  | nil => exact Or.inl ⟨rfl, rfl, rfl, (fun _ wrong => by cases wrong)⟩
  | cons session rest inductionHypothesis =>
    cases alive : session.alive with
    | false =>
      have shape : sweep packet fails (session :: rest) =
          { sweep packet fails rest with
            erased := session :: (sweep packet fails rest).erased } := by
        rw [sweep, alive]
        rfl
      rw [shape]
      rcases inductionHypothesis with missed | ⟨found, later, threw, hit⟩
      · exact Or.inl (missed.dead alive)
      · exact Or.inr ⟨found, later, threw, hit.dead alive⟩
    | true =>
      cases taken : session.process packet fails with
      | some outcome =>
        obtain ⟨later, threw⟩ := outcome
        have shape : sweep packet fails (session :: rest) =
            ⟨later :: rest, [], some (session, threw)⟩ := by
          rw [sweep, alive, taken]
          rfl
        rw [shape]
        exact Or.inr ⟨session, later, threw, taken, alive, rfl, [], rest, rfl, rfl, rfl⟩
      | none =>
        have shape : sweep packet fails (session :: rest) =
            { sweep packet fails rest with
              kept := session :: (sweep packet fails rest).kept } := by
          rw [sweep, alive, taken]
          rfl
        have other : session.source ≠ packet.source :=
          ((session.process_eq_none_iff packet fails).mp taken).symm
        rw [shape]
        rcases inductionHypothesis with missed | ⟨found, later, threw, hit⟩
        · exact Or.inl (missed.other alive other)
        · exact Or.inr ⟨found, later, threw, hit.other alive⟩

theorem Sweep.Found.source {packet : UdpPacket} {fails : Bool} {sessions : List UdpSession}
    {result : Sweep} {session later : UdpSession} {threw : Bool}
    (found : Sweep.Found packet fails sessions result session later threw) :
    packet.source = session.source := by
  by_contra other
  cases ((session.process_eq_none_iff packet fails).mpr other).symm.trans found.taken

theorem filter_dead_perm (sessions : List UdpSession) :
    (sessions.filter (fun other => other.alive) ++
      sessions.filter fun other => !other.alive).Perm sessions :=
  List.filter_append_perm _ sessions

/-- The loop only moves sessions from the list to the erased ones. -/
theorem Sweep.Missed.perm {packet : UdpPacket} {sessions : List UdpSession} {result : Sweep}
    (missed : Sweep.Missed packet sessions result) (old : List UdpSession) :
    (result.kept ++ (old ++ result.erased)).Perm (sessions ++ old) := by
  rw [missed.kept, missed.erased]
  refine (List.Perm.append_left _ List.perm_append_comm).trans ?_
  rw [← List.append_assoc]
  exact (filter_dead_perm sessions).append_right old

/-- So it does when a session takes the datagram, which goes on as its later self. -/
theorem Sweep.Found.perm {packet : UdpPacket} {fails : Bool} {sessions : List UdpSession}
    {result : Sweep} {session later : UdpSession} {threw : Bool}
    (found : Sweep.Found packet fails sessions result session later threw)
    (old : List UdpSession) :
    ∃ others, (result.kept ++ (old ++ result.erased)).Perm (later :: others) ∧
      (sessions ++ old).Perm (session :: others) := by
  obtain ⟨before, after, split, kept, erased⟩ := found.split
  refine ⟨before ++ after ++ old, ?_, ?_⟩
  · have front (rest : List UdpSession) :
        ((before.filter fun other => other.alive) ++ later :: after ++ rest).Perm
          (later :: ((before.filter fun other => other.alive) ++ after ++ rest)) :=
      List.perm_middle.append_right rest
    rw [kept, erased]
    refine (front _).trans (List.Perm.cons later ?_)
    rw [List.append_assoc, List.append_assoc]
    have moved : (after ++ (old ++ before.filter fun other => !other.alive)).Perm
        ((before.filter fun other => !other.alive) ++ (after ++ old)) := by
      rw [← List.append_assoc]
      exact List.perm_append_comm
    refine (List.Perm.append_left _ moved).trans ?_
    rw [← List.append_assoc]
    exact (filter_dead_perm before).append_right _
  · rw [split]
    exact List.perm_middle.append_right old

/-! ### The record of the sessions -/

/-- Sessions are told apart, and each replies only to the source of the datagrams it has
accepted, which are the ones recorded for it. -/
structure Ledger (sessions : List UdpSession) (created : Nat) (log : List Taken) : Prop where
  distinct : (sessions.map UdpSession.id).Nodup
  bounded : ∀ session ∈ sessions, session.id < created
  earlier : ∀ taken ∈ log, taken.session < created
  addressed : ∀ session ∈ sessions, ∀ reply ∈ session.replies,
    reply.destination = session.source
  accepted : ∀ session ∈ sessions, ∀ packet ∈ session.accepted, packet.source = session.source
  recorded : ∀ session ∈ sessions, session.accepted =
    (log.filter fun taken => taken.session = session.id).map Taken.packet

namespace Ledger

variable {sessions others : List UdpSession} {created : Nat} {log : List Taken}

theorem perm (ledger : Ledger sessions created log) (same : others.Perm sessions) :
    Ledger others created log := by
  obtain ⟨distinct, bounded, earlier, addressed, accepted, recorded⟩ := ledger
  refine ⟨?_, ?_, earlier, ?_, ?_, ?_⟩
  · exact (same.map UdpSession.id).nodup_iff.mpr distinct
  · exact fun session member => bounded session (same.mem_iff.mp member)
  · exact fun session member => addressed session (same.mem_iff.mp member)
  · exact fun session member => accepted session (same.mem_iff.mp member)
  · exact fun session member => recorded session (same.mem_iff.mp member)

/-- Sessions move on. -/
theorem evolve {next : UdpSession → UdpSession} (ledger : Ledger (sessions ++ others) created log)
    (evolves : ∀ session, UdpSession.Evolves session (next session)) :
    Ledger (sessions.map next ++ others) created log := by
  obtain ⟨distinct, bounded, earlier, addressed, accepted, recorded⟩ := ledger
  have evolved : ∀ session ∈ sessions.map next ++ others,
      ∃ before ∈ sessions ++ others, UdpSession.Evolves before session := by
    intro session member
    rcases List.mem_append.mp member with moved | still
    · obtain ⟨before, inside, rfl⟩ := List.mem_map.mp moved
      exact ⟨before, List.mem_append_left _ inside, evolves before⟩
    · exact ⟨session, List.mem_append_right _ still, .refl session⟩
  refine ⟨?_, ?_, earlier, ?_, ?_, ?_⟩
  · have same : (sessions.map next).map UdpSession.id = sessions.map UdpSession.id := by
      rw [List.map_map]
      exact List.map_congr_left fun session _ => (evolves session).id
    rw [List.map_append] at distinct ⊢
    rwa [same]
  · intro session member
    obtain ⟨before, inside, evolves⟩ := evolved session member
    rw [evolves.id]
    exact bounded before inside
  · intro session member
    obtain ⟨before, inside, evolves⟩ := evolved session member
    exact evolves.addressed (addressed before inside)
  · intro session member
    obtain ⟨before, inside, evolves⟩ := evolved session member
    rw [evolves.accepted, evolves.source]
    exact accepted before inside
  · intro session member
    obtain ⟨before, inside, evolves⟩ := evolved session member
    rw [evolves.accepted, evolves.id]
    exact recorded before inside

/-- An entry for another session. -/
theorem filter_other {taken : Taken} {id : Nat} (other : taken.session ≠ id) :
    (log ++ [taken]).filter (fun entry => entry.session = id) =
      log.filter fun entry => entry.session = id := by
  rw [List.filter_append, List.filter_cons_of_neg (by simpa using other), List.filter_nil,
    List.append_nil]

/-- An entry for the session. -/
theorem filter_own {taken : Taken} {id : Nat} (own : taken.session = id) :
    (log ++ [taken]).filter (fun entry => entry.session = id) =
      (log.filter fun entry => entry.session = id) ++ [taken] := by
  rw [List.filter_append, List.filter_cons_of_pos (by simpa using own), List.filter_nil]

/-- A session takes a datagram of its source. -/
theorem take {session later : UdpSession} (ledger : Ledger (session :: others) created log)
    {packet : UdpPacket} (source : packet.source = session.source)
    (evolves : UdpSession.Evolves { session with accepted := session.accepted ++ [packet] } later)
    (status : Status) :
    Ledger (later :: others) created (log ++ [⟨session.id, packet, status⟩]) := by
  obtain ⟨distinct, bounded, earlier, addressed, accepted, recorded⟩ := ledger
  have id : later.id = session.id := evolves.id
  have sameSource : later.source = session.source := evolves.source
  have fresh := (List.nodup_cons.mp distinct).1
  refine ⟨?_, ?_, ?_, ?_, ?_, ?_⟩
  · rw [List.map_cons, id]
    exact distinct
  · refine List.forall_mem_cons.mpr ⟨?_, fun other member =>
      bounded other (List.mem_cons_of_mem _ member)⟩
    rw [id]
    exact bounded session List.mem_cons_self
  · intro taken member
    rcases List.mem_append.mp member with old | new
    · exact earlier taken old
    · rw [List.mem_singleton.mp new]
      exact bounded session List.mem_cons_self
  · exact List.forall_mem_cons.mpr ⟨evolves.addressed (addressed session List.mem_cons_self),
      fun other member => addressed other (List.mem_cons_of_mem _ member)⟩
  · refine List.forall_mem_cons.mpr ⟨?_, fun other member =>
      accepted other (List.mem_cons_of_mem _ member)⟩
    rw [evolves.accepted, sameSource]
    intro taken member
    rcases List.mem_append.mp member with old | new
    · exact accepted session List.mem_cons_self taken old
    · rw [List.mem_singleton.mp new]
      exact source
  · refine List.forall_mem_cons.mpr ⟨?_, fun other member => ?_⟩
    · rw [filter_own id.symm, List.map_append, evolves.accepted, id,
        ← recorded session List.mem_cons_self]
      rfl
    · have different : session.id ≠ other.id := by
        intro same
        exact fresh (List.mem_map.mpr ⟨other, member, same.symm⟩)
      rw [filter_other different]
      exact recorded other (List.mem_cons_of_mem _ member)

/-- A new session takes its initial packet. -/
theorem create (ledger : Ledger sessions created log) (packet : UdpPacket) (status : Status) :
    Ledger ((UdpSession.new created packet).start :: sessions) (created + 1)
      (log ++ [⟨created, packet, status⟩]) := by
  obtain ⟨distinct, bounded, earlier, addressed, accepted, recorded⟩ := ledger
  refine ⟨?_, ?_, ?_, ?_, ?_, ?_⟩
  · refine List.nodup_cons.mpr ⟨?_, distinct⟩
    intro member
    obtain ⟨session, inside, same⟩ := List.mem_map.mp member
    have below := bounded session inside
    rw [same] at below
    exact Nat.lt_irrefl created below
  · exact List.forall_mem_cons.mpr ⟨Nat.lt_succ_self created, fun session member =>
      Nat.lt_succ_of_lt (bounded session member)⟩
  · intro taken member
    rcases List.mem_append.mp member with old | new
    · exact Nat.lt_succ_of_lt (earlier taken old)
    · rw [List.mem_singleton.mp new]
      exact Nat.lt_succ_self created
  · exact List.forall_mem_cons.mpr ⟨(fun _ wrong => by cases wrong), addressed⟩
  · refine List.forall_mem_cons.mpr ⟨?_, accepted⟩
    intro taken member
    rw [List.mem_singleton.mp member]
    rfl
  · refine List.forall_mem_cons.mpr ⟨?_, fun session member => ?_⟩
    · have none : log.filter (fun taken => taken.session = created) = [] := by
        refine List.filter_eq_nil_iff.mpr fun taken member => ?_
        have before := earlier taken member
        simp only [decide_eq_true_eq]
        omega
      have own : (log ++ [Taken.mk created packet status]).filter
          (fun taken => taken.session = created) =
          log.filter (fun taken => taken.session = created) ++ [⟨created, packet, status⟩] :=
        filter_own rfl
      rw [none] at own
      exact (congrArg (List.map Taken.packet) own).symm
    · have different : created ≠ session.id := (bounded session member).ne'
      rw [filter_other different]
      exact recorded session member

end Ledger

/-! ### What every run keeps -/

namespace UdpDispatch

/-- All sessions there have ever been. -/
def everySession (d : UdpDispatch) : List UdpSession := d.udpSessions ++ d.erased

/-- Two sessions of the list that are alive have different sources. -/
def Apart (s t : UdpSession) : Prop := s.alive = true → t.alive = true → s.source ≠ t.source

/-- The channel keeps its promises, and the datagrams handed over have been taken, each once and
in order, up to the one the handler is being called with. -/
structure Queued (d : UdpDispatch) : Prop where
  channel : HandOff.Sound d.n2t.udpChannel d.history
  busy : d.calling ≠ none → d.n2t.udpRecv = none
  handed : d.taken.map Taken.packet ++ d.calling.toList = d.history.handed.map Prod.snd

/-- The sessions are isolated from each other. -/
structure Isolated (d : UdpDispatch) : Prop where
  ledger : Ledger d.everySession d.created d.taken
  apart : d.udpSessions.Pairwise Apart

theorem Isolated.asyncReadUdp {d : UdpDispatch} (isolated : d.Isolated) :
    d.asyncReadUdp.Isolated := by
  unfold UdpDispatch.asyncReadUdp
  split
  · exact isolated
  · exact ⟨isolated.ledger, isolated.apart⟩

theorem evolves_advance (id : Nat) (event : UdpEvent) (session : UdpSession) :
    UdpSession.Evolves session (advance id event session) := by
  unfold advance
  split
  · exact session.evolves_step event
  · exact .refl session

theorem Apart.evolve {s t s' t' : UdpSession} (apart : Apart s t)
    (first : UdpSession.Evolves s s') (second : UdpSession.Evolves t t') : Apart s' t' := by
  intro living living'
  rw [first.source, second.source]
  exact apart (first.alive living) (second.alive living')

/-- The run of the body keeps the sessions isolated. -/
theorem Isolated.handle {d : UdpDispatch} (isolated : d.Isolated) (packet : UdpPacket)
    (fails : Bool) : (d.handle packet fails).Isolated := by
  obtain ⟨ledger, apart⟩ := isolated
  rcases sweep_spec packet fails d.udpSessions with missed | ⟨session, later, threw, found⟩
  · unfold UdpDispatch.handle
    simp only [missed.taker]
    refine Isolated.asyncReadUdp ⟨?_, ?_⟩
    · refine ((ledger.perm (missed.perm d.erased)).create packet .handshake).perm ?_
      rw [everySession, List.append_assoc]
      exact List.perm_middle
    · dsimp only
      rw [missed.kept]
      refine List.pairwise_append.mpr ⟨apart.filter _, List.pairwise_singleton _ _, ?_⟩
      intro session member new newMember living _
      rw [List.mem_singleton.mp newMember]
      exact missed.others session (List.mem_of_mem_filter member) living
  · obtain ⟨others, kept, split⟩ := found.perm d.erased
    have evolves := UdpSession.evolves_process found.taken
    have next : Isolated
        { d with
          calling := none
          udpSessions := (sweep packet fails d.udpSessions).kept
          erased := d.erased ++ (sweep packet fails d.udpSessions).erased
          taken := d.taken ++ [⟨session.id, packet, session.status⟩] } := by
      refine ⟨?_, ?_⟩
      · exact ((ledger.perm split.symm).take found.source evolves session.status).perm kept
      · obtain ⟨before, after, shape, list, _⟩ := found.split
        have same : later.source = session.source := evolves.source
        dsimp only
        rw [shape, List.pairwise_append, List.pairwise_cons] at apart
        obtain ⟨first, ⟨middle, last⟩, across⟩ := apart
        rw [list, List.pairwise_append, List.pairwise_cons]
        refine ⟨first.filter _, ⟨?_, last⟩, ?_⟩
        · intro other member living
          rw [same]
          exact middle other member found.alive
        · intro other member candidate inside living
          have listed := List.mem_of_mem_filter member
          rcases List.mem_cons.mp inside with own | behind
          · rw [own, same]
            exact fun _ => across other listed session List.mem_cons_self living found.alive
          · exact across other listed candidate (List.mem_cons_of_mem _ behind) living
    unfold UdpDispatch.handle
    simp only [found.taker]
    split
    · exact next
    · exact next.asyncReadUdp

theorem Isolated.step {d : UdpDispatch} (isolated : d.Isolated) (event : DispatchEvent) :
    (d.step event).Isolated := by
  obtain ⟨ledger, apart⟩ := isolated
  cases event with
  | start => exact Isolated.asyncReadUdp (d := { d with stopped := false }) ⟨ledger, apart⟩
  | stop => exact ⟨ledger, apart⟩
  | cancel => exact ⟨ledger, apart⟩
  | datagram packet => exact ⟨ledger, apart⟩
  | handle fails =>
    unfold UdpDispatch.step
    dsimp only
    split
    · exact Isolated.handle ⟨ledger, apart⟩ _ fails
    · exact ⟨ledger, apart⟩
  | session id event =>
    refine ⟨ledger.evolve (evolves_advance id event), ?_⟩
    exact List.pairwise_map.mpr (apart.imp fun {s t} different =>
      different.evolve (evolves_advance id event s) (evolves_advance id event t))

/-! ### The queue of datagrams -/

theorem Queued.asyncReadUdp {d : UdpDispatch} (queued : d.Queued) (idle : d.calling = none) :
    d.asyncReadUdp.Queued := by
  obtain ⟨channel, _, handed⟩ := queued
  rw [idle, Option.toList_none, List.append_nil] at handed
  unfold UdpDispatch.asyncReadUdp
  split
  · exact ⟨channel, fun busy => absurd idle busy, by rw [idle]; simpa using handed⟩
  · have registered := channel.register .asyncReadUdp
    cases queue : d.n2t.udpChannel.queue with
    | nil =>
      have shape : d.n2t.asyncUdpRecv .asyncReadUdp =
          (d.n2t.withUdp ⟨some .asyncReadUdp, []⟩, none) := by
        rw [N2T.asyncUdpRecv, Channel.register_empty queue]
      rw [Channel.register_empty queue] at registered
      rw [shape]
      refine ⟨registered, fun busy => absurd rfl busy, ?_⟩
      simpa [History.subscribed] using handed
    | cons packet rest =>
      have waiting : d.n2t.udpChannel.slot = none := by
        by_contra waiting
        cases (channel.prompt waiting).symm.trans queue
      have shape : d.n2t.asyncUdpRecv .asyncReadUdp =
          (d.n2t.withUdp ⟨none, rest⟩, some (.asyncReadUdp, packet)) := by
        rw [N2T.asyncUdpRecv, Channel.register_queued queue, waiting]
      rw [Channel.register_queued queue, waiting] at registered
      rw [shape]
      refine ⟨registered, fun _ => rfl, ?_⟩
      simp [History.subscribed, handed]

theorem Queued.udpRecvCallback {d : UdpDispatch} (queued : d.Queued) (packet : UdpPacket) :
    (d.udpRecvCallback packet).Queued := by
  obtain ⟨channel, busy, handed⟩ := queued
  have produced := channel.produce packet
  unfold UdpDispatch.udpRecvCallback
  cases waiting : d.n2t.udpChannel.slot with
  | some handler =>
    have idle : d.calling = none := by
      by_contra calling
      cases (busy calling).symm.trans waiting
    have shape : d.n2t.udpRecvCallback packet =
        (d.n2t.withUdp ⟨none, d.n2t.udpChannel.queue⟩, some (handler, packet)) := by
      rw [N2T.udpRecvCallback, Channel.produce_waiting waiting]
    rw [Channel.produce_waiting waiting] at produced
    rw [idle, Option.toList_none, List.append_nil] at handed
    rw [shape]
    refine ⟨produced, fun _ => rfl, ?_⟩
    simp [History.produced, handed]
  | none =>
    have shape : d.n2t.udpRecvCallback packet =
        (d.n2t.withUdp ⟨none, d.n2t.udpChannel.queue ++ [packet]⟩, none) := by
      rw [N2T.udpRecvCallback, Channel.produce_idle waiting]
    rw [Channel.produce_idle waiting] at produced
    rw [shape]
    refine ⟨produced, fun _ => rfl, ?_⟩
    simpa [History.produced] using handed

/-- The datagram the handler is called with is taken by one session. -/
theorem Queued.handle {d : UdpDispatch} (queued : d.Queued) {packet : UdpPacket}
    (calling : d.calling = some packet) (fails : Bool) : (d.handle packet fails).Queued := by
  obtain ⟨channel, busy, handed⟩ := queued
  have unregistered := busy (by rw [calling]; exact Option.some_ne_none _)
  rw [calling, Option.toList_some] at handed
  have next {e : UdpDispatch} (n2t : e.n2t = d.n2t) (history : e.history = d.history)
      (idle : e.calling = none)
      (taken : e.taken.map Taken.packet = d.taken.map Taken.packet ++ [packet]) : e.Queued := by
    refine ⟨?_, fun busy => absurd idle busy, ?_⟩
    · rw [n2t, history]
      exact channel
    · rw [history, idle, taken, ← handed]
      exact List.append_nil _
  unfold UdpDispatch.handle
  dsimp only
  split
  · split
    · exact next rfl rfl rfl List.map_append
    · refine Queued.asyncReadUdp ?_ rfl
      exact next rfl rfl rfl List.map_append
  · refine Queued.asyncReadUdp ?_ rfl
    exact next rfl rfl rfl List.map_append

theorem Queued.step {d : UdpDispatch} (queued : d.Queued) (event : DispatchEvent)
    (enabled : d.enabled event) : (d.step event).Queued := by
  cases event with
  | start =>
    refine Queued.asyncReadUdp (d := { d with stopped := false }) ?_ enabled
    exact ⟨queued.channel, queued.busy, queued.handed⟩
  | stop => exact ⟨queued.channel, queued.busy, queued.handed⟩
  | cancel => exact ⟨queued.channel.cancel, fun _ => rfl, queued.handed⟩
  | datagram packet => exact queued.udpRecvCallback packet
  | handle fails =>
    unfold UdpDispatch.step
    dsimp only
    split
    · exact queued.handle (by assumption) fails
    · exact queued
  | session id event => exact ⟨queued.channel, queued.busy, queued.handed⟩

/-! ### Who takes a datagram -/

/-- The datagram goes to the live session of its source, or, if there is none, to a new session
that carries it as its initial packet; nobody else takes it. -/
def Takes (packet : UdpPacket) (before after : UdpDispatch) : Prop :=
  (∃ session ∈ before.udpSessions, session.alive = true ∧ session.source = packet.source ∧
    after.taken = before.taken ++ [⟨session.id, packet, session.status⟩] ∧
      after.created = before.created) ∨
  ((∀ session ∈ before.udpSessions, session.alive = true → session.source ≠ packet.source) ∧
    after.taken = before.taken ++ [⟨before.created, packet, .handshake⟩] ∧
      ∃ session ∈ after.udpSessions, session.id = before.created ∧ session.alive = true ∧
        session.initialPacket = packet)

theorem asyncReadUdp_same (d : UdpDispatch) :
    d.asyncReadUdp.taken = d.taken ∧ d.asyncReadUdp.created = d.created ∧
      d.asyncReadUdp.udpSessions = d.udpSessions ∧ d.asyncReadUdp.erased = d.erased := by
  unfold asyncReadUdp
  split <;> exact ⟨rfl, rfl, rfl, rfl⟩

theorem step_handle {d : UdpDispatch} {packet : UdpPacket} (calling : d.calling = some packet)
    (fails : Bool) : d.step (.handle fails) = d.handle packet fails := by
  simp only [step, calling]

theorem takes_handle (d : UdpDispatch) (packet : UdpPacket) (fails : Bool) :
    Takes packet d (d.handle packet fails) := by
  rcases sweep_spec packet fails d.udpSessions with missed | ⟨session, later, threw, found⟩
  · refine Or.inr ⟨missed.others, ?_, (UdpSession.new d.created packet).start, ?_, rfl, rfl, rfl⟩
    · unfold handle
      simp only [missed.taker]
      exact (asyncReadUdp_same _).1
    · unfold handle
      simp only [missed.taker]
      rw [(asyncReadUdp_same _).2.2.1]
      exact List.mem_append_right _ (List.mem_singleton_self _)
  · obtain ⟨before, after, shape, _, _⟩ := found.split
    refine Or.inl ⟨session, ?_, found.alive, found.source.symm, ?_⟩
    · rw [shape]
      exact List.mem_append_right _ List.mem_cons_self
    · unfold handle
      simp only [found.taker]
      split
      · exact ⟨rfl, rfl⟩
      · exact ⟨(asyncReadUdp_same _).1, (asyncReadUdp_same _).2.1⟩

end UdpDispatch

/-- In every run the sessions stay isolated and the datagrams are taken in order. -/
theorem run_isolated_queued {events : List DispatchEvent}
    (legal : dispatchSystem.Legal .new events) :
    (dispatchSystem.run events .new).Isolated ∧ (dispatchSystem.run events .new).Queued :=
  dispatchSystem.invariant (fun d => d.Isolated ∧ d.Queued)
    (fun _ event enabled both => ⟨both.1.step event, both.2.step event enabled⟩) legal
    ⟨⟨⟨List.nodup_nil, (fun _ wrong => by cases wrong), (fun _ wrong => by cases wrong),
      (fun _ wrong => by cases wrong), (fun _ wrong => by cases wrong),
      (fun _ wrong => by cases wrong)⟩, List.Pairwise.nil⟩,
      ⟨sound_empty, fun wrong => absurd rfl wrong, rfl⟩⟩

/-- In every run no two live sessions of the list have one source; every datagram that has
arrived is taken once and in order, is the one the handler is called with or is queued; the
datagram the handler is called with goes to the live session of its source or else to a new
session; and every session has accepted the datagrams it has taken and has sent all its replies
to their source. -/
theorem udp_isolation (events : List DispatchEvent)
    (legal : dispatchSystem.Legal .new events) :
    (dispatchSystem.run events .new).udpSessions.Pairwise UdpDispatch.Apart ∧
    (dispatchSystem.run events .new).taken.map Taken.packet ++
        (dispatchSystem.run events .new).calling.toList ++
        (dispatchSystem.run events .new).n2t.udpQue =
      (dispatchSystem.run events .new).history.arrived ∧
    (∀ packet fails, (dispatchSystem.run events .new).calling = some packet →
      UdpDispatch.Takes packet (dispatchSystem.run events .new)
        (dispatchSystem.step (dispatchSystem.run events .new) (.handle fails))) ∧
    ∀ session ∈ (dispatchSystem.run events .new).everySession,
      session.accepted = ((dispatchSystem.run events .new).taken.filter
        fun taken => taken.session = session.id).map Taken.packet ∧
      ∀ reply ∈ session.replies, ∀ packet ∈ session.accepted,
        reply.destination = packet.source := by
  obtain ⟨isolated, queued⟩ := run_isolated_queued legal
  refine ⟨isolated.apart, ?_, ?_, ?_⟩
  · rw [queued.handed]
    exact queued.channel.conserved
  · intro packet fails calling
    have takes := UdpDispatch.takes_handle (dispatchSystem.run events .new) packet fails
    rw [← UdpDispatch.step_handle calling] at takes
    exact takes
  · intro session member
    refine ⟨isolated.ledger.recorded session member, ?_⟩
    intro reply replied packet accepted
    rw [isolated.ledger.addressed session member reply replied,
      isolated.ledger.accepted session member packet accepted]

/-- A datagram of the client `10.0.0.2` from the port. -/
abbrev sampleDatagram (srcPort : Port) : UdpPacket where
  srcAddr := "10.0.0.2".toList
  srcPort := srcPort
  dstAddr := "10.0.0.1".toList
  dstPort := 53
  data := [0x61]

/-- Two clients, the first of which sends twice; the second datagram arrives while the handler is
being called with the first. -/
abbrev twoClientsRun : List DispatchEvent :=
  [.start, .datagram (sampleDatagram 5000), .datagram (sampleDatagram 5001), .handle false,
    .handle false, .datagram (sampleDatagram 5000)]

theorem udp_isolation_twoClients :
    (dispatchSystem.run twoClientsRun .new).udpSessions.Pairwise UdpDispatch.Apart ∧
    (dispatchSystem.run twoClientsRun .new).taken.map Taken.packet ++
        (dispatchSystem.run twoClientsRun .new).calling.toList ++
        (dispatchSystem.run twoClientsRun .new).n2t.udpQue =
      (dispatchSystem.run twoClientsRun .new).history.arrived ∧
    (∀ packet fails, (dispatchSystem.run twoClientsRun .new).calling = some packet →
      UdpDispatch.Takes packet (dispatchSystem.run twoClientsRun .new)
        (dispatchSystem.step (dispatchSystem.run twoClientsRun .new) (.handle fails))) ∧
    ∀ session ∈ (dispatchSystem.run twoClientsRun .new).everySession,
      session.accepted = ((dispatchSystem.run twoClientsRun .new).taken.filter
        fun taken => taken.session = session.id).map Taken.packet ∧
      ∀ reply ∈ session.replies, ∀ packet ∈ session.accepted,
        reply.destination = packet.source :=
  udp_isolation twoClientsRun (by decide)

end Net2Tr
