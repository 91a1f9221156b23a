/-
This file is about the gc timer of `UDPSession`: does it destroy a session only
after a minute without `in_recv` and `out_recv`?

Each of them cancels the timer and sets it again, but a wait that has expired by
then is out of reach: its handler is queued with success, looks at the error
code only and destroys the session, although a packet has just been handled.
-/

import Libn2t.Association
import Libn2t.UdpCarried

namespace Net2Tr

/-- `minutes(1)`, in nanoseconds. -/
def gcTimeout : Nat := 60 * 10 ^ 9

/-- A destruction by the gc timer: its time, and the time of the last `start`, `in_recv` or
`out_recv` before it. -/
structure Collection where
  time : Nat
  lastActivity : Nat
deriving DecidableEq, Repr

/-- A session with the clock, the expiry time of its `gc_timer` and a record of what the timer has
done. -/
structure TimedSession where
  session : UdpSession
  now : Nat
  expiry : Nat
  started : Nat
  lastActivity : Nat
  collections : List Collection
deriving DecidableEq, Repr

/-- Time passes, a datagram is offered to the session, or a completion is delivered. -/
inductive TimedEvent where
  | tick (duration : Nat)
  | process (packet : UdpPacket) (fails : Bool)
  | completion (event : UdpEvent)
deriving DecidableEq, Repr

namespace TimedSession

/-- A session that is started now. -/
def new (id : Nat) (initialPacket : UdpPacket) (now : Nat) : TimedSession where
  session := (UdpSession.new id initialPacket).start
  now := now
  expiry := now + gcTimeout
  started := now
  lastActivity := now
  collections := []

/-- A handler has run. `armings` tells whether it has called `async_wait_timer`, and with it
`expires_after`; only `in_recv` and `out_recv` do. -/
def handled (session : UdpSession) (state : TimedSession) : TimedSession :=
  if session.armings = state.session.armings then { state with session }
  else
    { state with
      session
      expiry := state.now + gcTimeout
      lastActivity := state.now }

/-- The gc timer destroys the session: its handler runs without an error before anything else has
destroyed it. -/
def collects (state : TimedSession) : TimedEvent → Bool
  | .completion (.waited true) => state.session.status ≠ .destroy
  | _ => false

/-- The event can happen. A wait expires when the expiry time of the timer has come. -/
def enabled (state : TimedSession) : TimedEvent → Prop
  | .tick _ => True
  | .process _ _ => state.session.alive
  | .completion event =>
    state.session.enabled event ∧ (event = .expire → state.expiry ≤ state.now)

/-- The effect of an event on the session and its timer. -/
def advance (state : TimedSession) : TimedEvent → TimedSession
  | .tick duration => { state with now := state.now + duration }
  | .process packet fails =>
    match state.session.process packet fails with
    | none => state
    | some (session, _) => state.handled session
  | .completion event => state.handled (state.session.step event).1

/-- The effect of an event. -/
def step (state : TimedSession) (event : TimedEvent) : TimedSession :=
  if state.collects event then
    { state.advance event with
      collections := state.collections ++ [⟨state.now, state.lastActivity⟩] }
  else state.advance event

/-- The timer has destroyed the session only a minute after its start and a minute after the last
activity. -/
def Timely (state : TimedSession) : Prop :=
  ∀ collection ∈ state.collections, state.started + gcTimeout ≤ collection.time ∧
    collection.lastActivity + gcTimeout ≤ collection.time

end TimedSession

/-- A session with its clock as a transition system. -/
def timedSystem : Transition.System TimedSession TimedEvent where
  enabled := TimedSession.enabled
  step := TimedSession.step

instance (state : TimedSession) (event : TimedEvent) :
    Decidable (timedSystem.enabled state event) :=
  match event with
  | .tick _ => isTrue trivial
  | .process _ _ => inferInstanceAs (Decidable (state.session.alive = true))
  | .completion event =>
    inferInstanceAs (Decidable (state.session.enabled event ∧
      (event = .expire → state.expiry ≤ state.now)))

namespace UdpSession

/-- `in_recv` or `out_recv` runs in the handler of the event, and does not destroy the session. -/
def Rearms (s : UdpSession) : TimedEvent → Prop
  | .tick _ => False
  | .process packet _ => packet.source = s.source
  | .completion (.read data connectOk _) => s.EntersForward data connectOk
  | .completion (.received data) =>
    s.status = .forward → (socks5ToAddrport (data.drop 3)).isSome
  | .completion _ => False

end UdpSession

/-- No packet is handled in a session while the handler of a wait that has expired is queued. -/
def TimedSession.InTime (state : TimedSession) (event : TimedEvent) : Prop :=
  state.session.status ≠ .destroy → .fired ∈ state.session.waits → ¬ state.session.Rearms event

instance (s : UdpSession) (event : TimedEvent) : Decidable (s.Rearms event) :=
  match event with
  | .process packet _ => inferInstanceAs (Decidable (packet.source = s.source))
  | .completion (.read data connectOk _) =>
    inferInstanceAs (Decidable (s.EntersForward data connectOk))
  | .completion (.received data) =>
    inferInstanceAs (Decidable (s.status = .forward →
      (socks5ToAddrport (data.drop 3)).isSome = true))
  | .tick _ | .completion (.connected _) | .completion (.wrote _) | .completion .readError
  | .completion .receiveError | .completion .expire | .completion (.waited _) =>
    isFalse not_false

instance (state : TimedSession) (event : TimedEvent) : Decidable (state.InTime event) :=
  inferInstanceAs (Decidable (_ → _ → ¬ _))

namespace UdpSession

/-! ### What a handler does to the waits -/

/-- No wait has fired in between or lost its success, and a destroyed session has stayed so. -/
structure Winds (s t : UdpSession) : Prop where
  fired : .fired ∈ t.waits ↔ .fired ∈ s.waits
  destroyed : s.status = .destroy → t.status = .destroy

theorem Winds.trans {s t u : UdpSession} (first : Winds s t) (second : Winds t u) : Winds s u where
  fired := second.fired.trans first.fired
  destroyed status := second.destroyed (first.destroyed status)

theorem Winds.of_eq {s t : UdpSession} (waits : t.waits = s.waits) (status : t.status = s.status) :
    Winds s t := by
  refine ⟨?_, fun destroyed => status.trans destroyed⟩
  rw [waits]

/-- Cancelling the timer leaves the handlers that are queued with success. -/
theorem winds_cancelTimer (s : UdpSession) : Winds s s.cancelTimer := by
  refine ⟨?_, fun destroyed => destroyed⟩
  change .fired ∈ s.waits.map Wait.cancel ↔ _
  rw [List.mem_map]
  constructor
  · rintro ⟨wait, member, cancelled⟩
    cases wait with
    | armed => cases cancelled
    | fired => exact member
    | aborted => cases cancelled
  · exact fun member => ⟨.fired, member, rfl⟩

theorem winds_asyncWaitTimer (s : UdpSession) : Winds s s.asyncWaitTimer := by
  refine s.winds_cancelTimer.trans ⟨?_, fun destroyed => destroyed⟩
  change .fired ∈ s.cancelTimer.waits ++ [.armed] ↔ _
  rw [List.mem_append, List.mem_singleton]
  exact or_iff_left (fun wrong => by cases wrong)

theorem winds_destroy (s : UdpSession) : Winds s s.destroy := by
  unfold destroy
  split
  · exact .of_eq rfl rfl
  · exact ⟨s.winds_cancelTimer.fired, fun _ => rfl⟩

theorem winds_inRecv (s : UdpSession) (packet : UdpPacket) (fails : Bool) :
    Winds s (s.inRecv packet fails).1 := by
  have waiting := s.winds_cancelTimer.trans (winds_asyncWaitTimer _)
  refine waiting.trans ?_
  unfold inRecv
  dsimp only
  split
  · split
    · exact .of_eq rfl rfl
    · split <;> exact .of_eq rfl rfl
  · exact .of_eq rfl rfl

theorem winds_inRecvAll (packets : List UdpPacket) (failing : Option Nat) (s : UdpSession) :
    Winds s (inRecvAll failing packets s).1 := by
  induction packets generalizing failing s with
  | nil => exact .of_eq rfl rfl
  | cons packet rest inductionHypothesis =>
    have first := s.winds_inRecv packet (failing = some 0)
    unfold inRecvAll
    dsimp only
    split
    · exact first
    · exact first.trans (inductionHypothesis _ _)

theorem winds_tcpRecv (s : UdpSession) (data : Bytes) (connectOk : Bool) (failing : Option Nat) :
    Winds s (s.tcpRecv data connectOk failing).1 := by
  have moved {t : UdpSession} (waits : t.waits = s.waits) (live : s.status ≠ .destroy) :
      Winds s t := by
    refine ⟨?_, fun destroyed => absurd destroyed live⟩
    rw [waits]
  unfold tcpRecv
  split
  · rename_i handshake
    split
    · exact s.winds_destroy
    · exact moved rfl (by rw [handshake]; decide)
  · rename_i request
    have live : s.status ≠ .destroy := by
      rw [request]
      decide
    split
    · exact s.winds_destroy
    · split
      · exact s.winds_destroy
      · split
        · exact moved rfl live
        · split
          · refine Winds.trans ?_ (winds_inRecvAll _ _ _)
            exact moved rfl live
          · refine Winds.trans ?_ (winds_destroy _)
            exact .of_eq rfl rfl
  · exact s.winds_destroy
  · exact .of_eq rfl rfl

theorem winds_outRecv (s : UdpSession) (data : Bytes) : Winds s (s.outRecv data).1 := by
  have waiting := s.winds_cancelTimer.trans (winds_asyncWaitTimer _)
  unfold outRecv
  dsimp only
  split
  · split
    · exact waiting.trans (winds_destroy _)
    · split
      · exact waiting
      · split
        · exact waiting.trans (winds_destroy _)
        · split
          · exact waiting
          · exact waiting.trans (.of_eq rfl rfl)
  · exact waiting

theorem winds_release (s : UdpSession) : Winds s s.release := by
  unfold release
  split
  · exact .of_eq rfl rfl
  · exact s.winds_destroy.trans (.of_eq rfl rfl)

/-- What is left is the expiry of a wait and the run of its handler. -/
theorem winds_handle (s : UdpSession) {event : UdpEvent} (unexpired : event ≠ .expire)
    (other : ∀ ok, event ≠ .waited ok) : Winds s (s.handle event).1 := by
  have completed (kind : UdpOpKind) (ok : Bool) : Winds s (s.complete kind ok) := .of_eq rfl rfl
  cases event with
  | connected ok =>
    refine (completed .connect ok).trans ?_
    unfold handle
    dsimp only
    split
    · exact .of_eq rfl rfl
    · exact winds_destroy _
  | wrote ok =>
    refine (completed .tcpWrite ok).trans ?_
    unfold handle tcpSent
    dsimp only
    split
    · split <;> exact .of_eq rfl rfl
    · exact winds_destroy _
  | read data connectOk failing =>
    exact (completed .tcpRead true).trans (winds_tcpRecv _ data connectOk failing)
  | readError => exact (completed .tcpRead false).trans (winds_destroy _)
  | received data => exact (completed .outRead true).trans (winds_outRecv _ data)
  | receiveError => exact (completed .outRead false).trans (winds_destroy _)
  | expire => exact absurd rfl unexpired
  | waited ok => exact absurd rfl (other ok)

theorem winds_process {s t : UdpSession} {packet : UdpPacket} {fails threw : Bool}
    (taken : s.process packet fails = some (t, threw)) : Winds s t := by
  unfold process at taken
  split at taken
  · cases taken
  · have same := congrArg Prod.fst (Option.some.inj taken)
    dsimp only at same
    rw [← same]
    refine Winds.trans ?_ (winds_inRecv _ packet fails)
    exact .of_eq rfl rfl

/-- The handler of a wait that is not aborted destroys the session; it arms nothing. -/
theorem waited_fired (s : UdpSession) (ok : Bool) :
    (.fired ∈ (s.handle (.waited ok)).1.waits → .fired ∈ s.waits) ∧
      (s.status = .destroy → (s.handle (.waited ok)).1.status = .destroy) := by
  have erased : Wait.fired ∈ s.waits.erase (outcome ok) → .fired ∈ s.waits := List.mem_of_mem_erase
  cases ok with
  | false => exact ⟨erased, fun destroyed => destroyed⟩
  | true =>
    have destroyed := winds_destroy { s with waits := s.waits.erase (outcome true) }
    exact ⟨fun member => erased (destroyed.fired.mp member), destroyed.destroyed⟩

/-- Only an expiry queues the handler of a wait. -/
theorem step_fired (s : UdpSession) {event : UdpEvent} (unexpired : event ≠ .expire) :
    (.fired ∈ (s.step event).1.waits → .fired ∈ s.waits) ∧
      (s.status = .destroy → (s.step event).1.status = .destroy) := by
  have released := winds_release (s.handle event).1
  suffices handled : (.fired ∈ (s.handle event).1.waits → .fired ∈ s.waits) ∧
      (s.status = .destroy → (s.handle event).1.status = .destroy) from
    ⟨fun member => handled.1 (released.fired.mp member),
      fun destroyed => released.destroyed (handled.2 destroyed)⟩
  by_cases other : ∀ ok, event ≠ .waited ok
  · have winds := s.winds_handle unexpired other
    exact ⟨winds.fired.mp, winds.destroyed⟩
  · push Not at other
    obtain ⟨ok, rfl⟩ := other
    exact s.waited_fired ok

/-! ### When a handler arms the timer -/

/-- A datagram without an address behind its first three bytes destroys the session. -/
theorem outRecv_destroys {s : UdpSession} (forward : s.status = .forward) {data : Bytes}
    (rejected : ¬ (socks5ToAddrport (data.drop 3)).isSome = true) :
    (s.outRecv data).1.status = .destroy := by
  have status : s.cancelTimer.asyncWaitTimer.status = .forward := forward
  unfold outRecv
  dsimp only
  rw [if_pos status]
  split
  · exact destroy_status _
  · rename_i passed
    have long : 3 ≤ data.length := by
      by_contra short
      refine passed ⟨by omega, fun same => ?_⟩
      have three := congrArg List.length same
      rw [List.length_take] at three
      change _ = 3 at three
      omega
    rw [substr, if_pos long]
    dsimp only
    rw [Option.not_isSome_iff_eq_none.mp rejected]
    exact destroy_status _

/-- A handler that arms the timer and does not destroy the session has handled a packet. -/
theorem handle_rearms (s : UdpSession) (event : UdpEvent) :
    (s.handle event).1.armings = s.armings ∨ (s.handle event).1.status = .destroy ∨
      s.Rearms (.completion event) := by
  cases event with
  | connected ok =>
    cases ok with
    | false => exact Or.inr (Or.inl (destroy_status _))
    | true => exact Or.inl rfl
  | wrote ok =>
    cases ok with
    | false => exact Or.inr (Or.inl (destroy_status _))
    | true =>
      refine Or.inl ?_
      change (s.complete .tcpWrite true).tcpSent.armings = _
      unfold tcpSent
      split <;> rfl
  | read data connectOk failing =>
    by_cases enters : s.EntersForward data connectOk
    · exact Or.inr (Or.inr enters)
    · rcases tcpRecv_other (s := s.complete .tcpRead true) enters failing with
        destroyed | ⟨_, _, run⟩
      · exact Or.inr (Or.inl destroyed)
      · refine Or.inl ?_
        change ((s.complete .tcpRead true).tcpRecv data connectOk failing).1.armings = _
        rw [run]
        rfl
  | readError => exact Or.inr (Or.inl (destroy_status _))
  | received data =>
    by_cases field : (socks5ToAddrport (data.drop 3)).isSome
    · exact Or.inr (Or.inr fun _ => field)
    · by_cases forward : s.status = .forward
      · exact Or.inr (Or.inl (outRecv_destroys (s := s.complete .outRead true) forward field))
      · exact Or.inr (Or.inr fun wrong => absurd wrong forward)
  | receiveError => exact Or.inr (Or.inl (destroy_status _))
  | expire => exact Or.inl rfl
  | waited ok =>
    cases ok with
    | false => exact Or.inl rfl
    | true => exact Or.inr (Or.inl (destroy_status _))

theorem step_rearms (s : UdpSession) (event : UdpEvent) :
    (s.step event).1.armings = s.armings ∨ (s.step event).1.status = .destroy ∨
      s.Rearms (.completion event) := by
  rcases s.handle_rearms event with same | destroyed | rearms
  · exact Or.inl ((release_armings _).trans same)
  · exact Or.inr (Or.inl ((winds_release _).destroyed destroyed))
  · exact Or.inr (Or.inr rearms)

theorem process_rearms {s t : UdpSession} {packet : UdpPacket} {fails threw : Bool}
    (taken : s.process packet fails = some (t, threw)) : s.Rearms (.process packet fails) := by
  by_contra other
  rw [(s.process_eq_none_iff packet fails).mpr other] at taken
  cases taken

end UdpSession

namespace UdpSession

/-! ### When a packet comes too late -/

/-- A packet has been handled: the timer is armed again, and the session is as it was. -/
structure Rearmed (s t : UdpSession) : Prop where
  armings : t.armings ≠ s.armings
  live : t.status ≠ .destroy
  alive : t.alive = s.alive
  fired : .fired ∈ t.waits ↔ .fired ∈ s.waits

theorem append_ne_self {armings later : List Status} (more : later ≠ []) :
    armings ++ later ≠ armings := fun same => more (List.append_right_eq_self.mp same)

theorem inRecvAll_cons_armings (packet : UdpPacket) (rest : List UdpPacket)
    (failing : Option Nat) (s : UdpSession) :
    (inRecvAll failing (packet :: rest) s).1.armings ≠ s.armings := by
  obtain ⟨armings, _⟩ := s.inRecv_arms packet (failing = some 0)
  unfold inRecvAll
  dsimp only
  split
  · rw [armings]
    exact append_ne_self (List.cons_ne_nil _ _)
  · obtain ⟨count, later⟩ := inRecvAll_arms rest (failing.map (· - 1))
      (s.inRecv packet (failing = some 0)).1
    rw [later, armings, List.append_assoc]
    exact append_ne_self (List.cons_ne_nil _ _)

theorem rearmed_process {s t : UdpSession} (live : s.status ≠ .destroy) {packet : UdpPacket}
    {fails threw : Bool} (taken : s.process packet fails = some (t, threw)) : Rearmed s t := by
  have relayed := relayed_process taken
  refine ⟨?_, by rw [relayed.status]; exact live, relayed.alive, (winds_process taken).fired⟩
  rw [process_arms taken]
  exact append_ne_self (List.cons_ne_nil _ _)

theorem rearmed_tcpRecv {s : UdpSession} {data : Bytes} {connectOk : Bool}
    (enters : s.EntersForward data connectOk) (failing : Option Nat) :
    Rearmed s (s.tcpRecv data connectOk failing).1 := by
  have winds := s.winds_tcpRecv data connectOk failing
  obtain ⟨address, port, run⟩ := enters.run failing
  have relayed := relayed_inRecvAll (s.initialPacket :: s.sendQue) failing
    (s.associated address port)
  rw [run] at winds ⊢
  refine ⟨?_, ?_, relayed.alive, winds.fired⟩
  · exact inRecvAll_cons_armings s.initialPacket s.sendQue failing (s.associated address port)
  · rw [relayed.status]
    exact fun wrong => by cases wrong

/-- An address behind the first three bytes keeps the session. -/
theorem outRecv_keeps {s : UdpSession} {data : Bytes}
    (field : s.status = .forward → (socks5ToAddrport (data.drop 3)).isSome = true) :
    (s.outRecv data).1.status = s.status ∧ (s.outRecv data).1.alive = s.alive := by
  unfold outRecv
  dsimp only
  split
  · rename_i forward
    have accepted := field forward
    split
    · rename_i short
      rw [List.drop_of_length_le short.1] at accepted
      cases accepted
    · split
      · exact ⟨rfl, rfl⟩
      · rename_i socks5 tail
        have same : data.drop 3 = socks5 := by
          unfold substr at tail
          split at tail
          · exact Option.some.inj tail
          · cases tail
        split
        · rename_i rejected
          rw [same, rejected] at accepted
          cases accepted
        · split <;> exact ⟨rfl, rfl⟩
  · exact ⟨rfl, rfl⟩

theorem rearmed_outRecv {s : UdpSession} (live : s.status ≠ .destroy) {data : Bytes}
    (field : s.status = .forward → (socks5ToAddrport (data.drop 3)).isSome = true) :
    Rearmed s (s.outRecv data).1 := by
  obtain ⟨status, alive⟩ := outRecv_keeps field
  refine ⟨?_, by rw [status]; exact live, alive, (s.winds_outRecv data).fired⟩
  rw [s.outRecv_arms data]
  exact append_ne_self (List.cons_ne_nil _ _)

/-- A queued handler holds on to the session. -/
theorem release_of_fired {s : UdpSession} (fired : .fired ∈ s.waits) : s.release = s := by
  unfold release
  rw [if_pos]
  unfold referenced
  cases waits : s.waits with
  | nil =>
    rw [waits] at fired
    cases fired
  | cons wait rest =>
    rw [List.isEmpty_cons, Bool.not_false, Bool.or_true]

theorem rearmed_step {s : UdpSession} (live : s.status ≠ .destroy) (fired : .fired ∈ s.waits)
    {event : UdpEvent} (rearms : s.Rearms (.completion event)) : Rearmed s (s.step event).1 := by
  suffices handled : Rearmed s (s.handle event).1 by
    have kept := release_of_fired (handled.fired.mpr fired)
    change Rearmed s (s.handle event).1.release
    rw [kept]
    exact handled
  cases event with
  | read data connectOk failing =>
    obtain ⟨armings, status, alive, waits⟩ :=
      rearmed_tcpRecv (s := s.complete .tcpRead true) rearms failing
    exact ⟨armings, status, alive, waits⟩
  | received data =>
    obtain ⟨armings, status, alive, waits⟩ :=
      rearmed_outRecv (s := s.complete .outRead true) live rearms
    exact ⟨armings, status, alive, waits⟩
  | _ => cases rearms

end UdpSession

namespace TimedSession

/-! ### Runs -/

/-- The timer expires a minute after the last activity, the handler of a wait is queued only from
then on, and what the timer has destroyed it has destroyed in time. -/
structure Winding (state : TimedSession) : Prop where
  expiry : state.expiry = state.lastActivity + gcTimeout
  started : state.started ≤ state.lastActivity
  elapsed : state.lastActivity ≤ state.now
  expired : state.session.status ≠ .destroy → .fired ∈ state.session.waits →
    state.expiry ≤ state.now
  timely : state.Timely

theorem winding_new (id : Nat) (initialPacket : UdpPacket) (now : Nat) :
    (new id initialPacket now).Winding := by
  refine ⟨rfl, Nat.le_refl now, Nat.le_refl now, fun _ fired => ?_, fun _ wrong => by cases wrong⟩
  have armed : .fired ∈ ([.armed] : List Wait) := fired
  cases List.mem_singleton.mp armed

/-- A handler that arms the timer does so while no success is queued, or in a session that is
destroyed afterwards. -/
theorem Winding.handled {state : TimedSession} (winding : state.Winding) {t : UdpSession}
    (fired : .fired ∈ t.waits → .fired ∈ state.session.waits)
    (destroyed : state.session.status = .destroy → t.status = .destroy)
    (rearms : t.armings = state.session.armings ∨ t.status = .destroy ∨
      (state.session.status ≠ .destroy → .fired ∉ state.session.waits)) :
    (state.handled t).Winding := by
  obtain ⟨expiry, started, elapsed, expired, timely⟩ := winding
  have live : t.status ≠ .destroy → state.session.status ≠ .destroy :=
    fun live wrong => live (destroyed wrong)
  unfold TimedSession.handled
  split
  · exact ⟨expiry, started, elapsed, fun status member => expired (live status) (fired member),
      timely⟩
  · rename_i armed
    refine ⟨rfl, started.trans elapsed, Nat.le_refl _, fun status member => ?_, timely⟩
    rcases rearms with same | wrong | unqueued
    · exact absurd same armed
    · exact absurd wrong status
    · exact absurd (fired member) (unqueued (live status))

theorem Winding.advance {state : TimedSession} (winding : state.Winding) {event : TimedEvent}
    (enabled : state.enabled event) (inTime : state.InTime event) :
    (state.advance event).Winding := by
  have unqueued (rearms : state.session.Rearms event) :
      state.session.status ≠ .destroy → .fired ∉ state.session.waits :=
    fun live fired => inTime live fired rearms
  cases event with
  | tick duration =>
    obtain ⟨expiry, started, elapsed, expired, timely⟩ := winding
    exact ⟨expiry, started, elapsed.trans (Nat.le_add_right _ _),
      fun live fired => (expired live fired).trans (Nat.le_add_right _ _), timely⟩
  | process packet fails =>
    unfold TimedSession.advance
    dsimp only
    split
    · exact winding
    · rename_i taken
      have winds := UdpSession.winds_process taken
      exact winding.handled winds.fired.mp winds.destroyed
        (Or.inr (Or.inr (unqueued (UdpSession.process_rearms taken))))
  | completion event =>
    by_cases expire : event = .expire
    · subst expire
      obtain ⟨expiry, started, elapsed, _, timely⟩ := winding
      have same : (state.session.step .expire).1.armings = state.session.armings :=
        UdpSession.release_armings _
      unfold TimedSession.advance TimedSession.handled
      dsimp only
      rw [if_pos same]
      exact ⟨expiry, started, elapsed, fun _ _ => enabled.2 rfl, timely⟩
    · obtain ⟨fired, destroyed⟩ := state.session.step_fired expire
      refine winding.handled fired destroyed ?_
      rcases state.session.step_rearms event with same | wrong | rearms
      · exact Or.inl same
      · exact Or.inr (Or.inl wrong)
      · exact Or.inr (Or.inr (unqueued rearms))

/-- The handler of a wait that destroys the session runs a minute after the last activity. -/
theorem Winding.collected {state : TimedSession} (winding : state.Winding) {event : TimedEvent}
    (enabled : state.enabled event) (collects : state.collects event = true) :
    state.lastActivity + gcTimeout ≤ state.now := by
  unfold TimedSession.collects at collects
  split at collects
  · rw [← winding.expiry]
    exact winding.expired (of_decide_eq_true collects) enabled.1.2
  · cases collects

theorem started_advance (state : TimedSession) (event : TimedEvent) :
    (state.advance event).started = state.started ∧
      (state.advance event).collections = state.collections := by
  have handled (t : UdpSession) : (state.handled t).started = state.started ∧
      (state.handled t).collections = state.collections := by
    unfold TimedSession.handled
    split <;> exact ⟨rfl, rfl⟩
  cases event with
  | tick duration => exact ⟨rfl, rfl⟩
  | process packet fails =>
    unfold advance
    dsimp only
    split
    · exact ⟨rfl, rfl⟩
    · exact handled _
  | completion event => exact handled _

theorem Winding.step {state : TimedSession} (winding : state.Winding) {event : TimedEvent}
    (enabled : state.enabled event) (inTime : state.InTime event) :
    (state.step event).Winding := by
  have next := winding.advance enabled inTime
  unfold TimedSession.step
  split
  · rename_i collects
    have late := winding.collected enabled collects
    obtain ⟨started, collections⟩ := state.started_advance event
    refine ⟨next.expiry, next.started, next.elapsed, next.expired, fun collection member => ?_⟩
    change (state.advance event).started + gcTimeout ≤ _ ∧ _
    rw [started]
    rcases List.mem_append.mp member with earlier | new
    · exact winding.timely collection earlier
    · rw [List.mem_singleton.mp new]
      exact ⟨(Nat.add_le_add_right winding.started gcTimeout).trans late, late⟩
  · exact next

end TimedSession

/-- In every run in which no packet is handled while the handler of an expired wait is queued, the
gc timer destroys the session only a minute after its start and a minute after the last packet. -/
theorem idle_timeout (id : Nat) (initialPacket : UdpPacket) (now : Nat) (events : List TimedEvent)
    (guarded : timedSystem.Guarded TimedSession.InTime (.new id initialPacket now) events) :
    (timedSystem.run events (.new id initialPacket now)).Timely :=
  (timedSystem.guarded_induction TimedSession.Winding
    (fun _ _ enabled inTime winding => winding.step enabled inTime) guarded
    (TimedSession.winding_new id initialPacket now)).timely

/-- A datagram half a minute after the start, then nothing for a minute. -/
abbrev idleRun : List TimedEvent :=
  [.tick (30 * 10 ^ 9), .process (samplePacket [0x62]) false, .tick gcTimeout,
    .completion .expire, .completion (.waited true)]

theorem idle_timeout_idle :
    (timedSystem.run idleRun (.new 0 (samplePacket [0x61]) 0)).Timely :=
  idle_timeout 0 (samplePacket [0x61]) 0 idleRun (by decide)

/-- Otherwise the queued handler destroys the session behind the packet. -/
theorem early_collection {state : TimedSession} {event : TimedEvent}
    (enabled : timedSystem.enabled state event) (missed : ¬ state.InTime event) :
    timedSystem.Legal state [event, .completion (.waited true)] ∧
      ¬ (timedSystem.run [event, .completion (.waited true)] state).Timely := by
  unfold TimedSession.InTime at missed
  push Not at missed
  obtain ⟨live, fired, rearms⟩ := missed
  obtain ⟨t, next, quiet, alive, rearmed⟩ : ∃ t, state.advance event = state.handled t ∧
      state.collects event = false ∧ state.session.alive = true ∧
      UdpSession.Rearmed state.session t := by
    cases event with
    | tick duration => cases rearms
    | process packet fails =>
      cases taken : state.session.process packet fails with
      | none => exact absurd rearms ((state.session.process_eq_none_iff packet fails).mp taken)
      | some result =>
        refine ⟨result.1, ?_, rfl, enabled, UdpSession.rearmed_process live taken⟩
        unfold TimedSession.advance
        dsimp only
        rw [taken]
    | completion event =>
      have rearmed := UdpSession.rearmed_step live fired rearms
      cases event with
      | read data connectOk failing => exact ⟨_, rfl, rfl, enabled.1.1, rearmed⟩
      | received data => exact ⟨_, rfl, rfl, enabled.1.1, rearmed⟩
      | _ => cases rearms
  have handled : timedSystem.step state event =
      { state with
        session := t
        expiry := state.now + gcTimeout
        lastActivity := state.now } := by
    change state.step event = _
    rw [TimedSession.step, quiet, if_neg Bool.false_ne_true, next, TimedSession.handled,
      if_neg rearmed.armings]
  have queued : t.alive = true ∧ .fired ∈ t.waits :=
    ⟨rearmed.alive.trans alive, rearmed.fired.mpr fired⟩
  rw [Transition.System.legal_cons, Transition.System.legal_cons, Transition.System.run_cons,
    Transition.System.run_cons, handled]
  refine ⟨⟨enabled, ⟨queued, fun wrong => by cases wrong⟩, trivial⟩, fun timely => ?_⟩
  have collects : TimedSession.collects { state with
      session := t
      expiry := state.now + gcTimeout
      lastActivity := state.now } (.completion (.waited true)) = true := decide_eq_true rearmed.live
  have late := timely ⟨state.now, state.now⟩ (by
    change _ ∈ (TimedSession.step _ _).collections
    rw [TimedSession.step, if_pos collects]
    exact List.mem_append_right _ List.mem_cons_self)
  exact absurd late.2 (Nat.not_le_of_lt (Nat.lt_add_of_pos_right (by decide)))

/-- A datagram that arrives between the expiry of the wait and its handler. -/
abbrev lateRun : List TimedEvent :=
  [.tick gcTimeout, .completion .expire, .process (samplePacket [0x62]) false,
    .completion (.waited true)]

theorem idle_timeout_late :
    timedSystem.Legal (.new 0 (samplePacket [0x61]) 0) lateRun ∧
      ¬ (timedSystem.run lateRun (.new 0 (samplePacket [0x61]) 0)).Timely := by
  refine ⟨by decide, fun timely => ?_⟩
  have late := timely ⟨gcTimeout, gcTimeout⟩ (by decide)
  exact absurd late.2 (by decide)

end Net2Tr
