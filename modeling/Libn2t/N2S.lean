/-
This file proves that `N2S` always arms itself again. Each of its three
handlers is called once and registers itself at its end, where `N2T` may call it
again at once with a queued item, so a handler that is running, or about to
register, stands for the one that is not registered.

What is running is a stack of calls, the innermost first. `start` puts its three
calls on it, and a callback of lwIP may put a handler on top of it at any time.
-/

import Libn2t.UdpDispatch

namespace Net2Tr

open HandOff

/-- The handler that `async_output` registers. -/
inductive WriteHandler where
  | asyncOutput
deriving DecidableEq, Repr

/-- The handler that `async_accept` registers, with the session it has captured. -/
structure StartHandler where
  session : Nat
deriving DecidableEq, Repr

/-- A call that is under way: one of the three functions that register a handler, or a handler
with what it was called with. -/
inductive N2SCall where
  | asyncOutput
  | output (packet : Bytes)
  | asyncAccept
  | accept (call : AcceptCall StartHandler Nat TcpPcb)
  | asyncReadUdp
  | readUdp (packet : UdpPacket)
deriving DecidableEq, Repr

/-- `N2SInternal` with the `N2T` it uses and the calls under way. `written`, `started` and
`created` record the packets written to the tun device and the sessions started. -/
structure N2S where
  n2t : N2T WriteHandler StartHandler ReadHandler Nat TcpPcb
  running : List N2SCall
  udpSessions : List UdpSession
  stopped : Bool
  sessions : Nat
  created : Nat
  written : List Bytes
  started : List (AcceptCall StartHandler Nat TcpPcb)
deriving DecidableEq, Repr

namespace N2S

/-- `N2S::start`, over an `N2T` with nothing registered and these queues. The timer and the tun
device only lead to callbacks of lwIP. -/
def start (outputQue : List Bytes) (connectionQue : List TcpPcb) (udpQue : List UdpPacket) :
    N2S where
  n2t :=
    { output := none
      newConnection := none
      udpRecv := none
      outputQue := outputQue
      connectionQue := connectionQue
      udpQue := udpQue
      pendingSocket := none }
  running := [.asyncOutput, .asyncAccept, .asyncReadUdp]
  udpSessions := []
  stopped := false
  sessions := 0
  created := 0
  written := []
  started := []

variable (s : N2S)

/-- `async_output`. -/
def asyncOutput : N2S :=
  if s.stopped then s
  else
    let (n2t, call) := s.n2t.asyncOutput .asyncOutput
    { s with
      n2t := n2t
      running := (call.map fun call => .output call.2).toList ++ s.running }

/-- Its handler. -/
def output (packet : Bytes) : N2S :=
  { s with written := s.written ++ [packet], running := .asyncOutput :: s.running }

/-- `async_accept`. -/
def asyncAccept : N2S :=
  if s.stopped then s
  else
    let (n2t, call) := s.n2t.asyncAccept s.sessions ⟨s.sessions⟩
    { s with
      n2t := n2t
      sessions := s.sessions + 1
      running := (call.map .accept).toList ++ s.running }

/-- Its handler. -/
def accept (call : AcceptCall StartHandler Nat TcpPcb) : N2S :=
  { s with started := s.started ++ [call], running := .asyncAccept :: s.running }

/-- `async_read_udp`. -/
def asyncReadUdp : N2S :=
  if s.stopped then s
  else
    let (n2t, call) := s.n2t.asyncUdpRecv .asyncReadUdp
    { s with
      n2t := n2t
      running := (call.map fun call => .readUdp call.2).toList ++ s.running }

/-- Its handler. If a session throws, the exception leaves every call that is under way. -/
def readUdp (packet : UdpPacket) (fails : Bool) : N2S :=
  let result := sweep packet fails s.udpSessions
  let s := { s with udpSessions := result.kept }
  match result.taker with
  | some (_, true) => { s with running := [] }
  | some (_, false) => { s with running := .asyncReadUdp :: s.running }
  | none =>
    { s with
      udpSessions := s.udpSessions ++ [(UdpSession.new s.created packet).start]
      created := s.created + 1
      running := .asyncReadUdp :: s.running }

/-- The innermost call goes on. -/
def proceed (fails : Bool) : N2S :=
  match s.running with
  | [] => s
  | call :: rest =>
    let s := { s with running := rest }
    match call with
    | .asyncOutput => s.asyncOutput
    | .output packet => s.output packet
    | .asyncAccept => s.asyncAccept
    | .accept call => s.accept call
    | .asyncReadUdp => s.asyncReadUdp
    | .readUdp packet => s.readUdp packet fails

/-- `N2S::stop`. -/
def stop : N2S := { s with stopped := true }

end N2S

/-- What happens to an `N2S`: the innermost call goes on, lwIP calls back, a session moves on, or
`stop`. -/
inductive N2SEvent where
  | proceed (fails : Bool)
  | outputCb (packet : Bytes)
  | acceptCallback (newpcb : TcpPcb) (ok : Bool)
  | udpRecvCallback (packet : UdpPacket)
  | session (id : Nat) (event : UdpEvent)
  | stop
deriving DecidableEq, Repr

namespace N2S

variable (s : N2S)

/-- lwIP may call back at any time, a session moves on from the event loop. -/
def enabled : N2SEvent → Prop
  | .proceed _ => s.running ≠ []
  | .outputCb _ | .acceptCallback .. | .udpRecvCallback _ | .stop => True
  | .session id event =>
    s.running = [] ∧ ∃ session ∈ s.udpSessions, session.id = id ∧ session.enabled event

/-- The effect of an event. -/
def step : N2SEvent → N2S
  | .proceed fails => s.proceed fails
  | .outputCb packet =>
    let (n2t, call) := s.n2t.outputCb packet
    { s with
      n2t := n2t
      running := (call.map fun call => .output call.2).toList ++ s.running }
  | .acceptCallback newpcb ok =>
    let (n2t, call) := s.n2t.acceptCallback newpcb ok
    { s with n2t := n2t, running := (call.map .accept).toList ++ s.running }
  | .udpRecvCallback packet =>
    let (n2t, call) := s.n2t.udpRecvCallback packet
    { s with
      n2t := n2t
      running := (call.map fun call => .readUdp call.2).toList ++ s.running }
  | .session id event =>
    { s with udpSessions := s.udpSessions.map (UdpDispatch.advance id event) }
  | .stop => s.stop

/-- The next call is a handler that throws. -/
def throws (fails : Bool) : Bool :=
  match s.running with
  | .readUdp packet :: _ => (sweep packet fails s.udpSessions).taker.any Prod.snd
  | _ => false

/-- `stop` is not called and no handler throws. -/
def Undisturbed : N2SEvent → Prop
  | .proceed fails => s.throws fails = false
  | .stop => False
  | _ => True

instance (event : N2SEvent) : Decidable (s.enabled event) :=
  match event with
  | .proceed _ => inferInstanceAs (Decidable (s.running ≠ []))
  | .outputCb _ | .acceptCallback .. | .udpRecvCallback _ | .stop => isTrue trivial
  | .session id event =>
    inferInstanceAs (Decidable (s.running = [] ∧
      ∃ session ∈ s.udpSessions, session.id = id ∧ session.enabled event))

instance (event : N2SEvent) : Decidable (s.Undisturbed event) :=
  match event with
  | .proceed fails => inferInstanceAs (Decidable (s.throws fails = false))
  | .outputCb _ | .acceptCallback .. | .udpRecvCallback _ | .session .. => isTrue trivial
  | .stop => isFalse id

end N2S

/-- `N2S` as a transition system. -/
def n2sSystem : Transition.System N2S N2SEvent where
  enabled := N2S.enabled
  step := N2S.step

instance (s : N2S) (event : N2SEvent) : Decidable (n2sSystem.enabled s event) :=
  inferInstanceAs (Decidable (s.enabled event))

/-! ### The classes of traffic -/

/-- The classes of traffic, each with a handler and a queue. -/
inductive Traffic where
  | output | accept | udp
deriving DecidableEq, Repr

/-- The class a call belongs to. -/
def N2SCall.traffic : N2SCall → Traffic
  | .asyncOutput | .output _ => .output
  | .asyncAccept | .accept _ => .accept
  | .asyncReadUdp | .readUdp _ => .udp

namespace N2S

variable {s : N2S}

/-- A handler of the class is registered. -/
def waiting (s : N2S) : Traffic → Bool
  | .output => s.n2t.output.isSome
  | .accept => s.n2t.newConnection.isSome
  | .udp => s.n2t.udpRecv.isSome

/-- The number of items queued for the class. -/
def queued (s : N2S) : Traffic → Nat
  | .output => s.n2t.outputQue.length
  | .accept => s.n2t.connectionQue.length
  | .udp => s.n2t.udpQue.length

/-- A call of the class is under way. -/
def busy (s : N2S) (kind : Traffic) : Prop := ∃ call ∈ s.running, call.traffic = kind

/-- Every class has a handler registered or a call under way, and no handler waits while items are
queued. -/
structure Armed (s : N2S) : Prop where
  started : s.stopped = false
  prompt : ∀ kind, s.waiting kind = true → s.queued kind = 0
  armed : ∀ kind, s.waiting kind = true ∨ s.busy kind

/-- A step on behalf of one class leaves the others alone. -/
structure Serves (s next : N2S) (kind : Traffic) : Prop where
  stopped : next.stopped = s.stopped
  others : ∀ other, other ≠ kind → next.waiting other = s.waiting other ∧
    next.queued other = s.queued other
  calls : ∀ other, other ≠ kind → s.busy other → next.busy other
  prompt : (s.waiting kind = true → s.queued kind = 0) →
    next.waiting kind = true → next.queued kind = 0
  armed : next.waiting kind = true ∨ next.busy kind

theorem Armed.serve {next : N2S} {kind : Traffic} (armed : s.Armed) (serves : Serves s next kind) :
    next.Armed := by
  refine ⟨serves.stopped.trans armed.started, fun other waits => ?_, fun other => ?_⟩
  · by_cases same : other = kind
    · subst same
      exact serves.prompt (armed.prompt other) waits
    · obtain ⟨waiting, queued⟩ := serves.others other same
      rw [queued]
      exact armed.prompt other (waiting ▸ waits)
  · by_cases same : other = kind
    · subst same
      exact serves.armed
    · rw [(serves.others other same).1]
      exact (armed.armed other).imp_right (serves.calls other same)

/-- The calls of other classes stay under way when a call of this class is taken off the stack and
others are put on it. -/
theorem busy_of_replaced {call : N2SCall} {rest added : List N2SCall} {next : N2S}
    (running : s.running = call :: rest) (nextRunning : next.running = added ++ rest)
    {other : Traffic} (different : other ≠ call.traffic) (busy : s.busy other) :
    next.busy other := by
  obtain ⟨found, member, traffic⟩ := busy
  rw [running] at member
  rcases List.mem_cons.mp member with same | inside
  · exact absurd (same ▸ traffic.symm) different
  · exact ⟨found, nextRunning ▸ List.mem_append_right added inside, traffic⟩

/-- The calls under way stay so when others are put on the stack. -/
theorem busy_of_added {added : List N2SCall} {next : N2S}
    (nextRunning : next.running = added ++ s.running) {other : Traffic} (busy : s.busy other) :
    next.busy other := by
  obtain ⟨found, member, traffic⟩ := busy
  exact ⟨found, nextRunning ▸ List.mem_append_right added member, traffic⟩

/-! ### The steps -/

/-- Registering a handler leaves it waiting or calls it. -/
theorem Serves.of_register {Item Handler : Type} {next : N2S} {kind : Traffic}
    (channel : Channel Item Handler) (handler : Handler)
    (waiting : s.waiting kind = channel.slot.isSome)
    (queued : s.queued kind = channel.queue.length)
    (nextWaiting : next.waiting kind = (channel.register handler).1.slot.isSome)
    (nextQueued : next.queued kind = (channel.register handler).1.queue.length)
    (called : (channel.register handler).2.isSome = true → next.busy kind)
    (stopped : next.stopped = s.stopped)
    (others : ∀ other, other ≠ kind → next.waiting other = s.waiting other ∧
      next.queued other = s.queued other)
    (calls : ∀ other, other ≠ kind → s.busy other → next.busy other) : Serves s next kind := by
  refine ⟨stopped, others, calls, fun prompt waits => ?_, ?_⟩
  · have before : channel.Prompt := fun taken =>
      List.length_eq_zero_iff.mp (queued ▸ prompt (waiting ▸ taken))
    rw [nextQueued, List.length_eq_zero_iff]
    exact before.register handler (nextWaiting ▸ waits)
  · rw [nextWaiting]
    exact (channel.register_waits handler).imp_right called

/-- An item calls the handler that waits, or a call is under way and stays so. -/
theorem Serves.of_produce {Item Handler : Type} {next : N2S} {kind : Traffic}
    (channel : Channel Item Handler) (item : Item)
    (armed : s.waiting kind = true ∨ s.busy kind)
    (waiting : s.waiting kind = channel.slot.isSome)
    (nextWaiting : next.waiting kind = (channel.produce item).1.slot.isSome)
    (nextQueued : next.queued kind = (channel.produce item).1.queue.length)
    (called : (channel.produce item).2.isSome = true → next.busy kind)
    (stopped : next.stopped = s.stopped)
    (others : ∀ other, other ≠ kind → next.waiting other = s.waiting other ∧
      next.queued other = s.queued other)
    (calls : ∀ other, s.busy other → next.busy other) : Serves s next kind := by
  refine ⟨stopped, others, fun other _ => calls other, fun _ waits => ?_, Or.inr ?_⟩
  · rw [nextQueued, List.length_eq_zero_iff]
    exact channel.produce_prompt item (nextWaiting ▸ waits)
  · rcases armed with waits | busy
    · exact called (Channel.produce_calls (waiting ▸ waits) item)
    · exact calls kind busy

/-- A handler that has done its work registers itself again. -/
theorem Serves.of_handler {next : N2S} {call again : N2SCall} {rest : List N2SCall}
    (kind : Traffic) (running : s.running = call :: rest) (traffic : call.traffic = kind)
    (nextRunning : next.running = again :: rest) (nextTraffic : again.traffic = kind)
    (n2t : next.n2t = s.n2t) (stopped : next.stopped = s.stopped) : Serves s next kind := by
  have waiting (other : Traffic) : next.waiting other = s.waiting other := by
    cases other <;> simp only [N2S.waiting, n2t]
  have queued (other : Traffic) : next.queued other = s.queued other := by
    cases other <;> simp only [N2S.queued, n2t]
  have replaced : next.running = [again] ++ rest := nextRunning
  refine ⟨stopped, fun other _ => ⟨waiting other, queued other⟩, fun other different busy =>
    busy_of_replaced running replaced (traffic ▸ different) busy, ?_,
    Or.inr ⟨again, nextRunning ▸ List.mem_cons_self, nextTraffic⟩⟩
  rw [waiting, queued]
  exact id

theorem busy_of_called {Call : Type} {next : N2S} {rest : List N2SCall} {call : Option Call}
    {frame : Call → N2SCall} {kind : Traffic} (running : next.running =
      (call.map frame).toList ++ rest) (traffic : ∀ call, (frame call).traffic = kind)
    (called : call.isSome = true) : next.busy kind := by
  obtain ⟨found, shape⟩ := Option.isSome_iff_exists.mp called
  refine ⟨frame found, ?_, traffic found⟩
  rw [running, shape]
  exact List.mem_append_left rest (List.mem_singleton.mpr rfl)

theorem serves_asyncOutput {rest : List N2SCall} (opened : s.stopped = false)
    (running : s.running = .asyncOutput :: rest) :
    Serves s ({ s with running := rest } : N2S).asyncOutput .output := by
  rw [asyncOutput, if_neg (by rw [opened]; exact Bool.false_ne_true)]
  refine .of_register s.n2t.outputChannel .asyncOutput rfl rfl rfl rfl
    (busy_of_called rfl fun _ => rfl) rfl (fun other different => ?_)
    fun other different => busy_of_replaced running rfl different
  cases other with
  | output => exact absurd rfl different
  | accept => exact ⟨rfl, rfl⟩
  | udp => exact ⟨rfl, rfl⟩

theorem serves_asyncReadUdp {rest : List N2SCall} (opened : s.stopped = false)
    (running : s.running = .asyncReadUdp :: rest) :
    Serves s ({ s with running := rest } : N2S).asyncReadUdp .udp := by
  rw [asyncReadUdp, if_neg (by rw [opened]; exact Bool.false_ne_true)]
  refine .of_register s.n2t.udpChannel .asyncReadUdp rfl rfl rfl rfl
    (busy_of_called rfl fun _ => rfl) rfl (fun other different => ?_)
    fun other different => busy_of_replaced running rfl different
  cases other with
  | output => exact ⟨rfl, rfl⟩
  | accept => exact ⟨rfl, rfl⟩
  | udp => exact absurd rfl different

theorem waiting_accept (s : N2S) : s.waiting .accept = s.n2t.acceptChannel.slot.isSome := by
  rw [waiting, N2T.acceptChannel, Option.isSome_map]

theorem serves_asyncAccept {rest : List N2SCall} (opened : s.stopped = false)
    (running : s.running = .asyncAccept :: rest) :
    Serves s ({ s with running := rest } : N2S).asyncAccept .accept := by
  obtain ⟨channel, call⟩ := s.n2t.asyncAccept_register s.sessions ⟨s.sessions⟩
  have untouched := s.n2t.asyncAccept_others s.sessions ⟨s.sessions⟩
  rw [asyncAccept, if_neg (by rw [opened]; exact Bool.false_ne_true)]
  refine .of_register s.n2t.acceptChannel (some s.sessions, ⟨s.sessions⟩) s.waiting_accept rfl ?_ ?_
    (fun called => ?_) rfl (fun other different => ?_)
    fun other different => busy_of_replaced running rfl different
  · rw [waiting_accept]
    exact congrArg (fun channel => channel.slot.isSome) channel
  · exact congrArg (fun channel => channel.queue.length) channel
  · rw [← call, Option.isSome_map] at called
    exact busy_of_called rfl (fun _ => rfl) called
  · cases other with
    | output =>
      exact ⟨congrArg (fun channel => channel.slot.isSome) untouched.1,
        congrArg (fun channel => channel.queue.length) untouched.1⟩
    | accept => exact absurd rfl different
    | udp =>
      exact ⟨congrArg (fun channel => channel.slot.isSome) untouched.2,
        congrArg (fun channel => channel.queue.length) untouched.2⟩

/-- Unless it throws, the handler for datagrams ends with `async_read_udp`. -/
theorem serves_readUdp {packet : UdpPacket} {rest : List N2SCall}
    (running : s.running = .readUdp packet :: rest) {fails : Bool}
    (quiet : s.throws fails = false) :
    Serves s (({ s with running := rest } : N2S).readUdp packet fails) .udp := by
  have silent : (sweep packet fails s.udpSessions).taker.any Prod.snd = false := by
    simpa only [throws, running] using quiet
  unfold readUdp
  dsimp only
  split
  · rename_i taker
    rw [taker] at silent
    cases silent
  · exact .of_handler .udp running rfl rfl rfl rfl rfl
  · exact .of_handler .udp running rfl rfl rfl rfl rfl

theorem Armed.proceed (armed : s.Armed) {fails : Bool} (quiet : s.throws fails = false) :
    (s.proceed fails).Armed := by
  unfold N2S.proceed
  split
  · exact armed
  · rename_i call rest running
    cases call with
    | asyncOutput => exact armed.serve (serves_asyncOutput armed.started running)
    | output packet =>
      exact armed.serve (.of_handler .output running rfl rfl rfl rfl rfl)
    | asyncAccept => exact armed.serve (serves_asyncAccept armed.started running)
    | accept call =>
      exact armed.serve (.of_handler .accept running rfl rfl rfl rfl rfl)
    | asyncReadUdp => exact armed.serve (serves_asyncReadUdp armed.started running)
    | readUdp packet => exact armed.serve (serves_readUdp running quiet)

theorem Armed.outputCb (armed : s.Armed) (packet : Bytes) :
    (s.step (.outputCb packet)).Armed := by
  refine armed.serve (.of_produce s.n2t.outputChannel packet (armed.armed .output) rfl rfl rfl
    (busy_of_called rfl fun _ => rfl) rfl (fun other different => ?_)
    fun other => busy_of_added rfl)
  cases other with
  | output => exact absurd rfl different
  | accept => exact ⟨rfl, rfl⟩
  | udp => exact ⟨rfl, rfl⟩

theorem Armed.udpRecvCallback (armed : s.Armed) (packet : UdpPacket) :
    (s.step (.udpRecvCallback packet)).Armed := by
  refine armed.serve (.of_produce s.n2t.udpChannel packet (armed.armed .udp) rfl rfl rfl
    (busy_of_called rfl fun _ => rfl) rfl (fun other different => ?_)
    fun other => busy_of_added rfl)
  cases other with
  | output => exact ⟨rfl, rfl⟩
  | accept => exact ⟨rfl, rfl⟩
  | udp => exact absurd rfl different

theorem Armed.acceptCallback (armed : s.Armed) (newpcb : TcpPcb) (ok : Bool) :
    (s.step (.acceptCallback newpcb ok)).Armed := by
  cases ok with
  | false => exact ⟨armed.started, armed.prompt, armed.armed⟩
  | true =>
    obtain ⟨channel, call⟩ := s.n2t.acceptCallback_produce newpcb
    have untouched := s.n2t.acceptCallback_others newpcb true
    refine armed.serve (.of_produce s.n2t.acceptChannel newpcb (armed.armed .accept)
      s.waiting_accept ?_ ?_ (fun called => ?_) rfl (fun other different => ?_)
      fun other => busy_of_added rfl)
    · rw [waiting_accept]
      exact congrArg (fun channel => channel.slot.isSome) channel
    · exact congrArg (fun channel => channel.queue.length) channel
    · rw [← call, Option.isSome_map] at called
      exact busy_of_called rfl (fun _ => rfl) called
    · cases other with
      | output =>
        exact ⟨congrArg (fun channel => channel.slot.isSome) untouched.1,
          congrArg (fun channel => channel.queue.length) untouched.1⟩
      | accept => exact absurd rfl different
      | udp =>
        exact ⟨congrArg (fun channel => channel.slot.isSome) untouched.2,
          congrArg (fun channel => channel.queue.length) untouched.2⟩

theorem Armed.step (armed : s.Armed) {event : N2SEvent} (undisturbed : s.Undisturbed event) :
    (s.step event).Armed := by
  cases event with
  | proceed fails => exact armed.proceed undisturbed
  | outputCb packet => exact armed.outputCb packet
  | acceptCallback newpcb ok => exact armed.acceptCallback newpcb ok
  | udpRecvCallback packet => exact armed.udpRecvCallback packet
  | session id event => exact ⟨armed.started, armed.prompt, armed.armed⟩
  | stop => exact undisturbed.elim

theorem armed_start (outputQue : List Bytes) (connectionQue : List TcpPcb)
    (udpQue : List UdpPacket) : (start outputQue connectionQue udpQue).Armed := by
  refine ⟨rfl, fun kind waits => ?_, fun kind => Or.inr ?_⟩
  · cases kind <;> cases waits
  · cases kind with
    | output => exact ⟨.asyncOutput, List.mem_cons_self, rfl⟩
    | accept => exact ⟨.asyncAccept, List.mem_cons_of_mem _ List.mem_cons_self, rfl⟩
    | udp =>
      exact ⟨.asyncReadUdp, List.mem_cons_of_mem _ (List.mem_cons_of_mem _ List.mem_cons_self),
        rfl⟩

/-! ### The calls come to an end -/

/-- The steps a call may still take, its registrations apart. -/
def weight : N2SCall → Nat
  | .asyncOutput | .asyncAccept | .asyncReadUdp => 1
  | .output _ | .accept _ | .readUdp _ => 2

/-- A bound on the steps of the calls under way. Each queued item may lead to one more call of a
handler. -/
def work (s : N2S) : Nat :=
  (s.running.map weight).sum + 3 * (s.queued .output + s.queued .accept + s.queued .udp)

/-- A registration that calls its handler takes an item off the queue for it. -/
theorem work_register {Call : Type} {next : N2S} {rest : List N2SCall} {again : N2SCall}
    {call : Option Call} {frame : Call → N2SCall} (running : s.running = again :: rest)
    (light : weight again = 1) (heavy : ∀ call, weight (frame call) = 2)
    (nextRunning : next.running = (call.map frame).toList ++ rest)
    (queue : next.queued .output + next.queued .accept + next.queued .udp + call.toList.length =
      s.queued .output + s.queued .accept + s.queued .udp) : next.work < s.work := by
  rw [work, work, running, nextRunning, List.map_cons, List.sum_cons, light, List.map_append,
    List.sum_append]
  cases call with
  | none =>
    simp only [Option.toList_none, List.length_nil] at queue
    simp only [Option.map_none, Option.toList_none, List.map_nil, List.sum_nil]
    omega
  | some called =>
    simp only [Option.toList_some, List.length_singleton] at queue
    simp only [Option.map_some, Option.toList_some, List.map_cons, List.map_nil, List.sum_cons,
      List.sum_nil, heavy]
    omega

/-- A call that goes without registering anything. -/
theorem work_drop {next : N2S} {rest : List N2SCall} {call : N2SCall}
    (added : List N2SCall) (running : s.running = call :: rest)
    (nextRunning : next.running = added ++ rest) (lighter : (added.map weight).sum < weight call)
    (n2t : next.n2t = s.n2t) : next.work < s.work := by
  have queued (kind : Traffic) : next.queued kind = s.queued kind := by
    cases kind <;> simp only [N2S.queued, n2t]
  rw [work, work, running, nextRunning, List.map_cons, List.sum_cons, List.map_append,
    List.sum_append, queued, queued, queued]
  omega

theorem length_toList_map {Item Other : Type} (slot : Option Item) (f : Item → Other) :
    (slot.map f).toList.length = slot.toList.length := by
  cases slot <;> rfl

theorem work_asyncOutput {rest : List N2SCall} (running : s.running = .asyncOutput :: rest) :
    ({ s with running := rest } : N2S).asyncOutput.work < s.work := by
  rw [asyncOutput]
  split
  · exact work_drop [] running rfl Nat.one_pos rfl
  · have queue := s.n2t.outputChannel.register_queue .asyncOutput
    refine work_register running rfl (fun _ => rfl) rfl ?_
    show (s.n2t.outputChannel.register .asyncOutput).1.queue.length + s.queued .accept +
      s.queued .udp + (s.n2t.outputChannel.register .asyncOutput).2.toList.length = _
    rw [show s.queued .output = s.n2t.outputChannel.queue.length from rfl, ← queue]
    omega

theorem work_asyncReadUdp {rest : List N2SCall} (running : s.running = .asyncReadUdp :: rest) :
    ({ s with running := rest } : N2S).asyncReadUdp.work < s.work := by
  rw [asyncReadUdp]
  split
  · exact work_drop [] running rfl Nat.one_pos rfl
  · have queue := s.n2t.udpChannel.register_queue .asyncReadUdp
    refine work_register running rfl (fun _ => rfl) rfl ?_
    show s.queued .output + s.queued .accept +
      (s.n2t.udpChannel.register .asyncReadUdp).1.queue.length +
        (s.n2t.udpChannel.register .asyncReadUdp).2.toList.length = _
    rw [show s.queued .udp = s.n2t.udpChannel.queue.length from rfl, ← queue]
    omega

theorem work_asyncAccept {rest : List N2SCall} (running : s.running = .asyncAccept :: rest) :
    ({ s with running := rest } : N2S).asyncAccept.work < s.work := by
  rw [asyncAccept]
  split
  · exact work_drop [] running rfl Nat.one_pos rfl
  · obtain ⟨channel, call⟩ := s.n2t.asyncAccept_register s.sessions ⟨s.sessions⟩
    obtain ⟨outputs, udps⟩ := s.n2t.asyncAccept_others s.sessions ⟨s.sessions⟩
    have queue := s.n2t.acceptChannel.register_queue (some s.sessions, ⟨s.sessions⟩)
    rw [← channel, ← call, length_toList_map] at queue
    refine work_register running rfl (fun _ => rfl) rfl ?_
    show (s.n2t.asyncAccept s.sessions ⟨s.sessions⟩).1.outputChannel.queue.length +
      (s.n2t.asyncAccept s.sessions ⟨s.sessions⟩).1.acceptChannel.queue.length +
        (s.n2t.asyncAccept s.sessions ⟨s.sessions⟩).1.udpChannel.queue.length +
          (s.n2t.asyncAccept s.sessions ⟨s.sessions⟩).2.toList.length = _
    rw [outputs, udps, show s.queued .accept = s.n2t.acceptChannel.queue.length from rfl,
      ← queue]
    show s.queued .output + _ + s.queued .udp +
      (s.n2t.asyncAccept s.sessions ⟨s.sessions⟩).2.toList.length = _
    omega

theorem work_proceed (fails : Bool) (busy : s.running ≠ []) : (s.proceed fails).work < s.work := by
  unfold N2S.proceed
  split
  · rename_i idle
    exact absurd idle busy
  · rename_i call rest running
    cases call with
    | output packet => exact work_drop [.asyncOutput] running rfl (Nat.lt_succ_self 1) rfl
    | accept call => exact work_drop [.asyncAccept] running rfl (Nat.lt_succ_self 1) rfl
    | asyncOutput => exact work_asyncOutput running
    | asyncReadUdp => exact work_asyncReadUdp running
    | asyncAccept => exact work_asyncAccept running
    | readUdp packet =>
      dsimp only
      unfold readUdp
      dsimp only
      split
      · rw [work, work, running]
        exact Nat.add_lt_add_right (Nat.add_pos_left Nat.two_pos _) _
      · exact work_drop [.asyncReadUdp] running rfl (Nat.lt_succ_self 1) rfl
      · exact work_drop [.asyncReadUdp] running rfl (Nat.lt_succ_self 1) rfl

/-- The calls under way return within the bound, if lwIP does not call back in between. -/
theorem proceed_ends (fails : List Bool) (legal : n2sSystem.Legal s (fails.map .proceed)) :
    fails.length ≤ s.work := by
  induction fails generalizing s with
  | nil => exact Nat.zero_le _
  | cons first rest inductionHypothesis =>
    rw [List.map_cons, Transition.System.legal_cons] at legal
    have fewer := work_proceed first legal.1
    have later := inductionHypothesis legal.2
    rw [show n2sSystem.step s (.proceed first) = s.proceed first from rfl] at later
    rw [List.length_cons]
    omega

end N2S

/-- In every undisturbed run of a started `N2S`, whatever `N2T` had queued: when no call is under
way each class of traffic has its handler registered and nothing is queued; and the calls that are
under way come to an end. -/
theorem always_armed (outputQue : List Bytes) (connectionQue : List TcpPcb)
    (udpQue : List UdpPacket) (events : List N2SEvent)
    (undisturbed : n2sSystem.Guarded N2S.Undisturbed (.start outputQue connectionQue udpQue)
      events) :
    ((n2sSystem.run events (.start outputQue connectionQue udpQue)).running = [] →
      ((n2sSystem.run events (.start outputQue connectionQue udpQue)).n2t.output.isSome = true ∧
      (n2sSystem.run events
        (.start outputQue connectionQue udpQue)).n2t.newConnection.isSome = true ∧
      (n2sSystem.run events (.start outputQue connectionQue udpQue)).n2t.udpRecv.isSome = true) ∧
      (n2sSystem.run events (.start outputQue connectionQue udpQue)).n2t.outputQue = [] ∧
      (n2sSystem.run events (.start outputQue connectionQue udpQue)).n2t.connectionQue = [] ∧
      (n2sSystem.run events (.start outputQue connectionQue udpQue)).n2t.udpQue = []) ∧
    ∀ fails : List Bool,
      n2sSystem.Legal (n2sSystem.run events (.start outputQue connectionQue udpQue))
        (fails.map .proceed) →
      fails.length ≤ (n2sSystem.run events (.start outputQue connectionQue udpQue)).work := by
  have armed := n2sSystem.guarded_induction N2S.Armed
    (fun _ _ _ undisturbed armed => armed.step undisturbed) undisturbed (N2S.armed_start ..)
  refine ⟨fun idle => ?_, fun fails => N2S.proceed_ends fails⟩
  have waits (kind : Traffic) :
      (n2sSystem.run events (.start outputQue connectionQue udpQue)).waiting kind = true := by
    rcases armed.armed kind with waits | ⟨call, member, _⟩
    · exact waits
    · rw [idle] at member
      cases member
  exact ⟨⟨waits .output, waits .accept, waits .udp⟩,
    List.length_eq_zero_iff.mp (armed.prompt .output (waits .output)),
    List.length_eq_zero_iff.mp (armed.prompt .accept (waits .accept)),
    List.length_eq_zero_iff.mp (armed.prompt .udp (waits .udp))⟩

/-- An `N2S` started over an `N2T` with a packet, a connection and a datagram queued. -/
abbrev queuedStart : N2S :=
  .start [[0x61]] [.fresh sampleDst.1 sampleSrc.1 sampleDst.2 sampleSrc.2] [sampleDatagram 5000]

/-- Its three calls return, a second packet arriving in between; then a datagram arrives and its
handler returns. -/
abbrev queuedRun : List N2SEvent :=
  [.proceed false, .outputCb [0x62], .proceed false, .proceed false, .proceed false,
    .proceed false, .proceed false, .proceed false, .proceed false, .proceed false,
    .proceed false, .proceed false, .udpRecvCallback (sampleDatagram 5001), .proceed false,
    .proceed false]

theorem always_armed_queued :
    (n2sSystem.run queuedRun queuedStart).n2t.output.isSome = true ∧
      (n2sSystem.run queuedRun queuedStart).n2t.newConnection.isSome = true ∧
      (n2sSystem.run queuedRun queuedStart).n2t.udpRecv.isSome = true :=
  ((always_armed _ _ _ queuedRun (by decide)).1 (by decide)).1

end Net2Tr
