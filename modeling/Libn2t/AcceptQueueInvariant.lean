/-
This file proves when queued connections stay intact: `async_accept` hands out
pcbs that lwIP still owns, and the recv handlers of the `Socket` get all that
the client has sent, as long as lwIP frees no pcb in the queue and no data
arrives for one.

Any step that misses the condition can be followed by calls of `async_accept`
after which a connection is not intact.
-/

import Libn2t.AcceptQueue
import Libn2t.SendAccounting
import Libn2t.TcpCapture

namespace Net2Tr

variable {RecvHandler SentHandler ErrHandler : Type}

namespace Connection

variable {c d : Connection RecvHandler SentHandler ErrHandler}

/-! ### What a stage does to a connection -/

/-- What holds of a connection that was given to a `Socket`. A `Socket` that knows the end has a pcb
that takes no more data. -/
structure Whole (c : Connection RecvHandler SentHandler ErrHandler) : Prop where
  conserved : c.run.Conserved
  arrived : c.run.arrived = c.arrived
  askable : c.run.sock.pcbFreed = true → c.run.sock.recvBuf = []
  ended : c.run.sock.pcbFreed = true → c.run.pcb.state.rxClosed = true

theorem Whole.reached (whole : c.Whole) : c.Reached :=
  ⟨whole.conserved.bytes.trans (congrArg List.flatten whole.arrived), whole.askable⟩

/-- A change that hands nothing out, does not go back to `SYN_RCVD` and keeps what holds of a
connection with a `Socket`. -/
structure Keeps (c d : Connection RecvHandler SentHandler ErrHandler) : Prop where
  given : d.given = c.given
  young : d.run.pcb.state = .synRcvd → c.run.pcb.state = .synRcvd
  whole : c.given = true → c.Whole → d.Whole

/-- A change of the pcb only. -/
theorem keeps_withPcb {pcb : TcpPcb} (young : pcb.state = .synRcvd → c.run.pcb.state = .synRcvd)
    (ended : c.run.pcb.state.rxClosed = true → pcb.state.rxClosed = true) :
    c.Keeps (c.withPcb pcb) :=
  ⟨rfl, young, fun _ whole => ⟨whole.conserved.of_eq rfl (Or.inl rfl) rfl rfl rfl, whole.arrived,
    whole.askable, fun freed => ended (whole.ended freed)⟩⟩

theorem keeps_free (c : Connection RecvHandler SentHandler ErrHandler) : c.Keeps c.free :=
  keeps_withPcb (fun wrong => by cases wrong) fun _ => rfl

/-- A closed pcb takes no more data. -/
theorem close_rxClosed (pcb : TcpPcb) : pcb.close.state.rxClosed = true := by
  unfold TcpPcb.close
  split
  · rfl
  · rfl
  · rfl
  · rename_i other other' other''
    cases state : pcb.state <;> first | rfl | contradiction

theorem close_young (pcb : TcpPcb) : pcb.close.state ≠ .synRcvd := by
  intro young
  have closed := close_rxClosed pcb
  rw [young] at closed
  cases closed

theorem keeps_fail (drained : c.Drained TcpPcb.errf) (err : Err) : c.Keeps (c.fail err) := by
  unfold fail
  split
  · rename_i registered
    refine ⟨rfl, (fun wrong => by cases wrong), fun given whole => ?_⟩
    obtain ⟨_, recvBuf⟩ := SocketRun.errCallback_receiving c.run.sock err
    refine ⟨whole.conserved.step (.err err), whole.arrived, fun _ => ?_, fun _ => rfl⟩
    exact recvBuf.trans (drained given registered)
  · exact keeps_free c

theorem keeps_timeout (drained : c.run.pcb.state ≠ .timeWait → c.Drained TcpPcb.errf) :
    c.Keeps c.timeout := by
  unfold timeout
  split
  · exact keeps_free c
  · rename_i other
    exact keeps_fail (drained other) .abrt

theorem keeps_sent (c : Connection RecvHandler SentHandler ErrHandler) (len : Nat) :
    c.Keeps (c.sent len) := by
  unfold sent
  split
  · obtain ⟨_, recvBuf⟩ := SocketRun.sentCallback_receiving c.run.sock len
    obtain ⟨_, _, pcbFreed⟩ := c.run.step_sent len
    refine ⟨rfl, fun young => young, fun _ whole => ?_⟩
    exact ⟨whole.conserved.step (.sent len), whole.arrived,
      fun freed => recvBuf.trans (whole.askable (pcbFreed.symm.trans freed)),
      fun freed => whole.ended (pcbFreed.symm.trans freed)⟩
  · exact keeps_withPcb (fun young => young) fun ended => ended

theorem chainOf_toStr (data : Bytes) : (chainOf data).toStr = data := by
  simp [PbufChain.toStr, PbufChain.pbufs, chainOf]

theorem step_recv_state (run : SocketRun RecvHandler SentHandler ErrHandler) (p : PbufChain) :
    (run.step (.recv p)).pcb.state = run.pcb.state := by
  unfold SocketRun.step Socket.recvCallback
  dsimp only
  split <;> exact TcpPcb.touch_state _ _

theorem sent_safe (c : Connection RecvHandler SentHandler ErrHandler) (len : Nat) :
    (c.sent len).run.pcb.freed = c.run.pcb.freed ∧ (c.sent len).arrived = c.arrived := by
  unfold sent
  split <;> exact ⟨rfl, rfl⟩

/-- Data that is passed up goes to the `Socket`, if there is one. -/
theorem keeps_pass (takes : c.run.pcb.state.rxClosed = false) (data : Bytes) :
    c.Keeps (c.pass data) := by
  unfold pass
  split
  · rename_i waiting
    refine ⟨rfl, fun young => young, fun given => ?_⟩
    cases waiting.symm.trans given
  · split
    · have pcbFreed : (c.run.step (.recv (chainOf data))).sock.pcbFreed = c.run.sock.pcbFreed :=
        (SocketRun.recvCallback_nobody c.run.sock c.run.pcb (chainOf data).toStr).1
      refine ⟨rfl, fun young => ?_, fun _ whole => ?_⟩
      · rwa [step_recv_state] at young
      · have live : c.run.sock.pcbFreed = false := by
          rw [← Bool.not_eq_true]
          exact fun freed => by cases takes.symm.trans (whole.ended freed)
        have never {Goal : Prop}
            (freed : (c.run.step (.recv (chainOf data))).sock.pcbFreed = true) : Goal := by
          cases (pcbFreed.trans live).symm.trans freed
        refine ⟨whole.conserved.step (.recv (chainOf data)), ?_, never, never⟩
        show c.run.arrived ++ [(chainOf data).toStr] = c.arrived ++ [data]
        rw [whole.arrived, chainOf_toStr]
    · exact ⟨rfl, fun young => young, fun _ whole => whole⟩

theorem keeps_closed (drained : c.Drained TcpPcb.recv) : c.Keeps c.closed := by
  unfold closed
  split
  · exact keeps_withPcb (fun young => absurd young (close_young _)) fun _ => close_rxClosed _
  · rename_i given
    rw [Bool.not_eq_false] at given
    split
    · rename_i registered
      refine ⟨rfl, fun young => absurd young (close_young _), fun _ whole => ?_⟩
      exact ⟨whole.conserved.of_eq rfl (Or.inl rfl) rfl rfl rfl, whole.arrived,
        fun _ => drained given registered, fun _ => close_rxClosed _⟩
    · exact ⟨rfl, fun young => young, fun _ whole => whole⟩

theorem keeps_delete (c : Connection RecvHandler SentHandler ErrHandler) : c.Keeps c.delete := by
  have pcb : c.delete.run.pcb = c.run.sock.destructor c.run.pcb := rfl
  refine ⟨rfl, fun young => ?_, fun _ whole => ?_⟩
  · rw [pcb, Socket.destructor] at young
    split at young
    · exact young
    · exact absurd young (close_young _)
  · refine ⟨whole.conserved.of_eq rfl (Or.inr rfl) rfl rfl rfl, whole.arrived, whole.askable, ?_⟩
    intro freed
    have known : c.run.sock.pcbFreed = true := freed
    rw [pcb, Socket.destructor, if_pos known]
    exact whole.ended known

/-- What a method of a `Socket` leaves as it is. -/
theorem step_call (run : SocketRun RecvHandler SentHandler ErrHandler)
    {event : SocketEvent RecvHandler SentHandler ErrHandler} (isCall : event.isCall = true) :
    (run.step event).arrived = run.arrived ∧
      (run.step event).sock.pcbFreed = run.sock.pcbFreed ∧
      (run.step event).pcb.state = run.pcb.state ∧
      (run.sock.pcbFreed = true → (run.step event).sock.recvBuf = run.sock.recvBuf) := by
  cases event with
  | asyncRecv handler =>
    refine ⟨rfl, (SocketRun.asyncRecv_nobody run.sock handler).1, rfl, fun freed => ?_⟩
    show (run.sock.asyncRecv handler).1.recvBuf = run.sock.recvBuf
    rw [Socket.asyncRecv, if_pos freed]
  | asyncSend packet handler accepted =>
    obtain ⟨_, recvBuf⟩ := SocketRun.asyncSend_receiving run.sock run.pcb packet handler accepted
    have pcbFreed :=
      SocketRun.asyncSend_pcbFreed run.sock run.pcb packet handler accepted
    refine ⟨rfl, pcbFreed, ?_, fun _ => recvBuf⟩
    show (run.sock.asyncSend run.pcb packet handler accepted).2.1.state = run.pcb.state
    unfold Socket.asyncSend
    split
    · rfl
    · exact (TcpPcb.write_state _ _ _).trans (TcpPcb.touch_state _ _)
  | asyncErr handler =>
    obtain ⟨_, recvBuf⟩ := SocketRun.asyncErr_receiving run.sock handler
    exact ⟨rfl, SocketRun.asyncErr_pcbFreed run.sock handler, rfl, fun _ => recvBuf⟩
  | cancel => exact ⟨rfl, rfl, TcpPcb.touch_state _ _, fun _ => rfl⟩
  | recv | fin | sent | err => cases isCall

theorem keeps_call (c : Connection RecvHandler SentHandler ErrHandler)
    {event : SocketEvent RecvHandler SentHandler ErrHandler} (isCall : event.isCall = true) :
    c.Keeps { c with run := c.run.step event } := by
  obtain ⟨arrived, pcbFreed, state, recvBuf⟩ := step_call c.run isCall
  refine ⟨rfl, fun young => state.symm.trans young, fun _ whole => ?_⟩
  refine ⟨whole.conserved.step event, arrived.trans whole.arrived, fun freed => ?_, fun freed => ?_⟩
  · have known := pcbFreed.symm.trans freed
    exact (recvBuf known).trans (whole.askable known)
  · rw [state]
    exact whole.ended (pcbFreed.symm.trans freed)

/-- A `Socket` gets a connection from which nothing has been lost. -/
theorem setPcb_whole (nothing : c.arrived = []) : c.setPcb.Whole :=
  ⟨⟨rfl, fun _ => rfl, .refl []⟩, nothing.symm, (fun wrong => by cases wrong),
    (fun wrong => by cases wrong)⟩

end Connection

/-! ### What `tcp_process` says -/

section

variable {state : TcpState} {segment : TcpSegment} {found : Received}

/-- What `tcp_process` can make of a segment: it is a RST, nothing happens, it completes the
handshake, or `tcp_receive` takes it. -/
inductive Outcome (state : TcpState) (segment : TcpSegment) (found : Received) : Processed → Prop
  | rst (isRst : segment.has tcpRst = true) :
    Outcome state segment found { Processed.ignored state with reset := found.rstAcceptable }
  | ignored : Outcome state segment found (.ignored state)
  | accepted (next : TcpState) (young : state = .synRcvd) (old : next ≠ .synRcvd) :
    Outcome state segment found { found.taken next with accept := true }
  | taken (next : TcpState) (closed : Bool) (old : next ≠ .synRcvd)
    (rxClosed : state.rxClosed = true → next.rxClosed = true) :
    Outcome state segment found { found.taken next with closed := closed }

theorem tcpProcess_outcome (state : TcpState) (segment : TcpSegment) (found : Received) :
    Outcome state segment found (tcpProcess state segment found) := by
  have taken (next : TcpState) (old : next ≠ .synRcvd)
      (rxClosed : state.rxClosed = true → next.rxClosed = true) :
      Outcome state segment found (found.taken next) := .taken next false old rxClosed
  unfold tcpProcess
  dsimp only
  split
  · rename_i isRst
    exact .rst isRst
  · split
    · exact .ignored
    · split
      · split
        · refine .accepted _ rfl ?_
          split <;> decide
        · exact .ignored
      · refine taken _ ?_ ?_ <;> split <;> decide
      · refine taken _ ?_ ?_ <;> split <;> decide
      · split
        · refine taken _ ?_ ?_ <;> split <;> decide
        · refine taken _ ?_ ?_ <;> split <;> decide
      · refine taken _ ?_ ?_ <;> split <;> decide
      · refine taken _ ?_ ?_ <;> split <;> decide
      · exact .taken .lastAck _ (by decide) (by decide)
      all_goals exact .ignored

/-- Only a segment that completes the handshake makes a connection. -/
theorem tcpProcess_accept (accepted : (tcpProcess state segment found).accept = true) :
    state = .synRcvd ∧ (tcpProcess state segment found).reset = false ∧
      (tcpProcess state segment found).state ≠ .synRcvd := by
  have outcome := tcpProcess_outcome state segment found
  generalize tcpProcess state segment found = processed at accepted outcome ⊢
  cases outcome with
  | rst | ignored | taken => cases accepted
  | accepted next young old => exact ⟨young, rfl, old⟩

theorem tcpProcess_young (young : (tcpProcess state segment found).state = .synRcvd) :
    state = .synRcvd := by
  have outcome := tcpProcess_outcome state segment found
  generalize tcpProcess state segment found = processed at young outcome
  cases outcome with
  | rst | ignored => exact young
  | accepted next _ old => exact absurd young old
  | taken next _ old => exact absurd young old

/-- A pcb that takes no more data stays so. -/
theorem tcpProcess_rxClosed (closed : state.rxClosed = true) :
    (tcpProcess state segment found).state.rxClosed = true := by
  have outcome := tcpProcess_outcome state segment found
  generalize tcpProcess state segment found = processed at outcome ⊢
  cases outcome with
  | rst | ignored => exact closed
  | accepted next young old =>
    subst young
    cases closed
  | taken next _ _ rxClosed => exact rxClosed closed

theorem tcpProcess_reset (reset : (tcpProcess state segment found).reset = true) :
    segment.has tcpRst = true ∧ found.rstAcceptable = true := by
  have outcome := tcpProcess_outcome state segment found
  generalize tcpProcess state segment found = processed at reset outcome
  cases outcome with
  | rst isRst => exact ⟨isRst, reset⟩
  | ignored | accepted | taken => cases reset

end

namespace AcceptQueue

variable {s : AcceptQueue RecvHandler SentHandler ErrHandler}

/-! ### What holds of the queue -/

/-- The connections in the queue are different, owned by lwIP and have got no data; one that is in
`SYN_RCVD` is neither queued nor given away; and no bytes were lost of those that were given
away. -/
structure Kept (s : AcceptQueue RecvHandler SentHandler ErrHandler) : Prop where
  nodup : s.n2t.connectionQue.Nodup
  queued : ∀ conn ∈ s.n2t.connectionQue, conn < s.count ∧ (s.connections conn).given = false ∧
    (s.pcb conn).freed = false ∧ (s.connections conn).arrived = []
  young : ∀ conn, (s.pcb conn).state = .synRcvd →
    (s.connections conn).given = false ∧ conn ∉ s.n2t.connectionQue
  coming : ∀ conn, s.count ≤ conn → (s.connections conn).given = false
  whole : ∀ conn, (s.connections conn).given = true → (s.connections conn).Whole
  dangling : s.dangling = []

theorem Kept.intact (kept : s.Kept) : s.Intact :=
  ⟨kept.dangling, fun conn given => (kept.whole conn given).reached⟩

theorem Kept.withPending (kept : s.Kept) (pending : Option (Nat × Processed)) :
    Kept { s with pending := pending } :=
  ⟨kept.nodup, kept.queued, kept.young, kept.coming, kept.whole, kept.dangling⟩

theorem update_self (s : AcceptQueue RecvHandler SentHandler ErrHandler) (conn : Nat)
    (c : Connection RecvHandler SentHandler ErrHandler) :
    (s.update conn c).connections conn = c :=
  Function.update_self _ _ _

/-- One connection is replaced, or is new. -/
theorem Kept.replace {t : AcceptQueue RecvHandler SentHandler ErrHandler} (kept : s.Kept)
    {conn : Nat} {c : Connection RecvHandler SentHandler ErrHandler}
    (connections : t.connections = Function.update s.connections conn c)
    (queue : t.n2t.connectionQue = s.n2t.connectionQue) (count : s.count ≤ t.count)
    (dangling : t.dangling = s.dangling)
    (queued : conn ∈ s.n2t.connectionQue →
      c.given = false ∧ c.run.pcb.freed = false ∧ c.arrived = [])
    (young : c.run.pcb.state = .synRcvd → c.given = false ∧ conn ∉ s.n2t.connectionQue)
    (coming : t.count ≤ conn → c.given = false) (whole : c.given = true → c.Whole) : t.Kept := by
  have here : t.connections conn = c := by
    rw [connections, Function.update_self]
  have there {other : Nat} (different : other ≠ conn) :
      t.connections other = s.connections other := by
    rw [connections, Function.update_of_ne different]
  refine ⟨queue ▸ kept.nodup, fun other member => ?_, fun other => ?_, fun other later => ?_,
    fun other => ?_, dangling.trans kept.dangling⟩
  · rw [queue] at member
    obtain ⟨known, facts⟩ := kept.queued other member
    refine ⟨known.trans_le count, ?_⟩
    by_cases same : other = conn
    · subst same
      rw [pcb, here]
      exact queued member
    · rw [pcb, there same]
      exact facts
  · rw [pcb, queue]
    by_cases same : other = conn
    · subst same
      rw [here]
      exact young
    · rw [there same]
      exact kept.young other
  · by_cases same : other = conn
    · subst same
      rw [here]
      exact coming later
    · rw [there same]
      exact kept.coming other (count.trans later)
  · by_cases same : other = conn
    · subst same
      rw [here]
      exact whole
    · rw [there same]
      exact kept.whole other

/-- A connection changes that is not in the queue, or stays as it has to be there. -/
theorem Kept.update (kept : s.Kept) {conn : Nat}
    {c : Connection RecvHandler SentHandler ErrHandler} (keeps : (s.connections conn).Keeps c)
    (safe : conn ∈ s.n2t.connectionQue → c.run.pcb.freed = false ∧ c.arrived = []) :
    (s.update conn c).Kept := by
  refine kept.replace rfl rfl (Nat.le_refl _) rfl (fun member => ?_) (fun young => ?_)
    (fun coming => ?_) (fun given => ?_)
  · exact ⟨keeps.given.trans (kept.queued conn member).2.1, safe member⟩
  · rw [keeps.given]
    exact kept.young conn (keeps.young young)
  · exact keeps.given.trans (kept.coming conn coming)
  · rw [keeps.given] at given
    exact keeps.whole given (kept.whole conn given)

theorem handOut_self (s : AcceptQueue RecvHandler SentHandler ErrHandler)
    (call : AcceptCall Unit Unit Nat) :
    (s.handOut (some call)).connections call.pcb = (s.connections call.pcb).setPcb :=
  Function.update_self _ _ _

/-- Every byte that arrived for a connection that is handed out has reached its `Socket`, as none
has arrived. -/
theorem Kept.handOut (kept : s.Kept) {call : AcceptCall Unit Unit Nat}
    (known : call.pcb < s.count) (unqueued : call.pcb ∉ s.n2t.connectionQue)
    (live : (s.pcb call.pcb).freed = false) (old : (s.pcb call.pcb).state ≠ .synRcvd)
    (nothing : (s.connections call.pcb).arrived = []) : (s.handOut (some call)).Kept := by
  have owned : (s.handOut (some call)).dangling = s.dangling := by
    show (if (s.pcb call.pcb).freed then s.dangling ++ [call.pcb] else s.dangling) = _
    rw [live, if_neg Bool.false_ne_true]
  refine kept.replace rfl rfl (Nat.le_refl _) owned (fun member => absurd member unqueued)
    (fun young => absurd young old) (fun coming => ?_)
    (fun _ => Connection.setPcb_whole nothing)
  exact absurd known (Nat.not_lt.mpr coming)

theorem Kept.setState (kept : s.Kept) {conn : Nat} {state : TcpState}
    (young : state = .synRcvd → (s.pcb conn).state = .synRcvd)
    (ended : (s.pcb conn).state.rxClosed = true → state.rxClosed = true) :
    (s.update conn ((s.connections conn).setState state)).Kept :=
  kept.update (Connection.keeps_withPcb young ended) fun member => (kept.queued conn member).2.2

/-- An established connection is handed out or queued. -/
theorem Kept.acceptCallback (kept : s.Kept) {conn : Nat} (known : conn < s.count)
    (waiting : (s.connections conn).given = false) (unqueued : conn ∉ s.n2t.connectionQue)
    (live : (s.pcb conn).freed = false) (old : (s.pcb conn).state ≠ .synRcvd)
    (nothing : (s.connections conn).arrived = []) :
    (s.acceptCallback conn).Kept ∧
      ((s.acceptCallback conn).pcb conn).state = (s.pcb conn).state := by
  unfold AcceptQueue.acceptCallback N2T.acceptCallback
  rw [if_pos rfl]
  cases s.n2t.newConnection with
  | none =>
    refine ⟨⟨?_, fun other member => ?_, fun other young => ?_, kept.coming, kept.whole,
      kept.dangling⟩, rfl⟩
    · exact List.nodup_append.mpr ⟨kept.nodup, List.nodup_singleton conn,
        fun other member last inside equal =>
          unqueued (List.mem_singleton.mp inside ▸ equal ▸ member)⟩
    · rcases List.mem_append.mp member with old | new
      · exact kept.queued other old
      · rw [List.mem_singleton.mp new]
        exact ⟨known, waiting, live, nothing⟩
    · have different : other ≠ conn := by
        rintro rfl
        exact old young
      refine ⟨(kept.young other young).1, fun member => ?_⟩
      rcases List.mem_append.mp member with old | new
      · exact (kept.young other young).2 old
      · exact different (List.mem_singleton.mp new)
  | some handler =>
    have emptied : Kept { s with n2t := { s.n2t with newConnection := none } } :=
      ⟨kept.nodup, kept.queued, kept.young, kept.coming, kept.whole, kept.dangling⟩
    refine ⟨emptied.handOut known unqueued live old nothing, ?_⟩
    exact congrArg (fun c => c.run.pcb.state) (handOut_self (s := { s with
      n2t := { s.n2t with newConnection := none } }) ⟨s.n2t.pendingSocket, conn, handler⟩)

theorem Kept.input (kept : s.Kept) {conn : Nat} {segment : TcpSegment} {found : Received}
    (enabled : s.enabled (.segment conn segment found))
    (undisturbed : s.Undisturbed (.segment conn segment found))
    (endsRead : s.EndsRead (.segment conn segment found)) : (s.input conn segment found).Kept := by
  obtain ⟨_, _, known, live, _, _⟩ := enabled
  unfold AcceptQueue.input
  dsimp only
  cases accepted : (tcpProcess (s.pcb conn).state segment found).accept with
  | true =>
    obtain ⟨young, noReset, old⟩ := tcpProcess_accept accepted
    obtain ⟨waiting, unqueued⟩ := kept.young conn young
    have here : (s.update conn (s.connections conn).establish).connections conn =
        (s.connections conn).establish := s.update_self conn _
    have established : (s.update conn (s.connections conn).establish).Kept := by
      refine kept.update ⟨rfl, (fun wrong => by cases wrong), fun given => ?_⟩ fun member => ?_
      · cases waiting.symm.trans given
      · exact absurd member unqueued
    obtain ⟨called, state⟩ := established.acceptCallback known
      (by rw [here]; exact waiting) unqueued (by rw [pcb, here]; exact live)
      (by rw [pcb, here]; exact fun wrong => by cases wrong) (by rw [here]; rfl)
    rw [noReset, if_pos rfl, if_neg Bool.false_ne_true]
    refine (called.setState (fun wrong => absurd wrong old) fun ended => ?_).withPending _
    rw [state, pcb, here] at ended
    cases ended
  | false =>
    rw [if_neg Bool.false_ne_true]
    have moved : (s.update conn ((s.connections conn).setState
        (tcpProcess (s.pcb conn).state segment found).state)).Kept :=
      kept.setState tcpProcess_young tcpProcess_rxClosed
    split
    · rename_i reset
      obtain ⟨isRst, acceptable⟩ := tcpProcess_reset reset
      refine moved.update (Connection.keeps_fail ?_ .rst) fun member => ?_
      · rw [update_self]
        exact endsRead isRst acceptable
      · cases acceptable.symm.trans (undisturbed member isRst)
    · exact moved.withPending _

theorem Kept.proceed (kept : s.Kept) (undisturbed : s.Undisturbed .proceed)
    (endsRead : s.EndsRead .proceed) : s.proceed.Kept := by
  unfold AcceptQueue.proceed
  cases pending : s.pending with
  | none => exact kept
  | some work =>
    obtain ⟨conn, processed⟩ := work
    have undisturbed := undisturbed (conn, processed) pending
    have endsRead := endsRead (conn, processed) pending
    dsimp only at undisturbed endsRead ⊢
    split
    · refine (kept.update (Connection.keeps_sent _ _) fun member => ?_).withPending _
      obtain ⟨freed, arrived⟩ := (s.connections conn).sent_safe processed.acked
      rw [freed, arrived]
      exact (kept.queued conn member).2.2
    · rename_i acknowledged
      have done : processed.acked = 0 := Nat.eq_zero_of_not_pos acknowledged
      split
      · rename_i closed
        refine (kept.update (Connection.keeps_free _) fun member => ?_).withPending _
        cases closed.symm.trans (undisturbed member done).1
      · rename_i open'
        rw [Bool.not_eq_true] at open'
        obtain ⟨failing, ending⟩ := endsRead done open'
        split
        · rename_i data
          split
          · rename_i closed
            refine (kept.update (Connection.keeps_fail (failing data closed) .abrt)
              fun member => ?_).withPending _
            exact absurd (undisturbed member done).2 data
          · rename_i takes
            rw [Bool.not_eq_true] at takes
            refine (kept.update (Connection.keeps_pass takes _) fun member => ?_).withPending _
            exact absurd (undisturbed member done).2 data
        · rename_i noData
          rw [ne_eq, not_not] at noData
          split
          · rename_i gotFin
            refine (kept.update (Connection.keeps_closed (ending noData gotFin))
              fun member => ?_).withPending _
            obtain ⟨_, waiting, safe⟩ := kept.queued conn member
            rw [Connection.closed, if_pos waiting]
            exact ⟨(TcpPcb.close_freed _).trans safe.1, safe.2⟩
          · exact kept.withPending _

theorem Kept.syn (kept : s.Kept) (segment : TcpSegment) : (s.step (.syn segment)).Kept := by
  have unqueued : s.count ∉ s.n2t.connectionQue :=
    fun member => Nat.lt_irrefl _ (kept.queued s.count member).1
  exact kept.replace rfl rfl (Nat.le_succ _) rfl (fun member => absurd member unqueued)
    (fun _ => ⟨rfl, unqueued⟩) (fun _ => rfl) (fun given => by cases given)

/-- With nothing in the queue `async_accept` registers the handler. -/
theorem asyncAccept_nil (empty : s.n2t.connectionQue = []) :
    s.step .asyncAccept =
      { s with n2t := { s.n2t with newConnection := some (), pendingSocket := some () } } := by
  have call : s.n2t.asyncAccept () () =
      ({ s.n2t with newConnection := some (), pendingSocket := some () }, none) := by
    rw [N2T.asyncAccept]
    split
    · rfl
    · rename_i waiting
      cases empty.symm.trans waiting
  unfold AcceptQueue.step
  rw [call]
  rfl

/-- Otherwise it hands the first connection out. -/
theorem asyncAccept_cons {conn : Nat} {rest : List Nat}
    (waiting : s.n2t.connectionQue = conn :: rest) :
    s.step .asyncAccept =
      { s with n2t := { s.n2t with connectionQue := rest } }.handOut
        (some ⟨some (), conn, ()⟩) := by
  unfold AcceptQueue.step N2T.asyncAccept
  rw [waiting]

/-- What `async_accept` takes out of the queue is intact. -/
theorem Kept.asyncAccept (kept : s.Kept) : (s.step .asyncAccept).Kept := by
  cases waiting : s.n2t.connectionQue with
  | nil =>
    rw [asyncAccept_nil waiting]
    exact ⟨kept.nodup, kept.queued, kept.young, kept.coming, kept.whole, kept.dangling⟩
  | cons conn rest =>
    have member : conn ∈ s.n2t.connectionQue := waiting ▸ List.mem_cons_self
    obtain ⟨known, _, live, nothing⟩ := kept.queued conn member
    obtain ⟨unqueued, nodup⟩ := List.nodup_cons.mp (waiting ▸ kept.nodup)
    have inside {other : Nat} (later : other ∈ rest) : other ∈ s.n2t.connectionQue :=
      waiting ▸ List.mem_cons_of_mem conn later
    have popped : Kept { s with n2t := { s.n2t with connectionQue := rest } } :=
      ⟨nodup, fun other later => kept.queued other (inside later),
        fun other young => ⟨(kept.young other young).1,
          fun later => (kept.young other young).2 (inside later)⟩,
        kept.coming, kept.whole, kept.dangling⟩
    rw [asyncAccept_cons waiting]
    exact popped.handOut known unqueued live (fun young => (kept.young conn young).2 member) nothing

theorem Kept.step (kept : s.Kept) {event : AcceptEvent RecvHandler SentHandler ErrHandler}
    (enabled : s.enabled event) (undisturbed : s.Undisturbed event)
    (endsRead : s.EndsRead event) : (s.step event).Kept := by
  cases event with
  | syn segment => exact kept.syn segment
  | segment conn segment found => exact kept.input enabled undisturbed endsRead
  | proceed => exact kept.proceed undisturbed endsRead
  | timeout conn =>
    exact kept.update (Connection.keeps_timeout endsRead) fun member => absurd member undisturbed
  | asyncAccept => exact kept.asyncAccept
  | cancel => exact ⟨kept.nodup, kept.queued, kept.young, kept.coming, kept.whole, kept.dangling⟩
  | socket conn event =>
    obtain ⟨given, isCall, _⟩ := enabled
    refine kept.update (Connection.keeps_call _ isCall) fun member => ?_
    cases given.symm.trans (kept.queued conn member).2.1
  | delete conn =>
    have given : (s.connections conn).given = true := enabled
    refine kept.update (Connection.keeps_delete _) fun member => ?_
    cases given.symm.trans (kept.queued conn member).2.1

theorem kept_new : (new : AcceptQueue RecvHandler SentHandler ErrHandler).Kept :=
  ⟨List.nodup_nil, fun _ member => absurd member List.not_mem_nil,
    (fun _ young => by cases young), fun _ _ => rfl, (fun _ given => by cases given), rfl⟩

/-- The run lemma. -/
theorem kept_run (events : List (AcceptEvent RecvHandler SentHandler ErrHandler))
    (guarded : acceptSystem.Guarded (fun s event => s.Undisturbed event ∧ s.EndsRead event) .new
      events) :
    (acceptSystem.run events .new).Kept :=
  acceptSystem.guarded_induction Kept
    (fun _ _ enabled met kept => kept.step enabled met.1 met.2) guarded kept_new

end AcceptQueue

/-- Connections that wait in the queue stay intact in every run in which lwIP frees none of them and
no data arrives for one, and in which no end of a connection that a `Socket` is told finds bytes
waiting there. -/
theorem queue_intact (events : List (AcceptEvent RecvHandler SentHandler ErrHandler))
    (guarded : acceptSystem.Guarded (fun s event => s.Undisturbed event ∧ s.EndsRead event) .new
      events) :
    (acceptSystem.run events .new).Intact :=
  (AcceptQueue.kept_run events guarded).intact

/-! ### Steps that miss the condition -/

namespace Connection

variable {c : Connection RecvHandler SentHandler ErrHandler}

theorem not_drained {callback : TcpPcb → Bool} (unread : ¬ c.Drained callback) :
    c.given = true ∧ callback c.run.pcb = true ∧ c.run.sock.recvBuf ≠ [] := by
  rw [Drained, Classical.not_imp, Classical.not_imp] at unread
  exact unread

/-- A `Socket` that is told an error keeps the bytes that wait in it. -/
theorem fail_unread (unread : ¬ c.Drained TcpPcb.errf) (err : Err) :
    (c.fail err).given = true ∧ ¬ (c.fail err).Reached := by
  obtain ⟨given, registered, waiting⟩ := not_drained unread
  obtain ⟨_, recvBuf⟩ := SocketRun.errCallback_receiving c.run.sock err
  obtain ⟨pcbFreed, _⟩ := SocketRun.errCallback_nobody c.run.sock err
  rw [fail, if_pos registered]
  exact ⟨given, fun reached => waiting (recvBuf.symm.trans (reached.askable pcbFreed))⟩

/-- So does one that is told the end of the stream. -/
theorem closed_unread (unread : ¬ c.Drained TcpPcb.recv) :
    c.closed.given = true ∧ ¬ c.closed.Reached := by
  obtain ⟨given, registered, waiting⟩ := not_drained unread
  rw [closed, if_neg (Bool.not_eq_false _ ▸ given), if_pos registered]
  exact ⟨given, fun reached => waiting (reached.askable rfl)⟩

/-- What arrives for a connection without a `Socket` is dropped. -/
theorem pass_waiting (waiting : c.given = false) (data : Bytes) :
    (c.pass data).arrived.flatten = c.arrived.flatten ++ data := by
  rw [pass, if_pos waiting, List.flatten_append, List.flatten_singleton]

theorem fail_freed (c : Connection RecvHandler SentHandler ErrHandler) (err : Err) :
    (c.fail err).run.pcb.freed = true := by
  unfold fail
  split <;> rfl

end Connection

namespace AcceptQueue

variable {s : AcceptQueue RecvHandler SentHandler ErrHandler}

/-- lwIP has freed the pcb of the connection, or data of it was dropped. -/
def Spoiled (s : AcceptQueue RecvHandler SentHandler ErrHandler) (conn : Nat) : Prop :=
  (s.pcb conn).freed = true ∨ (s.connections conn).arrived.flatten ≠ []

/-- A spoiled connection comes out of the queue in the end. -/
theorem spoiled_accepted {conn : Nat} (member : conn ∈ s.n2t.connectionQue)
    (spoiled : s.Spoiled conn) :
    ∃ count, ¬ (acceptSystem.run (List.replicate count .asyncAccept) s).Intact := by
  induction waiting : s.n2t.connectionQue generalizing s with
  | nil =>
    rw [waiting] at member
    cases member
  | cons first rest inductionHypothesis =>
    have popped := asyncAccept_cons waiting
    by_cases here : conn = first
    · subst here
      have given := handOut_self (s := { s with n2t := { s.n2t with connectionQue := rest } })
        ⟨some (), conn, ()⟩
      rw [← popped] at given
      refine ⟨1, fun intact => ?_⟩
      rcases spoiled with freed | lost
      · have dangling : (s.step .asyncAccept).dangling = s.dangling ++ [conn] := by
          rw [popped]
          exact if_pos freed
        have none : (s.step .asyncAccept).dangling = [] := intact.dangling
        rw [dangling] at none
        exact List.append_ne_nil_of_right_ne_nil _ (List.cons_ne_nil _ _) none
      · have reached : ((s.step .asyncAccept).connections conn).Reached :=
          intact.reached conn (congrArg Connection.given given)
        rw [given] at reached
        exact lost reached.bytes.symm
    · have same : (s.step .asyncAccept).connections conn = s.connections conn := by
        rw [popped]
        exact Function.update_of_ne here _ _
      have later : conn ∈ rest :=
        (List.mem_cons.mp (waiting ▸ member)).resolve_left here
      have queue : (s.step .asyncAccept).n2t.connectionQue = rest := by
        rw [popped]
        rfl
      obtain ⟨count, broken⟩ := inductionHypothesis (s := s.step .asyncAccept)
        (by rw [queue]; exact later) (by rw [Spoiled, pcb, same]; exact spoiled) queue
      exact ⟨count + 1, broken⟩

theorem accepts_legal (count : Nat) (s : AcceptQueue RecvHandler SentHandler ErrHandler) :
    acceptSystem.Legal s (List.replicate count .asyncAccept) := by
  induction count generalizing s with
  | zero => exact acceptSystem.legal_nil s
  | succ count inductionHypothesis =>
    exact (acceptSystem.legal_cons s _ _).mpr ⟨trivial, inductionHypothesis _⟩

/-- An acceptable RST. -/
theorem input_rst (s : AcceptQueue RecvHandler SentHandler ErrHandler) (conn : Nat)
    {segment : TcpSegment} {found : Received} (isRst : segment.has tcpRst = true)
    (acceptable : found.rstAcceptable = true) :
    (s.input conn segment found).n2t = s.n2t ∧
      (s.input conn segment found).connections conn = (s.connections conn).fail .rst := by
  have processed : tcpProcess (s.pcb conn).state segment found =
      { Processed.ignored (s.pcb conn).state with reset := true } := by
    unfold tcpProcess
    dsimp only
    rw [if_pos isRst, acceptable]
  unfold input
  rw [processed]
  refine ⟨rfl, ?_⟩
  show ((s.update conn (s.connections conn)).update conn
    (((s.update conn (s.connections conn)).connections conn).fail .rst)).connections conn = _
  rw [update_self, update_self]

theorem timeout_freed (c : Connection RecvHandler SentHandler ErrHandler) :
    c.timeout.run.pcb.freed = true := by
  unfold Connection.timeout
  split
  · rfl
  · exact c.fail_freed .abrt

/-- A step that disturbs the queue spoils a connection in it. -/
theorem Kept.disturbed (kept : s.Kept) {event : AcceptEvent RecvHandler SentHandler ErrHandler}
    (missed : ¬ s.Undisturbed event) :
    ∃ conn ∈ (s.step event).n2t.connectionQue, (s.step event).Spoiled conn := by
  cases event with
  | segment conn segment found =>
    rw [Undisturbed, Classical.not_imp, Classical.not_imp, Bool.not_eq_false] at missed
    obtain ⟨member, isRst, acceptable⟩ := missed
    obtain ⟨n2t, failed⟩ := s.input_rst conn isRst acceptable
    refine ⟨conn, ?_, Or.inl ?_⟩
    · show conn ∈ (s.input conn segment found).n2t.connectionQue
      rwa [n2t]
    · show ((s.input conn segment found).connections conn).run.pcb.freed = true
      rw [failed]
      exact (s.connections conn).fail_freed .rst
  | proceed =>
    simp only [Undisturbed, Classical.not_forall] at missed
    obtain ⟨⟨conn, processed⟩, pending, member, acknowledged, broken⟩ := missed
    have waiting := (kept.queued conn member).2.1
    have noAck : ¬ 0 < processed.acked := Nat.not_lt.mpr (Nat.le_of_eq acknowledged)
    have pending : s.pending = some (conn, processed) := pending
    dsimp only at broken member
    show ∃ conn ∈ s.proceed.n2t.connectionQue, s.proceed.Spoiled conn
    unfold AcceptQueue.proceed
    rw [pending]
    dsimp only
    rw [if_neg noAck]
    split
    · exact ⟨conn, member, Or.inl (congrArg (fun c => c.run.pcb.freed) (s.update_self conn _))⟩
    · rename_i open'
      have data : processed.data ≠ [] := fun none => broken ⟨Bool.not_eq_true _ ▸ open', none⟩
      rw [if_pos data]
      split
      · refine ⟨conn, member, Or.inl ?_⟩
        refine (congrArg (fun c => c.run.pcb.freed) (s.update_self conn _)).trans ?_
        exact (s.connections conn).fail_freed .abrt
      · refine ⟨conn, member, Or.inr fun none => data ?_⟩
        have arrived := congrArg Connection.arrived
          (s.update_self conn ((s.connections conn).pass processed.data))
        have all : (s.connections conn).arrived.flatten ++ processed.data = [] := by
          rw [← Connection.pass_waiting waiting, ← arrived]
          exact none
        exact (List.append_eq_nil_iff.mp all).2
  | timeout conn =>
    rw [Undisturbed, not_not] at missed
    refine ⟨conn, missed, Or.inl ?_⟩
    refine (congrArg (fun c => c.run.pcb.freed) (s.update_self conn _)).trans ?_
    exact timeout_freed _
  | syn | asyncAccept | cancel | socket | delete => exact absurd trivial missed

/-- A connection that has got less than arrived for it. -/
theorem not_intact {conn : Nat} {c : Connection RecvHandler SentHandler ErrHandler}
    (found : s.connections conn = c) (short : c.given = true ∧ ¬ c.Reached) : ¬ s.Intact := by
  intro intact
  have reached := intact.reached conn (found ▸ short.1)
  rw [found] at reached
  exact short.2 reached

/-- A step that tells a `Socket` an end too early leaves bytes behind. -/
theorem unread {event : AcceptEvent RecvHandler SentHandler ErrHandler}
    (missed : ¬ s.EndsRead event) : ¬ (s.step event).Intact := by
  cases event with
  | segment conn segment found =>
    rw [EndsRead, Classical.not_imp, Classical.not_imp] at missed
    obtain ⟨isRst, acceptable, undrained⟩ := missed
    exact not_intact (s.input_rst conn isRst acceptable).2 (Connection.fail_unread undrained .rst)
  | proceed =>
    simp only [EndsRead, Classical.not_forall] at missed
    obtain ⟨⟨conn, processed⟩, pending, acknowledged, open', broken⟩ := missed
    have noAck : ¬ 0 < processed.acked := Nat.not_lt.mpr (Nat.le_of_eq acknowledged)
    have pending : s.pending = some (conn, processed) := pending
    dsimp only at broken open'
    rw [step, AcceptQueue.proceed, pending]
    dsimp only
    rw [if_neg noAck, if_neg (Bool.not_eq_true _ ▸ open')]
    rcases not_and_or.mp broken with failing | ending
    · rw [Classical.not_imp, Classical.not_imp] at failing
      obtain ⟨data, closed, undrained⟩ := failing
      have closed : (s.connections conn).run.pcb.state.rxClosed = true := closed
      rw [if_pos data, if_pos closed]
      exact not_intact (s.update_self conn _) (Connection.fail_unread undrained .abrt)
    · rw [Classical.not_imp, Classical.not_imp] at ending
      obtain ⟨noData, gotFin, undrained⟩ := ending
      rw [if_neg (not_not.mpr noData), if_pos gotFin]
      exact not_intact (s.update_self conn _) (Connection.closed_unread undrained)
  | timeout conn =>
    rw [EndsRead, Classical.not_imp] at missed
    obtain ⟨active, undrained⟩ := missed
    have failed : (s.connections conn).timeout = (s.connections conn).fail .abrt := if_neg active
    refine not_intact (s.update_self conn _) ?_
    rw [failed]
    exact Connection.fail_unread undrained .abrt
  | syn | asyncAccept | cancel | socket | delete => exact absurd trivial missed

end AcceptQueue

/-- Once a run misses the condition, connections can be accepted until one is not intact. -/
theorem queue_disturbed (events : List (AcceptEvent RecvHandler SentHandler ErrHandler))
    (guarded : acceptSystem.Guarded (fun s event => s.Undisturbed event ∧ s.EndsRead event) .new
      events)
    (event : AcceptEvent RecvHandler SentHandler ErrHandler)
    (enabled : (acceptSystem.run events .new).enabled event)
    (missed : ¬ ((acceptSystem.run events .new).Undisturbed event ∧
      (acceptSystem.run events .new).EndsRead event)) :
    ∃ count, acceptSystem.Legal .new (events ++ event :: List.replicate count .asyncAccept) ∧
      ¬ (acceptSystem.run (events ++ event :: List.replicate count .asyncAccept) .new).Intact := by
  have kept := AcceptQueue.kept_run events guarded
  have found : ∃ count, ¬ (acceptSystem.run (List.replicate count .asyncAccept)
      ((acceptSystem.run events .new).step event)).Intact := by
    rcases not_and_or.mp missed with disturbed | unread
    · obtain ⟨conn, member, spoiled⟩ := kept.disturbed disturbed
      exact AcceptQueue.spoiled_accepted member spoiled
    · exact ⟨0, AcceptQueue.unread unread⟩
  obtain ⟨count, broken⟩ := found
  refine ⟨count, (acceptSystem.legal_append _ _ _).mpr ⟨guarded.legal, ?_⟩, ?_⟩
  · exact (acceptSystem.legal_cons _ _ _).mpr ⟨enabled, AcceptQueue.accepts_legal count _⟩
  · rw [acceptSystem.run_append]
    exact broken

/-- A connection is established while no accept handler is registered. -/
abbrev waitingRun : List (AcceptEvent Nat Nat Nat) :=
  [.syn sampleSyn, .segment 0 sampleAck { nothingReceived with ackExpected := true }, .proceed]

/-- A segment of the same client with one byte of data. -/
abbrev sampleData : TcpSegment := sampleTcpSegment ⟨0x0A000001⟩
  [19, 136, 1, 187, 0, 0, 0, 1, 0, 0, 25, 111, 80, 24, 32, 0, 236, 21, 0, 0, 0x61]

/-- That byte arrives, and there is no more to it. -/
abbrev dataRun : List (AcceptEvent Nat Nat Nat) :=
  [.segment 0 sampleData { nothingReceived with data := [0x61] }, .proceed, .proceed]

/-- The connection is accepted before the data arrives. -/
abbrev acceptedEarly : List (AcceptEvent Nat Nat Nat) := waitingRun ++ .asyncAccept :: dataRun

theorem queue_intact_early : (acceptSystem.run acceptedEarly .new).Intact :=
  queue_intact acceptedEarly (by decide +kernel)

/-- The connection is accepted after the data has arrived. -/
abbrev acceptedLate : List (AcceptEvent Nat Nat Nat) := waitingRun ++ dataRun ++ [.asyncAccept]

/-- A RST of the same client. -/
abbrev sampleRst : TcpSegment := sampleTcpSegment ⟨0x0A000001⟩
  [19, 136, 1, 187, 0, 0, 0, 1, 0, 0, 0, 0, 80, 4, 32, 0, 102, 154, 0, 0]

/-- The client resets the connection while it waits in the queue. -/
abbrev resetWhileQueued : List (AcceptEvent Nat Nat Nat) :=
  waitingRun ++ [.segment 0 sampleRst { nothingReceived with rstAcceptable := true }, .asyncAccept]

/-- After a RST `async_accept` hands out a pcb that lwIP has freed, and data that came before it is
lost. -/
theorem queue_intact_late :
    (acceptSystem.Legal .new resetWhileQueued ∧
        ¬ (acceptSystem.run resetWhileQueued .new).Intact) ∧
      acceptSystem.Legal .new acceptedLate ∧ ¬ (acceptSystem.run acceptedLate .new).Intact := by
  refine ⟨⟨by decide +kernel, fun intact => ?_⟩, by decide +kernel, fun intact => ?_⟩
  · have handed : (acceptSystem.run resetWhileQueued .new).dangling = [0] := by decide +kernel
    cases handed.symm.trans intact.dangling
  · have lost : ((acceptSystem.run acceptedLate .new).connections 0).given = true ∧
        ((acceptSystem.run acceptedLate .new).connections 0).arrived = [[0x61]] ∧
        ((acceptSystem.run acceptedLate .new).connections 0).run.handed = [] ∧
        ((acceptSystem.run acceptedLate .new).connections 0).run.sock.recvBuf = [] := by
      decide +kernel
    obtain ⟨given, arrived, handed, recvBuf⟩ := lost
    have bytes := (intact.reached 0 given).bytes
    rw [handed, recvBuf, arrived] at bytes
    cases bytes

end Net2Tr
