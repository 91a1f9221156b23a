/-
This file follows the client's bytes from lwIP through `recv_buf` and the
parked handler to `async_write`, in every run and with no assumption on it.

A session writes the greeting, then one request, then the client's bytes. While
it forwards, what was written and what is still buffered make up exactly what
lwIP delivered; `destroy` freezes that. Which destination the request names is
not said here: it depends on the pcb the request is built from.
-/

import Libn2t.TcpInvariant

namespace Net2Tr

namespace TcpSession

/-! ### The flow of the client's bytes -/

/-- Both replies of the server were accepted: the choice of no authentication, and a success
reply to the request. -/
def Accepted (reads : List Bytes) : Prop :=
  ∃ reply rest, reads = methodReply :: reply :: rest ∧ 3 < reply.length ∧
    reply.take 3 = replyHead

/-- No `async_connect` is pending. -/
def NoConnect (s : TcpSession) : Prop := ∀ op ∈ s.ops, op.kind ≠ .connect

/-- What was written is the greeting, one request and client bytes, and the client bytes end
where the buffer begins. -/
def Split (s : TcpSession) : Prop :=
  ∃ request chunks, s.written = greeting :: request :: chunks ∧
    chunks.flatten ++ s.inSock.recvBuf = s.delivered

/-- What was written so far, in any status. -/
def Handed (s : TcpSession) : Prop :=
  s.written = [] ∨ s.written = [greeting] ∨
    ∃ request chunks, s.written = greeting :: request :: chunks ∧
      chunks.flatten <+: s.delivered ∧ (chunks ≠ [] → Accepted s.reads)

structure Flow (s : TcpSession) : Prop where
  connecting : s.NoConnect ∨ (s.ops = [⟨.connect, true⟩] ∧ s.written = [])
  handshake : s.status = .handshake →
    s.reads = [] ∧ s.delivered = s.inSock.recvBuf ∧ s.ops.length ≤ 1 ∧
      (s.NoConnect → s.written = [greeting])
  request : s.status = .request →
    s.reads = [methodReply] ∧ s.delivered = s.inSock.recvBuf ∧ s.ops.length ≤ 1 ∧
      s.NoConnect ∧ ((∃ request, s.written = [greeting, request]) ∨
        (s.written = [greeting] ∧ s.ops = []))
  forward : s.status = .forward →
    Accepted s.reads ∧ s.NoConnect ∧ s.Split ∧ (s.inSock.recv ≠ none → s.inSock.recvBuf = [])
  handed : s.status = .destroy → s.Handed
  told : s.told = true → s.status = .destroy ∧ s.NoConnect ∧ s.Split

/-- Reading on does not undo an acceptance. -/
theorem Accepted.append {reads : List Bytes} (accepted : Accepted reads) (more : List Bytes) :
    Accepted (reads ++ more) := by
  obtain ⟨reply, rest, shape, long, head⟩ := accepted
  exact ⟨reply, rest ++ more, by rw [shape]; rfl, long, head⟩

theorem Split.handed {s : TcpSession} (split : s.Split) (accepted : Accepted s.reads) :
    s.Handed := by
  obtain ⟨request, chunks, written, whole⟩ := split
  exact Or.inr (Or.inr ⟨request, chunks, written, ⟨_, whole⟩, fun _ => accepted⟩)

/-- In every status the session has written a prefix of what it may write. -/
theorem Flow.written {s : TcpSession} (flow : s.Flow) : s.Handed := by
  cases status : s.status with
  | handshake =>
    rcases flow.connecting with connected | ⟨_, written⟩
    · exact Or.inr (Or.inl ((flow.handshake status).2.2.2 connected))
    · exact Or.inl written
  | request =>
    rcases (flow.request status).2.2.2.2 with ⟨request, written⟩ | ⟨written, _⟩
    · refine Or.inr (Or.inr ⟨request, [], written, List.nil_prefix, ?_⟩)
      intro nonempty
      exact absurd rfl nonempty
    · exact Or.inr (Or.inl written)
  | forward => exact (flow.forward status).2.2.1.handed (flow.forward status).1
  | destroy => exact flow.handed status

/-- `destroy` freezes what was written. -/
theorem flow_destroy {s : TcpSession} (handed : s.Handed)
    (connecting : s.NoConnect ∨ (s.ops = [⟨.connect, true⟩] ∧ s.written = []))
    (told : s.told = true → s.NoConnect ∧ s.Split) : s.destroy.Flow := by
  have never {status : Status} (other : status ≠ .destroy) (wrong : s.destroy.status = status) :
      False := other (wrong.symm.trans s.destroy_status)
  refine ⟨?_, fun wrong => (never (by decide) wrong).elim, fun wrong =>
    (never (by decide) wrong).elim, fun wrong => (never (by decide) wrong).elim, ?_, ?_⟩
  · simpa [NoConnect] using connecting
  · intro _
    simpa [Handed] using handed
  · simpa [Split, NoConnect] using told

theorem Flow.destroy {s : TcpSession} (flow : s.Flow) : s.destroy.Flow :=
  flow_destroy flow.written flow.connecting fun told => (flow.told told).2

/-- The flow is about what was written, read, delivered and buffered. -/
theorem Flow.congr {s t : TcpSession} (flow : s.Flow) (status : t.status = s.status)
    (recv : t.inSock.recv = s.inSock.recv) (recvBuf : t.inSock.recvBuf = s.inSock.recvBuf)
    (ops : t.ops = s.ops) (written : t.written = s.written) (reads : t.reads = s.reads)
    (delivered : t.delivered = s.delivered) (told : t.told = s.told) : t.Flow := by
  obtain ⟨connecting, handshake, request, forward, handed, toldFlow⟩ := flow
  unfold Handed Split NoConnect at *
  refine ⟨?_, ?_, ?_, ?_, ?_, ?_⟩ <;> simp only [Handed, Split, NoConnect, status, recv,
    recvBuf, ops, written, reads, delivered, told] <;> assumption

theorem Flow.release {s : TcpSession} (flow : s.Flow) : s.release.Flow := by
  rcases s.release_cases with same | destructed
  · rw [same]
    exact flow
  · rw [destructed]
    exact flow.destroy.congr rfl rfl rfl rfl rfl rfl rfl rfl

theorem NoConnect.append {s : TcpSession} (noConnect : s.NoConnect) {op : OutOp}
    (other : op.kind ≠ .connect) : ∀ member ∈ s.ops ++ [op], member.kind ≠ .connect := by
  intro member inside
  rcases List.mem_append.mp inside with old | new
  · exact noConnect member old
  · rw [List.mem_singleton.mp new]
    exact other

/-! ### Starting and completing operations -/

/-- A pending operation of a kind is among the operations. -/
theorem exists_of_pending {s : TcpSession} {kind : OutKind} {ok : Bool}
    (pending : s.pending kind ok = true) : ∃ op ∈ s.ops, op.kind = kind := by
  obtain ⟨op, member, found⟩ := List.any_eq_true.mp pending
  rw [Bool.and_eq_true, decide_eq_true_eq] at found
  exact ⟨op, member, found.1⟩

/-- The number of pending operations of a kind. -/
def opCount (s : TcpSession) (kind : OutKind) : Nat := s.ops.countP fun op => op.kind = kind

/-- Completing an operation takes one of its kind off the list. -/
theorem opCount_complete {s : TcpSession} {kind : OutKind} {ok : Bool}
    (pending : s.pending kind ok = true) (other : OutKind) :
    (s.complete kind ok).opCount other + (if kind = other then 1 else 0) = s.opCount other := by
  obtain ⟨op, member, found⟩ := List.any_eq_true.mp pending
  obtain ⟨first, before, after, _, matched, shape, erased⟩ := List.exists_of_eraseP
    (p := fun op => op.kind = kind && (op.usable || !ok)) member found
  have kindEq : first.kind = kind := by
    rw [Bool.and_eq_true, decide_eq_true_eq] at matched
    exact matched.1
  rw [opCount, opCount, complete]
  simp only [erased]
  rw [shape, List.countP_append, List.countP_append, List.countP_cons, kindEq]
  by_cases same : kind = other
  · simp only [same, decide_true, if_true]
    omega
  · simp only [same, decide_false, Bool.false_eq_true, if_false]
    omega

/-- A session that is past the connection and has no operation of the handshake pending reads
on. -/
theorem Flow.outAsyncRead {s : TcpSession} (flow : s.Flow) (noConnect : s.NoConnect)
    (single : s.status = .handshake ∨ s.status = .request → s.ops = [])
    (requested : s.status = .request → ∃ request, s.written = [greeting, request]) :
    s.outAsyncRead.Flow := by
  have later : s.outAsyncRead.NoConnect := noConnect.append (fun connect => by cases connect)
  refine ⟨Or.inl later, ?_, ?_, ?_, flow.handed, ?_⟩
  · intro handshake
    obtain ⟨reads, delivered, _, written⟩ := flow.handshake handshake
    refine ⟨reads, delivered, ?_, fun _ => written noConnect⟩
    simp [TcpSession.outAsyncRead, single (Or.inl handshake)]
  · intro request
    obtain ⟨reads, delivered, _, _, _⟩ := flow.request request
    refine ⟨reads, delivered, ?_, later, Or.inl (requested request)⟩
    simp [TcpSession.outAsyncRead, single (Or.inr request)]
  · intro forward
    obtain ⟨accepted, _, split, parked⟩ := flow.forward forward
    exact ⟨accepted, later, split, parked⟩
  · intro told
    obtain ⟨destroyed, _, split⟩ := flow.told told
    exact ⟨destroyed, later, split⟩

/-- Handing on the next client bytes, which are no longer in the buffer. -/
theorem flow_inRecv {s : TcpSession} (forward : s.status = .forward) (noConnect : s.NoConnect)
    (accepted : Accepted s.reads) (told : s.told = false) (data : Bytes)
    (empty : s.inSock.recvBuf = [])
    (split : ∃ request chunks, s.written = greeting :: request :: chunks ∧
      chunks.flatten ++ data = s.delivered) : (s.inRecv data).Flow := by
  obtain ⟨request, chunks, written, whole⟩ := split
  have later : (s.outAsyncWrite data).NoConnect :=
    noConnect.append (fun connect => by cases connect)
  rw [inRecv, if_pos forward]
  refine ⟨Or.inl later, ?_, ?_, ?_, ?_, ?_⟩
  · intro wrong
    cases forward.symm.trans wrong
  · intro wrong
    cases forward.symm.trans wrong
  · intro _
    refine ⟨accepted, later, ⟨request, chunks ++ [data], ?_, ?_⟩, fun _ => empty⟩
    · simp [outAsyncWrite, written]
    · show (chunks ++ [data]).flatten ++ s.inSock.recvBuf = s.delivered
      rw [empty, List.flatten_append, List.flatten_singleton, List.append_nil, whole]
  · intro wrong
    cases forward.symm.trans wrong
  · intro wrong
    cases told.symm.trans wrong

/-- A forwarding session that has not been told of the end. -/
theorem Flow.untold {s : TcpSession} (flow : s.Flow) (undestroyed : s.status ≠ .destroy) :
    s.told = false := by
  rw [← Bool.not_eq_true]
  intro told
  exact undestroyed (flow.told told).1

/-- Asking for client data keeps the flow, and so does being told that there is no more. -/
theorem Flow.inAsyncRead {s : TcpSession} (flow : s.Flow) (forward : s.status = .forward) :
    s.inAsyncRead.Flow ∧ (s.inAsyncRead.status = .forward ∨ s.inAsyncRead.status = .destroy) ∧
      s.inAsyncRead.NoConnect := by
  obtain ⟨accepted, noConnect, split, parked⟩ := flow.forward forward
  by_cases freed : s.inSock.pcbFreed = true
  · rw [inAsyncRead_freed freed]
    refine ⟨flow_destroy ?_ (Or.inl noConnect) fun _ => ⟨noConnect, split⟩,
      Or.inr (destroy_status _), ?_⟩
    · exact split.handed accepted
    · simpa [NoConnect] using noConnect
  · rw [Bool.not_eq_true] at freed
    have untold := flow.untold (forward_undestroyed forward)
    by_cases empty : s.inSock.recvBuf = []
    · rw [inAsyncRead_park freed empty]
      refine ⟨⟨Or.inl noConnect, ?_, ?_, fun _ => ⟨accepted, noConnect, split, fun _ => empty⟩,
        ?_, ?_⟩, Or.inl forward, noConnect⟩
      · intro wrong
        cases forward.symm.trans wrong
      · intro wrong
        cases forward.symm.trans wrong
      · intro wrong
        cases forward.symm.trans wrong
      · intro wrong
        cases untold.symm.trans wrong
    · rw [inAsyncRead_take freed empty]
      refine ⟨flow_inRecv ?_ ?_ ?_ ?_ _ rfl split, Or.inl ?_, ?_⟩
      · exact forward
      · exact noConnect
      · exact accepted
      · exact untold
      · rw [inRecv, if_pos (by exact forward)]
        exact forward
      · rw [inRecv, if_pos (by exact forward)]
        exact noConnect.append (fun connect => by cases connect)

/-- A pending operation other than the connection is the only one of its handshake step. -/
theorem Flow.pending {s : TcpSession} (flow : s.Flow) {kind : OutKind} {ok : Bool}
    (other : kind ≠ .connect) (pending : s.pending kind ok = true) :
    s.NoConnect ∧
      (s.status = .handshake ∨ s.status = .request → (s.complete kind ok).ops = []) ∧
      (s.status = .request → ∃ request, s.written = [greeting, request]) := by
  obtain ⟨op, member, found⟩ := List.any_eq_true.mp pending
  have kindEq : op.kind = kind := by
    rw [Bool.and_eq_true, decide_eq_true_eq] at found
    exact found.1
  have noConnect : s.NoConnect := by
    rcases flow.connecting with noConnect | ⟨ops, _⟩
    · exact noConnect
    · rw [ops, List.mem_singleton] at member
      subst member
      exact absurd kindEq.symm other
  refine ⟨noConnect, ?_, ?_⟩
  · intro early
    have short : s.ops.length ≤ 1 := by
      rcases early with handshake | request
      · exact (flow.handshake handshake).2.2.1
      · exact (flow.request request).2.2.1
    have single : s.ops = [op] := by
      obtain ⟨first, shape⟩ := List.length_eq_one_iff.mp
        (le_antisymm short (List.length_pos_of_mem member))
      rw [shape, List.mem_singleton] at member
      rw [shape, member]
    rw [TcpSession.complete]
    simp only [single, List.eraseP_cons, found, cond_true]
  · intro request
    rcases (flow.request request).2.2.2.2 with requested | ⟨_, idle⟩
    · exact requested
    · rw [idle] at member
      cases member

theorem NoConnect.complete {s : TcpSession} (noConnect : s.NoConnect) (kind : OutKind)
    (ok : Bool) : (s.complete kind ok).NoConnect :=
  fun op member => noConnect op (List.mem_of_mem_eraseP member)

/-- Completing an operation other than the connection keeps the flow. -/
theorem Flow.complete {s : TcpSession} (flow : s.Flow) {kind : OutKind} {ok : Bool}
    (other : kind ≠ .connect) (pending : s.pending kind ok = true) :
    (s.complete kind ok).Flow := by
  obtain ⟨noConnect, single, requested⟩ := flow.pending other pending
  have later := noConnect.complete kind ok
  refine ⟨Or.inl later, ?_, ?_, ?_, flow.handed, ?_⟩
  · intro handshake
    obtain ⟨reads, delivered, _, written⟩ := flow.handshake handshake
    refine ⟨reads, delivered, ?_, fun _ => written noConnect⟩
    rw [single (Or.inl handshake)]
    exact Nat.zero_le 1
  · intro request
    obtain ⟨reads, delivered, _, _, _⟩ := flow.request request
    refine ⟨reads, delivered, ?_, later, Or.inl (requested request)⟩
    rw [single (Or.inr request)]
    exact Nat.zero_le 1
  · intro forward
    obtain ⟨accepted, _, split, parked⟩ := flow.forward forward
    exact ⟨accepted, later, split, parked⟩
  · intro told
    obtain ⟨destroyed, _, split⟩ := flow.told told
    exact ⟨destroyed, later, split⟩

/-! ### The events -/

/-- While the connection is pending nothing else is, and nothing has been written. -/
theorem Flow.unconnected {s : TcpSession} (flow : s.Flow) {ok : Bool}
    (pending : s.pending .connect ok = true) :
    s.ops = [⟨.connect, true⟩] ∧ s.written = [] ∧ ¬ s.NoConnect := by
  obtain ⟨op, member, kindEq⟩ := exists_of_pending pending
  have connecting : ¬ s.NoConnect := fun noConnect => noConnect op member kindEq
  rcases flow.connecting with noConnect | ⟨ops, written⟩
  · exact absurd noConnect connecting
  · exact ⟨ops, written, connecting⟩

theorem Flow.connected {s : TcpSession} (flow : s.Flow) (ok : Bool)
    (pending : s.pending .connect ok = true) : (s.step (.connected ok)).Flow := by
  obtain ⟨ops, written, connecting⟩ := flow.unconnected pending
  have untold : s.told = false := by
    rw [← Bool.not_eq_true]
    intro told
    exact connecting (flow.told told).2.1
  have idle : (s.complete .connect ok).ops = [] := by
    simp [TcpSession.complete, ops]
  refine Flow.release ?_
  cases ok with
  | false =>
    refine flow_destroy (Or.inl written) (Or.inl ?_) ?_
    · intro op member
      rw [idle] at member
      cases member
    · intro told
      cases untold.symm.trans told
  | true =>
    have later : ((s.complete .connect true).outAsyncWrite greeting).NoConnect := by
      intro op member
      simp only [outAsyncWrite, idle, List.nil_append, List.mem_singleton] at member
      rw [member]
      intro connect
      cases connect
    have first : ((s.complete .connect true).outAsyncWrite greeting).written = [greeting] := by
      simp [outAsyncWrite, TcpSession.complete, written]
    refine ⟨Or.inl later, ?_, ?_, ?_, fun _ => Or.inr (Or.inl first), ?_⟩
    · intro handshake
      obtain ⟨reads, delivered, _, _⟩ := flow.handshake handshake
      refine ⟨reads, delivered, ?_, fun _ => first⟩
      simp [outAsyncWrite, idle]
    · intro request
      exact absurd (flow.request request).2.2.2.1 connecting
    · intro forward
      exact absurd (flow.forward forward).2.1 connecting
    · intro told
      cases untold.symm.trans told

theorem Flow.outSent {s : TcpSession} (flow : s.Flow) {ok : Bool}
    (pending : s.pending .write ok = true) : (s.complete .write ok).outSent.Flow := by
  obtain ⟨noConnect, single, requested⟩ := flow.pending (fun wrong => by cases wrong) pending
  have completed := flow.complete (fun wrong => by cases wrong) pending
  have later := noConnect.complete .write ok
  unfold TcpSession.outSent
  split
  · exact completed.outAsyncRead later single requested
  · exact completed.outAsyncRead later single requested
  · rename_i forward
    exact (completed.inAsyncRead forward).1
  · exact completed

/-- Data read while forwarding goes to the client and leaves the flow alone. -/
theorem Flow.inAsyncWrite {s : TcpSession} (flow : s.Flow) (data : Bytes) (accepted : Bool) :
    (s.inAsyncWrite data accepted).Flow := by
  by_cases freed : s.inSock.pcbFreed = true
  · rw [inAsyncWrite_freed freed]
    have logged : TcpSession.Flow { s with sends := s.sends ++ [data] } :=
      flow.congr rfl rfl rfl rfl rfl rfl rfl rfl
    exact logged.destroy
  · rw [Bool.not_eq_true] at freed
    rw [inAsyncWrite_live freed]
    exact flow.congr rfl rfl rfl rfl rfl rfl rfl rfl

/-- Data read after the handshake may be logged. -/
theorem Flow.log {s : TcpSession} (flow : s.Flow)
    (late : s.status = .forward ∨ s.status = .destroy) (data : Bytes) :
    TcpSession.Flow { s with reads := s.reads ++ [data] } := by
  refine ⟨flow.connecting, ?_, ?_, ?_, ?_, flow.told⟩
  · intro wrong
    rcases late with late | late <;> cases late.symm.trans wrong
  · intro wrong
    rcases late with late | late <;> cases late.symm.trans wrong
  · intro forward
    obtain ⟨accepted, rest⟩ := flow.forward forward
    exact ⟨accepted.append [data], rest⟩
  · intro destroyed
    rcases flow.handed destroyed with none | greeted | ⟨request, chunks, written, inside, only⟩
    · exact Or.inl none
    · exact Or.inr (Or.inl greeted)
    · exact Or.inr (Or.inr ⟨request, chunks, written, inside,
        fun nonempty => (only nonempty).append [data]⟩)

/-- The method reply moves the session on to the request. -/
theorem flow_requesting {s : TcpSession} (status : s.status = .request) (idle : s.ops = [])
    (reads : s.reads = [methodReply]) (delivered : s.delivered = s.inSock.recvBuf)
    (untold : s.told = false) (written : s.written = [greeting]) :
    s.Flow ∧ ∀ req, (s.outAsyncWrite req).Flow := by
  have noConnect : s.NoConnect := by
    intro op member
    rw [idle] at member
    cases member
  have never {other : Status} (different : other ≠ .request) (wrong : s.status = other) : False :=
    different (wrong.symm.trans status)
  constructor
  · refine ⟨Or.inl noConnect, fun wrong => (never (by decide) wrong).elim, fun _ => ?_,
      fun wrong => (never (by decide) wrong).elim, fun wrong => (never (by decide) wrong).elim, ?_⟩
    · refine ⟨reads, delivered, ?_, noConnect, Or.inr ⟨written, idle⟩⟩
      rw [idle]
      exact Nat.zero_le 1
    · intro told
      cases untold.symm.trans told
  · intro req
    have later : (s.outAsyncWrite req).NoConnect := noConnect.append (fun wrong => by cases wrong)
    refine ⟨Or.inl later, fun wrong => (never (by decide) wrong).elim, fun _ => ?_,
      fun wrong => (never (by decide) wrong).elim, fun wrong => (never (by decide) wrong).elim, ?_⟩
    · refine ⟨reads, delivered, ?_, later, Or.inl ⟨req, ?_⟩⟩
      · simp [outAsyncWrite, idle]
      · simp [outAsyncWrite, written]
    · intro told
      cases untold.symm.trans told

/-- The success reply moves the session on to forwarding. -/
theorem flow_forwarding {s : TcpSession} (status : s.status = .forward)
    (noConnect : s.NoConnect) (accepted : Accepted s.reads) (untold : s.told = false)
    (unparked : s.inSock.recv = none) (delivered : s.delivered = s.inSock.recvBuf)
    (requested : ∃ request, s.written = [greeting, request]) :
    s.inAsyncRead.outAsyncRead.Flow := by
  have never {other : Status} (different : other ≠ .forward) (wrong : s.status = other) : False :=
    different (wrong.symm.trans status)
  obtain ⟨request, written⟩ := requested
  have start : s.Flow := by
    refine ⟨Or.inl noConnect, fun wrong => (never (by decide) wrong).elim,
      fun wrong => (never (by decide) wrong).elim, fun _ => ?_,
      fun wrong => (never (by decide) wrong).elim, ?_⟩
    · refine ⟨accepted, noConnect, ⟨request, [], written, delivered.symm⟩, ?_⟩
      intro parked
      exact absurd unparked parked
    · intro told
      cases untold.symm.trans told
  obtain ⟨flow, late, later⟩ := start.inAsyncRead status
  refine flow.outAsyncRead later ?_ ?_
  · rintro (early | early) <;> rcases late with late | late <;> cases early.symm.trans late
  · intro early
    rcases late with late | late <;> cases early.symm.trans late

theorem Flow.read {s : TcpSession} (flow : s.Flow) (wired : s.Wired) (data : Bytes)
    (accepted : Bool) (pending : s.pending .read true = true) :
    (TcpSession.outRecv data accepted
      { s.complete .read true with reads := s.reads ++ [data] }).Flow := by
  obtain ⟨noConnect, single, requested⟩ := flow.pending (fun wrong => by cases wrong) pending
  have completed := flow.complete (fun wrong => by cases wrong) pending
  have later := noConnect.complete .read true
  unfold TcpSession.outRecv
  split
  · rename_i status
    have handshake : s.status = .handshake := status
    obtain ⟨reads, delivered, _, written⟩ := flow.handshake handshake
    have greeted := written noConnect
    have untold := flow.untold (by rw [handshake]; decide)
    split_ifs with other
    · refine flow_destroy (Or.inr (Or.inl greeted)) (Or.inl later) ?_
      intro told
      cases untold.symm.trans told
    · rw [ne_eq, not_not] at other
      subst other
      have requesting : TcpSession.Flow _ ∧ _ := flow_requesting
        (s := { s.complete .read true with
          reads := s.reads ++ [methodReply]
          status := .request
          pcb := (s.pcb.touch .dstAddr).touch .dstPort })
        rfl (single (Or.inl handshake)) (by rw [reads]; rfl) delivered untold greeted
      dsimp only
      split
      · exact requesting.2 _
      · exact requesting.1
  · rename_i status
    have request : s.status = .request := status
    obtain ⟨reads, delivered, _, _, _⟩ := flow.request request
    have untold := flow.untold (by rw [request]; decide)
    obtain ⟨req, written⟩ := requested request
    split_ifs with other
    · refine flow_destroy (Or.inr (Or.inr ⟨req, [], written, List.nil_prefix, ?_⟩))
        (Or.inl later) ?_
      · intro nonempty
        exact absurd rfl nonempty
      · intro told
        cases untold.symm.trans told
    · rw [not_or, not_le, ne_eq, not_not] at other
      refine flow_forwarding rfl later ⟨data, [], ?_, other.1, other.2⟩ untold
        (wired.early (Or.inr request)).1 delivered ⟨req, written⟩
      show s.reads ++ [data] = _
      rw [reads]
      rfl
  · rename_i status
    exact (completed.log (Or.inl status) data).inAsyncWrite data accepted
  · rename_i status
    exact completed.log (Or.inr status) data

theorem Flow.recvEvent {s : TcpSession} (flow : s.Flow) (wired : s.Wired)
    (established : s.pcb.state = .established) (data : Bytes) :
    (s.recvEvent (some data)).Flow := by
  by_cases registered : s.pcb.recv = true
  · have undestroyed := wired.undestroyed (Or.inl registered)
    have untold := flow.untold undestroyed
    have unended : s.inSock.pcbFreed = false := by
      rw [← Bool.not_eq_true]
      intro ended
      exact wired.ended undestroyed ended established
    cases parked : s.inSock.recv with
    | none =>
      rw [recvEvent_buffered registered parked]
      refine ⟨flow.connecting, ?_, ?_, ?_, fun wrong => absurd wrong undestroyed, ?_⟩
      · intro handshake
        obtain ⟨reads, delivered, rest⟩ := flow.handshake handshake
        exact ⟨reads, congrArg (· ++ data) delivered, rest⟩
      · intro request
        obtain ⟨reads, delivered, rest⟩ := flow.request request
        exact ⟨reads, congrArg (· ++ data) delivered, rest⟩
      · intro forward
        obtain ⟨accepted, noConnect, ⟨request, chunks, written, whole⟩, _⟩ :=
          flow.forward forward
        refine ⟨accepted, noConnect, ⟨request, chunks, written, ?_⟩, ?_⟩
        · show chunks.flatten ++ (s.inSock.recvBuf ++ data) = s.delivered ++ data
          rw [← List.append_assoc, whole]
        · intro wrong
          exact absurd parked wrong
      · intro told
        cases untold.symm.trans told
    | some handler =>
      have forward : s.status = .forward := by
        cases status : s.status with
        | handshake => cases parked.symm.trans (wired.early (Or.inl status)).1
        | request => cases parked.symm.trans (wired.early (Or.inr status)).1
        | forward => rfl
        | destroy => exact absurd status undestroyed
      obtain ⟨accepted, noConnect, ⟨request, chunks, written, whole⟩, empty⟩ :=
        flow.forward forward
      have none : s.inSock.recvBuf = [] := empty (by rw [parked]; exact Option.some_ne_none _)
      rw [none, List.append_nil] at whole
      rw [recvEvent_parked registered parked, unended]
      refine flow_inRecv ?_ ?_ ?_ ?_ data ?_ ⟨request, chunks, written, ?_⟩
      · exact forward
      · exact noConnect
      · exact accepted
      · exact untold
      · exact none
      · rw [whole]
  · rw [Bool.not_eq_true] at registered
    rw [recvEvent_unregistered registered]
    exact flow

theorem Flow.fin {s : TcpSession} (flow : s.Flow) :
    ({ s with pcb := { s.pcb with state := .closeWait } }.recvEvent none).Flow := by
  by_cases registered : s.pcb.recv = true
  · rw [recvEvent_fin (by exact registered)]
    exact flow.congr rfl rfl rfl rfl rfl rfl rfl rfl
  · rw [Bool.not_eq_true] at registered
    rw [recvEvent_unregistered (by exact registered)]
    exact flow.congr rfl rfl rfl rfl rfl rfl rfl rfl

theorem Flow.sentEvent {s : TcpSession} (flow : s.Flow) (wired : s.Wired) (len : Nat) :
    (s.sentEvent len).Flow := by
  by_cases registered : s.pcb.sent = true
  · by_cases done : s.inSock.pendingLen - UInt32.ofNat len = 0
    · rw [sentEvent_done registered len done]
      have same : TcpSession.Flow
          { s with inSock := { s.inSock with pendingLen := 0, sent := none } } :=
        flow.congr rfl rfl rfl rfl rfl rfl rfl rfl
      cases parked : s.inSock.sent with
      | none => exact same
      | some handler =>
        have forward : s.status = .forward := by
          cases status : s.status with
          | handshake => cases parked.symm.trans (wired.early (Or.inl status)).2
          | request => cases parked.symm.trans (wired.early (Or.inr status)).2
          | forward => rfl
          | destroy => exact absurd status (wired.undestroyed (Or.inr (Or.inl registered)))
        cases freed : s.inSock.pcbFreed with
        | true => exact same.destroy
        | false =>
          show (TcpSession.inSent _).Flow
          rw [inSent, if_pos (by exact forward)]
          refine same.outAsyncRead (flow.forward forward).2.1 (forward_late forward) ?_
          intro wrong
          cases forward.symm.trans wrong
    · rw [sentEvent_counting registered len done]
      exact flow.congr rfl rfl rfl rfl rfl rfl rfl rfl
  · rw [Bool.not_eq_true] at registered
    rw [sentEvent_unregistered registered]
    exact flow

/-- Every event keeps the flow. -/
theorem Flow.step {s : TcpSession} (flow : s.Flow) (wired : s.Wired) (event : TcpEvent)
    (enabled : s.enabled event) : (s.step event).Flow := by
  cases event with
  | connected ok => exact flow.connected ok enabled.2
  | wrote ok =>
    refine Flow.release ?_
    split
    · exact flow.outSent enabled.2
    · exact (flow.complete (fun wrong => by cases wrong) enabled.2).destroy
  | read data accepted => exact (flow.read wired data accepted enabled.2.1).release
  | readError => exact (flow.complete (fun wrong => by cases wrong) enabled.2).destroy.release
  | recv data => exact (flow.recvEvent wired enabled.2.2.1 data).release
  | fin => exact flow.fin.release
  | sent len =>
    refine Flow.release (Flow.sentEvent ?_ ?_ len)
    · exact flow.congr rfl rfl rfl rfl rfl rfl rfl rfl
    · exact wired.congr rfl rfl rfl rfl rfl rfl rfl rfl
  | finalAck => exact flow.congr rfl rfl rfl rfl rfl rfl rfl rfl
  | rst =>
    unfold TcpSession.step
    dsimp only
    split
    · rename_i registered
      have undestroyed := wired.undestroyed (Or.inr (Or.inr registered))
      rw [errEvent_eq (wired.registered undestroyed).2.2.2]
      have same : TcpSession.Flow
          { s with inSock := { s.inSock with pcbFreed := true, err := none } } :=
        flow.congr rfl rfl rfl rfl rfl rfl rfl rfl
      exact same.destroy.release.congr rfl rfl rfl rfl rfl rfl rfl rfl
    · exact flow.congr rfl rfl rfl rfl rfl rfl rfl rfl
  | abort =>
    unfold TcpSession.step
    dsimp only
    split
    · rename_i registered
      have undestroyed := wired.undestroyed (Or.inr (Or.inr registered))
      rw [errEvent_eq (by exact (wired.registered undestroyed).2.2.2)]
      refine Flow.release (Flow.destroy ?_)
      exact flow.congr rfl rfl rfl rfl rfl rfl rfl rfl
    · exact flow.congr rfl rfl rfl rfl rfl rfl rfl rfl
  | reuse => exact flow.congr rfl rfl rfl rfl rfl rfl rfl rfl

theorem flow_init (localIp remoteIp : IpCell) (localPort remotePort : Port) :
    (init localIp remoteIp localPort remotePort).Flow := by
  refine ⟨Or.inr ⟨rfl, rfl⟩, fun _ => ⟨rfl, rfl, le_rfl, ?_⟩, ?_, ?_, ?_, ?_⟩
  · intro noConnect
    exact absurd rfl (noConnect ⟨.connect, true⟩ List.mem_cons_self)
  · intro wrong
    cases wrong
  · intro wrong
    cases wrong
  · intro wrong
    cases wrong
  · intro wrong
    cases wrong

end TcpSession

/-- In every run of a session the wiring and the flow hold. -/
theorem run_wired_flow {localIp remoteIp : IpCell} {localPort remotePort : Port}
    {events : List TcpEvent}
    (legal : tcpSystem.Legal (.init localIp remoteIp localPort remotePort) events) :
    (tcpSystem.run events (.init localIp remoteIp localPort remotePort)).Wired ∧
      (tcpSystem.run events (.init localIp remoteIp localPort remotePort)).Flow :=
  tcpSystem.invariant (fun s => s.Wired ∧ s.Flow)
    (fun _ event enabled both =>
      ⟨both.1.step event enabled, both.2.step both.1 event enabled⟩)
    legal ⟨TcpSession.wired_init _ _ _ _, TcpSession.flow_init _ _ _ _⟩

end Net2Tr
