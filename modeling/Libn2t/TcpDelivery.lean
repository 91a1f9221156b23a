/-
This file proves that the application gets the stream of the client, in order
and without gaps, in every run of the receiving half of a connection.

The invariant of a run says that the connection stands at the position of what
was delivered, that its window is open again, and that its queue holds segments
of the stream behind that position. A segment moves it on; what is delivered is
what is said between the two positions.
-/

import Libn2t.TcpReassembly

namespace Net2Tr

/-! ### The window -/

namespace TcpRcv

variable (pcb : TcpRcv)

theorem tcpWndMax_eq : pcb.tcpWndMax = 5840 := by
  unfold tcpWndMax
  split <;> decide

/-- A segment of the other half goes out. -/
theorem keeps_output : Keeps pcb { pcb.announce with ackDelay := false, ackNow := false } :=
  pcb.keeps_announce.trans (.quiet rfl rfl rfl rfl rfl rfl rfl rfl)

theorem keeps_tcpFasttmr (outcome : AckOutcome) : Keeps pcb (pcb.tcpFasttmr outcome) := by
  unfold tcpFasttmr
  split
  · exact (pcb.keeps_tcpAckNow.trans (keeps_tcpSendEmptyAck _ outcome)).trans
      (.quiet rfl rfl rfl rfl rfl rfl rfl rfl)
  · exact .refl pcb

/-- As long as the window is not overfilled it grows by what was received. -/
theorem tcpRecved_eq (len : UInt16) (fits : pcb.rcvWnd.toNat + len.toNat ≤ 5840) :
    ∃ ann now, pcb.tcpRecved len = { pcb with
        rcvWnd := pcb.rcvWnd + len.toUInt32
        rcvAnnWnd := ann
        ackNow := now } ∧
      ∀ {isn n edge}, pcb.rcvNxt = seqAt isn n → Announced isn n edge pcb →
        Announced isn n edge (pcb.tcpRecved len) := by
  have sum : (pcb.rcvWnd + len.toUInt32).toNat = pcb.rcvWnd.toNat + len.toNat := by
    rw [UInt32.toNat_add, UInt16.toNat_toUInt32]
    omega
  have within : ¬ (pcb.rcvWnd + len.toUInt32 > pcb.tcpWndMax ∨
      pcb.rcvWnd + len.toUInt32 < pcb.rcvWnd) := by
    rw [tcpWndMax_eq, gt_iff_lt, UInt32.lt_iff_toNat_lt, UInt32.lt_iff_toNat_lt, sum]
    change ¬ (5840 < _ ∨ _)
    omega
  obtain ⟨ann, is⟩ :=
    tcpUpdateRcvAnnWnd_eq { pcb with rcvWnd := pcb.rcvWnd + len.toUInt32 }
  have announces : ∀ {isn n edge}, pcb.rcvNxt = seqAt isn n → Announced isn n edge pcb →
      Announced isn n edge { pcb with
        rcvWnd := pcb.rcvWnd + len.toUInt32
        rcvAnnWnd := ann } := by
    intro isn n edge next announced
    have below := announced.announces
    have within := announced.within
    rw [← is]
    refine Announced.update next ?_ announced.rightEdge announced.taken ?_
    · change (pcb.rcvWnd + len.toUInt32).toNat < _
      omega
    · change _ ≤ n + (pcb.rcvWnd + len.toUInt32).toNat
      omega
  unfold tcpRecved
  simp only [if_neg within, is]
  split
  · exact ⟨ann, true, rfl, fun next announced => (announces next announced).quiet rfl rfl rfl⟩
  · exact ⟨ann, pcb.ackNow, rfl, announces⟩

/-- What the callback gives back to the window. -/
theorem tcpRecved_data (data : Bytes) (total : Nat)
    (sum : pcb.rcvWnd.toNat + data.length = total) (fits : total ≤ 5840) :
    ∃ ann now,
      (if data ≠ [] then pcb.tcpRecved (UInt16.ofNat data.length) else pcb) = { pcb with
        rcvWnd := UInt32.ofNat total
        rcvAnnWnd := ann
        ackNow := now } ∧
      ∀ {isn n edge}, pcb.rcvNxt = seqAt isn n → Announced isn n edge pcb →
        Announced isn n edge { pcb with
          rcvWnd := UInt32.ofNat total
          rcvAnnWnd := ann
          ackNow := now } := by
  subst sum
  split
  case isTrue =>
    have len : (UInt16.ofNat data.length).toNat = data.length := by
      rw [UInt16.toNat_ofNat']
      omega
    have wide : (UInt16.ofNat data.length).toUInt32 = UInt32.ofNat data.length := by
      rw [← UInt32.toNat_inj, UInt16.toNat_toUInt32, len, UInt32.toNat_ofNat']
      omega
    obtain ⟨ann, now, is, announces⟩ :=
      pcb.tcpRecved_eq (UInt16.ofNat data.length) (by omega)
    rw [wide] at is
    rw [is] at announces
    exact ⟨ann, now, by rw [is, UInt32.ofNat_add, UInt32.ofNat_toNat], fun next announced =>
      (announces next announced).quiet rfl rfl (by rw [UInt32.ofNat_add, UInt32.ofNat_toNat])⟩
  case isFalse empty =>
    have same : UInt32.ofNat (pcb.rcvWnd.toNat + data.length) = pcb.rcvWnd := by
      rw [not_not.mp empty, List.length_nil, Nat.add_zero, UInt32.ofNat_toNat]
    rw [same]
    exact ⟨pcb.rcvAnnWnd, pcb.ackNow, rfl, fun _ announced => announced⟩

end TcpRcv

section Segments

variable {isn : UInt32} {content : Nat → Bytes → Bool → Prop} {n n' : Nat}

/-- The recv callback opens the window again. -/
theorem Advances.afterReceive {pcb : TcpRcv} {taken : RcvTaken}
    (advances : Advances isn content n n' pcb taken) (window : pcb.rcvWnd = 5840) :
    ∃ ann now state, TcpRcv.afterReceive taken = { taken with pcb := { taken.pcb with
        rcvWnd := 5840
        rcvAnnWnd := ann
        ackNow := now
        state := state } } ∧
      state = (if taken.gotFin then .closeWait else pcb.state) ∧
      ∀ {edge}, TcpRcv.Announced isn n' edge taken.pcb →
        TcpRcv.Announced isn n' edge (TcpRcv.afterReceive taken).pcb := by
  have length := advances.length
  have left := advances.window
  rw [window] at left
  change _ = 5840 + n at left
  have state : (if taken.gotFin then TcpState.closeWait else taken.pcb.state) =
      if taken.gotFin then TcpState.closeWait else pcb.state := by
    cases fin : taken.gotFin with
    | true => rfl
    | false => exact advances.state.resolve_right (by rw [fin]; exact Bool.false_ne_true)
  unfold TcpRcv.afterReceive
  cases fin : taken.gotFin with
  | false =>
    rw [fin] at length state
    obtain ⟨ann, now, is, announces⟩ := taken.pcb.tcpRecved_data taken.data 5840
      (by simp only [Bool.false_eq_true, if_false] at length; omega) le_rfl
    simp only [Bool.false_eq_true, if_false, is, false_and] at state ⊢
    refine ⟨ann, now, _, ?_, rfl, announces advances.next⟩
    rw [← state]
    rfl
  | true =>
    rw [fin] at length
    obtain ⟨ann, now, is, announces⟩ := TcpRcv.tcpRecved_data
      { taken.pcb with ackNow := true, state := .closeWait } taken.data 5839
      (by simp only [if_true] at length; change taken.pcb.rcvWnd.toNat + _ = _; omega) (by omega)
    simp only [if_true, is, true_and, TcpRcv.tcpWndMax_eq]
    refine ⟨ann, now, _, rfl, rfl, fun {edge} announced => ?_⟩
    have after := @announces isn n' edge advances.next (announced.quiet rfl rfl rfl)
    have within := after.within
    exact ⟨after.rightEdge, after.taken, after.announces,
      within.trans (Nat.le_succ 5839)⟩

/-! ### The invariant of a run -/

/-- The number of sequence numbers behind the SYN that were received in order. -/
def RcvRun.position (run : RcvRun) : Nat := run.delivered.length + if run.gotFin then 1 else 0

/-- What an event may do to a run: it does not go back in the stream; the right edge that was
announced does not move back, as long as nothing beyond it is taken; the acknowledgements that are
added name what is expected next. -/
structure RcvRun.Moves (isn : UInt32) (base : Nat) (run run' : RcvRun) : Prop where
  later : run.position ≤ run'.position
  edge : ∀ edge, TcpRcv.Announced isn (base + run.position) edge run.pcb →
    base + run'.position ≤ edge →
    ∃ edge', edge ≤ edge' ∧ TcpRcv.Announced isn (base + run'.position) edge' run'.pcb
  acks : TcpRcv.AddsAcks run.pcb run'.pcb

/-- A run stands at the position of what was delivered, counted from a base. -/
structure Tracks (isn : UInt32) (content : Nat → Bytes → Bool → Prop) (base : Nat)
    (run : RcvRun) : Prop where
  next : run.pcb.rcvNxt = seqAt isn (base + run.position)
  window : run.pcb.rcvWnd = 5840
  queue : Queued isn content (base + run.position + 5840) (base + run.position + 1) run.pcb.ooseq
  said : content base run.delivered run.gotFin
  state : run.pcb.state = .closed ∨
    run.pcb.state = if run.gotFin then .closeWait else .established

namespace Tracks

variable {base : Nat} {run : RcvRun}

/-- A connection that has just been established. -/
theorem init (said : content base [] false) {seqno : UInt32} {mss : UInt16}
    {wndScale sack : Bool} (start : seqno + 1 = seqAt isn base) :
    Tracks isn content base (.init seqno mss wndScale sack) where
  next := start
  window := by
    change (if wndScale = true then _ else _) = _
    split <;> decide
  queue := trivial
  said := said
  state := Or.inr rfl

/-- The options of a segment do not touch the window. -/
theorem parsedNext (tracks : Tracks isn content base run) (mss : Option UInt16) :
    (run.pcb.tcpParseopt mss).rcvNxt = seqAt isn (base + run.position) :=
  tracks.next

theorem parsedWindow (tracks : Tracks isn content base run) (mss : Option UInt16) :
    (run.pcb.tcpParseopt mss).rcvWnd.toNat = 5840 := by
  change run.pcb.rcvWnd.toNat = _
  rw [tracks.window]
  rfl

theorem moves_keep {pcb : TcpRcv} (tracks : Tracks isn content base run)
    (keeps : TcpRcv.Keeps run.pcb pcb) : run.Moves isn base { run with pcb := pcb } where
  later := le_rfl
  edge _ announced _ := keeps.announced tracks.next announced
  acks := keeps.acks

/-- What keeps the stream keeps the invariant. -/
theorem keep {pcb : TcpRcv} (tracks : Tracks isn content base run)
    (keeps : TcpRcv.Keeps run.pcb pcb) : Tracks isn content base { run with pcb := pcb } where
  next := keeps.rcvNxt.trans tracks.next
  window := keeps.rcvWnd.trans tracks.window
  queue := by
    rw [show ({ run with pcb := pcb } : RcvRun).pcb.ooseq = _ from keeps.ooseq]
    exact tracks.queue
  said := tracks.said
  state := by
    rw [show ({ run with pcb := pcb } : RcvRun).pcb.state = _ from keeps.state]
    exact tracks.state

/-- The run after a segment that moved the connection on. -/
theorem advance (stream : StreamLike content) (tracks : Tracks isn content base run)
    (inUse : run.pcb.state ≠ .closed) {taken : RcvTaken} {n' : Nat}
    (advances : Advances isn content (base + run.position) n' run.pcb taken)
    (still : run.gotFin = true → n' = base + run.position) {run' : RcvRun}
    (is : run' = { run with
      pcb := (TcpRcv.afterReceive taken).pcb
      delivered := run.delivered ++ (TcpRcv.afterReceive taken).data
      gotFin := run.gotFin || (TcpRcv.afterReceive taken).gotFin }) :
    Tracks isn content base run' ∧ base + run'.position = n' ∧ run.Moves isn base run' := by
  obtain ⟨ann, now, state, after, stateIs, announces⟩ := advances.afterReceive tracks.window
  rw [after] at announces
  have length := advances.length
  have queue := advances.queue
  rw [after] at is
  have idle : n' = base + run.position → taken.data = [] ∧ taken.gotFin = false := by
    intro same
    cases fin : taken.gotFin with
    | true =>
      rw [fin, if_pos rfl] at length
      omega
    | false =>
      rw [fin] at length
      exact ⟨List.eq_nil_of_length_eq_zero (by omega), rfl⟩
  have position : base + run'.position = n' := by
    rw [is, RcvRun.position, List.length_append]
    cases fin : run.gotFin with
    | true =>
      obtain ⟨empty, noFin⟩ := idle (still fin)
      rw [still fin, empty, noFin, RcvRun.position, fin]
      rfl
    | false =>
      rw [RcvRun.position, fin] at length
      simp only [Bool.false_eq_true, if_false, Bool.false_or] at length ⊢
      omega
  refine ⟨⟨?_, ?_, ?_, ?_, ?_⟩, position, by omega, fun edge announced below => ?_, ?_⟩
  · rw [position, is]
    exact advances.next
  · rw [is]
  · rw [position, is]
    rw [tracks.window] at queue
    exact queue.mono le_rfl (Nat.add_le_add_right (by omega) 5840)
  · rw [is]
    rcases advances.said with same | said
    · obtain ⟨empty, noFin⟩ := idle same.symm
      simp only [empty, noFin, List.append_nil, Bool.or_false]
      exact tracks.said
    · cases fin : run.gotFin with
      | true =>
        obtain ⟨empty, noFin⟩ := idle (still fin)
        simp only [empty, noFin, List.append_nil, Bool.or_false, ← fin]
        exact tracks.said
      | false =>
        rw [RcvRun.position, fin] at said
        have before := tracks.said
        rw [fin] at before
        exact stream.join before said
  · rw [is, stateIs]
    have before := tracks.state.resolve_left inUse
    refine Or.inr ?_
    cases fin : taken.gotFin with
    | true => rw [Bool.or_true]; rfl
    | false =>
      rw [Bool.or_false, if_neg Bool.false_ne_true]
      exact before
  · rw [position] at below ⊢
    obtain ⟨edge', later, announced'⟩ := advances.announced edge announced below
    rw [is]
    exact ⟨edge', later, announces announced'⟩
  · rw [is]
    exact advances.acks

end Tracks

/-- The segment of an event, if it has one that is not a reset and not a SYN, starts at a position,
has the content there, and lies within half of the sequence space of another position. -/
def RcvEvent.Holds (isn : UInt32) (content : Nat → Bytes → Bool → Prop) (n : Nat) :
    RcvEvent → Prop
  | .segment inseg _ _ _ =>
    inseg.has tcpRst = false → inseg.has tcpSyn = false →
      ∃ p, inseg.seqno = seqAt isn p ∧ content p inseg.p (inseg.has tcpFin) ∧
        p + inseg.span < n + 2 ^ 31 ∧ n < p + 2 ^ 31
  | .emptyAck _ | .output | .probe | .fasttmr _ | .dropOoseq => True

/-- Only the queue and the ranges to acknowledge are dropped. -/
theorem TcpRcv.tcpFreeOoseq_eq (pcb : TcpRcv) :
    ∃ sacks, pcb.tcpFreeOoseq = { pcb with ooseq := [], rcvSacks := sacks } := by
  unfold tcpFreeOoseq
  split
  case isTrue => exact ⟨_, rfl⟩
  case isFalse empty => exact ⟨pcb.rcvSacks, by rw [← not_not.mp empty]⟩

/-- Behind the end of the stream nothing is taken. -/
theorem TcpRcv.tcpReceive_idle {pcb : TcpRcv} (ended : pcb.state.belowCloseWait = false)
    {inseg : TcpSeg} {copied : Bool} {outcome : AckOutcome} {taken : RcvTaken}
    (took : pcb.tcpReceive inseg copied outcome = some taken) :
    taken.data = [] ∧ taken.gotFin = false := by
  rw [tcpReceive, if_neg fun both => by rw [ended] at both; cases both.2] at took
  split at took <;> cases took <;> exact ⟨rfl, rfl⟩

namespace Tracks

variable {base : Nat} {run : RcvRun}

/-- A segment that `tcp_receive` has taken moves the run as it moves the connection. -/
theorem received (stream : StreamLike content) (tracks : Tracks isn content base run)
    {inseg : TcpSeg} {mss : Option UInt16} {copied : Bool} {outcome : AckOutcome}
    (inUse : run.pcb.state = .established ∨ run.pcb.state = .closeWait)
    (noRst : inseg.has tcpRst = false) (noSyn : inseg.has tcpSyn = false) {taken : RcvTaken}
    (took : (run.pcb.tcpParseopt mss).tcpReceive inseg copied outcome = some taken) {n' : Nat}
    (advances : Advances isn content (base + run.position) n' run.pcb taken) :
    Tracks isn content base (run.step (.segment inseg mss copied outcome)) ∧
      base + (run.step (.segment inseg mss copied outcome)).position = n' ∧
      run.Moves isn base (run.step (.segment inseg mss copied outcome)) := by
  have input : run.pcb.input inseg mss copied outcome = some (TcpRcv.afterReceive taken) := by
    rw [TcpRcv.input, noRst, noSyn, took]
    rfl
  have notClosed : run.pcb.state ≠ .closed := by
    rintro closed
    rw [closed] at inUse
    rcases inUse with ⟨⟨⟩⟩ | ⟨⟨⟩⟩
  have still : run.gotFin = true → n' = base + run.position := by
    intro fin
    have state := tracks.state.resolve_left notClosed
    rw [fin, if_pos rfl] at state
    have ended : (run.pcb.tcpParseopt mss).state.belowCloseWait = false := by
      change run.pcb.state.belowCloseWait = false
      rw [state]
      rfl
    obtain ⟨empty, noFin⟩ := TcpRcv.tcpReceive_idle ended took
    have later := advances.length
    rw [empty, noFin] at later
    exact later.symm
  exact tracks.advance stream notClosed advances still (by rw [RcvRun.step, input])

/-- A segment that starts at or before the position of the run takes it behind its end, as far as
the window goes. -/
theorem segment (stream : StreamLike content) (tracks : Tracks isn content base run)
    {inseg : TcpSeg} {mss : Option UInt16} {copied : Bool} {outcome : AckOutcome}
    (enabled : run.enabled (.segment inseg mss copied outcome)) (noSyn : inseg.has tcpSyn = false)
    {p : Nat} (seqno : inseg.seqno = seqAt isn p) (holds : content p inseg.p (inseg.has tcpFin))
    (ahead : p + inseg.span < base + run.position + 2 ^ 31)
    (behind : base + run.position < p + 2 ^ 31) {taken : RcvTaken}
    (took : (run.pcb.tcpParseopt mss).tcpReceive inseg copied outcome = some taken) :
    ∃ n', Advances isn content (base + run.position) n' run.pcb taken ∧
      (p ≤ base + run.position → run.gotFin = false →
        min (p + inseg.span) (base + run.position + 5840) ≤ n') := by
  obtain ⟨_, inUse, len, short⟩ := enabled
  have placed : Placed isn content p inseg := ⟨seqno, len, noSyn, holds⟩
  have open5840 := tracks.parsedWindow mss
  obtain ⟨n', advances, progress⟩ := placed.tcpReceive stream (tracks.parsedNext mss)
    (by omega) (by omega)
    (by rw [open5840]; exact tracks.queue) (by rw [← placed.tcplen]; exact short) ahead behind took
  refine ⟨n', advances.tcpParseopt, fun le noFin => ?_⟩
  have state : run.pcb.state = .established := by
    have states := tracks.state
    rw [noFin, if_neg Bool.false_ne_true] at states
    refine states.resolve_left fun closed => ?_
    rw [closed] at inUse
    rcases inUse with ⟨⟨⟩⟩ | ⟨⟨⟩⟩
  have reached := progress le (by change run.pcb.state.belowCloseWait = true; rw [state]; rfl)
  rwa [open5840] at reached

/-- Every event keeps the invariant if its segment moves the connection on. -/
theorem step_of_advances (stream : StreamLike content) (tracks : Tracks isn content base run)
    {event : RcvEvent} (enabled : run.enabled event)
    (moves : ∀ {inseg mss copied outcome taken}, event = .segment inseg mss copied outcome →
      inseg.has tcpRst = false → inseg.has tcpSyn = false →
      (run.pcb.tcpParseopt mss).tcpReceive inseg copied outcome = some taken →
      ∃ n', Advances isn content (base + run.position) n' run.pcb taken) :
    Tracks isn content base (run.step event) ∧ run.Moves isn base (run.step event) := by
  have quiet : ∀ {pcb : TcpRcv}, TcpRcv.Keeps run.pcb pcb →
      Tracks isn content base { run with pcb := pcb } ∧
        run.Moves isn base { run with pcb := pcb } := fun keeps =>
    ⟨tracks.keep keeps, tracks.moves_keep keeps⟩
  cases event with
  | emptyAck outcome => exact quiet (run.pcb.keeps_tcpSendEmptyAck outcome)
  | output => exact quiet run.pcb.keeps_output
  | probe => exact quiet run.pcb.keeps_announce
  | fasttmr outcome => exact quiet (run.pcb.keeps_tcpFasttmr outcome)
  | dropOoseq =>
    obtain ⟨sacks, is⟩ := run.pcb.tcpFreeOoseq_eq
    rw [RcvRun.step, is]
    exact ⟨⟨tracks.next, tracks.window, trivial, tracks.said, tracks.state⟩, le_rfl,
      fun edge announced _ => ⟨edge, le_rfl, announced.quiet rfl rfl rfl⟩, .quiet rfl⟩
  | segment inseg mss copied outcome =>
    have answered : ∀ {pcb : TcpRcv},
        run.pcb.input inseg mss copied outcome = some ⟨pcb, [], false⟩ →
        run.step (.segment inseg mss copied outcome) = { run with pcb := pcb } := by
      intro pcb input
      rw [RcvRun.step, input]
      simp only [List.append_nil, Bool.or_false]
    cases rst : inseg.has tcpRst with
    | true =>
      by_cases here : inseg.seqno = run.pcb.rcvNxt
      · rw [answered (by rw [TcpRcv.input, rst, if_pos rfl, if_pos here])]
        exact ⟨⟨tracks.next, tracks.window, tracks.queue, tracks.said, Or.inl rfl⟩, le_rfl,
          fun edge announced _ => ⟨edge, le_rfl, announced.quiet rfl rfl rfl⟩, .quiet rfl⟩
      · cases inside : tcpSeqBetween inseg.seqno run.pcb.rcvNxt
            (run.pcb.rcvNxt + run.pcb.rcvWnd) with
        | true =>
          rw [answered (by rw [TcpRcv.input, rst, if_pos rfl, if_neg here, inside, if_pos rfl])]
          exact quiet run.pcb.keeps_tcpAckNow
        | false =>
          rw [answered (by
            rw [TcpRcv.input, rst, if_pos rfl, if_neg here, inside, if_neg Bool.false_ne_true])]
          exact quiet (.refl _)
    | false =>
      cases syn : inseg.has tcpSyn with
      | true =>
        rw [answered (by rw [TcpRcv.input, rst, syn, if_neg Bool.false_ne_true, if_pos rfl])]
        exact quiet run.pcb.keeps_tcpAckNow
      | false =>
        cases took : (run.pcb.tcpParseopt mss).tcpReceive inseg copied outcome with
        | none =>
          -- an assertion fails
          have input : run.pcb.input inseg mss copied outcome = none := by
            rw [TcpRcv.input, rst, syn, took]
            rfl
          rw [RcvRun.step, input]
          exact ⟨⟨tracks.next, tracks.window, tracks.queue, tracks.said, tracks.state⟩, le_rfl,
            fun edge announced _ => ⟨edge, le_rfl, announced⟩, .quiet rfl⟩
        | some taken =>
          obtain ⟨n', advances⟩ := moves rfl rst syn took
          obtain ⟨tracks', -, moves⟩ := tracks.received stream enabled.2.1 rst syn took advances
          exact ⟨tracks', moves⟩

/-- Every event keeps the invariant, and none goes back in the stream. -/
theorem step (stream : StreamLike content) (tracks : Tracks isn content base run)
    {event : RcvEvent} (enabled : run.enabled event)
    (holds : event.Holds isn content (base + run.position)) :
    Tracks isn content base (run.step event) ∧ run.Moves isn base (run.step event) := by
  refine tracks.step_of_advances stream enabled ?_
  rintro inseg mss copied outcome taken rfl rst syn took
  obtain ⟨p, seqno, said, ahead, behind⟩ := holds rst syn
  obtain ⟨n', advances, -⟩ :=
    tracks.segment stream enabled syn seqno said ahead behind took
  exact ⟨n', advances⟩

end Tracks

end Segments

/-! ### The stream of a client -/

/-- The bytes are those of a stream from a position on, and a FIN is behind its last byte; nothing
is beyond an edge. -/
structure SliceOf (stream : Bytes) (edge p : Nat) (data : Bytes) (fin : Bool) : Prop where
  bytes : data <+: stream.drop p
  start : p ≤ stream.length
  whole : fin = true → p + data.length = stream.length
  ends : p + data.length + (if fin then 1 else 0) ≤ edge

namespace SliceOf

variable {stream : Bytes} {edge p : Nat} {data : Bytes} {fin : Bool}

theorem length_le (slice : SliceOf stream edge p data fin) : p + data.length ≤ stream.length := by
  have short := slice.bytes.length_le
  have start := slice.start
  rw [List.length_drop] at short
  omega

/-- The edge can be moved to the right. -/
theorem mono {edge' : Nat} (slice : SliceOf stream edge p data fin) (le : edge ≤ edge') :
    SliceOf stream edge' p data fin :=
  ⟨slice.bytes, slice.start, slice.whole, slice.ends.trans le⟩

theorem streamLike (stream : Bytes) (edge : Nat) : StreamLike (SliceOf stream edge) where
  cutBack {p data fin} k slice := by
    refine ⟨(List.take_prefix k data).trans slice.bytes, slice.start, fun isFin => (by cases isFin),
      ?_⟩
    have short := List.length_take_le' k data
    have ends := slice.ends
    simp only [Bool.false_eq_true, if_false]
    omega
  cutFront {p data fin k} le slice := by
    have length : (data.drop k).length = data.length - k := List.length_drop
    have short := slice.length_le
    refine ⟨?_, by omega, fun isFin => ?_, ?_⟩
    · rw [← List.drop_drop]
      exact slice.bytes.drop k
    · have whole := slice.whole isFin
      omega
    · have ends := slice.ends
      omega
  merge {p data q later} covered slice finSlice := by
    have whole := finSlice.whole rfl
    have short := slice.length_le
    have ends := finSlice.ends
    simp only [if_true] at ends
    refine ⟨slice.bytes, slice.start, fun _ => by omega, ?_⟩
    simp only [if_true]
    omega
  join {p data later fin} slice behind := by
    have whole : (data ++ later).length = data.length + later.length := List.length_append
    refine ⟨?_, slice.start, fun isFin => ?_, ?_⟩
    · obtain ⟨rest, is⟩ := slice.bytes
      have dropped : stream.drop (p + data.length) = rest := by
        rw [← List.drop_drop, ← is, List.drop_left]
      have later := behind.bytes
      rw [dropped] at later
      rw [← is]
      exact (List.prefix_append_right_inj data).mpr later
    · have ended := behind.whole isFin
      omega
    · have ends := behind.ends
      omega

end SliceOf

/-- Before anything is said. -/
theorem SliceOf.nothing (stream : Bytes) (edge : Nat) : SliceOf stream edge 0 [] false :=
  ⟨List.nil_prefix, Nat.zero_le _, fun isFin => (by cases isFin), Nat.zero_le _⟩

/-- The acknowledgements that an event adds are for all that is delivered then. -/
def RcvRun.AcksDelivered (isn : UInt32) (before after : RcvRun) : Prop :=
  ∃ added, after.pcb.acks = before.pcb.acks ++ added ∧
    ∀ ack ∈ added, ack.ackno = seqAt isn after.position

/-- An event that keeps the invariant acknowledges what is delivered. -/
theorem Tracks.acksDelivered {isn : UInt32} {content : Nat → Bytes → Bool → Prop} {base : Nat}
    {before after : RcvRun} (tracks : Tracks isn content base after)
    (moves : before.Moves isn base after) {isn' : UInt32}
    (number : seqAt isn (base + after.position) = seqAt isn' after.position) :
    before.AcksDelivered isn' after := by
  obtain ⟨added, is, next⟩ := moves.acks
  exact ⟨added, is, fun ack sent => (next ack sent).trans (tracks.next.trans number)⟩

/-- In every run in which the segments of the client hold bytes of its stream, a FIN is behind the
last of them only, and each lies within half of the sequence space of what was received, the
application gets the stream in order and without gaps: what it has is a prefix of it, and is all of
it when it is told of the end. The number that is expected next, which every segment names that
goes out, is the one behind what the application has got, and so is the one in every acknowledgement
when it is sent. -/
theorem delivered_in_order (stream : Bytes) (seqno : UInt32) (mss : UInt16) (wndScale sack : Bool)
    (events : List RcvEvent)
    (honest : rcvSystem.Guarded (fun run event =>
      event.Holds (seqno + 1) (SliceOf stream (stream.length + 1)) run.position)
      (.init seqno mss wndScale sack) events) :
    let run := rcvSystem.run events (.init seqno mss wndScale sack)
    run.delivered <+: stream ∧ (run.gotFin = true → run.delivered = stream) ∧
      run.pcb.rcvNxt = seqAt (seqno + 1) run.position ∧
      ∀ early event late, events = early ++ event :: late →
        let before := rcvSystem.run early (.init seqno mss wndScale sack)
        before.AcksDelivered (seqno + 1) (before.step event) := by
  have start : Tracks (seqno + 1) (SliceOf stream (stream.length + 1)) 0
      (.init seqno mss wndScale sack) :=
    .init (.nothing _ _) (seqAt_zero _).symm
  have step : ∀ {run : RcvRun} {event : RcvEvent}, rcvSystem.enabled run event →
      event.Holds (seqno + 1) (SliceOf stream (stream.length + 1)) run.position →
      Tracks (seqno + 1) (SliceOf stream (stream.length + 1)) 0 run →
      Tracks (seqno + 1) (SliceOf stream (stream.length + 1)) 0 (run.step event) ∧
        run.Moves (seqno + 1) 0 (run.step event) := fun enabled holds tracks =>
    tracks.step (SliceOf.streamLike _ _) enabled (by rwa [Nat.zero_add])
  have tracks := rcvSystem.guarded_induction
    (Tracks (seqno + 1) (SliceOf stream (stream.length + 1)) 0)
    (fun run event enabled holds tracks => (step enabled holds tracks).1) honest start
  refine ⟨tracks.said.bytes, fun fin => ?_, by rw [tracks.next, Nat.zero_add], ?_⟩
  · have whole := tracks.said.whole fin
    exact tracks.said.bytes.eq_of_length (by rw [List.drop_zero]; omega)
  · rintro early event late rfl
    obtain ⟨before, enabled, holds⟩ := rcvSystem.guarded_at
      (Tracks (seqno + 1) (SliceOf stream (stream.length + 1)) 0)
      (fun run event enabled holds tracks => (step enabled holds tracks).1) honest start
    obtain ⟨after, moves⟩ := step enabled holds before
    exact after.acksDelivered moves (by rw [Nat.zero_add])

/-- The last bytes of a stream of four, with its FIN; the sequence numbers wrap around in front of
them. -/
def tailSegment : TcpSeg := ⟨1, tcpAck ||| tcpFin, 2, [3, 4]⟩

/-- The first bytes. -/
def headSegment : TcpSeg := ⟨0xffffffff, tcpAck, 2, [1, 2]⟩

/-- The segments arrive in the wrong order. -/
theorem delivered_in_order_reordered :
    (rcvSystem.run
      [.output, .segment tailSegment none true .sent, .segment headSegment none true .noPbuf]
      (.init 0xfffffffe 1460 true true)).delivered <+: [1, 2, 3, 4] :=
  (delivered_in_order [1, 2, 3, 4] 0xfffffffe 1460 true true
    [.output, .segment tailSegment none true .sent, .segment headSegment none true .noPbuf]
    ⟨⟨by decide, trivial⟩,
      ⟨by decide, fun _ _ =>
        ⟨2, rfl, ⟨by decide, by decide, by decide, by decide⟩, by decide, by decide⟩⟩,
      ⟨by decide, fun _ _ =>
        ⟨0, rfl, ⟨by decide, by decide, by decide, by decide⟩, by decide, by decide⟩⟩,
      trivial⟩).1

/-! ### A client that keeps to the window -/

/-- The position up to which the window was announced. -/
def RcvRun.edge (run : RcvRun) : Nat :=
  run.position + (run.pcb.rcvAnnRightEdge - run.pcb.rcvNxt).toNat

/-- A segment of a client that sends a stream and keeps to the window that was announced to it. -/
def KeepsToWindow (stream : Bytes) (seqno : UInt32) (run : RcvRun) (event : RcvEvent) : Prop :=
  event.Holds (seqno + 1) (SliceOf stream run.edge) run.position

/-- A run with such a client: no assertion has failed, and everything is below the edge. -/
structure Windowed (stream : Bytes) (seqno : UInt32) (run : RcvRun) : Prop where
  tracks : Tracks (seqno + 1) (SliceOf stream run.edge) 0 run
  announced : TcpRcv.Announced (seqno + 1) run.position run.edge run.pcb
  failed : run.failed = false

namespace Windowed

variable {stream : Bytes} {seqno : UInt32} {run : RcvRun}

theorem edge_eq {isn : UInt32} {edge : Nat} (next : run.pcb.rcvNxt = seqAt isn run.position)
    (announced : TcpRcv.Announced isn run.position edge run.pcb) : run.edge = edge := by
  have taken := announced.taken
  have announces := announced.announces
  have small := run.pcb.rcvAnnWnd.toNat_lt
  rw [RcvRun.edge, announced.rightEdge, next, seqAt_sub isn taken, UInt32.toNat_ofNat']
  omega

theorem init (stream : Bytes) (seqno : UInt32) (mss : UInt16) (wndScale sack : Bool) :
    Windowed stream seqno (.init seqno mss wndScale sack) where
  tracks := .init (.nothing _ _) (seqAt_zero _).symm
  announced := by
    have edge : (RcvRun.init seqno mss wndScale sack).edge = 0 := by
      rw [RcvRun.edge]
      change 0 + (seqno + 1 - (seqno + 1)).toNat = 0
      rw [UInt32.sub_self]
      rfl
    rw [edge]
    exact ⟨(seqAt_zero _).symm, le_rfl, Nat.zero_le _, le_rfl⟩
  failed := rfl

/-- No event makes an assertion fail. -/
theorem not_failed (windowed : Windowed stream seqno run) {event : RcvEvent}
    (enabled : run.enabled event) (keeps : KeepsToWindow stream seqno run event) :
    (run.step event).failed = false := by
  cases event with
  | emptyAck outcome => exact windowed.failed
  | output => exact windowed.failed
  | probe => exact windowed.failed
  | fasttmr outcome => exact windowed.failed
  | dropOoseq => exact windowed.failed
  | segment inseg mss copied outcome =>
    obtain ⟨tracks, announced, failed⟩ := windowed
    obtain ⟨_, inUse, len, short⟩ := enabled
    have input : ∃ taken, run.pcb.input inseg mss copied outcome = some taken := by
      rw [TcpRcv.input]
      cases rst : inseg.has tcpRst with
      | true =>
        rw [if_pos rfl]
        split
        · exact ⟨_, rfl⟩
        · split <;> exact ⟨_, rfl⟩
      | false =>
        cases syn : inseg.has tcpSyn with
        | true => exact ⟨_, rfl⟩
        | false =>
          obtain ⟨p, seqno, slice, ahead, behind⟩ := keeps rst syn
          have placed : Placed _ (SliceOf stream run.edge) p inseg := ⟨seqno, len, syn, slice⟩
          have window := tracks.parsedWindow mss
          have next := tracks.parsedNext mss
          have queue := tracks.queue
          rw [Nat.zero_add] at next queue
          have announces := announced.announces
          have within := announced.within
          rw [show run.pcb.rcvWnd.toNat = 5840 from window] at within
          obtain ⟨taken, is⟩ := placed.tcpReceive_some (SliceOf.streamLike stream run.edge)
            (fun slice => slice.ends) next (by omega) (by omega) (by omega) (by rwa [window])
            (by rw [← placed.tcplen]; exact short) ahead behind copied outcome
          rw [if_neg Bool.false_ne_true, if_neg Bool.false_ne_true, is]
          exact ⟨_, rfl⟩
    obtain ⟨taken, is⟩ := input
    rw [RcvRun.step, is]
    exact failed

/-- Every event keeps the invariant, and the announced edge never moves back. -/
theorem step (windowed : Windowed stream seqno run) {event : RcvEvent}
    (enabled : run.enabled event) (keeps : KeepsToWindow stream seqno run event) :
    Windowed stream seqno (run.step event) ∧ run.edge ≤ (run.step event).edge := by
  have notFailed := windowed.not_failed enabled keeps
  obtain ⟨tracks, announced, failed⟩ := windowed
  obtain ⟨tracks', moves⟩ :=
    tracks.step (SliceOf.streamLike stream run.edge) enabled (by rwa [Nat.zero_add])
  have below : (run.step event).position ≤ run.edge := by
    have ends := tracks'.said.ends
    rw [Nat.zero_add] at ends
    exact ends
  obtain ⟨edge', grows, announced'⟩ :=
    moves.edge run.edge (by rwa [Nat.zero_add]) (by rwa [Nat.zero_add])
  rw [Nat.zero_add] at announced'
  have next := tracks'.next
  rw [Nat.zero_add] at next
  have edge := edge_eq next announced'
  rw [← edge] at announced' grows
  refine ⟨⟨⟨tracks'.next, tracks'.window, ?_, tracks'.said.mono grows, tracks'.state⟩, announced',
    notFailed⟩, grows⟩
  exact tracks'.queue.imp fun slice => slice.mono grows

end Windowed

-- A byte that is half of the sequence space away makes an assertion fail.
example :
    ((RcvRun.init 0 1460 true true).step
      (.segment ⟨0x80000001, tcpAck, 1, [0]⟩ none true .sent)).failed = true := by
  decide

/-- Among the events of a run are segments that follow one another from one position to another;
the next one is always less than half of the sequence space old. -/
inductive Resent (seqno : UInt32) : Nat → Nat → RcvRun → List RcvEvent → Prop
  | done (position : Nat) (run : RcvRun) (events : List RcvEvent) :
    Resent seqno position position run events
  | other {position target : Nat} {run : RcvRun} (event : RcvEvent) {events : List RcvEvent} :
    Resent seqno position target (run.step event) events →
    Resent seqno position target run (event :: events)
  | next {position target : Nat} {run : RcvRun} {inseg : TcpSeg} {mss : Option UInt16}
    {copied : Bool} {outcome : AckOutcome} {events : List RcvEvent} :
    inseg.has tcpRst = false → inseg.has tcpSyn = false →
    inseg.seqno = seqAt (seqno + 1) position → run.position < position + 2 ^ 31 →
    Resent seqno (position + inseg.span) target (run.step (.segment inseg mss copied outcome))
      events →
    Resent seqno position target run (.segment inseg mss copied outcome :: events)

/-- A segment that starts at or before the position of the connection moves it behind its end. -/
theorem Windowed.progress {stream : Bytes} {seqno : UInt32} {run : RcvRun}
    (windowed : Windowed stream seqno run) {inseg : TcpSeg} {mss : Option UInt16} {copied : Bool}
    {outcome : AckOutcome} (enabled : run.enabled (.segment inseg mss copied outcome))
    (keeps : KeepsToWindow stream seqno run (.segment inseg mss copied outcome))
    (noRst : inseg.has tcpRst = false) (noSyn : inseg.has tcpSyn = false) {position : Nat}
    (at_position : inseg.seqno = seqAt (seqno + 1) position) (reached : position ≤ run.position)
    (near : run.position < position + 2 ^ 31) :
    position + inseg.span ≤ (run.step (.segment inseg mss copied outcome)).position := by
  have notFailed := windowed.not_failed enabled keeps
  obtain ⟨p, seqno_p, slice, ahead, behind⟩ := keeps noRst noSyn
  have same : p = position := by
    rcases Nat.le_total position p with le | le
    · exact seqAt_inj_of_lt le (by omega) (seqno_p.symm.trans at_position)
    · exact (seqAt_inj_of_lt le (by omega) (at_position.symm.trans seqno_p)).symm
  subst same
  have received :
      ∃ taken, (run.pcb.tcpParseopt mss).tcpReceive inseg copied outcome = some taken := by
    cases took : (run.pcb.tcpParseopt mss).tcpReceive inseg copied outcome with
    | some taken => exact ⟨taken, rfl⟩
    | none =>
      have input : run.pcb.input inseg mss copied outcome = none := by
        rw [TcpRcv.input, noRst, noSyn, took]
        rfl
      rw [RcvRun.step, input] at notFailed
      cases notFailed
  obtain ⟨taken, took⟩ := received
  obtain ⟨tracks, announced, -⟩ := windowed
  obtain ⟨n', advances, progress⟩ := tracks.segment (SliceOf.streamLike stream run.edge) enabled
    noSyn seqno_p slice (by omega) (by omega) took
  obtain ⟨-, moved, -⟩ := tracks.received (SliceOf.streamLike stream run.edge) enabled.2.1 noRst
    noSyn took advances
  have later := advances.length
  rw [Nat.zero_add] at later moved progress
  have ends := slice.ends
  rw [Nat.add_assoc] at ends
  change p + inseg.span ≤ run.edge at ends
  cases fin : run.gotFin with
  | false =>
    have announces := announced.announces
    have within := announced.within
    rw [tracks.window] at within
    change _ ≤ 5840 at within
    have reached := progress reached fin
    omega
  | true =>
    -- the stream has ended, and nothing is behind its end
    have whole := tracks.said.whole fin
    have short := slice.length_le
    have position : run.position = stream.length + 1 := by
      rw [RcvRun.position, fin, if_pos rfl]
      omega
    have span : inseg.span ≤ inseg.p.length + 1 := by
      rw [TcpSeg.span]
      split <;> omega
    omega

/-- No run goes back. -/
theorem Windowed.run {stream : Bytes} {seqno : UInt32} {start : RcvRun}
    (windowed : Windowed stream seqno start) {events : List RcvEvent}
    (keeps : rcvSystem.Guarded (KeepsToWindow stream seqno) start events) :
    Windowed stream seqno (rcvSystem.run events start) ∧
      start.position ≤ (rcvSystem.run events start).position :=
  rcvSystem.guarded_induction
    (fun run => Windowed stream seqno run ∧ start.position ≤ run.position)
    (fun run event enabled keeps windowed => by
      have later := (windowed.1.tracks.step (SliceOf.streamLike stream run.edge) enabled
        (by rwa [Nat.zero_add])).2.later
      exact ⟨(windowed.1.step enabled keeps).1, windowed.2.trans later⟩)
    keeps ⟨windowed, le_rfl⟩

/-- What was sent again up to a position is reached. -/
theorem Resent.reaches {stream : Bytes} {seqno : UInt32} {position target : Nat} {run : RcvRun}
    {events : List RcvEvent} (resent : Resent seqno position target run events)
    (windowed : Windowed stream seqno run)
    (keeps : rcvSystem.Guarded (KeepsToWindow stream seqno) run events)
    (reached : position ≤ run.position) : target ≤ (rcvSystem.run events run).position := by
  induction resent with
  | done position run events => exact reached.trans (windowed.run keeps).2
  | other event _ inductionHypothesis =>
    obtain ⟨⟨enabled, keepsNow⟩, keepsLater⟩ := keeps
    have later := (windowed.tracks.step (SliceOf.streamLike stream _) enabled
      (by rwa [Nat.zero_add])).2.later
    exact inductionHypothesis (windowed.step enabled keepsNow).1 keepsLater (reached.trans later)
  | @next _ _ run inseg mss copied outcome _ noRst noSyn at_position near _ inductionHypothesis =>
    obtain ⟨⟨enabled, keepsNow⟩, keepsLater⟩ := keeps
    have inUse : run.enabled (.segment inseg mss copied outcome) := enabled
    exact inductionHypothesis (windowed.step inUse keepsNow).1 keepsLater
      (windowed.progress inUse keepsNow noRst noSyn at_position reached near)

/-- Whatever was lost, reordered or not kept: once the client has sent everything behind the
position of the connection again, in segments cut in any way and with anything in between, the
application has the stream up to there, and it is told of the end if that was sent. -/
theorem retransmission_delivers (stream : Bytes) (seqno : UInt32) (mss : UInt16)
    (wndScale sack : Bool) (early late : List RcvEvent) (position target : Nat)
    (keeps : rcvSystem.Guarded (KeepsToWindow stream seqno) (.init seqno mss wndScale sack)
      (early ++ late))
    (reached : position ≤ (rcvSystem.run early (.init seqno mss wndScale sack)).position)
    (resent : Resent seqno position target
      (rcvSystem.run early (.init seqno mss wndScale sack)) late) :
    let run := rcvSystem.run (early ++ late) (.init seqno mss wndScale sack)
    stream.take target <+: run.delivered ∧ (stream.length < target → run.gotFin = true) := by
  rw [rcvSystem.guarded_append] at keeps
  obtain ⟨keepsEarly, keepsLate⟩ := keeps
  have windowed := ((Windowed.init stream seqno mss wndScale sack).run keepsEarly).1
  have final := resent.reaches windowed keepsLate reached
  have tracks := (windowed.run keepsLate).1.tracks
  rw [← rcvSystem.run_append] at final tracks
  have delivered := tracks.said.bytes
  rw [List.drop_zero] at delivered
  have short := delivered.length_le
  have ended := tracks.said.whole
  rw [RcvRun.position] at final
  refine ⟨?_, fun beyond => ?_⟩
  · refine List.prefix_of_prefix_length_le (List.take_prefix target stream) delivered ?_
    rw [List.length_take]
    cases fin : (rcvSystem.run (early ++ late) (.init seqno mss wndScale sack)).gotFin with
    | true =>
      have whole := ended fin
      omega
    | false =>
      rw [fin, if_neg Bool.false_ne_true] at final
      omega
  · cases fin : (rcvSystem.run (early ++ late) (.init seqno mss wndScale sack)).gotFin with
    | true => rfl
    | false =>
      rw [fin, if_neg Bool.false_ne_true] at final
      omega

/-- The last segment is dropped from the queue, and it is sent again behind the first one. -/
theorem retransmission_delivers_lost :
    [1, 2, 3, 4] <+:
      (rcvSystem.run
        [.output, .segment tailSegment none true .sent, .dropOoseq,
          .segment headSegment (some 536) true .sent, .segment tailSegment none true .sent]
        (.init 0xfffffffe 1460 true true)).delivered :=
  (retransmission_delivers [1, 2, 3, 4] 0xfffffffe 1460 true true
    [.output, .segment tailSegment none true .sent, .dropOoseq]
    [.segment headSegment (some 536) true .sent, .segment tailSegment none true .sent] 0 5
    ⟨⟨by decide, trivial⟩,
      ⟨by decide, fun _ _ =>
        ⟨2, rfl, ⟨by decide, by decide, by decide, by decide⟩, by decide, by decide⟩⟩,
      ⟨by decide, trivial⟩,
      ⟨by decide, fun _ _ =>
        ⟨0, rfl, ⟨by decide, by decide, by decide, by decide⟩, by decide, by decide⟩⟩,
      ⟨by decide, fun _ _ =>
        ⟨2, rfl, ⟨by decide, by decide, by decide, by decide⟩, by decide, by decide⟩⟩,
      trivial⟩
    (by decide)
    (.next (by decide) (by decide) (by decide) (by decide)
      (.next (by decide) (by decide) (by decide) (by decide) (.done _ _ _)))).1

/-! ### Any peer -/

/-- Nothing is known about what is sent. -/
def Anything (_ : Nat) (_ : Bytes) (_ : Bool) : Prop := True

theorem Anything.streamLike : StreamLike Anything where
  cutBack _ _ := trivial
  cutFront _ _ := trivial
  merge _ _ _ := trivial
  join _ _ := trivial

/-- Segments do not overlap, start behind a sequence number and in the window, are not empty, and
only the last one has a FIN; that one may reach beyond the window. -/
def OoseqInWindow (rcvNxt : UInt32) (wnd : Nat) : Nat → List TcpSeg → Prop
  | _, [] => True
  | lo, seg :: rest =>
    lo ≤ (seg.seqno - rcvNxt).toNat ∧ (seg.seqno - rcvNxt).toNat < wnd ∧ 0 < seg.span ∧
      seg.p.length < 2 ^ 16 ∧ (seg.has tcpFin = true → rest = []) ∧
      OoseqInWindow rcvNxt wnd ((seg.seqno - rcvNxt).toNat + seg.p.length) rest

section AnyPeer

variable {isn : UInt32} {content : Nat → Bytes → Bool → Prop} {n : Nat} {pcb : TcpRcv}

theorem Queued.inWindow {rcvNxt : UInt32} (next : rcvNxt = seqAt isn n) {wnd lo : Nat}
    (narrow : wnd < 2 ^ 16) {queue : List TcpSeg}
    (queued : Queued isn content (n + wnd) (n + lo) queue) : OoseqInWindow rcvNxt wnd lo queue := by
  induction queue generalizing lo with
  | nil => trivial
  | cons seg rest inductionHypothesis =>
    obtain ⟨p, from_lo, below, placed, span, last, behind⟩ := queued
    have offset : (seg.seqno - rcvNxt).toNat = p - n := by
      rw [placed.seqno, next, seqAt_sub isn (by omega), UInt32.toNat_ofNat']
      omega
    refine ⟨by omega, by omega, span, placed.length_lt, last, inductionHypothesis ?_⟩
    rw [offset]
    exact behind.mono (by omega) le_rfl

/-- The queue of a window holds fewer segments than the window has sequence numbers, and only the
last one reaches beyond it. -/
theorem OoseqInWindow.bounded {rcvNxt : UInt32} {wnd lo : Nat} {queue : List TcpSeg}
    (apart : OoseqInWindow rcvNxt wnd lo queue) (inside : lo ≤ wnd) :
    lo + queue.length ≤ wnd ∧ lo + (queue.map (·.p.length)).sum < wnd + 2 ^ 16 := by
  induction queue generalizing lo with
  | nil =>
    simp only [List.length_nil, List.map_nil, List.sum_nil]
    omega
  | cons seg rest inductionHypothesis =>
    obtain ⟨from_lo, below, span, short, last, behind⟩ := apart
    rw [List.length_cons, List.map_cons, List.sum_cons]
    by_cases ended : rest = []
    · rw [ended]
      simp only [List.length_nil, List.map_nil, List.sum_nil]
      omega
    · have noFin : seg.has tcpFin = false := Bool.eq_false_iff.mpr fun fin => ended (last fin)
      have bytes : 0 < seg.p.length := by
        rw [TcpSeg.span, noFin] at span
        exact span
      have inner : (seg.seqno - rcvNxt).toNat + seg.p.length ≤ wnd := by
        cases rest with
        | nil => exact absurd rfl ended
        | cons next _ => exact behind.1.trans behind.2.1.le
      obtain ⟨count, total⟩ := inductionHypothesis behind inner
      omega

/-- A segment that is neither near enough to be trimmed nor in the window is only answered. -/
theorem TcpRcv.tcpReceive_far {seg : TcpSeg} (next : pcb.rcvNxt = seqAt isn n)
    (queued : Queued isn content (n + pcb.rcvWnd.toNat) (n + 1) pcb.ooseq)
    (far : 0xffff ≤ (pcb.rcvNxt - seg.seqno).toNat) (outside : pcb.inWindow seg.seqno = false)
    {copied : Bool} {outcome : AckOutcome} {taken : RcvTaken}
    (took : pcb.tcpReceive seg copied outcome = some taken) :
    Advances isn content n n pcb taken := by
  have answered : ∀ pcb' : TcpRcv, TcpRcv.Keeps pcb pcb' → pcb'.inWindow seg.seqno = false →
      pcb'.receiveTrimmed seg copied outcome = some taken →
      Advances isn content n n pcb taken := by
    intro pcb' keeps outside' received
    rw [TcpRcv.receiveTrimmed, outside', if_neg Bool.false_ne_true] at received
    cases received
    exact (Advances.none next queued).keep (keeps.trans (pcb'.keeps_tcpSendEmptyAck outcome))
  have untrimmed : seg.trimFront pcb.rcvNxt = none := by
    rw [TcpSeg.trimFront]
    exact if_neg fun both => absurd (UInt32.lt_iff_toNat_lt.mp both.1) (by
      change ¬ _ < 65535
      omega)
  rw [tcpReceive] at took
  split at took
  · split at took
    · rw [untrimmed] at took
      cases took
    · split at took
      · exact answered _ pcb.keeps_tcpAckNow outside took
      · exact answered _ (.refl pcb) outside took
  · rw [outside, if_neg Bool.false_ne_true] at took
    cases took
    exact (Advances.none next queued).keep pcb.keeps_tcpAckNow

/-- Any segment moves the connection on or does not, if its positions start far enough below. -/
theorem TcpRcv.tcpReceive_any {seg : TcpSeg} (next : pcb.rcvNxt = seqAt isn n) (high : 2 ^ 31 ≤ n)
    (isOpen : 0 < pcb.rcvWnd.toNat) (narrow : pcb.rcvWnd.toNat < 2 ^ 16)
    (queued : Queued isn Anything (n + pcb.rcvWnd.toNat) (n + 1) pcb.ooseq)
    (len : seg.p.length = seg.len.toNat) (noSyn : seg.has tcpSyn = false)
    (short : seg.tcplen.toNat < 2 ^ 16) {copied : Bool} {outcome : AckOutcome} {taken : RcvTaken}
    (took : pcb.tcpReceive seg copied outcome = some taken) :
    ∃ n', Advances isn Anything n n' pcb taken := by
  have range := (seg.seqno - pcb.rcvNxt).toNat_lt
  have offset : seg.seqno = seqAt isn (n + (seg.seqno - pcb.rcvNxt).toNat) := by
    rw [← seqAt_add, ← next, UInt32.add_comm, UInt32.sub_add_cancel]
  have back : (seg.seqno - pcb.rcvNxt).toNat ≠ 0 →
      (pcb.rcvNxt - seg.seqno).toNat + (seg.seqno - pcb.rcvNxt).toNat = 2 ^ 32 := by
    have seqno := seg.seqno.toNat_lt
    have rcvNxt := pcb.rcvNxt.toNat_lt
    rw [UInt32.toNat_sub, UInt32.toNat_sub]
    omega
  rcases Nat.lt_trichotomy (seg.seqno - pcb.rcvNxt).toNat (2 ^ 31) with ahead | opposite | behind
  · have placed : Placed isn Anything (n + (seg.seqno - pcb.rcvNxt).toNat) seg :=
      ⟨offset, len, noSyn, trivial⟩
    rw [placed.tcplen] at short
    by_cases near : (seg.seqno - pcb.rcvNxt).toNat + seg.span < 2 ^ 31
    · obtain ⟨n', advances, -⟩ := placed.tcpReceive Anything.streamLike next isOpen narrow queued
        short (by omega) (by omega) took
      exact ⟨n', advances⟩
    · refine ⟨n, tcpReceive_far next queued (by omega) ?_ took⟩
      rw [offset, inWindow_seqAt next isOpen narrow ⟨by omega, by omega⟩]
      exact decide_eq_false (by omega)
  · refine ⟨n, tcpReceive_far next queued (by omega) ?_ took⟩
    have half : seg.seqno - pcb.rcvNxt = 0x80000000 := UInt32.toNat_inj.mp opposite
    rw [inWindow, tcpSeqBetween, tcpSeqGeq, seqDiff, half]
    rfl
  · have placed : Placed isn Anything (n + (seg.seqno - pcb.rcvNxt).toNat - 2 ^ 32) seg := by
      refine ⟨?_, len, noSyn, trivial⟩
      rw [← seqAt_wrap, Nat.sub_add_cancel (by omega)]
      exact offset
    rw [placed.tcplen] at short
    obtain ⟨n', advances, -⟩ := placed.tcpReceive Anything.streamLike next isOpen narrow queued
      short (by omega) (by omega) took
    exact ⟨n', advances⟩

end AnyPeer

/-- Whatever a peer sends, with any sequence numbers, flags and lengths: the connection stands
behind what it delivered, its window is open, the segments of its queue lie apart and start in the
window, with a FIN only at the end, and each acknowledgement is for what was delivered when it was
sent. So no peer can make it hold more than 5839 segments or 71374 bytes. -/
theorem any_peer (seqno : UInt32) (mss : UInt16) (wndScale sack : Bool) (events : List RcvEvent)
    (legal : rcvSystem.Legal (.init seqno mss wndScale sack) events) :
    let run := rcvSystem.run events (.init seqno mss wndScale sack)
    run.pcb.rcvNxt = seqAt (seqno + 1) run.position ∧ run.pcb.rcvWnd = 5840 ∧
      OoseqInWindow run.pcb.rcvNxt 5840 1 run.pcb.ooseq ∧ run.pcb.ooseq.length ≤ 5839 ∧
      (run.pcb.ooseq.map (·.p.length)).sum ≤ 71374 ∧
      ∀ early event late, events = early ++ event :: late →
        let before := rcvSystem.run early (.init seqno mss wndScale sack)
        before.AcksDelivered (seqno + 1) (before.step event) := by
  -- positions are counted from half of the sequence space below the start
  have base : ∀ k, seqAt (seqno + 1 - 2 ^ 31) (2 ^ 31 + k) = seqAt (seqno + 1) k := by
    intro k
    rw [← seqAt_seqAt]
    exact congrArg (seqAt · k) (UInt32.sub_add_cancel (seqno + 1) (2 ^ 31))
  have start : Tracks (seqno + 1 - 2 ^ 31) Anything (2 ^ 31) (.init seqno mss wndScale sack) :=
    .init trivial (by rw [← Nat.add_zero (2 ^ 31), base, seqAt_zero])
  have step : ∀ {run : RcvRun} {event : RcvEvent}, rcvSystem.enabled run event →
      Tracks (seqno + 1 - 2 ^ 31) Anything (2 ^ 31) run →
      Tracks (seqno + 1 - 2 ^ 31) Anything (2 ^ 31) (run.step event) ∧
        run.Moves (seqno + 1 - 2 ^ 31) (2 ^ 31) (run.step event) := by
    intro run event enabled tracks
    refine tracks.step_of_advances Anything.streamLike enabled ?_
    rintro inseg mss copied outcome taken rfl rst syn took
    have window := tracks.parsedWindow mss
    obtain ⟨n', advances⟩ := TcpRcv.tcpReceive_any (tracks.parsedNext mss) (Nat.le_add_right _ _)
      (by omega) (by omega) (by rw [window]; exact tracks.queue) enabled.2.2.1 syn enabled.2.2.2
      took
    exact ⟨n', advances.tcpParseopt⟩
  have tracks := rcvSystem.invariant (Tracks (seqno + 1 - 2 ^ 31) Anything (2 ^ 31))
    (fun run event enabled tracks => (step enabled tracks).1) legal start
  have apart := Queued.inWindow tracks.next (by omega) tracks.queue
  obtain ⟨count, total⟩ := apart.bounded (by omega)
  refine ⟨tracks.next.trans (base _), tracks.window, apart, by omega, by omega, ?_⟩
  rintro early event late rfl
  obtain ⟨before, enabled, -⟩ := rcvSystem.guarded_at
    (Tracks (seqno + 1 - 2 ^ 31) Anything (2 ^ 31))
    (fun run event enabled _ tracks => (step enabled tracks).1) legal start
  obtain ⟨after, moves⟩ := step enabled before
  exact after.acksDelivered moves (base _)

/-- Segments that overlap each other, in front of the window and in it. -/
theorem any_peer_overlapping :
    (rcvSystem.run
      [.segment ⟨5, tcpAck, 3, [1, 2, 3]⟩ none true .sent,
        .segment ⟨4, tcpAck, 2, [9, 9]⟩ none true .sent,
        .segment ⟨0xfffffff0, tcpAck, 1, [7]⟩ none true .failed]
      (.init 0 536 false false)).pcb.rcvWnd = 5840 :=
  (any_peer 0 536 false false
    [.segment ⟨5, tcpAck, 3, [1, 2, 3]⟩ none true .sent,
      .segment ⟨4, tcpAck, 2, [9, 9]⟩ none true .sent,
      .segment ⟨0xfffffff0, tcpAck, 1, [7]⟩ none true .failed]
    (by decide)).2.1

end Net2Tr
