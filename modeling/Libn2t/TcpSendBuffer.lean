/-
This file proves that the accounts of the sending half are right in every run,
whatever the peer sends and whichever allocations and outputs fail: `snd_buf` is
what is left of the send buffer, `snd_queuelen` is the number of pbufs in the
queues, and every byte that was taken is either in a queue or was reported as
acknowledged. So no assertion about the queues fails when an acknowledgement
comes, when segments are sent and when the stream is ended.
-/

import Libn2t.TcpSendQueue

namespace Net2Tr

/-! ### Sums over a queue -/

/-- A measure of its segments, summed up over a queue. -/
def total (measure : SndSeg → Nat) (segs : List SndSeg) : Nat := (segs.map measure).sum

/-- The bytes of a segment. -/
def lenOf (seg : SndSeg) : Nat := seg.len.toNat

/-- The pbufs of a segment. -/
def pbufsOf (seg : SndSeg) : Nat := seg.p.length

/-- A segment without bytes counts. -/
def emptyOf (seg : SndSeg) : Nat := if seg.len = 0 then 1 else 0

/-- A measure that does not look at the flags. -/
def FlagBlind (measure : SndSeg → Nat) : Prop :=
  ∀ seg other : SndSeg, other.len = seg.len → other.p = seg.p → measure other = measure seg

theorem flagBlind_lenOf : FlagBlind lenOf := fun _ _ len _ => congrArg UInt16.toNat len

theorem flagBlind_pbufsOf : FlagBlind pbufsOf := fun _ _ _ p => congrArg List.length p

theorem flagBlind_emptyOf : FlagBlind emptyOf := fun seg other len _ => by
  unfold emptyOf
  rw [len]

section Total

variable {measure : SndSeg → Nat} {segs others : List SndSeg}

@[simp] theorem total_nil : total measure [] = 0 := rfl

@[simp] theorem total_cons (seg : SndSeg) :
    total measure (seg :: segs) = measure seg + total measure segs := by
  simp [total]

@[simp] theorem total_append :
    total measure (segs ++ others) = total measure segs + total measure others := by
  simp [total]

theorem total_perm (perm : segs.Perm others) : total measure segs = total measure others :=
  (perm.map measure).sum_nat

theorem total_sublist (less : segs.Sublist others) :
    total measure segs ≤ total measure others := by
  induction less with
  | slnil => exact le_rfl
  | cons seg _ inductionHypothesis =>
    rw [total_cons]
    exact inductionHypothesis.trans (Nat.le_add_left _ _)
  | cons_cons seg _ inductionHypothesis =>
    rw [total_cons, total_cons]
    exact Nat.add_le_add_left inductionHypothesis _

theorem total_alike (blind : FlagBlind measure) (alike : List.Forall₂ SndSeg.Alike segs others) :
    total measure others = total measure segs := by
  induction alike with
  | nil => rfl
  | cons first _ inductionHypothesis =>
    rw [total_cons, total_cons, inductionHypothesis, blind _ _ first.len first.p]

theorem valid_alike (valid : ∀ seg ∈ segs, seg.Valid)
    (alike : List.Forall₂ SndSeg.Alike segs others) : ∀ seg ∈ others, seg.Valid := by
  induction alike with
  | nil => exact valid
  | cons first _ inductionHypothesis =>
    intro seg isIn
    rcases List.mem_cons.mp isIn with rfl | later
    · exact first.valid (valid _ List.mem_cons_self)
    · exact inductionHypothesis (fun other isIn => valid other (List.mem_cons_of_mem _ isIn)) seg
        later

/-- A queue has at most as many pbufs as bytes, but for the segments without bytes. -/
theorem pbufs_le (valid : ∀ seg ∈ segs, seg.Valid) :
    total pbufsOf segs ≤ total lenOf segs + total emptyOf segs := by
  induction segs with
  | nil => exact le_rfl
  | cons seg rest inductionHypothesis =>
    have behind := inductionHypothesis fun other isIn => valid other (List.mem_cons_of_mem _ isIn)
    have first := valid seg List.mem_cons_self
    have here : pbufsOf seg ≤ lenOf seg + emptyOf seg := by
      rcases first.pbufs with single | ⟨_, chunks⟩
      · have zero := first.bytes
        rw [single] at zero
        have zero : seg.len = 0 := UInt16.toNat_inj.mp zero.symm
        rw [pbufsOf, emptyOf, single, if_pos zero]
        exact Nat.le_add_left 1 _
      · have le := length_le_flatten chunks
        rw [first.bytes] at le
        exact le.trans (Nat.le_add_right _ _)
    simp only [total_cons]
    omega

/-- What the last segment takes. -/
theorem FillsLast.totals {data : Bytes} {pbufs : Nat} (fills : FillsLast segs data pbufs others)
    (valid : ∀ seg ∈ segs, seg.Valid) :
    (∀ seg ∈ others, seg.Valid) ∧ total lenOf others = total lenOf segs + data.length ∧
      total pbufsOf others = total pbufsOf segs + pbufs ∧
      total emptyOf others ≤ total emptyOf segs := by
  cases fills with
  | none => exact ⟨valid, rfl, rfl, le_rfl⟩
  | @last front last grown _ _ grows =>
    refine ⟨fun seg isIn => ?_, ?_, ?_, ?_⟩
    · rcases List.mem_append.mp isIn with old | isLast
      · exact valid seg (List.mem_append_left _ old)
      · rw [List.mem_singleton.mp isLast]
        exact grows.valid
    · have len : lenOf grown = lenOf last + data.length := grows.len
      simp only [total_append, total_cons, total_nil, len]
      omega
    · have count : pbufsOf grown = pbufsOf last + pbufs := grows.count
      simp only [total_append, total_cons, total_nil, count]
      omega
    · have less : emptyOf grown ≤ emptyOf last := by
        unfold emptyOf
        split
        case isTrue zero =>
          have none := congrArg UInt16.toNat zero
          rw [grows.len] at none
          change _ = 0 at none
          rw [if_pos (UInt16.toNat_inj.mp (by change _ = 0; omega))]
        case isFalse => exact Nat.zero_le _
      simp only [total_append, total_cons, total_nil]
      omega

/-- What new segments hold. -/
theorem Consecutive.totals {seqno : UInt32} {data : Bytes}
    (consecutive : Consecutive seqno data segs) :
    (∀ seg ∈ segs, seg.Valid) ∧ total lenOf segs = data.length ∧
      total pbufsOf segs = segs.length ∧ total emptyOf segs = 0 := by
  induction segs generalizing seqno data with
  | nil =>
    rw [show data = [] from consecutive]
    exact ⟨fun _ isIn => (by cases isIn), rfl, rfl, rfl⟩
  | cons seg rest inductionHypothesis =>
    obtain ⟨n, positive, inside, small, rfl, behind⟩ := consecutive
    obtain ⟨valid, len, pbufs, empty⟩ := inductionHypothesis behind
    have toNat : (UInt16.ofNat n).toNat = n := by
      rw [UInt16.toNat_ofNat']
      omega
    have some : UInt16.ofNat n ≠ 0 := fun zero => by
      have none := congrArg UInt16.toNat zero
      rw [toNat] at none
      change n = 0 at none
      omega
    have short : (data.take n).length = n := List.length_take_of_le inside
    have noSyn : decide ((0 : UInt8) &&& tcpSyn ≠ 0) = false := by decide
    have noRst : decide ((0 : UInt8) &&& tcpRst ≠ 0) = false := by decide
    refine ⟨fun other isIn => ?_, ?_, ?_, ?_⟩
    · rcases List.mem_cons.mp isIn with rfl | later
      · refine ⟨?_, noSyn, noRst, Or.inr ⟨List.cons_ne_nil _ _, fun chunk isIn => ?_⟩,
          Or.inl some⟩
        · change [data.take n].flatten.length = (UInt16.ofNat n).toNat
          rw [List.flatten_singleton, short, toNat]
        · rw [List.mem_singleton.mp isIn]
          exact List.ne_nil_of_length_pos (by omega)
      · exact valid other later
    · rw [total_cons, len, List.length_drop]
      change (UInt16.ofNat n).toNat + _ = _
      omega
    · rw [total_cons, pbufs, List.length_cons, Nat.add_comm]
      rfl
    · rw [total_cons, empty]
      exact if_neg some

end Total

/-- The segments that are put in order are the same. -/
theorem insertSorted_perm (seg : SndSeg) (segs : List SndSeg) :
    (TcpSnd.insertSorted seg segs).Perm (seg :: segs) := by
  induction segs with
  | nil => exact List.Perm.refl _
  | cons other rest inductionHypothesis =>
    rw [TcpSnd.insertSorted]
    split
    · exact (inductionHypothesis.cons other).trans (List.Perm.swap _ _ _)
    · exact List.Perm.refl _

namespace TcpSnd

variable {pcb pcb' : TcpSnd}

/-- All segments that are queued. -/
def queue (pcb : TcpSnd) : List SndSeg := pcb.unacked ++ pcb.unsent

theorem toUnacked_perm (pcb : TcpSnd) (seg : SndSeg) :
    (pcb.toUnacked seg).Perm (seg :: pcb.unacked) := by
  unfold toUnacked
  split
  case h_1 nothing =>
    rw [List.getLast?_eq_none_iff] at nothing
    rw [nothing]
  case h_2 =>
    split
    · exact insertSorted_perm seg pcb.unacked
    · exact List.perm_append_singleton seg pcb.unacked

theorem Quiet.queue (quiet : Quiet pcb pcb') : pcb'.queue = pcb.queue := by
  rw [TcpSnd.queue, quiet.unacked, quiet.unsent]
  rfl

/-- The accounts are right. -/
structure Accounted (pcb : TcpSnd) : Prop where
  valid : ∀ seg ∈ pcb.queue, seg.Valid
  sndBuf : pcb.sndBuf.toNat + total lenOf pcb.queue = tcpSndBuf
  queuelen : pcb.sndQueuelen.toNat = total pbufsOf pcb.queue
  empty : total emptyOf pcb.queue ≤ if pcb.fin then 1 else 0
  ended : pcb.fin = true → takesData pcb.state = false
  mss : pcb.mss ≠ 0

namespace Accounted

theorem quiet (accounted : pcb.Accounted) (same : Quiet pcb pcb') : pcb'.Accounted := by
  have queue := same.queue
  refine ⟨?_, ?_, ?_, ?_, ?_, same.mss accounted.mss⟩
  · rw [queue]
    exact accounted.valid
  · rw [queue, same.sndBuf]
    exact accounted.sndBuf
  · rw [queue, same.sndQueuelen]
    exact accounted.queuelen
  · rw [queue, same.fin]
    exact accounted.empty
  · rw [same.fin, same.state]
    exact accounted.ended

/-- The segments are moved about. -/
theorem moved (accounted : pcb.Accounted) (valid : ∀ seg ∈ pcb'.queue, seg.Valid)
    (same : ∀ measure, FlagBlind measure → total measure pcb'.queue = total measure pcb.queue)
    (sndBuf : pcb'.sndBuf = pcb.sndBuf) (queuelen : pcb'.sndQueuelen = pcb.sndQueuelen)
    (fin : pcb'.fin = pcb.fin) (state : pcb'.state = pcb.state) (mss : pcb'.mss = pcb.mss) :
    pcb'.Accounted := by
  refine ⟨valid, ?_, ?_, ?_, ?_, ?_⟩
  · rw [same _ flagBlind_lenOf, sndBuf]
    exact accounted.sndBuf
  · rw [same _ flagBlind_pbufsOf, queuelen]
    exact accounted.queuelen
  · rw [same _ flagBlind_emptyOf, fin]
    exact accounted.empty
  · rw [fin, state]
    exact accounted.ended
  · rw [mss]
    exact accounted.mss

theorem unsent_valid (accounted : pcb.Accounted) : ∀ seg ∈ pcb.unsent, seg.Valid :=
  fun seg isIn => accounted.valid seg (List.mem_append_right _ isIn)

theorem unacked_valid (accounted : pcb.Accounted) : ∀ seg ∈ pcb.unacked, seg.Valid :=
  fun seg isIn => accounted.valid seg (List.mem_append_left _ isIn)

/-- A stream that takes data has not ended. -/
theorem open_of_takesData (accounted : pcb.Accounted) (takes : takesData pcb.state = true) :
    pcb.fin = false := by
  cases fin : pcb.fin with
  | false => rfl
  | true =>
    have ended := accounted.ended fin
    rw [takes] at ended
    cases ended

/-- The queues hold at most one pbuf more than the send buffer has bytes. -/
theorem pbufs_lt (accounted : pcb.Accounted) : total pbufsOf pcb.queue ≤ tcpSndBuf + 1 := by
  have le := pbufs_le accounted.valid
  have bytes := accounted.sndBuf
  have empty := accounted.empty
  split at empty <;> omega

end Accounted

/-- A segment takes sequence numbers. -/
theorem tcplen_pos {seg : SndSeg} (valid : seg.Valid) : seg.tcplen > 0 := by
  have small := seg.len.toNat_lt
  have some : seg.tcplen.toNat ≠ 0 := by
    change (seg.len.toUInt32 + if seg.has tcpFin ∨ seg.has tcpSyn then 1 else 0).toNat ≠ 0
    rw [UInt32.toNat_add, UInt16.toNat_toUInt32]
    rcases valid.notEmpty with bytes | fin
    · have positive : seg.len.toNat ≠ 0 := fun zero => bytes (UInt16.toNat_inj.mp zero)
      split
      · change (_ + 1) % _ ≠ 0
        omega
      · change (_ + 0) % _ ≠ 0
        omega
    · rw [fin, if_pos (Or.inl rfl)]
      change (_ + 1) % _ ≠ 0
      omega
  exact UInt32.lt_iff_toNat_lt.mpr (Nat.pos_of_ne_zero some)

/-- Sending changes no account. -/
theorem Sends.accounted {sent : List TcpSeg} (sends : Sends pcb sent pcb')
    (accounted : pcb.Accounted) :
    pcb'.Accounted ∧ total lenOf pcb'.queue = total lenOf pcb.queue := by
  induction sends with
  | done => exact ⟨accounted, rfl⟩
  | @quiet pcb pcb₁ _ _ quiet _ inductionHypothesis =>
    obtain ⟨accounted', same⟩ := inductionHypothesis (accounted.quiet quiet)
    exact ⟨accounted', same.trans (by rw [quiet.queue])⟩
  | @setAck pcb _ seg rest _ unsent _ inductionHypothesis =>
    have alike : List.Forall₂ SndSeg.Alike pcb.queue
        (pcb.unacked ++ seg.setFlag tcpAck :: rest) := by
      rw [queue, unsent]
      exact List.rel_append (List.forall₂_same.mpr fun other _ => .refl other)
        (.cons seg.alike_ack (List.forall₂_same.mpr fun other _ => .refl other))
    obtain ⟨accounted', same⟩ := inductionHypothesis (accounted.moved
      (valid_alike accounted.valid alike) (fun measure blind => total_alike blind alike) rfl rfl
      rfl rfl rfl)
    exact ⟨accounted', same.trans (total_alike flagBlind_lenOf alike)⟩
  | @first pcb _ seg rest _ unsent _ inductionHypothesis =>
    have segValid := accounted.unsent_valid seg (by
      rw [unsent]
      exact List.mem_cons_self)
    have perm : (pcb.sentFirst seg rest).queue.Perm pcb.queue := by
      change ((if seg.tcplen > 0 then pcb.toUnacked seg else pcb.unacked) ++ rest).Perm _
      rw [if_pos (tcplen_pos segValid), queue, unsent]
      exact ((pcb.toUnacked_perm seg).append_right rest).trans List.perm_middle.symm
    obtain ⟨accounted', same⟩ := inductionHypothesis (accounted.moved
      (fun other isIn => accounted.valid other (perm.mem_iff.mp isIn))
      (fun measure _ => total_perm perm) rfl rfl rfl rfl rfl)
    exact ⟨accounted', same.trans (total_perm perm)⟩

/-- A number of pbufs that is added to `snd_queuelen`. -/
theorem queuelen_add {queuelen : UInt16} {before more after : Nat}
    (is : queuelen.toNat = before) (sum : before + more = after) (small : after ≤ tcpSndBuf + 1) :
    (queuelen + UInt16.ofNat more).toNat = after := by
  rw [UInt16.toNat_add, UInt16.toNat_ofNat', is]
  change after ≤ 11681 at small
  omega

/-- What is written is in the accounts. -/
theorem Writes.accounted {arg : Bytes} (writes : Writes pcb arg pcb')
    (accounted : pcb.Accounted) :
    pcb'.Accounted ∧ total lenOf pcb'.queue = total lenOf pcb.queue + arg.length := by
  obtain ⟨data, rest, pbufs, filled, segments, whole, fills, consecutive, alike, queuelen⟩ :=
    writes.taken
  obtain ⟨fillsValid, fillsLen, fillsPbufs, fillsEmpty⟩ := fills.totals accounted.unsent_valid
  obtain ⟨newValid, newLen, newPbufs, newEmpty⟩ := consecutive.totals
  have valid : ∀ seg ∈ pcb'.queue, seg.Valid := by
    intro seg isIn
    rw [queue, writes.unacked] at isIn
    rcases List.mem_append.mp isIn with old | new
    · exact accounted.unacked_valid seg old
    · exact valid_alike (fun other isIn => (List.mem_append.mp isIn).elim (fillsValid other)
        (newValid other)) alike seg new
  have totals : ∀ measure, FlagBlind measure → total measure pcb'.queue =
      total measure pcb.unacked + (total measure filled + total measure segments) := by
    intro measure blind
    rw [queue, writes.unacked, total_append, total_alike blind alike, total_append]
  have noFin := accounted.open_of_takesData writes.state
  have sndBuf := accounted.sndBuf
  have pbufsNow := accounted.queuelen
  have empty := accounted.empty
  have fits := writes.fits
  rw [noFin, if_neg Bool.false_ne_true] at empty
  simp only [queue, total_append] at sndBuf pbufsNow empty ⊢
  have length : arg.length = data.length + rest.length := by rw [whole, List.length_append]
  have len := totals _ flagBlind_lenOf
  have pbufsAfter := totals _ flagBlind_pbufsOf
  have emptyAfter := totals _ flagBlind_emptyOf
  have bufAfter : pcb'.sndBuf.toNat = pcb.sndBuf.toNat - arg.length := by
    have small := pcb.sndBuf.toNat_lt
    have toNat : (UInt32.ofNat arg.length).toNat = arg.length := by
      rw [UInt32.toNat_ofNat']
      omega
    rw [writes.sndBuf, UInt32.toNat_sub_of_le _ _ (UInt32.le_iff_toNat_le.mpr (by omega)), toNat]
  have le := pbufs_le valid
  refine ⟨⟨valid, ?_, ?_, ?_, ?_, ?_⟩, ?_⟩
  · omega
  · rw [queuelen]
    exact queuelen_add pbufsNow (by omega) (by omega)
  · omega
  · rw [writes.fin, noFin]
    exact fun isTrue => (by cases isTrue)
  · rw [writes.mss]
    exact accounted.mss
  · rw [← total_append]
    change total lenOf pcb'.queue = _
    omega

/-- The end of the stream takes a pbuf at most. -/
theorem Closes.accounted (closes : Closes pcb pcb') (accounted : pcb.Accounted) :
    pcb'.Accounted ∧ total lenOf pcb'.queue = total lenOf pcb.queue := by
  have noFin := accounted.open_of_takesData closes.state
  have sndBuf := accounted.sndBuf
  have pbufsNow := accounted.queuelen
  have empty := accounted.empty
  rw [noFin, if_neg Bool.false_ne_true] at empty
  have mss : pcb'.mss ≠ 0 := by
    rw [closes.mss]
    exact accounted.mss
  have ended : pcb'.fin = true → takesData pcb'.state = false := fun _ => closes.closed
  obtain ⟨front, last, unsent, unsent', queuelen⟩ | ⟨unsent', queuelen⟩ := closes.queue
  · have same : ∀ measure, FlagBlind measure →
        total measure pcb'.queue = total measure pcb.queue := by
      intro measure blind
      simp only [TcpSnd.queue, closes.unacked, unsent, unsent', total_append, total_cons, total_nil]
      rw [blind last (last.setFlag tcpFin) rfl rfl]
    refine ⟨⟨fun seg isIn => ?_, ?_, ?_, ?_, ended, mss⟩, same _ flagBlind_lenOf⟩
    · rw [TcpSnd.queue, closes.unacked, unsent'] at isIn
      rcases List.mem_append.mp isIn with old | isIn
      · exact accounted.unacked_valid seg old
      · rcases List.mem_append.mp isIn with old | isLast
        · exact accounted.unsent_valid seg (by
            rw [unsent]
            exact List.mem_append_left _ old)
        · rw [List.mem_singleton.mp isLast]
          exact (accounted.unsent_valid last (by
            rw [unsent]
            exact List.mem_append_right _ List.mem_cons_self)).setFlag rfl rfl (Or.inl rfl)
    · rw [same _ flagBlind_lenOf, closes.sndBuf]
      exact sndBuf
    · rw [same _ flagBlind_pbufsOf, queuelen]
      exact pbufsNow
    · rw [same _ flagBlind_emptyOf]
      exact empty.trans (Nat.zero_le _)
  · have noSyn : decide (tcpFin &&& tcpSyn ≠ 0) = false := by decide
    have noRst : decide (tcpFin &&& tcpRst ≠ 0) = false := by decide
    have fin : decide (tcpFin &&& tcpFin ≠ 0) = true := by decide
    have finValid : SndSeg.Valid ⟨pcb.sndLbb, tcpFin, 0, [[]]⟩ :=
      ⟨rfl, noSyn, noRst, Or.inl rfl, Or.inr fin⟩
    have totals : ∀ measure, total measure pcb'.queue =
        total measure pcb.queue + measure ⟨pcb.sndLbb, tcpFin, 0, [[]]⟩ := by
      intro measure
      simp only [TcpSnd.queue, closes.unacked, unsent', total_append, total_cons, total_nil]
      omega
    have len : total lenOf pcb'.queue = total lenOf pcb.queue := totals lenOf
    have small := accounted.pbufs_lt
    have le := pbufs_le accounted.valid
    refine ⟨⟨fun seg isIn => ?_, ?_, ?_, ?_, ended, mss⟩, len⟩
    · rw [TcpSnd.queue, closes.unacked, unsent', ← List.append_assoc] at isIn
      rcases List.mem_append.mp isIn with old | isLast
      · exact accounted.valid seg old
      · rw [List.mem_singleton.mp isLast]
        exact finValid
    · rw [len, closes.sndBuf]
      exact sndBuf
    · rw [queuelen, totals]
      exact queuelen_add pbufsNow rfl (by change _ + 1 ≤ _; omega)
    · rw [totals, closes.fin, if_pos rfl]
      change _ + 1 ≤ 1
      omega

/-- A segment is cut in two. -/
theorem Accounted.cut (accounted : pcb.Accounted) {useg head tail : SndSeg} {rest : List SndSeg}
    {length : Nat} (unsent : pcb.unsent = useg :: rest) (parts : CutIn useg length head tail) :
    (pcb.cut useg head tail rest).Accounted ∧
      total lenOf (pcb.cut useg head tail rest).queue = total lenOf pcb.queue := by
  have usegValid := accounted.unsent_valid useg (by
    rw [unsent]
    exact List.mem_cons_self)
  have positive := parts.positive
  have inside := parts.inside
  have headLen : lenOf head = length := by
    have bytes := parts.headValid.bytes
    rw [parts.headBytes, List.length_take, usegValid.bytes] at bytes
    change _ = lenOf head at bytes
    omega
  have tailLen : lenOf tail = lenOf useg - length := by
    have bytes := parts.tailValid.bytes
    rw [parts.tailBytes, List.length_drop, usegValid.bytes] at bytes
    exact bytes.symm
  have inside : length < lenOf useg := inside
  have full : ∀ {seg : SndSeg}, 0 < lenOf seg → emptyOf seg = 0 := fun {seg} bytes =>
    if_neg fun zero => by
      rw [lenOf, zero] at bytes
      exact Nat.lt_irrefl 0 bytes
  have valid : ∀ seg ∈ (pcb.cut useg head tail rest).queue, seg.Valid := by
    intro seg isIn
    rcases List.mem_append.mp isIn with old | isIn
    · exact accounted.unacked_valid seg old
    · rcases List.mem_cons.mp isIn with rfl | isIn
      · exact parts.headValid
      · rcases List.mem_cons.mp isIn with rfl | isIn
        · exact parts.tailValid
        · exact accounted.unsent_valid seg (by
            rw [unsent]
            exact List.mem_cons_of_mem _ isIn)
  have before : ∀ measure, total measure pcb.queue =
      total measure pcb.unacked + (measure useg + total measure rest) := by
    intro measure
    rw [queue, unsent, total_append, total_cons]
  have after : ∀ measure, total measure (pcb.cut useg head tail rest).queue =
      total measure pcb.unacked + (measure head + (measure tail + total measure rest)) := by
    intro measure
    change total measure (pcb.unacked ++ head :: tail :: rest) = _
    rw [total_append, total_cons, total_cons]
  have len : total lenOf (pcb.cut useg head tail rest).queue = total lenOf pcb.queue := by
    rw [before, after, headLen, tailLen]
    omega
  have empty : total emptyOf (pcb.cut useg head tail rest).queue = total emptyOf pcb.queue := by
    rw [before, after, full (by omega), full (by omega), full (by omega)]
    omega
  have emptyNow := accounted.empty
  have le := pbufs_le valid
  have bytes := accounted.sndBuf
  have small : total pbufsOf (pcb.cut useg head tail rest).queue ≤ tcpSndBuf + 1 := by
    split at emptyNow <;> omega
  refine ⟨⟨valid, ?_, ?_, ?_, accounted.ended, accounted.mss⟩, len⟩
  · rw [len]
    exact bytes
  · have queuelen := accounted.queuelen
    rw [before] at queuelen
    rw [after] at small ⊢
    change _ ≤ 11681 at small
    have room := pcb.sndQueuelen.toNat_lt
    have clen : ∀ seg : SndSeg, pbufsOf seg < 2 ^ 16 → seg.clen.toNat = pbufsOf seg := by
      intro seg fits
      rw [SndSeg.clen, UInt16.toNat_ofNat']
      exact Nat.mod_eq_of_lt fits
    change (pcb.sndQueuelen - useg.clen + head.clen + tail.clen).toNat = _
    rw [UInt16.toNat_add, UInt16.toNat_add, UInt16.toNat_sub_of_le _ _
      (UInt16.le_iff_toNat_le.mpr (by rw [clen useg (by omega)]; omega)), clen useg (by omega),
      clen head (by omega), clen tail (by omega)]
    omega
  · rw [empty]
    exact emptyNow

/-- What the slow timer does changes no account of a connection that is not given up. -/
theorem SlowTimer.accounted {sent : List TcpSeg} (timer : SlowTimer pcb sent pcb')
    (accounted : pcb.Accounted) :
    pcb'.state = .closed ∨
      (pcb'.Accounted ∧ total lenOf pcb'.queue = total lenOf pcb.queue) := by
  cases timer with
  | gone closed => exact Or.inl closed
  | sends sends => exact Or.inr (sends.accounted accounted)
  | @probes _ _ seg rest unsent quiet once =>
    have probed : (pcb.probed seg).Accounted :=
      accounted.moved accounted.valid (fun _ _ => rfl) rfl rfl rfl rfl rfl
    have same : pcb'.queue = pcb.queue := by
      rw [queue, quiet.unacked, quiet.unsent]
      rfl
    exact Or.inr ⟨probed.quiet quiet, by rw [same]⟩
  | splits persists open_ unsent parts sends =>
    obtain ⟨cut, same⟩ := accounted.cut unsent parts
    obtain ⟨accounted', same'⟩ := sends.accounted cut
    exact Or.inr ⟨accounted', same'.trans same⟩
  | requeues sends =>
    have requeued : pcb.requeued.Accounted :=
      accounted.moved accounted.valid (fun _ _ => rfl) rfl rfl rfl rfl rfl
    exact Or.inr (sends.accounted requeued)

/-! ### Acknowledgements -/

/-- The segment is acknowledged. -/
def ackedBy (ackno : UInt32) (seg : SndSeg) : Bool := tcpSeqLeq (seg.seqno + seg.tcplen) ackno

/-- The segments at the front of a queue are freed; no assertion fails if `snd_queuelen` is right,
with `rest` pbufs in the other queue. -/
theorem freeAcked_spec {ackno : UInt32} (other : Bool) (rest : Nat) {segs : List SndSeg}
    {queuelen : UInt16} (valid : ∀ seg ∈ segs, seg.Valid)
    (count : queuelen.toNat = total pbufsOf segs + rest) (none : other = false → rest = 0)
    (small : total lenOf segs < 2 ^ 32) :
    ∃ queuelen' acked,
      freeAcked ackno other queuelen segs =
        some (segs.dropWhile (ackedBy ackno), queuelen', acked) ∧
      queuelen'.toNat = total pbufsOf (segs.dropWhile (ackedBy ackno)) + rest ∧
      acked.toNat + total lenOf (segs.dropWhile (ackedBy ackno)) = total lenOf segs := by
  induction segs generalizing queuelen with
  | nil => exact ⟨queuelen, 0, rfl, count, rfl⟩
  | cons seg segs inductionHypothesis =>
    rw [freeAcked]
    by_cases acked : ackedBy ackno seg = true
    · have queueSmall := queuelen.toNat_lt
      rw [total_cons] at count small
      have clen : seg.clen.toNat = pbufsOf seg := by
        rw [SndSeg.clen, UInt16.toNat_ofNat']
        exact Nat.mod_eq_of_lt (by change pbufsOf seg < _; omega)
      have enough : ¬ queuelen < seg.clen := by
        rw [UInt16.lt_iff_toNat_lt, clen]
        omega
      have left : (queuelen - seg.clen).toNat = total pbufsOf segs + rest := by
        rw [UInt16.toNat_sub_of_le _ _ (UInt16.not_lt.mp enough), clen]
        omega
      have consistent :
          ¬ (queuelen - seg.clen ≠ 0 ∧ segs = [] ∧ other = false) := by
        rintro ⟨some, rfl, single⟩
        rw [none single] at left
        exact some (UInt16.toNat_inj.mp left)
      obtain ⟨queuelen', more, frees, count', bytes⟩ := inductionHypothesis
        (fun other isIn => valid other (List.mem_cons_of_mem _ isIn)) left (by omega)
      have before : tcpSeqLeq (seg.seqno + seg.tcplen) ackno = true := acked
      rw [if_pos before, if_neg enough]
      dsimp only
      rw [if_neg consistent, frees, List.dropWhile_cons_of_pos acked]
      refine ⟨queuelen', more + seg.len.toUInt32, rfl, count', ?_⟩
      rw [total_cons, UInt32.toNat_add, UInt16.toNat_toUInt32]
      change (more.toNat + lenOf seg) % 2 ^ 32 + _ = lenOf seg + _
      rw [Nat.mod_eq_of_lt (by omega)]
      omega
    · have beyond : ¬ tcpSeqLeq (seg.seqno + seg.tcplen) ackno = true := acked
      rw [if_neg beyond, List.dropWhile_cons_of_neg acked]
      exact ⟨queuelen, 0, rfl, count, Nat.zero_add _⟩

/-- The segments that are acknowledged are gone. -/
def freed (pcb : TcpSnd) (ackno : UInt32) (queuelen : UInt16) (acked : UInt32) : TcpSnd :=
  { pcb with
    lastack := ackno
    unacked := pcb.unacked.dropWhile (ackedBy ackno)
    unsent := pcb.unsent.dropWhile (ackedBy ackno)
    sndQueuelen := queuelen
    sndBuf := pcb.sndBuf + acked }

theorem Quiet.freed (quiet : Quiet pcb pcb') (ackno : UInt32) (queuelen : UInt16)
    (acked : UInt32) :
    Quiet (pcb.freed ackno queuelen acked) (pcb'.freed ackno queuelen acked) where
  unsent := congrArg (List.dropWhile (ackedBy ackno)) quiet.unsent
  unacked := congrArg (List.dropWhile (ackedBy ackno)) quiet.unacked
  sndBuf := congrArg (· + acked) quiet.sndBuf
  sndQueuelen := rfl
  sndLbb := quiet.sndLbb
  sndNxt := quiet.sndNxt
  lastack := rfl
  fin := quiet.fin
  state := quiet.state
  mss := quiet.mss

/-- An acknowledgement of new data: no assertion fails, and what is freed is reported. -/
theorem newAck_spec (accounted : pcb.Accounted) (ackno : UInt32) :
    ∃ pcb' acked queuelen, pcb.newAck ackno = some (pcb', acked) ∧
      Quiet (pcb.freed ackno queuelen acked) pcb' ∧
      queuelen.toNat = total pbufsOf (pcb.freed ackno queuelen acked).queue ∧
      acked.toNat + total lenOf (pcb.freed ackno queuelen acked).queue =
        total lenOf pcb.queue := by
  have frees : ∀ {pcb₁ : TcpSnd}, Quiet { pcb with lastack := ackno } pcb₁ →
      ∃ pcb' acked queuelen, pcb₁.freeSegments ackno = some (pcb', acked) ∧
        Quiet (pcb.freed ackno queuelen acked) pcb' ∧
        queuelen.toNat = total pbufsOf (pcb.freed ackno queuelen acked).queue ∧
        acked.toNat + total lenOf (pcb.freed ackno queuelen acked).queue =
          total lenOf pcb.queue := by
    intro pcb₁ quiet
    have unacked : pcb₁.unacked = pcb.unacked := quiet.unacked
    have unsent : pcb₁.unsent = pcb.unsent := quiet.unsent
    have count := accounted.queuelen
    have bytes := accounted.sndBuf
    rw [← show pcb₁.sndQueuelen = pcb.sndQueuelen from quiet.sndQueuelen] at count
    rw [queue, total_append] at count bytes
    change _ = 11680 at bytes
    obtain ⟨queuelen₁, acked₁, first, count₁, bytes₁⟩ := freeAcked_spec
      (!pcb.unsent.isEmpty) (total pbufsOf pcb.unsent) accounted.unacked_valid count (by
        intro none
        rw [Bool.not_eq_false', List.isEmpty_iff] at none
        rw [none]
        rfl) (by omega)
    obtain ⟨queuelen₂, acked₂, second, count₂, bytes₂⟩ := freeAcked_spec
      (!(pcb.unacked.dropWhile (ackedBy ackno)).isEmpty)
      (total pbufsOf (pcb.unacked.dropWhile (ackedBy ackno)))
      accounted.unsent_valid (count₁.trans (Nat.add_comm _ _)) (by
        intro none
        rw [Bool.not_eq_false', List.isEmpty_iff] at none
        rw [none]
        rfl) (by omega)
    rw [freeSegments, unacked, unsent, first, Option.bind_some]
    dsimp only
    rw [second, Option.map_some]
    refine ⟨_, acked₁ + acked₂, queuelen₂, rfl, ?_, ?_, ?_⟩
    · exact ⟨rfl, rfl, congrArg (· + (acked₁ + acked₂)) quiet.sndBuf, rfl, quiet.sndLbb,
        quiet.sndNxt, quiet.lastack, quiet.fin, quiet.state, quiet.mss⟩
    · rw [queue, total_append]
      exact count₂.trans (Nat.add_comm _ _)
    · rw [queue, queue, total_append, total_append, UInt32.toNat_add]
      change (acked₁.toNat + acked₂.toNat) % 2 ^ 32 +
        (total lenOf (pcb.unacked.dropWhile _) + total lenOf (pcb.unsent.dropWhile _)) = _
      rw [Nat.mod_eq_of_lt (by omega)]
      omega
  unfold newAck
  refine frees (Quiet.trans ?_ (quiet_openCwnd _ _))
  split <;> exact ⟨rfl, rfl, rfl, rfl, rfl, rfl, rfl, rfl, rfl, id⟩

/-- The accounts after segments were freed. -/
theorem Accounted.freed (accounted : pcb.Accounted) {ackno acked : UInt32} {queuelen : UInt16}
    (count : queuelen.toNat = total pbufsOf (pcb.freed ackno queuelen acked).queue)
    (bytes : acked.toNat + total lenOf (pcb.freed ackno queuelen acked).queue =
      total lenOf pcb.queue) : (pcb.freed ackno queuelen acked).Accounted := by
  have less : (pcb.freed ackno queuelen acked).queue.Sublist pcb.queue :=
    (List.dropWhile_sublist _).append (List.dropWhile_sublist _)
  refine ⟨fun seg isIn => accounted.valid seg (less.subset isIn), ?_, count, ?_, accounted.ended,
    accounted.mss⟩
  · have buf := accounted.sndBuf
    change _ = 11680 at buf
    change (pcb.sndBuf + acked).toNat + _ = 11680
    rw [UInt32.toNat_add, Nat.mod_eq_of_lt (by omega)]
    omega
  · exact (total_sublist less).trans accounted.empty

/-- What an acknowledgement does to the queues: nothing, or the first segment of `unacked` is to be
sent again, or what is acknowledged is freed. -/
inductive AckTaken (pcb : TcpSnd) (ackno : UInt32) : UInt32 → TcpSnd → Prop
  | old {pcb' : TcpSnd} (may : MayRexmit pcb pcb') : AckTaken pcb ackno 0 pcb'
  | new {pcb' : TcpSnd} {acked : UInt32} {queuelen : UInt16}
    (later : tcpSeqLeq ackno pcb.lastack = false)
    (known : tcpSeqBetween ackno (pcb.lastack + 1) pcb.sndNxt = true)
    (quiet : Quiet (pcb.freed ackno queuelen acked) pcb')
    (count : queuelen.toNat = total pbufsOf (pcb.freed ackno queuelen acked).queue)
    (bytes : acked.toNat + total lenOf (pcb.freed ackno queuelen acked).queue =
      total lenOf pcb.queue) : AckTaken pcb ackno acked pcb'

/-- An MSS option does not make `mss` zero. -/
theorem parseMss_ne_zero {mss : UInt16} (before : mss ≠ 0) (option : Option UInt16) :
    parseMss mss option ≠ 0 := by
  cases option with
  | none => exact before
  | some mss =>
    rw [parseMss]
    split
    · decide
    case isFalse inside => exact fun zero => inside (Or.inr zero)

/-- No assertion fails when an acknowledgement comes. -/
theorem tcpReceiveAck_spec (accounted : pcb.Accounted) (seqno ackno : UInt32) (wnd : UInt16)
    (tcplen : UInt32) (mss : Option UInt16) (ticks : UInt32) :
    ∃ pcb' acked, pcb.tcpReceiveAck seqno ackno wnd tcplen mss ticks = some (pcb', acked) ∧
      AckTaken pcb ackno acked pcb' := by
  have updated : ∀ size : UInt16, (pcb.mss ≠ 0 → size ≠ 0) →
      Quiet pcb (({ pcb with persistProbe := 0, mss := size } : TcpSnd).updateWindow
        seqno ackno wnd) := by
    intro size positive
    have sized : Quiet pcb { pcb with persistProbe := 0, mss := size } :=
      ⟨rfl, rfl, rfl, rfl, rfl, rfl, rfl, rfl, rfl, positive⟩
    exact sized.trans (quiet_updateWindow _ seqno ackno wnd)
  have quiet := updated (parseMss pcb.mss mss) fun before => parseMss_ne_zero before mss
  unfold tcpReceiveAck
  dsimp only
  generalize TcpSnd.updateWindow _ seqno ackno wnd = pcb₁ at quiet
  have estimated : ∀ pcb₂ : TcpSnd, Quiet pcb₂ (pcb₂.estimateRtt ackno ticks) := fun pcb₂ =>
    quiet_estimateRtt pcb₂ ackno ticks
  rw [quiet.lastack, quiet.sndNxt]
  split
  · exact ⟨_, _, rfl,
      .old (((duplicateAck_spec pcb₁ _ _ _).of_quiet quiet).trans_quiet (estimated _))⟩
  case isFalse later =>
    split
    case isTrue known =>
      obtain ⟨pcb₂, acked, queuelen, new, freed, count, bytes⟩ :=
        newAck_spec (accounted.quiet quiet) ackno
      have same := quiet.freed ackno queuelen acked
      rw [same.queue] at count bytes
      rw [quiet.queue] at bytes
      rw [new]
      exact ⟨_, _, rfl, .new (Bool.eq_false_iff.mpr later) known
        ((same.trans freed).trans (estimated _)) count bytes⟩
    case isFalse =>
      exact ⟨_, _, rfl, .old (Or.inl (quiet.trans (estimated _)))⟩

/-- What is acknowledged leaves the queues. -/
theorem AckTaken.accounted {ackno acked : UInt32} (taken : AckTaken pcb ackno acked pcb')
    (accounted : pcb.Accounted) :
    pcb'.Accounted ∧ acked.toNat + total lenOf pcb'.queue = total lenOf pcb.queue := by
  cases taken with
  | old may =>
    obtain quiet | ⟨seg, rest, unacked, quiet⟩ := may
    · exact ⟨accounted.quiet quiet, by rw [quiet.queue]; exact Nat.zero_add _⟩
    · have perm : (pcb.rexmitted seg rest).queue.Perm pcb.queue := by
        change (rest ++ insertSorted seg pcb.unsent).Perm _
        rw [queue, unacked]
        exact ((insertSorted_perm seg pcb.unsent).append_left rest).trans List.perm_middle
      have rexmitted : (pcb.rexmitted seg rest).Accounted :=
        accounted.moved (fun other isIn => accounted.valid other (perm.mem_iff.mp isIn))
          (fun measure _ => total_perm perm) rfl rfl rfl rfl rfl
      refine ⟨rexmitted.quiet quiet, ?_⟩
      rw [quiet.queue, total_perm perm]
      exact Nat.zero_add _
  | new _ _ quiet count bytes =>
    refine ⟨(accounted.freed count bytes).quiet quiet, ?_⟩
    rw [quiet.queue]
    exact bytes

theorem AckTaken.state {ackno acked : UInt32} (taken : AckTaken pcb ackno acked pcb') :
    pcb'.state = pcb.state := by
  cases taken with
  | old may =>
    obtain quiet | ⟨_, _, _, quiet⟩ := may
    · exact quiet.state
    · exact quiet.state
  | new _ _ quiet _ _ => exact quiet.state

/-- A segment neither ends the stream nor opens it again. -/
theorem takesData_stateAfter (state : TcpState) (gotFin allAcked : Bool) :
    takesData (stateAfter state gotFin allAcked) = takesData state := by
  cases state <;> cases gotFin <;> cases allAcked <;> rfl

/-- No assertion fails when a segment with an acknowledgement is processed. -/
theorem processAck_spec (accounted : pcb.Accounted) (seqno ackno : UInt32) (wnd : UInt16)
    (tcplen : UInt32) (mss : Option UInt16) (gotFin : Bool) (ticks : UInt32) :
    ∃ pcb' acked pcb₁,
      pcb.processAck seqno ackno wnd tcplen mss gotFin ticks = some (pcb', acked) ∧
      AckTaken pcb ackno acked pcb₁ ∧ takesData pcb'.state = takesData pcb.state ∧
      (pcb'.state = .timeWait ∨ pcb'.state = .closed ∨
        ∃ state, pcb' = { pcb₁ with state := state } ∧
          (takesData pcb₁.state = false → takesData state = false)) := by
  obtain ⟨pcb₁, acked, receives, taken⟩ :=
    tcpReceiveAck_spec accounted seqno ackno wnd tcplen mss ticks
  have same := takesData_stateAfter pcb₁.state gotFin
    (decide (ackno = pcb₁.sndNxt ∧ pcb₁.unsent = []))
  have takes := same.trans (congrArg takesData taken.state)
  unfold processAck
  rw [receives, Option.map_some]
  dsimp only
  split
  case isTrue atEnd =>
    rcases atEnd with timeWait | closed
    · exact ⟨_, _, pcb₁, rfl, taken, takes, Or.inl timeWait⟩
    · exact ⟨_, _, pcb₁, rfl, taken, takes, Or.inr (Or.inl closed)⟩
  case isFalse =>
    exact ⟨_, _, pcb₁, rfl, taken, takes, Or.inr (Or.inr ⟨_, rfl, same.trans⟩)⟩

/-- The state of a connection does not matter for its accounts, as long as an ended stream does not
open again. -/
theorem Accounted.withState (accounted : pcb.Accounted) {state : TcpState}
    (stays : takesData pcb.state = false → takesData state = false) :
    Accounted { pcb with state := state } :=
  ⟨accounted.valid, accounted.sndBuf, accounted.queuelen, accounted.empty,
    fun fin => stays (accounted.ended fin), accounted.mss⟩

/-- A connection that is established, and that nothing has been written to. -/
structure Fresh (pcb : TcpSnd) : Prop where
  state : pcb.state = .established
  unsent : pcb.unsent = []
  unacked : pcb.unacked = []
  sndBuf : pcb.sndBuf.toNat = tcpSndBuf
  sndQueuelen : pcb.sndQueuelen = 0
  fin : pcb.fin = false
  mss : pcb.mss ≠ 0

theorem Fresh.queue (fresh : pcb.Fresh) : pcb.queue = [] := by
  rw [TcpSnd.queue, fresh.unacked, fresh.unsent]
  rfl

theorem Fresh.accounted (fresh : pcb.Fresh) : pcb.Accounted := by
  refine ⟨?_, ?_, ?_, ?_, ?_, fresh.mss⟩
  · rw [fresh.queue]
    exact fun _ isIn => (by cases isIn)
  · rw [fresh.queue]
    exact fresh.sndBuf
  · rw [fresh.queue, fresh.sndQueuelen]
    rfl
  · rw [fresh.queue]
    exact Nat.zero_le _
  · rw [fresh.fin]
    exact fun isTrue => (by cases isTrue)

end TcpSnd

/-! ### Runs -/

namespace SndRun

variable {run : SndRun}

/-- The accounts are right, and what was taken is queued or was acknowledged. -/
structure Balanced (run : SndRun) : Prop where
  accounted : run.pcb.Accounted
  taken : run.acked + total lenOf run.pcb.queue = run.written.length

theorem Balanced.write (balanced : run.Balanced) {arg : Bytes} (short : arg.length < 2 ^ 16)
    (mem : Nat → Bool) : (run.step (.write arg mem)).Balanced := by
  unfold step
  dsimp only
  split
  · exact ⟨balanced.accounted, balanced.taken⟩
  case h_2 pcb writes =>
    obtain ⟨notOk, -⟩ | ⟨-, writes⟩ :=
      TcpSnd.tcpWrite_spec balanced.accounted.unsent_valid balanced.accounted.mss short writes
    · exact absurd rfl notOk
    · obtain ⟨accounted, bytes⟩ := writes.accounted balanced.accounted
      refine ⟨accounted, ?_⟩
      have taken := balanced.taken
      change run.acked + total lenOf pcb.queue = (run.written ++ arg).length
      rw [bytes, List.length_append]
      omega
  case h_3 pcb err notOk writes =>
    obtain ⟨-, quiet⟩ | ⟨isOk, -⟩ :=
      TcpSnd.tcpWrite_spec balanced.accounted.unsent_valid balanced.accounted.mss short writes
    · refine ⟨balanced.accounted.quiet quiet, ?_⟩
      change run.acked + total lenOf pcb.queue = _
      rw [quiet.queue]
      exact balanced.taken
    · exact absurd isOk notOk

/-- The stream is ended. -/
theorem Balanced.close (balanced : run.Balanced) (mem : Bool) :
    (run.step (.close mem)).Balanced ∧ (run.step (.close mem)).failed = run.failed := by
  obtain ⟨pcb, closes, what⟩ := TcpSnd.tcpCloseShutdownFin_spec run.pcb mem
  have is : run.step (.close mem) = { run with pcb := pcb } := by
    unfold step
    dsimp only
    rw [closes]
  rw [is]
  rcases what with quiet | closes
  · refine ⟨⟨balanced.accounted.quiet quiet, ?_⟩, rfl⟩
    change run.acked + total lenOf pcb.queue = _
    rw [quiet.queue]
    exact balanced.taken
  · obtain ⟨accounted, same⟩ := closes.accounted balanced.accounted
    refine ⟨⟨accounted, ?_⟩, rfl⟩
    change run.acked + total lenOf pcb.queue = _
    rw [same]
    exact balanced.taken

/-- `tcp_output` is called. -/
theorem Balanced.output (balanced : run.Balanced) (ticks : UInt32) (ok : Nat → Bool)
    (ackNow : Option AckOutcome) :
    (run.step (.output ticks ok ackNow)).Balanced ∧
      (run.step (.output ticks ok ackNow)).failed = run.failed := by
  obtain ⟨pcb, sent, err, output, sends⟩ :=
    TcpSnd.tcpOutput_spec run.pcb ticks ok ackNow balanced.accounted.unsent_valid
  have is : run.step (.output ticks ok ackNow) =
      { run with pcb := pcb, sent := run.sent ++ sent } := by
    unfold step
    dsimp only
    rw [output]
  rw [is]
  obtain ⟨accounted, same⟩ := sends.accounted balanced.accounted
  refine ⟨⟨accounted, ?_⟩, rfl⟩
  change run.acked + total lenOf pcb.queue = _
  rw [same]
  exact balanced.taken

/-- A segment with an acknowledgement arrives. -/
theorem Balanced.ack (balanced : run.Balanced) (seqno ackno : UInt32) (wnd : UInt16)
    (tcplen : UInt32) (mss : Option UInt16) (gotFin : Bool) (ticks : UInt32) :
    ((run.step (.ack seqno ackno wnd tcplen mss gotFin ticks)).ended = true ∨
        (run.step (.ack seqno ackno wnd tcplen mss gotFin ticks)).Balanced) ∧
      (run.step (.ack seqno ackno wnd tcplen mss gotFin ticks)).failed = run.failed := by
  obtain ⟨pcb, acked, pcb₁, processed, takes, -, what⟩ :=
    TcpSnd.processAck_spec balanced.accounted seqno ackno wnd tcplen mss gotFin ticks
  have is : run.step (.ack seqno ackno wnd tcplen mss gotFin ticks) =
      { run with pcb := pcb, acked := run.acked + acked.toNat } := by
    unfold step
    dsimp only
    rw [processed]
  rw [is]
  refine ⟨?_, rfl⟩
  rcases what with timeWait | closed | ⟨state, rfl, stays⟩
  · exact Or.inl (by simp [ended, timeWait])
  · exact Or.inl (by simp [ended, closed])
  · obtain ⟨accounted, bytes⟩ := takes.accounted balanced.accounted
    refine Or.inr ⟨accounted.withState stays, ?_⟩
    have taken := balanced.taken
    change run.acked + acked.toNat + total lenOf pcb₁.queue = run.written.length
    omega

/-- The slow timer runs. -/
theorem Balanced.slowtmr (balanced : run.Balanced) (mem : Bool) (ticks : UInt32)
    (ok : Nat → Bool) (ackNow : Option AckOutcome) :
    (run.step (.slowtmr mem ticks ok ackNow)).ended = true ∨
      (run.step (.slowtmr mem ticks ok ackNow)).Balanced := by
  unfold step
  dsimp only
  split
  · exact Or.inr ⟨balanced.accounted, balanced.taken⟩
  case h_2 pcb sent runs =>
    have timer := TcpSnd.tcpSlowtmr_spec balanced.accounted.unacked_valid
      balanced.accounted.unsent_valid runs
    rcases timer.accounted balanced.accounted with closed | ⟨accounted, same⟩
    · exact Or.inl (by simp [ended, closed])
    · refine Or.inr ⟨accounted, ?_⟩
      change run.acked + total lenOf pcb.queue = _
      rw [same]
      exact balanced.taken

/-- As long as a connection is in use, every event keeps the balance. -/
theorem Balanced.step (balanced : run.Balanced) {event : SndEvent} (enabled : run.enabled event) :
    (run.step event).ended = true ∨ (run.step event).Balanced := by
  cases event with
  | write arg mem => exact Or.inr (balanced.write enabled.2.2 mem)
  | close mem => exact Or.inr (balanced.close mem).1
  | output ticks ok ackNow => exact Or.inr (balanced.output ticks ok ackNow).1
  | ack seqno ackno wnd tcplen mss gotFin ticks =>
    exact (balanced.ack seqno ackno wnd tcplen mss gotFin ticks).1
  | slowtmr mem ticks ok ackNow => exact balanced.slowtmr mem ticks ok ackNow
  | pcbRemove => exact Or.inl rfl

theorem enabled_not_ended {event : SndEvent} (enabled : run.enabled event) :
    run.ended = false := by
  cases event with
  | write arg mem => exact enabled.2.1
  | close mem => exact enabled.2
  | output ticks ok ackNow => exact enabled.2
  | ack seqno ackno wnd tcplen mss gotFin ticks => exact enabled.2
  | slowtmr mem ticks ok ackNow => exact enabled.2
  | pcbRemove => exact enabled.2

/-- The accounts of a connection in use are right in every run. -/
theorem balanced_run {start : TcpSnd} (fresh : start.Fresh) {events : List SndEvent}
    (legal : sndSystem.Legal (.init start) events)
    (inUse : (sndSystem.run events (.init start)).ended = false) :
    (sndSystem.run events (.init start)).Balanced := by
  have holds : (sndSystem.run events (.init start)).ended = true ∨
      (sndSystem.run events (.init start)).Balanced := by
    refine sndSystem.invariant (fun run => run.ended = true ∨ run.Balanced) ?_ legal (Or.inr ?_)
    · intro run event enabled before
      rcases before with atEnd | balanced
      · rw [enabled_not_ended enabled] at atEnd
        cases atEnd
      · exact balanced.step enabled
    · refine ⟨fresh.accounted, ?_⟩
      change 0 + total lenOf start.queue = 0
      rw [fresh.queue]
      rfl
  rcases holds with atEnd | balanced
  · rw [inUse] at atEnd
    cases atEnd
  · exact balanced

end SndRun

/-- Whatever the peer sends, and whichever allocations and outputs fail: as long as a connection is
in use, `snd_buf` is what the queues leave of the send buffer, `snd_queuelen` is the number of pbufs
in them, and every byte that was taken is in a queue or was reported as acknowledged. No assertion
fails when the stream is ended, when segments are sent and when an acknowledgement comes. -/
theorem send_accounting {start : TcpSnd} (fresh : start.Fresh) {events : List SndEvent}
    (legal : sndSystem.Legal (.init start) events)
    (inUse : (sndSystem.run events (.init start)).ended = false) :
    let run := sndSystem.run events (.init start)
    run.pcb.sndBuf.toNat + total lenOf run.pcb.queue = tcpSndBuf ∧
      run.pcb.sndQueuelen.toNat = total pbufsOf run.pcb.queue ∧
      run.acked + total lenOf run.pcb.queue = run.written.length ∧
      (∀ mem, (run.step (.close mem)).failed = run.failed) ∧
      (∀ ticks ok ackNow, (run.step (.output ticks ok ackNow)).failed = run.failed) ∧
      ∀ seqno ackno wnd tcplen mss gotFin ticks,
        (run.step (.ack seqno ackno wnd tcplen mss gotFin ticks)).failed = run.failed := by
  have balanced := SndRun.balanced_run fresh legal inUse
  exact ⟨balanced.accounted.sndBuf, balanced.accounted.queuelen, balanced.taken,
    fun mem => (balanced.close mem).2, fun ticks ok ackNow => (balanced.output ticks ok ackNow).2,
    fun seqno ackno wnd tcplen mss gotFin ticks =>
      (balanced.ack seqno ackno wnd tcplen mss gotFin ticks).2⟩

/-- A connection that has just been accepted. -/
def sampleSnd : TcpSnd where
  state := .established
  mss := 1460
  sndScale := 0
  noDelay := true
  inFr := false
  inRto := false
  fin := false
  nagleMemErr := false
  closePend := false
  rtime := -1
  rttest := 0
  rtseq := 6510
  sa := 0
  sv := 6
  rto := 6
  nrtx := 0
  dupacks := 0
  lastack := 6511
  cwnd := 4380
  ssthresh := 11680
  rtoEnd := 0
  sndNxt := 6511
  sndWl1 := 100
  sndWl2 := 6511
  sndLbb := 6511
  sndWnd := 8760
  sndWndMax := 8760
  sndBuf := 11680
  sndQueuelen := 0
  unsentOversize := 0
  bytesAcked := 0
  persistCnt := 0
  persistBackoff := 0
  persistProbe := 0
  unsent := []
  unacked := []

/-- Two writes are sent; the peer acknowledges the first, and the second is sent again after a
timeout before the stream is ended. -/
def sampleSends : List SndEvent :=
  [.write [1, 2, 3] fun _ => true, .output 1 (fun _ => true) none, .write [4, 5] fun _ => true,
    .ack 100 6514 8760 0 none false 2, .output 2 (fun _ => true) none,
    .slowtmr true 3 (fun _ => true) none, .slowtmr true 4 (fun _ => true) none,
    .slowtmr true 5 (fun _ => true) none, .slowtmr true 6 (fun _ => true) none,
    .slowtmr true 7 (fun _ => true) none, .slowtmr true 8 (fun _ => true) none,
    .close true, .output 9 (fun _ => true) none]

theorem send_accounting_rexmit :
    let run := sndSystem.run sampleSends (.init sampleSnd)
    run.pcb.sndBuf = 11678 ∧ run.written.length = 5 ∧
      run.pcb.sndBuf.toNat + total lenOf run.pcb.queue = tcpSndBuf ∧
      run.pcb.sndQueuelen.toNat = total pbufsOf run.pcb.queue ∧
      run.acked + total lenOf run.pcb.queue = run.written.length ∧
      (run.step (.close true)).failed = run.failed := by
  have fresh : sampleSnd.Fresh := ⟨rfl, rfl, rfl, rfl, rfl, rfl, by decide⟩
  have legal : sndSystem.Legal (.init sampleSnd) sampleSends := by decide +kernel
  have inUse : (sndSystem.run sampleSends (.init sampleSnd)).ended = false := by decide +kernel
  obtain ⟨sndBuf, queuelen, taken, close, -⟩ := send_accounting fresh legal inUse
  exact ⟨by decide +kernel, by decide +kernel, sndBuf, queuelen, taken, close true⟩

end Net2Tr
