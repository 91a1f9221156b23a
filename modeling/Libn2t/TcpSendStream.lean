/-
This file proves that the sending half of a connection sends what was written:
every segment that goes out, also a retransmitted one, one that was cut in two and
a probe of the window, holds the bytes that the stream has at its sequence number.

A connection follows a sender that keeps the pieces of its stream; the end of the
stream counts as one more element of it, as it takes a sequence number.
-/

import Libn2t.Retransmission
import Libn2t.TcpSendBuffer

namespace Net2Tr

open Pieces Retransmission

/-- The bytes of a stream, and its end. -/
def streamOf (data : Bytes) (fin : Bool) : List (Option UInt8) :=
  data.map some ++ if fin then [none] else []

theorem length_streamOf (data : Bytes) (fin : Bool) :
    (streamOf data fin).length = data.length + if fin then 1 else 0 := by
  cases fin <;> simp [streamOf]

namespace SndSeg

variable {seg : SndSeg}

/-- What a segment holds of the stream. -/
def content (seg : SndSeg) : List (Option UInt8) := streamOf seg.p.flatten (seg.has tcpFin)

theorem Valid.length_content (valid : seg.Valid) : seg.content.length = seg.tcplen.toNat := by
  have small := seg.len.toNat_lt
  rw [content, length_streamOf, valid.bytes]
  change _ = (seg.len.toUInt32 + if seg.has tcpFin ∨ seg.has tcpSyn then 1 else 0).toNat
  rw [UInt32.toNat_add, UInt16.toNat_toUInt32, valid.noSyn]
  cases seg.has tcpFin
  · change _ + 0 = (_ + 0) % _
    omega
  · change _ + 1 = (_ + 1) % _
    omega

theorem Valid.content_le (valid : seg.Valid) : seg.content.length ≤ lenOf seg + pbufsOf seg := by
  have pbufs := valid.length_pos
  rw [content, length_streamOf, valid.bytes]
  change _ ≤ seg.len.toNat + seg.p.length
  split <;> omega

/-- A segment holds a piece of the stream. -/
structure Tells (isn : UInt32) (seg : SndSeg) (piece : Piece (Option UInt8)) : Prop where
  seqno : seg.seqno = seqAt isn piece.start
  data : piece.data = seg.content

variable {isn : UInt32} {piece : Piece (Option UInt8)}

theorem Tells.alike {other : SndSeg} (tells : seg.Tells isn piece) (alike : seg.Alike other) :
    other.Tells isn piece where
  seqno := alike.seqno.trans tells.seqno
  data := by rw [tells.data, content, content, alike.p, alike.fin]

/-- The number behind a segment. -/
theorem Tells.stop (tells : seg.Tells isn piece) (valid : seg.Valid) :
    seg.seqno + seg.tcplen = seqAt isn piece.stop := by
  rw [tells.seqno, seqAt_add, Piece.stop, tells.data, valid.length_content]

end SndSeg

section Queues

variable {isn : UInt32} {segs others : List SndSeg} {pieces : List (Piece (Option UInt8))}

/-- The pieces of the first segments of a queue. -/
theorem tells_append (tells : List.Forall₂ (SndSeg.Tells isn) (segs ++ others) pieces) :
    ∃ front behind, pieces = front ++ behind ∧ List.Forall₂ (SndSeg.Tells isn) segs front ∧
      List.Forall₂ (SndSeg.Tells isn) others behind := by
  induction segs generalizing pieces with
  | nil => exact ⟨[], pieces, rfl, .nil, tells⟩
  | cons seg rest inductionHypothesis =>
    cases tells with
    | cons first later =>
      obtain ⟨front, behind, rfl, inFront, isBehind⟩ := inductionHypothesis later
      exact ⟨_ :: front, behind, rfl, .cons first inFront, isBehind⟩

theorem tells_mem (tells : List.Forall₂ (SndSeg.Tells isn) segs pieces) {seg : SndSeg}
    (isIn : seg ∈ segs) : ∃ piece ∈ pieces, seg.Tells isn piece := by
  induction tells with
  | nil => cases isIn
  | cons first _ inductionHypothesis =>
    rcases List.mem_cons.mp isIn with rfl | later
    · exact ⟨_, List.mem_cons_self, first⟩
    · obtain ⟨piece, isIn, tells⟩ := inductionHypothesis later
      exact ⟨piece, List.mem_cons_of_mem _ isIn, tells⟩

theorem tells_of_mem (tells : List.Forall₂ (SndSeg.Tells isn) segs pieces)
    {piece : Piece (Option UInt8)} (isIn : piece ∈ pieces) :
    ∃ seg ∈ segs, seg.Tells isn piece := by
  induction tells with
  | nil => cases isIn
  | cons first _ inductionHypothesis =>
    rcases List.mem_cons.mp isIn with rfl | later
    · exact ⟨_, List.mem_cons_self, first⟩
    · obtain ⟨seg, isIn, tells⟩ := inductionHypothesis later
      exact ⟨seg, List.mem_cons_of_mem _ isIn, tells⟩

theorem tells_alike (tells : List.Forall₂ (SndSeg.Tells isn) segs pieces)
    (alike : List.Forall₂ SndSeg.Alike segs others) :
    List.Forall₂ (SndSeg.Tells isn) others pieces := by
  induction alike generalizing pieces with
  | nil => exact tells
  | cons first _ inductionHypothesis =>
    cases tells with
    | cons tell rest => exact .cons (tell.alike first) (inductionHypothesis rest)

/-- What the segments of a queue hold. -/
theorem length_joined_le (tells : List.Forall₂ (SndSeg.Tells isn) segs pieces)
    (valid : ∀ seg ∈ segs, seg.Valid) :
    (joined pieces).length ≤ total lenOf segs + total pbufsOf segs := by
  induction tells with
  | nil => exact Nat.zero_le _
  | cons first _ inductionHypothesis =>
    have le := inductionHypothesis fun other isIn => valid other (List.mem_cons_of_mem _ isIn)
    have here := (valid _ List.mem_cons_self).content_le
    rw [← first.data] at here
    rw [joined, List.flatMap_cons, List.length_append, total_cons, total_cons]
    change _ + (joined _).length ≤ _
    omega

/-- A segment is put in order as its piece is. -/
theorem insertSorted_tells {seg : SndSeg} {piece : Piece (Option UInt8)}
    (tell : seg.Tells isn piece) (tells : List.Forall₂ (SndSeg.Tells isn) segs pieces)
    (near : ∀ other ∈ pieces, Serial.Near 32 other.start piece.start) :
    List.Forall₂ (SndSeg.Tells isn) (TcpSnd.insertSorted seg segs)
      (pieces.orderedInsert StartsBy piece) := by
  induction tells with
  | nil => exact .cons tell .nil
  | @cons cur other rest others first later inductionHypothesis =>
    rw [TcpSnd.insertSorted, first.seqno, tell.seqno,
      tcpSeqLt_seqAt (near other List.mem_cons_self), List.orderedInsert_cons]
    by_cases before : other.start < piece.start
    · have notBy : ¬ StartsBy piece other := Nat.not_le_of_lt before
      rw [if_pos (decide_eq_true before), if_neg notBy]
      exact .cons first (inductionHypothesis fun other isIn =>
        near other (List.mem_cons_of_mem _ isIn))
    · have isBy : StartsBy piece other := Nat.le_of_not_lt before
      rw [if_neg (by rwa [decide_eq_true_eq]), if_pos isBy]
      exact .cons tell (.cons first later)

/-- A segment that starts behind all others is put last. -/
theorem insertSorted_last {seg : SndSeg}
    (behind : ∀ other ∈ segs, tcpSeqLt other.seqno seg.seqno = true) :
    TcpSnd.insertSorted seg segs = segs ++ [seg] := by
  induction segs with
  | nil => rfl
  | cons cur rest inductionHypothesis =>
    rw [TcpSnd.insertSorted, if_pos (behind cur List.mem_cons_self),
      inductionHypothesis fun other isIn => behind other (List.mem_cons_of_mem _ isIn)]
    rfl

end Queues

namespace TcpSnd

variable {pcb pcb' : TcpSnd} {isn : UInt32} {written : Bytes} {buffer : Buffer (Option UInt8)}

/-- A connection follows a sender that keeps the pieces of its stream. -/
structure Tracks (isn : UInt32) (written : Bytes) (pcb : TcpSnd)
    (buffer : Buffer (Option UInt8)) : Prop where
  accounted : pcb.Accounted
  sound : buffer.Sound
  stream : buffer.stream = streamOf written pcb.fin
  lbb : pcb.fin = false → pcb.sndLbb = seqAt isn buffer.stream.length
  nxt : pcb.sndNxt = seqAt isn buffer.sent
  lastack : pcb.lastack = seqAt isn buffer.acked
  inFlight : List.Forall₂ (SndSeg.Tells isn) pcb.unacked buffer.inFlight
  waiting : List.Forall₂ (SndSeg.Tells isn) pcb.unsent buffer.waiting

namespace Tracks

theorem quiet (tracks : Tracks isn written pcb buffer) (same : Quiet pcb pcb') :
    Tracks isn written pcb' buffer where
  accounted := tracks.accounted.quiet same
  sound := tracks.sound
  stream := same.fin.symm ▸ tracks.stream
  lbb isOpen := same.sndLbb.trans (tracks.lbb (same.fin.symm.trans isOpen))
  nxt := same.sndNxt.trans tracks.nxt
  lastack := same.lastack.trans tracks.lastack
  inFlight := same.unacked.symm ▸ tracks.inFlight
  waiting := same.unsent.symm ▸ tracks.waiting

/-- All that is kept lies in half of the range of sequence numbers. -/
theorem span (tracks : Tracks isn written pcb buffer) :
    ∃ low ≤ buffer.acked, (∀ piece ∈ buffer.kept, low ≤ piece.start) ∧
      buffer.stream.length < low + 2 ^ 31 := by
  obtain ⟨low, tiling, low_le, tiles, perm⟩ := tracks.sound.tiled
  refine ⟨low, low_le, fun piece isIn => tiles.le_start piece (perm.mem_iff.mp isIn), ?_⟩
  have length := tiles.length_joined
  have same : (joined buffer.kept).length = (joined tiling).length :=
    (perm.flatMap_right Piece.data).length_eq
  have kept : List.Forall₂ (SndSeg.Tells isn) pcb.queue buffer.kept :=
    List.rel_append tracks.inFlight tracks.waiting
  have le := length_joined_le kept tracks.accounted.valid
  have bytes := tracks.accounted.sndBuf
  have pbufs := tracks.accounted.pbufs_lt
  change _ = 11680 at bytes
  change _ ≤ 11681 at pbufs
  omega

/-- Two places of the stream behind some place that is kept are near. -/
theorem near_of_span {low high m n : Nat} (span : high < low + 2 ^ 31) (m_ge : low ≤ m)
    (m_le : m ≤ high) (n_ge : low ≤ n) (n_le : n ≤ high) : Serial.Near 32 m n := by
  constructor
  · change m < n + 2 ^ 31
    omega
  · change n < m + 2 ^ 31
    omega

/-- The piece of the first segment of `unsent`. -/
theorem head (tracks : Tracks isn written pcb buffer) {seg : SndSeg} {rest : List SndSeg}
    (unsent : pcb.unsent = seg :: rest) :
    ∃ piece pieces, buffer.waiting = piece :: pieces ∧ seg.Tells isn piece ∧
      List.Forall₂ (SndSeg.Tells isn) rest pieces ∧ piece ∈ buffer.kept ∧ seg.Valid := by
  have waiting := tracks.waiting
  rw [unsent] at waiting
  obtain ⟨piece, pieces, tell, later, is⟩ := List.forall₂_cons_left_iff.mp waiting
  refine ⟨piece, pieces, is, tell, later, Buffer.Sound.kept_waiting buffer piece ?_,
    tracks.accounted.unsent_valid seg ?_⟩
  · rw [is]
    exact List.mem_cons_self
  · rw [unsent]
    exact List.mem_cons_self

/-- A segment that was sent is put among those in flight as its piece is. -/
theorem toUnacked (tracks : Tracks isn written pcb buffer) {seg : SndSeg}
    {piece : Piece (Option UInt8)} (tell : seg.Tells isn piece)
    (near : ∀ other ∈ buffer.inFlight, Serial.Near 32 other.start piece.start)
    (different : ∀ other ∈ buffer.inFlight, other.start ≠ piece.start) :
    List.Forall₂ (SndSeg.Tells isn) (pcb.toUnacked seg)
      (buffer.inFlight.orderedInsert StartsBy piece) := by
  have inserted := insertSorted_tells tell tracks.inFlight near
  unfold TcpSnd.toUnacked
  split
  case h_1 nothing =>
    rw [List.getLast?_eq_none_iff.mp nothing] at inserted
    exact inserted
  case h_2 useg isLast =>
    split
    · exact inserted
    case isFalse notBefore =>
      have notEmpty : pcb.unacked ≠ [] := fun empty => by
        rw [empty] at isLast
        cases isLast
      have whole : pcb.unacked = pcb.unacked.dropLast ++ [useg] := by
        rw [List.getLast?_eq_some_getLast notEmpty, Option.some.injEq] at isLast
        rw [← isLast, List.dropLast_append_getLast]
      have flying := tracks.inFlight
      rw [whole] at flying
      obtain ⟨front, _, is, -, last⟩ := tells_append flying
      obtain ⟨final, _, tellLast, no, rfl⟩ := List.forall₂_cons_left_iff.mp last
      cases no
      have sorted := tracks.sound.inFlightSorted
      rw [is] at sorted
      have finalIn : final ∈ buffer.inFlight := by
        rw [is]
        exact List.mem_append_right _ List.mem_cons_self
      rw [tell.seqno, tellLast.seqno, tcpSeqLt_seqAt ⟨(near final finalIn).2,
        (near final finalIn).1⟩, decide_eq_true_eq] at notBefore
      rw [← insertSorted_last fun other isIn => ?_]
      · exact inserted
      · obtain ⟨piece', pieceIn, tell'⟩ := tells_mem tracks.inFlight isIn
        have apart := different piece' pieceIn
        have le : piece'.start ≤ final.start := by
          rw [is] at pieceIn
          rcases List.mem_append.mp pieceIn with inFront | isFinal
          · exact (List.pairwise_append.mp sorted).2.2 piece' inFront final List.mem_cons_self
          · rw [List.mem_singleton.mp isFinal]
        rw [tell'.seqno, tell.seqno, tcpSeqLt_seqAt (near piece' pieceIn)]
        exact decide_eq_true (by omega)

/-- The first segment is sent. -/
theorem send (tracks : Tracks isn written pcb buffer) {seg : SndSeg} {rest : List SndSeg}
    (unsent : pcb.unsent = seg :: rest) :
    ∃ buffer', Buffer.Step buffer buffer' ∧ buffer'.stream = buffer.stream ∧
      Tracks isn written (pcb.sentFirst seg rest) buffer' := by
  obtain ⟨piece, pieces, waiting, tell, later, isIn, valid⟩ := tracks.head unsent
  obtain ⟨low, low_le, starts, span⟩ := tracks.span
  have stops := tracks.sound.stop_le
  have acked_le := tracks.sound.acked_le
  have sent_le := tracks.sound.sent_le
  have pieceStop := stops piece isIn
  have pieceStart := starts piece isIn
  have inside : piece.start ≤ piece.stop := Nat.le_add_right _ _
  have step : Buffer.Step buffer _ := .send waiting
  refine ⟨_, step, rfl, ((Sends.first unsent (.done _)).accounted tracks.accounted).1,
    step.sound tracks.sound, tracks.stream, tracks.lbb, ?_, tracks.lastack, ?_, later⟩
  · change (if tcpSeqLt pcb.sndNxt (seg.seqno + seg.tcplen) then seg.seqno + seg.tcplen
      else pcb.sndNxt) = seqAt isn (max buffer.sent piece.stop)
    rw [tell.stop valid, tracks.nxt,
      tcpSeqLt_seqAt (near_of_span span (by omega) (by omega) (by omega) (by omega))]
    by_cases more : buffer.sent < piece.stop
    · rw [if_pos (decide_eq_true more), max_eq_right more.le]
    · rw [if_neg (by rwa [decide_eq_true_eq]), max_eq_left (Nat.le_of_not_lt more)]
  · change List.Forall₂ _ (if seg.tcplen > 0 then pcb.toUnacked seg else pcb.unacked) _
    rw [if_pos (tcplen_pos valid)]
    refine tracks.toUnacked tell (fun other flying => ?_) fun other flying same => ?_
    · have otherIn := Buffer.Sound.kept_inFlight buffer other flying
      have start := starts other otherIn
      have stop := stops other otherIn
      rw [Piece.stop] at stop
      exact near_of_span span (by omega) (by omega) (by omega) (by omega)
    · have apart := List.disjoint_of_nodup_append tracks.sound.nodup
      have waits : piece ∈ buffer.waiting := by
        rw [waiting]
        exact List.mem_cons_self
      have notSame : piece ≠ other := fun is => apart flying (is ▸ waits)
      rcases tracks.sound.separate isIn (Buffer.Sound.kept_inFlight buffer other flying) notSame
        with before | after
      · omega
      · omega

/-- The first byte of the first segment is sent to probe the window. -/
theorem probed (tracks : Tracks isn written pcb buffer) {seg : SndSeg} {rest : List SndSeg}
    (unsent : pcb.unsent = seg :: rest) :
    ∃ buffer', Buffer.Step buffer buffer' ∧ buffer'.stream = buffer.stream ∧
      Tracks isn written (pcb.probed seg) buffer' := by
  obtain ⟨piece, pieces, waiting, tell, later, isIn, valid⟩ := tracks.head unsent
  obtain ⟨low, low_le, starts, span⟩ := tracks.span
  have acked_le := tracks.sound.acked_le
  have sent_le := tracks.sound.sent_le
  have pieceStart := starts piece isIn
  have pieceStop := tracks.sound.stop_le piece isIn
  have positive := List.length_pos_of_ne_nil (tracks.sound.nonempty piece isIn)
  rw [Piece.stop] at pieceStop
  have inside : piece.start + 1 ≤ piece.stop := by
    rw [Piece.stop]
    omega
  have step : Buffer.Step buffer _ := .probe waiting inside
  refine ⟨_, step, rfl,
    tracks.accounted.moved tracks.accounted.valid (fun _ _ => rfl) rfl rfl rfl rfl rfl,
    step.sound tracks.sound, tracks.stream, tracks.lbb, ?_, tracks.lastack, tracks.inFlight,
    tracks.waiting⟩
  change (if tcpSeqLt pcb.sndNxt (seg.seqno + 1) then seg.seqno + 1 else pcb.sndNxt) =
    seqAt isn (max buffer.sent (piece.start + 1))
  rw [tell.seqno, seqAt_add_one, tracks.nxt,
    tcpSeqLt_seqAt (near_of_span span (by omega) (by omega) (by omega) (by omega))]
  by_cases more : buffer.sent < piece.start + 1
  · rw [if_pos (decide_eq_true more), max_eq_right more.le]
  · rw [if_neg (by rwa [decide_eq_true_eq]), max_eq_left (Nat.le_of_not_lt more)]

/-- The first segment of `unacked` is to be sent again. -/
theorem rexmitted (tracks : Tracks isn written pcb buffer) {seg : SndSeg} {rest : List SndSeg}
    (unacked : pcb.unacked = seg :: rest) :
    ∃ buffer', Buffer.Step buffer buffer' ∧ buffer'.stream = buffer.stream ∧
      Tracks isn written (pcb.rexmitted seg rest) buffer' := by
  have flying := tracks.inFlight
  rw [unacked] at flying
  obtain ⟨piece, pieces, tell, later, is⟩ := List.forall₂_cons_left_iff.mp flying
  obtain ⟨low, low_le, starts, span⟩ := tracks.span
  have isIn : piece ∈ buffer.kept := Buffer.Sound.kept_inFlight buffer piece (by
    rw [is]
    exact List.mem_cons_self)
  have place : ∀ other ∈ buffer.kept, low ≤ other.start ∧
      other.start ≤ buffer.stream.length := by
    intro other isIn
    have stop := tracks.sound.stop_le other isIn
    rw [Piece.stop] at stop
    exact ⟨starts other isIn, by omega⟩
  have step : Buffer.Step buffer _ := .resendFirst is
  have taken : AckTaken pcb 0 0 (pcb.rexmitted seg rest) :=
    .old (Or.inr ⟨seg, rest, unacked, .refl _⟩)
  have accounted := (taken.accounted tracks.accounted).1
  refine ⟨_, step, rfl, accounted, step.sound tracks.sound, tracks.stream, tracks.lbb, tracks.nxt,
    tracks.lastack, later, insertSorted_tells tell tracks.waiting fun other waits => ?_⟩
  have otherIn := place other (Buffer.Sound.kept_waiting buffer other waits)
  have pieceIn := place piece isIn
  exact near_of_span span otherIn.1 otherIn.2 pieceIn.1 pieceIn.2

/-- All segments are to be sent again. -/
theorem requeued (tracks : Tracks isn written pcb buffer) (settled : buffer.Settled) :
    ∃ buffer', Buffer.Step buffer buffer' ∧ buffer'.stream = buffer.stream ∧
      Tracks isn written pcb.requeued buffer' := by
  have step : Buffer.Step buffer _ := .resendAll settled
  exact ⟨_, step, rfl,
    tracks.accounted.moved tracks.accounted.valid (fun _ _ => rfl) rfl rfl rfl rfl rfl,
    step.sound tracks.sound, tracks.stream, tracks.lbb, tracks.nxt, tracks.lastack, .nil,
    List.rel_append tracks.inFlight tracks.waiting⟩

/-- The first segment, which has no FIN, is cut in two. -/
theorem cut (tracks : Tracks isn written pcb buffer) {useg head tail : SndSeg} {rest : List SndSeg}
    {length : Nat} (unsent : pcb.unsent = useg :: rest) (parts : CutIn useg length head tail)
    (noFin : useg.has tcpFin = false) :
    ∃ buffer', Buffer.Step buffer buffer' ∧ buffer'.stream = buffer.stream ∧
      Tracks isn written (pcb.cut useg head tail rest) buffer' := by
  obtain ⟨piece, pieces, waiting, tell, later, isIn, valid⟩ := tracks.head unsent
  have data : piece.data = useg.p.flatten.map some := by
    rw [tell.data, SndSeg.content, streamOf, noFin, if_neg Bool.false_ne_true, List.append_nil]
  have inside : length < piece.data.length := by
    rw [data, List.length_map, valid.bytes]
    exact parts.inside
  have step : Buffer.Step buffer _ := .split waiting parts.positive inside
  refine ⟨_, step, rfl, (tracks.accounted.cut unsent parts).1, step.sound tracks.sound,
    tracks.stream, tracks.lbb, tracks.nxt, tracks.lastack, tracks.inFlight,
    .cons ⟨?_, ?_⟩ (.cons ⟨?_, ?_⟩ later)⟩
  · exact parts.headSeqno.trans tell.seqno
  · rw [SndSeg.content, parts.headBytes, parts.headFin, noFin, streamOf,
      if_neg Bool.false_ne_true, List.append_nil, List.map_take, ← data]
  · rw [parts.tailSeqno, tell.seqno]
    exact seqAt_seqAt isn piece.start length
  · rw [SndSeg.content, parts.tailBytes, parts.tailFin, noFin, streamOf,
      if_neg Bool.false_ne_true, List.append_nil, List.map_drop, ← data]

/-- Segments in front of a place are freed as their pieces are. -/
theorem dropWhile {segs : List SndSeg} {pieces : List (Piece (Option UInt8))} {place : Nat}
    (tells : List.Forall₂ (SndSeg.Tells isn) segs pieces) (valid : ∀ seg ∈ segs, seg.Valid)
    (near : ∀ piece ∈ pieces, Serial.Near 32 piece.stop place) :
    List.Forall₂ (SndSeg.Tells isn) (segs.dropWhile (ackedBy (seqAt isn place)))
      (pieces.dropWhile (·.stop ≤ place)) := by
  induction tells with
  | nil => exact .nil
  | @cons seg piece rest others tell later inductionHypothesis =>
    have acked : ackedBy (seqAt isn place) seg = decide (piece.stop ≤ place) := by
      rw [ackedBy, tell.stop (valid seg List.mem_cons_self),
        tcpSeqLeq_seqAt (near piece List.mem_cons_self)]
    by_cases below : piece.stop ≤ place
    · rw [List.dropWhile_cons_of_pos (by rw [acked]; exact decide_eq_true below),
        List.dropWhile_cons, if_pos (decide_eq_true below)]
      exact inductionHypothesis (fun other isIn => valid other (List.mem_cons_of_mem _ isIn))
        fun other isIn => near other (List.mem_cons_of_mem _ isIn)
    · rw [List.dropWhile_cons_of_neg (by rw [acked, decide_eq_true_eq]; exact below),
        List.dropWhile_cons, if_neg (by rwa [decide_eq_true_eq])]
      exact .cons tell later

/-- A number behind another is some steps behind it. -/
theorem steps_of_later {ackno : UInt32} {n : Nat}
    (later : tcpSeqLeq ackno (seqAt isn n) = false) :
    ∃ steps, 0 < steps ∧ steps < 2 ^ 31 ∧ ackno = seqAt isn (n + steps) := by
  have positive : ¬ (ackno - seqAt isn n).toBitVec.toInt ≤ 0 := of_decide_eq_false later
  have small := (ackno - seqAt isn n).toNat_lt
  refine ⟨(ackno - seqAt isn n).toNat, ?_, ?_, ?_⟩
  · rw [BitVec.toInt_eq_toNat_cond] at positive
    change ¬ (if 2 * (ackno - seqAt isn n).toNat < 2 ^ 32 then
      ((ackno - seqAt isn n).toNat : Int) else _) ≤ 0 at positive
    split at positive
    · omega
    · omega
  · rw [BitVec.toInt_eq_toNat_cond] at positive
    change ¬ (if 2 * (ackno - seqAt isn n).toNat < 2 ^ 32 then
      ((ackno - seqAt isn n).toNat : Int) else ((ackno - seqAt isn n).toNat : Int) - _) ≤ 0
      at positive
    split at positive
    · omega
    · omega
  · rw [← seqAt_add, UInt32.add_comm, UInt32.sub_add_cancel]

/-- What was acknowledged is freed. -/
theorem freed (tracks : Tracks isn written pcb buffer) {ackno acked : UInt32} {queuelen : UInt16}
    (later : tcpSeqLeq ackno pcb.lastack = false)
    (known : tcpSeqBetween ackno (pcb.lastack + 1) pcb.sndNxt = true)
    (accounted : (pcb.freed ackno queuelen acked).Accounted) :
    ∃ buffer', Buffer.Step buffer buffer' ∧ buffer'.stream = buffer.stream ∧
      Tracks isn written (pcb.freed ackno queuelen acked) buffer' := by
  rw [tracks.lastack] at later known
  obtain ⟨steps, positive, small, rfl⟩ := steps_of_later later
  obtain ⟨low, low_le, starts, span⟩ := tracks.span
  have acked_le := tracks.sound.acked_le
  have sent_le := tracks.sound.sent_le
  have fromAcked : Serial.Near 32 (buffer.acked + steps) (buffer.acked + 1) := by
    constructor
    · change _ < _ + 2 ^ 31
      omega
    · change _ < _ + 2 ^ 31
      omega
  have toSent : Serial.Near 32 (buffer.acked + steps) buffer.sent := by
    constructor
    · change _ < _ + 2 ^ 31
      omega
    · change _ < _ + 2 ^ 31
      omega
  rw [seqAt_add_one, tracks.nxt, tcpSeqBetween_seqAt fromAcked toSent, decide_eq_true_eq] at known
  have step : Buffer.Step buffer _ := .ack (Nat.le_add_right buffer.acked steps) known.2
  have near : ∀ piece ∈ buffer.kept, Serial.Near 32 piece.stop (buffer.acked + steps) := by
    intro piece isIn
    have start := starts piece isIn
    have stop := tracks.sound.stop_le piece isIn
    have inside : piece.start ≤ piece.stop := Nat.le_add_right _ _
    exact near_of_span span (by omega) (by omega) (by omega) (by omega)
  exact ⟨_, step, rfl, accounted, step.sound tracks.sound, tracks.stream, tracks.lbb, tracks.nxt,
    rfl,
    dropWhile tracks.inFlight tracks.accounted.unacked_valid fun piece flying =>
      near piece (Buffer.Sound.kept_inFlight buffer piece flying),
    dropWhile tracks.waiting tracks.accounted.unsent_valid fun piece waits =>
      near piece (Buffer.Sound.kept_waiting buffer piece waits)⟩

/-- The pieces of new segments. -/
theorem consecutive_pieces {n : Nat} {data : Bytes} {segs : List SndSeg}
    (consecutive : Consecutive (seqAt isn n) data segs) :
    ∃ pieces, Tiles n pieces (n + data.length) ∧ (∀ piece ∈ pieces, piece.data ≠ []) ∧
      joined pieces = data.map some ∧ List.Forall₂ (SndSeg.Tells isn) segs pieces := by
  induction segs generalizing n data with
  | nil =>
    rw [show data = [] from consecutive]
    exact ⟨[], rfl, fun _ isIn => (by cases isIn), rfl, .nil⟩
  | cons seg rest inductionHypothesis =>
    obtain ⟨count, positive, inside, small, rfl, behind⟩ := consecutive
    rw [show seqAt isn n + UInt32.ofNat count = seqAt isn (n + count) from
      seqAt_seqAt isn n count] at behind
    obtain ⟨pieces, tiles, some_, whole, tells⟩ := inductionHypothesis behind
    have short : (data.take count).length = count := List.length_take_of_le inside
    have noFin : decide ((0 : UInt8) &&& tcpFin ≠ 0) = false := by decide
    refine ⟨⟨n, (data.take count).map some⟩ :: pieces, ⟨rfl, ?_⟩, fun piece isIn => ?_, ?_,
      .cons ⟨rfl, ?_⟩ tells⟩
    · change Tiles (n + ((data.take count).map some).length) pieces _
      rw [List.length_map, short]
      rwa [List.length_drop, Nat.add_assoc, Nat.add_sub_cancel' inside] at tiles
    · rcases List.mem_cons.mp isIn with rfl | later
      · exact List.ne_nil_of_length_pos (by
          change 0 < ((data.take count).map some).length
          rw [List.length_map, short]
          exact positive)
      · exact some_ piece later
    · rw [joined, List.flatMap_cons]
      change _ ++ joined pieces = _
      rw [whole, ← List.map_append, List.take_append_drop]
    · change _ = streamOf [data.take count].flatten (decide ((0 : UInt8) &&& tcpFin ≠ 0))
      rw [noFin, streamOf, List.flatten_singleton, if_neg Bool.false_ne_true, List.append_nil]

/-- What a segment without a FIN holds. -/
theorem content_of_noFin {seg : SndSeg} (noFin : seg.has tcpFin = false) :
    seg.content = seg.p.flatten.map some := by
  rw [SndSeg.content, streamOf, noFin, if_neg Bool.false_ne_true, List.append_nil]

/-- As long as the stream has not ended no segment has a FIN. -/
theorem noFin (tracks : Tracks isn written pcb buffer) (open_ : pcb.fin = false) :
    ∀ seg ∈ pcb.unsent, seg.has tcpFin = false := by
  intro seg isIn
  obtain ⟨piece, waits, tell⟩ := tells_mem tracks.waiting isIn
  have slice := tracks.sound.slices piece (Buffer.Sound.kept_waiting buffer piece waits)
  cases fin : seg.has tcpFin with
  | false => rfl
  | true =>
    have ends : none ∈ piece.data := by
      rw [tell.data, SndSeg.content, streamOf, fin, if_pos rfl]
      exact List.mem_append_right _ List.mem_cons_self
    have inStream : none ∈ buffer.stream := List.mem_of_mem_drop (slice.subset ends)
    rw [tracks.stream, open_, streamOf, if_neg Bool.false_ne_true, List.append_nil] at inStream
    obtain ⟨_, _, same⟩ := List.mem_map.mp inStream
    cases same

/-- Bytes are written. -/
theorem write (tracks : Tracks isn written pcb buffer) {arg : Bytes} (writes : Writes pcb arg pcb')
    (settled : buffer.Settled) :
    ∃ buffer', Buffer.Steps buffer buffer' ∧ Tracks isn (written ++ arg) pcb' buffer' := by
  have open_ := tracks.accounted.open_of_takesData writes.state
  have noFin := tracks.noFin open_
  obtain ⟨data, rest, pbufs, filled, segments, whole, fills, consecutive, alike, -⟩ :=
    writes.taken
  have accounted := (writes.accounted tracks.accounted).1
  obtain ⟨buffer₁, steps, stream, sent, acked, inFlight, waiting⟩ : ∃ buffer₁,
      Buffer.Steps buffer buffer₁ ∧ buffer₁.stream = buffer.stream ++ data.map some ∧
      buffer₁.sent = buffer.sent ∧ buffer₁.acked = buffer.acked ∧
      buffer₁.inFlight = buffer.inFlight ∧
      List.Forall₂ (SndSeg.Tells isn) filled buffer₁.waiting := by
    have waiting := tracks.waiting
    generalize pcb.unsent = unsent at fills waiting noFin
    cases fills with
    | none => exact ⟨buffer, .refl, (List.append_nil _).symm, rfl, rfl, rfl, waiting⟩
    | @last front last grown _ _ grows =>
      obtain ⟨pieces, _, is, inFront, isLast⟩ := tells_append waiting
      obtain ⟨piece, _, tell, no, rfl⟩ := List.forall₂_cons_left_iff.mp isLast
      cases no
      have lastOpen := noFin last (List.mem_append_right _ List.mem_cons_self)
      have grownOpen : grown.has tcpFin = false := by
        rw [← lastOpen]
        exact congrArg (fun flags : UInt8 => decide (flags &&& tcpFin ≠ 0)) grows.flags
      have step : Buffer.Step buffer _ := .extend (data.map some) settled is
      refine ⟨_, .single step, rfl, rfl, rfl, rfl,
        List.rel_append inFront (.cons ⟨grows.seqno.trans tell.seqno, ?_⟩ .nil)⟩
      change piece.data ++ data.map some = grown.content
      rw [tell.data, content_of_noFin lastOpen, content_of_noFin grownOpen, grows.bytes,
        List.map_append]
  have place : pcb.sndLbb + UInt32.ofNat data.length = seqAt isn buffer₁.stream.length := by
    rw [tracks.lbb open_, stream, List.length_append, List.length_map]
    exact seqAt_seqAt isn _ _
  rw [place] at consecutive
  obtain ⟨pieces, tiles, some_, joins, tells⟩ := consecutive_pieces consecutive
  have step := @Buffer.Step.write _ buffer₁ pieces (by
    rw [List.length_append, joins, List.length_map]
    exact tiles) some_
  have all := steps.tail step
  have streams : buffer₁.stream ++ joined pieces = buffer.stream ++ arg.map some := by
    rw [stream, joins, whole, List.map_append, List.append_assoc]
  refine ⟨_, all, accounted, Buffer.Steps.sound all tracks.sound, ?_, fun _ => ?_, ?_, ?_, ?_, ?_⟩
  · change buffer₁.stream ++ joined pieces = _
    rw [streams, tracks.stream, writes.fin, open_, streamOf, streamOf, if_neg Bool.false_ne_true,
      List.append_nil, List.append_nil, List.map_append]
  · change _ = seqAt isn (buffer₁.stream ++ joined pieces).length
    rw [streams, List.length_append, List.length_map, writes.sndLbb, tracks.lbb open_]
    exact seqAt_seqAt isn _ _
  · rw [writes.sndNxt, tracks.nxt, ← sent]
  · rw [writes.lastack, tracks.lastack, ← acked]
  · rw [writes.unacked]
    change List.Forall₂ _ _ buffer₁.inFlight
    rw [inFlight]
    exact tracks.inFlight
  · exact tells_alike (List.rel_append waiting tells) alike

/-- The stream is ended. -/
theorem close (tracks : Tracks isn written pcb buffer) (closes : Closes pcb pcb')
    (settled : buffer.Settled) :
    ∃ buffer', Buffer.Step buffer buffer' ∧ Tracks isn written pcb' buffer' := by
  have open_ := tracks.accounted.open_of_takesData closes.state
  have noFin := tracks.noFin open_
  have stream : buffer.stream ++ [none] = streamOf written pcb'.fin := by
    rw [tracks.stream, closes.fin, open_]
    exact (List.append_assoc _ _ _)
  have accounted := (closes.accounted tracks.accounted).1
  have inFlight : List.Forall₂ (SndSeg.Tells isn) pcb'.unacked buffer.inFlight := by
    rw [closes.unacked]
    exact tracks.inFlight
  have ended : ∀ {length : Nat}, pcb'.fin = false → pcb'.sndLbb = seqAt isn length := by
    intro length isOpen
    rw [closes.fin] at isOpen
    cases isOpen
  obtain ⟨front, last, unsent, unsent', -⟩ | ⟨unsent', -⟩ := closes.queue
  · have waiting := tracks.waiting
    rw [unsent] at waiting
    obtain ⟨pieces, _, is, inFront, isLast⟩ := tells_append waiting
    obtain ⟨piece, _, tell, no, rfl⟩ := List.forall₂_cons_left_iff.mp isLast
    cases no
    have lastOpen := noFin last (by
      rw [unsent]
      exact List.mem_append_right _ List.mem_cons_self)
    have step : Buffer.Step buffer _ := .extend [none] settled is
    refine ⟨_, step, accounted, step.sound tracks.sound, stream, ended,
      closes.sndNxt.trans tracks.nxt, closes.lastack.trans tracks.lastack, inFlight, ?_⟩
    rw [unsent']
    refine List.rel_append inFront (.cons ⟨tell.seqno, ?_⟩ .nil)
    change piece.data ++ [none] = (last.setFlag tcpFin).content
    rw [tell.data, content_of_noFin lastOpen, SndSeg.content, last.has_fin_setFin]
    rfl
  · have noBytes : decide (tcpFin &&& tcpFin ≠ 0) = true := by decide
    have tiles : Tiles buffer.stream.length [⟨buffer.stream.length, [none]⟩]
        (buffer.stream ++ [none]).length := ⟨rfl, List.length_append.symm⟩
    have step : Buffer.Step buffer _ := .write tiles fun piece isIn => by
      rw [List.mem_singleton.mp isIn]
      exact List.cons_ne_nil _ _
    refine ⟨_, step, accounted, step.sound tracks.sound, stream, ended,
      closes.sndNxt.trans tracks.nxt, closes.lastack.trans tracks.lastack, inFlight, ?_⟩
    rw [unsent']
    refine List.rel_append tracks.waiting (.cons ⟨tracks.lbb open_, ?_⟩ .nil)
    change [none] = streamOf [] (decide (tcpFin &&& tcpFin ≠ 0))
    rw [noBytes]
    rfl

end Tracks

/-! ### What is sent -/

/-- A segment that goes out holds what the stream has at its number. -/
def Told (isn : UInt32) (stream : List (Option UInt8)) (seg : TcpSeg) : Prop :=
  ∃ place, seg.seqno = seqAt isn place ∧
    streamOf seg.p (seg.has tcpFin) <+: stream.drop place

theorem Told.grows {stream stream' : List (Option UInt8)} {seg : TcpSeg}
    (told : Told isn stream seg) (more : stream <+: stream') : Told isn stream' seg := by
  obtain ⟨place, seqno, slice⟩ := told
  exact ⟨place, seqno, slice.trans (more.drop place)⟩

/-- The first segment of `unsent` holds what the stream has at its number. -/
theorem Tracks.told (tracks : Tracks isn written pcb buffer) {seg : SndSeg} {rest : List SndSeg}
    (unsent : pcb.unsent = seg :: rest) : Told isn buffer.stream seg.wire := by
  obtain ⟨piece, _, _, tell, _, isIn, _⟩ := tracks.head unsent
  refine ⟨piece.start, tell.seqno, ?_⟩
  have slice := tracks.sound.slices piece isIn
  rw [tell.data] at slice
  exact slice

/-- So does the first byte of it, or the FIN if it has no byte. -/
theorem Tracks.told_probe (tracks : Tracks isn written pcb buffer) {seg : SndSeg}
    {rest : List SndSeg} (unsent : pcb.unsent = seg :: rest) :
    Told isn buffer.stream seg.windowProbe := by
  obtain ⟨piece, _, _, tell, _, isIn, valid⟩ := tracks.head unsent
  have slice := tracks.sound.slices piece isIn
  rw [tell.data] at slice
  refine ⟨piece.start, ?_, List.IsPrefix.trans ?_ slice⟩
  · unfold SndSeg.windowProbe
    split <;> exact tell.seqno
  · unfold SndSeg.windowProbe
    split
    case isTrue only =>
      have noBytes : seg.p.flatten = [] := List.eq_nil_of_length_eq_zero (by
        rw [valid.bytes, only.2]
        rfl)
      have fin : decide ((tcpAck ||| tcpFin) &&& tcpFin ≠ 0) = true := by decide
      change streamOf [] (decide ((tcpAck ||| tcpFin) &&& tcpFin ≠ 0)) <+: _
      rw [SndSeg.content, noBytes, only.1, fin]
    case isFalse notOnly =>
      have bytes : seg.p.flatten ≠ [] := by
        intro empty
        have zero := valid.bytes
        rw [empty] at zero
        have zero : seg.len = 0 := UInt16.toNat_inj.mp zero.symm
        rcases valid.notEmpty with some_ | fin
        · exact some_ zero
        · exact notOnly ⟨fin, zero⟩
      have noFin : decide (tcpAck &&& tcpFin ≠ 0) = false := by decide
      rw [SndSeg.content]
      cases flat : seg.p.flatten with
      | nil => exact absurd flat bytes
      | cons byte more =>
        change streamOf [byte] (decide (tcpAck &&& tcpFin ≠ 0)) <+: _
        rw [noFin]
        exact ⟨more.map some ++ if seg.has tcpFin then [none] else [], rfl⟩

theorem Tracks.withState (tracks : Tracks isn written pcb buffer) {state : TcpState}
    (stays : takesData pcb.state = false → takesData state = false) :
    Tracks isn written { pcb with state := state } buffer :=
  ⟨tracks.accounted.withState stays, tracks.sound, tracks.stream, tracks.lbb, tracks.nxt,
    tracks.lastack, tracks.inFlight, tracks.waiting⟩

/-- Sending follows the sender. -/
theorem Sends.tracks {sent : List TcpSeg} (sends : Sends pcb sent pcb')
    (tracks : Tracks isn written pcb buffer) :
    ∃ buffer', Buffer.Steps buffer buffer' ∧ Tracks isn written pcb' buffer' ∧
      ∀ seg ∈ sent, Told isn buffer.stream seg := by
  induction sends generalizing buffer with
  | done => exact ⟨buffer, .refl, tracks, fun _ isIn => (by cases isIn)⟩
  | quiet quiet _ inductionHypothesis => exact inductionHypothesis (tracks.quiet quiet)
  | @setAck pcb _ seg rest _ unsent _ inductionHypothesis =>
    have waiting := tracks.waiting
    rw [unsent] at waiting
    obtain ⟨piece, pieces, tell, later, is⟩ := List.forall₂_cons_left_iff.mp waiting
    refine inductionHypothesis ⟨((Sends.setAck unsent (.done _)).accounted tracks.accounted).1,
      tracks.sound, tracks.stream, tracks.lbb, tracks.nxt, tracks.lastack, tracks.inFlight, ?_⟩
    rw [is]
    exact .cons (tell.alike seg.alike_ack) later
  | first unsent _ inductionHypothesis =>
    have told := tracks.told unsent
    obtain ⟨buffer₁, step, stream, tracks₁⟩ := tracks.send unsent
    obtain ⟨buffer', steps, tracks', others⟩ := inductionHypothesis tracks₁
    rw [stream] at others
    refine ⟨buffer', steps.head step, tracks', fun other isIn => ?_⟩
    rcases List.mem_cons.mp isIn with rfl | later
    · exact told
    · exact others other later

/-- The slow timer follows the sender, unless it gives the connection up. -/
theorem SlowTimer.tracks {sent : List TcpSeg} (timer : SlowTimer pcb sent pcb')
    (tracks : Tracks isn written pcb buffer) (settled : buffer.Settled)
    (uncut : 0 < pcb.persistBackoff → pcb.sndWnd ≠ 0 →
      ∀ seg rest, pcb.unsent = seg :: rest → seg.has tcpFin = false) :
    pcb'.state = .closed ∨ ∃ buffer', Buffer.Steps buffer buffer' ∧
      Tracks isn written pcb' buffer' ∧ ∀ seg ∈ sent, Told isn buffer.stream seg := by
  cases timer with
  | gone closed => exact Or.inl closed
  | sends sends => exact Or.inr (sends.tracks tracks)
  | @probes _ _ seg rest unsent quiet once =>
    obtain ⟨buffer', step, _, tracks'⟩ := tracks.probed unsent
    refine Or.inr ⟨buffer', .single step, tracks'.quiet quiet, fun other isIn => ?_⟩
    rcases once with rfl | rfl
    · cases isIn
    · rw [List.mem_singleton.mp isIn]
      exact tracks.told_probe unsent
  | splits persists open_ unsent parts sends =>
    obtain ⟨buffer₁, step, stream, tracks₁⟩ :=
      tracks.cut unsent parts (uncut persists open_ _ _ unsent)
    obtain ⟨buffer', steps, tracks', told⟩ := sends.tracks tracks₁
    rw [stream] at told
    exact Or.inr ⟨buffer', steps.head step, tracks', told⟩
  | requeues sends =>
    obtain ⟨buffer₁, step, stream, tracks₁⟩ := tracks.requeued settled
    obtain ⟨buffer', steps, tracks', told⟩ := sends.tracks tracks₁
    rw [stream] at told
    exact Or.inr ⟨buffer', steps.head step, tracks', told⟩

/-- An acknowledgement follows the sender. -/
theorem AckTaken.tracks {ackno acked : UInt32} (taken : AckTaken pcb ackno acked pcb')
    (tracks : Tracks isn written pcb buffer) :
    ∃ buffer', Buffer.Steps buffer buffer' ∧ Tracks isn written pcb' buffer' := by
  cases taken with
  | old may =>
    obtain quiet | ⟨seg, rest, unacked, quiet⟩ := may
    · exact ⟨buffer, .refl, tracks.quiet quiet⟩
    · obtain ⟨buffer', step, -, tracks'⟩ := tracks.rexmitted unacked
      exact ⟨buffer', .single step, tracks'.quiet quiet⟩
  | new later known quiet count bytes =>
    obtain ⟨buffer', step, -, tracks'⟩ :=
      tracks.freed later known (tracks.accounted.freed count bytes)
    exact ⟨buffer', .single step, tracks'.quiet quiet⟩

/-- No segment waits to be sent in front of one that was sent. -/
def inOrder (pcb : TcpSnd) : Bool :=
  pcb.unacked.all fun seg => pcb.unsent.all fun other => tcpSeqLt seg.seqno other.seqno

/-- The persist timer would cut a segment with a FIN. -/
def cutsFin (pcb : TcpSnd) : Bool :=
  pcb.persistBackoff > 0 && pcb.sndWnd ≠ 0 &&
    (match pcb.unsent with
      | [] => false
      | seg :: _ => seg.has tcpFin)

theorem Tracks.settled (tracks : Tracks isn written pcb buffer) (ordered : pcb.inOrder = true) :
    buffer.Settled := by
  intro piece flying other waits
  obtain ⟨seg, segIn, tell⟩ := tells_of_mem tracks.inFlight flying
  obtain ⟨seg', segIn', tell'⟩ := tells_of_mem tracks.waiting waits
  have before := List.all_eq_true.mp (List.all_eq_true.mp ordered seg segIn) seg' segIn'
  obtain ⟨low, -, starts, span⟩ := tracks.span
  have isIn := Buffer.Sound.kept_inFlight buffer piece flying
  have otherIn := Buffer.Sound.kept_waiting buffer other waits
  have stop := tracks.sound.stop_le piece isIn
  have otherStop := tracks.sound.stop_le other otherIn
  rw [Piece.stop] at stop otherStop
  rw [tell.seqno, tell'.seqno, tcpSeqLt_seqAt (Tracks.near_of_span span (starts piece isIn)
    (by omega) (starts other otherIn) (by omega))] at before
  exact of_decide_eq_true before

end TcpSnd

/-! ### Runs -/

namespace SndRun

variable {run : SndRun} {isn : UInt32}

/-- The connection follows a sender that has started with nothing, and all that was sent holds what
the stream has at its number. -/
structure Follows (isn : UInt32) (run : SndRun) : Prop where
  told : ∀ seg ∈ run.sent, TcpSnd.Told isn (streamOf run.written run.pcb.fin) seg
  tracks : ∃ buffer, Buffer.Steps ⟨[], 0, 0, [], []⟩ buffer ∧
    TcpSnd.Tracks isn run.written run.pcb buffer

/-- What must not happen: data or the end of the stream is put behind a segment that waits to be
sent again, or the retransmission timer puts later segments in front of it; and the persist timer
cuts a segment with a FIN. -/
def orderly (run : SndRun) : SndEvent → Prop
  | .write _ _ | .close _ => run.pcb.inOrder = true
  | .slowtmr .. => run.pcb.inOrder = true ∧ run.pcb.cutsFin = false
  | _ => True

instance (run : SndRun) (event : SndEvent) : Decidable (run.orderly event) :=
  match event with
  | .write _ _ | .close _ => inferInstanceAs (Decidable (_ = _))
  | .slowtmr .. => inferInstanceAs (Decidable (_ ∧ _))
  | .output .. | .ack .. | .pcbRemove => inferInstanceAs (Decidable True)

/-- The sender goes on, and what it sends holds what its stream has. -/
theorem Follows.goesOn (follows : run.Follows isn) {buffer buffer' : Buffer (Option UInt8)}
    (reached : Buffer.Steps ⟨[], 0, 0, [], []⟩ buffer)
    (before : TcpSnd.Tracks isn run.written run.pcb buffer) (steps : Buffer.Steps buffer buffer')
    {run' : SndRun} (tracks : TcpSnd.Tracks isn run'.written run'.pcb buffer')
    {sent : List TcpSeg} (log : run'.sent = run.sent ++ sent)
    (told : ∀ seg ∈ sent, TcpSnd.Told isn buffer.stream seg) : run'.Follows isn where
  told seg isIn := by
    have more := (Buffer.Steps.grows steps).1
    rw [tracks.stream] at more
    rw [log] at isIn
    rcases List.mem_append.mp isIn with old | new
    · have before_ := follows.told seg old
      rw [← before.stream] at before_
      exact before_.grows more
    · exact (told seg new).grows more
  tracks := ⟨buffer', reached.trans steps, tracks⟩

theorem Follows.write (follows : run.Follows isn) {arg : Bytes} (short : arg.length < 2 ^ 16)
    (mem : Nat → Bool) (ordered : run.pcb.inOrder = true) :
    (run.step (.write arg mem)).Follows isn := by
  obtain ⟨buffer, reached, tracks⟩ := follows.tracks
  have nothing : ∀ seg ∈ ([] : List TcpSeg), TcpSnd.Told isn buffer.stream seg :=
    fun _ isIn => (by cases isIn)
  unfold step
  dsimp only
  split
  · exact ⟨follows.told, follows.tracks⟩
  case h_2 pcb writes =>
    obtain ⟨notOk, -⟩ | ⟨-, writes⟩ :=
      TcpSnd.tcpWrite_spec tracks.accounted.unsent_valid tracks.accounted.mss short writes
    · exact absurd rfl notOk
    · obtain ⟨buffer', steps, tracks'⟩ := tracks.write writes (tracks.settled ordered)
      exact follows.goesOn reached tracks steps tracks' (List.append_nil _).symm nothing
  case h_3 pcb err notOk writes =>
    obtain ⟨-, quiet⟩ | ⟨isOk, -⟩ :=
      TcpSnd.tcpWrite_spec tracks.accounted.unsent_valid tracks.accounted.mss short writes
    · exact follows.goesOn reached tracks .refl (tracks.quiet quiet) (List.append_nil _).symm
        nothing
    · exact absurd isOk notOk

theorem Follows.close (follows : run.Follows isn) (mem : Bool)
    (ordered : run.pcb.inOrder = true) : (run.step (.close mem)).Follows isn := by
  obtain ⟨buffer, reached, tracks⟩ := follows.tracks
  have nothing : ∀ seg ∈ ([] : List TcpSeg), TcpSnd.Told isn buffer.stream seg :=
    fun _ isIn => (by cases isIn)
  obtain ⟨pcb, closes, what⟩ := TcpSnd.tcpCloseShutdownFin_spec run.pcb mem
  have is : run.step (.close mem) = { run with pcb := pcb } := by
    unfold step
    dsimp only
    rw [closes]
  rw [is]
  rcases what with quiet | closes
  · exact follows.goesOn reached tracks .refl (tracks.quiet quiet) (List.append_nil _).symm nothing
  · obtain ⟨buffer', step, tracks'⟩ := tracks.close closes (tracks.settled ordered)
    exact follows.goesOn reached tracks (.single step) tracks' (List.append_nil _).symm nothing

theorem Follows.output (follows : run.Follows isn) (ticks : UInt32) (ok : Nat → Bool)
    (ackNow : Option AckOutcome) : (run.step (.output ticks ok ackNow)).Follows isn := by
  obtain ⟨buffer, reached, tracks⟩ := follows.tracks
  obtain ⟨pcb, sent, err, output, sends⟩ :=
    TcpSnd.tcpOutput_spec run.pcb ticks ok ackNow tracks.accounted.unsent_valid
  have is : run.step (.output ticks ok ackNow) =
      { run with pcb := pcb, sent := run.sent ++ sent } := by
    unfold step
    dsimp only
    rw [output]
  rw [is]
  obtain ⟨buffer', steps, tracks', told⟩ := sends.tracks tracks
  exact follows.goesOn reached tracks steps tracks' rfl told

theorem Follows.slowtmr (follows : run.Follows isn) (mem : Bool) (ticks : UInt32)
    (ok : Nat → Bool) (ackNow : Option AckOutcome) (ordered : run.pcb.inOrder = true)
    (uncut : run.pcb.cutsFin = false) :
    (run.step (.slowtmr mem ticks ok ackNow)).ended = true ∨
      (run.step (.slowtmr mem ticks ok ackNow)).Follows isn := by
  obtain ⟨buffer, reached, tracks⟩ := follows.tracks
  unfold step
  dsimp only
  split
  · exact Or.inr ⟨follows.told, follows.tracks⟩
  case h_2 pcb sent runs =>
    have timer := TcpSnd.tcpSlowtmr_spec tracks.accounted.unacked_valid
      tracks.accounted.unsent_valid runs
    have whole : 0 < run.pcb.persistBackoff → run.pcb.sndWnd ≠ 0 →
        ∀ seg rest, run.pcb.unsent = seg :: rest → seg.has tcpFin = false := by
      intro persists open_ seg rest unsent
      simpa [TcpSnd.cutsFin, persists, open_, unsent] using uncut
    rcases timer.tracks tracks (tracks.settled ordered) whole with
      closed | ⟨buffer', steps, tracks', told⟩
    · exact Or.inl (by simp [ended, closed])
    · exact Or.inr (follows.goesOn reached tracks steps tracks' rfl told)

theorem Follows.ack (follows : run.Follows isn) (seqno ackno : UInt32) (wnd : UInt16)
    (tcplen : UInt32) (mss : Option UInt16) (gotFin : Bool) (ticks : UInt32) :
    (run.step (.ack seqno ackno wnd tcplen mss gotFin ticks)).ended = true ∨
      (run.step (.ack seqno ackno wnd tcplen mss gotFin ticks)).Follows isn := by
  obtain ⟨buffer, reached, tracks⟩ := follows.tracks
  obtain ⟨pcb, acked, pcb₁, processed, takes, -, what⟩ :=
    TcpSnd.processAck_spec tracks.accounted seqno ackno wnd tcplen mss gotFin ticks
  have is : run.step (.ack seqno ackno wnd tcplen mss gotFin ticks) =
      { run with pcb := pcb, acked := run.acked + acked.toNat } := by
    unfold step
    dsimp only
    rw [processed]
  rw [is]
  rcases what with timeWait | closed | ⟨state, rfl, stays⟩
  · exact Or.inl (by simp [ended, timeWait])
  · exact Or.inl (by simp [ended, closed])
  · obtain ⟨buffer', steps, tracks'⟩ := takes.tracks tracks
    exact Or.inr (follows.goesOn reached tracks steps (tracks'.withState stays)
      (List.append_nil _).symm fun _ isIn => (by cases isIn))

/-- Every event that is in order lets the sender go on. -/
theorem Follows.step (follows : run.Follows isn) {event : SndEvent} (enabled : run.enabled event)
    (orderly : run.orderly event) :
    (run.step event).ended = true ∨ (run.step event).Follows isn := by
  cases event with
  | write arg mem => exact Or.inr (follows.write enabled.2.2 mem orderly)
  | close mem => exact Or.inr (follows.close mem orderly)
  | output ticks ok ackNow => exact Or.inr (follows.output ticks ok ackNow)
  | ack seqno ackno wnd tcplen mss gotFin ticks =>
    exact follows.ack seqno ackno wnd tcplen mss gotFin ticks
  | slowtmr mem ticks ok ackNow => exact follows.slowtmr mem ticks ok ackNow orderly.1 orderly.2
  | pcbRemove => exact Or.inl rfl

/-- A connection that has sent nothing follows the sender from its start. -/
theorem follows_init {start : TcpSnd} (fresh : start.Fresh) (nxt : start.sndNxt = start.sndLbb)
    (lastack : start.lastack = start.sndLbb) : (init start).Follows start.sndLbb where
  told seg isIn := by cases isIn
  tracks := by
    refine ⟨_, .refl, fresh.accounted, Buffer.Sound.empty, ?_, fun _ => ?_, ?_, ?_, ?_, ?_⟩
    · change [] = streamOf [] start.fin
      rw [fresh.fin]
      rfl
    · exact (seqAt_zero _).symm
    · exact nxt.trans (seqAt_zero _).symm
    · exact lastack.trans (seqAt_zero _).symm
    · rw [show (init start).pcb.unacked = [] from fresh.unacked]
      exact .nil
    · rw [show (init start).pcb.unsent = [] from fresh.unsent]
      exact .nil

theorem follows_run {start : TcpSnd} (fresh : start.Fresh) (nxt : start.sndNxt = start.sndLbb)
    (lastack : start.lastack = start.sndLbb) {events : List SndEvent}
    (guarded : sndSystem.Guarded orderly (.init start) events)
    (inUse : (sndSystem.run events (.init start)).ended = false) :
    (sndSystem.run events (.init start)).Follows start.sndLbb := by
  have holds : (sndSystem.run events (.init start)).ended = true ∨
      (sndSystem.run events (.init start)).Follows start.sndLbb := by
    refine sndSystem.guarded_induction (fun run => run.ended = true ∨ run.Follows start.sndLbb)
      ?_ guarded (Or.inr (follows_init fresh nxt lastack))
    intro run event enabled orderly before
    rcases before with atEnd | follows
    · rw [enabled_not_ended enabled] at atEnd
      cases atEnd
    · exact follows.step enabled orderly
  rcases holds with atEnd | follows
  · rw [inUse] at atEnd
    cases atEnd
  · exact follows

end SndRun

/-- What a queue holds, in the order of its pieces. -/
theorem joined_tells {isn : UInt32} {segs : List SndSeg} {pieces : List (Piece (Option UInt8))}
    (tells : List.Forall₂ (SndSeg.Tells isn) segs pieces) :
    joined pieces = segs.flatMap SndSeg.content := by
  induction tells with
  | nil => rfl
  | cons first _ inductionHypothesis =>
    rw [List.flatMap_cons, joined, List.flatMap_cons, first.data]
    exact congrArg (_ ++ ·) inductionHypothesis

/-- The first of two segments is to be sent again after three duplicate acknowledgements, but the IP
layer does not take it; then more is written, while the second one is still in flight. -/
def writtenBehindResent : List SndEvent :=
  [.write [1, 2, 3] fun _ => true, .output 1 (fun _ => true) none,
    .write [4, 5, 6, 7] fun _ => true, .output 1 (fun _ => true) none,
    .ack 100 6511 8760 0 none false 2, .ack 100 6511 8760 0 none false 2,
    .ack 100 6511 8760 0 none false 2, .output 2 (fun _ => false) none, .write [8] fun _ => true,
    .output 3 (fun _ => true) none]

/-- What is written then is put behind the first segment, so it is sent at the number of what the
second one holds. -/
theorem written_behind_resent :
    let run := sndSystem.run writtenBehindResent (.init { sampleSnd with mss := 4 })
    sndSystem.Legal (.init { sampleSnd with mss := 4 }) writtenBehindResent ∧
      ∃ seg ∈ run.sent, ¬ TcpSnd.Told 6511 (streamOf run.written run.pcb.fin) seg := by
  have stream : streamOf (sndSystem.run writtenBehindResent
      (.init { sampleSnd with mss := 4 })).written (sndSystem.run writtenBehindResent
      (.init { sampleSnd with mss := 4 })).pcb.fin = streamOf [1, 2, 3, 4, 5, 6, 7, 8] false := by
    decide +kernel
  have fin : decide ((tcpPsh ||| tcpAck) &&& tcpFin ≠ 0) = false := by decide
  refine ⟨by decide +kernel, ⟨6511, tcpPsh ||| tcpAck, 4, [1, 2, 3, 8]⟩, by decide +kernel, ?_⟩
  rintro ⟨place, seqno, slice⟩
  rw [stream] at slice
  change streamOf [1, 2, 3, 8] (decide ((tcpPsh ||| tcpAck) &&& tcpFin ≠ 0)) <+: _ at slice
  rw [fin] at slice
  by_cases wraps : place < 2 ^ 32
  · have first : place = 0 := seqAt_inj_of_lt (Nat.zero_le place) (by omega)
      (seqno.symm.trans (seqAt_zero 6511).symm)
    rw [first] at slice
    exact absurd slice (by decide)
  · have length : (streamOf [1, 2, 3, 4, 5, 6, 7, 8] false).length = 8 := by decide
    rw [List.drop_eq_nil_of_le (by omega), List.prefix_nil] at slice
    exact absurd slice (by decide)

end Net2Tr
