/-
This file proves that lwIP puts the stream of a client together again, whatever
the network does to its segments.

Every number is taken as a position: the number of steps from the first sequence
number of the connection to it. What a segment says is a predicate of its
position, its bytes and its FIN, and the proofs only use that the predicate
carries over to the cuts and merges that `tcp_receive` makes. With the predicate
that the bytes are those of a stream this gives the order of what is delivered;
with the one that always holds it gives the shape of the queue for a peer that
sends anything.
-/

import Libn2t.TcpReceive

namespace Net2Tr

/-! ### Positions -/

/-- The sequence number at a position. -/
def seqAt (isn : UInt32) (position : Nat) : UInt32 := isn + UInt32.ofNat position

theorem seqAt_zero (isn : UInt32) : seqAt isn 0 = isn :=
  UInt32.toBitVec_inj.mp (Serial.advance_zero isn.toBitVec)

theorem seqAt_seqAt (isn : UInt32) (m n : Nat) : seqAt (seqAt isn m) n = seqAt isn (m + n) :=
  UInt32.toBitVec_inj.mp (Serial.advance_advance isn.toBitVec m n)

theorem seqAt_add (isn : UInt32) (m : Nat) (n : UInt32) :
    seqAt isn m + n = seqAt isn (m + n.toNat) := by
  rw [← seqAt_seqAt]
  exact congrArg (seqAt isn m + ·) UInt32.ofNat_toNat.symm

theorem seqAt_add_one (isn : UInt32) (m : Nat) : seqAt isn m + 1 = seqAt isn (m + 1) :=
  seqAt_add isn m 1

theorem seqAt_wrap (isn : UInt32) (m : Nat) : seqAt isn (m + 2 ^ 32) = seqAt isn m := by
  have wraps : UInt32.ofNat (m + 2 ^ 32) = UInt32.ofNat m := by
    rw [← UInt32.toNat_inj, UInt32.toNat_ofNat', UInt32.toNat_ofNat', Nat.add_mod_right]
  rw [seqAt, wraps, seqAt]

theorem seqAt_sub {m n : Nat} (isn : UInt32) (later : n ≤ m) :
    seqAt isn m - seqAt isn n = UInt32.ofNat (m - n) :=
  UInt32.toBitVec_inj.mp (Serial.advance_sub isn.toBitVec later)

/-- Positions that are less than the sequence space apart have different numbers. -/
theorem seqAt_inj_of_lt {m n : Nat} {isn : UInt32} (later : n ≤ m) (near : m < n + 2 ^ 32)
    (same : seqAt isn m = seqAt isn n) : m = n := by
  have zero := congrArg UInt32.toNat (seqAt_sub isn later)
  rw [same, UInt32.sub_self, UInt32.toNat_ofNat'] at zero
  change 0 = _ at zero
  omega

theorem seqAt_sub_one {m : Nat} (isn : UInt32) (positive : 0 < m) :
    seqAt isn m - 1 = seqAt isn (m - 1) := by
  have split := seqAt_add_one isn (m - 1)
  rw [Nat.sub_add_cancel positive] at split
  rw [← split, UInt32.add_sub_cancel]

theorem toNat_min (a b : UInt32) : (min a b).toNat = min a.toNat b.toNat := by
  change (if a ≤ b then a else b).toNat = _
  split
  case isTrue le => exact (Nat.min_eq_left (UInt32.le_iff_toNat_le.mp le)).symm
  case isFalse more =>
    rw [UInt32.le_iff_toNat_le] at more
    exact (Nat.min_eq_right (Nat.le_of_not_le more)).symm

section Near

variable {isn : UInt32} {m n : Nat}

theorem seqDiff_seqAt (near : Serial.Near 32 m n) :
    seqDiff (seqAt isn m) (seqAt isn n) = (m : Int) - n :=
  Serial.difference_advance isn.toBitVec near

theorem seqAt_inj (near : Serial.Near 32 m n) : seqAt isn m = seqAt isn n ↔ m = n := by
  rw [← UInt32.toBitVec_inj]
  exact Serial.advance_inj near

theorem tcpSeqLt_seqAt (near : Serial.Near 32 m n) :
    tcpSeqLt (seqAt isn m) (seqAt isn n) = decide (m < n) := by
  rw [tcpSeqLt, seqDiff_seqAt near, decide_eq_decide]
  omega

theorem tcpSeqLeq_seqAt (near : Serial.Near 32 m n) :
    tcpSeqLeq (seqAt isn m) (seqAt isn n) = decide (m ≤ n) := by
  rw [tcpSeqLeq, seqDiff_seqAt near, decide_eq_decide]
  omega

theorem tcpSeqGt_seqAt (near : Serial.Near 32 m n) :
    tcpSeqGt (seqAt isn m) (seqAt isn n) = decide (n < m) := by
  rw [tcpSeqGt, seqDiff_seqAt near, decide_eq_decide]
  omega

theorem tcpSeqGeq_seqAt (near : Serial.Near 32 m n) :
    tcpSeqGeq (seqAt isn m) (seqAt isn n) = decide (n ≤ m) := by
  rw [tcpSeqGeq, seqDiff_seqAt near, decide_eq_decide]
  omega

theorem tcpSeqBetween_seqAt {k : Nat} (low : Serial.Near 32 m n) (high : Serial.Near 32 m k) :
    tcpSeqBetween (seqAt isn m) (seqAt isn n) (seqAt isn k) = decide (n ≤ m ∧ m ≤ k) := by
  rw [tcpSeqBetween, tcpSeqGeq_seqAt low, tcpSeqLeq_seqAt high, Bool.decide_and]

end Near

/-! ### The flags of a segment -/

namespace TcpSeg

variable (seg : TcpSeg)

theorem has_fin_setFlag : (seg.setFlag tcpFin).has tcpFin = true := by
  have bits : ∀ flags : BitVec 8, (flags ||| 1) &&& 1 ≠ 0 := by decide
  exact decide_eq_true fun zero => bits seg.flags.toBitVec (congrArg UInt8.toBitVec zero)

theorem has_syn_setFlag : (seg.setFlag tcpFin).has tcpSyn = seg.has tcpSyn := by
  have bits : ∀ flags : BitVec 8, (flags ||| 1) &&& 2 = flags &&& 2 := by decide
  have same : (seg.flags ||| tcpFin) &&& tcpSyn = seg.flags &&& tcpSyn :=
    UInt8.toBitVec_inj.mp (bits seg.flags.toBitVec)
  rw [has, has, setFlag, same]

/-- The segment without its FIN. -/
def dropFin : TcpSeg := { seg with flags := seg.flags &&& ~~~tcpFin }

theorem has_fin_dropFin : seg.dropFin.has tcpFin = false := by
  have bits : ∀ flags : BitVec 8, flags &&& ~~~1 &&& 1 = 0 := by decide
  have zero : seg.flags &&& ~~~tcpFin &&& tcpFin = 0 :=
    UInt8.toBitVec_inj.mp (bits seg.flags.toBitVec)
  exact decide_eq_false fun nonzero => nonzero zero

theorem has_syn_dropFin : seg.dropFin.has tcpSyn = seg.has tcpSyn := by
  have bits : ∀ flags : BitVec 8, flags &&& ~~~1 &&& 2 = flags &&& 2 := by decide
  have same : seg.flags &&& ~~~tcpFin &&& tcpSyn = seg.flags &&& tcpSyn :=
    UInt8.toBitVec_inj.mp (bits seg.flags.toBitVec)
  rw [has, has, dropFin, same]

/-- The number of sequence numbers of a segment without SYN. -/
def span : Nat := seg.p.length + if seg.has tcpFin then 1 else 0

end TcpSeg

/-! ### Segments at a position -/

/-- A predicate of a position, the bytes behind it and a FIN behind these that carries over when a
segment is cut or merged with what it covers, and when one is put behind another. -/
structure StreamLike (content : Nat → Bytes → Bool → Prop) : Prop where
  cutBack : ∀ {p data fin} (k), content p data fin → content p (data.take k) false
  cutFront : ∀ {p data fin k}, k ≤ data.length → content p data fin →
    content (p + k) (data.drop k) fin
  merge : ∀ {p data q later}, q + later.length ≤ p + data.length → content p data false →
    content q later true → content p data true
  join : ∀ {p data later fin}, content p data false → content (p + data.length) later fin →
    content p (data ++ later) fin

/-- A segment that starts at a position. -/
structure Placed (isn : UInt32) (content : Nat → Bytes → Bool → Prop) (p : Nat) (seg : TcpSeg) :
    Prop where
  seqno : seg.seqno = seqAt isn p
  len : seg.p.length = seg.len.toNat
  noSyn : seg.has tcpSyn = false
  content : content p seg.p (seg.has tcpFin)

/-- The segments of a queue follow one another without overlap, from one position on, and start
below another; none is empty, and only the last one has a FIN. -/
def Queued (isn : UInt32) (content : Nat → Bytes → Bool → Prop) (hi : Nat) :
    Nat → List TcpSeg → Prop
  | _, [] => True
  | lo, seg :: rest =>
    ∃ p, lo ≤ p ∧ p < hi ∧ Placed isn content p seg ∧ 0 < seg.span ∧
      (seg.has tcpFin = true → rest = []) ∧ Queued isn content hi (p + seg.p.length) rest

section Segments

variable {isn : UInt32} {content : Nat → Bytes → Bool → Prop} {p hi lo : Nat} {seg : TcpSeg}

namespace Placed

theorem length_lt (placed : Placed isn content p seg) : seg.p.length < 2 ^ 16 := by
  rw [placed.len]
  exact seg.len.toNat_lt

theorem dataEnd (placed : Placed isn content p seg) :
    seg.dataEnd = seqAt isn (p + seg.p.length) := by
  rw [TcpSeg.dataEnd, placed.seqno, seqAt_add, UInt16.toNat_toUInt32, placed.len]

theorem tcplen (placed : Placed isn content p seg) : seg.tcplen.toNat = seg.span := by
  have short := seg.len.toNat_lt
  rw [TcpSeg.tcplen, TcpSeg.span, placed.noSyn, placed.len]
  cases seg.has tcpFin with
  | false => simp
  | true =>
    simp only [true_or, if_true, UInt32.toNat_add, UInt16.toNat_toUInt32]
    change (seg.len.toNat + 1) % 2 ^ 32 = _
    omega

theorem seqno_add_tcplen (placed : Placed isn content p seg) :
    seg.seqno + seg.tcplen = seqAt isn (p + seg.span) := by
  rw [placed.seqno, seqAt_add, placed.tcplen]

/-- The bytes up to a length, without the FIN. -/
theorem realloc (stream : StreamLike content) (placed : Placed isn content p seg) {len : UInt16}
    (fits : len.toNat ≤ seg.p.length) (noFin : seg.has tcpFin = false) :
    Placed isn content p (seg.realloc len) where
  seqno := placed.seqno
  len := List.length_take_of_le fits
  noSyn := placed.noSyn
  content := by
    change content p (seg.p.take len.toNat) (seg.has tcpFin)
    rw [noFin]
    exact stream.cutBack _ placed.content

/-- The bytes up to a position. -/
theorem trimTo (stream : StreamLike content) (placed : Placed isn content p seg) {q : Nat}
    (after : p ≤ q) (within : q ≤ p + seg.p.length) (noFin : seg.has tcpFin = false) :
    Placed isn content p (seg.trimTo (seqAt isn q)) ∧
      (seg.trimTo (seqAt isn q)).p.length = q - p := by
  have short := placed.length_lt
  have len : (seqAt isn q - seg.seqno).toUInt16.toNat = q - p := by
    rw [placed.seqno, seqAt_sub isn after, UInt32.toNat_toUInt16, UInt32.toNat_ofNat']
    omega
  rw [TcpSeg.trimTo]
  refine ⟨placed.realloc stream (by omega) noFin, ?_⟩
  exact (List.length_take_of_le (by omega)).trans len

theorem setFin (placed : Placed isn content p seg) (fin : content p seg.p true) :
    Placed isn content p (seg.setFlag tcpFin) where
  seqno := placed.seqno
  len := placed.len
  noSyn := seg.has_syn_setFlag.trans placed.noSyn
  content := by
    rw [seg.has_fin_setFlag]
    exact fin

theorem dropFin (stream : StreamLike content) (placed : Placed isn content p seg) :
    Placed isn content p seg.dropFin where
  seqno := placed.seqno
  len := placed.len
  noSyn := seg.has_syn_dropFin.trans placed.noSyn
  content := by
    have whole := stream.cutBack seg.p.length placed.content
    rw [List.take_length] at whole
    rw [seg.has_fin_dropFin]
    exact whole

theorem noFin_content (placed : Placed isn content p seg) (noFin : seg.has tcpFin = false) :
    content p seg.p false := by
  have own := placed.content
  rwa [noFin] at own

/-- A segment takes over the FIN of a segment it covers. -/
theorem absorb (stream : StreamLike content) (placed : Placed isn content p seg)
    (noFin : seg.has tcpFin = false) (span : 0 < seg.span) {q : Nat} {next : TcpSeg}
    (nextPlaced : Placed isn content q next)
    (covered : q + next.p.length ≤ p + seg.p.length) {merged : TcpSeg}
    (is : merged = if next.has tcpFin then seg.setFlag tcpFin else seg) :
    Placed isn content p merged ∧ 0 < merged.span ∧ merged.has tcpFin = next.has tcpFin ∧
      merged.p = seg.p := by
  subst is
  cases nextFin : next.has tcpFin with
  | false => exact ⟨placed, span, noFin, rfl⟩
  | true =>
    have fin := nextPlaced.content
    rw [nextFin] at fin
    refine ⟨placed.setFin (stream.merge covered (placed.noFin_content noFin) fin), ?_,
      seg.has_fin_setFlag, rfl⟩
    change 0 < (seg.setFlag tcpFin).span
    rw [TcpSeg.span, seg.has_fin_setFlag]
    exact Nat.succ_pos _

end Placed

namespace Queued

/-- The bounds of a queue can be relaxed. -/
theorem mono {queue : List TcpSeg} {lo' hi' : Nat} (queued : Queued isn content hi lo queue)
    (below : lo' ≤ lo) (above : hi ≤ hi') : Queued isn content hi' lo' queue := by
  induction queue generalizing lo lo' with
  | nil => trivial
  | cons seg rest inductionHypothesis =>
    obtain ⟨p, from_lo, below_hi, placed, span, last, behind⟩ := queued
    exact ⟨p, below.trans from_lo, below_hi.trans_le above, placed, span, last,
      inductionHypothesis behind le_rfl⟩

/-- Less can be said of the segments. -/
theorem imp {content' : Nat → Bytes → Bool → Prop}
    (weaker : ∀ {p data fin}, content p data fin → content' p data fin) {queue : List TcpSeg}
    (queued : Queued isn content hi lo queue) : Queued isn content' hi lo queue := by
  induction queue generalizing lo with
  | nil => trivial
  | cons seg rest inductionHypothesis =>
    obtain ⟨p, from_lo, below_hi, placed, span, last, behind⟩ := queued
    exact ⟨p, from_lo, below_hi, ⟨placed.seqno, placed.len, placed.noSyn, weaker placed.content⟩,
      span, last, inductionHypothesis behind⟩

theorem singleton (placed : Placed isn content p seg) (from_lo : lo ≤ p) (below_hi : p < hi)
    (span : 0 < seg.span) : Queued isn content hi lo [seg] :=
  ⟨p, from_lo, below_hi, placed, span, fun _ => rfl, trivial⟩

/-- A segment with bytes is put in front of a queue that starts behind it. -/
theorem cons {queue : List TcpSeg} (placed : Placed isn content p seg) (below : p < hi)
    (span : 0 < seg.span) (noFin : seg.has tcpFin = false)
    (queued : Queued isn content hi (p + seg.p.length) queue) :
    Queued isn content hi p (seg :: queue) := by
  refine ⟨p, le_rfl, below, placed, span, fun fin => ?_, queued⟩
  rw [noFin] at fin
  cases fin

/-- The new segment loses what the next one has, and covered segments disappear. -/
theorem insertLoop (stream : StreamLike content) {queue : List TcpSeg} (wide : hi < p + 2 ^ 30)
    (placed : Placed isn content p seg) (below : p < hi) (span : 0 < seg.span)
    (queued : Queued isn content hi (p + 1) queue) (last : seg.has tcpFin = true → queue = []) :
    Queued isn content hi p (oosInsertLoop seg queue) := by
  induction queue generalizing seg with
  | nil => exact singleton placed le_rfl below span
  | cons next rest inductionHypothesis =>
    obtain ⟨q, after, nextBelow, nextPlaced, nextSpan, nextLast, behind⟩ := queued
    have noFin : seg.has tcpFin = false := Bool.eq_false_iff.mpr fun fin => by cases last fin
    have short := placed.length_lt
    have nextShort := nextPlaced.length_lt
    rw [oosInsertLoop, placed.dataEnd, nextPlaced.dataEnd, nextPlaced.seqno,
      tcpSeqGeq_seqAt ⟨by omega, by omega⟩, tcpSeqGt_seqAt ⟨by omega, by omega⟩]
    simp only [decide_eq_true_eq]
    by_cases covered : q + next.p.length ≤ p + seg.p.length
    · rw [if_pos covered]
      have restQueued := behind.mono (show p + 1 ≤ q + next.p.length by omega) le_rfl
      obtain ⟨merged, mergedSpan, fin, _⟩ :=
        placed.absorb stream noFin span nextPlaced covered rfl
      exact inductionHypothesis merged mergedSpan restQueued fun isFin =>
        nextLast (fin.symm.trans isFin)
    · rw [if_neg covered]
      have nextQueued : ∀ {lo}, lo ≤ q → Queued isn content hi lo (next :: rest) :=
        fun le => ⟨q, le, nextBelow, nextPlaced, nextSpan, nextLast, behind⟩
      by_cases overlap : q < p + seg.p.length
      · rw [if_pos overlap]
        obtain ⟨trimmed, length⟩ := placed.trimTo stream (by omega) overlap.le noFin
        refine cons trimmed below ?_ noFin (nextQueued (by omega))
        rw [TcpSeg.span]
        omega
      · rw [if_neg overlap]
        exact cons placed below span noFin (nextQueued (by omega))

/-- A new segment that starts before or with a queue is inserted in front of it. It is longer than
a segment that starts with it. -/
theorem insertSegment (stream : StreamLike content) {queue : List TcpSeg}
    (wide : hi < p + 2 ^ 30) (placed : Placed isn content p seg) (below : p < hi)
    (span : 0 < seg.span) (queued : Queued isn content hi p queue)
    (longer : ∀ next ∈ queue.head?, next.seqno = seg.seqno → next.p.length < seg.p.length) :
    Queued isn content hi p (tcpOosInsertSegment seg queue) := by
  rw [tcpOosInsertSegment]
  by_cases fin : seg.has tcpFin = true
  · rw [if_pos fin]
    exact singleton placed le_rfl below span
  · rw [if_neg fin]
    cases queue with
    | nil => exact singleton placed le_rfl below span
    | cons next rest =>
      obtain ⟨q, after, nextBelow, nextPlaced, nextSpan, nextLast, behind⟩ := queued
      rcases after.lt_or_eq with before | same
      · exact insertLoop stream wide placed below span
          ⟨q, before, nextBelow, nextPlaced, nextSpan, nextLast, behind⟩ fun isFin =>
            absurd isFin fin
      · -- the next segment starts with the new one, which covers it
        subst same
        have covered : next.p.length < seg.p.length :=
          longer next rfl (nextPlaced.seqno.trans placed.seqno.symm)
        have short := placed.length_lt
        rw [oosInsertLoop, placed.dataEnd, nextPlaced.dataEnd,
          tcpSeqGeq_seqAt ⟨by omega, by omega⟩, if_pos (decide_eq_true (by omega))]
        rw [Bool.not_eq_true] at fin
        obtain ⟨merged, mergedSpan, mergedFin, _⟩ :=
          placed.absorb stream fin span nextPlaced (by omega) rfl
        have restQueued : Queued isn content hi (p + 1) rest := by
          cases nextFin : next.has tcpFin with
          | false =>
            rw [TcpSeg.span, nextFin] at nextSpan
            exact behind.mono (Nat.add_le_add_left nextSpan p) le_rfl
          | true =>
            rw [nextLast nextFin]
            trivial
        exact insertLoop stream wide merged below mergedSpan restQueued fun isFin =>
          nextLast (mergedFin.symm.trans isFin)

/-- The segment in front of a new one is cut where the new one starts. -/
theorem trimPrev (stream : StreamLike content) {before : TcpSeg} {p₀ : Nat} {queue : List TcpSeg}
    (wide : hi < lo + 2 ^ 30) (from_lo : lo ≤ p₀) (earlier : p₀ < p) (below : p < hi)
    (placed : Placed isn content p₀ before) (span : 0 < before.span)
    (noFin : before.has tcpFin = false) (queued : Queued isn content hi p queue) :
    Queued isn content hi lo (Net2Tr.trimPrev before (seqAt isn p) :: queue) := by
  have short := placed.length_lt
  have bytes : 0 < before.p.length := by
    rw [TcpSeg.span, noFin] at span
    exact span
  rw [Net2Tr.trimPrev, placed.dataEnd, tcpSeqGt_seqAt ⟨by omega, by omega⟩]
  by_cases overlap : p < p₀ + before.p.length
  · rw [decide_eq_true overlap, if_pos rfl]
    obtain ⟨trimmed, length⟩ := placed.trimTo stream earlier.le overlap.le noFin
    refine (cons trimmed (by omega) ?_ noFin (queued.mono (by omega) le_rfl)).mono from_lo le_rfl
    rw [TcpSeg.span]
    omega
  · rw [decide_eq_false overlap, if_neg Bool.false_ne_true]
    exact (cons placed (by omega) span noFin (queued.mono (by omega) le_rfl)).mono from_lo le_rfl

/-- What stands in front of a queue, if anything does, and what can be put behind it. -/
theorem split (stream : StreamLike content) {prev : Option TcpSeg} {next : TcpSeg}
    {rest : List TcpSeg} (wide : hi < lo + 2 ^ 30) (from_lo : lo ≤ p) (below : p < hi)
    (queued : Queued isn content hi lo (prev.toList ++ next :: rest))
    (prevAt : ∀ before ∈ prev, ∃ p₀, lo ≤ p₀ ∧ p₀ < p ∧ before.seqno = seqAt isn p₀) :
    ∃ lo', lo ≤ lo' ∧ Queued isn content hi lo' (next :: rest) ∧
      (∀ queue, Queued isn content hi lo' queue →
        Queued isn content hi lo (prev.toList ++ queue)) ∧
      (∀ queue, Queued isn content hi p queue →
        Queued isn content hi lo (prev.toList.map (Net2Tr.trimPrev · (seqAt isn p)) ++ queue)) ∧
      ∀ q, lo' ≤ q → q < hi → next.seqno = seqAt isn q → p ≠ q →
        goesBefore prev (seqAt isn p) next = decide (p < q) := by
  cases prev with
  | none =>
    refine ⟨lo, le_rfl, queued, fun queue later => later,
      fun queue later => later.mono from_lo le_rfl, fun q _ _ nextAt _ => ?_⟩
    rw [goesBefore, nextAt, tcpSeqLt_seqAt ⟨by omega, by omega⟩]
  | some before =>
    obtain ⟨p₀, le, lt, placed, span, last, behind⟩ := queued
    have noFin : before.has tcpFin = false := Bool.eq_false_iff.mpr fun fin => by cases last fin
    have bytes : 0 < before.p.length := by
      rw [TcpSeg.span, noFin] at span
      exact span
    obtain ⟨p₁, le₁, earlier, at₁⟩ := prevAt before rfl
    have same : p₀ = p₁ :=
      (seqAt_inj ⟨by omega, by omega⟩).mp (placed.seqno.symm.trans at₁)
    subst same
    refine ⟨p₀ + before.p.length, by omega, behind, fun queue later => ?_, fun queue later => ?_,
      fun q after nextBelow nextAt other => ?_⟩
    · exact (cons placed lt span noFin later).mono le le_rfl
    · exact trimPrev stream wide le earlier below placed span noFin later
    · rw [goesBefore, nextAt, placed.seqno, seqAt_add_one, seqAt_sub_one isn (by omega),
        tcpSeqBetween_seqAt ⟨by omega, by omega⟩ ⟨by omega, by omega⟩, decide_eq_decide]
      omega

end Queued

/-- A segment that is put at the end of the queue loses what is behind the window, and never
fails the assertion. -/
theorem Placed.trimToWindow (stream : StreamLike content) (placed : Placed isn content p seg)
    (span : 0 < seg.span) {r : Nat} (inside : p < r) (narrow : r < p + 2 ^ 16) :
    ∃ cut, Net2Tr.trimToWindow seg (seqAt isn r) = some cut ∧ Placed isn content p cut ∧
      0 < cut.span ∧ cut.seqno = seqAt isn p := by
  have short := placed.length_lt
  have spanLe : seg.span ≤ seg.p.length + 1 := by
    rw [TcpSeg.span]
    split <;> omega
  rw [Net2Tr.trimToWindow, UInt32.add_comm, placed.seqno_add_tcplen,
    tcpSeqGt_seqAt ⟨by omega, by omega⟩]
  by_cases beyond : r < p + seg.span
  · rw [decide_eq_true beyond, if_pos rfl]
    obtain ⟨cut, length⟩ := (placed.dropFin stream).trimTo stream inside.le
      (show r ≤ p + seg.p.length by omega) seg.has_fin_dropFin
    have cutSpan : (seg.dropFin.trimTo (seqAt isn r)).span = r - p := by
      have noFin : (seg.dropFin.trimTo (seqAt isn r)).has tcpFin = false := seg.has_fin_dropFin
      rw [TcpSeg.span, noFin, length]
      rfl
    refine ⟨seg.dropFin.trimTo (seqAt isn r), ?_, cut, by omega, placed.seqno⟩
    refine if_pos ?_
    have reaches := cut.seqno_add_tcplen
    rw [cutSpan, show p + (r - p) = r by omega] at reaches
    exact reaches
  · rw [decide_eq_false beyond, if_neg Bool.false_ne_true]
    exact ⟨seg, rfl, placed, span, placed.seqno⟩

/-- The walk through the queue puts a new segment into its place. -/
theorem Queued.walk (stream : StreamLike content) (placed : Placed isn content p seg)
    (span : 0 < seg.span) (below : p < hi) {r : Nat} (inside : p < r) (narrow : r < p + 2 ^ 16)
    (copied : Bool) {prev : Option TcpSeg} {queue : List TcpSeg} {sackbeg : UInt32}
    (wide : hi < lo + 2 ^ 30) (from_lo : lo ≤ p)
    (queued : Queued isn content hi lo (prev.toList ++ queue))
    (prevAt : ∀ before ∈ prev, ∃ p₀, lo ≤ p₀ ∧ p₀ < p ∧ before.seqno = seqAt isn p₀) :
    ∃ place, oosWalk seg copied (seqAt isn r) prev queue sackbeg = some place ∧
      Queued isn content hi lo (place.upTo ++ place.behind) := by
  induction queue generalizing prev sackbeg lo with
  | nil => exact ⟨_, rfl, queued⟩
  | cons next rest inductionHypothesis =>
    obtain ⟨lo', later, nextQueued, put, putTrimmed, before⟩ :=
      queued.split stream wide from_lo below prevAt
    obtain ⟨q, after, nextBelow, nextPlaced, nextSpan, last, behind⟩ := id nextQueued
    have kept : ∀ sackbeg, ∃ place,
        some (OosPlace.mk prev.toList (next :: rest) sackbeg) = some place ∧
          Queued isn content hi lo (place.upTo ++ place.behind) := fun _ => ⟨_, rfl, queued⟩
    rw [oosWalk, placed.seqno, nextPlaced.seqno]
    by_cases together : p = q
    · subst together
      rw [if_pos rfl]
      by_cases longer : seg.len > next.len ∧ copied = true
      · rw [if_pos longer]
        refine ⟨_, rfl, put _ ?_⟩
        have fromNext : Queued isn content hi p (next :: rest) :=
          ⟨p, le_rfl, nextBelow, nextPlaced, nextSpan, last, behind⟩
        refine (insertSegment stream (by omega) placed below span fromNext ?_).mono after le_rfl
        rintro _ ⟨⟩ _
        rw [placed.len, nextPlaced.len]
        exact longer.1
      · rw [if_neg longer]
        exact kept sackbeg
    · rw [if_neg fun same => together ((seqAt_inj ⟨by omega, by omega⟩).mp same),
        before q after nextBelow nextPlaced.seqno together]
      by_cases earlier : p < q
      · rw [decide_eq_true earlier, if_pos rfl]
        cases copied with
        | false => exact kept sackbeg
        | true =>
          refine ⟨_, rfl, putTrimmed _ ?_⟩
          have fromNext : Queued isn content hi p (next :: rest) :=
            ⟨q, earlier.le, nextBelow, nextPlaced, nextSpan, last, behind⟩
          refine insertSegment stream (by omega) placed below span fromNext ?_
          rintro _ ⟨⟩ same
          rw [nextPlaced.seqno, placed.seqno] at same
          exact absurd ((seqAt_inj ⟨by omega, by omega⟩).mp same).symm together
      · rw [decide_eq_false earlier, if_neg Bool.false_ne_true,
          tcpSeqGt_seqAt ⟨by omega, by omega⟩, decide_eq_true (show q < p by omega)]
        by_cases atEnd : rest = []
        · rw [if_pos ⟨atEnd, rfl⟩]
          subst atEnd
          by_cases full : next.has tcpFin = true ∨ copied = false
          · rw [if_pos full]
            exact ⟨_, rfl, by rw [List.append_nil]; exact queued⟩
          · rw [if_neg full]
            obtain ⟨cut, is, cutPlaced, cutSpan, cutAt⟩ :=
              placed.trimToWindow stream span inside narrow
            rw [is]
            refine ⟨_, rfl, ?_⟩
            have noFin : next.has tcpFin = false :=
              Bool.eq_false_iff.mpr fun fin => full (Or.inl fin)
            simp only [List.append_assoc, List.singleton_append, cutAt]
            exact put _ (trimPrev stream (by omega) after (by omega) below nextPlaced nextSpan noFin
              (singleton cutPlaced le_rfl below cutSpan))
        · rw [if_neg fun both => atEnd both.1]
          have nextAt : ∀ before ∈ some next, ∃ p₀, lo' ≤ p₀ ∧ p₀ < p ∧
              before.seqno = seqAt isn p₀ := by
            rintro _ ⟨⟩
            exact ⟨q, after, by omega, nextPlaced.seqno⟩
          obtain ⟨place, is, placeQueued⟩ : ∃ place,
              oosWalk seg copied (seqAt isn r) (some next) rest (nextSackbeg prev next sackbeg) =
                some place ∧ Queued isn content hi lo' (place.upTo ++ place.behind) :=
            inductionHypothesis (by omega) (by omega) nextQueued nextAt
          rw [is]
          refine ⟨_, rfl, ?_⟩
          rw [List.append_assoc]
          exact put _ placeQueued

/-! ### Segments in order -/

theorem Placed.span_le (placed : Placed isn content p seg) : seg.span ≤ 2 ^ 16 := by
  have short := placed.length_lt
  rw [TcpSeg.span]
  split <;> omega

/-- A segment that is next in order is cut to the window, and the assertion never fails. -/
theorem Placed.cutToWindow (stream : StreamLike content) (placed : Placed isn content p seg)
    {pcb : TcpRcv} (next : pcb.rcvNxt = seqAt isn p) (narrow : pcb.rcvWnd.toNat < 2 ^ 16) :
    ∃ cut, pcb.cutToWindow seg = some cut ∧ Placed isn content p cut ∧
      cut.span = min seg.span pcb.rcvWnd.toNat := by
  have spanLe := placed.span_le
  have tcplen := placed.tcplen
  by_cases beyond : pcb.rcvWnd.toNat < seg.span
  · have exceeds : seg.tcplen > pcb.rcvWnd := by
      rw [gt_iff_lt, UInt32.lt_iff_toNat_lt, tcplen]
      exact beyond
    have len : pcb.rcvWnd.toUInt16.toNat = pcb.rcvWnd.toNat := by
      rw [UInt32.toNat_toUInt16]
      exact Nat.mod_eq_of_lt narrow
    have fits : pcb.rcvWnd.toNat ≤ seg.p.length := by
      have spanIs : seg.span ≤ seg.p.length + 1 := by
        rw [TcpSeg.span]
        split <;> omega
      omega
    have noSyn : seg.dropFin.has tcpSyn = false := seg.has_syn_dropFin.trans placed.noSyn
    have cut := (placed.dropFin stream).realloc stream (len.le.trans fits)
      seg.has_fin_dropFin
    have length : (seg.dropFin.realloc pcb.rcvWnd.toUInt16).p.length = pcb.rcvWnd.toNat :=
      (List.length_take_of_le (len.le.trans fits)).trans len
    have cutSpan : (seg.dropFin.realloc pcb.rcvWnd.toUInt16).span = pcb.rcvWnd.toNat := by
      have noFin : (seg.dropFin.realloc pcb.rcvWnd.toUInt16).has tcpFin = false :=
        seg.has_fin_dropFin
      rw [TcpSeg.span, noFin, length]
      rfl
    refine ⟨seg.dropFin.realloc pcb.rcvWnd.toUInt16, ?_, cut, by omega⟩
    have small : pcb.rcvWnd ≤ 0xffff := by
      rw [UInt32.le_iff_toNat_le]
      exact Nat.le_of_lt_succ narrow
    rw [TcpRcv.cutToWindow, if_pos exceeds]
    change (if pcb.rcvWnd ≤ 0xffff then
      if (seg.dropFin.realloc (if seg.dropFin.has tcpSyn then _ else _)).seqno +
          (seg.dropFin.realloc (if seg.dropFin.has tcpSyn then _ else _)).tcplen =
        pcb.rcvNxt + pcb.rcvWnd then
        some (seg.dropFin.realloc (if seg.dropFin.has tcpSyn then _ else _)) else none
      else none) = _
    rw [if_pos small, noSyn, if_neg Bool.false_ne_true, if_pos]
    rw [cut.seqno_add_tcplen, cutSpan, next, seqAt_add]
  · have within : ¬ seg.tcplen > pcb.rcvWnd := by
      rw [gt_iff_lt, UInt32.lt_iff_toNat_lt, tcplen]
      exact beyond
    rw [TcpRcv.cutToWindow, if_neg within]
    exact ⟨seg, rfl, placed, by omega⟩

/-- Up to an end or, with the first segment of a queue that starts there, beyond it, a position is
reached. -/
def Reaches (isn : UInt32) (target stop : Nat) (queue : List TcpSeg) : Prop :=
  target ≤ stop ∨ ∃ next rest, queue = next :: rest ∧ next.seqno = seqAt isn stop ∧
    target ≤ stop + next.p.length

namespace Queued

/-- Covered segments are removed, and a FIN among them becomes one of the new segment. -/
theorem removeCovered (stream : StreamLike content) {queue : List TcpSeg}
    (wide : hi < p + 2 ^ 30) (placed : Placed isn content p seg) (span : 0 < seg.span)
    (noFin : seg.has tcpFin = false) (queued : Queued isn content hi (p + 1) queue) :
    ∃ merged left, TcpRcv.removeCovered seg queue = (merged, left) ∧
      Placed isn content p merged ∧ 0 < merged.span ∧ merged.p = seg.p ∧
      (merged.has tcpFin = true → left = []) ∧ Queued isn content hi (p + 1) left ∧
      ∀ next ∈ left.head?, ∃ q, p < q ∧ q < hi ∧ next.seqno = seqAt isn q ∧
        p + seg.p.length < q + next.p.length := by
  induction queue generalizing seg with
  | nil =>
    exact ⟨seg, [], rfl, placed, span, rfl, fun _ => rfl, trivial, by rintro _ ⟨⟩⟩
  | cons next rest inductionHypothesis =>
    obtain ⟨q, after, nextBelow, nextPlaced, nextSpan, last, behind⟩ := id queued
    have short := placed.length_lt
    have nextShort := nextPlaced.length_lt
    have spanIs : seg.span = seg.p.length := by
      rw [TcpSeg.span, noFin]
      rfl
    rw [TcpRcv.removeCovered, placed.seqno_add_tcplen, nextPlaced.dataEnd, spanIs,
      tcpSeqGeq_seqAt ⟨by omega, by omega⟩]
    by_cases covered : q + next.p.length ≤ p + seg.p.length
    · rw [decide_eq_true covered, if_pos rfl]
      obtain ⟨merged, mergedSpan, mergedFin, same⟩ :=
        placed.absorb stream noFin span nextPlaced covered rfl
      simp only [placed.noSyn, and_true]
      cases fin : next.has tcpFin with
      | false =>
        rw [fin] at merged mergedSpan mergedFin same
        exact inductionHypothesis merged mergedSpan mergedFin (behind.mono (by omega) le_rfl)
      | true =>
        rw [fin] at merged mergedSpan mergedFin same
        rw [last fin]
        exact ⟨_, [], rfl, merged, mergedSpan, same, fun _ => rfl, trivial, by rintro _ ⟨⟩⟩
    · rw [decide_eq_false covered, if_neg Bool.false_ne_true]
      refine ⟨seg, next :: rest, rfl, placed, span, rfl, fun fin => ?_, queued, ?_⟩
      · rw [noFin] at fin
        cases fin
      · rintro _ ⟨⟩
        exact ⟨q, after, nextBelow, nextPlaced.seqno, by omega⟩

/-- The queue and a segment that is next in order are adjusted to each other, and the assertion
never fails. -/
theorem adjustOoseq (stream : StreamLike content) {pcb : TcpRcv} (wide : hi < p + 2 ^ 30)
    (placed : Placed isn content p seg) (span : 0 < seg.span)
    (queued : Queued isn content hi (p + 1) pcb.ooseq) :
    ∃ merged left, pcb.adjustOoseq seg = some (merged, left) ∧ Placed isn content p merged ∧
      0 < merged.span ∧ (merged.has tcpFin = true → left = []) ∧
      Queued isn content hi (p + merged.span) left ∧
      Reaches isn (p + seg.span) (p + merged.span) left := by
  rw [TcpRcv.adjustOoseq]
  by_cases empty : pcb.ooseq = []
  · rw [if_pos empty]
    exact ⟨seg, [], rfl, placed, span, fun _ => rfl, trivial, Or.inl le_rfl⟩
  rw [if_neg empty]
  cases fin : seg.has tcpFin with
  | true => exact ⟨seg, [], rfl, placed, span, fun _ => rfl, trivial, Or.inl le_rfl⟩
  | false =>
    obtain ⟨merged, left, is, mergedPlaced, mergedSpan, same, mergedLast, leftQueued, behind⟩ :=
      removeCovered stream wide placed span fin queued
    rw [if_neg Bool.false_ne_true, is]
    have segSpan : seg.span = merged.p.length := by
      rw [TcpSeg.span, fin, same]
      rfl
    cases left with
    | nil =>
      refine ⟨merged, [], rfl, mergedPlaced, mergedSpan, mergedLast, trivial, Or.inl ?_⟩
      rw [segSpan]
      exact Nat.add_le_add_left (Nat.le_add_right _ _) p
    | cons next rest =>
      have noFin : merged.has tcpFin = false :=
        Bool.eq_false_iff.mpr fun isFin => by cases mergedLast isFin
      have spanIs : merged.span = merged.p.length := by
        rw [TcpSeg.span, noFin]
        rfl
      obtain ⟨q, after, below, nextAt, beyond⟩ := behind next rfl
      have short := mergedPlaced.length_lt
      have nextQueued : Queued isn content hi q (next :: rest) := by
        obtain ⟨q', after', below', nextPlaced, nextSpan, nextLast, later⟩ := leftQueued
        have position : q = q' :=
          (seqAt_inj ⟨by omega, by omega⟩).mp (nextAt.symm.trans nextPlaced.seqno)
        subst position
        exact ⟨q, le_rfl, below, nextPlaced, nextSpan, nextLast, later⟩
      simp only [mergedPlaced.seqno_add_tcplen, nextAt, spanIs]
      rw [tcpSeqGt_seqAt ⟨by omega, by omega⟩]
      by_cases overlap : q < p + merged.p.length
      · rw [decide_eq_true overlap, if_pos rfl]
        obtain ⟨cut, length⟩ := mergedPlaced.trimTo stream after.le overlap.le noFin
        have cutSpan : (merged.trimTo (seqAt isn q)).span = q - p := by
          have cutFin : (merged.trimTo (seqAt isn q)).has tcpFin = false := noFin
          rw [TcpSeg.span, cutFin, length]
          rfl
        have reaches := cut.seqno_add_tcplen
        rw [cutSpan, show p + (q - p) = q by omega] at reaches
        refine ⟨merged.trimTo (seqAt isn q), next :: rest, ?_, cut, by omega, fun isFin => ?_, ?_,
          Or.inr ⟨next, rest, rfl, ?_, ?_⟩⟩
        · rw [mergedPlaced.noSyn, if_neg Bool.false_ne_true]
          exact if_pos reaches
        · have cutFin : (merged.trimTo (seqAt isn q)).has tcpFin = false := noFin
          rw [cutFin] at isFin
          cases isFin
        · rw [cutSpan, show p + (q - p) = q by omega]
          exact nextQueued
        · rw [cutSpan, show p + (q - p) = q by omega]
          exact nextAt
        · rw [cutSpan, segSpan, same]
          omega
      · rw [decide_eq_false overlap, if_neg Bool.false_ne_true]
        refine ⟨merged, next :: rest, rfl, mergedPlaced, mergedSpan, mergedLast, ?_,
          Or.inl (by omega)⟩
        exact nextQueued.mono (by omega) le_rfl

end Queued

/-! ### What does not touch the stream -/

namespace TcpRcv

/-- The right edge that was announced is at a position, and the window to announce next reaches at
least as far but not beyond the window. -/
structure Announced (isn : UInt32) (n edge : Nat) (pcb : TcpRcv) : Prop where
  rightEdge : pcb.rcvAnnRightEdge = seqAt isn edge
  taken : n ≤ edge
  announces : edge ≤ n + pcb.rcvAnnWnd.toNat
  within : pcb.rcvAnnWnd.toNat ≤ pcb.rcvWnd.toNat

/-- Only the windows and the announced edge count. -/
theorem Announced.quiet {isn : UInt32} {n edge : Nat} {pcb pcb' : TcpRcv}
    (announced : Announced isn n edge pcb) (rightEdge : pcb'.rcvAnnRightEdge = pcb.rcvAnnRightEdge)
    (annWnd : pcb'.rcvAnnWnd = pcb.rcvAnnWnd) (rcvWnd : pcb'.rcvWnd = pcb.rcvWnd) :
    Announced isn n edge pcb' where
  rightEdge := rightEdge.trans announced.rightEdge
  taken := announced.taken
  announces := by
    rw [annWnd]
    exact announced.announces
  within := by
    rw [annWnd, rcvWnd]
    exact announced.within

/-- The acknowledgements that were added name what is expected next. -/
def AddsAcks (pcb pcb' : TcpRcv) : Prop :=
  ∃ added, pcb'.acks = pcb.acks ++ added ∧ ∀ ack ∈ added, ack.ackno = pcb'.rcvNxt

/-- None was added. -/
theorem AddsAcks.quiet {pcb pcb' : TcpRcv} (acks : pcb'.acks = pcb.acks) : AddsAcks pcb pcb' :=
  ⟨[], acks.trans (List.append_nil _).symm, fun _ sent => by cases sent⟩

theorem AddsAcks.trans {pcb pcb' pcb'' : TcpRcv} (first : AddsAcks pcb pcb')
    (second : AddsAcks pcb' pcb'') (rcvNxt : pcb''.rcvNxt = pcb'.rcvNxt) : AddsAcks pcb pcb'' := by
  obtain ⟨early, earlyIs, earlyNext⟩ := first
  obtain ⟨late, lateIs, lateNext⟩ := second
  refine ⟨early ++ late, by rw [lateIs, earlyIs, List.append_assoc], fun ack sent => ?_⟩
  rcases List.mem_append.mp sent with old | new
  · exact (earlyNext ack old).trans rcvNxt.symm
  · exact lateNext ack new

/-- The stream, the window, the queue and the state are the same. -/
structure Keeps (pcb pcb' : TcpRcv) : Prop where
  rcvNxt : pcb'.rcvNxt = pcb.rcvNxt
  rcvWnd : pcb'.rcvWnd = pcb.rcvWnd
  ooseq : pcb'.ooseq = pcb.ooseq
  state : pcb'.state = pcb.state
  wndScale : pcb'.wndScale = pcb.wndScale
  acks : AddsAcks pcb pcb'
  announced : ∀ {isn n edge}, pcb.rcvNxt = seqAt isn n → Announced isn n edge pcb →
    ∃ edge', edge ≤ edge' ∧ Announced isn n edge' pcb'

/-- Neither the acknowledgements nor what they announce is touched. -/
theorem Keeps.quiet {pcb pcb' : TcpRcv} (rcvNxt : pcb'.rcvNxt = pcb.rcvNxt)
    (rcvWnd : pcb'.rcvWnd = pcb.rcvWnd) (ooseq : pcb'.ooseq = pcb.ooseq)
    (state : pcb'.state = pcb.state) (wndScale : pcb'.wndScale = pcb.wndScale)
    (acks : pcb'.acks = pcb.acks) (rightEdge : pcb'.rcvAnnRightEdge = pcb.rcvAnnRightEdge)
    (annWnd : pcb'.rcvAnnWnd = pcb.rcvAnnWnd) : Keeps pcb pcb' where
  rcvNxt := rcvNxt
  rcvWnd := rcvWnd
  ooseq := ooseq
  state := state
  wndScale := wndScale
  acks := .quiet acks
  announced {_ _ edge} _ announced := ⟨edge, le_rfl, announced.quiet rightEdge annWnd rcvWnd⟩

theorem Keeps.refl (pcb : TcpRcv) : Keeps pcb pcb :=
  .quiet rfl rfl rfl rfl rfl rfl rfl rfl

theorem Keeps.trans {pcb pcb' pcb'' : TcpRcv} (first : Keeps pcb pcb')
    (second : Keeps pcb' pcb'') : Keeps pcb pcb'' where
  rcvNxt := second.rcvNxt.trans first.rcvNxt
  rcvWnd := second.rcvWnd.trans first.rcvWnd
  ooseq := second.ooseq.trans first.ooseq
  state := second.state.trans first.state
  wndScale := second.wndScale.trans first.wndScale
  acks := first.acks.trans second.acks second.rcvNxt
  announced next announced := by
    obtain ⟨edge', later, announced'⟩ := first.announced next announced
    obtain ⟨edge'', later', announced''⟩ :=
      second.announced (first.rcvNxt.trans next) announced'
    exact ⟨edge'', later.trans later', announced''⟩

variable (pcb : TcpRcv)

theorem keeps_tcpAddSack (left right : UInt32) : Keeps pcb (pcb.tcpAddSack left right) := by
  unfold tcpAddSack
  split <;> exact .quiet rfl rfl rfl rfl rfl rfl rfl rfl

theorem keeps_cleanSacks : Keeps pcb pcb.cleanSacks := by
  unfold cleanSacks
  split
  · split
    · exact .quiet rfl rfl rfl rfl rfl rfl rfl rfl
    · split <;> exact .quiet rfl rfl rfl rfl rfl rfl rfl rfl
  · exact .refl pcb

theorem keeps_sackPlace (place : OosPlace) : Keeps pcb (pcb.sackPlace place) := by
  unfold sackPlace
  split
  · split
    · exact .refl pcb
    · exact pcb.keeps_tcpAddSack _ _
  · exact .refl pcb

theorem keeps_storeSack (left right : UInt32) :
    Keeps pcb (if pcb.sack then pcb.storeSack left right else pcb) := by
  split
  · exact .quiet rfl rfl rfl rfl rfl rfl rfl rfl
  · exact .refl pcb

theorem keeps_tcpAck : Keeps pcb pcb.tcpAck := by
  unfold tcpAck
  split <;> exact .quiet rfl rfl rfl rfl rfl rfl rfl rfl

theorem keeps_tcpAckNow : Keeps pcb pcb.tcpAckNow := .quiet rfl rfl rfl rfl rfl rfl rfl rfl

/-- The window that an acknowledgement announces never ends before an earlier one. -/
theorem Announced.announce {pcb : TcpRcv} {isn : UInt32} {n edge : Nat}
    (next : pcb.rcvNxt = seqAt isn n) (announced : Announced isn n edge pcb) :
    edge ≤ n + pcb.rcvAnnWnd.toNat ∧ Announced isn n (n + pcb.rcvAnnWnd.toNat) pcb.announce :=
  ⟨announced.announces, by rw [← seqAt_add, ← next]; rfl, Nat.le_add_right _ _, le_rfl,
    announced.within⟩

theorem keeps_announce : Keeps pcb pcb.announce where
  rcvNxt := rfl
  rcvWnd := rfl
  ooseq := rfl
  state := rfl
  wndScale := rfl
  acks := .quiet rfl
  announced next announced := ⟨_, announced.announce next⟩

theorem keeps_tcpSendEmptyAck (outcome : AckOutcome) :
    Keeps pcb (pcb.tcpSendEmptyAck outcome) := by
  cases outcome with
  | noPbuf => exact .quiet rfl rfl rfl rfl rfl rfl rfl rfl
  | failed => exact pcb.keeps_announce.trans (.quiet rfl rfl rfl rfl rfl rfl rfl rfl)
  | sent =>
    refine ⟨rfl, rfl, rfl, rfl, rfl, ⟨_, rfl, fun ack sent => ?_⟩, fun next announced =>
      ⟨_, (announced.announce next).1, (announced.announce next).2.rightEdge, Nat.le_add_right _ _,
        le_rfl, announced.within⟩⟩
    rw [List.mem_singleton.mp sent]
    rfl

theorem tcpUpdateRcvAnnWnd_eq :
    ∃ ann, pcb.tcpUpdateRcvAnnWnd.1 = { pcb with rcvAnnWnd := ann } := by
  unfold tcpUpdateRcvAnnWnd
  dsimp only
  split
  · exact ⟨_, rfl⟩
  · split <;> exact ⟨_, rfl⟩

/-- What is taken fits the window, and moves it. -/
theorem take_eq {tcplen : UInt32} {pcb' : TcpRcv} (took : pcb.take tcplen = some pcb') :
    tcplen ≤ pcb.rcvWnd ∧ ∃ ann, pcb' = { pcb with
      rcvNxt := pcb.rcvNxt + tcplen
      rcvWnd := pcb.rcvWnd - tcplen
      rcvAnnWnd := ann } := by
  unfold take at took
  split at took
  case isTrue fits =>
    obtain ⟨ann, is⟩ := tcpUpdateRcvAnnWnd_eq { pcb with
      rcvNxt := pcb.rcvNxt + tcplen
      rcvWnd := pcb.rcvWnd - tcplen }
    rw [is] at took
    exact ⟨fits, ann, (Option.some.inj took).symm⟩
  case isFalse => cases took

/-- The update of the announced window never moves its right edge back. -/
theorem Announced.update {pcb : TcpRcv} {isn : UInt32} {n edge : Nat}
    (next : pcb.rcvNxt = seqAt isn n) (narrow : pcb.rcvWnd.toNat < 2 ^ 16)
    (rightEdge : pcb.rcvAnnRightEdge = seqAt isn edge) (taken : n ≤ edge)
    (within : edge ≤ n + pcb.rcvWnd.toNat) : Announced isn n edge pcb.tcpUpdateRcvAnnWnd.1 := by
  have ahead : (min (UInt32.ofNat (tcpWnd / 2)) pcb.mss.toUInt32).toNat ≤ 2920 := by
    rw [toNat_min]
    exact Nat.min_le_left _ _
  have geq : tcpSeqGeq (pcb.rcvNxt + pcb.rcvWnd)
      (pcb.rcvAnnRightEdge + min (UInt32.ofNat (tcpWnd / 2)) pcb.mss.toUInt32) =
        decide (edge + (min (UInt32.ofNat (tcpWnd / 2)) pcb.mss.toUInt32).toNat ≤
          n + pcb.rcvWnd.toNat) := by
    rw [next, rightEdge, seqAt_add, seqAt_add]
    exact tcpSeqGeq_seqAt ⟨by omega, by omega⟩
  have gt : tcpSeqGt pcb.rcvNxt pcb.rcvAnnRightEdge = false := by
    rw [next, rightEdge, tcpSeqGt_seqAt ⟨by omega, by omega⟩]
    exact decide_eq_false (by omega)
  have left : (pcb.rcvAnnRightEdge - pcb.rcvNxt).toNat = edge - n := by
    rw [next, rightEdge, seqAt_sub isn taken, UInt32.toNat_ofNat']
    omega
  unfold tcpUpdateRcvAnnWnd
  dsimp only
  rw [geq, gt, if_neg Bool.false_ne_true]
  split
  · exact ⟨rightEdge, taken, within, le_rfl⟩
  · refine ⟨rightEdge, taken, ?_, ?_⟩
    · change edge ≤ n + (pcb.rcvAnnRightEdge - pcb.rcvNxt).toNat
      omega
    · change (pcb.rcvAnnRightEdge - pcb.rcvNxt).toNat ≤ pcb.rcvWnd.toNat
      omega

/-- What is taken stays below the announced edge if it was. -/
theorem Announced.take {pcb pcb' : TcpRcv} {isn : UInt32} {n edge : Nat} {tcplen : UInt32}
    (next : pcb.rcvNxt = seqAt isn n) (narrow : pcb.rcvWnd.toNat < 2 ^ 16)
    (announced : Announced isn n edge pcb) (took : pcb.take tcplen = some pcb')
    (below : n + tcplen.toNat ≤ edge) : Announced isn (n + tcplen.toNat) edge pcb' := by
  obtain ⟨fits, -⟩ := pcb.take_eq took
  rw [TcpRcv.take, if_pos fits] at took
  cases took
  rw [UInt32.le_iff_toNat_le] at fits
  have wnd : (pcb.rcvWnd - tcplen).toNat = pcb.rcvWnd.toNat - tcplen.toNat :=
    UInt32.toNat_sub_of_le _ _ (UInt32.le_iff_toNat_le.mpr fits)
  have reach := announced.announces.trans (Nat.add_le_add_left announced.within n)
  refine Announced.update ?_ ?_ announced.rightEdge below ?_
  · rw [← seqAt_add, ← next]
  · change (pcb.rcvWnd - tcplen).toNat < _
    omega
  · change edge ≤ _ + (pcb.rcvWnd - tcplen).toNat
    omega

end TcpRcv

/-- The queue is taken as far as it is in order. -/
theorem Queued.takeOoseq (stream : StreamLike content) {queue : List TcpSeg} {pcb : TcpRcv}
    {data : Bytes} {gotFin : Bool} {n start : Nat} (wide : hi < n + 2 ^ 30)
    (next : pcb.rcvNxt = seqAt isn n) (narrow : pcb.rcvWnd.toNat < 2 ^ 16)
    (queued : Queued isn content hi n queue)
    (said : content start data gotFin)
    (stands : start + data.length + (if gotFin then 1 else 0) = n)
    (last : gotFin = true → queue = []) {taken : RcvTaken}
    (took : Net2Tr.takeOoseq pcb data gotFin queue = some taken) :
    ∃ n' wnd ann state left, taken.pcb = { pcb with
        rcvNxt := seqAt isn n'
        rcvWnd := wnd
        rcvAnnWnd := ann
        state := state
        ooseq := left } ∧
      wnd.toNat + n' = pcb.rcvWnd.toNat + n ∧ n ≤ n' ∧
      content start taken.data taken.gotFin ∧
      start + taken.data.length + (if taken.gotFin then 1 else 0) = n' ∧
      Queued isn content hi (n' + 1) left ∧ (state = pcb.state ∨ taken.gotFin = true) ∧
      (gotFin = true → taken.gotFin = true) ∧
      (∀ edge, TcpRcv.Announced isn n edge pcb → n' ≤ edge →
        TcpRcv.Announced isn n' edge taken.pcb) ∧
      ∀ target, Reaches isn target n queue → target ≤ n' := by
  induction queue generalizing pcb data gotFin n with
  | nil =>
    rw [Net2Tr.takeOoseq] at took
    cases took
    refine ⟨n, pcb.rcvWnd, pcb.rcvAnnWnd, pcb.state, [], by rw [← next], rfl, le_rfl, said, stands,
      trivial, Or.inl rfl, id, fun _ announced _ => announced.quiet rfl rfl rfl, ?_⟩
    rintro target (reached | ⟨_, _, ⟨⟩, _⟩)
    exact reached
  | cons cseg rest inductionHypothesis =>
    have noFin : gotFin = false := Bool.eq_false_iff.mpr fun fin => by cases last fin
    subst noFin
    obtain ⟨p, after, below, placed, span, segLast, behind⟩ := id queued
    rw [Net2Tr.takeOoseq, placed.seqno, next] at took
    by_cases inOrder : p = n
    · subst inOrder
      rw [if_pos rfl, Option.bind_eq_some_iff] at took
      obtain ⟨moved, take, took⟩ := took
      obtain ⟨fits, ann, is⟩ := pcb.take_eq take
      rw [UInt32.le_iff_toNat_le, placed.tcplen] at fits
      have joined : content start (data ++ cseg.p) (cseg.has tcpFin) := by
        refine stream.join said ?_
        rw [show start + data.length = p by simpa using stands]
        exact placed.content
      have movedNext : moved.rcvNxt = seqAt isn (p + cseg.span) := by
        rw [is, next, ← placed.seqno_add_tcplen, placed.seqno]
      have movedWnd : moved.rcvWnd.toNat + (p + cseg.span) = pcb.rcvWnd.toNat + p := by
        rw [is]
        change (pcb.rcvWnd - cseg.tcplen).toNat + _ = _
        rw [UInt32.toNat_sub_of_le, placed.tcplen]
        · omega
        · rw [UInt32.le_iff_toNat_le, placed.tcplen]
          exact fits
      have movedStands : start + (data ++ cseg.p).length +
          (if cseg.has tcpFin then 1 else 0) = p + cseg.span := by
        rw [List.length_append, TcpSeg.span, ← stands]
        simp only [Bool.false_eq_true, if_false]
        omega
      have restQueued : Queued isn content hi (p + cseg.span) rest := by
        cases fin : cseg.has tcpFin with
        | false =>
          rw [TcpSeg.span, fin]
          exact behind
        | true =>
          rw [segLast fin]
          trivial
      obtain ⟨state, sameOrFin, later⟩ : ∃ state,
          (state = pcb.state ∨ cseg.has tcpFin = true) ∧
            Net2Tr.takeOoseq { moved with state := state } (data ++ cseg.p) (cseg.has tcpFin)
              rest = some taken := by
        cases fin : cseg.has tcpFin with
        | false =>
          rw [fin, if_neg Bool.false_ne_true] at took
          refine ⟨pcb.state, Or.inl rfl, ?_⟩
          rw [is] at took ⊢
          exact took
        | true =>
          rw [fin, if_pos rfl] at took
          exact ⟨_, Or.inr rfl, took⟩
      have laterNext : ({ moved with state := state } : TcpRcv).rcvNxt =
          seqAt isn (p + cseg.span) := movedNext
      have laterNarrow : ({ moved with state := state } : TcpRcv).rcvWnd.toNat < 2 ^ 16 := by
        change moved.rcvWnd.toNat < _
        omega
      obtain ⟨n', wnd, ann', state', left, final, window, reached, content, length, leftQueued,
        states, fins, announces, _⟩ := inductionHypothesis (by omega) laterNext laterNarrow
          restQueued joined movedStands segLast later
      refine ⟨n', wnd, ann', state', left, ?_, window.trans movedWnd, by omega, content, length,
        leftQueued, ?_, fun fin => (by cases fin), fun edge announced below => ?_,
        fun target reaches => ?_⟩
      · rw [final, is]
      · rcases states with same | fin
        · rcases sameOrFin with kept | fin
          · exact Or.inl (same.trans kept)
          · exact Or.inr (fins fin)
        · exact Or.inr fin
      · have movedAnnounced := announced.take next narrow take (by rw [placed.tcplen]; omega)
        rw [placed.tcplen] at movedAnnounced
        exact announces edge (movedAnnounced.quiet rfl rfl rfl) below
      · rcases reaches with near | ⟨_, _, ⟨⟩, _, near⟩
        · omega
        · have spanLe : cseg.p.length ≤ cseg.span := Nat.le_add_right _ _
          omega
    · rw [if_neg fun same => inOrder ((seqAt_inj ⟨by omega, by omega⟩).mp same)] at took
      cases took
      refine ⟨n, pcb.rcvWnd, pcb.rcvAnnWnd, pcb.state, cseg :: rest, by rw [← next], rfl, le_rfl,
        said, stands, ?_, Or.inl rfl, id, fun _ announced _ => announced.quiet rfl rfl rfl, ?_⟩
      · exact ⟨p, by omega, below, placed, span, segLast, behind⟩
      · rintro target (near | ⟨_, _, ⟨⟩, elsewhere, _⟩)
        · exact near
        · exact absurd ((seqAt_inj ⟨by omega, by omega⟩).mp
            (placed.seqno.symm.trans elsewhere)) inOrder

/-! ### One segment -/

/-- What `tcp_receive` may do to a connection at a position: it moves on to another position, with
what is said in between. The queue starts behind that and below the old window. -/
structure Advances (isn : UInt32) (content : Nat → Bytes → Bool → Prop) (n n' : Nat)
    (pcb : TcpRcv) (taken : RcvTaken) : Prop where
  next : taken.pcb.rcvNxt = seqAt isn n'
  window : taken.pcb.rcvWnd.toNat + n' = pcb.rcvWnd.toNat + n
  length : n + taken.data.length + (if taken.gotFin then 1 else 0) = n'
  said : n = n' ∨ content n taken.data taken.gotFin
  queue : Queued isn content (n + pcb.rcvWnd.toNat) (n' + 1) taken.pcb.ooseq
  wndScale : taken.pcb.wndScale = pcb.wndScale
  state : taken.pcb.state = pcb.state ∨ taken.gotFin = true
  acks : TcpRcv.AddsAcks pcb taken.pcb
  announced : ∀ edge, TcpRcv.Announced isn n edge pcb → n' ≤ edge →
    ∃ edge', edge ≤ edge' ∧ TcpRcv.Announced isn n' edge' taken.pcb

namespace Advances

variable {n n' : Nat} {pcb pcb' : TcpRcv} {taken : RcvTaken}

/-- What does not touch the stream may follow. -/
theorem keep (advances : Advances isn content n n' pcb taken)
    (keeps : TcpRcv.Keeps taken.pcb pcb') :
    Advances isn content n n' pcb { taken with pcb := pcb' } where
  next := keeps.rcvNxt.trans advances.next
  window := by
    rw [show ({ taken with pcb := pcb' } : RcvTaken).pcb.rcvWnd = _ from keeps.rcvWnd]
    exact advances.window
  length := advances.length
  said := advances.said
  queue := by
    rw [show ({ taken with pcb := pcb' } : RcvTaken).pcb.ooseq = _ from keeps.ooseq]
    exact advances.queue
  wndScale := keeps.wndScale.trans advances.wndScale
  state := advances.state.imp_left fun same => keeps.state.trans same
  acks := advances.acks.trans keeps.acks keeps.rcvNxt
  announced edge announced below := by
    obtain ⟨edge', later, announced'⟩ := advances.announced edge announced below
    obtain ⟨edge'', later', announced''⟩ := keeps.announced advances.next announced'
    exact ⟨edge'', later.trans later', announced''⟩

/-- What does not touch the stream and announces nothing may go before. -/
theorem after (advances : Advances isn content n n' pcb' taken)
    (rcvWnd : pcb'.rcvWnd = pcb.rcvWnd) (wndScale : pcb'.wndScale = pcb.wndScale)
    (state : pcb'.state = pcb.state) (acks : pcb'.acks = pcb.acks)
    (rightEdge : pcb'.rcvAnnRightEdge = pcb.rcvAnnRightEdge)
    (annWnd : pcb'.rcvAnnWnd = pcb.rcvAnnWnd) : Advances isn content n n' pcb taken where
  next := advances.next
  window := by
    rw [← rcvWnd]
    exact advances.window
  length := advances.length
  said := advances.said
  queue := by
    rw [← rcvWnd]
    exact advances.queue
  wndScale := advances.wndScale.trans wndScale
  state := advances.state.imp_left (·.trans state)
  acks := by
    obtain ⟨added, is, next⟩ := advances.acks
    exact ⟨added, by rw [is, acks], next⟩
  announced edge announced := advances.announced edge (announced.quiet rightEdge annWnd rcvWnd)

/-- The wish to send an acknowledgement may go before. -/
theorem tcpAckNow (advances : Advances isn content n n' pcb.tcpAckNow taken) :
    Advances isn content n n' pcb taken :=
  advances.after rfl rfl rfl rfl rfl rfl

/-- The options may be parsed before. -/
theorem tcpParseopt {mss : Option UInt16}
    (advances : Advances isn content n n' (pcb.tcpParseopt mss) taken) :
    Advances isn content n n' pcb taken :=
  advances.after rfl rfl rfl rfl rfl rfl

/-- Nothing is taken. -/
theorem none (next : pcb.rcvNxt = seqAt isn n)
    (queue : Queued isn content (n + pcb.rcvWnd.toNat) (n + 1) pcb.ooseq) :
    Advances isn content n n pcb ⟨pcb, [], false⟩ where
  next := next
  window := rfl
  length := rfl
  said := Or.inl rfl
  queue := queue
  wndScale := rfl
  state := Or.inl rfl
  acks := .quiet rfl
  announced edge announced _ := ⟨edge, le_rfl, announced⟩

end Advances

/-- A segment that is next in order is taken up to the end of the window, at least. -/
theorem Placed.receiveInOrder (stream : StreamLike content) {pcb : TcpRcv} {n : Nat}
    (next : pcb.rcvNxt = seqAt isn n) (isOpen : 0 < pcb.rcvWnd.toNat)
    (narrow : pcb.rcvWnd.toNat < 2 ^ 16)
    (queued : Queued isn content (n + pcb.rcvWnd.toNat) (n + 1) pcb.ooseq)
    (placed : Placed isn content n seg) (span : 0 < seg.span) {outcome : AckOutcome}
    {taken : RcvTaken} (took : pcb.receiveInOrder seg outcome = some taken) :
    ∃ n', Advances isn content n n' pcb taken ∧
      n + min seg.span pcb.rcvWnd.toNat ≤ n' := by
  obtain ⟨cut, cutIs, cutPlaced, cutSpan⟩ := placed.cutToWindow stream next narrow
  obtain ⟨merged, left, adjusted, mergedPlaced, mergedSpan, last, leftQueued, reaches⟩ :=
    Queued.adjustOoseq stream (by omega) cutPlaced (by omega) queued
  rw [TcpRcv.receiveInOrder, cutIs] at took
  simp only [Option.bind_eq_bind, Option.bind_some, adjusted, Option.bind_eq_some_iff] at took
  obtain ⟨moved, take, inQueue, takeQueue, final⟩ := took
  obtain ⟨fits, ann, is⟩ := pcb.take_eq take
  rw [UInt32.le_iff_toNat_le, mergedPlaced.tcplen] at fits
  have movedNext : moved.rcvNxt = seqAt isn (n + merged.span) := by
    rw [is, next, ← mergedPlaced.seqno_add_tcplen, mergedPlaced.seqno]
  have movedWnd : moved.rcvWnd.toNat + merged.span = pcb.rcvWnd.toNat := by
    rw [is]
    change (pcb.rcvWnd - merged.tcplen).toNat + _ = _
    rw [UInt32.toNat_sub_of_le _ _ (UInt32.le_iff_toNat_le.mpr (by rwa [mergedPlaced.tcplen])),
      mergedPlaced.tcplen]
    omega
  obtain ⟨n', wnd, ann', state, left', is', window, later, said, length, leftQueued', states, -,
    announces, reached⟩ := Queued.takeOoseq stream (by omega) movedNext (by omega) leftQueued
      mergedPlaced.content (by rw [Nat.add_assoc]; rfl) last takeQueue
  have advances : Advances isn content n n' pcb inQueue := by
    refine ⟨?_, ?_, length, Or.inr said, ?_, ?_, ?_, ?_, fun edge announced below => ?_⟩
    · rw [is']
    · rw [is']
      change wnd.toNat + n' = _
      omega
    · rw [is']
      exact leftQueued'
    · rw [is', is]
    · rw [is']
      exact states.imp_left fun same => same.trans (by rw [is])
    · exact .quiet (by rw [is', is])
    · have movedAnnounced := announced.take next narrow take
        (by rw [mergedPlaced.tcplen]; omega)
      rw [mergedPlaced.tcplen] at movedAnnounced
      exact ⟨edge, le_rfl, announces edge movedAnnounced below⟩
  refine ⟨n', ?_, ?_⟩
  · have keeps := (inQueue.pcb.keeps_cleanSacks).trans inQueue.pcb.cleanSacks.keeps_tcpAck
    cases final
    split
    · exact advances.keep (keeps.trans (TcpRcv.keeps_tcpSendEmptyAck _ outcome))
    · exact advances.keep keeps
  · have target := reached _ reaches
    omega

/-- A segment that is out of order changes nothing but the queue. -/
theorem Placed.receiveOutOfOrder (stream : StreamLike content) {pcb : TcpRcv} {n : Nat}
    (next : pcb.rcvNxt = seqAt isn n) (narrow : pcb.rcvWnd.toNat < 2 ^ 16)
    (queued : Queued isn content (n + pcb.rcvWnd.toNat) (n + 1) pcb.ooseq)
    (placed : Placed isn content p seg) (span : 0 < seg.span) (later : n < p)
    (inside : p < n + pcb.rcvWnd.toNat) (copied : Bool) (outcome : AckOutcome) :
    ∃ taken, pcb.receiveOutOfOrder seg copied outcome = some taken ∧
      Advances isn content n n pcb taken := by
  rw [TcpRcv.receiveOutOfOrder]
  have finish : ∀ {queue : List TcpSeg} {stored : TcpRcv},
      Queued isn content (n + pcb.rcvWnd.toNat) (n + 1) queue →
      TcpRcv.Keeps { pcb with ooseq := queue } stored →
      Advances isn content n n pcb ⟨stored.tcpSendEmptyAck outcome, [], false⟩ := by
    intro queue stored queueQueued keeps
    have stays : Advances isn content n n pcb ⟨{ pcb with ooseq := queue }, [], false⟩ :=
      { next := next
        window := rfl
        length := rfl
        said := Or.inl rfl
        queue := queueQueued
        wndScale := rfl
        state := Or.inl rfl
        acks := .quiet rfl
        announced := fun edge announced _ => ⟨edge, le_rfl, announced.quiet rfl rfl rfl⟩ }
    exact stays.keep (keeps.trans (stored.keeps_tcpSendEmptyAck outcome))
  cases queue : pcb.ooseq with
  | nil =>
    refine ⟨_, rfl, ?_⟩
    have single : Queued isn content (n + pcb.rcvWnd.toNat) (n + 1)
        (if copied = true then [seg] else []) := by
      cases copied with
      | false => trivial
      | true => exact Queued.singleton placed later inside span
    exact finish single (TcpRcv.keeps_storeSack _ _ _)
  | cons first rest =>
    rw [queue] at queued
    obtain ⟨place, is, placeQueued⟩ : ∃ place,
        oosWalk seg copied (seqAt isn (n + pcb.rcvWnd.toNat)) none (first :: rest)
            (if tcpSeqLt seg.seqno first.seqno then seg.seqno else first.seqno) = some place ∧
          Queued isn content (n + pcb.rcvWnd.toNat) (n + 1) (place.upTo ++ place.behind) :=
      Queued.walk stream placed span inside inside (by omega) copied (by omega) (by omega) queued
        (by rintro _ ⟨⟩)
    have right : pcb.rcvNxt + pcb.rcvWnd = seqAt isn (n + pcb.rcvWnd.toNat) := by
      rw [next, seqAt_add]
    simp only [right, is, Option.bind_eq_bind, Option.bind_some]
    refine ⟨_, rfl, ?_⟩
    exact finish placeQueued (TcpRcv.keeps_sackPlace _ place)

/-! ### Segments anywhere -/

theorem TcpRcv.inWindow_seqAt {pcb : TcpRcv} {n : Nat} (next : pcb.rcvNxt = seqAt isn n)
    (isOpen : 0 < pcb.rcvWnd.toNat) (narrow : pcb.rcvWnd.toNat < 2 ^ 16)
    (near : Serial.Near 32 p n) :
    pcb.inWindow (seqAt isn p) = decide (n ≤ p ∧ p < n + pcb.rcvWnd.toNat) := by
  rw [TcpRcv.inWindow, next, seqAt_add, seqAt_sub_one isn (by omega)]
  by_cases before : p < n
  · rw [tcpSeqBetween, tcpSeqGeq_seqAt near, decide_eq_false (by omega), Bool.false_and,
      decide_eq_false (by omega)]
  · obtain ⟨above, below⟩ := near
    rw [tcpSeqBetween_seqAt ⟨by omega, by omega⟩ ⟨by omega, by omega⟩, decide_eq_decide]
    omega

/-- A segment that is in order or behind it, with the first edge trimmed. -/
theorem Placed.receiveTrimmed (stream : StreamLike content) {pcb : TcpRcv} {n : Nat}
    (next : pcb.rcvNxt = seqAt isn n) (isOpen : 0 < pcb.rcvWnd.toNat)
    (narrow : pcb.rcvWnd.toNat < 2 ^ 16)
    (queued : Queued isn content (n + pcb.rcvWnd.toNat) (n + 1) pcb.ooseq)
    (placed : Placed isn content p seg) (span : 0 < seg.span) (near : Serial.Near 32 p n)
    {copied : Bool} {outcome : AckOutcome} {taken : RcvTaken}
    (took : pcb.receiveTrimmed seg copied outcome = some taken) :
    ∃ n', Advances isn content n n' pcb taken ∧
      (p = n → n + min seg.span pcb.rcvWnd.toNat ≤ n') := by
  rw [TcpRcv.receiveTrimmed, placed.seqno, TcpRcv.inWindow_seqAt next isOpen narrow near,
    next] at took
  by_cases inside : n ≤ p ∧ p < n + pcb.rcvWnd.toNat
  · rw [decide_eq_true inside, if_pos rfl] at took
    by_cases inOrder : n = p
    · rw [if_pos (by rw [inOrder])] at took
      subst inOrder
      obtain ⟨n', advances, progress⟩ :=
        placed.receiveInOrder stream next isOpen narrow queued span took
      exact ⟨n', advances, fun _ => progress⟩
    · rw [if_neg fun same => inOrder ((seqAt_inj ⟨by omega, by omega⟩).mp same)] at took
      obtain ⟨taken', is, advances⟩ := placed.receiveOutOfOrder stream next narrow queued span
        (by omega) inside.2 copied outcome
      rw [is] at took
      cases took
      exact ⟨n, advances, fun same => absurd same.symm inOrder⟩
  · rw [decide_eq_false inside, if_neg Bool.false_ne_true] at took
    cases took
    refine ⟨n, (Advances.none next queued).keep (pcb.keeps_tcpSendEmptyAck outcome), ?_⟩
    intro same
    omega

/-- The first edge of a segment is moved up, and the assertions never fail. -/
theorem Placed.trimFront (stream : StreamLike content) (placed : Placed isn content p seg) {n : Nat}
    (after : p ≤ n) (within : n < p + seg.span) (short : seg.span < 2 ^ 16) :
    ∃ cut, seg.trimFront (seqAt isn n) = some cut ∧ Placed isn content n cut ∧
      n + cut.span = p + seg.span := by
  have fits : n - p ≤ seg.p.length := by
    rw [TcpSeg.span] at within
    split at within <;> omega
  have off : seqAt isn n - seg.seqno = UInt32.ofNat (n - p) := by
    rw [placed.seqno, seqAt_sub isn after]
  have off32 : (UInt32.ofNat (n - p)).toNat = n - p := UInt32.toNat_ofNat_of_lt' (by
    change _ < 2 ^ 32
    omega)
  have off16 : (UInt32.ofNat (n - p)).toUInt16.toNat = n - p := by
    rw [UInt32.toNat_toUInt16, off32]
    omega
  have length : (seg.p.drop (n - p)).length = seg.p.length - (n - p) := List.length_drop
  have small : UInt32.ofNat (n - p) < 0xffff := by
    rw [UInt32.lt_iff_toNat_lt, off32]
    change _ < 65535
    omega
  refine ⟨{ seg with
    seqno := seqAt isn n
    len := seg.len - (UInt32.ofNat (n - p)).toUInt16
    p := seg.p.drop (n - p) }, ?_, ⟨rfl, ?_, placed.noSyn, ?_⟩, ?_⟩
  · rw [TcpSeg.trimFront]
    simp only [off, off32, off16]
    rw [if_pos ⟨small, fits⟩]
  · have under : (UInt32.ofNat (n - p)).toUInt16 ≤ seg.len := by
      rw [UInt16.le_iff_toNat_le, off16, ← placed.len]
      exact fits
    change (seg.p.drop (n - p)).length = _
    rw [length, UInt16.toNat_sub_of_le _ _ under, off16, placed.len]
  · have moved := stream.cutFront fits placed.content
    rwa [Nat.add_sub_cancel' after] at moved
  · change n + ((seg.p.drop (n - p)).length + if seg.has tcpFin then 1 else 0) = _
    rw [length, TcpSeg.span]
    omega

/-- A segment anywhere near the position of the receiver. -/
theorem Placed.tcpReceive (stream : StreamLike content) {pcb : TcpRcv} {n : Nat}
    (next : pcb.rcvNxt = seqAt isn n) (isOpen : 0 < pcb.rcvWnd.toNat)
    (narrow : pcb.rcvWnd.toNat < 2 ^ 16)
    (queued : Queued isn content (n + pcb.rcvWnd.toNat) (n + 1) pcb.ooseq)
    (placed : Placed isn content p seg) (short : seg.span < 2 ^ 16)
    (ahead : p + seg.span < n + 2 ^ 31) (behind : n < p + 2 ^ 31)
    {copied : Bool} {outcome : AckOutcome} {taken : RcvTaken}
    (took : pcb.tcpReceive seg copied outcome = some taken) :
    ∃ n', Advances isn content n n' pcb taken ∧
      (p ≤ n → pcb.state.belowCloseWait = true →
        min (p + seg.span) (n + pcb.rcvWnd.toNat) ≤ n') := by
  have near : Serial.Near 32 p n := ⟨by omega, by omega⟩
  have ackNext : pcb.tcpAckNow.rcvNxt = seqAt isn n := next
  rw [TcpRcv.tcpReceive] at took
  by_cases data : seg.tcplen > 0 ∧ pcb.state.belowCloseWait = true
  · have span : 0 < seg.span := by
      rw [← placed.tcplen]
      exact UInt32.lt_iff_toNat_lt.mp data.1
    rw [if_pos data, placed.seqno_add_tcplen, placed.seqno, seqAt_add_one,
      seqAt_sub_one isn (show 0 < p + seg.span by omega), next,
      tcpSeqBetween_seqAt ⟨by omega, by omega⟩ ⟨by omega, by omega⟩,
      tcpSeqLt_seqAt near] at took
    by_cases overlaps : p + 1 ≤ n ∧ n ≤ p + seg.span - 1
    · rw [decide_eq_true overlaps, if_pos rfl] at took
      obtain ⟨cut, is, cutPlaced, cutSpan⟩ :=
        placed.trimFront stream (by omega) (show n < p + seg.span by omega) short
      rw [is, Option.bind_some] at took
      obtain ⟨n', advances, progress⟩ := cutPlaced.receiveTrimmed stream next isOpen narrow queued
        (by omega) ⟨by omega, by omega⟩ took
      have reached := progress rfl
      exact ⟨n', advances, fun _ _ => by omega⟩
    · rw [decide_eq_false overlaps, if_neg Bool.false_ne_true] at took
      by_cases old : p < n
      · rw [decide_eq_true old, if_pos rfl] at took
        obtain ⟨n', advances, -⟩ := placed.receiveTrimmed stream ackNext isOpen
          narrow queued span near took
        have later := advances.length
        exact ⟨n', advances.tcpAckNow, fun _ _ => by omega⟩
      · rw [decide_eq_false old, if_neg Bool.false_ne_true] at took
        obtain ⟨n', advances, progress⟩ :=
          placed.receiveTrimmed stream next isOpen narrow queued span near took
        have later := advances.length
        exact ⟨n', advances, fun le _ => by have reached := progress (by omega); omega⟩
  · rw [if_neg data] at took
    have idle : ∀ kept, TcpRcv.Keeps pcb kept → some ⟨kept, [], false⟩ = some taken →
        ∃ n', Advances isn content n n' pcb taken ∧
          (p ≤ n → pcb.state.belowCloseWait = true →
            min (p + seg.span) (n + pcb.rcvWnd.toNat) ≤ n') := by
      rintro kept keeps ⟨⟩
      refine ⟨n, (Advances.none next queued).keep keeps, fun le state => ?_⟩
      have empty : seg.span = 0 := by
        rw [← placed.tcplen]
        exact Nat.eq_zero_of_not_pos fun pos => data ⟨UInt32.lt_iff_toNat_lt.mpr pos, state⟩
      omega
    split at took
    · exact idle _ (.refl pcb) took
    · exact idle _ pcb.keeps_tcpAckNow took

/-! ### A peer that keeps to the window -/

section Window

variable {edge n : Nat} {pcb : TcpRcv}

/-- Whatever is said ends at an edge. -/
def EndsBy (content : Nat → Bytes → Bool → Prop) (edge : Nat) : Prop :=
  ∀ {p data fin}, content p data fin → p + data.length + (if fin then 1 else 0) ≤ edge

theorem EndsBy.span_le (bounded : EndsBy content edge) (placed : Placed isn content p seg) :
    p + seg.span ≤ edge := by
  have within := bounded placed.content
  rwa [Nat.add_assoc] at within

/-- What fits the window is taken. -/
theorem TcpRcv.take_some {tcplen : UInt32} (fits : tcplen.toNat ≤ pcb.rcvWnd.toNat) :
    ∃ moved, pcb.take tcplen = some moved := by
  rw [TcpRcv.take, if_pos (UInt32.le_iff_toNat_le.mpr fits)]
  exact ⟨_, rfl⟩

/-- No assertion fails while a queue is taken whose segments all end in the window. -/
theorem Queued.takeOoseq_some (bounded : EndsBy content edge) {queue : List TcpSeg}
    {data : Bytes} {gotFin : Bool} (wide : hi < n + 2 ^ 30)
    (next : pcb.rcvNxt = seqAt isn n) (reach : edge ≤ n + pcb.rcvWnd.toNat)
    (queued : Queued isn content hi n queue) :
    ∃ taken, Net2Tr.takeOoseq pcb data gotFin queue = some taken := by
  induction queue generalizing pcb data gotFin n with
  | nil => exact ⟨_, rfl⟩
  | cons cseg rest inductionHypothesis =>
    obtain ⟨p, after, below, placed, span, segLast, behind⟩ := queued
    rw [Net2Tr.takeOoseq, placed.seqno, next]
    by_cases inOrder : p = n
    · subst inOrder
      rw [if_pos rfl]
      have ends := bounded.span_le placed
      have fits : cseg.tcplen.toNat ≤ pcb.rcvWnd.toNat := by
        rw [placed.tcplen]
        omega
      obtain ⟨moved, take⟩ := TcpRcv.take_some fits
      obtain ⟨_, ann, is⟩ := pcb.take_eq take
      have movedNext : moved.rcvNxt = seqAt isn (p + cseg.span) := by
        rw [is, next, ← placed.seqno_add_tcplen, placed.seqno]
      have movedReach : edge ≤ p + cseg.span + moved.rcvWnd.toNat := by
        rw [is]
        change _ ≤ _ + (pcb.rcvWnd - cseg.tcplen).toNat
        rw [UInt32.toNat_sub_of_le _ _ (UInt32.le_iff_toNat_le.mpr fits), placed.tcplen]
        omega
      rw [take, Option.bind_some]
      cases fin : cseg.has tcpFin with
      | true =>
        rw [segLast fin, if_pos rfl]
        exact ⟨_, rfl⟩
      | false =>
        have spanIs : cseg.span = cseg.p.length := by
          rw [TcpSeg.span, fin]
          rfl
        rw [if_neg Bool.false_ne_true]
        exact inductionHypothesis (by omega) movedNext movedReach (by rw [spanIs]; exact behind)
    · rw [if_neg fun same => inOrder ((seqAt_inj ⟨by omega, by omega⟩).mp same)]
      exact ⟨_, rfl⟩

/-- No assertion fails for a segment that is next in order. -/
theorem Placed.receiveInOrder_some (stream : StreamLike content) (bounded : EndsBy content edge)
    (next : pcb.rcvNxt = seqAt isn n) (isOpen : 0 < pcb.rcvWnd.toNat)
    (narrow : pcb.rcvWnd.toNat < 2 ^ 16) (reach : edge ≤ n + pcb.rcvWnd.toNat)
    (queued : Queued isn content (n + pcb.rcvWnd.toNat) (n + 1) pcb.ooseq)
    (placed : Placed isn content n seg) (span : 0 < seg.span) (outcome : AckOutcome) :
    ∃ taken, pcb.receiveInOrder seg outcome = some taken := by
  obtain ⟨cut, cutIs, cutPlaced, cutSpan⟩ := placed.cutToWindow stream next narrow
  obtain ⟨merged, left, adjusted, mergedPlaced, mergedSpan, last, leftQueued, -⟩ :=
    Queued.adjustOoseq stream (by omega) cutPlaced (by omega) queued
  have ends := bounded.span_le mergedPlaced
  have fits : merged.tcplen.toNat ≤ pcb.rcvWnd.toNat := by
    rw [mergedPlaced.tcplen]
    omega
  obtain ⟨moved, take⟩ := TcpRcv.take_some fits
  obtain ⟨_, ann, is⟩ := pcb.take_eq take
  have movedNext : moved.rcvNxt = seqAt isn (n + merged.span) := by
    rw [is, next, ← mergedPlaced.seqno_add_tcplen, mergedPlaced.seqno]
  have movedReach : edge ≤ n + merged.span + moved.rcvWnd.toNat := by
    rw [is]
    change _ ≤ _ + (pcb.rcvWnd - merged.tcplen).toNat
    rw [UInt32.toNat_sub_of_le _ _ (UInt32.le_iff_toNat_le.mpr fits), mergedPlaced.tcplen]
    omega
  obtain ⟨taken, takeQueue⟩ : ∃ taken,
      Net2Tr.takeOoseq moved merged.p (merged.has tcpFin) left = some taken :=
    Queued.takeOoseq_some bounded (by omega) movedNext movedReach leftQueued
  rw [TcpRcv.receiveInOrder, cutIs]
  simp only [Option.bind_eq_bind, Option.bind_some, adjusted, take, takeQueue]
  exact ⟨_, rfl⟩

theorem Placed.receiveTrimmed_some (stream : StreamLike content) (bounded : EndsBy content edge)
    (next : pcb.rcvNxt = seqAt isn n) (isOpen : 0 < pcb.rcvWnd.toNat)
    (narrow : pcb.rcvWnd.toNat < 2 ^ 16) (reach : edge ≤ n + pcb.rcvWnd.toNat)
    (queued : Queued isn content (n + pcb.rcvWnd.toNat) (n + 1) pcb.ooseq)
    (placed : Placed isn content p seg) (span : 0 < seg.span) (near : Serial.Near 32 p n)
    (copied : Bool) (outcome : AckOutcome) :
    ∃ taken, pcb.receiveTrimmed seg copied outcome = some taken := by
  rw [TcpRcv.receiveTrimmed, placed.seqno, TcpRcv.inWindow_seqAt next isOpen narrow near, next]
  by_cases inside : n ≤ p ∧ p < n + pcb.rcvWnd.toNat
  · rw [decide_eq_true inside, if_pos rfl]
    by_cases inOrder : n = p
    · rw [if_pos (by rw [inOrder])]
      subst inOrder
      exact placed.receiveInOrder_some stream bounded next isOpen narrow reach queued span outcome
    · rw [if_neg fun same => inOrder ((seqAt_inj ⟨by omega, by omega⟩).mp same)]
      obtain ⟨taken, is, -⟩ := placed.receiveOutOfOrder stream next narrow queued span (by omega)
        inside.2 copied outcome
      exact ⟨taken, is⟩
  · rw [decide_eq_false inside, if_neg Bool.false_ne_true]
    exact ⟨_, rfl⟩

/-- No assertion fails in `tcp_receive` for a segment that ends in the window, if those of the
queue do. -/
theorem Placed.tcpReceive_some (stream : StreamLike content) (bounded : EndsBy content edge)
    (next : pcb.rcvNxt = seqAt isn n) (isOpen : 0 < pcb.rcvWnd.toNat)
    (narrow : pcb.rcvWnd.toNat < 2 ^ 16) (reach : edge ≤ n + pcb.rcvWnd.toNat)
    (queued : Queued isn content (n + pcb.rcvWnd.toNat) (n + 1) pcb.ooseq)
    (placed : Placed isn content p seg) (short : seg.span < 2 ^ 16)
    (ahead : p + seg.span < n + 2 ^ 31) (behind : n < p + 2 ^ 31)
    (copied : Bool) (outcome : AckOutcome) :
    ∃ taken, pcb.tcpReceive seg copied outcome = some taken := by
  have near : Serial.Near 32 p n := ⟨by omega, by omega⟩
  have ackNext : pcb.tcpAckNow.rcvNxt = seqAt isn n := next
  rw [TcpRcv.tcpReceive]
  by_cases data : seg.tcplen > 0 ∧ pcb.state.belowCloseWait = true
  · have span : 0 < seg.span := by
      rw [← placed.tcplen]
      exact UInt32.lt_iff_toNat_lt.mp data.1
    rw [if_pos data, placed.seqno_add_tcplen, placed.seqno, seqAt_add_one,
      seqAt_sub_one isn (show 0 < p + seg.span by omega), next,
      tcpSeqBetween_seqAt ⟨by omega, by omega⟩ ⟨by omega, by omega⟩,
      tcpSeqLt_seqAt near]
    by_cases overlaps : p + 1 ≤ n ∧ n ≤ p + seg.span - 1
    · rw [decide_eq_true overlaps, if_pos rfl]
      obtain ⟨cut, is, cutPlaced, cutSpan⟩ :=
        placed.trimFront stream (by omega) (show n < p + seg.span by omega) short
      rw [is, Option.bind_some]
      exact cutPlaced.receiveTrimmed_some stream bounded next isOpen narrow reach queued
        (by omega) ⟨by omega, by omega⟩ copied outcome
    · rw [decide_eq_false overlaps, if_neg Bool.false_ne_true]
      split
      · exact placed.receiveTrimmed_some stream bounded ackNext isOpen narrow
          reach queued span near copied outcome
      · exact placed.receiveTrimmed_some stream bounded next isOpen narrow reach queued span near
          copied outcome
  · rw [if_neg data]
    split <;> exact ⟨_, rfl⟩

end Window

end Segments

end Net2Tr
