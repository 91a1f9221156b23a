/-
This file says what the functions of the sending half do to its queues: which
segments move where, which are new, and which are cut or grow. What else they do
to a connection, its timers and the congestion window, does not matter for the
bytes that are sent, and is left out of these descriptions.
-/

import Libn2t.TcpReassembly
import Libn2t.TcpSend

namespace Net2Tr

/-! ### Segments -/

namespace SndSeg

variable (seg : SndSeg)

/-- A flag that is set does not change another one. -/
theorem has_setFlag {flag other : UInt8} (apart : flag &&& other = 0) :
    (seg.setFlag flag).has other = seg.has other := by
  have same : (seg.flags ||| flag) &&& other = seg.flags &&& other := by
    rw [← UInt8.toBitVec_inj, UInt8.toBitVec_and, UInt8.toBitVec_or, BitVec.and_or_distrib_right,
      ← UInt8.toBitVec_and, ← UInt8.toBitVec_and, apart]
    exact BitVec.or_zero
  change decide ((seg.flags ||| flag) &&& other ≠ 0) = decide (seg.flags &&& other ≠ 0)
  rw [same]

theorem has_fin_setFin : (seg.setFlag tcpFin).has tcpFin = true := seg.wire.has_fin_setFlag

/-- A segment that can stand in a queue. Its pbufs are not empty, but for the one of a segment that
is only a FIN. -/
structure Valid : Prop where
  bytes : seg.p.flatten.length = seg.len.toNat
  noSyn : seg.has tcpSyn = false
  noRst : seg.has tcpRst = false
  pbufs : seg.p = [[]] ∨ seg.p ≠ [] ∧ ∀ chunk ∈ seg.p, chunk ≠ []
  notEmpty : seg.len ≠ 0 ∨ seg.has tcpFin = true

variable {seg}

theorem Valid.setFlag (valid : seg.Valid) {flag : UInt8} (noSyn : flag &&& tcpSyn = 0)
    (noRst : flag &&& tcpRst = 0) (fin : flag = tcpFin ∨ flag &&& tcpFin = 0) :
    (seg.setFlag flag).Valid where
  bytes := valid.bytes
  noSyn := (seg.has_setFlag noSyn).trans valid.noSyn
  noRst := (seg.has_setFlag noRst).trans valid.noRst
  pbufs := valid.pbufs
  notEmpty := by
    rcases fin with rfl | apart
    · exact Or.inr seg.has_fin_setFin
    · rw [seg.has_setFlag apart]
      exact valid.notEmpty

theorem Valid.length_pos (valid : seg.Valid) : 0 < seg.p.length := by
  rcases valid.pbufs with single | ⟨some, _⟩
  · rw [single]
    exact Nat.one_pos
  · exact List.length_pos_of_ne_nil some

/-- A segment with bytes has no empty pbuf. -/
theorem Valid.chunks (valid : seg.Valid) (bytes : seg.len ≠ 0) : ∀ chunk ∈ seg.p, chunk ≠ [] := by
  rcases valid.pbufs with single | ⟨_, chunks⟩
  · have zero := valid.bytes
    rw [single] at zero
    exact absurd (UInt16.toNat_inj.mp zero.symm) bytes
  · exact chunks

end SndSeg

/-- Pbufs that are not empty are at most as many as their bytes. -/
theorem length_le_flatten {chunks : List Bytes} (some : ∀ chunk ∈ chunks, chunk ≠ []) :
    chunks.length ≤ chunks.flatten.length := by
  induction chunks with
  | nil => exact le_rfl
  | cons chunk rest inductionHypothesis =>
    have bytes := List.length_pos_of_ne_nil (some chunk List.mem_cons_self)
    have more := inductionHypothesis fun other isIn => some other (List.mem_cons_of_mem _ isIn)
    rw [List.length_cons, List.flatten_cons, List.length_append]
    omega

/-- `pbuf_realloc` keeps the first bytes. -/
theorem trimPbufs_spec {chunks : List Bytes} {length : Nat} (positive : 0 < length)
    (inside : length ≤ chunks.flatten.length) (some : ∀ chunk ∈ chunks, chunk ≠ []) :
    (trimPbufs length chunks).flatten = chunks.flatten.take length ∧
      trimPbufs length chunks ≠ [] ∧ ∀ chunk ∈ trimPbufs length chunks, chunk ≠ [] := by
  induction chunks generalizing length with
  | nil =>
    change length ≤ 0 at inside
    omega
  | cons first rest inductionHypothesis =>
    rw [List.flatten_cons, List.length_append] at inside
    rw [trimPbufs, List.flatten_cons]
    split
    case isTrue more =>
      obtain ⟨flat, _, chunks⟩ := @inductionHypothesis (length - first.length) (by omega)
        (by omega) fun other isIn => some other (List.mem_cons_of_mem _ isIn)
      refine ⟨?_, List.cons_ne_nil _ _, fun chunk isIn => ?_⟩
      · rw [List.flatten_cons, flat, List.take_append, List.take_of_length_le more.le]
      · rcases List.mem_cons.mp isIn with rfl | later
        · exact some _ List.mem_cons_self
        · exact chunks chunk later
    case isFalse inFirst =>
      have le : length ≤ first.length := Nat.le_of_not_lt inFirst
      refine ⟨?_, List.cons_ne_nil _ _, fun chunk isIn => ?_⟩
      · rw [List.flatten_cons, List.flatten_nil, List.append_nil,
          List.take_append_of_le_length le]
      · rw [List.mem_singleton.mp isIn]
        exact List.ne_nil_of_length_pos (by rw [List.length_take]; omega)

namespace SndSeg

/-- A segment has grown by bytes, in so many more pbufs. -/
structure Grown (last : SndSeg) (data : Bytes) (pbufs : Nat) (grown : SndSeg) : Prop where
  seqno : grown.seqno = last.seqno
  flags : grown.flags = last.flags
  len : grown.len.toNat = last.len.toNat + data.length
  bytes : grown.p.flatten = last.p.flatten ++ data
  count : grown.p.length = last.p.length + pbufs
  valid : grown.Valid

variable {last : SndSeg}

theorem Grown.refl (valid : last.Valid) : last.Grown [] 0 last :=
  ⟨rfl, rfl, rfl, (List.append_nil _).symm, rfl, valid⟩

theorem Grown.trans {middle grown : SndSeg} {data more : Bytes} {m n : Nat}
    (first : last.Grown data m middle) (second : middle.Grown more n grown) :
    last.Grown (data ++ more) (m + n) grown where
  seqno := second.seqno.trans first.seqno
  flags := second.flags.trans first.flags
  len := by rw [second.len, first.len, List.length_append, Nat.add_assoc]
  bytes := by rw [second.bytes, first.bytes, List.append_assoc]
  count := by rw [second.count, first.count, Nat.add_assoc]
  valid := second.valid

/-- The length of a segment that grows. -/
theorem toNat_len_add {len : UInt16} {data : Bytes} (fits : len.toNat + data.length < 2 ^ 16) :
    (len + UInt16.ofNat data.length).toNat = len.toNat + data.length := by
  rw [UInt16.toNat_add, UInt16.toNat_ofNat']
  omega

/-- Bytes are put into the last pbuf. -/
theorem Valid.extend (valid : last.Valid) {data : Bytes} (some : data ≠ [])
    (fits : last.len.toNat + data.length < 2 ^ 16) : last.Grown data 0 (last.extend data) := by
  have notEmpty : last.p ≠ [] := List.ne_nil_of_length_pos valid.length_pos
  have whole : last.p.dropLast ++ [last.p.getLastD []] = last.p := by
    rw [List.getLastD_eq_getLast?, List.getLast?_eq_some_getLast notEmpty, Option.getD_some]
    exact List.dropLast_append_getLast notEmpty
  have bytes : (last.extend data).p.flatten = last.p.flatten ++ data := by
    change (last.p.dropLast ++ [last.p.getLastD [] ++ data]).flatten = _
    rw [← congrArg List.flatten whole, List.flatten_append, List.flatten_append,
      List.flatten_singleton, List.flatten_singleton, List.append_assoc]
  have len := toNat_len_add fits
  refine ⟨rfl, rfl, len, bytes, ?_, ?_, valid.noSyn, valid.noRst, ?_, Or.inl fun zero => ?_⟩
  · change (last.p.dropLast ++ [_]).length = _
    rw [List.length_append, List.length_dropLast, List.length_singleton]
    exact Nat.sub_add_cancel valid.length_pos
  · rw [bytes, List.length_append, valid.bytes]
    exact len.symm
  · refine Or.inr ⟨by simp [SndSeg.extend], fun chunk isIn => ?_⟩
    rcases List.mem_append.mp isIn with old | new
    · rcases valid.pbufs with single | ⟨_, chunks⟩
      · rw [single] at old
        cases old
      · exact chunks chunk (List.dropLast_subset _ old)
    · rw [List.mem_singleton.mp new]
      exact fun empty => some (List.append_eq_nil_iff.mp empty).2
  · have bytes := List.length_pos_of_ne_nil some
    have none : (last.extend data).len.toNat = 0 := congrArg UInt16.toNat zero
    change (last.len + UInt16.ofNat data.length).toNat = 0 at none
    omega

/-- A pbuf is chained to a segment with bytes. -/
theorem Valid.concat (valid : last.Valid) {data : Bytes} (some : data ≠ [])
    (bytes : last.len ≠ 0) (fits : last.len.toNat + data.length < 2 ^ 16) :
    last.Grown data 1 (last.concat data) := by
  have flat : (last.concat data).p.flatten = last.p.flatten ++ data := by
    change (last.p ++ [data]).flatten = _
    rw [List.flatten_append, List.flatten_singleton]
  have len := toNat_len_add fits
  refine ⟨rfl, rfl, len, flat, List.length_append, ?_, valid.noSyn, valid.noRst, ?_,
    Or.inl fun zero => ?_⟩
  · rw [flat, List.length_append, valid.bytes]
    exact len.symm
  · refine Or.inr ⟨by simp [SndSeg.concat], fun chunk isIn => ?_⟩
    rcases List.mem_append.mp isIn with old | new
    · exact valid.chunks bytes chunk old
    · rw [List.mem_singleton.mp new]
      exact some
  · have more := List.length_pos_of_ne_nil some
    have none : (last.concat data).len.toNat = 0 := congrArg UInt16.toNat zero
    change (last.len + UInt16.ofNat data.length).toNat = 0 at none
    omega

/-- Segments that differ in flags that do not matter for their bytes. -/
structure Alike (seg other : SndSeg) : Prop where
  seqno : other.seqno = seg.seqno
  len : other.len = seg.len
  p : other.p = seg.p
  fin : other.has tcpFin = seg.has tcpFin
  syn : other.has tcpSyn = seg.has tcpSyn
  rst : other.has tcpRst = seg.has tcpRst

theorem Alike.refl (seg : SndSeg) : seg.Alike seg := ⟨rfl, rfl, rfl, rfl, rfl, rfl⟩

theorem alike_push (seg : SndSeg) : seg.Alike (seg.setFlag tcpPsh) :=
  ⟨rfl, rfl, rfl, seg.has_setFlag rfl, seg.has_setFlag rfl, seg.has_setFlag rfl⟩

theorem alike_ack (seg : SndSeg) : seg.Alike (seg.setFlag tcpAck) :=
  ⟨rfl, rfl, rfl, seg.has_setFlag rfl, seg.has_setFlag rfl, seg.has_setFlag rfl⟩

theorem Alike.valid {seg other : SndSeg} (alike : seg.Alike other) (valid : seg.Valid) :
    other.Valid where
  bytes := by
    rw [alike.p, alike.len]
    exact valid.bytes
  noSyn := alike.syn.trans valid.noSyn
  noRst := alike.rst.trans valid.noRst
  pbufs := by
    rw [alike.p]
    exact valid.pbufs
  notEmpty := by
    rw [alike.len, alike.fin]
    exact valid.notEmpty

end SndSeg

/-- Segments of some bytes that follow one another from a sequence number on. -/
def Consecutive : UInt32 → Bytes → List SndSeg → Prop
  | _, data, [] => data = []
  | seqno, data, seg :: rest =>
    ∃ n, 0 < n ∧ n ≤ data.length ∧ n < 2 ^ 16 ∧
      seg = ⟨seqno, 0, UInt16.ofNat n, [data.take n]⟩ ∧
      Consecutive (seqno + UInt32.ofNat n) (data.drop n) rest

/-- The last segment of a queue takes some bytes, in so many more pbufs. -/
inductive FillsLast : List SndSeg → Bytes → Nat → List SndSeg → Prop
  | none : FillsLast [] [] 0 []
  | last (front : List SndSeg) {last grown : SndSeg} {data : Bytes} {pbufs : Nat}
    (grows : last.Grown data pbufs grown) :
    FillsLast (front ++ [last]) data pbufs (front ++ [grown])

/-! ### Writing -/

namespace TcpSnd

variable {pcb pcb' : TcpSnd}

theorem pushLast_alike (segments : List SndSeg) :
    List.Forall₂ SndSeg.Alike segments (pushLast segments) := by
  induction segments with
  | nil => exact .nil
  | cons seg rest inductionHypothesis =>
    cases rest with
    | nil => exact .cons seg.alike_push .nil
    | cons next others => exact .cons (.refl seg) inductionHypothesis

theorem mssLocal_pos (mss : pcb.mss ≠ 0) : 0 < pcb.mssLocal.toNat := by
  refine Nat.pos_of_ne_zero fun zero => ?_
  have zero : pcb.mssLocal = 0 := UInt16.toNat_inj.mp zero
  unfold mssLocal at zero
  dsimp only at zero
  split at zero
  · exact mss zero
  · contradiction

/-- The third phase of `tcp_write`. -/
theorem newSegments_spec (mss : pcb.mss ≠ 0) {mem : Nat → Bool} {fuel : Nat} {seqno : UInt32}
    {left : Bytes} {first : Bool} {queuelen oversize : UInt16} {segments : List SndSeg}
    {queuelen' oversize' : UInt16}
    (new : pcb.newSegments mem fuel seqno left first queuelen oversize =
      some (segments, queuelen', oversize')) :
    Consecutive seqno left segments ∧ queuelen' = queuelen + UInt16.ofNat segments.length := by
  induction fuel generalizing seqno left first queuelen oversize segments queuelen' oversize' with
  | zero =>
    cases left with
    | nil =>
      cases new
      exact ⟨rfl, (UInt16.add_zero _).symm⟩
    | cons byte rest => cases new
  | succ fuel inductionHypothesis =>
    cases left with
    | nil =>
      cases new
      exact ⟨rfl, (UInt16.add_zero _).symm⟩
    | cons byte rest =>
      rw [newSegments] at new
      · dsimp only at new
        split at new
        · cases new
        · obtain ⟨⟨segments, queuelen, oversize⟩, more, is⟩ := Option.map_eq_some_iff.mp new
          cases is
          obtain ⟨consecutive, queuelen⟩ := inductionHypothesis more
          have positive := mssLocal_pos mss
          have small := pcb.mssLocal.toNat_lt
          refine ⟨⟨_, ?_, ?_, ?_, rfl, consecutive⟩, ?_⟩
          · rw [List.length_cons]
            omega
          · omega
          · omega
          · rw [queuelen, List.length_cons, UInt16.ofNat_add, UInt16.add_assoc,
              UInt16.add_comm 1]
            rfl
      · exact List.cons_ne_nil _ _

/-- The first two phases of `tcp_write`. -/
theorem fillLast_spec {last : SndSeg} {arg : Bytes} {mem : Nat → Bool} {filled : Filled}
    (valid : last.Valid) (short : arg.length < 2 ^ 16)
    (fills : pcb.fillLast last arg mem = some (some filled)) :
    ∃ data pbufs, arg = data ++ filled.rest ∧ last.Grown data pbufs filled.last ∧
      filled.queuelen = pcb.sndQueuelen + UInt16.ofNat pbufs := by
  unfold fillLast at fills
  split at fills
  · cases fills
  case isFalse fits =>
    dsimp only at fills
    split at fills
    · cases fills
    case isFalse roomy =>
      split at fills
      · cases fills
      · have small := pcb.mssLocal.toNat_lt
        have room : (pcb.mssLocal - last.len).toNat = pcb.mssLocal.toNat - last.len.toNat :=
          UInt16.toNat_sub_of_le _ _ (UInt16.not_lt.mp fits)
        have fits : last.len.toNat ≤ pcb.mssLocal.toNat :=
          UInt16.le_iff_toNat_le.mp (UInt16.not_lt.mp fits)
        generalize used_eq : min (pcb.mssLocal - last.len).toNat
          (min pcb.unsentOversize.toNat arg.length) = used at fills
        have used_le : used ≤ arg.length ∧ used ≤ pcb.mssLocal.toNat - last.len.toNat := by omega
        -- the first phase
        have first : last.Grown (arg.take used) 0
            (if used = 0 then last else last.extend (arg.take used)) := by
          split
          case isTrue none =>
            rw [none]
            exact .refl valid
          case isFalse some =>
            have length : (arg.take used).length = used := List.length_take_of_le used_le.1
            exact valid.extend (List.ne_nil_of_length_pos (by omega)) (by omega)
        split at fills
        case isTrue more =>
          obtain ⟨left, space, bytes⟩ := more
          split at fills
          · cases fills
          · cases fills
            have length := first.len
            have taken : (arg.take used).length = used := List.length_take_of_le used_le.1
            have spaceLeft : (pcb.mssLocal - last.len - UInt16.ofNat used).toNat =
                pcb.mssLocal.toNat - last.len.toNat - used := by
              have le : (UInt16.ofNat used).toNat ≤ (pcb.mssLocal - last.len).toNat := by
                rw [UInt16.toNat_ofNat', room]
                omega
              rw [UInt16.toNat_sub_of_le _ _ (UInt16.le_iff_toNat_le.mpr le), room,
                UInt16.toNat_ofNat']
              omega
            have positive : 0 < (pcb.mssLocal - last.len - UInt16.ofNat used).toNat :=
              UInt16.lt_iff_toNat_lt.mp space
            generalize seglen_eq : min (pcb.mssLocal - last.len - UInt16.ofNat used).toNat
              (arg.drop used).length = seglen
            have some := List.length_pos_of_ne_nil left
            have length' : ((arg.drop used).take seglen).length = seglen :=
              List.length_take_of_le (by omega)
            have bytesNow : (if used = 0 then last else last.extend (arg.take used)).len ≠ 0 := by
              intro zero
              have zero := congrArg UInt16.toNat zero
              have bytes : 0 < last.len.toNat := UInt16.lt_iff_toNat_lt.mp bytes
              change _ = 0 at zero
              omega
            have chunk : (arg.drop used).take seglen ≠ [] :=
              List.ne_nil_of_length_pos (by omega)
            have second := first.valid.concat chunk bytesNow (by omega)
            refine ⟨_, 1, ?_, first.trans second, rfl⟩
            rw [List.append_assoc, List.take_append_drop, List.take_append_drop]
        case isFalse =>
          cases fills
          exact ⟨_, 0, (List.take_append_drop used arg).symm, first, (UInt16.add_zero _).symm⟩

/-- Nothing has changed that matters for what is sent. -/
structure Quiet (pcb pcb' : TcpSnd) : Prop where
  unsent : pcb'.unsent = pcb.unsent
  unacked : pcb'.unacked = pcb.unacked
  sndBuf : pcb'.sndBuf = pcb.sndBuf
  sndQueuelen : pcb'.sndQueuelen = pcb.sndQueuelen
  sndLbb : pcb'.sndLbb = pcb.sndLbb
  sndNxt : pcb'.sndNxt = pcb.sndNxt
  lastack : pcb'.lastack = pcb.lastack
  fin : pcb'.fin = pcb.fin
  state : pcb'.state = pcb.state
  mss : pcb.mss ≠ 0 → pcb'.mss ≠ 0

theorem Quiet.refl (pcb : TcpSnd) : Quiet pcb pcb :=
  ⟨rfl, rfl, rfl, rfl, rfl, rfl, rfl, rfl, rfl, id⟩

theorem Quiet.trans {pcb'' : TcpSnd} (first : Quiet pcb pcb') (second : Quiet pcb' pcb'') :
    Quiet pcb pcb'' where
  unsent := second.unsent.trans first.unsent
  unacked := second.unacked.trans first.unacked
  sndBuf := second.sndBuf.trans first.sndBuf
  sndQueuelen := second.sndQueuelen.trans first.sndQueuelen
  sndLbb := second.sndLbb.trans first.sndLbb
  sndNxt := second.sndNxt.trans first.sndNxt
  lastack := second.lastack.trans first.lastack
  fin := second.fin.trans first.fin
  state := second.state.trans first.state
  mss := second.mss ∘ first.mss

theorem quiet_nagleMemErr (pcb : TcpSnd) (flag : Bool) :
    Quiet pcb { pcb with nagleMemErr := flag } :=
  ⟨rfl, rfl, rfl, rfl, rfl, rfl, rfl, rfl, rfl, id⟩

/-- The states in which `tcp_write` takes data. -/
def takesData : TcpState → Bool
  | .established | .closeWait | .synSent | .synRcvd => true
  | _ => false

/-- `tcp_write` has taken some bytes: the first of them go to the last segment, the others to new
ones. -/
structure Writes (pcb : TcpSnd) (arg : Bytes) (pcb' : TcpSnd) : Prop where
  state : takesData pcb.state = true
  fits : arg.length ≤ pcb.sndBuf.toNat
  taken : ∃ data rest pbufs filled segments, arg = data ++ rest ∧
    FillsLast pcb.unsent data pbufs filled ∧
    Consecutive (pcb.sndLbb + UInt32.ofNat data.length) rest segments ∧
    List.Forall₂ SndSeg.Alike (filled ++ segments) pcb'.unsent ∧
    pcb'.sndQueuelen = pcb.sndQueuelen + UInt16.ofNat (pbufs + segments.length)
  sndBuf : pcb'.sndBuf = pcb.sndBuf - UInt32.ofNat arg.length
  sndLbb : pcb'.sndLbb = pcb.sndLbb + UInt32.ofNat arg.length
  unacked : pcb'.unacked = pcb.unacked
  sndNxt : pcb'.sndNxt = pcb.sndNxt
  lastack : pcb'.lastack = pcb.lastack
  fin : pcb'.fin = pcb.fin
  sameState : pcb'.state = pcb.state
  mss : pcb'.mss = pcb.mss

theorem memerr_spec {err : ErrT} (fails : pcb.memerr = some (pcb', err)) :
    err ≠ .ok ∧ Quiet pcb pcb' := by
  unfold memerr at fails
  split at fails
  · cases fails
    exact ⟨fun same => (by cases same), pcb.quiet_nagleMemErr true⟩
  · cases fails

/-- `tcp_write_checks` changes at most a flag, and only lets pass what fits the buffer. -/
theorem tcpWriteChecks_spec {len : UInt16} {err : ErrT}
    (checks : pcb.tcpWriteChecks len = some (pcb', err)) :
    (err ≠ .ok ∧ Quiet pcb pcb') ∨
      (err = .ok ∧ pcb' = pcb ∧ takesData pcb.state = true ∧ len.toNat ≤ pcb.sndBuf.toNat) := by
  have refused : ∀ {other : ErrT} {flag : Bool}, other ≠ .ok →
      some ({ pcb with nagleMemErr := flag }, other) = some (pcb', err) →
      err ≠ .ok ∧ Quiet pcb pcb' := by
    intro other flag notOk is
    cases is
    exact ⟨notOk, pcb.quiet_nagleMemErr flag⟩
  have open_ : ¬ (pcb.state ≠ .established ∧ pcb.state ≠ .closeWait ∧ pcb.state ≠ .synSent ∧
      pcb.state ≠ .synRcvd) → takesData pcb.state = true := by
    cases pcb.state <;> simp [takesData]
  unfold tcpWriteChecks at checks
  split at checks
  · exact Or.inl (refused (fun same => (by cases same)) checks)
  case isFalse mayWrite =>
    split at checks
    case isTrue zero =>
      cases checks
      exact Or.inr ⟨rfl, rfl, open_ mayWrite, by rw [zero]; exact Nat.zero_le _⟩
    case isFalse =>
      split at checks
      · exact Or.inl (refused (fun same => (by cases same)) checks)
      case isFalse fits =>
        split at checks
        · exact Or.inl (refused (fun same => (by cases same)) checks)
        · split at checks
          · cases checks
            refine Or.inr ⟨rfl, rfl, open_ mayWrite, ?_⟩
            have le := UInt32.le_iff_toNat_le.mp (UInt32.not_lt.mp fits)
            rwa [UInt16.toNat_toUInt32] at le
          · cases checks

/-- The end of `tcp_write`. -/
theorem commit_spec {len queuelen oversize : UInt16} {front segments : List SndSeg}
    {touched : Bool} {err : ErrT}
    (commits : pcb.commit len front segments queuelen oversize touched = some (pcb', err)) :
    err = .ok ∧ List.Forall₂ SndSeg.Alike (front ++ segments) pcb'.unsent ∧
      ∃ pushed, pcb' = { pcb with
        unsent := pushed
        unsentOversize := oversize
        sndLbb := pcb.sndLbb + len.toUInt32
        sndBuf := pcb.sndBuf - len.toUInt32
        sndQueuelen := queuelen } := by
  have alike : List.Forall₂ SndSeg.Alike (front ++ segments)
      (if segments = [] ∧ touched = false then front else pushLast (front ++ segments)) := by
    split
    case isTrue nothing =>
      rw [nothing.1, List.append_nil]
      exact List.forall₂_same.mpr fun seg _ => .refl seg
    case isFalse => exact pushLast_alike _
  unfold commit at commits
  generalize (if segments = [] ∧ touched = false then front
    else pushLast (front ++ segments)) = pushed at alike commits
  dsimp only at commits
  split at commits
  · cases commits
    exact ⟨rfl, alike, pushed, rfl⟩
  · cases commits

/-- `tcp_write` takes all bytes or none. -/
theorem tcpWrite_spec (valid : ∀ seg ∈ pcb.unsent, seg.Valid) (mss : pcb.mss ≠ 0) {arg : Bytes}
    (short : arg.length < 2 ^ 16) {mem : Nat → Bool} {err : ErrT}
    (writes : pcb.tcpWrite arg mem = some (pcb', err)) :
    (err ≠ .ok ∧ Quiet pcb pcb') ∨ (err = .ok ∧ Writes pcb arg pcb') := by
  have len : (UInt16.ofNat arg.length).toNat = arg.length := by
    rw [UInt16.toNat_ofNat']
    omega
  have wide : (UInt16.ofNat arg.length).toUInt32 = UInt32.ofNat arg.length := by
    rw [← UInt32.toNat_inj, UInt16.toNat_toUInt32, len, UInt32.toNat_ofNat']
    omega
  unfold tcpWrite at writes
  dsimp only at writes
  split at writes
  · cases writes
  case h_2 checked checks =>
    obtain ⟨refused, -⟩ | ⟨-, rfl, state, fits⟩ := tcpWriteChecks_spec checks
    · exact absurd rfl refused
    rw [len] at fits
    split at writes
    case h_1 nothing =>
      rw [List.getLast?_eq_none_iff] at nothing
      split at writes
      · cases writes
      · split at writes
        · exact Or.inl (memerr_spec writes)
        case h_2 segments queuelen oversize new =>
          obtain ⟨ok, alike, pushed, is⟩ := commit_spec writes
          obtain ⟨consecutive, queuelen⟩ := newSegments_spec mss new
          subst is
          refine Or.inr ⟨ok, state, fits, ⟨[], arg, 0, [], segments, rfl, ?_, ?_, alike, ?_⟩, ?_,
            ?_, rfl, rfl, rfl, rfl, rfl, rfl⟩
          · rw [nothing]
            exact .none
          · exact (UInt32.add_zero checked.sndLbb).symm ▸ consecutive
          · rw [Nat.zero_add]
            exact queuelen
          · change _ - _ = _
            rw [wide]
          · change _ + _ = _
            rw [wide]
    case h_2 last isLast =>
      split at writes
      · cases writes
      · exact Or.inl (memerr_spec writes)
      case h_3 filled fills =>
        split at writes
        · exact Or.inl (memerr_spec writes)
        case h_2 segments queuelen oversize new =>
          have notEmpty : checked.unsent ≠ [] := fun empty => by
            rw [empty] at isLast
            cases isLast
          have split_ : checked.unsent = checked.unsent.dropLast ++ [last] := by
            rw [List.getLast?_eq_some_getLast notEmpty, Option.some.injEq] at isLast
            rw [← isLast, List.dropLast_append_getLast]
          obtain ⟨data, pbufs, whole, grown, fillsQueue⟩ := fillLast_spec
            (valid last (List.mem_of_getLast? isLast)) short fills
          obtain ⟨ok, alike, pushed, is⟩ := commit_spec writes
          obtain ⟨consecutive, newQueue⟩ := newSegments_spec mss new
          subst is
          refine Or.inr ⟨ok, state, fits, ⟨data, filled.rest, pbufs, _, segments, whole, ?_, ?_,
            alike, ?_⟩, ?_, ?_, rfl, rfl, rfl, rfl, rfl, rfl⟩
          · rw [split_, List.dropLast_concat]
            exact .last _ grown
          · have before : arg.length - filled.rest.length = data.length := by
              rw [whole, List.length_append, Nat.add_sub_cancel]
            rwa [before] at consecutive
          · change queuelen = _
            rw [newQueue, fillsQueue, UInt16.ofNat_add, UInt16.add_assoc]
          · change _ - _ = _
            rw [wide]
          · change _ + _ = _
            rw [wide]
  case h_3 checked other notOk checks =>
    cases writes
    obtain refused | ⟨ok, -⟩ := tcpWriteChecks_spec checks
    · exact Or.inl refused
    · exact absurd ok notOk

/-! ### The end of the stream -/

/-- A FIN was put into the queue: on its last segment, or behind it. -/
structure Closes (pcb pcb' : TcpSnd) : Prop where
  state : takesData pcb.state = true
  closed : takesData pcb'.state = false
  fin : pcb'.fin = true
  queue : (∃ front last, pcb.unsent = front ++ [last] ∧
      pcb'.unsent = front ++ [last.setFlag tcpFin] ∧ pcb'.sndQueuelen = pcb.sndQueuelen) ∨
    (pcb'.unsent = pcb.unsent ++ [⟨pcb.sndLbb, tcpFin, 0, [[]]⟩] ∧
      pcb'.sndQueuelen = pcb.sndQueuelen + 1)
  unacked : pcb'.unacked = pcb.unacked
  sndBuf : pcb'.sndBuf = pcb.sndBuf
  sndNxt : pcb'.sndNxt = pcb.sndNxt
  lastack : pcb'.lastack = pcb.lastack
  mss : pcb'.mss = pcb.mss

/-- `tcp_send_fin` adds a FIN to the last segment, or enqueues one, or changes a flag; its assertion
holds. -/
theorem tcpSendFin_spec (open_ : takesData pcb.state = true) (mem : Bool) :
    (∃ pcb', pcb.tcpSendFin mem = some (pcb', .ok) ∧
      ∀ state, takesData state = false → Closes pcb { pcb' with state := state }) ∨
    pcb.tcpSendFin mem = some ({ pcb with nagleMemErr := true }, .mem) := by
  have enqueue : (∃ pcb', pcb.tcpEnqueueFin mem = some (pcb', .ok) ∧
      ∀ state, takesData state = false → Closes pcb { pcb' with state := state }) ∨
      pcb.tcpEnqueueFin mem = some ({ pcb with nagleMemErr := true }, .mem) := by
    cases mem with
    | false => exact Or.inr rfl
    | true =>
      refine Or.inl ⟨{ pcb with
        unsent := pcb.unsent ++ [⟨pcb.sndLbb, tcpFin, 0, [[]]⟩]
        unsentOversize := 0
        sndLbb := pcb.sndLbb + 1
        fin := true
        sndQueuelen := pcb.sndQueuelen + 1 }, (if_neg (by decide)).trans (if_pos ?_),
        fun state closed => ⟨open_, closed, rfl, Or.inr ⟨rfl, rfl⟩, rfl, rfl, rfl, rfl, rfl⟩⟩
      simp [validQueuelen, queued]
  unfold tcpSendFin
  split
  case h_1 last isLast =>
    split
    · exact enqueue
    · have notEmpty : pcb.unsent ≠ [] := fun empty => by
        rw [empty] at isLast
        cases isLast
      have whole : pcb.unsent = pcb.unsent.dropLast ++ [last] := by
        rw [List.getLast?_eq_some_getLast notEmpty, Option.some.injEq] at isLast
        rw [← isLast, List.dropLast_append_getLast]
      exact Or.inl ⟨_, rfl, fun state closed =>
        ⟨open_, closed, rfl, Or.inl ⟨_, last, whole, rfl, rfl⟩, rfl, rfl, rfl, rfl, rfl⟩⟩
  case h_2 => exact enqueue

/-- No assertion fails when the application ends the stream. -/
theorem tcpCloseShutdownFin_spec (pcb : TcpSnd) (mem : Bool) :
    ∃ pcb', pcb.tcpCloseShutdownFin mem = some pcb' ∧ (Quiet pcb pcb' ∨ Closes pcb pcb') := by
  have failed : Quiet pcb { pcb with nagleMemErr := true, closePend := true } :=
    ⟨rfl, rfl, rfl, rfl, rfl, rfl, rfl, rfl, rfl, id⟩
  unfold tcpCloseShutdownFin
  split
  case h_4 => exact ⟨pcb, rfl, Or.inl (.refl pcb)⟩
  all_goals
    rename_i state
    obtain ⟨pcb', sends, closes⟩ | sends :=
      pcb.tcpSendFin_spec (by rw [state]; rfl) mem
    · rw [sends]
      exact ⟨_, rfl, Or.inr (closes _ rfl)⟩
    · rw [sends]
      exact ⟨_, rfl, Or.inl failed⟩

/-! ### Sending -/

/-- Segments are sent from the front of `unsent`. -/
inductive Sends : TcpSnd → List TcpSeg → TcpSnd → Prop
  | done (pcb : TcpSnd) : Sends pcb [] pcb
  | quiet {pcb pcb' pcb'' : TcpSnd} {sent : List TcpSeg} (quiet : Quiet pcb pcb')
    (sends : Sends pcb' sent pcb'') : Sends pcb sent pcb''
  | setAck {pcb pcb' : TcpSnd} {seg : SndSeg} {rest : List SndSeg} {sent : List TcpSeg}
    (unsent : pcb.unsent = seg :: rest)
    (sends : Sends { pcb with unsent := seg.setFlag tcpAck :: rest } sent pcb') :
    Sends pcb sent pcb'
  | first {pcb pcb' : TcpSnd} {seg : SndSeg} {rest : List SndSeg} {sent : List TcpSeg}
    (unsent : pcb.unsent = seg :: rest) (sends : Sends (pcb.sentFirst seg rest) sent pcb') :
    Sends pcb (seg.wire :: sent) pcb'

theorem Sends.ofQuiet (quiet : Quiet pcb pcb') : Sends pcb [] pcb' := .quiet quiet (.done pcb')

theorem Sends.trans_quiet {pcb'' : TcpSnd} {sent : List TcpSeg} (sends : Sends pcb sent pcb')
    (quiet : Quiet pcb' pcb'') : Sends pcb sent pcb'' := by
  induction sends with
  | done => exact .ofQuiet quiet
  | quiet first _ inductionHypothesis => exact .quiet first (inductionHypothesis quiet)
  | setAck unsent _ inductionHypothesis => exact .setAck unsent (inductionHypothesis quiet)
  | first unsent _ inductionHypothesis => exact .first unsent (inductionHypothesis quiet)

theorem Sends.state {sent : List TcpSeg} (sends : Sends pcb sent pcb') :
    pcb'.state = pcb.state := by
  induction sends with
  | done => rfl
  | quiet quiet _ inductionHypothesis => exact inductionHypothesis.trans quiet.state
  | setAck _ _ inductionHypothesis => exact inductionHypothesis
  | first _ _ inductionHypothesis => exact inductionHypothesis

/-- The loop of `tcp_output`; as no segment is a reset, its assertion holds. -/
theorem outputLoop_spec (pcb : TcpSnd) (ticks : UInt32) (ok : Nat → Bool) {unsent : List SndSeg}
    (valid : ∀ seg ∈ unsent, seg.Valid) (is : pcb.unsent = unsent) :
    ∃ pcb' sent err, outputLoop ticks ok pcb unsent = some (pcb', sent, err) ∧
      Sends pcb sent pcb' := by
  induction unsent generalizing pcb with
  | nil => exact ⟨pcb, [], .ok, rfl, .done pcb⟩
  | cons seg rest inductionHypothesis =>
    rw [outputLoop]
    split
    · exact ⟨pcb, [], .ok, rfl, .done pcb⟩
    · rw [if_neg (by rw [(valid seg List.mem_cons_self).noRst]; exact Bool.false_ne_true)]
      split
      · exact ⟨pcb, [], .ok, rfl, .done pcb⟩
      · have starts : Quiet { pcb with unsent := seg.setFlag tcpAck :: rest }
            { pcb.startTimers (seg.setFlag tcpAck) ticks with
              unsent := seg.setFlag tcpAck :: rest } :=
          ⟨rfl, rfl, rfl, rfl, rfl, rfl, rfl, rfl, rfl, id⟩
        dsimp only
        split
        · exact ⟨_, [], .rte, rfl, .setAck is (.quiet starts (.ofQuiet (quiet_nagleMemErr _ _)))⟩
        · obtain ⟨pcb', sent, err, loop, sends⟩ := inductionHypothesis
            (({ pcb.startTimers (seg.setFlag tcpAck) ticks with
              unsent := seg.setFlag tcpAck :: rest } : TcpSnd).sentFirst (seg.setFlag tcpAck) rest)
            (fun other isIn => valid other (List.mem_cons_of_mem _ isIn)) rfl
          rw [loop]
          exact ⟨pcb', _, err, rfl, .setAck is (.quiet starts (.first rfl sends))⟩

theorem noOutput_spec (pcb : TcpSnd) (ackNow : Option AckOutcome) :
    ∃ pcb' err, pcb.noOutput ackNow = (pcb', [], err) ∧ Quiet pcb pcb' := by
  cases ackNow with
  | none => exact ⟨_, .ok, rfl, pcb.quiet_nagleMemErr false⟩
  | some outcome => exact ⟨pcb, outcome.err, rfl, .refl pcb⟩

/-- `tcp_output`. -/
theorem tcpOutput_spec (pcb : TcpSnd) (ticks : UInt32) (ok : Nat → Bool)
    (ackNow : Option AckOutcome) (valid : ∀ seg ∈ pcb.unsent, seg.Valid) :
    ∃ pcb' sent err, pcb.tcpOutput ticks ok ackNow = some (pcb', sent, err) ∧
      Sends pcb sent pcb' := by
  have quiet : ∀ {cnt backoff probe : UInt8} {pcb : TcpSnd} {flag : Bool} {oversize : UInt16},
      Quiet pcb { pcb with
        persistCnt := cnt
        persistBackoff := backoff
        persistProbe := probe
        unsentOversize := oversize
        nagleMemErr := flag } :=
    ⟨rfl, rfl, rfl, rfl, rfl, rfl, rfl, rfl, rfl, id⟩
  unfold tcpOutput
  have quits : ∀ {pcb₁ : TcpSnd}, Quiet pcb pcb₁ → ∃ pcb' sent err,
      some (pcb₁.noOutput ackNow) = some (pcb', sent, err) ∧ Sends pcb sent pcb' := by
    intro pcb₁ first
    obtain ⟨pcb', err, is, second⟩ := pcb₁.noOutput_spec ackNow
    exact ⟨pcb', [], err, congrArg some is, .ofQuiet (first.trans second)⟩
  split
  · exact quits (.refl pcb)
  · split
    · refine quits ?_
      split
      · exact quiet
      · exact .refl pcb
    · obtain ⟨pcb', sent, err, loop, sends⟩ :=
        outputLoop_spec { pcb with persistBackoff := 0 } ticks ok valid rfl
      have sends : Sends pcb sent pcb' := .quiet quiet sends
      rw [loop]
      cases err with
      | ok => exact ⟨_, sent, .ok, rfl, sends.trans_quiet quiet⟩
      | mem => exact ⟨pcb', sent, .mem, rfl, sends⟩
      | buf => exact ⟨pcb', sent, .buf, rfl, sends⟩
      | val => exact ⟨pcb', sent, .val, rfl, sends⟩
      | conn => exact ⟨pcb', sent, .conn, rfl, sends⟩
      | rte => exact ⟨pcb', sent, .rte, rfl, sends⟩

/-! ### The slow timer -/

/-- A segment is cut in two behind some of its bytes. A FIN is on both parts then. -/
structure CutIn (seg : SndSeg) (length : Nat) (head tail : SndSeg) : Prop where
  positive : 0 < length
  inside : length < seg.len.toNat
  headSeqno : head.seqno = seg.seqno
  tailSeqno : tail.seqno = seg.seqno + UInt32.ofNat length
  headBytes : head.p.flatten = seg.p.flatten.take length
  tailBytes : tail.p.flatten = seg.p.flatten.drop length
  headFin : head.has tcpFin = seg.has tcpFin
  tailFin : tail.has tcpFin = seg.has tcpFin
  headValid : head.Valid
  tailValid : tail.Valid

/-- The flags of the two parts of a segment. -/
theorem split_flags (flags : UInt8) :
    flags ||| (flags &&& ~~~(tcpPsh ||| tcpFin)) = flags ∧
      flags &&& (tcpPsh ||| tcpFin) &&& tcpFin = flags &&& tcpFin ∧
      flags &&& (tcpPsh ||| tcpFin) &&& tcpSyn = 0 ∧
      flags &&& (tcpPsh ||| tcpFin) &&& tcpRst = 0 := by
  have bits : ∀ flags : BitVec 8, flags ||| (flags &&& ~~~9) = flags ∧
      flags &&& 9 &&& 1 = flags &&& 1 ∧ flags &&& 9 &&& 2 = 0 ∧ flags &&& 9 &&& 4 = 0 := by
    decide
  obtain ⟨keep, fin, syn, rst⟩ := bits flags.toBitVec
  exact ⟨UInt8.toBitVec_inj.mp keep, UInt8.toBitVec_inj.mp fin, UInt8.toBitVec_inj.mp syn,
    UInt8.toBitVec_inj.mp rst⟩

/-- The two parts that `tcp_split_unsent_seg` makes of a segment. -/
theorem cutIn_split {useg : SndSeg} (valid : useg.Valid) {split : UInt16}
    (positive : 0 < split.toNat) (inside : split.toNat < useg.len.toNat) :
    CutIn useg split.toNat
      (({ useg with
          p := trimPbufs split.toNat useg.p
          len := useg.len - (useg.len - split) } : SndSeg).setFlag
        (useg.flags &&& ~~~(tcpPsh ||| tcpFin)))
      ⟨useg.seqno + split.toUInt32, useg.flags &&& (tcpPsh ||| tcpFin), useg.len - split,
        [(useg.p.flatten.drop split.toNat).take (useg.len - split).toNat]⟩ := by
  have remainder : (useg.len - split).toNat = useg.len.toNat - split.toNat :=
    UInt16.toNat_sub_of_le _ _ (UInt16.le_iff_toNat_le.mpr inside.le)
  have kept : (useg.len - (useg.len - split)).toNat = split.toNat := by
    rw [UInt16.toNat_sub_of_le _ _ (UInt16.le_iff_toNat_le.mpr (by omega)), remainder]
    omega
  have bytes := valid.bytes
  have length : (useg.p.flatten.drop split.toNat).length = (useg.len - split).toNat := by
    rw [List.length_drop, remainder, bytes]
  obtain ⟨flat, some, chunks⟩ := trimPbufs_spec positive (by omega)
    (valid.chunks fun zero => by rw [zero] at inside; exact Nat.not_lt_zero _ inside)
  obtain ⟨keep, fin, syn, rst⟩ := split_flags useg.flags
  have same : ∀ {flags flag : UInt8} {seg : SndSeg}, flags &&& flag = useg.flags &&& flag →
      seg.flags = flags → seg.has flag = useg.has flag := by
    rintro _ flag seg bit rfl
    exact congrArg (fun bits => decide (bits ≠ 0)) bit
  have unset : ∀ {flags flag : UInt8} {seg : SndSeg}, flags &&& flag = 0 → seg.flags = flags →
      seg.has flag = false := by
    rintro _ flag seg bit rfl
    exact decide_eq_false fun nonzero => nonzero bit
  rw [List.take_of_length_le length.le]
  refine ⟨positive, inside, rfl, ?_, flat, List.append_nil _, same rfl keep, same fin rfl,
    ⟨?_, (same rfl keep).trans valid.noSyn, (same rfl keep).trans valid.noRst,
      Or.inr ⟨some, chunks⟩, Or.inl fun zero => ?_⟩,
    ⟨?_, unset syn rfl, unset rst rfl, Or.inr ⟨List.cons_ne_nil _ _, fun chunk isIn => ?_⟩,
      Or.inl fun zero => ?_⟩⟩
  · change useg.seqno + split.toUInt32 = _
    have wide : split.toUInt32 = UInt32.ofNat split.toNat := by
      have small := split.toNat_lt
      rw [← UInt32.toNat_inj, UInt16.toNat_toUInt32, UInt32.toNat_ofNat']
      omega
    rw [wide]
  · change (trimPbufs split.toNat useg.p).flatten.length = (useg.len - (useg.len - split)).toNat
    rw [flat, kept, List.length_take, bytes]
    omega
  · have none := congrArg UInt16.toNat zero
    change (useg.len - (useg.len - split)).toNat = 0 at none
    omega
  · rw [← length]
    exact congrArg List.length (List.append_nil _)
  · rw [List.mem_singleton.mp isIn]
    exact List.ne_nil_of_length_pos (by omega)
  · have none := congrArg UInt16.toNat zero
    change (useg.len - split).toNat = 0 at none
    omega

/-- `tcp_split_unsent_seg`. -/
theorem tcpSplitUnsentSeg_spec (valid : ∀ seg ∈ pcb.unsent, seg.Valid) {split : UInt16}
    {mem : Bool} {err : ErrT} (splits : pcb.tcpSplitUnsentSeg split mem = some (pcb', err)) :
    pcb' = pcb ∨ ∃ useg rest head tail oversize, pcb.unsent = useg :: rest ∧
      CutIn useg split.toNat head tail ∧ pcb' = { pcb with
        unsent := head :: tail :: rest
        sndQueuelen := pcb.sndQueuelen - useg.clen + head.clen + tail.clen
        unsentOversize := oversize } := by
  unfold tcpSplitUnsentSeg at splits
  split at splits
  · cases splits
    exact Or.inl rfl
  case h_2 useg rest unsent =>
    split at splits
    · cases splits
    case isFalse positive =>
      split at splits
      · cases splits
        exact Or.inl rfl
      case isFalse inside =>
        split at splits
        · cases splits
        · dsimp only at splits
          split at splits
          · cases splits
            exact Or.inl rfl
          · cases splits
            have usegValid := valid useg (by
              rw [unsent]
              exact List.mem_cons_self)
            have positive : 0 < split.toNat := Nat.pos_of_ne_zero fun zero =>
              positive (UInt16.toNat_inj.mp zero)
            have inside : split.toNat < useg.len.toNat :=
              UInt16.lt_iff_toNat_lt.mp (UInt16.not_le.mp inside)
            exact Or.inr ⟨useg, rest, _, _, _, unsent, cutIn_split usegValid positive inside, rfl⟩

/-- The first number that was not sent moves behind the first one of a segment. -/
def probed (pcb : TcpSnd) (seg : SndSeg) : TcpSnd :=
  { pcb with
    sndNxt := if tcpSeqLt pcb.sndNxt (seg.seqno + 1) then seg.seqno + 1 else pcb.sndNxt }

/-- All segments are to be sent again. -/
def requeued (pcb : TcpSnd) : TcpSnd :=
  { pcb with unsent := pcb.unacked ++ pcb.unsent, unacked := [] }

/-- The first segment of `unsent` is replaced by its two parts. -/
def cut (pcb : TcpSnd) (useg head tail : SndSeg) (rest : List SndSeg) : TcpSnd :=
  { pcb with
    unsent := head :: tail :: rest
    sndQueuelen := pcb.sndQueuelen - useg.clen + head.clen + tail.clen }

theorem Quiet.requeued (quiet : Quiet pcb pcb') : Quiet pcb.requeued pcb'.requeued where
  unsent := by
    change pcb'.unacked ++ pcb'.unsent = pcb.unacked ++ pcb.unsent
    rw [quiet.unacked, quiet.unsent]
  unacked := rfl
  sndBuf := quiet.sndBuf
  sndQueuelen := quiet.sndQueuelen
  sndLbb := quiet.sndLbb
  sndNxt := quiet.sndNxt
  lastack := quiet.lastack
  fin := quiet.fin
  state := quiet.state
  mss := quiet.mss

theorem Quiet.probed (quiet : Quiet pcb pcb') (seg : SndSeg) :
    Quiet (pcb.probed seg) (pcb'.probed seg) where
  unsent := quiet.unsent
  unacked := quiet.unacked
  sndBuf := quiet.sndBuf
  sndQueuelen := quiet.sndQueuelen
  sndLbb := quiet.sndLbb
  sndNxt := by
    change (if tcpSeqLt pcb'.sndNxt _ then _ else pcb'.sndNxt) = _
    rw [quiet.sndNxt]
    rfl
  lastack := quiet.lastack
  fin := quiet.fin
  state := quiet.state
  mss := quiet.mss

theorem Quiet.cut (quiet : Quiet pcb pcb') (useg head tail : SndSeg) (rest : List SndSeg) :
    Quiet (pcb.cut useg head tail rest) (pcb'.cut useg head tail rest) where
  unsent := rfl
  unacked := quiet.unacked
  sndBuf := quiet.sndBuf
  sndQueuelen := by
    change pcb'.sndQueuelen - _ + _ + _ = pcb.sndQueuelen - _ + _ + _
    rw [quiet.sndQueuelen]
  sndLbb := quiet.sndLbb
  sndNxt := quiet.sndNxt
  lastack := quiet.lastack
  fin := quiet.fin
  state := quiet.state
  mss := quiet.mss

/-- What the slow timer does: it gives the connection up, probes the window, cuts the first segment
of `unsent` so that it fits into the window, or has everything sent again. -/
inductive SlowTimer : TcpSnd → List TcpSeg → TcpSnd → Prop
  | gone {pcb pcb' : TcpSnd} (closed : pcb'.state = .closed) : SlowTimer pcb [] pcb'
  | sends {pcb pcb' : TcpSnd} {sent : List TcpSeg} (sends : Sends pcb sent pcb') :
    SlowTimer pcb sent pcb'
  | probes {pcb pcb' : TcpSnd} {sent : List TcpSeg} {seg : SndSeg} {rest : List SndSeg}
    (unsent : pcb.unsent = seg :: rest) (quiet : Quiet (pcb.probed seg) pcb')
    (once : sent = [] ∨ sent = [seg.windowProbe]) : SlowTimer pcb sent pcb'
  | splits {pcb pcb' : TcpSnd} {sent : List TcpSeg} {useg head tail : SndSeg}
    {rest : List SndSeg} (persists : 0 < pcb.persistBackoff) (open_ : pcb.sndWnd ≠ 0)
    (unsent : pcb.unsent = useg :: rest)
    (parts : CutIn useg pcb.sndWnd.toUInt16.toNat head tail)
    (sends : Sends (pcb.cut useg head tail rest) sent pcb') : SlowTimer pcb sent pcb'
  | requeues {pcb pcb' : TcpSnd} {sent : List TcpSeg} (sends : Sends pcb.requeued sent pcb') :
    SlowTimer pcb sent pcb'

/-- A timer that counts on before it runs out. -/
theorem SlowTimer.quiet {pcb'' : TcpSnd} {sent : List TcpSeg} (quiet : Quiet pcb pcb')
    (backoff : pcb'.persistBackoff = pcb.persistBackoff) (wnd : pcb'.sndWnd = pcb.sndWnd)
    (timer : SlowTimer pcb' sent pcb'') : SlowTimer pcb sent pcb'' := by
  cases timer with
  | gone closed => exact .gone closed
  | sends sends => exact .sends (.quiet quiet sends)
  | probes unsent first once =>
    exact .probes (quiet.unsent.symm.trans unsent) ((quiet.probed _).trans first) once
  | splits persists open_ unsent parts sends =>
    rw [backoff] at persists
    rw [wnd] at open_ parts
    exact .splits persists open_ (quiet.unsent.symm.trans unsent) parts
      (.quiet (quiet.cut _ _ _ _) sends)
  | requeues sends => exact .requeues (.quiet quiet.requeued sends)

/-- A connection that is not given up is in the state it was in. -/
theorem SlowTimer.state {sent : List TcpSeg} (timer : SlowTimer pcb sent pcb') :
    pcb'.state = .closed ∨ pcb'.state = pcb.state := by
  cases timer with
  | gone closed => exact Or.inl closed
  | sends sends => exact Or.inr sends.state
  | probes _ quiet _ => exact Or.inr quiet.state
  | splits _ _ _ _ sends => exact Or.inr sends.state
  | requeues sends => exact Or.inr sends.state

theorem quiet_nextSlot (pcb : TcpSnd) : Quiet pcb pcb.nextSlot :=
  ⟨rfl, rfl, rfl, rfl, rfl, rfl, rfl, rfl, rfl, id⟩

/-- The probe of a window. -/
theorem tcpZeroWindowProbe_spec (mem ok : Bool) {sent : List TcpSeg} {err : ErrT}
    (probes : pcb.tcpZeroWindowProbe mem ok = (pcb', sent, err)) :
    (Quiet pcb pcb' ∧ sent = []) ∨ ∃ seg rest, pcb.unsent = seg :: rest ∧
      Quiet (pcb.probed seg) pcb' ∧ (sent = [] ∨ sent = [seg.windowProbe]) := by
  unfold tcpZeroWindowProbe at probes
  split at probes
  · cases probes
    exact Or.inl ⟨.refl pcb, rfl⟩
  case h_2 seg rest unsent =>
    dsimp only at probes
    split at probes
    · cases probes
      exact Or.inl ⟨⟨rfl, rfl, rfl, rfl, rfl, rfl, rfl, rfl, rfl, id⟩, rfl⟩
    · split at probes
      all_goals
        cases probes
        refine Or.inr ⟨seg, rest, unsent, ⟨rfl, rfl, rfl, rfl, rfl, rfl, rfl, rfl, rfl, id⟩, ?_⟩
      · exact Or.inr rfl
      · exact Or.inl rfl

/-- The persist timer has run out. -/
theorem persist_spec (pcb : TcpSnd) (valid : ∀ seg ∈ pcb.unsent, seg.Valid)
    (persists : 0 < pcb.persistBackoff) {mem : Bool} {ticks : UInt32} {ok : Nat → Bool}
    {ackNow : Option AckOutcome} {sent : List TcpSeg}
    (runs : pcb.persist mem ticks ok ackNow = some (pcb', sent)) :
    SlowTimer pcb sent pcb' := by
  unfold persist at runs
  split at runs
  · have probe : ∀ {pcb₁ sent₁ err}, pcb.tcpZeroWindowProbe mem (ok 0) = (pcb₁, sent₁, err) →
        ∀ {pcb₂}, Quiet pcb₁ pcb₂ → SlowTimer pcb sent₁ pcb₂ := by
      intro pcb₁ sent₁ err probes pcb₂ quiet
      obtain ⟨first, rfl⟩ | ⟨seg, rest, unsent, first, once⟩ := tcpZeroWindowProbe_spec mem _ probes
      · exact .sends (.ofQuiet (first.trans quiet))
      · exact .probes unsent (first.trans quiet) once
    split at runs
    all_goals
      rename_i probes
      cases runs
    · exact probe probes (quiet_nextSlot _)
    · exact probe probes (.refl _)
  case isFalse open_ =>
    obtain ⟨⟨pcb₁, err⟩, splits, after⟩ := Option.bind_eq_some_iff.mp runs
    have validNow : ∀ seg ∈ pcb₁.unsent, seg.Valid := by
      obtain rfl | ⟨useg, rest, head, tail, _, unsent, parts, rfl⟩ :=
        tcpSplitUnsentSeg_spec valid splits
      · exact valid
      · intro seg isIn
        rcases List.mem_cons.mp isIn with rfl | isIn
        · exact parts.headValid
        · rcases List.mem_cons.mp isIn with rfl | isIn
          · exact parts.tailValid
          · exact valid seg (by
              rw [unsent]
              exact List.mem_cons_of_mem _ isIn)
    have sends : Sends pcb₁ sent pcb' := by
      cases err with
      | ok =>
        obtain ⟨pcb₂, sent₂, err, output, sends⟩ := tcpOutput_spec pcb₁ ticks ok ackNow validNow
        change (pcb₁.tcpOutput ticks ok ackNow).map _ = _ at after
        rw [output] at after
        cases err
        all_goals cases after
        · exact sends
        all_goals exact sends.trans_quiet (quiet_nextSlot _)
      | mem | buf | val | conn | rte =>
        cases after
        exact .ofQuiet (quiet_nextSlot _)
    obtain rfl | ⟨useg, rest, head, tail, oversize, unsent, parts, rfl⟩ :=
      tcpSplitUnsentSeg_spec valid splits
    · exact .sends sends
    · have quiet : Quiet (pcb.cut useg head tail rest)
          { pcb.cut useg head tail rest with unsentOversize := oversize } :=
        ⟨rfl, rfl, rfl, rfl, rfl, rfl, rfl, rfl, rfl, id⟩
      exact .splits persists open_ unsent parts (.quiet quiet sends)

/-- The retransmission timer has run out. -/
theorem rexmitTimeout_spec (pcb : TcpSnd) (unacked : ∀ seg ∈ pcb.unacked, seg.Valid)
    (unsent : ∀ seg ∈ pcb.unsent, seg.Valid) {ticks : UInt32} {ok : Nat → Bool}
    {ackNow : Option AckOutcome} :
    ∃ pcb' sent, pcb.rexmitTimeout ticks ok ackNow = some (pcb', sent) ∧
      SlowTimer pcb sent pcb' := by
  have prepared : Quiet pcb.requeued pcb.tcpRexmitRtoPrepare.1 := by
    unfold tcpRexmitRtoPrepare
    split
    case h_1 nothing =>
      rw [List.getLast?_eq_none_iff] at nothing
      exact ⟨by simp [requeued, nothing], nothing, rfl, rfl, rfl, rfl, rfl, rfl, rfl, id⟩
    case h_2 => exact ⟨rfl, rfl, rfl, rfl, rfl, rfl, rfl, rfl, rfl, id⟩
  unfold rexmitTimeout
  dsimp only
  split
  · have out : ∀ {pcb₁ : TcpSnd}, Quiet pcb.requeued pcb₁ → ∃ pcb' sent,
        ((pcb₁.tcpOutput ticks ok ackNow).map fun result => (result.1, result.2.1)) =
          some (pcb', sent) ∧ SlowTimer pcb sent pcb' := by
      intro pcb₁ quiet
      obtain ⟨pcb', sent, err, output, sends⟩ := tcpOutput_spec pcb₁ ticks ok ackNow (by
        intro seg isIn
        rw [quiet.unsent] at isIn
        exact (List.mem_append.mp isIn).elim (unacked seg) (unsent seg))
      rw [output]
      exact ⟨pcb', sent, rfl, .requeues (.quiet quiet sends)⟩
    exact out (prepared.trans ⟨rfl, rfl, rfl, rfl, rfl, rfl, rfl, rfl, rfl, id⟩)
  · exact ⟨_, [], rfl, .requeues (.ofQuiet prepared)⟩

/-- The slow timer. -/
theorem tcpSlowtmr_spec (unacked : ∀ seg ∈ pcb.unacked, seg.Valid)
    (unsent : ∀ seg ∈ pcb.unsent, seg.Valid) {mem : Bool} {ticks : UInt32} {ok : Nat → Bool}
    {ackNow : Option AckOutcome} {sent : List TcpSeg}
    (runs : pcb.tcpSlowtmr mem ticks ok ackNow = some (pcb', sent)) : SlowTimer pcb sent pcb' := by
  unfold tcpSlowtmr at runs
  dsimp only at runs
  split at runs
  · cases runs
    exact .gone rfl
  · split at runs
    case isTrue persists =>
      split at runs
      · cases runs
      · split at runs
        · cases runs
          exact .gone rfl
        · have counted : ∀ cnt : UInt8, Quiet pcb { pcb with persistCnt := cnt } := fun _ =>
            ⟨rfl, rfl, rfl, rfl, rfl, rfl, rfl, rfl, rfl, id⟩
          generalize (if pcb.persistCnt < tcpPersistBackoff.getD (pcb.persistBackoff.toNat - 1) 0
            then pcb.persistCnt + 1 else pcb.persistCnt) = cnt at runs
          split at runs
          · exact .quiet (counted cnt) rfl rfl
              (persist_spec { pcb with persistCnt := cnt } unsent persists runs)
          · cases runs
            exact .sends (.ofQuiet (counted _))
    case isFalse =>
      have counted : ∀ rtime : Int16, Quiet pcb { pcb with rtime := rtime } := fun _ =>
        ⟨rfl, rfl, rfl, rfl, rfl, rfl, rfl, rfl, rfl, id⟩
      generalize (if pcb.rtime ≥ 0 ∧ pcb.rtime < 0x7fff then pcb.rtime + 1 else pcb.rtime) =
        rtime at runs
      split at runs
      · obtain ⟨pcb₁, sent₁, timeout, timer⟩ :=
          rexmitTimeout_spec { pcb with rtime := rtime } unacked unsent
        rw [timeout] at runs
        cases runs
        exact .quiet (counted rtime) rfl rfl timer
      · cases runs
        exact .sends (.ofQuiet (counted _))

/-! ### Acknowledgements -/

/-- The first segment of `unacked` is to be sent again. -/
def rexmitted (pcb : TcpSnd) (seg : SndSeg) (rest : List SndSeg) : TcpSnd :=
  { pcb with unacked := rest, unsent := insertSorted seg pcb.unsent }

/-- At most the first segment of `unacked` is to be sent again. -/
def MayRexmit (pcb pcb' : TcpSnd) : Prop :=
  Quiet pcb pcb' ∨ ∃ seg rest, pcb.unacked = seg :: rest ∧ Quiet (pcb.rexmitted seg rest) pcb'

theorem MayRexmit.of_quiet {pcb'' : TcpSnd} (quiet : Quiet pcb pcb')
    (may : MayRexmit pcb' pcb'') : MayRexmit pcb pcb'' := by
  obtain second | ⟨seg, rest, unacked, second⟩ := may
  · exact Or.inl (quiet.trans second)
  · have first : Quiet (pcb.rexmitted seg rest) (pcb'.rexmitted seg rest) :=
      ⟨congrArg (insertSorted seg) quiet.unsent, rfl, quiet.sndBuf, quiet.sndQueuelen,
        quiet.sndLbb, quiet.sndNxt, quiet.lastack, quiet.fin, quiet.state, quiet.mss⟩
    exact Or.inr ⟨seg, rest, quiet.unacked.symm.trans unacked, first.trans second⟩

theorem MayRexmit.trans_quiet {pcb'' : TcpSnd} (may : MayRexmit pcb pcb')
    (quiet : Quiet pcb' pcb'') : MayRexmit pcb pcb'' := by
  obtain first | ⟨seg, rest, unacked, first⟩ := may
  · exact Or.inl (first.trans quiet)
  · exact Or.inr ⟨seg, rest, unacked, first.trans quiet⟩

/-- A fast retransmission. -/
theorem tcpRexmitFast_spec (pcb : TcpSnd) : MayRexmit pcb pcb.tcpRexmitFast := by
  unfold tcpRexmitFast
  split
  · cases unacked : pcb.unacked with
    | nil =>
      rw [tcpRexmit, unacked]
      exact Or.inl (.refl pcb)
    | cons seg rest =>
      rw [tcpRexmit, unacked]
      exact Or.inr ⟨seg, rest, unacked, rfl, rfl, rfl, rfl, rfl, rfl, rfl, rfl, rfl, id⟩
  · exact Or.inl (.refl pcb)

theorem quiet_updateWindow (pcb : TcpSnd) (seqno ackno : UInt32) (wnd : UInt16) :
    Quiet pcb (pcb.updateWindow seqno ackno wnd) := by
  unfold updateWindow
  dsimp only
  split <;> exact ⟨rfl, rfl, rfl, rfl, rfl, rfl, rfl, rfl, rfl, id⟩

theorem quiet_estimateRtt (pcb : TcpSnd) (ackno ticks : UInt32) :
    Quiet pcb (pcb.estimateRtt ackno ticks) := by
  unfold estimateRtt
  split <;> exact ⟨rfl, rfl, rfl, rfl, rfl, rfl, rfl, rfl, rfl, id⟩

theorem quiet_openCwnd (pcb : TcpSnd) (acked : UInt32) : Quiet pcb (pcb.openCwnd acked) := by
  unfold openCwnd
  dsimp only
  split
  · exact ⟨rfl, rfl, rfl, rfl, rfl, rfl, rfl, rfl, rfl, id⟩
  · split <;> exact ⟨rfl, rfl, rfl, rfl, rfl, rfl, rfl, rfl, rfl, id⟩

/-- An acknowledgement of nothing new. -/
theorem duplicateAck_spec (pcb : TcpSnd) (ackno rightWndEdge tcplen : UInt32) :
    MayRexmit pcb (pcb.duplicateAck ackno rightWndEdge tcplen) := by
  have fast : ∀ {pcb₁ : TcpSnd} (third : Prop) [Decidable third], Quiet pcb pcb₁ →
      MayRexmit pcb (if third then pcb₁.tcpRexmitFast else pcb₁) := by
    intro pcb₁ third _ quiet
    split
    · exact (tcpRexmitFast_spec pcb₁).of_quiet quiet
    · exact Or.inl quiet
  unfold duplicateAck
  split
  · generalize (if pcb.dupacks + 1 > pcb.dupacks then pcb.dupacks + 1 else pcb.dupacks) = dupacks
    refine fast _ ?_
    dsimp only
    split <;> exact ⟨rfl, rfl, rfl, rfl, rfl, rfl, rfl, rfl, rfl, id⟩
  · exact Or.inl ⟨rfl, rfl, rfl, rfl, rfl, rfl, rfl, rfl, rfl, id⟩

end TcpSnd

end Net2Tr
