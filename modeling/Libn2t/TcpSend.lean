/-
This file models the sending half of a TCP connection of lwIP: the queues
`unsent` and `unacked`, `tcp_write`, `tcp_output`, the end of the stream, what
`tcp_receive` does with an acknowledgement, fast retransmission, and the two
timers of `tcp_slowtmr`.

A segment keeps the bytes of each of its pbufs behind the TCP header, which
stands in the first one. A `Socket` is the only one to write, and it has lwIP
copy the data, without `TCP_WRITE_FLAG_MORE`; the output function of `N2T` keeps
no reference to a pbuf, so no segment is ever busy. The functions that allocate
take what becomes of the allocations as an argument. An assertion of the source
that fails ends the process; the functions that contain one return `none` then.
-/

import Libn2t.SocketRun
import Libn2t.TcpReceive

namespace Net2Tr

/-! ### Segments -/

/-- `TCP_PSH`. -/
def tcpPsh : UInt8 := 0x08

/-- `struct tcp_seg` in a queue of the sending half. -/
structure SndSeg where
  seqno : UInt32
  flags : UInt8
  len : UInt16
  p : List Bytes
deriving DecidableEq, Repr

namespace SndSeg

variable (seg : SndSeg)

/-- The segment as it is sent. -/
def wire : TcpSeg := ⟨seg.seqno, seg.flags, seg.len, seg.p.flatten⟩

/-- A flag of the header. -/
def has (flag : UInt8) : Bool := seg.wire.has flag

/-- `TCP_TCPLEN`. -/
def tcplen : UInt32 := seg.wire.tcplen

/-- `TCPH_SET_FLAG`. -/
def setFlag (flag : UInt8) : SndSeg := { seg with flags := seg.flags ||| flag }

/-- `pbuf_clen`. -/
def clen : UInt16 := UInt16.ofNat seg.p.length

/-- Bytes are copied behind those of the last pbuf. -/
def extend (data : Bytes) : SndSeg :=
  { seg with
    len := seg.len + UInt16.ofNat data.length
    p := seg.p.dropLast ++ [seg.p.getLastD [] ++ data] }

/-- `pbuf_cat` of a pbuf. -/
def concat (data : Bytes) : SndSeg :=
  { seg with len := seg.len + UInt16.ofNat data.length, p := seg.p ++ [data] }

/-- What `tcp_zero_window_probe` sends of the first segment of `unsent`. -/
def windowProbe : TcpSeg :=
  if seg.has tcpFin ∧ seg.len = 0 then ⟨seg.seqno, tcpAck ||| tcpFin, 0, []⟩
  else ⟨seg.seqno, tcpAck, 1, [seg.p.flatten.headD 0]⟩

end SndSeg

/-- `pbuf_realloc` to a length, for the bytes behind the header. -/
def trimPbufs : Nat → List Bytes → List Bytes
  | _, [] => []
  | length, first :: rest =>
    if first.length < length then first :: trimPbufs (length - first.length) rest
    else [first.take length]

/-- `err_t`, as far as the functions of this file return it. -/
inductive ErrT where
  | ok | mem | buf | val | conn | rte
deriving DecidableEq, Repr

/-- What `tcp_send_empty_ack` returns. -/
def AckOutcome.err : AckOutcome → ErrT
  | .noPbuf => .buf
  | .failed => .rte
  | .sent => .ok

/-- The part of a `tcp_pcb` that is about sending. The flags are `TF_NODELAY`, which every `Socket`
sets, `TF_INFR`, `TF_RTO`, `TF_FIN`, `TF_NAGLEMEMERR` and `TF_CLOSEPEND`. -/
structure TcpSnd where
  state : TcpState
  mss : UInt16
  sndScale : UInt8
  noDelay : Bool
  inFr : Bool
  inRto : Bool
  fin : Bool
  nagleMemErr : Bool
  closePend : Bool
  rtime : Int16
  rttest : UInt32
  rtseq : UInt32
  sa : Int16
  sv : Int16
  rto : Int16
  nrtx : UInt8
  dupacks : UInt8
  lastack : UInt32
  cwnd : UInt32
  ssthresh : UInt32
  rtoEnd : UInt32
  sndNxt : UInt32
  sndWl1 : UInt32
  sndWl2 : UInt32
  sndLbb : UInt32
  sndWnd : UInt32
  sndWndMax : UInt32
  sndBuf : UInt32
  sndQueuelen : UInt16
  unsentOversize : UInt16
  bytesAcked : UInt32
  persistCnt : UInt8
  persistBackoff : UInt8
  persistProbe : UInt8
  unsent : List SndSeg
  unacked : List SndSeg
deriving DecidableEq, Repr

/-- `TCP_SND_QUEUELEN`. -/
def tcpSndQueuelen : UInt16 := 32

/-- `TCP_OVERSIZE`. -/
def tcpOversize : Nat := 1460

/-- `TCP_WND_INC`. -/
def tcpWndInc (wnd inc : UInt32) : UInt32 := if wnd ≤ wnd + inc then wnd + inc else 0xffffffff

/-- `LWIP_MEM_ALIGN_SIZE`, with an alignment of 4. -/
def memAlignSize (size : Nat) : Nat := (size + 3) / 4 * 4

namespace TcpSnd

variable (pcb : TcpSnd)

/-- Segments wait in a queue. -/
def queued : Bool := !pcb.unacked.isEmpty || !pcb.unsent.isEmpty

/-- The assertion that a queue is not empty if it has pbufs. -/
def validQueuelen : Bool := pcb.sndQueuelen = 0 || pcb.queued

/-! ### Writing -/

/-- `tcp_write_checks`. -/
def tcpWriteChecks (len : UInt16) : Option (TcpSnd × ErrT) :=
  if pcb.state ≠ .established ∧ pcb.state ≠ .closeWait ∧ pcb.state ≠ .synSent ∧
      pcb.state ≠ .synRcvd then some (pcb, .conn)
  else if len = 0 then some (pcb, .ok)
  else if len.toUInt32 > pcb.sndBuf then some ({ pcb with nagleMemErr := true }, .mem)
  else if pcb.sndQueuelen ≥ tcpSndQueuelen then some ({ pcb with nagleMemErr := true }, .mem)
  else if (pcb.sndQueuelen ≠ 0) = pcb.queued then some (pcb, .ok)
  else none

/-- `mss_local`. -/
def mssLocal : UInt16 :=
  let mss := min pcb.mss (min (pcb.sndWndMax / 2) 0xffff).toUInt16
  if mss = 0 then pcb.mss else mss

/-- What `tcp_pbuf_prealloc` allocates beyond a length. -/
def prealloc (length maxLength : UInt16) (first : Bool) : UInt16 :=
  if length < maxLength ∧ pcb.noDelay = false ∧ (first = false ∨ pcb.queued) then
    UInt16.ofNat (min maxLength.toNat (memAlignSize (length.toNat + tcpOversize))) - length
  else 0

/-- What the first two phases of `tcp_write` leave: the last segment of `unsent`, what is left of
the data, `oversize` and `queuelen`, and whether `seg` is the last segment. -/
structure Filled where
  last : SndSeg
  rest : Bytes
  oversize : UInt16
  queuelen : UInt16
  touched : Bool
deriving DecidableEq, Repr

/-- The first two phases of `tcp_write`: the last segment of `unsent` is filled up. `mem` is whether
the allocations succeed when so many bytes are left; without memory there is no result. -/
def fillLast (last : SndSeg) (arg : Bytes) (mem : Nat → Bool) : Option (Option Filled) :=
  if pcb.mssLocal < last.len then none
  else
    let space := pcb.mssLocal - last.len
    if pcb.unsentOversize > space then none
    else
      -- the first phase fills a pbuf that has room left
      let used := min space.toNat (min pcb.unsentOversize.toNat arg.length)
      let oversize := pcb.unsentOversize - UInt16.ofNat used
      let space := space - UInt16.ofNat used
      let rest := arg.drop used
      if oversize ≠ 0 ∧ rest ≠ [] then none
      else
        let filled : Filled :=
          { last := if used = 0 then last else last.extend (arg.take used)
            rest := rest
            oversize := oversize
            queuelen := pcb.sndQueuelen
            touched := pcb.unsentOversize ≠ 0 }
        if rest ≠ [] ∧ space > 0 ∧ last.len > 0 then
          -- the second phase chains a new pbuf to the segment
          if mem rest.length = false then some none
          else
            let seglen := min space.toNat rest.length
            some (some
              { last := filled.last.concat (rest.take seglen)
                rest := rest.drop seglen
                oversize := pcb.prealloc (UInt16.ofNat seglen) space true
                queuelen := filled.queuelen + 1
                touched := true })
        else some (some filled)

/-- The third phase of `tcp_write`: new segments, with `queuelen` and `oversize`. There is no result
without memory or room in the queue; as each segment takes a pbuf, there are at most
`TCP_SND_QUEUELEN` of them. -/
def newSegments (mem : Nat → Bool) : Nat → UInt32 → Bytes → Bool → UInt16 → UInt16 →
    Option (List SndSeg × UInt16 × UInt16)
  | _, _, [], _, queuelen, oversize => some ([], queuelen, oversize)
  | 0, _, _, _, _, _ => none
  | fuel + 1, seqno, left, first, queuelen, _ =>
    let seglen := min left.length pcb.mssLocal.toNat
    if mem left.length = false ∨ queuelen + 1 > tcpSndQueuelen then none
    else
      (newSegments mem fuel (seqno + UInt32.ofNat seglen) (left.drop seglen) false (queuelen + 1)
          (pcb.prealloc (UInt16.ofNat seglen) pcb.mssLocal first)).map
        fun (segments, queuelen, oversize) =>
          (⟨seqno, 0, UInt16.ofNat seglen, [left.take seglen]⟩ :: segments, queuelen, oversize)

/-- The end of `tcp_write` when there is no memory. -/
def memerr : Option (TcpSnd × ErrT) :=
  if pcb.validQueuelen then some ({ pcb with nagleMemErr := true }, .mem) else none

/-- The last segment of a list gets the flag `TCP_PSH`. -/
def pushLast : List SndSeg → List SndSeg
  | [] => []
  | [seg] => [seg.setFlag tcpPsh]
  | seg :: rest => seg :: pushLast rest

/-- The end of `tcp_write` when all data has found its place: `unsent` in front of the new segments,
and what they take. -/
def commit (len : UInt16) (front segments : List SndSeg) (queuelen oversize : UInt16)
    (touched : Bool) : Option (TcpSnd × ErrT) :=
  let pcb :=
    { pcb with
      unsent :=
        if segments = [] ∧ touched = false then front else pushLast (front ++ segments)
      unsentOversize := oversize
      sndLbb := pcb.sndLbb + len.toUInt32
      sndBuf := pcb.sndBuf - len.toUInt32
      sndQueuelen := queuelen }
  if pcb.validQueuelen then some (pcb, .ok) else none

/-- `tcp_write` of the bytes `arg`, which are copied. -/
def tcpWrite (arg : Bytes) (mem : Nat → Bool) : Option (TcpSnd × ErrT) :=
  let len := UInt16.ofNat arg.length
  match pcb.tcpWriteChecks len with
  | none => none
  | some (pcb, .ok) =>
    let fuel := tcpSndQueuelen.toNat + 1
    match pcb.unsent.getLast? with
    | none =>
      if pcb.unsentOversize ≠ 0 then none
      else
        match pcb.newSegments mem fuel pcb.sndLbb arg true pcb.sndQueuelen 0 with
        | none => pcb.memerr
        | some (segments, queuelen, oversize) => pcb.commit len [] segments queuelen oversize false
    | some last =>
      match pcb.fillLast last arg mem with
      | none => none
      | some none => pcb.memerr
      | some (some filled) =>
        let seqno := pcb.sndLbb + UInt32.ofNat (arg.length - filled.rest.length)
        match pcb.newSegments mem fuel seqno filled.rest true filled.queuelen filled.oversize with
        | none => pcb.memerr
        | some (segments, queuelen, oversize) =>
          pcb.commit len (pcb.unsent.dropLast ++ [filled.last]) segments queuelen oversize
            filled.touched
  | some (pcb, err) => some (pcb, err)

/-! ### The end of the stream -/

/-- `tcp_enqueue_flags` with `TCP_FIN`. -/
def tcpEnqueueFin (mem : Bool) : Option (TcpSnd × ErrT) :=
  if mem = false then some ({ pcb with nagleMemErr := true }, .mem)
  else
    let seg : SndSeg := ⟨pcb.sndLbb, tcpFin, 0, [[]]⟩
    let pcb :=
      { pcb with
        unsent := pcb.unsent ++ [seg]
        unsentOversize := 0
        sndLbb := pcb.sndLbb + 1
        fin := true
        sndQueuelen := pcb.sndQueuelen + seg.clen }
    if pcb.validQueuelen then some (pcb, .ok) else none

/-- `tcp_send_fin`. -/
def tcpSendFin (mem : Bool) : Option (TcpSnd × ErrT) :=
  match pcb.unsent.getLast? with
  | some last =>
    if last.has tcpSyn || last.has tcpFin || last.has tcpRst then pcb.tcpEnqueueFin mem
    else
      some ({ pcb with unsent := pcb.unsent.dropLast ++ [last.setFlag tcpFin], fin := true }, .ok)
  | none => pcb.tcpEnqueueFin mem

/-- `tcp_close_shutdown_fin` without the call of `tcp_output` at its end. -/
def tcpCloseShutdownFin (mem : Bool) : Option TcpSnd :=
  match pcb.state with
  | .synRcvd | .established =>
    (pcb.tcpSendFin mem).map fun
      | (pcb, .ok) => { pcb with state := .finWait1 }
      | (pcb, _) => { pcb with closePend := true }
  | .closeWait =>
    (pcb.tcpSendFin mem).map fun
      | (pcb, .ok) => { pcb with state := .lastAck }
      | (pcb, _) => { pcb with closePend := true }
  | _ => some pcb

/-! ### Sending -/

/-- `tcp_do_output_nagle`. -/
def tcpDoOutputNagle : Bool :=
  pcb.unacked = [] || (pcb.noDelay || pcb.inFr) ||
    (match pcb.unsent with
      | [] => false
      | [seg] => seg.len ≥ pcb.mss
      | _ => true) ||
    pcb.sndBuf = 0 || pcb.sndQueuelen ≥ tcpSndQueuelen

/-- The timers that `tcp_output_segment` starts. -/
def startTimers (seg : SndSeg) (ticks : UInt32) : TcpSnd :=
  { pcb with
    rtime := if pcb.rtime < 0 then 0 else pcb.rtime
    rttest := if pcb.rttest = 0 then ticks else pcb.rttest
    rtseq := if pcb.rttest = 0 then seg.seqno else pcb.rtseq }

/-- A segment is put in front of the first one that does not start before it. -/
def insertSorted (seg : SndSeg) : List SndSeg → List SndSeg
  | [] => [seg]
  | cur :: rest =>
    if tcpSeqLt cur.seqno seg.seqno then cur :: insertSorted seg rest else seg :: cur :: rest

/-- A segment that was sent is put on the list `unacked`. -/
def toUnacked (seg : SndSeg) : List SndSeg :=
  match pcb.unacked.getLast? with
  | none => [seg]
  | some useg =>
    if tcpSeqLt seg.seqno useg.seqno then insertSorted seg pcb.unacked else pcb.unacked ++ [seg]

/-- The segment fits into the window. -/
def fitsWindow (seg : SndSeg) : Bool :=
  seg.seqno - pcb.lastack + seg.len.toUInt32 ≤ min pcb.sndWnd pcb.cwnd

/-- What the loop of `tcp_output` does with the first segment of `unsent` when it has been sent. -/
def sentFirst (seg : SndSeg) (rest : List SndSeg) : TcpSnd :=
  let nxt := seg.seqno + seg.tcplen
  { pcb with
    unsent := rest
    sndNxt := if tcpSeqLt pcb.sndNxt nxt then nxt else pcb.sndNxt
    unacked := if seg.tcplen > 0 then pcb.toUnacked seg else pcb.unacked }

/-- The loop of `tcp_output` over `unsent`, with the segments it sends; `ok` is whether the IP layer
takes a segment that has so many behind it. -/
def outputLoop (ticks : UInt32) (ok : Nat → Bool) : TcpSnd → List SndSeg →
    Option (TcpSnd × List TcpSeg × ErrT)
  | pcb, [] => some (pcb, [], .ok)
  | pcb, seg :: rest =>
    if pcb.fitsWindow seg = false then some (pcb, [], .ok)
    else if seg.has tcpRst then none
    else if pcb.tcpDoOutputNagle = false ∧ pcb.nagleMemErr = false ∧ pcb.fin = false then
      some (pcb, [], .ok)
    else
      let seg := seg.setFlag tcpAck
      let pcb := { pcb.startTimers seg ticks with unsent := seg :: rest }
      if ok rest.length = false then some ({ pcb with nagleMemErr := true }, [], .rte)
      else
        (outputLoop ticks ok (pcb.sentFirst seg rest) rest).map fun (pcb, sent, err) =>
          (pcb, seg.wire :: sent, err)

/-- How `tcp_output` ends when it sends no segment: if `TF_ACK_NOW` is set it returns what
`tcp_send_empty_ack` does, and leaves `TF_NAGLEMEMERR` as it is. -/
def noOutput (ackNow : Option AckOutcome) : TcpSnd × List TcpSeg × ErrT :=
  match ackNow with
  | none => ({ pcb with nagleMemErr := false }, [], .ok)
  | some outcome => (pcb, [], outcome.err)

/-- `tcp_output`, outside `tcp_input`. `ackNow` is what becomes of an acknowledgement without data,
if `TF_ACK_NOW` is set; it is not among what is sent here. -/
def tcpOutput (ticks : UInt32) (ok : Nat → Bool) (ackNow : Option AckOutcome) :
    Option (TcpSnd × List TcpSeg × ErrT) :=
  match pcb.unsent with
  | [] => some (pcb.noOutput ackNow)
  | seg :: _ =>
    if pcb.fitsWindow seg = false then
      -- the persist timer is started
      let starts := min pcb.sndWnd pcb.cwnd = pcb.sndWnd ∧ pcb.unacked = [] ∧ pcb.persistBackoff = 0
      let pcb :=
        if starts then { pcb with persistCnt := 0, persistBackoff := 1, persistProbe := 0 } else pcb
      some (pcb.noOutput ackNow)
    else
      (outputLoop ticks ok { pcb with persistBackoff := 0 } pcb.unsent).map fun
        | (pcb, sent, .ok) =>
          ({ pcb with
              unsentOversize := if pcb.unsent = [] then 0 else pcb.unsentOversize
              nagleMemErr := false }, sent, .ok)
        | (pcb, sent, err) => (pcb, sent, err)

/-! ### Retransmission -/

/-- `tcp_rexmit_rto_prepare`. -/
def tcpRexmitRtoPrepare : TcpSnd × ErrT :=
  match pcb.unacked.getLast? with
  | none => (pcb, .val)
  | some seg =>
    ({ pcb with
        unsent := pcb.unacked ++ pcb.unsent
        unacked := []
        inRto := true
        rtoEnd := seg.seqno + seg.tcplen
        rttest := 0 }, .ok)

/-- One more retransmission is counted. -/
def countRexmit : TcpSnd := { pcb with nrtx := if pcb.nrtx < 0xff then pcb.nrtx + 1 else pcb.nrtx }

/-- `tcp_rexmit`. -/
def tcpRexmit : TcpSnd × ErrT :=
  match pcb.unacked with
  | [] => (pcb, .val)
  | seg :: rest =>
    let unsent := insertSorted seg pcb.unsent
    ({ pcb.countRexmit with
        unacked := rest
        unsent := unsent
        unsentOversize := if unsent.getLast? = some seg then 0 else pcb.unsentOversize
        rttest := 0 }, .ok)

/-- `tcp_rexmit_fast`. -/
def tcpRexmitFast : TcpSnd :=
  if pcb.unacked ≠ [] ∧ pcb.inFr = false then
    match pcb.tcpRexmit with
    | (pcb, .ok) =>
      let ssthresh := max (min pcb.cwnd pcb.sndWnd / 2) (2 * pcb.mss.toUInt32)
      { pcb with
        ssthresh := ssthresh
        cwnd := ssthresh + 3 * pcb.mss.toUInt32
        inFr := true
        rtime := 0 }
    | (pcb, _) => pcb
  else pcb

/-! ### Acknowledgements -/

/-- The loop of `tcp_free_acked_segments` over a queue; `other` is whether the other one has a
segment. The result has what is left of the queue, `snd_queuelen` and the bytes that were
acknowledged. -/
def freeAcked (ackno : UInt32) (other : Bool) : UInt16 → List SndSeg →
    Option (List SndSeg × UInt16 × UInt32)
  | queuelen, [] => some ([], queuelen, 0)
  | queuelen, seg :: rest =>
    if tcpSeqLeq (seg.seqno + seg.tcplen) ackno then
      if queuelen < seg.clen then none
      else
        let queuelen := queuelen - seg.clen
        if queuelen ≠ 0 ∧ rest = [] ∧ other = false then none
        else
          (freeAcked ackno other queuelen rest).map fun (left, queuelen, acked) =>
            (left, queuelen, acked + seg.len.toUInt32)
    else some (seg :: rest, queuelen, 0)

/-- The congestion window grows by an acknowledgement of new data. -/
def openCwnd (acked : UInt32) : TcpSnd :=
  if pcb.cwnd < pcb.ssthresh then
    let segments : UInt32 := if pcb.inRto then 1 else 2
    { pcb with cwnd := tcpWndInc pcb.cwnd (min acked (segments * pcb.mss.toUInt32)) }
  else
    let bytesAcked := tcpWndInc pcb.bytesAcked acked
    if bytesAcked ≥ pcb.cwnd then
      { pcb with
        bytesAcked := bytesAcked - pcb.cwnd
        cwnd := tcpWndInc pcb.cwnd pcb.mss.toUInt32 }
    else { pcb with bytesAcked := bytesAcked }

/-- The retransmission that a timeout has started is done. -/
def rtoDone : Bool :=
  match pcb.unacked, pcb.unsent with
  | [], [] => true
  | [], seg :: _ => tcpSeqLeq pcb.rtoEnd seg.seqno
  | seg :: _, _ => tcpSeqLeq pcb.rtoEnd seg.seqno

/-- The window is updated. -/
def updateWindow (seqno ackno : UInt32) (wnd : UInt16) : TcpSnd :=
  let sndWnd := wnd.toUInt32 <<< pcb.sndScale.toUInt32
  if tcpSeqLt pcb.sndWl1 seqno ∨ (pcb.sndWl1 = seqno ∧ tcpSeqLt pcb.sndWl2 ackno) ∨
      (pcb.sndWl2 = ackno ∧ sndWnd > pcb.sndWnd) then
    { pcb with
      sndWnd := sndWnd
      sndWndMax := if pcb.sndWndMax < sndWnd then sndWnd else pcb.sndWndMax
      sndWl1 := seqno
      sndWl2 := ackno }
  else pcb

/-- An acknowledgement of nothing new: it may be a duplicate. -/
def duplicateAck (ackno rightWndEdge tcplen : UInt32) : TcpSnd :=
  if tcplen = 0 ∧ pcb.sndWl2 + pcb.sndWnd = rightWndEdge ∧ pcb.rtime ≥ 0 ∧ pcb.lastack = ackno then
    let pcb := { pcb with dupacks := if pcb.dupacks + 1 > pcb.dupacks then pcb.dupacks + 1
                                     else pcb.dupacks }
    let pcb :=
      if pcb.dupacks > 3 then { pcb with cwnd := tcpWndInc pcb.cwnd pcb.mss.toUInt32 } else pcb
    if pcb.dupacks ≥ 3 then pcb.tcpRexmitFast else pcb
  else { pcb with dupacks := 0 }

/-- The segments that are acknowledged are freed, with the bytes that are reported to the
application. -/
def freeSegments (ackno : UInt32) : Option (TcpSnd × UInt32) :=
  (freeAcked ackno (!pcb.unsent.isEmpty) pcb.sndQueuelen pcb.unacked).bind
    fun (unacked, queuelen, ackedSent) =>
  (freeAcked ackno (!unacked.isEmpty) queuelen pcb.unsent).map
    fun (unsent, queuelen, ackedUnsent) =>
  let recvAcked := ackedSent + ackedUnsent
  let pcb :=
    { pcb with
      unacked := unacked
      unsent := unsent
      sndQueuelen := queuelen
      rtime := if unacked = [] then -1 else 0
      unsentOversize := if unsent = [] then 0 else pcb.unsentOversize
      sndBuf := pcb.sndBuf + recvAcked }
  ({ pcb with inRto := pcb.inRto && !pcb.rtoDone }, recvAcked)

/-- An acknowledgement of new data. -/
def newAck (ackno : UInt32) : Option (TcpSnd × UInt32) :=
  let pcb :=
    if pcb.inFr then { pcb with inFr := false, cwnd := pcb.ssthresh, bytesAcked := 0 } else pcb
  let acked := ackno - pcb.lastack
  let pcb :=
    { pcb with nrtx := 0, rto := (pcb.sa >>> 3) + pcb.sv, dupacks := 0, lastack := ackno }
  (pcb.openCwnd acked).freeSegments ackno

/-- The estimate of the round-trip time. -/
def estimateRtt (ackno ticks : UInt32) : TcpSnd :=
  if pcb.rttest ≠ 0 ∧ tcpSeqLt pcb.rtseq ackno then
    let m := (ticks - pcb.rttest).toUInt16.toInt16
    let m := m - (pcb.sa >>> 3)
    let sa := pcb.sa + m
    let m := if m < 0 then -m else m
    let m := m - (pcb.sv >>> 2)
    let sv := pcb.sv + m
    { pcb with sa := sa, sv := sv, rto := (sa >>> 3) + sv, rttest := 0 }
  else pcb

/-- What `tcp_process` and `tcp_receive` do with a segment that has the flag `TCP_ACK`, for a
connection that is established, with the bytes that are reported to the application. `mss` is the
value of an MSS option. An acknowledgement without data that is sent is left out. -/
def tcpReceiveAck (seqno ackno : UInt32) (wnd : UInt16) (tcplen : UInt32) (mss : Option UInt16)
    (ticks : UInt32) : Option (TcpSnd × UInt32) :=
  let pcb :=
    { pcb with
      persistProbe := 0
      mss := parseMss pcb.mss mss }
  let rightWndEdge := pcb.sndWnd + pcb.sndWl2
  let pcb := pcb.updateWindow seqno ackno wnd
  let processed :=
    if tcpSeqLeq ackno pcb.lastack then some (pcb.duplicateAck ackno rightWndEdge tcplen, 0)
    else if tcpSeqBetween ackno (pcb.lastack + 1) pcb.sndNxt then pcb.newAck ackno
    else some (pcb, 0)
  processed.map fun (pcb, recvAcked) => (pcb.estimateRtt ackno ticks, recvAcked)

/-- The state that `tcp_process` leaves behind `tcp_receive`: `gotFin` is `TF_GOT_FIN`, and
`allAcked` whether all that was sent is acknowledged and nothing is unsent. -/
def stateAfter (state : TcpState) (gotFin allAcked : Bool) : TcpState :=
  match state with
  | .established | .closeWait => if gotFin then .closeWait else state
  | .finWait1 =>
    if gotFin then (if allAcked then .timeWait else .closing)
    else if allAcked then .finWait2 else .finWait1
  | .finWait2 => if gotFin then .timeWait else .finWait2
  | .closing => if allAcked then .timeWait else .closing
  | .lastAck => if allAcked then .closed else .lastAck
  | _ => state

/-- `tcp_process` for a segment with the flag `TCP_ACK` that is neither a SYN nor a reset, with the
bytes that are reported to the application. In `TIME_WAIT`, and when it is closed, the pcb is
purged. -/
def processAck (seqno ackno : UInt32) (wnd : UInt16) (tcplen : UInt32) (mss : Option UInt16)
    (gotFin : Bool) (ticks : UInt32) : Option (TcpSnd × UInt32) :=
  (pcb.tcpReceiveAck seqno ackno wnd tcplen mss ticks).map fun (pcb, recvAcked) =>
    let state := stateAfter pcb.state gotFin (ackno = pcb.sndNxt ∧ pcb.unsent = [])
    if state = .timeWait ∨ state = .closed then
      ({ pcb with state := state, unsent := [], unacked := [] }, recvAcked)
    else ({ pcb with state := state }, recvAcked)

/-! ### Timers -/

/-- `tcp_zero_window_probe`, with what it sends; `mem` and `ok` are whether there is memory and
whether the IP layer takes the segment. -/
def tcpZeroWindowProbe (mem ok : Bool) : TcpSnd × List TcpSeg × ErrT :=
  match pcb.unsent with
  | [] => (pcb, [], .ok)
  | seg :: _ =>
    let pcb :=
      { pcb with
        persistProbe := if pcb.persistProbe < 0xff then pcb.persistProbe + 1 else pcb.persistProbe }
    if mem = false then (pcb, [], .mem)
    else
      let nxt := seg.seqno + 1
      let pcb := { pcb with sndNxt := if tcpSeqLt pcb.sndNxt nxt then nxt else pcb.sndNxt }
      if ok then (pcb, [seg.windowProbe], .ok) else (pcb, [], .rte)

/-- `tcp_split_unsent_seg`. `TCPH_SET_FLAG` only adds flags, so the head keeps those that the
remainder gets. -/
def tcpSplitUnsentSeg (split : UInt16) (mem : Bool) : Option (TcpSnd × ErrT) :=
  match pcb.unsent with
  | [] => some (pcb, .mem)
  | useg :: rest =>
    if split = 0 then none
    else if useg.len ≤ split then some (pcb, .ok)
    else if split > pcb.mss then none
    else
      let remainder := useg.len - split
      let data := (useg.p.flatten.drop split.toNat).take remainder.toNat
      if mem = false ∨ data.length ≠ remainder.toNat then some (pcb, .mem)
      else
        let migrated := tcpPsh ||| tcpFin
        let seg : SndSeg :=
          ⟨useg.seqno + split.toUInt32, useg.flags &&& migrated, remainder, [data]⟩
        let head : SndSeg :=
          { useg with p := trimPbufs split.toNat useg.p, len := useg.len - remainder }
        let head := head.setFlag (useg.flags &&& ~~~migrated)
        some
          ({ pcb with
              sndQueuelen := pcb.sndQueuelen - useg.clen + head.clen + seg.clen
              unsent := head :: seg :: rest
              unsentOversize := if rest = [] then 0 else pcb.unsentOversize }, .ok)

/-- `TCP_MAXRTX`. -/
def tcpMaxrtx : UInt8 := 12

/-- `tcp_persist_backoff`. -/
def tcpPersistBackoff : List UInt8 := [3, 6, 12, 24, 48, 96, 120]

/-- `tcp_backoff`. -/
def tcpBackoff : List Nat := [1, 2, 3, 4, 5, 6, 7, 7, 7, 7, 7, 7, 7]

/-- The persist timer of `tcp_slowtmr` moves on to the next slot. -/
def nextSlot : TcpSnd :=
  { pcb with
    persistCnt := 0
    persistBackoff :=
      if pcb.persistBackoff.toNat < tcpPersistBackoff.length then pcb.persistBackoff + 1
      else pcb.persistBackoff }

/-- The persist timer has run out: a probe is sent, or the first segment of `unsent` is split so
that it fits into the window. -/
def persist (mem : Bool) (ticks : UInt32) (ok : Nat → Bool) (ackNow : Option AckOutcome) :
    Option (TcpSnd × List TcpSeg) :=
  if pcb.sndWnd = 0 then
    match pcb.tcpZeroWindowProbe mem (ok 0) with
    | (pcb, sent, .ok) => some (pcb.nextSlot, sent)
    | (pcb, sent, _) => some (pcb, sent)
  else
    (pcb.tcpSplitUnsentSeg pcb.sndWnd.toUInt16 mem).bind fun
      | (pcb, .ok) =>
        (pcb.tcpOutput ticks ok ackNow).map fun
          | (pcb, sent, .ok) => (pcb, sent)
          | (pcb, sent, _) => (pcb.nextSlot, sent)
      | (pcb, _) => some (pcb.nextSlot, [])

/-- The retransmission timer has run out. -/
def rexmitTimeout (ticks : UInt32) (ok : Nat → Bool) (ackNow : Option AckOutcome) :
    Option (TcpSnd × List TcpSeg) :=
  let (pcb, err) := pcb.tcpRexmitRtoPrepare
  if err = .ok ∨ (pcb.unacked = [] ∧ pcb.unsent ≠ []) then
    let backoff := tcpBackoff.getD pcb.nrtx.toNat 7
    let calcRto := ((pcb.sa >>> 3).toInt + pcb.sv.toInt) * 2 ^ backoff
    let pcb :=
      { pcb with
        rto := Int16.ofInt (min calcRto 0x7fff)
        rtime := 0
        ssthresh := max (min pcb.cwnd pcb.sndWnd >>> 1) (pcb.mss.toUInt32 <<< 1)
        cwnd := pcb.mss.toUInt32
        bytesAcked := 0 }
    (pcb.countRexmit.tcpOutput ticks ok ackNow).map fun (pcb, sent, _) => (pcb, sent)
  else some (pcb, [])

/-- The part of `tcp_slowtmr` for the retransmission and persist timers of a connection, with what
it sends; a connection that is given up is closed. -/
def tcpSlowtmr (mem : Bool) (ticks : UInt32) (ok : Nat → Bool) (ackNow : Option AckOutcome) :
    Option (TcpSnd × List TcpSeg) :=
  let gone := { pcb with state := .closed, unsent := [], unacked := [] }
  if pcb.nrtx ≥ tcpMaxrtx then some (gone, [])
  else if pcb.persistBackoff > 0 then
    if pcb.unacked ≠ [] ∨ pcb.unsent = [] then none
    else if pcb.persistProbe ≥ tcpMaxrtx then some (gone, [])
    else
      let backoff := tcpPersistBackoff.getD (pcb.persistBackoff.toNat - 1) 0
      let pcb :=
        { pcb with persistCnt := if pcb.persistCnt < backoff then pcb.persistCnt + 1
                                 else pcb.persistCnt }
      if pcb.persistCnt ≥ backoff then pcb.persist mem ticks ok ackNow else some (pcb, [])
  else
    let pcb :=
      { pcb with rtime := if pcb.rtime ≥ 0 ∧ pcb.rtime < 0x7fff then pcb.rtime + 1 else pcb.rtime }
    if pcb.rtime ≥ pcb.rto then pcb.rexmitTimeout ticks ok ackNow else some (pcb, [])

end TcpSnd

/-! ### Runs -/

/-- A connection, all bytes that `tcp_write` has taken, the number of bytes that were reported as
acknowledged, the segments that were sent, and whether an assertion has failed. -/
structure SndRun where
  pcb : TcpSnd
  written : Bytes
  acked : Nat
  sent : List TcpSeg
  failed : Bool

/-- What happens to a connection: the application writes or closes it, `tcp_output` is called, a
segment with an acknowledgement arrives, the slow timer runs, and the pcb is removed after a reset
or because lwIP aborts the connection. -/
inductive SndEvent where
  | write (arg : Bytes) (mem : Nat → Bool)
  | close (mem : Bool)
  | output (ticks : UInt32) (ok : Nat → Bool) (ackNow : Option AckOutcome)
  | ack (seqno ackno : UInt32) (wnd : UInt16) (tcplen : UInt32) (mss : Option UInt16)
    (gotFin : Bool) (ticks : UInt32)
  | slowtmr (mem : Bool) (ticks : UInt32) (ok : Nat → Bool) (ackNow : Option AckOutcome)
  | pcbRemove

namespace SndRun

variable (run : SndRun)

/-- A connection that nothing has been written to. -/
def init (pcb : TcpSnd) : SndRun where
  pcb := pcb
  written := []
  acked := 0
  sent := []
  failed := false

/-- The pcb is no longer in `tcp_active_pcbs`. -/
def ended : Bool := run.pcb.state = .timeWait || run.pcb.state = .closed

/-- An event happens to an active pcb; the length of what is written is a `u16_t`. -/
def enabled : SndEvent → Prop
  | .write arg _ => run.failed = false ∧ run.ended = false ∧ arg.length < 2 ^ 16
  | _ => run.failed = false ∧ run.ended = false

instance (event : SndEvent) : Decidable (run.enabled event) :=
  match event with
  | .write _ _ => inferInstanceAs (Decidable (_ ∧ _ ∧ _))
  | .close _ | .output .. | .ack .. | .slowtmr .. | .pcbRemove =>
    inferInstanceAs (Decidable (_ ∧ _))

/-- What an event does. -/
def step (event : SndEvent) : SndRun :=
  match event with
  | .write arg mem =>
    match run.pcb.tcpWrite arg mem with
    | none => { run with failed := true }
    | some (pcb, .ok) => { run with pcb := pcb, written := run.written ++ arg }
    | some (pcb, _) => { run with pcb := pcb }
  | .close mem =>
    match run.pcb.tcpCloseShutdownFin mem with
    | none => { run with failed := true }
    | some pcb => { run with pcb := pcb }
  | .output ticks ok ackNow =>
    match run.pcb.tcpOutput ticks ok ackNow with
    | none => { run with failed := true }
    | some (pcb, sent, _) => { run with pcb := pcb, sent := run.sent ++ sent }
  | .ack seqno ackno wnd tcplen mss gotFin ticks =>
    match run.pcb.processAck seqno ackno wnd tcplen mss gotFin ticks with
    | none => { run with failed := true }
    | some (pcb, acked) => { run with pcb := pcb, acked := run.acked + acked.toNat }
  | .slowtmr mem ticks ok ackNow =>
    match run.pcb.tcpSlowtmr mem ticks ok ackNow with
    | none => { run with failed := true }
    | some (pcb, sent) => { run with pcb := pcb, sent := run.sent ++ sent }
  | .pcbRemove => { run with pcb := { run.pcb with state := .closed, unsent := [], unacked := [] } }

end SndRun

/-- The sending half of a connection as a transition system. -/
def sndSystem : Transition.System SndRun SndEvent where
  enabled := SndRun.enabled
  step := SndRun.step

instance (run : SndRun) (event : SndEvent) : Decidable (sndSystem.enabled run event) :=
  inferInstanceAs (Decidable (run.enabled event))

end Net2Tr
