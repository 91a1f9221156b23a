/-
This file models what lwIP does with the data of the segments of a connection:
the part of `tcp_receive` for segments with data or a FIN, with the queue
`ooseq` of the segments that came out of order, the receive window and the
selective acknowledgements.

Sequence numbers are 32-bit numbers that wrap around, as in the source. The
bytes of a pbuf chain are kept as one string. An assertion of the source that
fails ends the process; the functions that contain one return `none` then.
-/

import Libn2t.SerialNumber
import Libn2t.BackPressure
import Libn2t.TcpInput

namespace Net2Tr

/-! ### Sequence numbers -/

/-- The difference of two sequence numbers as an `s32_t`. -/
def seqDiff (a b : UInt32) : Int := (a - b).toInt32.toInt

/-- `TCP_SEQ_LT`. -/
def tcpSeqLt (a b : UInt32) : Bool := seqDiff a b < 0

/-- `TCP_SEQ_LEQ`. -/
def tcpSeqLeq (a b : UInt32) : Bool := seqDiff a b ≤ 0

/-- `TCP_SEQ_GT`. -/
def tcpSeqGt (a b : UInt32) : Bool := 0 < seqDiff a b

/-- `TCP_SEQ_GEQ`. -/
def tcpSeqGeq (a b : UInt32) : Bool := 0 ≤ seqDiff a b

/-- `TCP_SEQ_BETWEEN`. -/
def tcpSeqBetween (a b c : UInt32) : Bool := tcpSeqGeq a b && tcpSeqLeq a c

/-! ### Segments -/

/-- `struct tcp_seg`, with the sequence number and the flags of its header. `p` are the bytes of
its pbufs behind the header. -/
structure TcpSeg where
  seqno : UInt32
  flags : UInt8
  len : UInt16
  p : Bytes
deriving DecidableEq, Repr

namespace TcpSeg

variable (seg : TcpSeg)

/-- A flag of the header. -/
def has (flag : UInt8) : Bool := seg.flags &&& flag ≠ 0

/-- `TCPH_SET_FLAG`. -/
def setFlag (flag : UInt8) : TcpSeg := { seg with flags := seg.flags ||| flag }

/-- `TCP_TCPLEN`. -/
def tcplen : UInt32 :=
  seg.len.toUInt32 + if seg.has tcpFin ∨ seg.has tcpSyn then 1 else 0

/-- The number behind the bytes of the segment, without its FIN or SYN. -/
def dataEnd : UInt32 := seg.seqno + seg.len.toUInt32

/-- A new `len`, and `pbuf_realloc` to it. -/
def realloc (len : UInt16) : TcpSeg := { seg with len := len, p := seg.p.take len.toNat }

/-- The segment up to a sequence number. -/
def trimTo (seqno : UInt32) : TcpSeg := seg.realloc (seqno - seg.seqno).toUInt16

/-- The first edge is moved up to `rcvNxt`. -/
def trimFront (rcvNxt : UInt32) : Option TcpSeg :=
  let off32 := rcvNxt - seg.seqno
  if off32 < 0xffff ∧ off32.toNat ≤ seg.p.length then
    let off := off32.toUInt16
    some { seg with seqno := rcvNxt, len := seg.len - off, p := seg.p.drop off.toNat }
  else none

end TcpSeg

/-- `struct tcp_sack_range`. -/
structure TcpSackRange where
  left : UInt32
  right : UInt32
deriving DecidableEq, Repr

/-- `LWIP_TCP_SACK_VALID`. -/
def TcpSackRange.valid (range : TcpSackRange) : Bool := range.left ≠ range.right

/-- `LWIP_TCP_MAX_SACK_NUM`. -/
def maxSackNum : Nat := 4

/-- The array `rcv_sacks` that starts with the given ranges and is zero behind them. -/
def sackArray (ranges : List TcpSackRange) : List TcpSackRange :=
  (ranges ++ List.replicate maxSackNum (TcpSackRange.mk 0 0)).take maxSackNum

/-- An acknowledgement without data. -/
structure EmptyAck where
  ackno : UInt32
  wnd : UInt16
  sacks : List TcpSackRange
deriving DecidableEq, Repr

/-- What becomes of an acknowledgement: no pbuf for it, an error of the IP layer, or it is sent. -/
inductive AckOutcome where
  | noPbuf | failed | sent
deriving DecidableEq, Repr

/-- What `tcp_parseopt` makes of `mss`, with the value of an MSS option. -/
def parseMss (mss : UInt16) : Option UInt16 → UInt16
  | none => mss
  | some mss => if mss > 1460 ∨ mss = 0 then 1460 else mss

/-- The part of a `tcp_pcb` that is about receiving, and the acknowledgements without data that were
sent. -/
structure TcpRcv where
  state : TcpState
  rcvNxt : UInt32
  rcvWnd : UInt32
  rcvAnnWnd : UInt32
  rcvAnnRightEdge : UInt32
  mss : UInt16
  ooseq : List TcpSeg
  wndScale : Bool
  sack : Bool
  rcvSacks : List TcpSackRange
  ackDelay : Bool
  ackNow : Bool
  acks : List EmptyAck
deriving DecidableEq, Repr

/-- The state is below `CLOSE_WAIT` in the order of `enum tcp_state`. -/
def TcpState.belowCloseWait : TcpState → Bool
  | .closeWait | .closing | .lastAck | .timeWait => false
  | _ => true

/-! ### The queue of segments that came out of order -/

/-- The loop of `tcp_oos_insert_segment` that deletes the segments the new one covers, and what it
does to the new one behind the loop. -/
def oosInsertLoop (cseg : TcpSeg) : List TcpSeg → List TcpSeg
  | [] => [cseg]
  | next :: rest =>
    if tcpSeqGeq cseg.dataEnd next.dataEnd then
      oosInsertLoop (if next.has tcpFin then cseg.setFlag tcpFin else cseg) rest
    else if tcpSeqGt cseg.dataEnd next.seqno then cseg.trimTo next.seqno :: next :: rest
    else cseg :: next :: rest

/-- `tcp_oos_insert_segment`: the new segment and what is left behind it. -/
def tcpOosInsertSegment (cseg : TcpSeg) (next : List TcpSeg) : List TcpSeg :=
  if cseg.has tcpFin then [cseg] else oosInsertLoop cseg next

/-- What the walk through a queue leaves: the segments up to `prev`, the segments behind it, and
`sackbeg`. -/
structure OosPlace where
  upTo : List TcpSeg
  behind : List TcpSeg
  sackbeg : UInt32
deriving DecidableEq, Repr

/-- A segment whose end is moved down to a new one that starts inside it. -/
def trimPrev (prev : TcpSeg) (seqno : UInt32) : TcpSeg :=
  if tcpSeqGt prev.dataEnd seqno then prev.trimTo seqno else prev

/-- The window check for a segment that is put at the end of the queue. -/
def trimToWindow (inseg : TcpSeg) (right : UInt32) : Option TcpSeg :=
  if tcpSeqGt (inseg.tcplen + inseg.seqno) right then
    let inseg := { inseg with flags := inseg.flags &&& ~~~tcpFin }.trimTo right
    if inseg.seqno + inseg.tcplen = right then some inseg else none
  else some inseg

/-- A new segment has its place before `next`. -/
def goesBefore (prev : Option TcpSeg) (seqno : UInt32) (next : TcpSeg) : Bool :=
  match prev with
  | none => tcpSeqLt seqno next.seqno
  | some prev => tcpSeqBetween seqno (prev.seqno + 1) (next.seqno - 1)

/-- The left edge of the range that is acknowledged moves when there is a hole before `next`. -/
def nextSackbeg (prev : Option TcpSeg) (next : TcpSeg) (sackbeg : UInt32) : UInt32 :=
  match prev with
  | none => sackbeg
  | some prev => if prev.dataEnd ≠ next.seqno then next.seqno else sackbeg

/-- The walk through `ooseq`. `copied` is whether `tcp_seg_copy` succeeds, and `right` the right
edge of the window. -/
def oosWalk (inseg : TcpSeg) (copied : Bool) (right : UInt32) (prev : Option TcpSeg) :
    List TcpSeg → UInt32 → Option OosPlace
  | [], sackbeg => some ⟨prev.toList, [], sackbeg⟩
  | next :: rest, sackbeg =>
    if inseg.seqno = next.seqno then
      -- of two segments that start together the longer one is kept
      if inseg.len > next.len ∧ copied then
        some ⟨prev.toList, tcpOosInsertSegment inseg (next :: rest), sackbeg⟩
      else some ⟨prev.toList, next :: rest, sackbeg⟩
    else if goesBefore prev inseg.seqno next then
      if copied then
        some
          ⟨prev.toList.map (trimPrev · inseg.seqno), tcpOosInsertSegment inseg (next :: rest),
            sackbeg⟩
      else some ⟨prev.toList, next :: rest, sackbeg⟩
    else
      let sackbeg := nextSackbeg prev next sackbeg
      if rest = [] ∧ tcpSeqGt inseg.seqno next.seqno then
        if next.has tcpFin ∨ copied = false then some ⟨prev.toList ++ [next], [], sackbeg⟩
        else
          (trimToWindow inseg right).map fun inseg =>
            ⟨prev.toList ++ [trimPrev next inseg.seqno], [inseg], sackbeg⟩
      else
        (oosWalk inseg copied right (some next) rest sackbeg).map fun place =>
          { place with upTo := prev.toList ++ place.upTo }

/-- The right edge of a range that starts with the given segments: the first hole behind them. -/
def sackend : List TcpSeg → UInt32 → UInt32
  | [], right => right
  | next :: rest, right =>
    if right = next.seqno then sackend rest (right + next.len.toUInt32) else right

namespace TcpRcv

variable (pcb : TcpRcv)

/-! ### Acknowledgements -/

/-- The valid entries of `rcv_sacks`, up to the first one that is not. -/
def sacks : List TcpSackRange := pcb.rcvSacks.takeWhile TcpSackRange.valid

/-- `tcp_add_sack`. -/
def tcpAddSack (left right : UInt32) : TcpRcv :=
  if pcb.sack = false ∨ tcpSeqLt left right = false then pcb
  else
    let apart := pcb.sacks.filter fun range =>
      tcpSeqLeq range.right left || tcpSeqLeq right range.left
    { pcb with rcvSacks := sackArray (⟨left, right⟩ :: apart) }

/-- `tcp_remove_sacks_lt`. -/
def tcpRemoveSacksLt (seq : UInt32) : TcpRcv :=
  let above := pcb.sacks.filter fun range => tcpSeqGt range.right seq
  { pcb with
    rcvSacks := sackArray (above.map fun range =>
      if tcpSeqLt range.left seq then { range with left := seq } else range) }

/-- The loop of `tcp_get_num_sacks`. -/
def getNumSacksLoop : List TcpSackRange → Nat → Nat
  | [], _ => 0
  | range :: rest, optlen =>
    if optlen ≤ 40 ∧ range.valid then getNumSacksLoop rest (optlen + 8) + 1 else 0

/-- `tcp_get_num_sacks` without other options. -/
def tcpGetNumSacks : Nat := if pcb.sack then getNumSacksLoop pcb.rcvSacks 12 else 0

/-- `rcv_scale`. -/
def rcvScale : UInt32 := if pcb.wndScale then 2 else 0

/-- `tcp_output_alloc_header` announces the window. -/
def announce : TcpRcv := { pcb with rcvAnnRightEdge := pcb.rcvNxt + pcb.rcvAnnWnd }

/-- `tcp_send_empty_ack`. -/
def tcpSendEmptyAck (outcome : AckOutcome) : TcpRcv :=
  match outcome with
  | .noPbuf => { pcb with ackDelay := true, ackNow := true }
  | .failed => { pcb.announce with ackDelay := true, ackNow := true }
  | .sent =>
    { pcb.announce with
      ackDelay := false
      ackNow := false
      acks := pcb.acks ++
        [{ ackno := pcb.rcvNxt
           wnd := (min (pcb.rcvAnnWnd >>> pcb.rcvScale) 0xffff).toUInt16
           sacks := pcb.rcvSacks.take pcb.tcpGetNumSacks }] }

/-- `tcp_ack_now`. -/
def tcpAckNow : TcpRcv := { pcb with ackNow := true }

/-- `tcp_ack`. -/
def tcpAck : TcpRcv :=
  if pcb.ackDelay then { pcb with ackDelay := false, ackNow := true }
  else { pcb with ackDelay := true }

/-- The part of `tcp_fasttmr` for a delayed acknowledgement, when `tcp_output` has no segment that
it could go with. -/
def tcpFasttmr (outcome : AckOutcome) : TcpRcv :=
  if pcb.ackDelay then
    { pcb.tcpAckNow.tcpSendEmptyAck outcome with ackDelay := false, ackNow := false }
  else pcb

/-! ### The window -/

/-- `tcp_parseopt` for a segment that is not a SYN; `mss` is the value of an MSS option. -/
def tcpParseopt (mss : Option UInt16) : TcpRcv := { pcb with mss := parseMss pcb.mss mss }

/-- `TCP_WND_MAX`; the constant `TCP_WND` is below `0xFFFF`. -/
def tcpWndMax : UInt32 :=
  if pcb.wndScale then UInt32.ofNat tcpWnd else min (UInt32.ofNat tcpWnd) 0xffff

/-- `tcp_update_rcv_ann_wnd`, with the number of bytes that are not announced yet. -/
def tcpUpdateRcvAnnWnd : TcpRcv × UInt32 :=
  let newRightEdge := pcb.rcvNxt + pcb.rcvWnd
  if tcpSeqGeq newRightEdge
      (pcb.rcvAnnRightEdge + min (UInt32.ofNat (tcpWnd / 2)) pcb.mss.toUInt32) then
    ({ pcb with rcvAnnWnd := pcb.rcvWnd }, newRightEdge - pcb.rcvAnnRightEdge)
  else if tcpSeqGt pcb.rcvNxt pcb.rcvAnnRightEdge then ({ pcb with rcvAnnWnd := 0 }, 0)
  else ({ pcb with rcvAnnWnd := pcb.rcvAnnRightEdge - pcb.rcvNxt }, 0)

/-- `tcp_recved`; the `tcp_output` in it does nothing while a segment of the connection is being
processed. -/
def tcpRecved (len : UInt16) : TcpRcv :=
  let rcvWnd := pcb.rcvWnd + len.toUInt32
  let (pcb, inflation) :=
    if rcvWnd > pcb.tcpWndMax ∨ rcvWnd < pcb.rcvWnd then
      { pcb with rcvWnd := pcb.tcpWndMax }.tcpUpdateRcvAnnWnd
    else { pcb with rcvWnd := rcvWnd }.tcpUpdateRcvAnnWnd
  if inflation ≥ UInt32.ofNat (min (tcpWnd / 4) (4 * 1460)) then pcb.tcpAckNow else pcb

/-- Sequence numbers are received in order. -/
def take (tcplen : UInt32) : Option TcpRcv :=
  if tcplen ≤ pcb.rcvWnd then
    some { pcb with
      rcvNxt := pcb.rcvNxt + tcplen
      rcvWnd := pcb.rcvWnd - tcplen }.tcpUpdateRcvAnnWnd.1
  else none

/-! ### Segments in order -/

/-- A segment is cut to the receive window. -/
def cutToWindow (inseg : TcpSeg) : Option TcpSeg :=
  if inseg.tcplen > pcb.rcvWnd then
    -- the FIN is behind the window
    let inseg := { inseg with flags := inseg.flags &&& ~~~tcpFin }
    if pcb.rcvWnd ≤ 0xffff then
      let len := pcb.rcvWnd.toUInt16
      let inseg := inseg.realloc (if inseg.has tcpSyn then len - 1 else len)
      if inseg.seqno + inseg.tcplen = pcb.rcvNxt + pcb.rcvWnd then some inseg else none
    else none
  else some inseg

/-- The loop that removes the segments of `ooseq` that the new one covers; the FIN of one of them
becomes a FIN of the new one. -/
def removeCovered (inseg : TcpSeg) : List TcpSeg → TcpSeg × List TcpSeg
  | [] => (inseg, [])
  | next :: rest =>
    if tcpSeqGeq (inseg.seqno + inseg.tcplen) next.dataEnd then
      removeCovered
        (if next.has tcpFin ∧ inseg.has tcpSyn = false then inseg.setFlag tcpFin else inseg) rest
    else (inseg, next :: rest)

/-- `ooseq` is adjusted to a segment that is in order, and the segment to `ooseq`. -/
def adjustOoseq (inseg : TcpSeg) : Option (TcpSeg × List TcpSeg) :=
  if pcb.ooseq = [] then some (inseg, [])
  else if inseg.has tcpFin then some (inseg, [])
  else
    match removeCovered inseg pcb.ooseq with
    | (inseg, []) => some (inseg, [])
    | (inseg, next :: rest) =>
      if tcpSeqGt (inseg.seqno + inseg.tcplen) next.seqno then
        let len := (next.seqno - inseg.seqno).toUInt16
        let inseg := inseg.realloc (if inseg.has tcpSyn then len - 1 else len)
        if inseg.seqno + inseg.tcplen = next.seqno then some (inseg, next :: rest) else none
      else some (inseg, next :: rest)

end TcpRcv

/-- What `tcp_receive` leaves: the pcb, `recv_data` and `TF_GOT_FIN`. -/
structure RcvTaken where
  pcb : TcpRcv
  data : Bytes
  gotFin : Bool
deriving DecidableEq, Repr

/-- The loop that takes the segments of `ooseq` that are now in order. -/
def takeOoseq (pcb : TcpRcv) (data : Bytes) (gotFin : Bool) : List TcpSeg → Option RcvTaken
  | [] => some ⟨{ pcb with ooseq := [] }, data, gotFin⟩
  | cseg :: rest =>
    if cseg.seqno = pcb.rcvNxt then
      (pcb.take cseg.tcplen).bind fun pcb =>
        if cseg.has tcpFin then
          let state := if pcb.state = .established then .closeWait else pcb.state
          takeOoseq { pcb with state := state } (data ++ cseg.p) true rest
        else takeOoseq pcb (data ++ cseg.p) gotFin rest
    else some ⟨{ pcb with ooseq := cseg :: rest }, data, gotFin⟩

namespace TcpRcv

variable (pcb : TcpRcv)

/-- The ranges of `rcv_sacks` below `ooseq` are removed. -/
def cleanSacks : TcpRcv :=
  if pcb.sack then
    match pcb.ooseq with
    | first :: _ => pcb.tcpRemoveSacksLt first.seqno
    | [] => if pcb.sacks ≠ [] then { pcb with rcvSacks := sackArray [] } else pcb
  else pcb

/-- The part of `tcp_receive` for a segment that is the next in order. -/
def receiveInOrder (inseg : TcpSeg) (outcome : AckOutcome) : Option RcvTaken := do
  let inseg ← pcb.cutToWindow inseg
  let (inseg, ooseq) ← pcb.adjustOoseq inseg
  let pcb ← pcb.take inseg.tcplen
  let taken ← takeOoseq pcb inseg.p (inseg.has tcpFin) ooseq
  let pcb := taken.pcb.cleanSacks.tcpAck
  some { taken with pcb := if pcb.sacks ≠ [] then pcb.tcpSendEmptyAck outcome else pcb }

/-- The first entry of `rcv_sacks` is stored. -/
def storeSack (left right : UInt32) : TcpRcv :=
  { pcb with rcvSacks := ⟨left, right⟩ :: pcb.rcvSacks.drop 1 }

/-- The range that is acknowledged for a segment that was put into the queue. -/
def sackPlace (place : OosPlace) : TcpRcv :=
  if pcb.sack then
    match place.behind with
    | [] => pcb
    | next :: _ =>
      pcb.tcpAddSack (nextSackbeg place.upTo.getLast? next place.sackbeg)
        (sackend place.behind next.seqno)
  else pcb

/-- The part of `tcp_receive` for a segment that is out of order. -/
def receiveOutOfOrder (inseg : TcpSeg) (copied : Bool) (outcome : AckOutcome) :
    Option RcvTaken := do
  let pcb ←
    match pcb.ooseq with
    | [] =>
      let pcb := { pcb with ooseq := if copied then [inseg] else [] }
      some (if pcb.sack then pcb.storeSack inseg.seqno inseg.dataEnd else pcb)
    | first :: _ =>
      let sackbeg := if tcpSeqLt inseg.seqno first.seqno then inseg.seqno else first.seqno
      let place ← oosWalk inseg copied (pcb.rcvNxt + pcb.rcvWnd) none pcb.ooseq sackbeg
      some ({ pcb with ooseq := place.upTo ++ place.behind }.sackPlace place)
  some ⟨pcb.tcpSendEmptyAck outcome, [], false⟩

/-- A sequence number lies in the receive window. -/
def inWindow (seqno : UInt32) : Bool :=
  tcpSeqBetween seqno pcb.rcvNxt (pcb.rcvNxt + pcb.rcvWnd - 1)

/-- The part of `tcp_receive` behind the trimming of the first edge. -/
def receiveTrimmed (inseg : TcpSeg) (copied : Bool) (outcome : AckOutcome) : Option RcvTaken :=
  if pcb.inWindow inseg.seqno then
    if pcb.rcvNxt = inseg.seqno then pcb.receiveInOrder inseg outcome
    else pcb.receiveOutOfOrder inseg copied outcome
  else some ⟨pcb.tcpSendEmptyAck outcome, [], false⟩

/-- `tcp_receive` without what it does with the acknowledgement in the segment. -/
def tcpReceive (inseg : TcpSeg) (copied : Bool) (outcome : AckOutcome) : Option RcvTaken :=
  if inseg.tcplen > 0 ∧ pcb.state.belowCloseWait then
    if tcpSeqBetween pcb.rcvNxt (inseg.seqno + 1) (inseg.seqno + inseg.tcplen - 1) then
      (inseg.trimFront pcb.rcvNxt).bind fun inseg => pcb.receiveTrimmed inseg copied outcome
    else if tcpSeqLt inseg.seqno pcb.rcvNxt then
      pcb.tcpAckNow.receiveTrimmed inseg copied outcome
    else pcb.receiveTrimmed inseg copied outcome
  else if pcb.inWindow inseg.seqno then some ⟨pcb, [], false⟩
  else some ⟨pcb.tcpAckNow, [], false⟩

/-- What follows `tcp_receive` for a connection that the application has not closed: the recv
callback, which gives the data back to the window, and the end of the stream. -/
def afterReceive (taken : RcvTaken) : RcvTaken :=
  let pcb :=
    if taken.gotFin then { taken.pcb with ackNow := true, state := .closeWait } else taken.pcb
  let pcb := if taken.data ≠ [] then pcb.tcpRecved (UInt16.ofNat taken.data.length) else pcb
  if taken.gotFin ∧ pcb.rcvWnd ≠ pcb.tcpWndMax then
    { taken with pcb := { pcb with rcvWnd := pcb.rcvWnd + 1 } }
  else { taken with pcb := pcb }

/-- `tcp_free_ooseq`. -/
def tcpFreeOoseq : TcpRcv :=
  if pcb.ooseq ≠ [] then { pcb with ooseq := [], rcvSacks := sackArray [] } else pcb

/-- What `tcp_process` and `tcp_input` do with the data of a segment of a connection that is
established and that the application has not closed. A reset closes it. -/
def input (inseg : TcpSeg) (mss : Option UInt16) (copied : Bool) (outcome : AckOutcome) :
    Option RcvTaken :=
  if inseg.has tcpRst then
    if inseg.seqno = pcb.rcvNxt then
      some ⟨{ pcb with state := .closed, ackDelay := false }, [], false⟩
    else if tcpSeqBetween inseg.seqno pcb.rcvNxt (pcb.rcvNxt + pcb.rcvWnd) then
      some ⟨pcb.tcpAckNow, [], false⟩
    else some ⟨pcb, [], false⟩
  else if inseg.has tcpSyn then some ⟨pcb.tcpAckNow, [], false⟩
  else ((pcb.tcpParseopt mss).tcpReceive inseg copied outcome).map afterReceive

/-- What `tcp_alloc` and `tcp_listen_input` set up for a SYN, once the connection is established;
`wndScale` and `sack` are whether the options of the SYN ask for them. -/
def listenInput (seqno : UInt32) (mss : UInt16) (wndScale sack : Bool) : TcpRcv where
  state := .established
  rcvNxt := seqno + 1
  rcvWnd := if wndScale then UInt32.ofNat tcpWnd else min (UInt32.ofNat tcpWnd) 0xffff
  rcvAnnWnd := if wndScale then UInt32.ofNat tcpWnd else min (UInt32.ofNat tcpWnd) 0xffff
  rcvAnnRightEdge := seqno + 1
  mss := mss
  ooseq := []
  wndScale := wndScale
  sack := sack
  rcvSacks := sackArray []
  ackDelay := false
  ackNow := false
  acks := []

end TcpRcv

/-! ### Runs -/

/-- The receiving half of a connection in use: the data that the recv callback has got, whether it
was told of the end of the stream, and whether an assertion has ended the process. -/
structure RcvRun where
  pcb : TcpRcv
  delivered : Bytes
  gotFin : Bool
  failed : Bool
deriving DecidableEq, Repr

/-- What happens to it: a segment arrives; an acknowledgement is sent, without data or with a
segment of the other half; a probe goes out; the fast timer runs; `tcp_slowtmr` drops the queue
because nothing came for too long. -/
inductive RcvEvent where
  | segment (inseg : TcpSeg) (mss : Option UInt16) (copied : Bool) (outcome : AckOutcome)
  | emptyAck (outcome : AckOutcome)
  | output
  | probe
  | fasttmr (outcome : AckOutcome)
  | dropOoseq
deriving DecidableEq, Repr

namespace RcvRun

/-- A connection that has just been established. -/
def init (seqno : UInt32) (mss : UInt16) (wndScale sack : Bool) : RcvRun where
  pcb := .listenInput seqno mss wndScale sack
  delivered := []
  gotFin := false
  failed := false

variable (run : RcvRun)

/-- The connection exists. `tcp_input` has set `len` to the length of the data. -/
def enabled : RcvEvent → Prop
  | .segment inseg _ _ _ =>
    run.failed = false ∧ (run.pcb.state = .established ∨ run.pcb.state = .closeWait) ∧
      inseg.p.length = inseg.len.toNat ∧ inseg.tcplen.toNat < 2 ^ 16
  | .emptyAck _ | .output | .probe | .fasttmr _ | .dropOoseq => run.failed = false

/-- The effect of an event. -/
def step : RcvEvent → RcvRun
  | .segment inseg mss copied outcome =>
    match run.pcb.input inseg mss copied outcome with
    | none => { run with failed := true }
    | some taken =>
      { run with
        pcb := taken.pcb
        delivered := run.delivered ++ taken.data
        gotFin := run.gotFin || taken.gotFin }
  | .emptyAck outcome => { run with pcb := run.pcb.tcpSendEmptyAck outcome }
  | .output => { run with pcb := { run.pcb.announce with ackDelay := false, ackNow := false } }
  | .probe => { run with pcb := run.pcb.announce }
  | .fasttmr outcome => { run with pcb := run.pcb.tcpFasttmr outcome }
  | .dropOoseq => { run with pcb := run.pcb.tcpFreeOoseq }

instance (event : RcvEvent) : Decidable (run.enabled event) :=
  match event with
  | .segment _ _ _ _ => inferInstanceAs (Decidable (_ ∧ (_ ∨ _) ∧ _ ∧ _))
  | .emptyAck _ | .output | .probe | .fasttmr _ | .dropOoseq =>
    inferInstanceAs (Decidable (_ = _))

end RcvRun

/-- The receiving half of a connection as a transition system. -/
def rcvSystem : Transition.System RcvRun RcvEvent where
  enabled := RcvRun.enabled
  step := RcvRun.step

instance (run : RcvRun) (event : RcvEvent) : Decidable (rcvSystem.enabled run event) :=
  inferInstanceAs (Decidable (run.enabled event))

end Net2Tr
