/-
This file models lwIP's checksum over a pbuf chain and the pseudo header of its
IP packet: `lwip_standard_chksum` and `ip_chksum_pseudo`, on a little-endian
machine.
-/

import Libn2t.Pbuf
import Libn2t.TcpPcb

namespace Net2Tr

/-- The addresses of the current IP packet, `ip_current_src_addr` and `ip_current_dest_addr`. -/
structure IpCurrent where
  src : IpCell
  dest : IpCell
  same : src.ip.isV6 = dest.ip.isV6
deriving DecidableEq, Repr

/-! ### The checksum -/

/-- `FOLD_U32T`. -/
def foldU32T (u : UInt32) : UInt32 := (u >>> 16) + (u &&& 0x0000ffff)

/-- `SWAP_BYTES_IN_WORD`. -/
def swapBytesInWord (w : UInt32) : UInt32 := ((w &&& 0xff) <<< 8) ||| ((w &&& 0xff00) >>> 8)

/-- The sum of the 16-bit words, a left-over byte being the low one of its word. -/
def sumWords : Bytes → UInt32
  | low :: high :: rest => (low.toUInt32 ||| high.toUInt32 <<< 8) + sumWords rest
  | [low] => low.toUInt32
  | [] => 0

/-- `lwip_standard_chksum`. At an odd address the first byte is the high one of a word, and the
sum is swapped back. -/
def lwipStandardChksum (q : Pbuf) : UInt32 :=
  match q.odd, q.payload with
  | true, first :: rest =>
    swapBytesInWord (foldU32T (foldU32T (sumWords rest + first.toUInt32 <<< 8))) &&& 0xffff
  | _, payload => foldU32T (foldU32T (sumWords payload)) &&& 0xffff

/-- The loop of `inet_cksum_pseudo_base`. -/
def pseudoLoop : List Pbuf → UInt32 → Bool → UInt32 × Bool
  | [], acc, swapped => (acc, swapped)
  | q :: rest, acc, swapped =>
    let acc := foldU32T (acc + lwipStandardChksum q)
    if q.payload.length % 2 ≠ 0 then pseudoLoop rest (swapBytesInWord acc) !swapped
    else pseudoLoop rest acc swapped

/-- `inet_cksum_pseudo_base`. -/
def inetCksumPseudoBase (p : PbufChain) (proto : UInt8) (protoLen : UInt16) (acc : UInt32) :
    UInt16 :=
  let (acc, swapped) := pseudoLoop p.pbufs acc false
  let acc := if swapped then swapBytesInWord acc else acc
  let acc := acc + proto.toUInt32 <<< 8
  let acc := acc + swapBytesInWord protoLen.toUInt32
  ~~~(foldU32T (foldU32T acc)).toUInt16

/-- `ip_chksum_pseudo`. -/
def ipChksumPseudo (p : PbufChain) (proto : UInt8) (protoLen : UInt16) (current : IpCurrent) :
    UInt16 :=
  inetCksumPseudoBase p proto protoLen
    (foldU32T (foldU32T (sumWords current.src.ip.bytes + sumWords current.dest.ip.bytes)))

end Net2Tr
