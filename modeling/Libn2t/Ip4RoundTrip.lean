/-
This file proves that a packet survives being cut up and put together again.

The fragments of `ip4_frag` tile the bytes of a packet and fit the MTU. Exactly
the last one is marked as the last, unless what the MTU has room for beyond
whole blocks of 8 bytes is enough for the end of the packet: the one before it
is marked, too. When the fragments of a packet with one such mark come back, in
any order, more than once and between those of other packets, the reassembly
gives the packet again.
-/

import Libn2t.Ip4Reassembly
import Mathlib.Data.List.Nodup

namespace Net2Tr

open Pieces

/-! ### The sizes -/

/-- The bytes that a fragment has room for. -/
def fragRoom (mtu : UInt16) : Nat := mtu.toNat - ipHlen

/-- The bytes that `ip4_frag` puts into a fragment: whole blocks of 8. -/
def fragBlock (mtu : UInt16) : Nat := 8 * (fragRoom mtu / 8)

section Sizes

variable {mtu : UInt16}

theorem toNat_ip4Nfb (large : 28 ≤ mtu.toNat) : (ip4Nfb mtu).toNat = fragRoom mtu / 8 := by
  have small := mtu.toNat_lt
  have room : ((mtu.toNat : Int) - ipHlen) = (fragRoom mtu : Nat) := by
    change (mtu.toNat : Int) - 20 = ((mtu.toNat - 20 : Nat) : Int)
    omega
  have blocks : Int.tdiv ((fragRoom mtu : Nat) : Int) 8 = ((fragRoom mtu / 8 : Nat) : Int) := rfl
  rw [ip4Nfb, room, blocks, UInt16.ofInt, UInt16.toNat_ofNat']
  change (((fragRoom mtu / 8 : Nat) : Int) % 65536).toNat % 65536 = _
  have bound : fragRoom mtu < 65536 := by
    change mtu.toNat - 20 < _
    omega
  omega

theorem toNat_fragsize (large : 28 ≤ mtu.toNat) : (ip4Nfb mtu * 8).toNat = fragBlock mtu := by
  have small := mtu.toNat_lt
  have bound : fragRoom mtu < 65536 := by
    change mtu.toNat - 20 < _
    omega
  rw [UInt16.toNat_mul, toNat_ip4Nfb large, fragBlock]
  change _ * 8 % 65536 = _
  omega

theorem fragBlock_bounds (large : 28 ≤ mtu.toNat) :
    8 ≤ fragBlock mtu ∧ fragBlock mtu + fragRoom mtu % 8 = fragRoom mtu := by
  have room : 8 ≤ fragRoom mtu := by
    change 8 ≤ mtu.toNat - 20
    omega
  rw [fragBlock]
  omega

end Sizes

/-! ### Cutting -/

/-- The place and the mark of a fragment do not disturb each other. -/
theorem offset_marked (ofo : UInt16) (more : Bool) :
    ((ofo &&& ipOffmask) ||| (if more then ipMf else 0)) &&& ipOffmask = ofo &&& ipOffmask ∧
      (decide (((ofo &&& ipOffmask) ||| (if more then ipMf else 0)) &&& ipMf ≠ 0) = more) := by
  have split : ∀ x y z : UInt16, (x ||| y) &&& z = (x &&& z) ||| (y &&& z) := fun x y z =>
    UInt16.toBitVec_inj.mp BitVec.and_or_distrib_right
  have low : (ofo &&& ipOffmask) &&& ipMf = 0 := by
    rw [UInt16.and_assoc]
    exact UInt16.and_zero
  constructor
  · rw [split, UInt16.and_assoc, UInt16.and_self]
    cases more with
    | true => exact UInt16.or_zero
    | false => exact UInt16.or_zero
  · rw [split, low, UInt16.zero_or]
    cases more with
    | true => rfl
    | false => rfl

/-- A header without what `ip4_frag` changes. -/
def IpHdr.bare (hdr : IpHdr) : IpHdr := { hdr with len := 0, offset := 0, chksum := 0 }

/-- The fragment of some bytes. -/
def cut (hdr : IpHdr) (ofo : UInt16) (more : Bool) (data : Bytes) : IpPacket where
  hdr :=
    { hdr with
      offset := (ofo &&& ipOffmask) ||| (if more then ipMf else 0)
      len := UInt16.ofNat (data.length + ipHlen) }.withChksum
  data := data

section Cut

variable {hdr : IpHdr} {ofo : UInt16} {more : Bool} {data : Bytes}

theorem cut_mf : (cut hdr ofo more data).hdr.mf = more := (offset_marked ofo more).2

theorem cut_offsetBytes (small : ofo.toNat < 2 ^ 13) :
    (cut hdr ofo more data).hdr.offsetBytes.toNat = 8 * ofo.toNat := by
  have low : (ofo &&& ipOffmask).toNat = ofo.toNat := by
    rw [UInt16.toNat_and]
    exact (Nat.and_two_pow_sub_one_eq_mod _ 13).trans (Nat.mod_eq_of_lt small)
  have offset : (cut hdr ofo more data).hdr.offsetBytes = (ofo &&& ipOffmask) * 8 :=
    congrArg (· * 8) (offset_marked ofo more).1
  rw [offset, UInt16.toNat_mul, low]
  change _ * 8 % 65536 = _
  omega

end Cut

/-- A fragment of a packet: its header is that of the packet but for its length, its place and its
checksum, which are its own, and it fits the MTU. -/
structure CutFrom (hdr : IpHdr) (mtu : UInt16) (fragment : IpPacket) : Prop where
  bare : fragment.hdr.bare = hdr.bare
  chksum : fragment.hdr.withChksum = fragment.hdr
  data : fragment.data ≠ []
  len : fragment.hdr.len.toNat = ipHlen + fragment.data.length
  fits : fragment.hdr.len ≤ mtu

/-- Exactly the fragment that ends there says that no more fragments follow. -/
def Marked (fragments : List IpPacket) (hi : Nat) : Prop :=
  ∀ fragment ∈ fragments, fragment.hdr.mf = false ↔ fragment.piece.stop = hi

/-- How many fragments of some bytes of a packet say that no more fragments follow: none if the
packet says that there are more, and two if what the MTU has room for beyond whole blocks of 8 is
enough for the end of the packet. -/
def lastFragments (hdr : IpHdr) (mtu : UInt16) (length : Nat) : Nat :=
  if hdr.mf = true ∨ length = 0 then 0
  else if fragBlock mtu < length ∧ (length - 1) % fragBlock mtu < fragRoom mtu % 8 then 2
  else 1

theorem lastFragments_of_mf {hdr : IpHdr} (more : hdr.mf = true) (mtu : UInt16) (length : Nat) :
    lastFragments hdr mtu length = 0 :=
  if_pos (Or.inl more)

theorem lastFragments_of_last {hdr : IpHdr} (last : hdr.mf = false) (mtu : UInt16) {length : Nat}
    (bytes : length ≠ 0) :
    lastFragments hdr mtu length =
      if fragBlock mtu < length ∧ (length - 1) % fragBlock mtu < fragRoom mtu % 8 then 2
      else 1 := by
  rw [lastFragments, if_neg]
  rintro (more | none)
  · rw [last] at more
    cases more
  · exact bytes none

/-- The fragments that say that no more follow are behind the others. -/
def LastMarked (fragments : List IpPacket) (count : Nat) : Prop :=
  ∃ more, fragments.map (fun fragment => fragment.hdr.mf) =
    List.replicate more true ++ List.replicate count false

/-- If only one fragment says so, it is the one that ends there. -/
theorem LastMarked.marked {fragments : List IpPacket} (last : LastMarked fragments 1) {lo hi : Nat}
    (tiles : Tiles lo (fragments.map IpPacket.piece) hi)
    (data : ∀ fragment ∈ fragments, fragment.data ≠ []) : Marked fragments hi := by
  obtain ⟨more, marks⟩ := last
  obtain ⟨before, behind, rfl, beforeMarks, behindMarks⟩ := List.map_eq_append_iff.mp marks
  obtain ⟨final, rest, rfl, finalMark, restMarks⟩ := List.map_eq_cons_iff.mp behindMarks
  obtain rfl := List.map_eq_nil_iff.mp restMarks
  have bytes := List.length_pos_of_ne_nil (data final (List.mem_append_right _ List.mem_cons_self))
  rw [List.map_append, List.map_singleton] at tiles
  have stop : final.piece.stop = hi := tiles.cut.2
  have start : final.piece.stop = final.piece.start + final.data.length := rfl
  intro fragment isIn
  rcases List.mem_append.mp isIn with inFront | inBack
  · have more : fragment.hdr.mf = true := by
      have mark := List.mem_map_of_mem (f := fun fragment : IpPacket => fragment.hdr.mf) inFront
      rw [beforeMarks] at mark
      exact List.eq_of_mem_replicate mark
    have below := tiles.stop_le_start (List.mem_map_of_mem inFront)
    rw [more]
    exact ⟨Bool.noConfusion, fun ends => by omega⟩
  · rw [List.mem_singleton.mp inBack, finalMark]
    exact ⟨fun _ => stop, fun _ => rfl⟩

/-- One round of the loop. -/
theorem ip4FragLoop_round {mtu : UInt16} (large : 28 ≤ mtu.toNat) (hdr : IpHdr)
    {mem : Nat → Bool} (fuel : Nat) (ofo : UInt16) {left : Bytes} (bytes : left ≠ [])
    (found : mem left.length = true) :
    ip4FragLoop hdr mtu mem (fuel + 1) ofo left =
      (ip4FragLoop hdr mtu mem fuel (ofo + ip4Nfb mtu) (left.drop (fragBlock mtu))).map
        fun (fragments, done) =>
          (cut hdr ofo (decide (fragRoom mtu < left.length) || hdr.mf)
            (left.take (fragBlock mtu)) :: fragments, done) := by
  have more : (decide ((left.length : Int) ≤ (mtu.toNat : Int) - ipHlen) = false ∨
      hdr.mf = true) ↔ (decide (fragRoom mtu < left.length) || hdr.mf) = true := by
    rw [decide_eq_false_iff_not, Bool.or_eq_true, decide_eq_true_eq, fragRoom]
    change ¬ ((left.length : Int) ≤ (mtu.toNat : Int) - 20) ∨ _ ↔ mtu.toNat - 20 < _ ∨ _
    exact or_congr_left (by omega)
  have size : (left.take (fragBlock mtu)).length = min left.length (fragBlock mtu) := by
    rw [List.length_take, Nat.min_comm]
  have rest : left.drop (min left.length (fragBlock mtu)) = left.drop (fragBlock mtu) := by
    rcases Nat.le_total left.length (fragBlock mtu) with le | le
    · rw [Nat.min_eq_left le, List.drop_length, List.drop_of_length_le le]
    · rw [Nat.min_eq_right le]
  have first : left.take (min left.length (fragBlock mtu)) = left.take (fragBlock mtu) := by
    rw [Nat.min_comm, ← List.take_eq_take_min]
  rw [ip4FragLoop, if_neg (by rw [found]; exact Bool.noConfusion), toNat_fragsize large]
  · dsimp only
    rw [rest, first, cut, size]
    simp only [more]
  · exact bytes

/-- The marks of a fragment and of those behind it. -/
theorem LastMarked.cons {hdr : IpHdr} {mtu : UInt16} (large : 28 ≤ mtu.toNat) {length : Nat}
    (more : fragBlock mtu < length) {fragment : IpPacket} {fragments : List IpPacket}
    (mf : fragment.hdr.mf = (decide (fragRoom mtu < length) || hdr.mf))
    (count : fragments.length = (length - fragBlock mtu + fragBlock mtu - 1) / fragBlock mtu)
    (marked : LastMarked fragments (lastFragments hdr mtu (length - fragBlock mtu))) :
    LastMarked (fragment :: fragments) (lastFragments hdr mtu length) := by
  obtain ⟨block, room⟩ := fragBlock_bounds large
  obtain ⟨before, marks⟩ := marked
  rw [LastMarked, List.map_cons, marks, mf]
  cases packet : hdr.mf with
  | true =>
    rw [Bool.or_true, lastFragments_of_mf packet, lastFragments_of_mf packet]
    exact ⟨before + 1, rfl⟩
  | false =>
    have period : (length - 1) % fragBlock mtu =
        (length - fragBlock mtu - 1) % fragBlock mtu := by
      have later : length - 1 = length - fragBlock mtu - 1 + fragBlock mtu := by omega
      rw [later, Nat.add_mod_right]
    rw [lastFragments_of_last packet mtu (by omega)] at marks
    rw [lastFragments_of_last packet mtu (by omega), lastFragments_of_last packet mtu (by omega),
      period, Bool.or_false]
    by_cases again : fragBlock mtu < length - fragBlock mtu
    · -- the end is the end of the fragments behind it
      simp only [again, more, true_and]
      rw [decide_eq_true (by omega)]
      exact ⟨before + 1, rfl⟩
    · have ends : (length - fragBlock mtu - 1) % fragBlock mtu = length - fragBlock mtu - 1 :=
        Nat.mod_eq_of_lt (by omega)
      rw [if_neg fun both => again both.1, ends]
      by_cases whole : fragRoom mtu < length
      · rw [decide_eq_true whole, if_neg (by omega)]
        exact ⟨before + 1, rfl⟩
      · -- it fits into the MTU with the one fragment behind it
        rw [decide_eq_false whole, if_pos (by omega)]
        have one : fragments.length = 1 := by
          rw [count]
          exact Nat.div_eq_of_lt_le (by omega) (by omega)
        have marks' := congrArg List.length marks
        rw [if_neg fun both => again both.1, List.length_map, List.length_append,
          List.length_replicate, List.length_replicate] at marks'
        obtain rfl : before = 0 := by omega
        exact ⟨0, rfl⟩

/-- The loop of `ip4_frag` ends, and cuts what is left into fragments. -/
theorem ip4FragLoop_spec (hdr : IpHdr) {mtu : UInt16} (large : 28 ≤ mtu.toNat) (fuel : Nat)
    (ofo : UInt16) (left : Bytes) (enough : left.length ≤ fuel)
    (short : left.length + ipHlen < 2 ^ 16) (fits : 8 * ofo.toNat + left.length ≤ 2 ^ 16) :
    ∃ fragments, ip4FragLoop hdr mtu (fun _ => true) fuel ofo left = some (fragments, true) ∧
      Tiles (8 * ofo.toNat) (fragments.map IpPacket.piece) (8 * ofo.toNat + left.length) ∧
      fragments.flatMap IpPacket.data = left ∧
      (∀ fragment ∈ fragments, CutFrom hdr mtu fragment) ∧
      fragments.length = (left.length + fragBlock mtu - 1) / fragBlock mtu ∧
      LastMarked fragments (lastFragments hdr mtu left.length) := by
  obtain ⟨block, room⟩ := fragBlock_bounds large
  have hlen : ipHlen = 20 := rfl
  have room_eq : fragRoom mtu = mtu.toNat - 20 := rfl
  have nothing : ([] : List IpPacket).length = (([] : Bytes).length + fragBlock mtu - 1) /
      fragBlock mtu ∧ LastMarked [] (lastFragments hdr mtu ([] : Bytes).length) := by
    refine ⟨(Nat.div_eq_of_lt ?_).symm, 0, ?_⟩
    · rw [List.length_nil]
      omega
    · rw [lastFragments, if_pos (Or.inr List.length_nil)]
      rfl
  induction fuel generalizing ofo left with
  | zero =>
    have empty : left = [] := List.eq_nil_of_length_eq_zero (by omega)
    subst empty
    exact ⟨[], rfl, rfl, rfl, List.forall_mem_nil _, nothing⟩
  | succ fuel inductionHypothesis =>
    by_cases empty : left = []
    · subst empty
      exact ⟨[], rfl, rfl, rfl, List.forall_mem_nil _, nothing⟩
    have bytes := List.length_pos_of_ne_nil empty
    have size : (left.take (fragBlock mtu)).length = min (fragBlock mtu) left.length :=
      List.length_take
    have start : (cut hdr ofo (decide (fragRoom mtu < left.length) || hdr.mf)
        (left.take (fragBlock mtu))).hdr.offsetBytes.toNat = 8 * ofo.toNat :=
      cut_offsetBytes (by omega)
    have from_packet : CutFrom hdr mtu (cut hdr ofo (decide (fragRoom mtu < left.length) || hdr.mf)
        (left.take (fragBlock mtu))) := by
      have len : (UInt16.ofNat ((left.take (fragBlock mtu)).length + ipHlen)).toNat =
          ipHlen + (left.take (fragBlock mtu)).length := by
        rw [UInt16.toNat_ofNat', size]
        omega
      refine ⟨rfl, rfl, ?_, len, ?_⟩
      · exact List.ne_nil_of_length_pos (by rw [cut, size]; omega)
      · refine UInt16.le_iff_toNat_le.mpr (len.trans_le ?_)
        rw [size]
        omega
    have data : (cut hdr ofo (decide (fragRoom mtu < left.length) || hdr.mf)
        (left.take (fragBlock mtu))).data = left.take (fragBlock mtu) := rfl
    have mf : (cut hdr ofo (decide (fragRoom mtu < left.length) || hdr.mf)
        (left.take (fragBlock mtu))).hdr.mf = (decide (fragRoom mtu < left.length) || hdr.mf) :=
      cut_mf
    rw [ip4FragLoop_round large hdr fuel ofo empty rfl]
    generalize cut hdr ofo (decide (fragRoom mtu < left.length) || hdr.mf)
      (left.take (fragBlock mtu)) = fragment at start from_packet data mf
    have stop : fragment.piece.stop = 8 * ofo.toNat + min (fragBlock mtu) left.length := by
      change fragment.hdr.offsetBytes.toNat + fragment.data.length = _
      rw [start, data, size]
    by_cases more : fragBlock mtu < left.length
    · -- the fragment takes whole blocks
      have next : (ofo + ip4Nfb mtu).toNat = ofo.toNat + fragRoom mtu / 8 := by
        rw [UInt16.toNat_add, toNat_ip4Nfb large]
        omega
      have here : 8 * (ofo + ip4Nfb mtu).toNat = 8 * ofo.toNat + fragBlock mtu := by
        rw [next, fragBlock, Nat.mul_add]
      have length : (left.drop (fragBlock mtu)).length = left.length - fragBlock mtu :=
        List.length_drop
      obtain ⟨fragments, is, tiles, joins, cuts, count, marked⟩ := inductionHypothesis
        (ofo + ip4Nfb mtu) (left.drop (fragBlock mtu)) (by omega) (by omega) (by omega)
      have stop' : 8 * (ofo + ip4Nfb mtu).toNat + (left.drop (fragBlock mtu)).length =
          8 * ofo.toNat + left.length := by omega
      rw [stop'] at tiles
      rw [min_eq_left more.le, ← here] at stop
      rw [length] at count marked
      refine ⟨fragment :: fragments, by rw [is]; rfl, ⟨start, ?_⟩, ?_, ?_, ?_,
        marked.cons large more mf count⟩
      · rw [stop]
        exact tiles
      · rw [List.flatMap_cons, joins, data, List.take_append_drop]
      · exact List.forall_mem_cons.mpr ⟨from_packet, cuts⟩
      · have split : left.length + fragBlock mtu - 1 =
            left.length - fragBlock mtu + fragBlock mtu - 1 + fragBlock mtu := by omega
        rw [List.length_cons, count, split, Nat.add_div_right _ (by omega)]
    · -- it takes all that is left
      rw [List.drop_of_length_le (Nat.not_lt.mp more)]
      rw [min_eq_right (Nat.not_lt.mp more)] at stop
      refine ⟨[fragment], by rw [ip4FragLoop]; rfl, ⟨start, stop⟩, ?_, ?_, ?_, ?_⟩
      · rw [List.flatMap_singleton, data, List.take_of_length_le (Nat.not_lt.mp more)]
      · exact List.forall_mem_singleton.mpr from_packet
      · change 1 = _
        exact (Nat.div_eq_of_lt_le (by omega) (by omega)).symm
      · rw [LastMarked, List.map_singleton, mf, decide_eq_false (by omega), Bool.false_or]
        cases packet : hdr.mf with
        | true =>
          rw [lastFragments_of_mf packet]
          exact ⟨1, rfl⟩
        | false =>
          rw [lastFragments_of_last packet mtu bytes.ne', if_neg fun both => more both.1]
          exact ⟨0, rfl⟩

/-- When an allocation fails, the fragments before it have been sent. -/
theorem ip4FragLoop_prefix {hdr : IpHdr} {mtu : UInt16} (large : 28 ≤ mtu.toNat) (fuel : Nat)
    (ofo : UInt16) (left : Bytes) {fragments : List IpPacket}
    (is : ip4FragLoop hdr mtu (fun _ => true) fuel ofo left = some (fragments, true))
    (mem : Nat → Bool) :
    ∃ sent rest, fragments = sent ++ rest ∧
      ip4FragLoop hdr mtu mem fuel ofo left = some (sent, rest.isEmpty) := by
  induction fuel generalizing ofo left fragments with
  | zero =>
    cases left with
    | nil => exact ⟨[], [], by cases is; rfl, by rw [ip4FragLoop]; rfl⟩
    | cons byte left =>
      rw [ip4FragLoop] at is
      · cases is
      · exact List.cons_ne_nil _ _
  | succ fuel inductionHypothesis =>
    by_cases empty : left = []
    · subst empty
      exact ⟨[], [], by cases is; rfl, rfl⟩
    rw [ip4FragLoop_round large hdr fuel ofo empty rfl] at is
    obtain ⟨⟨fragments', done⟩, is', same⟩ := Option.map_eq_some_iff.mp is
    cases same
    cases found : mem left.length with
    | true =>
      obtain ⟨sent, rest, rfl, sends⟩ := inductionHypothesis _ _ is'
      rw [ip4FragLoop_round large hdr fuel ofo empty found, sends]
      exact ⟨_ :: sent, rest, rfl, rfl⟩
    | false =>
      refine ⟨[], _, rfl, ?_⟩
      rw [ip4FragLoop, if_pos found]
      · rfl
      · exact empty

/-! ### The fragments of one packet -/

/-- Fragments of a packet that was too long: they tile its bytes, their headers are those of the
packet but for length, place and checksum, and exactly the last one is marked as the last. -/
structure Fragmented (packet : IpPacket) (fragments : List IpPacket) : Prop where
  tiles : Tiles 0 (fragments.map IpPacket.piece) packet.data.length
  joins : fragments.flatMap IpPacket.data = packet.data
  notEmpty : fragments ≠ []
  bare : ∀ fragment ∈ fragments, fragment.hdr.bare = packet.hdr.bare
  data : ∀ fragment ∈ fragments, fragment.data ≠ []
  len : ∀ fragment ∈ fragments, fragment.hdr.len.toNat = ipHlen + fragment.data.length
  marked : Marked fragments packet.data.length
  several : ∀ fragment ∈ fragments, fragment.data.length < packet.data.length
  hl : packet.hdr.hlBytes = ipHlen
  small : packet.data.length ≤ 0xffff - ipHlen
  sent : packet.hdr = { packet.hdr with
    len := UInt16.ofNat packet.data.length + UInt16.ofNat ipHlen
    offset := 0 }.withChksum

/-- What a header says besides its length, its place and its checksum makes the header of the whole
packet. -/
theorem IpHdr.withChksum_of_bare {hdr hdr' : IpHdr} (bare : hdr.bare = hdr'.bare) (len : UInt16) :
    { hdr with len := len, offset := 0 }.withChksum =
      { hdr' with len := len, offset := 0 }.withChksum := by
  change { hdr.bare with len := len, offset := 0 }.withChksum =
    { hdr'.bare with len := len, offset := 0 }.withChksum
  rw [bare]

theorem IpHdr.key_of_bare {hdr hdr' : IpHdr} (bare : hdr.bare = hdr'.bare) :
    hdr.key = hdr'.key := by
  change hdr.bare.key = hdr'.bare.key
  rw [bare]

namespace Fragmented

variable {packet fragment : IpPacket} {fragments : List IpPacket}

theorem stop_le (fragmented : Fragmented packet fragments) (isIn : fragment ∈ fragments) :
    fragment.piece.stop ≤ packet.data.length :=
  fragmented.tiles.stop_le _ (List.mem_map_of_mem isIn)

theorem isPart (fragmented : Fragmented packet fragments) (isIn : fragment ∈ fragments) :
    fragment.Fragment where
  hl := (congrArg IpHdr.hlBytes (fragmented.bare fragment isIn)).trans fragmented.hl
  len := (fragmented.len fragment isIn).symm
  part start := by
    rw [← Bool.not_eq_false]
    intro last
    have stop := (fragmented.marked fragment isIn).mp last
    have short := fragmented.several fragment isIn
    change fragment.hdr.offsetBytes.toNat + fragment.data.length = _ at stop
    rw [start] at stop
    exact short.ne ((Nat.zero_add _).symm.trans stop)

theorem apart (fragmented : Fragmented packet fragments) :
    Apart 0 (fragments.map IpPacket.piece) := by
  refine fragmented.tiles.apart fun piece isIn => ?_
  obtain ⟨fragment, isFragment, rfl⟩ := List.mem_map.mp isIn
  exact fragmented.data fragment isFragment

theorem fits_frag (fragmented : Fragmented packet fragments) (isIn : fragment ∈ fragments)
    (clen : Nat) : (fragment.frag clen).Fits := by
  have le := fragmented.stop_le isIn
  have small := fragmented.small
  change fragment.hdr.offsetBytes.toNat + fragment.data.length ≤ _ at le
  change _ ≤ 65535 - 20 at small
  rw [ReassFrag.Fits, IpPacket.frag, UInt16.toNat_add, UInt16.toNat_ofNat']
  change _ = fragment.hdr.offsetBytes.toNat + fragment.data.length
  omega

end Fragmented

/-- An entry of the list holds fragments of a packet, and knows of the last one if it has it. -/
structure Parts (packet : IpPacket) (fragments : List IpPacket) (ipr : IpReassData) : Prop where
  frags : ∀ q ∈ ipr.p, ∃ fragment ∈ fragments, q = fragment.frag q.clen
  last : ipr.lastFrag = true ↔ ∃ q ∈ ipr.p, q.piece.stop = packet.data.length
  len : ipr.lastFrag = true → ipr.datagramLen.toNat = packet.data.length
  hdr : ipr.iphdr.bare = packet.hdr.bare

namespace Parts

variable {packet fragment : IpPacket} {fragments : List IpPacket} {ipr : IpReassData}

/-- The pieces of an entry are pieces of the packet. -/
theorem pieces (parts : Parts packet fragments ipr) :
    ∀ piece ∈ ipr.p.map ReassFrag.piece, piece ∈ fragments.map IpPacket.piece := by
  intro piece isIn
  obtain ⟨q, inEntry, rfl⟩ := List.mem_map.mp isIn
  obtain ⟨fragment, isFragment, is⟩ := parts.frags q inEntry
  rw [is]
  exact List.mem_map_of_mem isFragment

/-- A complete entry becomes the packet. -/
theorem assembled (parts : Parts packet fragments ipr) (fragmented : Fragmented packet fragments)
    (complete : IpReass.Complete ipr) : IpReass.assembled ipr = packet := by
  obtain ⟨flag, hi, tiles⟩ := complete
  have filled : ∀ piece ∈ fragments.map IpPacket.piece, piece.data ≠ [] := by
    intro piece isIn
    obtain ⟨fragment, isFragment, rfl⟩ := List.mem_map.mp isIn
    exact fragmented.data fragment isFragment
  have all := tiles.eq_of_subset fragmented.tiles filled parts.pieces (by
    obtain ⟨q, isIn, stop⟩ := parts.last.mp flag
    exact ⟨q.piece, List.mem_map_of_mem isIn, stop⟩)
  have data : ipr.p.flatMap ReassFrag.data = packet.data := by
    have joins : joined (ipr.p.map ReassFrag.piece) = joined (fragments.map IpPacket.piece) := by
      rw [all]
    rw [joined, joined, List.flatMap_map, List.flatMap_map] at joins
    exact joins.trans fragmented.joins
  have len : ipr.datagramLen = UInt16.ofNat packet.data.length := by
    have small := fragmented.small
    rw [← UInt16.toNat_inj, parts.len flag, UInt16.toNat_ofNat']
    change _ ≤ 65535 - 20 at small
    omega
  have hdr := fragmented.sent
  rw [← IpHdr.withChksum_of_bare parts.hdr, ← len] at hdr
  rw [IpReass.assembled, data, ← hdr]

/-- A new entry. -/
theorem fresh (fragmented : Fragmented packet fragments) (isIn : fragment ∈ fragments) :
    Parts packet fragments (IpReass.freshEntry fragment.hdr) where
  frags q isIn := by cases isIn
  last := by
    constructor
    · intro flag
      cases flag
    · rintro ⟨q, isIn, -⟩
      cases isIn
  len flag := by cases flag
  hdr := fragmented.bare fragment isIn

/-- An entry for which a fragment has come. -/
theorem updateHdr (parts : Parts packet fragments ipr) (fragmented : Fragmented packet fragments)
    (isIn : fragment ∈ fragments) :
    Parts packet fragments (IpReass.updateHdr fragment.hdr ipr) := by
  unfold IpReass.updateHdr
  split
  · exact ⟨parts.frags, parts.last, parts.len, fragmented.bare fragment isIn⟩
  · exact parts

/-- The fragment is put into the list. -/
theorem chained (parts : Parts packet fragments ipr) (fragmented : Fragmented packet fragments)
    (isIn : fragment ∈ fragments) {before behind : List ReassFrag} {clen : Nat}
    (split : ipr.p = before ++ behind) :
    Parts packet fragments
      (IpReass.chained fragment ipr (before ++ fragment.frag clen :: behind)) where
  frags q inList := by
    rw [IpReass.chained_p] at inList
    rcases List.mem_append.mp inList with inFront | inBack
    · exact parts.frags q (by rw [split]; exact List.mem_append_left _ inFront)
    · rcases List.mem_cons.mp inBack with rfl | later
      · exact ⟨fragment, isIn, rfl⟩
      · exact parts.frags q (by rw [split]; exact List.mem_append_right _ later)
  last := by
    have old : ipr.lastFrag = true ↔
        ∃ q ∈ before ++ behind, q.piece.stop = packet.data.length := by
      rw [← split]
      exact parts.last
    have new := fragmented.marked fragment isIn
    change _ ↔ (fragment.frag clen).piece.stop = _ at new
    rw [IpReass.chained_p]
    simp only [List.mem_append, List.mem_cons, or_and_right, exists_or, exists_eq_left] at old ⊢
    rw [← new, or_left_comm, ← old]
    unfold IpReass.chained
    split
    case isTrue last => simp only [last, true_or]
    case isFalse more => simp only [more, Bool.true_eq_false, false_or]
  len := by
    unfold IpReass.chained
    split
    case isTrue last =>
      intro _
      exact ((fragmented.fits_frag isIn 0).stop).symm.trans
        ((fragmented.marked fragment isIn).mp last)
    case isFalse => exact parts.len
  hdr := by
    rw [IpReass.chained_iphdr]
    exact parts.hdr

end Parts

/-! ### Putting it together again -/

/-- A fragment finds room and memory, and if it belongs to the packet it is one of its fragments. -/
def Undisturbed (packet : IpPacket) (fragments : List IpPacket) (run : ReassRun) :
    ReassEvent → Prop
  | .fragment fragment clen mem =>
    run.reass.pbufcount + clen ≤ ipReassMaxPbufs ∧ mem.1 = true ∧
      (fragment.hdr.key = packet.hdr.key → fragment ∈ fragments)
  | .tmr => True

/-- What a run has made of the fragments of a packet that have come since so many packets had been
passed on: the packet has been put together, or they wait in an entry. -/
structure Gathering (packet : IpPacket) (fragments received : List IpPacket) (ticks old : Nat)
    (run : ReassRun) : Prop where
  ok : run.reass.Ok
  entries : ∀ ipr ∈ run.reass.reassdatagrams, ipr.iphdr.key = packet.hdr.key →
    Parts packet fragments ipr ∧ ¬ IpReass.Complete ipr ∧ 15 ≤ ipr.timer.toNat + ticks
  grown : old ≤ run.delivered.length
  delivered : ∀ out ∈ run.delivered.drop old, out.hdr.key = packet.hdr.key → out = packet
  progress : packet ∈ run.delivered.drop old ∨ ∀ fragment ∈ received, fragment ∈ fragments →
    ∃ ipr ∈ run.reass.reassdatagrams, ipr.iphdr.key = packet.hdr.key ∧
      fragment.piece ∈ ipr.p.map ReassFrag.piece

namespace IpReass

variable {reass : IpReass} {packet : IpPacket} {clen : Nat} {front back list : List IpReassData}
  {ipr : IpReassData} {out : Option IpPacket}

/-- What becomes of a fragment leaves the entries of other packets alone. -/
theorem Outcome.others (outcome : Outcome packet clen front ipr back list out)
    (own : ipr.iphdr.key = packet.hdr.key) {other : IpReassData}
    (different : other.iphdr.key ≠ packet.hdr.key) :
    (other ∈ list ↔ other ∈ front ++ ipr :: back) ∧
      ∀ made ∈ out, made.hdr.key = packet.hdr.key := by
  have without : other ∈ front ++ back ↔ other ∈ front ++ ipr :: back := by
    rw [List.mem_append, List.mem_append, List.mem_cons]
    refine or_congr_right (or_iff_right ?_).symm
    rintro rfl
    exact different own
  cases outcome with
  | dropped _ empty kept =>
    refine ⟨?_, by rintro _ ⟨⟩⟩
    by_cases none : ipr.p = []
    · rw [empty none]
      exact without
    · rw [kept none]
  | @queued before behind _ split _ =>
    refine ⟨?_, by rintro _ ⟨⟩⟩
    rw [← without, List.mem_append, List.mem_append, List.mem_cons]
    refine or_congr_right (or_iff_right ?_)
    rintro rfl
    rw [chained_iphdr] at different
    exact different own
  | finished _ split _ =>
    refine ⟨without, ?_⟩
    rintro _ ⟨⟩
    change (chained _ _ _).iphdr.key = _
    rw [chained_iphdr]
    exact own

/-- A fragment that finds room leaves the entries of other packets alone. -/
theorem Effect.others {mem : Bool} (effect : Effect reass packet clen mem list out)
    (room : reass.pbufcount + clen ≤ ipReassMaxPbufs) (memory : mem = true) {other : IpReassData}
    (different : other.iphdr.key ≠ packet.hdr.key) :
    (other ∈ list ↔ other ∈ reass.reassdatagrams) ∧
      ∀ made ∈ out, made.hdr.key = packet.hdr.key := by
  cases effect with
  | ignored _ _ same =>
    rw [same room memory]
    exact ⟨Iff.rfl, by rintro _ ⟨⟩⟩
  | @taken _ _ _ _ ipr _ _ _ same origin outcome =>
    rw [same room] at origin
    cases origin with
    | fresh _ all _ =>
      rw [all memory] at outcome
      obtain ⟨iff, made⟩ := outcome.others rfl different
      refine ⟨iff.trans (List.mem_cons.trans (or_iff_right ?_)), made⟩
      rintro rfl
      exact different rfl
    | @old _ _ ipr split own =>
      obtain ⟨iff, made⟩ := outcome.others (updateHdr_key own) different
      refine ⟨iff.trans ?_, made⟩
      rw [split, List.mem_append, List.mem_append, List.mem_cons, List.mem_cons]
      refine or_congr_right (or_congr_left ⟨?_, ?_⟩)
      · rintro rfl
        exact absurd (updateHdr_key own) different
      · rintro rfl
        exact absurd own different

end IpReass

/-- A fragment of the packet is in its entry afterwards, or the packet is complete. -/
theorem Parts.outcome {packet fragment : IpPacket} {fragments : List IpPacket} {ipr : IpReassData}
    {clen : Nat} {front back list : List IpReassData} {out : Option IpPacket}
    (parts : Parts packet fragments ipr) (fragmented : Fragmented packet fragments)
    (isIn : fragment ∈ fragments) (incomplete : ¬ IpReass.Complete ipr)
    (outcome : IpReass.Outcome fragment clen front ipr back list out) :
    (out = none ∧ ∃ ipr', list = front ++ ipr' :: back ∧ Parts packet fragments ipr' ∧
        ¬ IpReass.Complete ipr' ∧ ipr'.timer = ipr.timer ∧ ipr'.iphdr = ipr.iphdr ∧
        fragment.piece ∈ ipr'.p.map ReassFrag.piece ∧
        ∀ piece ∈ ipr.p.map ReassFrag.piece, piece ∈ ipr'.p.map ReassFrag.piece) ∨
      (out = some packet ∧ list = front ++ back) := by
  cases outcome with
  | dropped rejected _ kept =>
    -- only a fragment that is there already is dropped
    have fits := fragmented.fits_frag isIn clen
    have stop := fragmented.stop_le isIn
    have small := fragmented.small
    rcases rejected with ⟨_, long⟩ | unfit | ⟨q, inEntry, conflict⟩
    · change fragment.hdr.offsetBytes.toNat + fragment.data.length ≤ _ at stop
      omega
    · exact absurd fits unfit
    obtain ⟨other, isOther, is⟩ := parts.frags q inEntry
    have fitsOther := fragmented.fits_frag isOther q.clen
    have same : fragment.piece = q.piece := by
      by_contra different
      have inPieces := parts.pieces q.piece (List.mem_map_of_mem inEntry)
      have apart := fragmented.apart.separate (List.mem_map_of_mem isIn) inPieces different
      rw [← is] at fitsOther
      have stopFragment := fits.stop
      have stopOther := fitsOther.stop
      change fragment.piece.stop = _ at stopFragment
      have start : (fragment.frag clen).start.toNat = fragment.piece.start := rfl
      have startOther : q.start.toNat = q.piece.start := rfl
      rcases conflict with together | inside | inside
      · have together' := congrArg UInt16.toNat together
        omega
      · omega
      · omega
    have notEmpty : ipr.p ≠ [] := List.ne_nil_of_mem inEntry
    refine Or.inl ⟨rfl, ipr, kept notEmpty, parts, incomplete, rfl, rfl, ?_, fun _ isIn => isIn⟩
    rw [same]
    exact List.mem_map_of_mem inEntry
  | @queued before behind _ split incomplete' =>
    refine Or.inl ⟨rfl, _, rfl, parts.chained fragmented isIn split, incomplete',
      IpReass.chained_timer .., IpReass.chained_iphdr .., ?_, ?_⟩
    · rw [IpReass.chained_p, List.map_append]
      exact List.mem_append_right _ List.mem_cons_self
    · intro piece isIn
      rw [split, List.map_append] at isIn
      rw [IpReass.chained_p, List.map_append]
      exact List.mem_append.mpr ((List.mem_append.mp isIn).imp_right (List.mem_cons_of_mem _))
  | finished _ split complete =>
    refine Or.inr ⟨?_, rfl⟩
    rw [(parts.chained fragmented isIn split).assembled fragmented complete]

namespace Gathering

variable {packet : IpPacket} {fragments received : List IpPacket} {ticks old : Nat}
  {run : ReassRun}

/-- A fragment of the packet comes. -/
theorem own (gathering : Gathering packet fragments received ticks old run)
    (fragmented : Fragmented packet fragments) {fragment : IpPacket}
    (isIn : fragment ∈ fragments) {clen : Nat} {mem : Bool} {reass' : IpReass}
    {out : Option IpPacket} (ok : reass'.Ok)
    (room : run.reass.pbufcount + clen ≤ ipReassMaxPbufs) (memory : mem = true)
    (effect : IpReass.Effect run.reass fragment clen mem reass'.reassdatagrams out) :
    Gathering packet fragments (received ++ [fragment]) ticks old
      { run with reass := reass', delivered := run.delivered ++ out.toList } := by
  have key := IpHdr.key_of_bare (fragmented.bare fragment isIn)
  have before := gathering.grown
  cases effect with
  | ignored _ unfit _ => exact absurd ⟨fragmented.isPart isIn, room, memory⟩ unfit
  | @taken _ front back _ ipr _ _ _ same origin outcome =>
    rw [same room] at origin
    -- the entry is the only one of the packet
    have entry : Parts packet fragments ipr ∧ ¬ IpReass.Complete ipr ∧
        15 ≤ ipr.timer.toNat + ticks ∧ ipr.iphdr.key = packet.hdr.key ∧
        (∀ other ∈ front ++ back, other.iphdr.key ≠ packet.hdr.key) ∧
        ∀ other ∈ run.reass.reassdatagrams, other.iphdr.key = packet.hdr.key →
          other.p = ipr.p := by
      cases origin with
      | fresh sublist _ none =>
        rw [key] at none
        refine ⟨.fresh fragmented isIn, fun complete => ?_, Nat.le_add_right _ _, key, ?_, ?_⟩
        · cases complete.1
        · exact fun other isOther => none other (sublist.subset isOther)
        · exact fun other isOther own => absurd own (none other isOther)
      | @old _ _ ipr split own =>
        have keys := gathering.ok.keys
        rw [split, List.map_append, List.map_cons, own.trans key] at keys
        have others : ∀ other ∈ front ++ back, other.iphdr.key ≠ packet.hdr.key := by
          intro other isOther same
          have different := List.nodup_middle.mp keys
          rw [List.nodup_cons, ← List.map_append, ← same] at different
          exact different.1 (List.mem_map_of_mem isOther)
        have isOld : ipr ∈ run.reass.reassdatagrams := by
          rw [split]
          exact List.mem_append_right _ List.mem_cons_self
        obtain ⟨parts, incomplete, timer⟩ := gathering.entries ipr isOld (own.trans key)
        refine ⟨parts.updateHdr fragmented isIn, ?_, ?_, ?_, others, ?_⟩
        · rwa [IpReass.complete_updateHdr]
        · rwa [IpReass.updateHdr_timer]
        · exact (IpReass.updateHdr_key own).trans key
        · intro other isOther same
          rw [split] at isOther
          rw [IpReass.updateHdr_p]
          rcases List.mem_append.mp isOther with inFront | inBack
          · exact absurd same (others other (List.mem_append_left _ inFront))
          · rcases List.mem_cons.mp inBack with rfl | later
            · rfl
            · exact absurd same (others other (List.mem_append_right _ later))
    obtain ⟨parts, incomplete, timer, ownKey, others, one⟩ := entry
    rcases parts.outcome fragmented isIn incomplete outcome with
      ⟨rfl, ipr', list, parts', incomplete', timer', hdr', isThere, keeps⟩ | ⟨rfl, list⟩
    · rw [Option.toList_none, List.append_nil]
      refine ⟨ok, ?_, before, gathering.delivered, ?_⟩
      · intro other isOther own
        rw [list] at isOther
        rcases List.mem_append.mp isOther with inFront | inBack
        · exact absurd own (others other (List.mem_append_left _ inFront))
        · rcases List.mem_cons.mp inBack with rfl | later
          · exact ⟨parts', incomplete', by rwa [timer']⟩
          · exact absurd own (others other (List.mem_append_right _ later))
      · refine gathering.progress.imp_right fun progress part came isPart => ?_
        refine ⟨ipr', ?_, by rw [hdr', ownKey], ?_⟩
        · rw [list]
          exact List.mem_append_right _ List.mem_cons_self
        · rcases List.mem_append.mp came with earlier | now
          · obtain ⟨other, isOther, own, inEntry⟩ := progress part earlier isPart
            rw [one other isOther own] at inEntry
            exact keeps _ inEntry
          · rw [List.mem_singleton.mp now]
            exact isThere
    · rw [Option.toList_some]
      have late : (run.delivered ++ [packet]).drop old = run.delivered.drop old ++ [packet] :=
        List.drop_append_of_le_length before
      refine ⟨ok, ?_, ?_, ?_, Or.inl ?_⟩
      · intro other isOther own
        rw [list] at isOther
        exact absurd own (others other isOther)
      · rw [List.length_append]
        exact before.trans (Nat.le_add_right _ _)
      · rw [late]
        intro made isMade own
        rcases List.mem_append.mp isMade with earlier | now
        · exact gathering.delivered made earlier own
        · exact List.mem_singleton.mp now
      · rw [late]
        exact List.mem_append_right _ List.mem_cons_self

/-- A fragment of another packet comes. -/
theorem foreign (gathering : Gathering packet fragments received ticks old run)
    {fragment : IpPacket} (other : fragment.hdr.key ≠ packet.hdr.key)
    (bare : ∀ part ∈ fragments, part.hdr.key = packet.hdr.key) {clen : Nat} {mem : Bool}
    {reass' : IpReass} {out : Option IpPacket} (ok : reass'.Ok)
    (room : run.reass.pbufcount + clen ≤ ipReassMaxPbufs) (memory : mem = true)
    (effect : IpReass.Effect run.reass fragment clen mem reass'.reassdatagrams out) :
    Gathering packet fragments (received ++ [fragment]) ticks old
      { run with reass := reass', delivered := run.delivered ++ out.toList } := by
  have before := gathering.grown
  have late : (run.delivered ++ out.toList).drop old = run.delivered.drop old ++ out.toList :=
    List.drop_append_of_le_length before
  have same : ∀ {ipr : IpReassData}, ipr.iphdr.key = packet.hdr.key →
      (ipr ∈ reass'.reassdatagrams ↔ ipr ∈ run.reass.reassdatagrams) := fun own =>
    (effect.others room memory (by rw [own]; exact other.symm)).1
  refine ⟨ok, fun ipr isIn own => gathering.entries ipr ((same own).mp isIn) own, ?_, ?_, ?_⟩
  · rw [List.length_append]
    exact before.trans (Nat.le_add_right _ _)
  · rw [late]
    intro made isMade own
    rcases List.mem_append.mp isMade with earlier | now
    · exact gathering.delivered made earlier own
    · have newcomer : (IpReass.freshEntry packet.hdr).iphdr.key ≠ fragment.hdr.key := other.symm
      have key := (effect.others room memory newcomer).2 made (Option.mem_toList.mp now)
      exact absurd (key.symm.trans own) other
  · rw [late]
    refine gathering.progress.imp (List.mem_append_left _) fun progress part came isPart => ?_
    rcases List.mem_append.mp came with earlier | now
    · obtain ⟨ipr, isIn, own, inEntry⟩ := progress part earlier isPart
      exact ⟨ipr, (same own).mpr isIn, own, inEntry⟩
    · rw [List.mem_singleton.mp now] at isPart
      exact absurd (bare fragment isPart) other

/-- A second passes. -/
theorem tmr (gathering : Gathering packet fragments received ticks old run) (few : ticks < 15)
    {reass' : IpReass} (ok : reass'.Ok)
    (list : reass'.reassdatagrams =
      (run.reass.reassdatagrams.filter fun ipr => ipr.timer > 0).map fun ipr =>
        { ipr with timer := ipr.timer - 1 }) :
    Gathering packet fragments received (ticks + 1) old { run with reass := reass' } := by
  refine ⟨ok, ?_, gathering.grown, gathering.delivered, ?_⟩
  · intro ipr isIn own
    rw [list] at isIn
    obtain ⟨before, isBefore, rfl⟩ := List.mem_map.mp isIn
    obtain ⟨parts, incomplete, timer⟩ :=
      gathering.entries before (List.mem_of_mem_filter isBefore) own
    refine ⟨⟨parts.frags, parts.last, parts.len, parts.hdr⟩, incomplete, ?_⟩
    have runs : 1 ≤ before.timer.toNat := by omega
    have less : (before.timer - 1).toNat = before.timer.toNat - 1 :=
      UInt8.toNat_sub_of_le _ _ (UInt8.le_iff_toNat_le.mpr runs)
    change 15 ≤ (before.timer - 1).toNat + _
    omega
  · refine gathering.progress.imp_right fun progress part came isPart => ?_
    obtain ⟨ipr, isIn, own, inEntry⟩ := progress part came isPart
    obtain ⟨-, -, timer⟩ := gathering.entries ipr isIn own
    refine ⟨{ ipr with timer := ipr.timer - 1 }, ?_, own, inEntry⟩
    rw [list]
    refine List.mem_map.mpr ⟨ipr, List.mem_filter.mpr ⟨isIn, decide_eq_true ?_⟩, rfl⟩
    exact UInt8.lt_iff_toNat_lt.mpr (show 0 < _ by omega)

/-- Every undisturbed event keeps what was gathered. -/
theorem step (gathering : Gathering packet fragments received ticks old run)
    (fragmented : Fragmented packet fragments) {event : ReassEvent}
    (enabled : run.enabled event) (undisturbed : Undisturbed packet fragments run event)
    (few : ticks + [event].count .tmr ≤ 15) :
    Gathering packet fragments (received ++ event.packet.toList) (ticks + [event].count .tmr) old
      (run.step event) := by
  cases event with
  | tmr =>
    obtain ⟨reass', is, ok', list⟩ := gathering.ok.tmr
    rw [ReassRun.step, is]
    simp only [ReassEvent.packet, Option.toList_none, List.append_nil]
    exact gathering.tmr few ok' list
  | fragment fragment clen mem =>
    obtain ⟨_, part, _, len, _, _⟩ := enabled
    obtain ⟨room, memory, fromPacket⟩ := undisturbed
    obtain ⟨reass', out, is, ok', effect⟩ :=
      gathering.ok.ip4Reass clen len (IpHdr.part_of_offset part) mem
    rw [ReassRun.step, is]
    by_cases own : fragment.hdr.key = packet.hdr.key
    · exact gathering.own fragmented (fromPacket own) ok' room memory effect
    · exact gathering.foreign own
        (fun part isPart => IpHdr.key_of_bare (fragmented.bare part isPart)) ok' room memory effect

/-- An undisturbed run keeps what was gathered. -/
theorem runs (gathering : Gathering packet fragments received ticks old run)
    (fragmented : Fragmented packet fragments) {events : List ReassEvent}
    (undisturbed : reassSystem.Guarded (Undisturbed packet fragments) run events)
    (few : ticks + events.count .tmr ≤ 15) :
    Gathering packet fragments (received ++ events.filterMap ReassEvent.packet)
      (ticks + events.count .tmr) old (reassSystem.run events run) := by
  induction events generalizing received ticks run with
  | nil =>
    rw [List.filterMap_nil, List.append_nil]
    exact gathering
  | cons event rest inductionHypothesis =>
    obtain ⟨⟨enabled, now⟩, later⟩ := undisturbed
    have count : (event :: rest).count .tmr = [event].count .tmr + rest.count .tmr := by
      rw [← List.singleton_append, List.count_append]
    have all : (event :: rest).filterMap ReassEvent.packet =
        event.packet.toList ++ rest.filterMap ReassEvent.packet := by
      cases packet : event.packet with
      | none => rw [List.filterMap_cons_none packet]; rfl
      | some packet' => rw [List.filterMap_cons_some packet]; rfl
    rw [count, ← Nat.add_assoc] at few ⊢
    rw [all, ← List.append_assoc]
    exact inductionHypothesis (gathering.step fragmented enabled now (by omega)) later few

end Gathering

/-- When all fragments have come, the packet has been put together. -/
theorem Gathering.done {packet : IpPacket} {fragments received : List IpPacket} {ticks old : Nat}
    {run : ReassRun} (gathering : Gathering packet fragments received ticks old run)
    (fragmented : Fragmented packet fragments) (all : ∀ fragment ∈ fragments, fragment ∈ received) :
    packet ∈ run.delivered.drop old := by
  rcases gathering.progress with done | progress
  · exact done
  exfalso
  obtain ⟨first, isFirst⟩ := List.exists_mem_of_ne_nil _ fragmented.notEmpty
  obtain ⟨ipr, isIn, own, _⟩ := progress first (all first isFirst) isFirst
  obtain ⟨parts, incomplete, _⟩ := gathering.entries ipr isIn own
  -- the entry has every fragment
  have pieces : ipr.p.map ReassFrag.piece = fragments.map IpPacket.piece := by
    refine (gathering.ok.entries ipr isIn).chain.apart.eq_of_mem_iff fragmented.apart
      fun piece => ⟨parts.pieces piece, fun isPiece => ?_⟩
    obtain ⟨fragment, isFragment, rfl⟩ := List.mem_map.mp isPiece
    obtain ⟨other, isOther, ownOther, inEntry⟩ :=
      progress fragment (all fragment isFragment) isFragment
    rwa [List.inj_on_of_nodup_map gathering.ok.keys isOther isIn (ownOther.trans own.symm)]
      at inEntry
  have tiles := fragmented.tiles
  obtain ⟨last, isLast, stop⟩ := tiles.exists_stop
    (fun none => fragmented.notEmpty (List.map_eq_nil_iff.mp none))
  rw [← pieces] at tiles isLast
  obtain ⟨q, inEntry, rfl⟩ := List.mem_map.mp isLast
  exact incomplete ⟨parts.last.mpr ⟨q, inEntry, stop⟩, _, tiles⟩

/-! ### The round trip -/

/-- A packet as the stack sends it: a header without options and with its own checksum, and not a
fragment. -/
structure Sent (packet : IpPacket) : Prop where
  hl : packet.hdr.hlBytes = ipHlen
  len : packet.hdr.len.toNat = ipHlen + packet.data.length
  offset : packet.hdr.offset = 0
  chksum : packet.hdr.withChksum = packet.hdr

namespace Sent

variable {packet : IpPacket}

theorem short (sent : Sent packet) : packet.data.length + ipHlen < 2 ^ 16 := by
  have len := sent.len
  have bound := packet.hdr.len.toNat_lt
  omega

theorem mf (sent : Sent packet) : packet.hdr.mf = false := by
  rw [IpHdr.mf, sent.offset]
  rfl

/-- All of the packet is cut up. -/
theorem ip4Frag_eq (sent : Sent packet) (mtu : UInt16) (mem : Nat → Bool) :
    ip4Frag packet mtu mem =
      ip4FragLoop packet.hdr mtu mem packet.data.length 0 packet.data := by
  rw [ip4Frag, if_neg (not_not.mpr sent.hl), sent.offset]
  rfl

end Sent

/-- A packet with options is not sent. The fragments of any other one, which may be a fragment
itself, tile its bytes, have their own checksums and fit the MTU. If there is memory for them all of
them are sent, and else the first ones. None of them is marked as the last if the packet is not the
last fragment itself, and else only the last one, unless the bytes behind the whole blocks of 8 that
the MTU has room for are enough for the end of the packet: the last two are marked then. -/
theorem fragments_tile {packet : IpPacket} (short : packet.data.length + ipHlen < 2 ^ 16)
    (within : packet.piece.stop ≤ 2 ^ 16) {mtu : UInt16} (large : 28 ≤ mtu.toNat) :
    (packet.hdr.hlBytes ≠ ipHlen → ∀ mem, ip4Frag packet mtu mem = some ([], false)) ∧
      (packet.hdr.hlBytes = ipHlen →
        ∃ fragments, ip4Frag packet mtu (fun _ => true) = some (fragments, true) ∧
          (∀ mem, ∃ sent rest, fragments = sent ++ rest ∧
            ip4Frag packet mtu mem = some (sent, rest.isEmpty)) ∧
          Tiles packet.piece.start (fragments.map IpPacket.piece) packet.piece.stop ∧
          fragments.flatMap IpPacket.data = packet.data ∧
          (∀ fragment ∈ fragments, CutFrom packet.hdr mtu fragment) ∧
          fragments.length = (packet.data.length + fragBlock mtu - 1) / fragBlock mtu ∧
          LastMarked fragments (lastFragments packet.hdr mtu packet.data.length)) := by
  constructor
  · intro options mem
    rw [ip4Frag, if_pos options]
  · intro hl
    have start : 8 * (packet.hdr.offset &&& ipOffmask).toNat = packet.piece.start := by
      rw [IpPacket.piece, IpHdr.toNat_offset, IpHdr.toNat_offsetBytes, Nat.mul_comm]
    have cuts : ∀ mem, ip4Frag packet mtu mem = ip4FragLoop packet.hdr mtu mem packet.data.length
        (packet.hdr.offset &&& ipOffmask) packet.data := fun mem => by
      rw [ip4Frag, if_neg (not_not.mpr hl)]
    obtain ⟨fragments, is, spec⟩ := ip4FragLoop_spec packet.hdr large packet.data.length
      (packet.hdr.offset &&& ipOffmask) packet.data le_rfl short (by rw [start]; exact within)
    rw [start] at spec
    refine ⟨fragments, (cuts _).trans is, fun mem => ?_, spec⟩
    rw [cuts]
    exact ip4FragLoop_prefix large packet.data.length _ packet.data is mem

/-- A packet with 10 bytes. -/
def shortPacket : IpPacket where
  hdr := IpHdr.withChksum ⟨0x45, 0, 30, 1, 0, 64, 17, 0, ⟨0x0100000a⟩, ⟨0x0200000a⟩⟩
  data := [1, 2, 3, 4, 5, 6, 7, 8, 9, 10]

/-- It is cut up for an MTU of 28. -/
theorem fragments_tile_shortPacket :
    ∃ fragments, ip4Frag shortPacket 28 (fun _ => true) = some (fragments, true) ∧
      Tiles 0 (fragments.map IpPacket.piece) 10 ∧ LastMarked fragments 1 := by
  have large : 28 ≤ (28 : UInt16).toNat := by decide
  obtain ⟨fragments, is, _, tiles, _, _, _, marked⟩ :=
    (@fragments_tile shortPacket (by decide) (by decide) 28 large).2 (by decide)
  exact ⟨fragments, is, tiles, marked⟩

-- With an MTU that has room for half a block more, both fragments say that they are the last.
example : (ip4Frag shortPacket 30 fun _ => true).map
    (fun cut => cut.1.map fun fragment => (fragment.data.length, fragment.hdr.mf)) =
      some [(8, false), (2, false)] := by decide

/-- A packet that is too long for the MTU is cut up. If only one of its fragments is marked as the
last, and they come, each of them at least once, in any order and between fragments of other
packets, within the time that the reassembly waits and with room for them, the packet is passed on
as it was sent, and nothing else is in its place. -/
theorem fragments_reassemble {packet : IpPacket} (sent : Sent packet) {mtu : UInt16}
    (large : 28 ≤ mtu.toNat) (long : mtu < packet.hdr.len)
    (marked : fragRoom mtu % 8 ≤ (packet.data.length - 1) % fragBlock mtu)
    (earlier events : List ReassEvent) (legal : reassSystem.Legal .init earlier)
    (unknown : ∀ ipr ∈ (reassSystem.run earlier .init).reass.reassdatagrams,
      ipr.iphdr.key ≠ packet.hdr.key)
    (few : events.count .tmr ≤ 15) :
    ∃ fragments, ip4Frag packet mtu (fun _ => true) = some (fragments, true) ∧
      (reassSystem.Guarded (Undisturbed packet fragments) (reassSystem.run earlier .init) events →
        (∀ fragment ∈ fragments, fragment ∈ events.filterMap ReassEvent.packet) →
          let new := (reassSystem.run (earlier ++ events) .init).delivered.drop
            (reassSystem.run earlier .init).delivered.length
          packet ∈ new ∧ ∀ out ∈ new, out.hdr.key = packet.hdr.key → out = packet) := by
  have hlen : ipHlen = 20 := rfl
  have len := sent.len
  have short := sent.short
  have spec := ip4FragLoop_spec packet.hdr large packet.data.length 0 packet.data le_rfl short
    (by rw [UInt16.toNat_zero]; omega)
  simp only [UInt16.toNat_zero, Nat.mul_zero, Nat.zero_add] at spec
  obtain ⟨fragments, is, tiles, joins, cuts, -, last⟩ := spec
  rw [sent.ip4Frag_eq]
  refine ⟨fragments, is, fun undisturbed all => ?_⟩
  rw [UInt16.lt_iff_toNat_lt, len] at long
  have one : lastFragments packet.hdr mtu packet.data.length = 1 := by
    rw [lastFragments_of_last sent.mf mtu (by omega), if_neg fun both => marked.not_gt both.2]
  rw [one] at last
  have fragmented : Fragmented packet fragments := by
    refine ⟨tiles, joins, ?_, fun fragment isIn => (cuts fragment isIn).bare,
      fun fragment isIn => (cuts fragment isIn).data, fun fragment isIn => (cuts fragment isIn).len,
      last.marked tiles fun fragment isIn => (cuts fragment isIn).data, ?_, sent.hl, by omega, ?_⟩
    · rintro rfl
      rw [← joins] at long
      change _ < ipHlen + 0 at long
      omega
    · intro fragment isIn
      have fits := (cuts fragment isIn).fits
      rw [UInt16.le_iff_toNat_le, (cuts fragment isIn).len] at fits
      omega
    · have sum : UInt16.ofNat packet.data.length + UInt16.ofNat ipHlen = packet.hdr.len := by
        rw [← UInt16.toNat_inj, len, UInt16.toNat_add, UInt16.toNat_ofNat', UInt16.toNat_ofNat']
        omega
      rw [sum, ← sent.offset]
      exact sent.chksum.symm
  have start : Gathering packet fragments [] 0 (reassSystem.run earlier .init).delivered.length
      (reassSystem.run earlier .init) := by
    refine ⟨(Traced.init.runs legal).ok, fun ipr isIn own => absurd own (unknown ipr isIn), le_rfl,
      ?_, Or.inr ?_⟩
    · rw [List.drop_length]
      exact List.forall_mem_nil _
    · exact List.forall_mem_nil _
  have done := start.runs fragmented undisturbed (by rwa [Nat.zero_add])
  rw [reassSystem.run_append]
  exact ⟨done.done fragmented all, done.delivered⟩

/-- The second fragment of the packet comes twice before the first one. -/
def reversedFragments : List ReassEvent :=
  [.fragment (cut shortPacket.hdr 1 false [9, 10]) 1 (true, true), .tmr,
    .fragment (cut shortPacket.hdr 1 false [9, 10]) 1 (true, true),
    .fragment (cut shortPacket.hdr 0 true [1, 2, 3, 4, 5, 6, 7, 8]) 1 (true, true)]

theorem fragments_reassemble_reversed :
    shortPacket ∈ (reassSystem.run reversedFragments .init).delivered := by
  have sent : Sent shortPacket := ⟨by decide, by decide, by decide, by decide⟩
  have large : 28 ≤ (28 : UInt16).toNat := by decide
  obtain ⟨fragments, is, reassembles⟩ := fragments_reassemble sent large (by decide) (by decide)
    [] reversedFragments trivial (by decide) (by decide)
  have both : fragments = [cut shortPacket.hdr 0 true [1, 2, 3, 4, 5, 6, 7, 8],
      cut shortPacket.hdr 1 false [9, 10]] := by
    have cuts : ip4Frag shortPacket 28 (fun _ => true) =
        some ([cut shortPacket.hdr 0 true [1, 2, 3, 4, 5, 6, 7, 8],
          cut shortPacket.hdr 1 false [9, 10]], true) := by decide
    rw [cuts, Option.some.injEq, Prod.mk.injEq] at is
    exact is.1.symm
  subst both
  exact (reassembles ⟨⟨by decide, by decide, by decide, by decide⟩, ⟨by decide, trivial⟩,
    ⟨by decide, by decide, by decide, by decide⟩, ⟨by decide, by decide, by decide, by decide⟩,
    trivial⟩ (by decide)).1

-- When two fragments are marked, the packet without its last 2 bytes is whole before they come.
example : (ip4Frag ⟨{ shortPacket.hdr with len := 38 }, List.range 18 |>.map UInt8.ofNat⟩ 30
    fun _ => true).map (fun sent => (reassSystem.run (sent.1.map fun fragment =>
      .fragment fragment 1 (true, true)) .init).delivered.map fun out => out.data.length) =
        some [16] := by decide

end Net2Tr
