/-
This file models pbufs, and how `Utils` moves a byte string into a pbuf chain
and back: `str_to_pbuf` over lwIP's `pbuf_alloc`, `pbuf_take` and `pbuf_free`,
and `pbuf_to_str`.

The pool is the list of buffers that `memp_malloc` still hands out, in order and
with whatever bytes they hold; it fails when the list is empty. A chain is the
list of its pbufs along `next`, and the empty list is the `NULL` pointer. The
copy loops check every access: `none` is a read or a write out of bounds or
through `NULL`.

What only reads a chain sees the bytes that each pbuf holds. Such a pbuf keeps
whether its payload starts at an odd address, because the checksum reads aligned
16-bit words.
-/

import Libn2t.Address

namespace Net2Tr

/-- A `pbuf` in memory: the buffer at `payload`, which may be longer than `len`. -/
structure PbufNode where
  payload : Bytes
  totLen : UInt16
  len : UInt16
  ref : UInt8
deriving DecidableEq, Repr

/-- The pool behind `MEMP_PBUF_POOL`. -/
structure PbufPool where
  bufSize : Nat
  positive : 0 < bufSize
  buffers : List Bytes
  sized : ∀ buffer ∈ buffers, buffer.length = bufSize

/-- `pbuf_init_alloced_pbuf`. -/
def pbufInitAllocedPbuf (payload : Bytes) (totLen len : UInt16) : PbufNode :=
  { payload, totLen, len, ref := 1 }

/-- `pbuf_free`: pbufs go back to the pool from the head of the chain, up to the first one that
something else still refers to. -/
def pbufFree : List PbufNode → List Bytes → List Bytes
  | [], pool => pool
  | p :: next, pool => if p.ref - 1 = 0 then pbufFree next (p.payload :: pool) else pool

/-- `LWIP_MIN` of two 16-bit lengths. -/
def lwipMin (x y : UInt16) : UInt16 := if x < y then x else y

/-- The loop of `pbuf_alloc` for `PBUF_POOL`, with the chain so far. -/
def pbufAllocLoop (bufSize : Nat) : List Bytes → UInt16 → List PbufNode →
    List PbufNode × List Bytes
  | [], _, chain => ([], pbufFree chain [])
  | buffer :: pool, remLen, chain =>
    let qlen := lwipMin remLen (UInt16.ofNat bufSize)
    let chain := chain ++ [pbufInitAllocedPbuf buffer remLen qlen]
    if 0 < remLen - qlen then pbufAllocLoop bufSize pool (remLen - qlen) chain else (chain, pool)

/-- `pbuf_alloc(PBUF_RAW, length, PBUF_POOL)`. -/
def pbufAlloc (pool : PbufPool) (length : UInt16) : List PbufNode × List Bytes :=
  pbufAllocLoop pool.bufSize pool.buffers length []

/-- `MEMCPY` of `size` bytes. -/
def memcpy (dst src : Bytes) (size : Nat) : Option Bytes :=
  if size ≤ dst.length ∧ size ≤ src.length then some (src.take size ++ dst.drop size) else none

/-- The loop of `pbuf_take`. -/
def pbufTakeLoop (dataptr : Bytes) : List PbufNode → Nat → Nat → Option (List PbufNode)
  | chain, 0, _ => some chain
  | [], _ + 1, _ => none
  | p :: next, totalCopyLen, copiedTotal => do
    let bufCopyLen := if p.len.toNat < totalCopyLen then p.len.toNat else totalCopyLen
    let payload ← memcpy p.payload (dataptr.drop copiedTotal) bufCopyLen
    let next ← pbufTakeLoop dataptr next (totalCopyLen - bufCopyLen) (copiedTotal + bufCopyLen)
    some ({ p with payload } :: next)

/-- The `tot_len` of a chain, which is 0 for `NULL`. -/
def chainTotLen : List PbufNode → UInt16
  | [] => 0
  | p :: _ => p.totLen

/-- `pbuf_take`, without its error code, which `str_to_pbuf` ignores. -/
def pbufTake (buf : List PbufNode) (dataptr : Bytes) (len : UInt16) : Option (List PbufNode) :=
  if buf = [] ∨ chainTotLen buf < len then some buf
  else pbufTakeLoop dataptr buf len.toNat 0

/-- `Utils::str_to_pbuf`, with what is left of the pool. -/
def strToPbuf (pool : PbufPool) (str : Bytes) : Option (List PbufNode × List Bytes) :=
  let size := UInt16.ofNat str.length
  match pbufAlloc pool size with
  | ([], pool) => some ([], pool)
  | (p, pool) => (pbufTake p str size).map fun p => (p, pool)

/-- The loop of `pbuf_to_str`. -/
def pbufToStrLoop : List PbufNode → Bytes → Bytes
  | [], str => str
  | pp :: next, str => pbufToStrLoop next (str ++ pp.payload.take pp.len.toNat)

/-- `Utils::pbuf_to_str`. -/
def pbufToStr (p : List PbufNode) : Bytes := pbufToStrLoop p []

/-- Each pbuf's `len` fits its buffer, and its `tot_len` is its own `len` plus the rest. -/
def PbufWellFormed : List PbufNode → Prop
  | [] => True
  | p :: next =>
    p.len.toNat ≤ p.payload.length ∧
      p.totLen.toNat = p.len.toNat + (chainTotLen next).toNat ∧ PbufWellFormed next

/-! ### Chains that are read -/

/-- A `pbuf`: its payload, and whether that starts at an odd address. -/
structure Pbuf where
  payload : Bytes
  odd : Bool
deriving DecidableEq, Repr

/-- A chain of pbufs, which has at least one. -/
structure PbufChain where
  first : Pbuf
  rest : List Pbuf
deriving DecidableEq, Repr

namespace PbufChain

def pbufs (p : PbufChain) : List Pbuf := p.first :: p.rest

/-- `Utils::pbuf_to_str`. -/
def toStr (p : PbufChain) : Bytes := p.pbufs.flatMap Pbuf.payload

/-- `tot_len`. -/
def totLen (p : PbufChain) : UInt16 := UInt16.ofNat p.toStr.length

/-- `pbuf_remove_header` of a header whose size is even and fits the first pbuf. -/
def removeHeader (size : Nat) (p : PbufChain) : PbufChain :=
  { p with first := { p.first with payload := p.first.payload.drop size } }

theorem toStr_removeHeader {size : Nat} {p : PbufChain} (fits : size ≤ p.first.payload.length) :
    (p.removeHeader size).toStr = p.toStr.drop size := by
  simp only [toStr, pbufs, removeHeader, List.flatMap_cons]
  rw [List.drop_append_of_le_length fits]

end PbufChain

/-- What a pbuf in memory holds. -/
def PbufNode.read (p : PbufNode) (odd : Bool) : Pbuf := ⟨p.payload.take p.len.toNat, odd⟩

/-- What a chain in memory holds; `odd` tells which payloads start at an odd address. -/
def PbufChain.ofNodes (odd : PbufNode → Bool) (p : PbufNode) (next : List PbufNode) : PbufChain :=
  ⟨p.read (odd p), next.map fun q => q.read (odd q)⟩

/-! ### `pbuf_to_str` -/

theorem pbufToStrLoop_eq (chain : List PbufNode) (str : Bytes) :
    pbufToStrLoop chain str = str ++ chain.flatMap fun p => p.payload.take p.len.toNat := by
  induction chain generalizing str with
  | nil => rw [pbufToStrLoop, List.flatMap_nil, List.append_nil]
  | cons p next inductionHypothesis =>
    rw [pbufToStrLoop, inductionHypothesis, List.flatMap_cons, List.append_assoc]

/-- `pbuf_to_str` concatenates the payloads. -/
theorem pbufToStr_eq_flatMap (chain : List PbufNode) :
    pbufToStr chain = chain.flatMap fun p => p.payload.take p.len.toNat := by
  rw [pbufToStr, pbufToStrLoop_eq, List.nil_append]

theorem pbufToStr_cons (p : PbufNode) (next : List PbufNode) :
    pbufToStr (p :: next) = p.payload.take p.len.toNat ++ pbufToStr next := by
  rw [pbufToStr_eq_flatMap, pbufToStr_eq_flatMap, List.flatMap_cons]

/-- The string read from a well-formed chain is as long as `tot_len` says. -/
theorem PbufWellFormed.length_pbufToStr {chain : List PbufNode}
    (wellFormed : PbufWellFormed chain) :
    (pbufToStr chain).length = (chainTotLen chain).toNat := by
  induction chain with
  | nil => rfl
  | cons p next inductionHypothesis =>
    obtain ⟨fits, total, wellFormed⟩ := wellFormed
    rw [pbufToStr_cons, List.length_append, List.length_take, Nat.min_eq_left fits,
      inductionHypothesis wellFormed, chainTotLen, total]

namespace PbufChain

/-- `pbuf_to_str` is the same for both kinds of chains. -/
theorem toStr_ofNodes (odd : PbufNode → Bool) (p : PbufNode) (next : List PbufNode) :
    (ofNodes odd p next).toStr = pbufToStr (p :: next) := by
  rw [pbufToStr_cons, pbufToStr_eq_flatMap, toStr, pbufs, ofNodes, List.flatMap_cons,
    List.flatMap_map]
  rfl

/-- The first pbuf of a well-formed chain has the `tot_len` of all. -/
theorem totLen_ofNodes (odd : PbufNode → Bool) {p : PbufNode} {next : List PbufNode}
    (wellFormed : PbufWellFormed (p :: next)) : (ofNodes odd p next).totLen = p.totLen := by
  rw [totLen, toStr_ofNodes, wellFormed.length_pbufToStr]
  exact UInt16.ofNat_toNat

end PbufChain

/-! ### `pbuf_alloc` -/

theorem lwipMin_choice (x y : UInt16) : lwipMin x y = x ∨ lwipMin x y = y := by
  unfold lwipMin
  split
  · exact Or.inl rfl
  · exact Or.inr rfl

theorem lwipMin_le_left (x y : UInt16) : lwipMin x y ≤ x := by
  unfold lwipMin
  split
  · exact UInt16.le_refl x
  · exact UInt16.not_lt.mp ‹_›

theorem lwipMin_le_right (x y : UInt16) : lwipMin x y ≤ y := by
  unfold lwipMin
  split
  · exact UInt16.le_of_lt ‹_›
  · exact UInt16.le_refl y

/-- Freeing a chain that nothing else refers to returns every buffer. -/
theorem pbufFree_perm {chain : List PbufNode} (unshared : ∀ p ∈ chain, p.ref = 1)
    (pool : List Bytes) : (pbufFree chain pool).Perm (chain.map PbufNode.payload ++ pool) := by
  induction chain generalizing pool with
  | nil => exact List.Perm.refl pool
  | cons p next inductionHypothesis =>
    have freed : pbufFree (p :: next) pool = pbufFree next (p.payload :: pool) := by
      rw [pbufFree, unshared p List.mem_cons_self]
      rfl
    rw [freed, List.map_cons, List.cons_append]
    exact (inductionHypothesis (fun q member => unshared q (List.mem_cons_of_mem p member))
      (p.payload :: pool)).trans List.perm_middle

/-- The loop of `pbuf_alloc` fails when the pool runs out, and then every buffer is back in the
pool; or it adds well-formed pbufs for exactly the remaining length. -/
theorem pbufAllocLoop_cases {bufSize : Nat} {pool : List Bytes} {chain : List PbufNode}
    (sized : ∀ buffer ∈ pool, buffer.length = bufSize) (unshared : ∀ p ∈ chain, p.ref = 1)
    (remLen : UInt16) :
    (∃ released, pbufAllocLoop bufSize pool remLen chain = ([], released) ∧
      released.Perm (chain.map PbufNode.payload ++ pool) ∧
      (pool.length * (UInt16.ofNat bufSize).toNat < remLen.toNat ∨ pool = [])) ∨
    ∃ added, added ≠ [] ∧
      pbufAllocLoop bufSize pool remLen chain = (chain ++ added, pool.drop added.length) ∧
      PbufWellFormed added ∧ chainTotLen added = remLen := by
  induction pool generalizing remLen chain with
  | nil =>
    refine Or.inl ⟨pbufFree chain [], rfl, ?_, Or.inr rfl⟩
    exact pbufFree_perm unshared []
  | cons buffer pool inductionHypothesis =>
    have qlenLe : (lwipMin remLen (UInt16.ofNat bufSize)).toNat ≤ buffer.length := by
      rw [sized buffer List.mem_cons_self]
      exact (UInt16.le_iff_toNat_le.mp (lwipMin_le_right _ _)).trans (Nat.mod_le _ _)
    have qlenLeRem : lwipMin remLen (UInt16.ofNat bufSize) ≤ remLen := lwipMin_le_left _ _
    generalize qlen_eq : lwipMin remLen (UInt16.ofNat bufSize) = qlen at qlenLe qlenLeRem
    have restLen : (remLen - qlen).toNat = remLen.toNat - qlen.toNat :=
      UInt16.toNat_sub_of_le remLen qlen qlenLeRem
    have qlenLeNat : qlen.toNat ≤ remLen.toNat := UInt16.le_iff_toNat_le.mp qlenLeRem
    by_cases more : 0 < remLen - qlen
    · have positive : 0 < (remLen - qlen).toNat := UInt16.lt_iff_toNat_lt.mp more
      have full : qlen = UInt16.ofNat bufSize := by
        rcases lwipMin_choice remLen (UInt16.ofNat bufSize) with all | all
        · rw [← qlen_eq, all] at restLen positive
          omega
        · rw [← qlen_eq, all]
      have unfolded : pbufAllocLoop bufSize (buffer :: pool) remLen chain =
          pbufAllocLoop bufSize pool (remLen - qlen)
            (chain ++ [pbufInitAllocedPbuf buffer remLen qlen]) := by
        rw [pbufAllocLoop, qlen_eq, if_pos more]
      rw [unfolded]
      have unshared : ∀ p ∈ chain ++ [pbufInitAllocedPbuf buffer remLen qlen], p.ref = 1 := by
        intro p member
        rcases List.mem_append.mp member with member | member
        · exact unshared p member
        · rw [List.mem_singleton.mp member]
          rfl
      rcases inductionHypothesis (fun other member => sized other (List.mem_cons_of_mem _ member))
        unshared (remLen - qlen) with failed | allocated
      · obtain ⟨released, run, perm, ranOut⟩ := failed
        refine Or.inl ⟨released, run, ?_, Or.inl ?_⟩
        · rw [List.map_append, List.append_assoc] at perm
          exact perm
        · rw [List.length_cons, Nat.add_mul, Nat.one_mul, ← full]
          rcases ranOut with short | empty
          · rw [← full] at short
            omega
          · rw [empty, List.length_nil, Nat.zero_mul]
            omega
      · obtain ⟨added, _, run, wellFormed, total⟩ := allocated
        refine Or.inr ⟨pbufInitAllocedPbuf buffer remLen qlen :: added, List.cons_ne_nil _ _,
          ?_, ⟨qlenLe, ?_, wellFormed⟩, rfl⟩
        · rw [run, List.append_assoc, List.singleton_append, List.length_cons, List.drop_succ_cons]
        · change remLen.toNat = qlen.toNat + (chainTotLen added).toNat
          rw [total, restLen]
          omega
    · have done : (remLen - qlen).toNat = 0 := by
        have notMore : ¬ 0 < (remLen - qlen).toNat := fun less =>
          more (UInt16.lt_iff_toNat_lt.mpr less)
        omega
      refine Or.inr ⟨[pbufInitAllocedPbuf buffer remLen qlen], List.cons_ne_nil _ _, ?_,
        ⟨qlenLe, ?_, trivial⟩, rfl⟩
      · rw [pbufAllocLoop, qlen_eq, if_neg more, List.length_singleton, List.drop_one,
          List.tail_cons]
      · change remLen.toNat = qlen.toNat + 0
        omega

/-! ### `pbuf_take` -/

theorem memcpy_eq {dst src : Bytes} {size : Nat} (room : size ≤ dst.length)
    (given : size ≤ src.length) : memcpy dst src size = some (src.take size ++ dst.drop size) :=
  if_pos ⟨room, given⟩

/-- While bytes remain, the loop copies `len` bytes into a pbuf that cannot hold more. -/
theorem pbufTakeLoop_cons {dataptr : Bytes} {p : PbufNode} {next filled : List PbufNode}
    {totalCopyLen copied : Nat} {payload : Bytes} (some_left : 0 < p.len.toNat + totalCopyLen)
    (copy : memcpy p.payload (dataptr.drop copied) p.len.toNat = some payload)
    (run : pbufTakeLoop dataptr next totalCopyLen (copied + p.len.toNat) = some filled) :
    pbufTakeLoop dataptr (p :: next) (p.len.toNat + totalCopyLen) copied =
      some ({ p with payload } :: filled) := by
  have copyLen : (if p.len.toNat < p.len.toNat + totalCopyLen then p.len.toNat
      else p.len.toNat + totalCopyLen) = p.len.toNat := by
    split
    · rfl
    · omega
  obtain ⟨count, count_eq⟩ := Nat.exists_eq_succ_of_ne_zero (Nat.ne_of_gt some_left)
  rw [count_eq, pbufTakeLoop, ← count_eq, copyLen, copy, Nat.add_sub_cancel_left]
  · change ((pbufTakeLoop dataptr next totalCopyLen (copied + p.len.toNat)).bind fun next =>
      some ({ p with payload } :: next)) = _
    rw [run]
    rfl
  · exact Nat.succ_ne_zero count

/-- Copying as many bytes as a well-formed chain holds fills it with them. -/
theorem PbufWellFormed.take {chain : List PbufNode} (wellFormed : PbufWellFormed chain)
    (dataptr : Bytes) (copied : Nat)
    (given : dataptr.length = copied + (chainTotLen chain).toNat) :
    ∃ filled, pbufTakeLoop dataptr chain (chainTotLen chain).toNat copied = some filled ∧
      filled.length = chain.length ∧ PbufWellFormed filled ∧
      chainTotLen filled = chainTotLen chain ∧ pbufToStr filled = dataptr.drop copied := by
  induction chain generalizing copied with
  | nil =>
    refine ⟨[], rfl, rfl, trivial, rfl, (List.drop_of_length_le ?_).symm⟩
    rw [given]
    exact Nat.le_refl copied
  | cons p next inductionHypothesis =>
    have length := wellFormed.length_pbufToStr
    obtain ⟨fits, total, nextWellFormed⟩ := wellFormed
    have totalEq : (chainTotLen (p :: next)).toNat = p.len.toNat + (chainTotLen next).toNat := total
    rcases Nat.eq_zero_or_pos (chainTotLen (p :: next)).toNat with zero | positive
    · refine ⟨p :: next, ?_, rfl, ⟨fits, total, nextWellFormed⟩, rfl, ?_⟩
      · rw [zero, pbufTakeLoop]
      · rw [List.eq_nil_of_length_eq_zero (length.trans zero), List.drop_of_length_le]
        omega
    · rw [totalEq] at given positive ⊢
      obtain ⟨filled, run, filledLength, filledWellFormed, filledTotal, filledStr⟩ :=
        inductionHypothesis nextWellFormed (copied + p.len.toNat) (by omega)
      have room : p.len.toNat ≤ (dataptr.drop copied).length := by
        rw [List.length_drop]
        omega
      have copy := memcpy_eq fits room
      have taken : ((dataptr.drop copied).take p.len.toNat).length = p.len.toNat := by
        rw [List.length_take, Nat.min_eq_left room]
      refine ⟨_ :: filled, pbufTakeLoop_cons positive copy run, ?_, ⟨?_, ?_, filledWellFormed⟩,
        rfl, ?_⟩
      · rw [List.length_cons, List.length_cons, filledLength]
      · change p.len.toNat ≤ (_ ++ _ : Bytes).length
        rw [List.length_append, taken]
        exact Nat.le_add_right _ _
      · rw [filledTotal]
        exact total
      · rw [pbufToStr_cons, filledStr]
        change (_ ++ _ : Bytes).take p.len.toNat ++ _ = _
        rw [List.take_left' taken, ← List.drop_drop, List.take_append_drop]

/-! ### The round trip -/

/-- A byte string of at most 65535 bytes becomes `NULL`, with every buffer of the exhausted pool
back in it, or a well-formed chain that reads back as the string. Any well-formed chain reads as
its payloads in order, `tot_len` bytes in all. -/
theorem strToPbuf_roundTrip (pool : PbufPool) (str : Bytes) (short : str.length ≤ 65535) :
    ((∃ released, strToPbuf pool str = some ([], released) ∧ released.Perm pool.buffers ∧
        (pool.buffers.length * (UInt16.ofNat pool.bufSize).toNat < str.length ∨
          pool.buffers = [])) ∨
      ∃ chain, chain ≠ [] ∧
        strToPbuf pool str = some (chain, pool.buffers.drop chain.length) ∧
        PbufWellFormed chain ∧ pbufToStr chain = str) ∧
    ∀ chain, PbufWellFormed chain →
      pbufToStr chain = chain.flatMap (fun p => p.payload.take p.len.toNat) ∧
        (pbufToStr chain).length = (chainTotLen chain).toNat := by
  refine ⟨?_, fun chain wellFormed =>
    ⟨pbufToStr_eq_flatMap chain, wellFormed.length_pbufToStr⟩⟩
  have size : (UInt16.ofNat str.length).toNat = str.length :=
    UInt16.toNat_ofNat_of_lt' (Nat.lt_succ_of_le short)
  rcases @pbufAllocLoop_cases _ _ [] pool.sized (fun p wrong => nomatch wrong)
    (UInt16.ofNat str.length) with failed | allocated
  · obtain ⟨released, run, perm, ranOut⟩ := failed
    rw [size] at ranOut
    refine Or.inl ⟨released, ?_, perm, ranOut⟩
    rw [strToPbuf, pbufAlloc, run]
  · obtain ⟨fresh, nonempty, run, wellFormed, total⟩ := allocated
    obtain ⟨chain, taken, length, chainWellFormed, _, chainStr⟩ :=
      wellFormed.take str 0 (by rw [total, size, Nat.zero_add])
    have filled : pbufTake fresh str (UInt16.ofNat str.length) = some chain := by
      rw [pbufTake, if_neg, ← total, taken]
      rw [total]
      exact not_or.mpr ⟨nonempty, UInt16.lt_irrefl _⟩
    have chain_ne : chain ≠ [] := by
      rw [← List.length_pos_iff, length]
      exact List.length_pos_iff.mpr nonempty
    refine Or.inr ⟨chain, chain_ne, ?_, chainWellFormed, chainStr⟩
    rw [List.nil_append] at run
    rw [strToPbuf, pbufAlloc, run, length]
    cases fresh with
    | nil => exact absurd rfl nonempty
    | cons p next =>
      change (pbufTake (p :: next) str _).map _ = _
      rw [filled]
      rfl

/-- Four buffers of two bytes, with what they held before. -/
def samplePool : PbufPool := ⟨2, by decide, [[9, 9], [8, 8], [7, 7], [6, 6]], by decide⟩

/-- Five bytes take three buffers, and the last one is partly filled. -/
theorem strToPbuf_roundTrip_three :
    ∃ chain, chain ≠ [] ∧
      strToPbuf samplePool [1, 2, 3, 4, 5] = some (chain, samplePool.buffers.drop chain.length) ∧
      PbufWellFormed chain ∧ pbufToStr chain = [1, 2, 3, 4, 5] := by
  refine (strToPbuf_roundTrip samplePool [1, 2, 3, 4, 5] (by decide)).1.resolve_left ?_
  rintro ⟨_, _, _, short | empty⟩
  · exact absurd short (by decide)
  · exact List.cons_ne_nil _ _ empty

end Net2Tr
