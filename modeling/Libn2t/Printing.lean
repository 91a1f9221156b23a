/-
This file says what the two printers `ip4addr_ntoa_r` and `ip6addr_ntoa_r`
write: the four octets as usual decimal numerals, and the eight blocks as usual
hexadecimal numerals with the first run of at least two zero blocks replaced by
`::`. The buffers are never too small.
-/

import Libn2t.Socks5

namespace Net2Tr

open Numeral

/-! ### Blocks and bytes -/

/-- The eight 16-bit blocks of an IPv6 address. -/
def Ip6Addr.blocks (ip : Ip6Addr) : List Nat :=
  [ip.addr0.toNat / 2 ^ 16, ip.addr0.toNat % 2 ^ 16, ip.addr1.toNat / 2 ^ 16,
    ip.addr1.toNat % 2 ^ 16, ip.addr2.toNat / 2 ^ 16, ip.addr2.toNat % 2 ^ 16,
    ip.addr3.toNat / 2 ^ 16, ip.addr3.toNat % 2 ^ 16]

theorem uint8_ofNat_congr {first second : Nat} (same : first % 256 = second % 256) :
    UInt8.ofNat first = UInt8.ofNat second := by
  apply UInt8.toNat_inj.mp
  rw [UInt8.toNat_ofNat', UInt8.toNat_ofNat']
  exact same

theorem beBytes4_eq (value : Nat) :
    beBytes4 value = beBytes2 (value / 2 ^ 16) ++ beBytes2 (value % 2 ^ 16) := by
  have first : UInt8.ofNat (value / 2 ^ 24) = UInt8.ofNat (value / 2 ^ 16 / 2 ^ 8) :=
    uint8_ofNat_congr (by omega)
  have third : UInt8.ofNat (value / 2 ^ 8) = UInt8.ofNat (value % 2 ^ 16 / 2 ^ 8) :=
    uint8_ofNat_congr (by omega)
  have fourth : UInt8.ofNat value = UInt8.ofNat (value % 2 ^ 16) :=
    uint8_ofNat_congr (by omega)
  simp only [beBytes4, beBytes2, first, third, fourth, List.cons_append, List.nil_append]

/-- The bytes of an address are the bytes of its blocks. -/
theorem Ip6Addr.bytes_eq_blocks (ip : Ip6Addr) : ip.bytes = ip.blocks.flatMap beBytes2 := by
  simp only [Ip6Addr.bytes, Ip6Addr.blocks, beBytes4_eq, List.flatMap_cons, List.flatMap_nil,
    List.append_assoc, List.append_nil]

theorem Ip6Addr.blocks_lt (ip : Ip6Addr) : ∀ block ∈ ip.blocks, block < 2 ^ 16 := by
  have word (value : UInt32) : value.toNat / 2 ^ 16 < 2 ^ 16 := by
    have bound := value.toNat_lt
    omega
  have low (value : UInt32) : value.toNat % 2 ^ 16 < 2 ^ 16 := Nat.mod_lt _ (by decide)
  simp only [Ip6Addr.blocks, List.forall_mem_cons, word, low, List.not_mem_nil, false_implies,
    implies_true, and_self]

theorem and_ffff (value : Nat) : value &&& 0xffff = value % 2 ^ 16 :=
  Nat.and_two_pow_sub_one_eq_mod value 16

theorem shift_mod (value : UInt32) :
    value.toNat >>> 16 % 65536 = value.toNat / 65536 := by
  have bound := value.toNat_lt
  rw [Nat.shiftRight_eq_div_pow]
  omega

/-- The blocks the code reads are the blocks of the address. -/
theorem Ip6Addr.map_block (ip : Ip6Addr) (past : UInt32) :
    (List.range' 0 8).map (ip.block past) = ip.blocks := by
  simp only [List.range', List.map_cons, List.map_nil, Ip6Addr.block, Ip6Addr.word,
    Ip6Addr.blocks, and_ffff]
  simp [shift_mod]

/-- The block looked at beyond the last one is the upper half of the word behind the
address. -/
theorem Ip6Addr.block_past (ip : Ip6Addr) (past : UInt32) :
    ip.block past 8 = past.toNat / 2 ^ 16 :=
  (and_ffff _).trans (shift_mod past)

/-! ### The blocks of an IPv6 address as text -/

/-- A block as a hexadecimal numeral. -/
def hexText (value : Nat) : Text := (plain 16 4 value).map lwipXchar

/-- A block with the colon before it, which the first block does not have. -/
def groupText (first : Bool) (value : Nat) : Text :=
  (if first then [] else [':']) ++ hexText value

/-- What `ip6addr_ntoa_r` writes for the remaining blocks: `first` before any block, and the
flag is 0 before the zero run, 1 in it and 2 after it. -/
def blocksText : Bool → Nat → List Nat → Text
  | _, _, [] => []
  | first, flag, block :: rest =>
    if block = 0 then
      if rest = [] ∧ flag = 1 then [':']
      else if flag = 0 ∧ rest.head? = some 0 then ':' :: blocksText false 1 rest
      else if flag = 1 then blocksText false 1 rest
      else groupText first block ++ blocksText false flag rest
    else groupText first block ++ blocksText false (if flag = 1 then 2 else flag) rest

theorem hexText_length_le (value : Nat) : (hexText value).length ≤ 4 := by
  rw [hexText, List.length_map]
  exact plain_length_le 16 4 value

theorem groupText_length_le (first : Bool) (value : Nat) :
    (groupText first value).length ≤ if first then 4 else 5 := by
  have bound := hexText_length_le value
  cases first
  · simp only [groupText, Bool.false_eq_true, if_false, List.length_append, List.length_cons,
      List.length_nil]
    omega
  · simpa only [groupText, if_true, List.nil_append] using bound

/-- Five characters for each block, and one fewer for the first one. -/
theorem blocksText_length_le (first : Bool) (flag : Nat) (blocks : List Nat) :
    (blocksText first flag blocks).length ≤
      5 * blocks.length - (if first then 1 else 0) := by
  induction blocks generalizing first flag with
  | nil => simp [blocksText]
  | cons block rest inductionHypothesis =>
    have group := groupText_length_le first block
    have later (flag : Nat) : (blocksText false flag rest).length ≤ 5 * rest.length := by
      simpa using inductionHypothesis false flag
    have zeroRun := later 1
    have same := later flag
    have after := later (if flag = 1 then 2 else flag)
    rw [blocksText]
    generalize blocksText false (if flag = 1 then 2 else flag) rest = tail at after ⊢
    cases first <;> simp only [Bool.false_eq_true, if_true, if_false] at group ⊢ <;>
      split_ifs <;> simp only [List.length_append, List.length_cons, List.length_nil] <;> omega

/-! ### `ip6addr_ntoa_r` writes the blocks -/

theorem ntoa6Push_eq {buflen : Nat} {c : Char} {buf : Text} (room : buf.length + 1 < buflen) :
    ntoa6Push buflen c buf = some (buf ++ [c]) := by
  rw [ntoa6Push, if_neg (by omega)]

/-- The masked and shifted digits of a block are its digits in base 16. -/
theorem nibble_eq (value : Nat) :
    (value &&& 0xf000) >>> 12 = value / 16 ^ 3 % 16 ∧
      (value &&& 0xf00) >>> 8 = value / 16 ^ 2 % 16 ∧
      (value &&& 0xf0) >>> 4 = value / 16 ^ 1 % 16 ∧ value &&& 0xf = value / 16 ^ 0 % 16 := by
  have digit (mask shift : Nat) (low : mask >>> shift = 15) :
      (value &&& mask) >>> shift = value / 2 ^ shift % 16 := by
    rw [Nat.shiftRight_and_distrib, low, Nat.shiftRight_eq_div_pow]
    exact Nat.and_two_pow_sub_one_eq_mod _ 4
  exact ⟨digit 0xf000 12 rfl, digit 0xf00 8 rfl, digit 0xf0 4 rfl, digit 0xf 0 rfl⟩

theorem ntoa6Block_eq {buflen value : Nat} {buf : Text}
    (room : (buf ++ hexText value).length < buflen) :
    ntoa6Block buflen value buf = some (buf ++ hexText value) := by
  obtain ⟨third, second, first, last⟩ := nibble_eq value
  rw [hexText, List.length_append, List.length_map, plain] at room
  rw [ntoa6Block, third, second, first, last, hexText, plain]
  simp only [fixed] at room ⊢
  generalize value / 16 ^ 3 % 16 = digit3 at room ⊢
  generalize value / 16 ^ 2 % 16 = digit2 at room ⊢
  generalize value / 16 ^ 1 % 16 = digit1 at room ⊢
  generalize value / 16 ^ 0 % 16 = digit0 at room ⊢
  by_cases zero3 : digit3 = 0
  · subst zero3
    by_cases zero2 : digit2 = 0
    · subst zero2
      by_cases zero1 : digit1 = 0
      · subst zero1
        simp only [trim, List.length_cons, List.length_nil] at room
        simp [ntoa6Digit, trim, ntoa6Push_eq room]
      · have shape : trim [0, 0, digit1, digit0] = [digit1, digit0] := by
          simp [trim]
        rw [shape] at room ⊢
        simp only [List.length_cons, List.length_nil] at room
        simp [ntoa6Digit, zero1, ntoa6Push, show ¬ buflen ≤ buf.length + 1 by omega,
          show ¬ buflen ≤ buf.length + 2 by omega]
    · have shape : trim [0, digit2, digit1, digit0] = [digit2, digit1, digit0] := by
        simp [trim]
      rw [shape] at room ⊢
      simp only [List.length_cons, List.length_nil] at room
      simp [ntoa6Digit, zero2, ntoa6Push, show ¬ buflen ≤ buf.length + 1 by omega,
        show ¬ buflen ≤ buf.length + 2 by omega, show ¬ buflen ≤ buf.length + 3 by omega]
  · have shape : trim [digit3, digit2, digit1, digit0] = [digit3, digit2, digit1, digit0] := by
      simp [trim]
    rw [shape] at room ⊢
    simp only [List.length_cons, List.length_nil] at room
    simp [ntoa6Digit, zero3, ntoa6Push, show ¬ buflen ≤ buf.length + 1 by omega,
      show ¬ buflen ≤ buf.length + 2 by omega, show ¬ buflen ≤ buf.length + 3 by omega,
      show ¬ buflen ≤ buf.length + 4 by omega]

theorem ntoa6Group_eq {buflen index value : Nat} {buf : Text}
    (room : (buf ++ groupText (index = 0) value).length < buflen) :
    ntoa6Group buflen index value buf = some (buf ++ groupText (index = 0) value) := by
  by_cases start : index = 0
  · subst start
    simp only [groupText, decide_true, if_true, List.nil_append] at room ⊢
    exact ntoa6Block_eq room
  · have nonempty : 0 < (hexText value).length := by
      rw [hexText, List.length_map]
      exact List.length_pos_iff.mpr (plain_ne_nil 16 3 value)
    simp only [groupText, decide_eq_true_eq, start, if_false, List.cons_append, List.nil_append,
      List.length_append, List.length_cons] at room ⊢
    rw [ntoa6Group, if_pos (show index > 0 by omega), ntoa6Push_eq (by omega), Option.bind_eq_bind,
      Option.bind_some]
    show ntoa6Block buflen value (buf ++ [':']) = _
    rw [ntoa6Block_eq]
    · rw [List.append_assoc]
      rfl
    · simp only [List.length_append, List.length_cons, List.length_nil]
      omega

/-- The loop writes what `blocksText` says, as long as the buffer has room for it and the block
behind the last one is not zero. -/
theorem ntoa6Loop_eq {buflen : Nat} {block : Nat → Nat} (beyond : block 8 ≠ 0)
    (remaining flag : Nat) (buf : Text) (few : remaining ≤ 8) (known : flag ≤ 2)
    (room : (buf ++ blocksText (remaining = 8) flag
      ((List.range' (8 - remaining) remaining).map block)).length < buflen) :
    ntoa6Loop buflen block remaining flag buf =
      some (buf ++ blocksText (remaining = 8) flag
        ((List.range' (8 - remaining) remaining).map block)) := by
  induction remaining generalizing flag buf with
  | zero => simp [ntoa6Loop, blocksText]
  | succ remaining inductionHypothesis =>
    have next : 8 - (remaining + 1) = 7 - remaining := by omega
    have successor : 7 - remaining + 1 = 8 - remaining := by omega
    have later : (remaining = 8) = False := by
      rw [eq_iff_iff, iff_false]
      omega
    have start : (remaining + 1 = 8) = (7 - remaining = 0) := by
      rw [eq_iff_iff]
      omega
    have lookahead : ((List.range' (8 - remaining) remaining).map block).head? = some 0 ↔
        block (8 - remaining) = 0 := by
      cases remaining with
      | zero => simpa using beyond
      | succ remaining => simp [List.range'_succ]
    have last : (List.range' (8 - remaining) remaining).map block = [] ↔ 7 - remaining = 7 := by
      rw [List.map_eq_nil_iff, List.range'_eq_nil_iff]
      omega
    simp only [next, List.range'_succ, successor, List.map_cons, start] at room ⊢
    simp only [later, decide_false] at inductionHypothesis
    rw [ntoa6Loop, successor]
    rw [blocksText] at room ⊢
    generalize (List.range' (8 - remaining) remaining).map block = rest at *
    by_cases zero : block (7 - remaining) = 0
    · simp only [zero, if_true, last, lookahead] at room ⊢
      by_cases ending : 7 - remaining = 7 ∧ flag = 1
      · rw [if_pos ending] at room ⊢
        rw [if_pos ending, ntoa6Push_eq (by simpa using room)]
      · rw [if_neg ending] at room ⊢
        rw [if_neg ending]
        by_cases opening : flag = 0 ∧ block (8 - remaining) = 0
        · rw [if_pos opening] at room ⊢
          rw [if_pos opening, ntoa6Push_eq (by
            simp only [List.length_append, List.length_cons] at room
            omega)]
          show ntoa6Loop buflen block remaining 1 (buf ++ [':']) = _
          rw [List.append_cons buf ':' (blocksText false 1 rest)] at room ⊢
          exact inductionHypothesis 1 _ (by omega) (by omega) room
        · rw [if_neg opening] at room ⊢
          rw [if_neg opening]
          by_cases inside : flag = 1
          · rw [if_pos inside] at room ⊢
            rw [if_pos inside]
            exact inductionHypothesis 1 buf (by omega) (by omega) room
          · rw [if_neg inside] at room ⊢
            rw [if_neg inside, ← List.append_assoc] at *
            rw [ntoa6Group_eq (by
              rw [List.length_append] at room
              omega)]
            exact inductionHypothesis flag _ (by omega) known room
    · simp only [zero, if_false] at room ⊢
      rw [← List.append_assoc] at room ⊢
      rw [ntoa6Group_eq (by
        rw [List.length_append] at room
        omega)]
      refine inductionHypothesis _ _ (by omega) ?_ room
      split <;> omega

/-- `ip6addr_ntoa_r` writes the blocks of every address that is not IPv4-mapped. -/
theorem ip6addrNtoaR_eq (ip : Ip6Addr) (past : UInt32) (unmapped : ip.isIpv4Mapped = false)
    (tag : past >>> 24 ≠ 0) : ip6addrNtoaR ip past 40 = some (blocksText true 0 ip.blocks) := by
  have beyond : ip.block past 8 ≠ 0 := by
    rw [ip.block_past]
    intro zero
    apply tag
    apply UInt32.toNat_inj.mp
    rw [UInt32.toNat_shiftRight, Nat.shiftRight_eq_div_pow]
    show past.toNat / 2 ^ 24 = 0
    omega
  have bound := blocksText_length_le true 0 ip.blocks
  have written := @ntoa6Loop_eq 40 _ beyond 8 0 [] le_rfl (by omega)
  simp only [Nat.sub_self, ip.map_block past, decide_true, List.nil_append] at written
  rw [ip6addrNtoaR, unmapped, if_neg Bool.false_ne_true]
  refine written (lt_of_le_of_lt bound ?_)
  simp [Ip6Addr.blocks]

/-! ### `ip4addr_ntoa_r` -/

/-- An octet as a decimal numeral. -/
def decimalText (value : Nat) : Text := (plain 10 3 value).map decimalDigit

/-- Octets with dots between them. -/
def dottedText : List Nat → Text
  | [] => []
  | [octet] => decimalText octet
  | octet :: rest => decimalText octet ++ '.' :: dottedText rest

theorem octetText_eq : ∀ octet < 256, octetText octet = decimalText octet := by
  decide +kernel

theorem decimalText_length_le (value : Nat) : (decimalText value).length ≤ 3 := by
  rw [decimalText, List.length_map]
  exact plain_length_le 10 3 value

theorem ip4Push_eq {buflen : Nat} (text buf : Text) (room : (buf ++ text).length ≤ buflen) :
    ip4Push buflen text buf = some (buf ++ text) := by
  induction text generalizing buf with
  | nil => rw [ip4Push, List.append_nil]
  | cons c rest inductionHypothesis =>
    have bound := room
    rw [List.length_append, List.length_cons] at bound
    rw [ip4Push, if_neg (by omega), List.append_cons buf c rest]
    rw [List.append_cons buf c rest] at room
    exact inductionHypothesis _ room

theorem ip4Octets_eq {buflen : Nat} (octets : List Nat) (buf : Text)
    (small : ∀ octet ∈ octets, octet < 256) (room : buf.length + 4 * octets.length ≤ buflen) :
    ip4Octets buflen octets buf =
      some (buf ++ octets.flatMap fun octet => decimalText octet ++ ['.']) := by
  induction octets generalizing buf with
  | nil => rw [ip4Octets, List.flatMap_nil, List.append_nil]
  | cons octet rest inductionHypothesis =>
    have digits := decimalText_length_le octet
    rw [List.length_cons] at room
    rw [ip4Octets, octetText_eq octet (small octet List.mem_cons_self),
      ip4Push_eq _ _ (by rw [List.length_append]; omega), Option.bind_eq_bind,
      Option.bind_some, ip4Push_eq _ _ (by
        simp only [List.length_append, List.length_cons, List.length_nil]
        omega), Option.bind_some,
      inductionHypothesis _ (fun other member => small other (List.mem_cons_of_mem _ member)) (by
        simp only [List.length_append, List.length_cons, List.length_nil]
        omega)]
    simp only [List.flatMap_cons, List.append_assoc]

/-- `ip4addr_ntoa_r` writes the four octets with dots between them. -/
theorem ip4addrNtoaR_eq (ip : Ip4Addr) {buflen : Nat} (room : 16 ≤ buflen) :
    ip4addrNtoaR ip buflen = some (dottedText (ip.bytes.map UInt8.toNat)) := by
  have small : ∀ octet ∈ ip.bytes.map UInt8.toNat, octet < 256 := by
    intro octet member
    obtain ⟨byte, _, rfl⟩ := List.mem_map.mp member
    exact byte.toNat_lt
  have four : (ip.bytes.map UInt8.toNat).length = 4 := rfl
  rw [ip4addrNtoaR, ip4Octets_eq _ _ small (by
    rw [four, List.length_nil]
    omega), Option.bind_eq_bind, Option.bind_some]
  simp only [Ip4Addr.bytes, beBytes4, List.map_cons, List.map_nil, List.flatMap_cons,
    List.flatMap_nil, dottedText, List.append_nil, List.nil_append]
  rw [← List.append_assoc, ← List.append_assoc, ← List.append_assoc, List.dropLast_concat]
  simp only [List.append_assoc, List.cons_append, List.nil_append]

/-- `ip6addr_ntoa_r` writes an IPv4-mapped address with its last part in dotted form. -/
theorem ip6addrNtoaR_mapped (ip : Ip6Addr) (past : UInt32) (mapped : ip.isIpv4Mapped = true) :
    ip6addrNtoaR ip past 40 =
      some (ip4MappedHeader ++ dottedText ((beBytes4 ip.addr3.toNat).map UInt8.toNat)) := by
  have header : ip4MappedHeader.length = 7 := by decide
  rw [ip6addrNtoaR, if_pos mapped, header, if_neg (by omega),
    ip4addrNtoaR_eq ⟨ip.addr3⟩ (by omega)]
  rfl

end Net2Tr
