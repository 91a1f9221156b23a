/-
This file models lwIP's address types and their text conversions:
`ip4addr_ntoa_r`, `ip4addr_aton`, `ip6addr_ntoa_r`, `ip6addr_aton` and the two
dispatchers `ipaddr_ntoa` and `ipaddr_aton`.

A 32-bit word of an address is kept as the number `lwip_htonl` gives for it,
which is the only way the code reads or writes one: the bytes in memory are the
big-endian bytes of that number. Text is a list of characters without the
terminating zero; a `NULL` or zero result is `none`.
-/

import Mathlib.Algebra.Order.Ring.Nat
import Mathlib.Data.List.Basic

namespace Net2Tr

abbrev Bytes := List UInt8

abbrev Text := List Char

abbrev Port := UInt16

/-- The two big-endian bytes of a 16-bit number. -/
def beBytes2 (value : Nat) : Bytes := [UInt8.ofNat (value / 2 ^ 8), UInt8.ofNat value]

/-- The four big-endian bytes of a 32-bit number. -/
def beBytes4 (value : Nat) : Bytes :=
  [UInt8.ofNat (value / 2 ^ 24), UInt8.ofNat (value / 2 ^ 16), UInt8.ofNat (value / 2 ^ 8),
    UInt8.ofNat value]

/-! ### Addresses -/

/-- `ip4_addr_t`. -/
structure Ip4Addr where
  addr : UInt32
deriving DecidableEq, Repr

/-- `ip6_addr_t` of a build without scopes: four words and no zone. -/
structure Ip6Addr where
  addr0 : UInt32
  addr1 : UInt32
  addr2 : UInt32
  addr3 : UInt32
deriving DecidableEq, Repr

/-- `ip_addr_t` with the type tag `IPADDR_TYPE_V4` or `IPADDR_TYPE_V6`. -/
inductive IpAddr where
  | v4 (ip : Ip4Addr)
  | v6 (ip : Ip6Addr)
deriving DecidableEq, Repr

/-- The raw bytes of an IPv4 address, in network order. -/
def Ip4Addr.bytes (ip : Ip4Addr) : Bytes := beBytes4 ip.addr.toNat

/-- The raw bytes of an IPv6 address, in network order. -/
def Ip6Addr.bytes (ip : Ip6Addr) : Bytes :=
  beBytes4 ip.addr0.toNat ++ beBytes4 ip.addr1.toNat ++ beBytes4 ip.addr2.toNat ++
    beBytes4 ip.addr3.toNat

def IpAddr.bytes : IpAddr → Bytes
  | .v4 ip => ip.bytes
  | .v6 ip => ip.bytes

/-- `IP_IS_V6`. -/
def IpAddr.isV6 : IpAddr → Bool
  | .v4 _ => false
  | .v6 _ => true

/-- `ip6_addr_isipv4mappedipv6`. -/
def Ip6Addr.isIpv4Mapped (ip : Ip6Addr) : Bool :=
  ip.addr0 = 0 ∧ ip.addr1 = 0 ∧ ip.addr2 = 0x0000FFFF

def IpAddr.isIpv4Mapped : IpAddr → Bool
  | .v4 _ => false
  | .v6 ip => ip.isIpv4Mapped

/-- `ip_addr_isany`. -/
def IpAddr.isAny : IpAddr → Bool
  | .v4 ip => ip.addr = 0
  | .v6 ip => ip.addr0 = 0 ∧ ip.addr1 = 0 ∧ ip.addr2 = 0 ∧ ip.addr3 = 0

/-- `ip_addr_ismulticast`. -/
def IpAddr.isMulticast : IpAddr → Bool
  | .v4 ip => ip.addr &&& 0xf0000000 = 0xe0000000
  | .v6 ip => ip.addr0 &&& 0xff000000 = 0xff000000

/-- `ip_addr_isbroadcast` on the netif of N2T, which does not set `NETIF_FLAG_BROADCAST`: only
the two addresses that are broadcast on every netif. -/
def IpAddr.isBroadcast : IpAddr → Bool
  | .v4 ip => ip.addr = 0xffffffff ∨ ip.addr = 0
  | .v6 _ => false

/-! ### Character classes -/

/-- `lwip_in_range`. -/
def lwipInRange (c lo up : Char) : Bool := lo.toNat ≤ c.toNat ∧ c.toNat ≤ up.toNat

/-- `lwip_isdigit`. -/
def lwipIsdigit (c : Char) : Bool := lwipInRange c '0' '9'

/-- `lwip_islower`. -/
def lwipIslower (c : Char) : Bool := lwipInRange c 'a' 'z'

/-- `lwip_isxdigit`. -/
def lwipIsxdigit (c : Char) : Bool :=
  lwipIsdigit c || lwipInRange c 'a' 'f' || lwipInRange c 'A' 'F'

/-- `lwip_isspace`. -/
def lwipIsspace (c : Char) : Bool :=
  c = ' ' ∨ c = Char.ofNat 12 ∨ c = '\n' ∨ c = '\r' ∨ c = '\t' ∨ c = Char.ofNat 11

/-- The value lwIP's parsers compute for a hexadecimal digit. -/
def lwipXvalue (c : Char) : Nat :=
  if lwipIsdigit c then c.toNat - '0'.toNat
  else 10 + (if lwipIslower c then c.toNat - 'a'.toNat else c.toNat - 'A'.toNat)

/-- `lwip_xchar`. -/
def lwipXchar (i : Nat) : Char :=
  if i < 10 then Char.ofNat ('0'.toNat + i) else Char.ofNat ('A'.toNat + i - 10)

/-! ### `ip4addr_ntoa_r` -/

/-- The digits of one octet: the loop fills `inv` from the last digit, so pushing on the front
leaves the digits in the order they are written out. Three rounds suffice for a `u8_t`. -/
def octetLoop : Nat → Nat → Text → Text
  | 0, _, inv => inv
  | rounds + 1, octet, inv =>
    let inv := Char.ofNat ('0'.toNat + octet % 10) :: inv
    if octet / 10 = 0 then inv else octetLoop rounds (octet / 10) inv

def octetText (octet : Nat) : Text := octetLoop 3 octet []

/-- Writing characters with the check `if (len++ >= buflen) return NULL`. -/
def ip4Push (buflen : Nat) : Text → Text → Option Text
  | [], buf => some buf
  | c :: rest, buf => if buf.length ≥ buflen then none else ip4Push buflen rest (buf ++ [c])

/-- The four octets, each followed by a dot. -/
def ip4Octets (buflen : Nat) : List Nat → Text → Option Text
  | [], buf => some buf
  | octet :: rest, buf => do
    let buf ← ip4Push buflen (octetText octet) buf
    let buf ← ip4Push buflen ['.'] buf
    ip4Octets buflen rest buf

/-- `ip4addr_ntoa_r`: the last dot is overwritten by the terminating zero. -/
def ip4addrNtoaR (ip : Ip4Addr) (buflen : Nat) : Option Text := do
  let buf ← ip4Octets buflen (ip.bytes.map UInt8.toNat) []
  some buf.dropLast

/-- `IP4ADDR_STRLEN_MAX`. -/
def ip4addrStrlenMax : Nat := 16

/-! ### `ip4addr_aton` -/

/-- The inner loop of `ip4addr_aton`: collect digits up to the first other character. -/
def aton4Collect (base : Nat) : Nat → Text → Nat × Text
  | val, [] => (val, [])
  | val, c :: cp =>
    if lwipIsdigit c then aton4Collect base ((val * base + (c.toNat - '0'.toNat)) % 2 ^ 32) cp
    else if base = 16 ∧ lwipIsxdigit c then
      aton4Collect base ((val * 16 + lwipXvalue c) % 2 ^ 32) cp
    else (val, c :: cp)

/-- One number, as for C: `0x` is hexadecimal, a leading `0` octal, anything else decimal. -/
def aton4Number : Text → Option (Nat × Text)
  | [] => none
  | c :: cp =>
    if lwipIsdigit c = false then none
    else if c = '0' then
      match cp with
      | 'x' :: cp => some (aton4Collect 16 0 cp)
      | 'X' :: cp => some (aton4Collect 16 0 cp)
      | cp => some (aton4Collect 8 0 cp)
    else some (aton4Collect 10 0 (c :: cp))

/-- The outer loop: the parts before the last number, the last number and the rest of the text.
`room` is the number of parts that may still be stored. -/
def aton4Parts : Nat → List Nat → Text → Option (List Nat × Nat × Text)
  | room, parts, cp =>
    match aton4Number cp with
    | none => none
    | some (val, '.' :: rest) =>
      match room with
      | 0 => none
      | room + 1 => aton4Parts room (parts ++ [val]) rest
    | some (val, rest) => some (parts, val, rest)

/-- `ip4addr_aton`. -/
def ip4addrAton (cp : Text) : Option Ip4Addr := do
  let (parts, val, rest) ← aton4Parts 3 [] cp
  match rest with
  | [] => pure ()
  | c :: _ => if lwipIsspace c then pure () else none
  match parts with
  | [] => some ⟨UInt32.ofNat val⟩
  | [a] =>
    if val > 0xffffff ∨ a > 0xff then none else some ⟨UInt32.ofNat (a * 2 ^ 24 ||| val)⟩
  | [a, b] =>
    if val > 0xffff ∨ a > 0xff ∨ b > 0xff then none
    else some ⟨UInt32.ofNat (a * 2 ^ 24 ||| b * 2 ^ 16 ||| val)⟩
  | [a, b, c] =>
    if val > 0xff ∨ a > 0xff ∨ b > 0xff ∨ c > 0xff then none
    else some ⟨UInt32.ofNat (a * 2 ^ 24 ||| b * 2 ^ 16 ||| c * 2 ^ 8 ||| val)⟩
  | _ => none

/-! ### `ip6addr_ntoa_r` -/

/-- The word with the given index. `past` is what follows the four words in memory: the code
looks one block beyond the last one. -/
def Ip6Addr.word (ip : Ip6Addr) (past : UInt32) : Nat → UInt32
  | 0 => ip.addr0
  | 1 => ip.addr1
  | 2 => ip.addr2
  | 3 => ip.addr3
  | _ => past

/-- The 16-bit block with the given index. -/
def Ip6Addr.block (ip : Ip6Addr) (past : UInt32) (index : Nat) : Nat :=
  let value := (ip.word past (index >>> 1)).toNat
  (if index &&& 0x1 = 0 then value >>> 16 else value) &&& 0xffff

/-- `buf[i++] = c; if (i >= buflen) return NULL;`. -/
def ntoa6Push (buflen : Nat) (c : Char) (buf : Text) : Option Text :=
  if buf.length + 1 ≥ buflen then none else some (buf ++ [c])

/-- One hexadecimal digit of a block, left out while it is a leading zero. The flag tells
whether all digits so far were left out. -/
def ntoa6Digit (buflen digit : Nat) : Bool × Text → Option (Bool × Text)
  | (zeroFlag, buf) =>
    if digit = 0 ∧ zeroFlag = true then some (true, buf)
    else (ntoa6Push buflen (lwipXchar digit) buf).map fun buf => (false, buf)

/-- The digits of one block: the last one is always written. -/
def ntoa6Block (buflen value : Nat) (buf : Text) : Option Text := do
  let state ← ntoa6Digit buflen ((value &&& 0xf000) >>> 12) (true, buf)
  let state ← ntoa6Digit buflen ((value &&& 0xf00) >>> 8) state
  let state ← ntoa6Digit buflen ((value &&& 0xf0) >>> 4) state
  ntoa6Push buflen (lwipXchar (value &&& 0xf)) state.2

/-- The separator before every block but the first, then the block. -/
def ntoa6Group (buflen index value : Nat) (buf : Text) : Option Text := do
  let buf ← if index > 0 then ntoa6Push buflen ':' buf else some buf
  ntoa6Block buflen value buf

/-- The loop over the blocks. `emptyBlockFlag` is 0 before the zero chain, 1 in it and 2 after
it; `remaining` counts the blocks still to come. -/
def ntoa6Loop (buflen : Nat) (block : Nat → Nat) : Nat → Nat → Text → Option Text
  | 0, _, buf => some buf
  | remaining + 1, emptyBlockFlag, buf =>
    let index := 7 - remaining
    let value := block index
    if value = 0 then
      if index = 7 ∧ emptyBlockFlag = 1 then ntoa6Push buflen ':' buf
      else if emptyBlockFlag = 0 ∧ block (index + 1) = 0 then do
        let buf ← ntoa6Push buflen ':' buf
        ntoa6Loop buflen block remaining 1 buf
      else if emptyBlockFlag = 1 then ntoa6Loop buflen block remaining 1 buf
      else do
        let buf ← ntoa6Group buflen index value buf
        ntoa6Loop buflen block remaining emptyBlockFlag buf
    else do
      let buf ← ntoa6Group buflen index value buf
      ntoa6Loop buflen block remaining (if emptyBlockFlag = 1 then 2 else emptyBlockFlag) buf

/-- `IP4MAPPED_HEADER`. -/
def ip4MappedHeader : Text := "::FFFF:".toList

/-- `ip6addr_ntoa_r`. -/
def ip6addrNtoaR (ip : Ip6Addr) (past : UInt32) (buflen : Nat) : Option Text :=
  if ip.isIpv4Mapped then
    if buflen < ip4MappedHeader.length + 1 then none
    else
      (ip4addrNtoaR ⟨ip.addr3⟩ (buflen - ip4MappedHeader.length)).map (ip4MappedHeader ++ ·)
  else ntoa6Loop buflen (ip.block past) 8 0 []

/-- `ipaddr_ntoa`, with the static buffers of its two callees. -/
def ipaddrNtoa (ip : IpAddr) (past : UInt32) : Option Text :=
  match ip with
  | .v4 ip => ip4addrNtoaR ip ip4addrStrlenMax
  | .v6 ip => ip6addrNtoaR ip past 40

/-! ### `ip6addr_aton` -/

/-- The local variables of `ip6addr_aton` and the memory behind `addr`. -/
structure Aton6 where
  addr : List Nat
  addrIndex : Nat
  zeroBlocks : Nat
  currentBlockIndex : Nat
  currentBlockValue : Nat
deriving DecidableEq, Repr

/-- The first loop: `zero_blocks` and `check_ipv4_mapped`. -/
def aton6Count : Nat → Text → Option (Nat × Bool)
  | zeroBlocks, [] => some (zeroBlocks, false)
  | zeroBlocks, c :: s =>
    if c = ':' then aton6Count ((zeroBlocks + (2 ^ 32 - 1)) % 2 ^ 32) s
    else if c = '.' then
      if zeroBlocks = 5 ∨ zeroBlocks = 2 then some (zeroBlocks - 1, true) else none
    else if lwipIsxdigit c = false then some (zeroBlocks, false)
    else aton6Count zeroBlocks s

/-- Storing the finished block in its half of a word. -/
def Aton6.store (state : Aton6) : Aton6 :=
  if state.currentBlockIndex &&& 0x1 = 1 then
    { state with
      addr := state.addr.set state.addrIndex
        (state.addr.getD state.addrIndex 0 ||| state.currentBlockValue)
      addrIndex := state.addrIndex + 1 }
  else
    { state with
      addr := state.addr.set state.addrIndex ((state.currentBlockValue <<< 16) % 2 ^ 32) }

/-- The loop `while (zero_blocks > 0)` at a `::`. -/
def aton6Zeros : Nat → Aton6 → Option Aton6
  | 0, state => some { state with zeroBlocks := 0 }
  | zeroBlocks + 1, state =>
    let state :=
      if state.currentBlockIndex &&& 0x1 = 1 then { state with addrIndex := state.addrIndex + 1 }
      else { state with addr := state.addr.set state.addrIndex 0 }
    let state := { state with currentBlockIndex := state.currentBlockIndex + 1 }
    if state.currentBlockIndex > 7 then none else aton6Zeros zeroBlocks state

/-- The second loop, with the store after it. Leaving it through the IPv4 part of a mapped
address skips that store. -/
def aton6Loop (checkIpv4Mapped : Bool) : Aton6 → Text → Option Aton6
  | state, [] => some state.store
  | state, c :: s =>
    if c = ':' then
      let state := state.store
      let state := { state with currentBlockIndex := state.currentBlockIndex + 1 }
      match (if checkIpv4Mapped = true ∧ state.currentBlockIndex = 6 then ip4addrAton s
        else none) with
      | some ip4 =>
        some { state with
          addr := state.addr.set 3 ip4.addr.toNat
          currentBlockIndex := state.currentBlockIndex + 1 }
      | none =>
        let state := { state with currentBlockValue := 0 }
        if state.currentBlockIndex > 7 then none
        else
          match s with
          | ':' :: ':' :: _ => none
          | ':' :: s =>
            match aton6Zeros state.zeroBlocks state with
            | none => none
            | some state => aton6Loop checkIpv4Mapped state s
          | s => aton6Loop checkIpv4Mapped state s
    else if lwipIsxdigit c then
      aton6Loop checkIpv4Mapped
        { state with
          currentBlockValue := ((state.currentBlockValue <<< 4) + lwipXvalue c) % 2 ^ 32 } s
    else some state.store

/-- `ip6addr_aton`. `addr` is what the result variable holds before the call. -/
def ip6addrAton (cp : Text) (addr : Ip6Addr) : Option Ip6Addr := do
  let (zeroBlocks, checkIpv4Mapped) ← aton6Count 8 cp
  let start : Aton6 :=
    { addr := [addr.addr0.toNat, addr.addr1.toNat, addr.addr2.toNat, addr.addr3.toNat]
      addrIndex := 0
      zeroBlocks := zeroBlocks
      currentBlockIndex := 0
      currentBlockValue := 0 }
  let state ← aton6Loop checkIpv4Mapped start cp
  if state.currentBlockIndex ≠ 7 then none
  else
    some
      { addr0 := UInt32.ofNat (state.addr.getD 0 0)
        addr1 := UInt32.ofNat (state.addr.getD 1 0)
        addr2 := UInt32.ofNat (state.addr.getD 2 0)
        addr3 := UInt32.ofNat (state.addr.getD 3 0) }

/-- The loop of `ipaddr_aton` that looks for the first colon or dot. -/
def ipaddrAtonIsV6 : Text → Bool
  | [] => false
  | c :: cp => if c = ':' then true else if c = '.' then false else ipaddrAtonIsV6 cp

/-- `ipaddr_aton`. `addr` is what the result variable holds before the call, seen as an IPv6
address. -/
def ipaddrAton (cp : Text) (addr : Ip6Addr) : Option IpAddr :=
  if ipaddrAtonIsV6 cp then (ip6addrAton cp addr).map .v6 else (ip4addrAton cp).map .v4

end Net2Tr
