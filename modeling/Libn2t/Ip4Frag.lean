/-
This file models how lwIP cuts an IPv4 packet into fragments and puts fragments
together again: `ip4_frag`, `ip4_reass` and the functions around its list
`reassdatagrams` of the packets of which not every fragment has come.

A packet is its header and the bytes behind it. A fragment in the list keeps
what `struct ip_reass_helper` holds, with its bytes and the number of its pbufs.
An assertion of the source that fails ends the process; the functions that
contain one return `none` then, as they do where the source would follow a
`NULL` pointer or not terminate.
-/

import Libn2t.InetChksum
import Libn2t.Transition

namespace Net2Tr

/-! ### Headers -/

/-- `struct ip_hdr`, with the numbers that its fields stand for. The checksum is the one in memory
of a little-endian machine. -/
structure IpHdr where
  vHl : UInt8
  tos : UInt8
  len : UInt16
  id : UInt16
  offset : UInt16
  ttl : UInt8
  proto : UInt8
  chksum : UInt16
  src : Ip4Addr
  dest : Ip4Addr
deriving DecidableEq, Repr

/-- `IP_HLEN`. -/
def ipHlen : Nat := 20

/-- `IP_MF`. -/
def ipMf : UInt16 := 0x2000

/-- `IP_OFFMASK`. -/
def ipOffmask : UInt16 := 0x1fff

/-- `inet_chksum` of bytes at an even address. -/
def inetChksum (bytes : Bytes) : UInt16 := ~~~(lwipStandardChksum ⟨bytes, false⟩).toUInt16

namespace IpHdr

variable (hdr : IpHdr)

/-- `IPH_HL_BYTES`. -/
def hlBytes : Nat := (hdr.vHl &&& 0x0f).toNat * 4

/-- `IPH_OFFSET_BYTES`. -/
def offsetBytes : UInt16 := (hdr.offset &&& ipOffmask) * 8

/-- More fragments follow. -/
def mf : Bool := hdr.offset &&& ipMf ≠ 0

/-- The header in memory. -/
def bytes : Bytes :=
  [hdr.vHl, hdr.tos] ++ beBytes2 hdr.len.toNat ++ beBytes2 hdr.id.toNat ++
    beBytes2 hdr.offset.toNat ++
    [hdr.ttl, hdr.proto, hdr.chksum.toUInt8, (hdr.chksum >>> 8).toUInt8] ++ hdr.src.bytes ++
    hdr.dest.bytes

/-- `IPH_CHKSUM_SET` to 0 and then to the checksum of the header. -/
def withChksum : IpHdr := { hdr with chksum := inetChksum { hdr with chksum := 0 }.bytes }

/-- `IP_ADDRESSES_AND_ID_MATCH`. -/
def addressesAndIdMatch (hdr hdr' : IpHdr) : Bool :=
  hdr.src = hdr'.src ∧ hdr.dest = hdr'.dest ∧ hdr.id = hdr'.id

end IpHdr

/-- A packet: its header, and the bytes of its pbufs behind the header. -/
structure IpPacket where
  hdr : IpHdr
  data : Bytes
deriving DecidableEq, Repr

/-! ### Fragments in the list -/

/-- A fragment in the list: `struct ip_reass_helper`, the bytes behind the header, and how many
pbufs it takes. -/
structure ReassFrag where
  start : UInt16
  stop : UInt16
  data : Bytes
  clen : Nat
deriving DecidableEq, Repr

/-- `struct ip_reassdata`; `lastFrag` is `IP_REASS_FLAG_LASTFRAG`. -/
structure IpReassData where
  p : List ReassFrag
  iphdr : IpHdr
  datagramLen : UInt16
  lastFrag : Bool
  timer : UInt8
deriving DecidableEq, Repr

/-- `reassdatagrams` and `ip_reass_pbufcount`, with the packets that `icmp_time_exceeded` was called
for. -/
structure IpReass where
  reassdatagrams : List IpReassData
  pbufcount : Nat
  timeExceeded : List IpPacket
deriving DecidableEq, Repr

/-- `IP_REASS_MAX_PBUFS`. -/
def ipReassMaxPbufs : Nat := 10

/-- `IP_REASS_MAXAGE`. -/
def ipReassMaxage : UInt8 := 15

/-- What the search for the place of a fragment finds: the fragment is dropped, or it stands between
others, with whether these have had no holes so far. -/
inductive ChainResult where
  | dropped
  | chained (before : List ReassFrag) (behind : List ReassFrag) (valid : Bool)
deriving DecidableEq, Repr

/-- The loop of `ip_reass_chain_frag_into_datagram_and_validate`, and what follows when it reaches
the end. -/
def chainLoop (new : ReassFrag) (prev : Option ReassFrag) (valid : Bool) :
    List ReassFrag → Option ChainResult
  | [] =>
    match prev with
    | none => some (.chained [] [] valid)
    | some prev =>
      if prev.stop ≤ new.start then some (.chained [] [] (valid && prev.stop = new.start)) else none
  | q :: rest =>
    if new.start < q.start then
      match prev with
      | none => some (if new.stop > q.start then .dropped else .chained [] (q :: rest) valid)
      | some prev =>
        some
          (if new.start < prev.stop ∨ new.stop > q.start then .dropped
          else .chained [] (q :: rest) (valid && prev.stop = new.start))
    else if new.start = q.start then some .dropped
    else if new.start < q.stop then some .dropped
    else
      let valid := valid && (prev.all fun prev => prev.stop = q.start)
      (chainLoop new (some q) valid rest).map fun
        | .dropped => .dropped
        | .chained before behind valid => .chained (q :: before) behind valid

/-- There are no holes behind a fragment. -/
def noHoles : ReassFrag → List ReassFrag → Bool
  | _, [] => true
  | prev, q :: rest => prev.stop = q.start && noHoles q rest

/-- `IP_REASS_VALIDATE_TELEGRAM_FINISHED`, `IP_REASS_VALIDATE_PBUF_QUEUED` and
`IP_REASS_VALIDATE_PBUF_DROPPED`. -/
inductive Validated where
  | finished (p : List ReassFrag)
  | queued (p : List ReassFrag)
  | dropped
deriving DecidableEq, Repr

/-- The validation part of `ip_reass_chain_frag_into_datagram_and_validate`. -/
def validatePart (ipr : IpReassData) (new : ReassFrag) (isLast : Bool) :
    ChainResult → Option Validated
  | .dropped => some .dropped
  | .chained before behind valid =>
    let p := before ++ new :: behind
    let starts := p.head?.all fun first => first.start = 0
    if (isLast ∨ ipr.lastFrag) ∧ valid ∧ starts ∧ noHoles new behind then
      -- the first fragment is not the last one
      if p.length = 1 then none else some (.finished p)
    else some (.queued p)

/-- `ip_reass_chain_frag_into_datagram_and_validate`. -/
def ipReassChainFrag (ipr : IpReassData) (hdr : IpHdr) (data : Bytes) (clen : Nat)
    (isLast : Bool) : Option Validated :=
  if hdr.hlBytes > hdr.len.toNat then some .dropped
  else
    let len := hdr.len - UInt16.ofNat hdr.hlBytes
    let offset := hdr.offsetBytes
    let new : ReassFrag := ⟨offset, offset + len, data, clen⟩
    if new.stop < offset then some .dropped
    else (chainLoop new none true ipr.p).bind (validatePart ipr new isLast)

/-! ### The list of incomplete packets -/

namespace IpReass

variable (reass : IpReass)

/-- The entry at a place of the list is taken out. -/
def dequeue (place : Nat) : IpReass :=
  { reass with reassdatagrams := reass.reassdatagrams.eraseIdx place }

/-- The number of pbufs of fragments. -/
def pbufs (p : List ReassFrag) : Nat := (p.map ReassFrag.clen).sum

/-- What `ip_reass_free_complete_datagram` tells the sender: its first fragment has come, with the
header that was kept. -/
def expired (ipr : IpReassData) : List IpPacket :=
  match ipr.p with
  | first :: _ => if first.start = 0 then [⟨ipr.iphdr, first.data⟩] else []
  | [] => []

/-- `ip_reass_free_complete_datagram` for the entry at a place, with the number of pbufs freed. -/
def freeCompleteDatagram (place : Nat) : Option (IpReass × Nat) :=
  (reass.reassdatagrams[place]?).bind fun ipr =>
    if ipr.p = [] ∨ pbufs ipr.p > 0xffff ∨ reass.pbufcount < pbufs ipr.p then none
    else
      some
        ({ reass.dequeue place with
          pbufcount := reass.pbufcount - pbufs ipr.p
          timeExceeded := reass.timeExceeded ++ expired ipr }, pbufs ipr.p)

/-- The inner loop of `ip_reass_remove_oldest_datagram`: the place and the timer of the oldest other
packet, and how many others there are. -/
def oldestLoop (fraghdr : IpHdr) : List IpReassData → Nat → Option (Nat × UInt8) → Nat →
    Option (Nat × UInt8) × Nat
  | [], _, oldest, others => (oldest, others)
  | r :: rest, place, oldest, others =>
    if r.iphdr.addressesAndIdMatch fraghdr then oldestLoop fraghdr rest (place + 1) oldest others
    else
      let oldest :=
        match oldest with
        | none => (place, r.timer)
        | some (before, timer) => if r.timer ≤ timer then (place, r.timer) else (before, timer)
      oldestLoop fraghdr rest (place + 1) (some oldest) (others + 1)

/-- The outer loop of `ip_reass_remove_oldest_datagram`, which takes at most `fuel` rounds. -/
def removeOldestLoop (fraghdr : IpHdr) (pbufsNeeded : Nat) : Nat → IpReass → Nat →
    Option (IpReass × Nat)
  | 0, _, _ => none
  | fuel + 1, reass, freed =>
    match oldestLoop fraghdr reass.reassdatagrams 0 none 0 with
    | (none, _) => some (reass, freed)
    | (some (oldest, _), others) =>
      (reass.freeCompleteDatagram oldest).bind fun (reass, current) =>
        if freed + current < pbufsNeeded ∧ others > 1 then
          removeOldestLoop fraghdr pbufsNeeded fuel reass (freed + current)
        else some (reass, freed + current)

/-- `ip_reass_remove_oldest_datagram`, with the number of pbufs freed. -/
def removeOldestDatagram (fraghdr : IpHdr) (pbufsNeeded : Nat) : Option (IpReass × Nat) :=
  removeOldestLoop fraghdr pbufsNeeded (reass.reassdatagrams.length + 1) reass 0

/-- `ip_reass_enqueue_new_datagram`; `mem` is whether the two calls of `memp_malloc` find memory.
The new entry is the first one of the list. -/
def enqueueNewDatagram (fraghdr : IpHdr) (clen : Nat) (mem : Bool × Bool) :
    Option (IpReass × Bool) := do
  let (reass, found) ←
    if mem.1 then some (reass, true)
    else
      let (reass, freed) ← reass.removeOldestDatagram fraghdr clen
      some (reass, decide (freed ≥ clen) && mem.2)
  if found then
    let ipr : IpReassData :=
      { p := [], iphdr := fraghdr, datagramLen := 0, lastFrag := false, timer := ipReassMaxage }
    some ({ reass with reassdatagrams := ipr :: reass.reassdatagrams }, true)
  else some (reass, false)

/-- `nullreturn_ipr`. -/
def nullreturnIpr (place : Nat) : Option (IpReass × Option IpPacket) :=
  (reass.reassdatagrams[place]?).bind fun ipr =>
    if ipr.p = [] then if place = 0 then some (reass.dequeue 0, none) else none
    else some (reass, none)

/-- The part of `ip4_reass` behind the look-up of the entry of the fragment. -/
def reassInto (place : Nat) (hdr : IpHdr) (data : Bytes) (clen : Nat) :
    Option (IpReass × Option IpPacket) :=
  (reass.reassdatagrams[place]?).bind fun ipr =>
    let isLast := !hdr.mf
    let datagramLen := hdr.offsetBytes + (hdr.len - UInt16.ofNat hdr.hlBytes)
    if isLast ∧ (datagramLen < hdr.offsetBytes ∨ datagramLen.toNat > 0xffff - ipHlen) then
      reass.nullreturnIpr place
    else
      (ipReassChainFrag ipr hdr data clen isLast).bind fun validated =>
        let count := reass.pbufcount + clen
        let chained (p : List ReassFrag) : IpReassData :=
          if isLast then { ipr with p := p, datagramLen := datagramLen, lastFrag := true }
          else { ipr with p := p }
        match validated with
        | .dropped => reass.nullreturnIpr place
        | .queued p =>
          some
            ({ reass with
              reassdatagrams := reass.reassdatagrams.set place (chained p)
              pbufcount := count }, none)
        | .finished p =>
          if count < pbufs p then none
          else
            some
              ({ reass.dequeue place with pbufcount := count - pbufs p },
                some
                  { hdr :=
                      { ipr.iphdr with
                        len := (chained p).datagramLen + UInt16.ofNat ipHlen
                        offset := 0 }.withChksum
                    data := p.flatMap ReassFrag.data })

/-- The entry of a fragment is looked up, or a new one is made. -/
def lookUp (hdr : IpHdr) (clen : Nat) (mem : Bool × Bool) : Option (IpReass × Option Nat) :=
  match reass.reassdatagrams.findIdx? fun ipr => ipr.iphdr.addressesAndIdMatch hdr with
  | none =>
    (reass.enqueueNewDatagram hdr clen mem).map fun (reass, found) =>
      (reass, if found then some 0 else none)
  | some place =>
    -- the header of the first fragment is kept
    some
      ({ reass with
        reassdatagrams := reass.reassdatagrams.modify place fun ipr =>
          if hdr.offset &&& ipOffmask = 0 ∧ ipr.iphdr.offset &&& ipOffmask ≠ 0 then
            { ipr with iphdr := hdr }
          else ipr }, some place)

/-- The part of `ip4_reass` behind the look for room. -/
def reassLookUp (hdr : IpHdr) (data : Bytes) (clen : Nat) (mem : Bool × Bool) :
    Option (IpReass × Option IpPacket) :=
  (reass.lookUp hdr clen mem).bind fun
    | (reass, none) => some (reass, none)
    | (reass, some place) => reass.reassInto place hdr data clen

/-- `ip4_reass`, with the packet it returns. -/
def ip4Reass (hdr : IpHdr) (data : Bytes) (clen : Nat) (mem : Bool × Bool) :
    Option (IpReass × Option IpPacket) :=
  if hdr.hlBytes ≠ ipHlen then some (reass, none)
  else if hdr.hlBytes > hdr.len.toNat then some (reass, none)
  else do
    let (reass, room) ←
      if reass.pbufcount + clen > ipReassMaxPbufs then do
        let (reass, freed) ← reass.removeOldestDatagram hdr clen
        some (reass, decide (freed ≠ 0 ∧ reass.pbufcount + clen ≤ ipReassMaxPbufs))
      else some (reass, true)
    if room = false then some (reass, none) else reass.reassLookUp hdr data clen mem

/-- The loop of `ip_reass_tmr`; `place` is where it stands in the list. -/
def tmrLoop : Nat → Nat → IpReass → Option IpReass
  | 0, _, reass => some reass
  | left + 1, place, reass =>
    (reass.reassdatagrams[place]?).bind fun r =>
      if r.timer > 0 then
        tmrLoop left (place + 1) { reass with
          reassdatagrams := reass.reassdatagrams.set place { r with timer := r.timer - 1 } }
      else (reass.freeCompleteDatagram place).bind fun (reass, _) => tmrLoop left place reass

/-- `ip_reass_tmr`. -/
def ipReassTmr : Option IpReass := tmrLoop reass.reassdatagrams.length 0 reass

end IpReass

/-! ### Cutting a packet -/

/-- `nfb` of `ip4_frag`: how many 8-byte blocks a fragment takes. -/
def ip4Nfb (mtu : UInt16) : UInt16 := UInt16.ofInt (Int.tdiv ((mtu.toNat : Int) - ipHlen) 8)

/-- The loop of `ip4_frag`. `left` are the bytes that are left, `mem` is whether the allocations of
a fragment succeed when so many bytes are left, and at most `fuel` rounds are taken; the result has
the fragments that are sent and whether all are. -/
def ip4FragLoop (hdr : IpHdr) (mtu : UInt16) (mem : Nat → Bool) : Nat → UInt16 → Bytes →
    Option (List IpPacket × Bool)
  | _, _, [] => some ([], true)
  | 0, _, _ => none
  | fuel + 1, ofo, left =>
    if mem left.length = false then some ([], false)
    else
      let fragsize := min left.length (ip4Nfb mtu * 8).toNat
      let last := decide ((left.length : Int) ≤ (mtu.toNat : Int) - ipHlen)
      let offset := (ofo &&& ipOffmask) ||| (if last = false ∨ hdr.mf then ipMf else 0)
      let fragment : IpPacket :=
        { hdr := { hdr with offset := offset, len := UInt16.ofNat (fragsize + ipHlen) }.withChksum
          data := left.take fragsize }
      (ip4FragLoop hdr mtu mem fuel (ofo + ip4Nfb mtu) (left.drop fragsize)).map
        fun (fragments, done) => (fragment :: fragments, done)

/-- `ip4_frag`. -/
def ip4Frag (packet : IpPacket) (mtu : UInt16) (mem : Nat → Bool) :
    Option (List IpPacket × Bool) :=
  if packet.hdr.hlBytes ≠ ipHlen then some ([], false)
  else
    ip4FragLoop packet.hdr mtu mem packet.data.length (packet.hdr.offset &&& ipOffmask) packet.data

/-! ### Runs -/

/-- The reassembly of a netif: the packets that were put together, and whether an assertion has
ended the process. -/
structure ReassRun where
  reass : IpReass
  delivered : List IpPacket
  failed : Bool
deriving DecidableEq, Repr

/-- A fragment comes from `ip4_input`, in a number of pbufs; a second passes. -/
inductive ReassEvent where
  | fragment (packet : IpPacket) (clen : Nat) (mem : Bool × Bool)
  | tmr
deriving DecidableEq, Repr

namespace ReassRun

/-- No fragment has come. -/
def init : ReassRun := ⟨⟨[], 0, []⟩, [], false⟩

variable (run : ReassRun)

/-- `ip4_input` passes on a fragment whose length is the one in its header. -/
def enabled : ReassEvent → Prop
  | .fragment packet clen _ =>
    run.failed = false ∧ packet.hdr.offset &&& (ipOffmask ||| ipMf) ≠ 0 ∧
      ipHlen ≤ packet.hdr.hlBytes ∧
      packet.hdr.hlBytes + packet.data.length = packet.hdr.len.toNat ∧ 0 < clen ∧ clen < 2 ^ 16
  | .tmr => run.failed = false

/-- The effect of an event. -/
def step : ReassEvent → ReassRun
  | .fragment packet clen mem =>
    match run.reass.ip4Reass packet.hdr packet.data clen mem with
    | none => { run with failed := true }
    | some (reass, packet) =>
      { run with reass := reass, delivered := run.delivered ++ packet.toList }
  | .tmr =>
    match run.reass.ipReassTmr with
    | none => { run with failed := true }
    | some reass => { run with reass := reass }

instance (event : ReassEvent) : Decidable (run.enabled event) :=
  match event with
  | .fragment _ _ _ => inferInstanceAs (Decidable (_ ∧ _ ∧ _ ∧ _ ∧ _ ∧ _))
  | .tmr => inferInstanceAs (Decidable (_ = _))

end ReassRun

/-- The reassembly as a transition system. -/
def reassSystem : Transition.System ReassRun ReassEvent where
  enabled := ReassRun.enabled
  step := ReassRun.step

instance (run : ReassRun) (event : ReassEvent) : Decidable (reassSystem.enabled run event) :=
  inferInstanceAs (Decidable (run.enabled event))

end Net2Tr
