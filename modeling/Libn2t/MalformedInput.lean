/-
This file proves that no bytes from the proxy make a `UDPSession` raise an
exception or leave a buffer: `socks5_to_addrport`, `tcp_recv` and `out_recv`
are written once more with every access checked, and the checked functions
never report a fault.

The guards of `tcp_recv` and `out_recv` join their halves differently, and both
are strong enough: what is shorter than three bytes never gets past them. The
addresses of queued packets are parsed as well; their texts come from the
receive callback of `N2T`.
-/

import Libn2t.UdpPort
import Libn2t.UdpReply

namespace Net2Tr

/-- What goes wrong at an access: a position behind the end of a string, an index out of range, a
text too long for its buffer, a text that `address::from_string` rejects. -/
inductive Fault where
  | position | index | buffer | address
deriving DecidableEq, Repr

/-- `substr(pos)`. -/
def substrChecked (data : Bytes) (pos : Nat) : Except Fault Bytes :=
  if pos ≤ data.length then .ok (data.drop pos) else .error .position

/-- `operator[]`. -/
def charAt (socks5 : Bytes) (index : Nat) : Except Fault UInt8 :=
  match socks5[index]? with
  | some byte => .ok byte
  | none => .error .index

/-- `sprintf` into `char t[40]`, with its terminating zero. -/
def sprintfChecked (text : Text) : Except Fault Text :=
  if text.length + 1 ≤ 40 then .ok text else .error .buffer

/-- `address::from_string`. -/
def fromStringChecked (text : Text) : Except Fault Address :=
  match fromString text with
  | some address => .ok address
  | none => .error .address

/-- `Utils::socks5_to_addrport`; `none` is the result `-1`. -/
def socks5ToAddrportChecked (socks5 : Bytes) : Except Fault (Option (Nat × Text × Port)) := do
  if socks5.length = 0 then .ok none
  else
    let atyp ← charAt socks5 0
    if atyp = 1 then
      if socks5.length < 7 then .ok none
      else
        let a ← charAt socks5 1
        let b ← charAt socks5 2
        let c ← charAt socks5 3
        let d ← charAt socks5 4
        let high ← charAt socks5 5
        let low ← charAt socks5 6
        .ok (some (7,
          toString8 a ++ '.' :: toString8 b ++ '.' :: toString8 c ++ '.' :: toString8 d,
          portOf high low))
    else if atyp = 4 then
      if socks5.length < 19 then .ok none
      else
        let bytes ← (List.range' 1 16).mapM (charAt socks5)
        let addr ← sprintfChecked (hexGroups bytes)
        let high ← charAt socks5 17
        let low ← charAt socks5 18
        .ok (some (19, addr, portOf high low))
    else .ok none

/-- `Utils::addrport_to_socks5`. -/
def addrportToSocks5Checked (addr : Text) (port : Port) : Except Fault Bytes := do
  let a ← fromStringChecked addr
  .ok (a.socks5 ++ portBytes port)

namespace UdpSession

/-- `in_recv`. -/
def inRecvChecked (packet : UdpPacket) (fails : Bool) (s : UdpSession) :
    Except Fault (UdpSession × Bool) := do
  let s := s.cancelTimer.asyncWaitTimer
  if s.status = .forward then
    let socks5 ← addrportToSocks5Checked packet.dstAddr packet.dstPort
    if fails then .ok (s, true)
    else .ok ({ s with sent := s.sent ++ [udpHead ++ socks5 ++ packet.data] }, false)
  else .ok ({ s with sendQue := s.sendQue ++ [packet] }, false)

/-- The flush of the queue. -/
def inRecvAllChecked (failing : Option Nat) : List UdpPacket → UdpSession →
    Except Fault (UdpSession × Bool)
  | [], s => .ok (s, false)
  | packet :: rest, s => do
    let (s, threw) ← s.inRecvChecked packet (failing = some 0)
    if threw then .ok (s, true) else inRecvAllChecked (failing.map (· - 1)) rest s

/-- The guard of `tcp_recv`: the second test is made when the first one fails. -/
def tcpRejected (data : Bytes) : Except Fault Bool :=
  if data.length ≤ 3 then .ok true
  else (substrChecked data 0).map fun tail => decide (tail.take 3 ≠ replyHead)

/-- The guard of `out_recv`: the second test is made when the first one holds. -/
def outRejected (data : Bytes) : Except Fault Bool :=
  if data.length ≤ 3 then (substrChecked data 0).map fun tail => decide (tail.take 3 ≠ udpHead)
  else .ok false

/-- `tcp_recv`. -/
def tcpRecvChecked (data : Bytes) (connectOk : Bool) (failing : Option Nat) (s : UdpSession) :
    Except Fault (UdpSession × Bool) := do
  match s.status with
  | .handshake =>
    if data ≠ methodReply then .ok (s.destroy, false)
    else .ok ({ s with status := .request }.tcpAsyncWrite associateRequest, false)
  | .request =>
    let rejected ← tcpRejected data
    if rejected then .ok (s.destroy, false)
    else
      let socks5 ← substrChecked data 3
      match ← socks5ToAddrportChecked socks5 with
      | none => .ok (s.destroy, false)
      | some (_, addr, port) =>
        let address ← fromStringChecked addr
        if connectOk then
          inRecvAllChecked failing (s.initialPacket :: s.sendQue)
            { s with
              outOpen := true
              outPeer := some (address, port)
              status := .forward }.tcpAsyncRead.outAsyncRead
        else .ok ({ s with outOpen := true }.destroy, false)
  | .forward => .ok (s.destroy, false)
  | .destroy => .ok (s, false)

/-- `out_recv`. -/
def outRecvChecked (data : Bytes) (s : UdpSession) : Except Fault (UdpSession × Bool) := do
  let s := s.cancelTimer.asyncWaitTimer
  if s.status = .forward then
    let rejected ← outRejected data
    if rejected then .ok (s.destroy, false)
    else
      let socks5 ← substrChecked data 3
      match ← socks5ToAddrportChecked socks5 with
      | none => .ok (s.destroy, false)
      | some (res, addr, port) =>
        let payload ← substrChecked data (res + 3)
        .ok ({ s with replies := s.replies ++ [s.reply addr port payload] }.outAsyncRead, false)
  else .ok (s, false)

end UdpSession

/-! ### The decoder -/

theorem substrChecked_ok {data : Bytes} {pos : Nat} (inside : pos ≤ data.length) :
    substrChecked data pos = .ok (data.drop pos) := if_pos inside

theorem charAt_ok {socks5 : Bytes} {index : Nat} {byte : UInt8}
    (inside : socks5[index]? = some byte) : charAt socks5 index = .ok byte := by
  rw [charAt, inside]

theorem fromStringChecked_ok {text : Text} {address : Address}
    (parsed : fromString text = some address) : fromStringChecked text = .ok address := by
  rw [fromStringChecked, parsed]

theorem hexGroups_length (bytes : Bytes) (more : 2 ≤ bytes.length)
    (even : bytes.length % 2 = 0) : 2 * ((hexGroups bytes).length + 1) = 5 * bytes.length := by
  induction bytes using hexGroups.induct with
  | case1 high low => rfl
  | case2 high low rest long inductionHypothesis =>
    have nonempty : rest.length ≠ 0 := fun empty => long (List.length_eq_zero_iff.mp empty)
    simp only [List.length_cons] at even ⊢
    have groups : (hexGroups (high :: low :: rest)).length = 5 + (hexGroups rest).length := by
      rw [hexGroups, List.length_append, List.length_append, List.length_cons]
      · change 2 + 2 + _ = _
        omega
      · exact long
    rw [groups]
    have smaller := inductionHypothesis (by omega) (by omega)
    omega
  | case3 bytes notTwo notMore =>
    rcases bytes with _ | ⟨high, _ | ⟨low, rest⟩⟩
    · exact absurd more (Nat.not_succ_le_zero 1)
    · exact absurd more (Nat.not_succ_le_self 1)
    · exact absurd rfl (notMore high low rest)

/-- Eight groups of four digits with seven colons fit `char t[40]`. -/
theorem sprintfChecked_hexGroups (bytes : Bytes) (sixteen : bytes.length = 16) :
    sprintfChecked (hexGroups bytes) = .ok (hexGroups bytes) := by
  have length := hexGroups_length bytes (by omega) (by omega)
  exact if_pos (by omega)

theorem mapM_charAt (socks5 : Bytes) (start count : Nat)
    (inside : start + count ≤ socks5.length) :
    (List.range' start count).mapM (charAt socks5) = .ok ((socks5.drop start).take count) := by
  induction count generalizing start with
  | zero => rfl
  | succ count inductionHypothesis =>
    have here : start < socks5.length := by omega
    rw [List.range'_succ, List.mapM_cons, charAt_ok (List.getElem?_eq_getElem here),
      inductionHypothesis (start + 1) (by omega), List.drop_eq_getElem_cons here,
      List.take_succ_cons]
    rfl

/-- The decoder checks the length before it reads. -/
theorem socks5ToAddrportChecked_eq (socks5 : Bytes) :
    socks5ToAddrportChecked socks5 = .ok (socks5ToAddrport socks5) := by
  cases socks5 with
  | nil => rfl
  | cons atyp rest =>
    unfold socks5ToAddrportChecked socks5ToAddrport
    rw [if_neg (List.length_pos_iff.mpr (List.cons_ne_nil atyp rest)).ne',
      charAt_ok List.getElem?_cons_zero]
    dsimp only [bind, Except.bind]
    split
    · rcases rest with _ | ⟨a, _ | ⟨b, _ | ⟨c, _ | ⟨d, _ | ⟨high, _ | ⟨low, tail⟩⟩⟩⟩⟩⟩ <;>
        rfl
    · split
      · split
        · rfl
        · rename_i long
          have inside : 19 ≤ (atyp :: rest).length := Nat.le_of_not_lt long
          have sixteen : ((atyp :: rest).drop 1).take 16 = rest.take 16 := rfl
          have read (index : Nat) (small : index < 18) :
              charAt (atyp :: rest) (index + 1) = .ok (rest.getD index 0) := by
            have here : index < rest.length := by
              rw [List.length_cons] at inside
              omega
            refine charAt_ok ?_
            rw [List.getElem?_cons_succ, List.getD_eq_getElem?_getD,
              List.getElem?_eq_getElem here]
            rfl
          rw [mapM_charAt _ 1 16 (by omega), sixteen]
          dsimp only
          rw [sprintfChecked_hexGroups _ (by
              rw [List.length_cons] at inside
              rw [List.length_take]
              omega),
            read 16 (by decide), read 17 (by decide)]
      · rfl

/-! ### The handlers -/

namespace UdpPacket

/-- The receive callback of `N2T` has put the packet together. -/
def FromN2T (packet : UdpPacket) : Prop :=
  ∃ pcb p current port, recvPacket pcb p current port = some packet

/-- Its destination is the text of an address. -/
theorem FromN2T.addressed {packet : UdpPacket} (fromN2T : packet.FromN2T) : packet.Addressed := by
  obtain ⟨pcb, p, current, port, made⟩ := fromN2T
  obtain ⟨src, srcNtoa, _⟩ := current.src.ntoa_names
  obtain ⟨dst, dstNtoa, names⟩ := current.dest.ntoa_names
  rw [recvPacket, srcNtoa, dstNtoa] at made
  rw [← Option.some.inj made]
  obtain ⟨address, parsed, _⟩ := Option.map_eq_some_iff.mp (names 0)
  exact Option.isSome_iff_exists.mpr ⟨address, parsed⟩

theorem Addressed.encode {packet : UdpPacket} (addressed : packet.Addressed) :
    ∃ socks5, addrportToSocks5 packet.dstAddr packet.dstPort = some socks5 ∧
      addrportToSocks5Checked packet.dstAddr packet.dstPort = .ok socks5 := by
  obtain ⟨address, parsed⟩ := Option.isSome_iff_exists.mp addressed
  refine ⟨address.socks5 ++ portBytes packet.dstPort, ?_, ?_⟩
  · rw [addrportToSocks5, parsed, Option.map_some]
  · rw [addrportToSocks5Checked, fromStringChecked_ok parsed]
    rfl

end UdpPacket

namespace UdpSession

/-- `in_recv` finds no fault, and throws only if `send` fails. -/
theorem inRecvChecked_eq (s : UdpSession) {packet : UdpPacket} (addressed : packet.Addressed)
    (fails : Bool) :
    s.inRecvChecked packet fails = .ok (s.inRecv packet fails) ∧
      ((s.inRecv packet fails).2 = true → fails = true) := by
  obtain ⟨socks5, encoded, checked⟩ := addressed.encode
  unfold inRecvChecked inRecv
  dsimp only
  rw [encoded, checked]
  split
  · cases fails with
    | false => exact ⟨rfl, (fun wrong => by cases wrong)⟩
    | true => exact ⟨rfl, fun _ => rfl⟩
  · exact ⟨rfl, (fun wrong => by cases wrong)⟩

/-- The flush finds no fault, and throws only if the `send` of one of the packets fails. -/
theorem inRecvAllChecked_eq (packets : List UdpPacket)
    (addressed : ∀ packet ∈ packets, packet.Addressed) (failing : Option Nat) (s : UdpSession) :
    inRecvAllChecked failing packets s = .ok (inRecvAll failing packets s) ∧
      ((inRecvAll failing packets s).2 = true →
        ∃ index, failing = some index ∧ index < packets.length) := by
  induction packets generalizing failing s with
  | nil => exact ⟨rfl, (fun wrong => by cases wrong)⟩
  | cons packet rest inductionHypothesis =>
    obtain ⟨checked, threw⟩ := s.inRecvChecked_eq (addressed packet List.mem_cons_self)
      (failing = some 0)
    unfold inRecvAllChecked inRecvAll
    rw [checked]
    dsimp only [bind, Except.bind]
    split
    · rename_i raised
      refine ⟨rfl, fun _ => ⟨0, of_decide_eq_true (threw raised), ?_⟩⟩
      rw [List.length_cons]
      exact Nat.succ_pos _
    · obtain ⟨restChecked, restThrew⟩ := inductionHypothesis
        (fun other member => addressed other (List.mem_cons_of_mem _ member))
        (failing.map (· - 1)) (s.inRecv packet (failing = some 0)).1
      refine ⟨restChecked, fun raised => ?_⟩
      obtain ⟨index, failing_eq, inside⟩ := restThrew raised
      obtain ⟨position, rfl, rfl⟩ := Option.map_eq_some_iff.mp failing_eq
      refine ⟨position, rfl, ?_⟩
      rw [List.length_cons]
      omega

theorem tcpRejected_eq (data : Bytes) :
    tcpRejected data = .ok (decide (data.length ≤ 3 ∨ data.take 3 ≠ replyHead)) := by
  unfold tcpRejected
  split
  · rename_i short
    exact congrArg Except.ok (decide_eq_true (Or.inl short)).symm
  · rename_i long
    rw [substrChecked_ok (Nat.zero_le _), List.drop_zero]
    exact congrArg Except.ok (decide_eq_decide.mpr (or_iff_right long).symm)

theorem outRejected_eq (data : Bytes) :
    outRejected data = .ok (decide (data.length ≤ 3 ∧ data.take 3 ≠ udpHead)) := by
  unfold outRejected
  split
  · rename_i short
    rw [substrChecked_ok (Nat.zero_le _), List.drop_zero]
    exact congrArg Except.ok (decide_eq_decide.mpr (and_iff_right short).symm)
  · rename_i long
    exact congrArg Except.ok (decide_eq_false fun rejected => long rejected.1).symm

/-- What the guard of `out_recv` lets through has three bytes. -/
theorem three_le_of_not_rejected {data : Bytes}
    (passed : ¬ (data.length ≤ 3 ∧ data.take 3 ≠ udpHead)) : 3 ≤ data.length := by
  by_contra short
  refine passed ⟨by omega, fun head => ?_⟩
  have length := congrArg List.length head
  rw [List.length_take] at length
  change min 3 data.length = 3 at length
  omega

/-- `tcp_recv` finds no fault, and throws only while the queue is flushed. -/
theorem tcpRecvChecked_eq (s : UdpSession)
    (addressed : ∀ packet ∈ s.initialPacket :: s.sendQue, packet.Addressed) (data : Bytes)
    (connectOk : Bool) (failing : Option Nat) :
    s.tcpRecvChecked data connectOk failing = .ok (s.tcpRecv data connectOk failing) ∧
      ((s.tcpRecv data connectOk failing).2 = true → s.status = .request ∧
        ∃ index, failing = some index ∧ index < (s.initialPacket :: s.sendQue).length) := by
  unfold tcpRecvChecked tcpRecv
  cases status : s.status with
  | handshake =>
    dsimp only
    split
    · exact ⟨rfl, (fun wrong => by cases wrong)⟩
    · exact ⟨rfl, (fun wrong => by cases wrong)⟩
  | request =>
    dsimp only
    rw [tcpRejected_eq]
    dsimp only [bind, Except.bind]
    by_cases rejected : data.length ≤ 3 ∨ data.take 3 ≠ replyHead
    · rw [if_pos (decide_eq_true rejected), if_pos rejected]
      exact ⟨rfl, (fun wrong => by cases wrong)⟩
    · have long : 3 ≤ data.length := by
        have short := (not_or.mp rejected).1
        omega
      rw [if_neg (by rw [decide_eq_true_iff]; exact rejected), if_neg rejected,
        substrChecked_ok long]
      dsimp only
      rw [socks5ToAddrportChecked_eq]
      cases decoded : socks5ToAddrport (data.drop 3) with
      | none => exact ⟨rfl, (fun wrong => by cases wrong)⟩
      | some field =>
        obtain ⟨res, addr, port⟩ := field
        obtain ⟨_, address, parsed⟩ := socks5ToAddrport_accepted decoded
        dsimp only
        rw [fromStringChecked_ok parsed, parsed]
        dsimp only
        split
        · obtain ⟨checked, threw⟩ := inRecvAllChecked_eq _ addressed failing _
          exact ⟨checked, fun raised => ⟨rfl, threw raised⟩⟩
        · exact ⟨rfl, (fun wrong => by cases wrong)⟩
  | forward => exact ⟨rfl, (fun wrong => by cases wrong)⟩
  | destroy => exact ⟨rfl, (fun wrong => by cases wrong)⟩

/-- `out_recv` finds no fault and never throws. -/
theorem outRecvChecked_eq (s : UdpSession) (data : Bytes) :
    s.outRecvChecked data = .ok (s.outRecv data) ∧ (s.outRecv data).2 = false := by
  unfold outRecvChecked outRecv
  dsimp only
  split
  · rw [outRejected_eq]
    dsimp only [bind, Except.bind]
    by_cases rejected : data.length ≤ 3 ∧ data.take 3 ≠ udpHead
    · rw [if_pos (decide_eq_true rejected), if_pos rejected]
      exact ⟨rfl, rfl⟩
    · have long := three_le_of_not_rejected rejected
      rw [if_neg (by rw [decide_eq_true_iff]; exact rejected), if_neg rejected, substr,
        if_pos long, substrChecked_ok long]
      dsimp only
      rw [socks5ToAddrportChecked_eq]
      cases decoded : socks5ToAddrport (data.drop 3) with
      | none => exact ⟨rfl, rfl⟩
      | some field =>
        obtain ⟨res, addr, port⟩ := field
        have inside : res + 3 ≤ data.length := by
          have length := (socks5ToAddrport_accepted decoded).1
          rw [List.length_drop] at length
          omega
        dsimp only
        rw [substrChecked_ok inside, substr, if_pos inside]
        exact ⟨rfl, rfl⟩
  · exact ⟨rfl, rfl⟩

end UdpSession

/-- In a session of any status, whose packets come from `N2T`, no bytes from the proxy lead to a
fault: on either socket every access stays inside its string or buffer and every parsed text is an
address. Nothing is thrown, unless a `send` of the flush fails. -/
theorem malformed_input_harmless (s : UdpSession)
    (fromN2T : ∀ packet ∈ s.initialPacket :: s.sendQue, packet.FromN2T) (data : Bytes) :
    (∀ connectOk failing,
      s.tcpRecvChecked data connectOk failing = .ok (s.tcpRecv data connectOk failing) ∧
      ((s.tcpRecv data connectOk failing).2 = true → s.status = .request ∧
        ∃ index, failing = some index ∧ index < (s.initialPacket :: s.sendQue).length)) ∧
    s.outRecvChecked data = .ok (s.outRecv data) ∧ (s.outRecv data).2 = false :=
  ⟨s.tcpRecvChecked_eq (fun packet member => (fromN2T packet member).addressed) data,
    s.outRecvChecked_eq data⟩

/-- A session waiting for the reply to its request, with a packet from 10.0.0.2 to 10.0.0.1. -/
abbrev requestingSession : UdpSession :=
  { UdpSession.new 0 (samplePacket [0x61]) with status := .request }

theorem samplePacket_fromN2T (data : Bytes) : (samplePacket data).FromN2T :=
  ⟨sharedPcb ⟨1, 0⟩ 0 53, ⟨⟨data, false⟩, []⟩,
    ⟨.of (.v4 ⟨0x0A000002⟩), .of (.v4 ⟨0x0A000001⟩), rfl⟩, 5000, by
      rw [recvPacket, PbufChain.toStr, PbufChain.pbufs, List.flatMap_cons, List.flatMap_nil,
        List.append_nil]
      rfl⟩

/-- A reply that is cut off behind its type byte. -/
theorem malformed_input_harmless_short :
    (∀ connectOk failing,
      requestingSession.tcpRecvChecked [5, 0, 0, 4] connectOk failing =
        .ok (requestingSession.tcpRecv [5, 0, 0, 4] connectOk failing) ∧
      ((requestingSession.tcpRecv [5, 0, 0, 4] connectOk failing).2 = true →
        requestingSession.status = .request ∧
        ∃ index, failing = some index ∧
          index < (requestingSession.initialPacket :: requestingSession.sendQue).length)) ∧
    requestingSession.outRecvChecked [5, 0, 0, 4] =
      .ok (requestingSession.outRecv [5, 0, 0, 4]) ∧
    (requestingSession.outRecv [5, 0, 0, 4]).2 = false := by
  refine malformed_input_harmless requestingSession ?_ [5, 0, 0, 4]
  intro packet member
  rw [List.mem_singleton.mp member]
  exact samplePacket_fromN2T [0x61]

end Net2Tr
