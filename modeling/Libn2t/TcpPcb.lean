/-
This file models the part of lwIP's `tcp_pcb` that the code of this repository
sees: the two endpoints, the connection state, the registered callbacks, and
whether lwIP still owns the block.

A block that lwIP has freed keeps an address, so nothing stops a later use of
it. The model keeps the freed block and records every such use in `misuses`,
which no function reads.
-/

import Libn2t.Socks5

namespace Net2Tr

/-- The type tag `IPADDR_TYPE_V4` or `IPADDR_TYPE_V6`. -/
def IpAddr.tag : IpAddr → UInt32
  | .v4 _ => 0
  | .v6 _ => 6

/-- An `ip_addr_t` in memory: the address and the word behind its four words, whose first byte
is the type tag. -/
structure IpCell where
  ip : IpAddr
  past : UInt32
  tagged : past >>> 24 = ip.tag
deriving DecidableEq, Repr

theorem IpCell.tagged_v6 (cell : IpCell) (isV6 : cell.ip.isV6 = true) : cell.past >>> 24 = 6 := by
  rw [cell.tagged]
  cases shape : cell.ip with
  | v4 ip =>
    rw [shape] at isV6
    cases isV6
  | v6 ip => rfl

/-- `ipaddr_ntoa` of an address in memory. -/
def IpCell.ntoa (cell : IpCell) : Option Text := ipaddrNtoa cell.ip cell.past

/-- An address with zero padding behind the type tag. -/
def IpCell.of (ip : IpAddr) : IpCell where
  ip := ip
  past := ip.tag <<< 24
  tagged := by
    cases ip
    · show (0 : UInt32) <<< 24 >>> 24 = 0
      decide
    · show (6 : UInt32) <<< 24 >>> 24 = 6
      decide

/-- `enum tcp_state`. -/
inductive TcpState where
  | closed | listen | synSent | synRcvd | established | finWait1 | finWait2 | closeWait | closing
  | lastAck | timeWait
deriving DecidableEq, Repr

/-- The operations of `Socket` that touch its pcb. -/
inductive SocketOp where
  | recvCallback | asyncSend | cancel | srcAddr | srcPort | dstAddr | dstPort | destructor
deriving DecidableEq, Repr

/-- `tcp_pcb`. `recv`, `sent` and `errf` tell whether the callback is registered; `unacked`
counts the bytes given to `tcp_write` that the peer has not acknowledged. -/
structure TcpPcb where
  localIp : IpCell
  remoteIp : IpCell
  localPort : Port
  remotePort : Port
  state : TcpState
  recv : Bool
  sent : Bool
  errf : Bool
  unacked : Nat
  freed : Bool
  misuses : List SocketOp
deriving DecidableEq, Repr

/-- The two ends of a connection. -/
structure Ends where
  localIp : IpCell
  remoteIp : IpCell
  localPort : Port
  remotePort : Port
deriving DecidableEq, Repr

namespace TcpPcb

def ends (pcb : TcpPcb) : Ends := ⟨pcb.localIp, pcb.remoteIp, pcb.localPort, pcb.remotePort⟩

/-- An operation reads, writes or hands over the block. -/
def touch (op : SocketOp) (pcb : TcpPcb) : TcpPcb :=
  if pcb.freed then { pcb with misuses := pcb.misuses ++ [op] } else pcb

/-- `tcp_recv`, `tcp_sent` and `tcp_err` with `NULL`. -/
def unregister (pcb : TcpPcb) : TcpPcb := { pcb with recv := false, sent := false, errf := false }

/-- `tcp_close` of a connection whose received data has all been taken. -/
def close (pcb : TcpPcb) : TcpPcb :=
  match pcb.state with
  | .synRcvd | .established => { pcb with state := .finWait1 }
  | .closeWait => { pcb with state := .lastAck }
  | _ => pcb

/-- `tcp_write` of `length` bytes, if lwIP accepts them. -/
def write (length : Nat) (accepted : Bool) (pcb : TcpPcb) : TcpPcb :=
  if accepted then { pcb with unacked := pcb.unacked + length } else pcb

/-- `tcp_pcb_remove` and `tcp_free`: the state and the local port are reset, the rest of the
block stays as it was until the memory is used again. -/
def free (pcb : TcpPcb) : TcpPcb := { pcb with state := .closed, localPort := 0, freed := true }

@[simp] theorem touch_freed (op : SocketOp) (pcb : TcpPcb) :
    (pcb.touch op).freed = pcb.freed := by
  unfold touch
  split <;> rfl

@[simp] theorem touch_state (op : SocketOp) (pcb : TcpPcb) :
    (pcb.touch op).state = pcb.state := by
  unfold touch
  split <;> rfl

@[simp] theorem touch_recv (op : SocketOp) (pcb : TcpPcb) :
    (pcb.touch op).recv = pcb.recv := by
  unfold touch
  split <;> rfl

@[simp] theorem touch_sent (op : SocketOp) (pcb : TcpPcb) :
    (pcb.touch op).sent = pcb.sent := by
  unfold touch
  split <;> rfl

@[simp] theorem touch_errf (op : SocketOp) (pcb : TcpPcb) :
    (pcb.touch op).errf = pcb.errf := by
  unfold touch
  split <;> rfl

@[simp] theorem touch_unacked (op : SocketOp) (pcb : TcpPcb) :
    (pcb.touch op).unacked = pcb.unacked := by
  unfold touch
  split <;> rfl

@[simp] theorem touch_localIp (op : SocketOp) (pcb : TcpPcb) :
    (pcb.touch op).localIp = pcb.localIp := by
  unfold touch
  split <;> rfl

@[simp] theorem touch_localPort (op : SocketOp) (pcb : TcpPcb) :
    (pcb.touch op).localPort = pcb.localPort := by
  unfold touch
  split <;> rfl

@[simp] theorem touch_ends (op : SocketOp) (pcb : TcpPcb) : (pcb.touch op).ends = pcb.ends := by
  unfold touch
  split <;> rfl

@[simp] theorem write_recv (length : Nat) (accepted : Bool) (pcb : TcpPcb) :
    (pcb.write length accepted).recv = pcb.recv := by
  unfold write
  split <;> rfl

@[simp] theorem write_sent (length : Nat) (accepted : Bool) (pcb : TcpPcb) :
    (pcb.write length accepted).sent = pcb.sent := by
  unfold write
  split <;> rfl

@[simp] theorem write_errf (length : Nat) (accepted : Bool) (pcb : TcpPcb) :
    (pcb.write length accepted).errf = pcb.errf := by
  unfold write
  split <;> rfl

@[simp] theorem write_freed (length : Nat) (accepted : Bool) (pcb : TcpPcb) :
    (pcb.write length accepted).freed = pcb.freed := by
  unfold write
  split <;> rfl

@[simp] theorem write_state (length : Nat) (accepted : Bool) (pcb : TcpPcb) :
    (pcb.write length accepted).state = pcb.state := by
  unfold write
  split <;> rfl

@[simp] theorem write_ends (length : Nat) (accepted : Bool) (pcb : TcpPcb) :
    (pcb.write length accepted).ends = pcb.ends := by
  unfold write
  split <;> rfl

@[simp] theorem write_misuses (length : Nat) (accepted : Bool) (pcb : TcpPcb) :
    (pcb.write length accepted).misuses = pcb.misuses := by
  unfold write
  split <;> rfl

theorem write_unacked (length : Nat) (accepted : Bool) (pcb : TcpPcb) :
    (pcb.write length accepted).unacked = pcb.unacked + if accepted then length else 0 := by
  unfold write
  split <;> rfl

@[simp] theorem unregister_ends (pcb : TcpPcb) : pcb.unregister.ends = pcb.ends := rfl

theorem close_not_established (pcb : TcpPcb) : pcb.close.state ≠ .established := by
  unfold close
  split
  case h_4 _ other _ => exact other
  all_goals exact TcpState.noConfusion

@[simp] theorem close_ends (pcb : TcpPcb) : pcb.close.ends = pcb.ends := by
  unfold close
  split <;> rfl

@[simp] theorem close_misuses (pcb : TcpPcb) : pcb.close.misuses = pcb.misuses := by
  unfold close
  split <;> rfl

@[simp] theorem close_sent (pcb : TcpPcb) : pcb.close.sent = pcb.sent := by
  unfold close
  split <;> rfl

@[simp] theorem close_errf (pcb : TcpPcb) : pcb.close.errf = pcb.errf := by
  unfold close
  split <;> rfl

@[simp] theorem close_freed (pcb : TcpPcb) : pcb.close.freed = pcb.freed := by
  unfold close
  split <;> rfl

@[simp] theorem close_unacked (pcb : TcpPcb) : pcb.close.unacked = pcb.unacked := by
  unfold close
  split <;> rfl

/-- Touching a block that lwIP owns leaves no trace. -/
theorem touch_of_live (op : SocketOp) {pcb : TcpPcb} (live : pcb.freed = false) :
    pcb.touch op = pcb := by
  rw [touch, live, if_neg Bool.false_ne_true]

/-- Touching a freed block is a misuse. -/
theorem misuses_touch_of_freed (op : SocketOp) {pcb : TcpPcb} (freed : pcb.freed = true) :
    (pcb.touch op).misuses ≠ [] := by
  rw [touch, if_pos freed]
  exact List.append_ne_nil_of_right_ne_nil _ (List.cons_ne_nil _ _)

/-- Misuses stay on record. -/
theorem misuses_touch_ne_nil (op : SocketOp) {pcb : TcpPcb} (misused : pcb.misuses ≠ []) :
    (pcb.touch op).misuses ≠ [] := by
  rw [touch]
  split
  · exact List.append_ne_nil_of_left_ne_nil misused _
  · exact misused

end TcpPcb

end Net2Tr
