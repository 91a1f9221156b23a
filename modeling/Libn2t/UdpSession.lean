/-
This file models `UDPSession`: the SOCKS5 association for the datagrams of one
source endpoint, from its handshake over a TCP connection to the relaying of
datagrams and the garbage-collecting timer.

A function that can throw returns the session as it is then and whether it has
thrown. The session object lives as long as a pending operation or wait refers
to it. The last five fields record what the session has done and are read by no
function.
-/

import Libn2t.N2T
import Libn2t.TcpSession

namespace Net2Tr

/-- The source endpoint of a packet. -/
def UdpPacket.source (packet : UdpPacket) : Text × Port := (packet.srcAddr, packet.srcPort)

/-- The destination endpoint of a packet. -/
def UdpPacket.destination (packet : UdpPacket) : Text × Port := (packet.dstAddr, packet.dstPort)

/-- The asynchronous operations on `tcp_sock` and `out_sock`. -/
inductive UdpOpKind where
  | connect | tcpRead | tcpWrite | outRead
deriving DecidableEq, Repr

/-- An operation whose completion handler has not run yet. One that was started on a closed
socket can only fail. -/
structure UdpOp where
  kind : UdpOpKind
  usable : Bool
deriving DecidableEq, Repr

/-- A wait on `gc_timer`: it has not expired, its handler is queued with success, or its handler
is queued with an error. -/
inductive Wait where
  | armed | fired | aborted
deriving DecidableEq, Repr

/-- Cancelling the timer does not reach a wait that has expired. -/
def Wait.cancel : Wait → Wait
  | .armed => .aborted
  | wait => wait

/-- `UDPSessionInternal`. -/
structure UdpSession where
  id : Nat
  status : Status
  initialPacket : UdpPacket
  sendQue : List UdpPacket
  tcpOpen : Bool
  outOpen : Bool
  outPeer : Option (Address × Port)
  ops : List UdpOp
  waits : List Wait
  alive : Bool
  accepted : List UdpPacket
  written : List Bytes
  sent : List Bytes
  replies : List UdpPacket
  armings : List Status
deriving DecidableEq, Repr

/-- The request to associate, for any address. -/
def associateRequest : Bytes := [0x05, 0x03, 0x00, 0x01, 0x00, 0x00, 0x00, 0x00, 0x00, 0x00]

/-- `RSV` and `FRAG` of a datagram that is not a fragment. -/
def udpHead : Bytes := [0x00, 0x00, 0x00]

/-- `std::string::substr`, which throws for a position behind the end. -/
def substr (data : Bytes) (pos : Nat) : Option Bytes :=
  if pos ≤ data.length then some (data.drop pos) else none

namespace UdpSession

/-- The endpoint whose datagrams the session takes. -/
def source (s : UdpSession) : Text × Port := s.initialPacket.source

/-- `gc_timer.cancel()`. -/
def cancelTimer (s : UdpSession) : UdpSession := { s with waits := s.waits.map Wait.cancel }

/-- `UDPSessionInternal::async_wait_timer`; `expires_after` cancels what is pending. -/
def asyncWaitTimer (s : UdpSession) : UdpSession :=
  { s.cancelTimer with
    waits := s.cancelTimer.waits ++ [.armed]
    armings := s.armings ++ [s.status] }

/-- `UDPSessionInternal::tcp_async_read`. -/
def tcpAsyncRead (s : UdpSession) : UdpSession :=
  { s with ops := s.ops ++ [⟨.tcpRead, s.tcpOpen⟩] }

/-- `UDPSessionInternal::tcp_async_write`. -/
def tcpAsyncWrite (data : Bytes) (s : UdpSession) : UdpSession :=
  { s with ops := s.ops ++ [⟨.tcpWrite, s.tcpOpen⟩], written := s.written ++ [data] }

/-- `UDPSessionInternal::out_async_read`. -/
def outAsyncRead (s : UdpSession) : UdpSession :=
  { s with ops := s.ops ++ [⟨.outRead, s.outOpen⟩] }

/-- `UDPSessionInternal::destroy`. -/
def destroy (s : UdpSession) : UdpSession :=
  if s.status = .destroy then s
  else { s with status := .destroy, tcpOpen := false, outOpen := false }.cancelTimer

/-- `UDPSessionInternal::in_recv`; `fails` is whether `out_sock.send` fails. -/
def inRecv (packet : UdpPacket) (fails : Bool) (s : UdpSession) : UdpSession × Bool :=
  let s := s.cancelTimer.asyncWaitTimer
  if s.status = .forward then
    match addrportToSocks5 packet.dstAddr packet.dstPort with
    | none => (s, true)
    | some socks5 =>
      if fails then (s, true)
      else ({ s with sent := s.sent ++ [udpHead ++ socks5 ++ packet.data] }, false)
  else ({ s with sendQue := s.sendQue ++ [packet] }, false)

/-- `in_recv` for one packet after the other, until it throws; `failing` tells which `send`
fails. -/
def inRecvAll (failing : Option Nat) : List UdpPacket → UdpSession → UdpSession × Bool
  | [], s => (s, false)
  | packet :: rest, s =>
    let (s, threw) := s.inRecv packet (failing = some 0)
    if threw then (s, true) else inRecvAll (failing.map (· - 1)) rest s

/-- `UDPSessionInternal::tcp_recv`; `connectOk` is the result of `out_sock.connect`. -/
def tcpRecv (data : Bytes) (connectOk : Bool) (failing : Option Nat) (s : UdpSession) :
    UdpSession × Bool :=
  match s.status with
  | .handshake =>
    if data ≠ methodReply then (s.destroy, false)
    else ({ s with status := .request }.tcpAsyncWrite associateRequest, false)
  | .request =>
    if data.length ≤ 3 ∨ data.take 3 ≠ replyHead then (s.destroy, false)
    else
      match socks5ToAddrport (data.drop 3) with
      | none => (s.destroy, false)
      | some (_, addr, port) =>
        match fromString addr with
        | none => (s, true)
        | some address =>
          if connectOk then
            inRecvAll failing (s.initialPacket :: s.sendQue)
              { s with
                outOpen := true
                outPeer := some (address, port)
                status := .forward }.tcpAsyncRead.outAsyncRead
          else ({ s with outOpen := true }.destroy, false)
  | .forward => (s.destroy, false)
  | .destroy => (s, false)

/-- `UDPSessionInternal::tcp_sent`. -/
def tcpSent (s : UdpSession) : UdpSession :=
  match s.status with
  | .handshake => s.tcpAsyncRead
  | .request => s.tcpAsyncRead
  | .forward => s
  | .destroy => s

/-- The packet `out_recv` makes of a decoded datagram. -/
def reply (addr : Text) (port : Port) (data : Bytes) (s : UdpSession) : UdpPacket where
  srcAddr := addr
  srcPort := port
  dstAddr := s.initialPacket.srcAddr
  dstPort := s.initialPacket.srcPort
  data := data

/-- `UDPSessionInternal::out_recv`. -/
def outRecv (data : Bytes) (s : UdpSession) : UdpSession × Bool :=
  let s := s.cancelTimer.asyncWaitTimer
  if s.status = .forward then
    if data.length ≤ 3 ∧ data.take 3 ≠ udpHead then (s.destroy, false)
    else
      match substr data 3 with
      | none => (s, true)
      | some socks5 =>
        match socks5ToAddrport socks5 with
        | none => (s.destroy, false)
        | some (res, addr, port) =>
          match substr data (res + 3) with
          | none => (s, true)
          | some payload =>
            ({ s with replies := s.replies ++ [s.reply addr port payload] }.outAsyncRead, false)
  else (s, false)

/-- The constructor. -/
def new (id : Nat) (initialPacket : UdpPacket) : UdpSession where
  id := id
  status := .handshake
  initialPacket := initialPacket
  sendQue := []
  tcpOpen := false
  outOpen := false
  outPeer := none
  ops := []
  waits := []
  alive := true
  accepted := [initialPacket]
  written := []
  sent := []
  replies := []
  armings := []

/-- `UDPSession::start`; `async_connect` opens the socket. -/
def start (s : UdpSession) : UdpSession :=
  { s.asyncWaitTimer with
    tcpOpen := true
    ops := s.ops ++ [⟨.connect, true⟩] }

/-- `UDPSession::process`; `none` is the result `false`. -/
def process (packet : UdpPacket) (fails : Bool) (s : UdpSession) : Option (UdpSession × Bool) :=
  if packet.srcAddr ≠ s.initialPacket.srcAddr ∨ packet.srcPort ≠ s.initialPacket.srcPort then none
  else some ({ s with accepted := s.accepted ++ [packet] }.inRecv packet fails)

/-! ### Life of the session object -/

/-- Some operation or wait holds a `shared_ptr` to the session. -/
def referenced (s : UdpSession) : Bool := !s.ops.isEmpty || !s.waits.isEmpty

/-- The last reference is gone: `~UDPSessionInternal`, and the weak pointers expire. -/
def release (s : UdpSession) : UdpSession :=
  if s.referenced then s else { s.destroy with alive := false }

end UdpSession

/-! ### Events -/

/-- The completions of a session's operations and waits, and the expiry of its timer. `read`
carries the data of a successful `async_read_some`, the result of a `connect` and which `send`
fails. -/
inductive UdpEvent where
  | connected (ok : Bool)
  | wrote (ok : Bool)
  | read (data : Bytes) (connectOk : Bool) (failing : Option Nat)
  | readError
  | received (data : Bytes)
  | receiveError
  | expire
  | waited (ok : Bool)
deriving DecidableEq, Repr

namespace UdpSession

/-- An operation of the kind is pending, and can succeed if it has to. -/
def pending (s : UdpSession) (kind : UdpOpKind) (ok : Bool) : Bool :=
  s.ops.any fun op => op.kind = kind && (op.usable || !ok)

/-- Its completion is delivered. -/
def complete (s : UdpSession) (kind : UdpOpKind) (ok : Bool) : UdpSession :=
  { s with ops := s.ops.eraseP fun op => op.kind = kind && (op.usable || !ok) }

/-- The wait whose completion has this outcome. -/
def outcome (ok : Bool) : Wait := if ok then .fired else .aborted

/-- The event can happen. -/
def enabled (s : UdpSession) : UdpEvent → Prop
  | .connected ok => s.alive ∧ s.pending .connect ok
  | .wrote ok => s.alive ∧ s.pending .tcpWrite ok
  | .read data _ _ =>
    s.alive ∧ s.pending .tcpRead true ∧ 0 < data.length ∧ data.length ≤ recvBufSize
  | .readError => s.alive ∧ s.pending .tcpRead false
  | .received data => s.alive ∧ s.pending .outRead true ∧ data.length ≤ recvBufSize
  | .receiveError => s.alive ∧ s.pending .outRead false
  | .expire => s.alive ∧ .armed ∈ s.waits
  | .waited ok => s.alive ∧ outcome ok ∈ s.waits

instance (s : UdpSession) (event : UdpEvent) : Decidable (s.enabled event) := by
  cases event <;> unfold enabled <;> infer_instance

/-- What the handler of the event does, and whether it throws. -/
def handle (s : UdpSession) : UdpEvent → UdpSession × Bool
  | .connected ok =>
    let s := s.complete .connect ok
    (if ok then s.tcpAsyncWrite greeting else s.destroy, false)
  | .wrote ok =>
    let s := s.complete .tcpWrite ok
    (if ok then s.tcpSent else s.destroy, false)
  | .read data connectOk failing => (s.complete .tcpRead true).tcpRecv data connectOk failing
  | .readError => ((s.complete .tcpRead false).destroy, false)
  | .received data => (s.complete .outRead true).outRecv data
  | .receiveError => ((s.complete .outRead false).destroy, false)
  | .expire => ({ s with waits := s.waits.replace .armed .fired }, false)
  | .waited ok =>
    let s := { s with waits := s.waits.erase (outcome ok) }
    (if ok then s.destroy else s, false)

/-- The effect of an event: its handler runs and lets go of the session. -/
def step (s : UdpSession) (event : UdpEvent) : UdpSession × Bool :=
  ((s.handle event).1.release, (s.handle event).2)

/-! ### What a handler keeps -/

/-- A handler leaves the endpoint of the session and the accepted datagrams alone, does not bring
it back to life, and addresses every reply to that endpoint. -/
structure Evolves (s t : UdpSession) : Prop where
  id : t.id = s.id
  initialPacket : t.initialPacket = s.initialPacket
  accepted : t.accepted = s.accepted
  alive : t.alive = true → s.alive = true
  addressed : (∀ reply ∈ s.replies, reply.destination = s.source) →
    ∀ reply ∈ t.replies, reply.destination = t.source

theorem Evolves.trans {s t u : UdpSession} (first : Evolves s t) (second : Evolves t u) :
    Evolves s u where
  id := second.id.trans first.id
  initialPacket := second.initialPacket.trans first.initialPacket
  accepted := second.accepted.trans first.accepted
  alive living := first.alive (second.alive living)
  addressed earlier := second.addressed (first.addressed earlier)

/-- Changing anything else. -/
theorem Evolves.of_eq {s t : UdpSession} (id : t.id = s.id)
    (initialPacket : t.initialPacket = s.initialPacket) (accepted : t.accepted = s.accepted)
    (alive : t.alive = s.alive) (replies : t.replies = s.replies) : Evolves s t := by
  refine ⟨id, initialPacket, accepted, fun living => alive.symm.trans living, ?_⟩
  rw [replies, source, source, initialPacket]
  exact fun earlier => earlier

theorem Evolves.refl (s : UdpSession) : Evolves s s := .of_eq rfl rfl rfl rfl rfl

theorem Evolves.source {s t : UdpSession} (evolves : Evolves s t) : t.source = s.source := by
  rw [UdpSession.source, UdpSession.source, evolves.initialPacket]

theorem evolves_destroy (s : UdpSession) : Evolves s s.destroy := by
  unfold destroy
  split
  · exact .refl s
  · exact .of_eq rfl rfl rfl rfl rfl

theorem evolves_inRecv (s : UdpSession) (packet : UdpPacket) (fails : Bool) :
    Evolves s (s.inRecv packet fails).1 := by
  unfold inRecv
  dsimp only
  split
  · split
    · exact .of_eq rfl rfl rfl rfl rfl
    · split <;> exact .of_eq rfl rfl rfl rfl rfl
  · exact .of_eq rfl rfl rfl rfl rfl

theorem evolves_inRecvAll (packets : List UdpPacket) (failing : Option Nat) (s : UdpSession) :
    Evolves s (inRecvAll failing packets s).1 := by
  induction packets generalizing failing s with
  | nil => exact .refl s
  | cons packet rest inductionHypothesis =>
    have first := s.evolves_inRecv packet (failing = some 0)
    unfold inRecvAll
    dsimp only
    split
    · exact first
    · exact first.trans (inductionHypothesis _ _)

theorem evolves_tcpRecv (s : UdpSession) (data : Bytes) (connectOk : Bool)
    (failing : Option Nat) : Evolves s (s.tcpRecv data connectOk failing).1 := by
  unfold tcpRecv
  split
  · split
    · exact s.evolves_destroy
    · exact .of_eq rfl rfl rfl rfl rfl
  · split
    · exact s.evolves_destroy
    · split
      · exact s.evolves_destroy
      · split
        · exact .refl s
        · split
          · refine Evolves.trans ?_ (evolves_inRecvAll _ _ _)
            exact .of_eq rfl rfl rfl rfl rfl
          · refine Evolves.trans ?_ (evolves_destroy _)
            exact .of_eq rfl rfl rfl rfl rfl
  · exact s.evolves_destroy
  · exact .refl s

theorem evolves_tcpSent (s : UdpSession) : Evolves s s.tcpSent := by
  unfold tcpSent
  split <;> exact .of_eq rfl rfl rfl rfl rfl

/-- The one place where a reply is made. -/
theorem evolves_outRecv (s : UdpSession) (data : Bytes) : Evolves s (s.outRecv data).1 := by
  have waiting : Evolves s s.cancelTimer.asyncWaitTimer := .of_eq rfl rfl rfl rfl rfl
  unfold outRecv
  dsimp only
  split
  · split_ifs
    · exact waiting.trans (evolves_destroy _)
    · split
      · exact waiting
      · split
        · exact waiting.trans (evolves_destroy _)
        · split
          · exact waiting
          · refine ⟨rfl, rfl, rfl, fun living => living, ?_⟩
            intro earlier reply member
            rcases List.mem_append.mp member with old | new
            · exact earlier reply old
            · rw [List.mem_singleton.mp new]
              rfl
  · exact waiting

theorem evolves_release (s : UdpSession) : Evolves s s.release := by
  unfold release
  split
  · exact .refl s
  · obtain ⟨id, initialPacket, accepted, _, addressed⟩ := s.evolves_destroy
    exact ⟨id, initialPacket, accepted, (fun wrong => by cases wrong), addressed⟩

theorem evolves_handle (s : UdpSession) (event : UdpEvent) : Evolves s (s.handle event).1 := by
  have completed (kind : UdpOpKind) (ok : Bool) : Evolves s (s.complete kind ok) :=
    .of_eq rfl rfl rfl rfl rfl
  cases event with
  | connected ok =>
    refine (completed .connect ok).trans ?_
    unfold handle
    dsimp only
    split
    · exact .of_eq rfl rfl rfl rfl rfl
    · exact evolves_destroy _
  | wrote ok =>
    refine (completed .tcpWrite ok).trans ?_
    unfold handle
    dsimp only
    split
    · exact evolves_tcpSent _
    · exact evolves_destroy _
  | read data connectOk failing =>
    exact (completed .tcpRead true).trans (evolves_tcpRecv _ data connectOk failing)
  | readError => exact (completed .tcpRead false).trans (evolves_destroy _)
  | received data => exact (completed .outRead true).trans (evolves_outRecv _ data)
  | receiveError => exact (completed .outRead false).trans (evolves_destroy _)
  | expire => exact .of_eq rfl rfl rfl rfl rfl
  | waited ok =>
    have waited : Evolves s { s with waits := s.waits.erase (outcome ok) } :=
      .of_eq rfl rfl rfl rfl rfl
    unfold handle
    dsimp only
    split
    · exact waited.trans (evolves_destroy _)
    · exact waited

theorem evolves_step (s : UdpSession) (event : UdpEvent) : Evolves s (s.step event).1 :=
  (s.evolves_handle event).trans (evolves_release _)

/-- A session that takes a datagram notes it and handles it. -/
theorem evolves_process {s t : UdpSession} {packet : UdpPacket} {fails threw : Bool}
    (taken : s.process packet fails = some (t, threw)) :
    Evolves { s with accepted := s.accepted ++ [packet] } t := by
  unfold process at taken
  split at taken
  · cases taken
  · have same := congrArg Prod.fst (Option.some.inj taken)
    dsimp only at same
    rw [← same]
    exact evolves_inRecv _ packet fails

/-- `process` takes exactly the datagrams of the session's endpoint. -/
theorem process_eq_none_iff (s : UdpSession) (packet : UdpPacket) (fails : Bool) :
    s.process packet fails = none ↔ packet.source ≠ s.source := by
  have different : packet.source ≠ s.source ↔
      packet.srcAddr ≠ s.initialPacket.srcAddr ∨ packet.srcPort ≠ s.initialPacket.srcPort := by
    rw [ne_eq, UdpPacket.source, source, UdpPacket.source, Prod.mk.injEq, not_and_or]
  rw [different, process]
  split
  · rename_i other
    exact ⟨fun _ => other, fun _ => rfl⟩
  · rename_i same
    exact ⟨(fun wrong => by cases wrong), fun other => absurd other same⟩

/-! ### What `in_recv` leaves alone -/

/-- Nothing has changed but the timer, the queue and what has been sent. -/
structure Relayed (s t : UdpSession) : Prop where
  status : t.status = s.status
  tcpOpen : t.tcpOpen = s.tcpOpen
  outOpen : t.outOpen = s.outOpen
  outPeer : t.outPeer = s.outPeer
  ops : t.ops = s.ops
  alive : t.alive = s.alive

theorem Relayed.trans {s t u : UdpSession} (first : Relayed s t) (second : Relayed t u) :
    Relayed s u where
  status := second.status.trans first.status
  tcpOpen := second.tcpOpen.trans first.tcpOpen
  outOpen := second.outOpen.trans first.outOpen
  outPeer := second.outPeer.trans first.outPeer
  ops := second.ops.trans first.ops
  alive := second.alive.trans first.alive

theorem relayed_inRecv (s : UdpSession) (packet : UdpPacket) (fails : Bool) :
    Relayed s (s.inRecv packet fails).1 := by
  unfold inRecv
  dsimp only
  split
  · split
    · exact ⟨rfl, rfl, rfl, rfl, rfl, rfl⟩
    · split <;> exact ⟨rfl, rfl, rfl, rfl, rfl, rfl⟩
  · exact ⟨rfl, rfl, rfl, rfl, rfl, rfl⟩

theorem relayed_inRecvAll (packets : List UdpPacket) (failing : Option Nat) (s : UdpSession) :
    Relayed s (inRecvAll failing packets s).1 := by
  induction packets generalizing failing s with
  | nil => exact ⟨rfl, rfl, rfl, rfl, rfl, rfl⟩
  | cons packet rest inductionHypothesis =>
    have first := s.relayed_inRecv packet (failing = some 0)
    unfold inRecvAll
    dsimp only
    split
    · exact first
    · exact first.trans (inductionHypothesis _ _)

/-- A session that takes a datagram only passes it on. -/
theorem relayed_process {s t : UdpSession} {packet : UdpPacket} {fails threw : Bool}
    (taken : s.process packet fails = some (t, threw)) : Relayed s t := by
  unfold process at taken
  split at taken
  · cases taken
  · have same := congrArg Prod.fst (Option.some.inj taken)
    dsimp only at same
    rw [← same]
    obtain ⟨status, tcpOpen, outOpen, outPeer, ops, alive⟩ :=
      relayed_inRecv { s with accepted := s.accepted ++ [packet] } packet fails
    exact ⟨status, tcpOpen, outOpen, outPeer, ops, alive⟩

end UdpSession

end Net2Tr
