/-
This file proves that the patched stack captures every connection: the active
pcbs have different 4-tuples, a segment is processed by the pcb with its 4-tuple
and by no other, a SYN for any address and port becomes a connection, and the
`Socket` and the session of a connection name the two ends of its SYN.

It ends with the run in which they do not: the client closes before the proxy has
chosen a method, lwIP frees the pcb, its block is used again, and the request of
the first connection names the destination of the second.
-/

import Libn2t.TcpStackInvariant

namespace Net2Tr

namespace TcpStack

variable {s t u : TcpStack}

/-! ### What a segment leaves alone -/

/-- From the first stack to the second nothing has happened to any pcb but this one, nor to any
socket but those that were handed out for it. -/
structure OnlyAbout (ref : PcbRef) (s t : TcpStack) : Prop where
  heap : ∀ other ≠ ref.pointer, t.heap other = s.heap other
  active : ∀ other ≠ ref.pointer, (other ∈ t.active ↔ other ∈ s.active)
  timeWait : ∀ other ≠ ref.pointer, (other ∈ t.timeWait ↔ other ∈ s.timeWait)
  sockets : ∀ (index : Nat) (socket : HandedSocket), socket.ref ≠ ref →
    (t.sockets[index]? = some socket ↔ s.sockets[index]? = some socket)
  queued : ∀ other ≠ ref, (other ∈ t.n2t.connectionQue ↔ other ∈ s.n2t.connectionQue)
  listen : t.listen = s.listen
  syns : t.syns = s.syns

theorem OnlyAbout.refl (ref : PcbRef) (s : TcpStack) : OnlyAbout ref s s :=
  ⟨fun _ _ => rfl, fun _ _ => Iff.rfl, fun _ _ => Iff.rfl, fun _ _ _ => Iff.rfl,
    fun _ _ => Iff.rfl, rfl, rfl⟩

theorem OnlyAbout.trans {ref : PcbRef} (first : OnlyAbout ref s t) (second : OnlyAbout ref t u) :
    OnlyAbout ref s u :=
  ⟨fun other different => (second.heap other different).trans (first.heap other different),
    fun other different => (second.active other different).trans (first.active other different),
    fun other different =>
      (second.timeWait other different).trans (first.timeWait other different),
    fun index socket different =>
      (second.sockets index socket different).trans (first.sockets index socket different),
    fun other different => (second.queued other different).trans (first.queued other different),
    second.listen.trans first.listen, second.syns.trans first.syns⟩

theorem onlyAbout_updatePcb (s : TcpStack) (ref : PcbRef) (f : TcpPcb → TcpPcb) :
    OnlyAbout ref s (s.updatePcb ref.pointer f) :=
  ⟨fun _ different => updatePcb_other different f, fun _ _ => Iff.rfl, fun _ _ => Iff.rfl,
    fun _ _ _ => Iff.rfl, fun _ _ => Iff.rfl, rfl, rfl⟩

theorem onlyAbout_free (s : TcpStack) (ref : PcbRef) : OnlyAbout ref s (s.free ref.pointer) :=
  ⟨fun _ different => updatePcb_other different _,
    fun _ different => List.mem_erase_of_ne different,
    fun _ different => List.mem_erase_of_ne different,
    fun _ _ _ => Iff.rfl, fun _ _ => Iff.rfl, rfl, rfl⟩

theorem onlyAbout_setState (s : TcpStack) (ref : PcbRef) (state : TcpState) :
    OnlyAbout ref s (s.setState ref.pointer state) := by
  have update := s.onlyAbout_updatePcb ref fun pcb => { pcb with state := state }
  unfold TcpStack.setState
  dsimp only
  split
  · refine update.trans ⟨fun _ _ => rfl, fun _ different => List.mem_erase_of_ne different,
      fun other different => ?_, fun _ _ _ => Iff.rfl, fun _ _ => Iff.rfl, rfl, rfl⟩
    exact List.mem_cons.trans (or_iff_right different)
  · exact update

/-- The callbacks of the pcb go to a socket that was handed out for it. -/
structure Bound (ref : PcbRef) (s : TcpStack) : Prop where
  syn : (s.heap ref.pointer).syn = ref.syn
  socket : ∀ index, (s.heap ref.pointer).callbackArg = some index →
    ∃ socket, s.sockets[index]? = some socket ∧ socket.ref = ref

theorem Bound.keep {ref : PcbRef} (bound : Bound ref s)
    (syn : (t.heap ref.pointer).syn = (s.heap ref.pointer).syn)
    (arg : (t.heap ref.pointer).callbackArg = (s.heap ref.pointer).callbackArg)
    (sockets : t.sockets = s.sockets) : Bound ref t := by
  refine ⟨syn.trans bound.syn, fun index found => ?_⟩
  rw [sockets]
  exact bound.socket index (arg.symm.trans found)

theorem Bound.updatePcb {ref : PcbRef} (bound : Bound ref s) (f : TcpPcb → TcpPcb) :
    Bound ref (s.updatePcb ref.pointer f) := by
  have block := s.updatePcb_self ref.pointer f
  exact bound.keep (by rw [block]) (by rw [block]) rfl

/-- A callback reaches no other socket. -/
theorem Bound.callback {ref : PcbRef} (bound : Bound ref s) (f : TcpSession → TcpSession) :
    OnlyAbout ref s (s.callback ref.pointer f) ∧ Bound ref (s.callback ref.pointer f) := by
  unfold TcpStack.callback
  cases arg : (s.heap ref.pointer).callbackArg with
  | none => exact ⟨.refl _ _, bound⟩
  | some index =>
    obtain ⟨socket, found, same⟩ := bound.socket index arg
    have inside : index < s.sockets.length := (List.getElem?_eq_some_iff.mp found).1
    dsimp only
    rw [call_some found, same]
    have updated := bound.updatePcb fun _ => (f (s.load socket)).pcb
    refine ⟨(s.onlyAbout_updatePcb ref fun _ => (f (s.load socket)).pcb).trans
      ⟨fun _ _ => rfl, fun _ _ => Iff.rfl, fun _ _ => Iff.rfl, fun number other different => ?_,
        fun _ _ => Iff.rfl, rfl, rfl⟩, updated.syn, fun number live => ?_⟩
    · by_cases here : index = number
      · subst here
        refine iff_of_false ?_ ?_
        · intro wrong
          rw [List.getElem?_set_self inside] at wrong
          cases wrong
          exact different rfl
        · intro wrong
          cases found.symm.trans wrong
          exact different same
      · rw [List.getElem?_set_ne here]
        exact Iff.rfl
    · obtain ⟨other, at', otherRef⟩ := updated.socket number live
      by_cases here : index = number
      · subst here
        exact ⟨_, List.getElem?_set_self inside, rfl⟩
      · exact ⟨other, (List.getElem?_set_ne here).trans at', otherRef⟩

/-- One more entry makes no difference to the others. -/
theorem recorded_iff {Entry : Type} {entries : List Entry} {entry new : Entry}
    (different : entry ≠ new) (index : Nat) :
    (entries ++ [new])[index]? = some entry ↔ entries[index]? = some entry := by
  refine ⟨fun found => ?_, fun found => recorded found _⟩
  by_cases inside : index < entries.length
  · rw [List.getElem?_append_left inside] at found
    exact found
  · rw [List.getElem?_append_right (Nat.le_of_not_lt inside)] at found
    exact absurd (List.mem_singleton.mp (List.mem_of_getElem? found)) different

/-- The accept callback hands out or queues the pcb it is called for. -/
theorem Bound.acceptCallback {ref : PcbRef} (bound : Bound ref s) :
    OnlyAbout ref s (s.acceptCallback ref.pointer) ∧
      Bound ref (s.acceptCallback ref.pointer) := by
  have self : s.ref ref.pointer = ref := by rw [TcpStack.ref, bound.syn]
  unfold TcpStack.acceptCallback N2T.acceptCallback
  rw [if_pos rfl, self]
  cases s.n2t.newConnection with
  | none =>
    refine ⟨⟨fun _ _ => rfl, fun _ _ => Iff.rfl, fun _ _ => Iff.rfl, fun _ _ _ => Iff.rfl,
      fun other different => ?_, rfl, rfl⟩, bound.syn, bound.socket⟩
    show other ∈ s.n2t.connectionQue ++ [ref] ↔ _
    rw [List.mem_append, List.mem_singleton]
    exact or_iff_left different
  | some handler =>
    have block := handOut_self
      { s with n2t := { s.n2t with newConnection := none } } ⟨s.n2t.pendingSocket, ref, handler⟩
    refine ⟨⟨fun _ different => Function.update_of_ne different _ _, fun _ _ => Iff.rfl,
      fun _ _ => Iff.rfl, fun index other different => ?_, fun _ _ => Iff.rfl, rfl, rfl⟩, ?_,
      fun index arg => ?_⟩
    · exact recorded_iff (fun same => different (congrArg HandedSocket.ref same)) index
    · exact (congrArg TcpBlock.syn block).trans bound.syn
    · have number : s.sockets.length = index :=
        Option.some.inj ((congrArg TcpBlock.callbackArg block).symm.trans arg)
      exact ⟨_, number ▸ List.getElem?_concat_length, rfl⟩

theorem Works.onlyAbout {ref : PcbRef} (works : Works ref.pointer s t) (bound : Bound ref s) :
    OnlyAbout ref s t ∧ Bound ref t := by
  induction works with
  | idle => exact ⟨.refl ref s, bound⟩
  | @free t _ kept =>
    have freed := kept.2.updatePcb TcpPcb.free
    exact ⟨kept.1.trans (t.onlyAbout_free ref), freed.syn, freed.socket⟩
  | @close t _ kept =>
    exact ⟨kept.1.trans (t.onlyAbout_updatePcb ref TcpPcb.close), kept.2.updatePcb TcpPcb.close⟩
  | @setState t _ _ state kept =>
    have block := congrFun (t.setState_heap ref.pointer state) ref.pointer
    rw [updatePcb_self] at block
    exact ⟨kept.1.trans (t.onlyAbout_setState ref state),
      kept.2.keep (by rw [block]) (by rw [block]) (t.setState_others ref.pointer state).1⟩
  | @callback t _ f _ kept =>
    obtain ⟨about, still⟩ := kept.2.callback f
    exact ⟨kept.1.trans about, still⟩
  | accept _ _ kept =>
    obtain ⟨about, still⟩ := kept.2.acceptCallback
    exact ⟨kept.1.trans about, still⟩

/-- A segment for an active pcb concerns that pcb only. -/
theorem Sound.onlyAbout_input (sound : s.Sound) {segment : TcpSegment}
    (passes : segment.passes = true) {pcb : Nat} (member : pcb ∈ s.active)
    (same : (s.heap pcb).pcb.tuple = segment.tuple) (found : Received) (place : Option Nat)
    (enqueued : Bool) :
    OnlyAbout (s.ref pcb) s (s.input segment found place enqueued) := by
  have live := sound.listed.live member
  rw [sound.listed.input_active passes member same]
  have moved := sound.moveToFront member
  have works : Works (s.ref pcb).pointer { s with active := pcb :: s.active.erase pcb } _ :=
    works_process (s := { s with active := pcb :: s.active.erase pcb }) live
      List.mem_cons_self segment found
  have reordered : OnlyAbout (s.ref pcb) s { s with active := pcb :: s.active.erase pcb } :=
    ⟨fun _ _ => rfl, fun _ _ => (List.perm_cons_erase member).mem_iff.symm, fun _ _ => Iff.rfl,
      fun _ _ _ => Iff.rfl, fun _ _ => Iff.rfl, rfl, rfl⟩
  exact reordered.trans (works.onlyAbout ⟨rfl, fun index => moved.bound pcb index live⟩).1

end TcpStack

/-! ### Captured connections -/

/-- What the methods of a `Socket` say of its pcb are the ends of a SYN. -/
structure FourTuple.Reported (tuple : FourTuple) (pcb : TcpPcb) : Prop where
  srcAddr : Socket.srcAddr pcb = (IpCell.of tuple.remoteIp).ntoa
  srcPort : Socket.srcPort pcb = tuple.remotePort
  dstAddr : Socket.dstAddr pcb = (IpCell.of tuple.localIp).ntoa
  dstPort : Socket.dstPort pcb = tuple.localPort

theorem FourTuple.Reported.of_ends {tuple : FourTuple} {pcb : TcpPcb}
    (ends : pcb.ends = tuple.ends) : tuple.Reported pcb :=
  ⟨congrArg (fun ends => ends.remoteIp.ntoa) ends, congrArg Ends.remotePort ends,
    congrArg (fun ends => ends.localIp.ntoa) ends, congrArg Ends.localPort ends⟩

/-- The `CONNECT` request for the destination of a SYN. -/
def FourTuple.connect (tuple : FourTuple) : Bytes :=
  connectHead ++ tuple.localIp.atyp :: tuple.localIp.bytes ++ beBytes2 tuple.localPort.toNat

/-- A new connection in the state `SYN_RCVD` with the 4-tuple of a SYN, which is the next on
record. -/
structure TcpStack.Connected (pcb : Nat) (tuple : FourTuple) (s t : TcpStack) : Prop where
  active : t.active = pcb :: s.active
  ends : (t.heap pcb).pcb.tuple = tuple
  live : (t.heap pcb).pcb.freed = false
  state : (t.heap pcb).pcb.state = .synRcvd
  syn : t.ref pcb = ⟨pcb, s.syns.length⟩
  syns : t.syns = s.syns ++ [tuple]

/-- Connections are captured: the active pcbs have different 4-tuples; a segment with the 4-tuple
of one is processed by it and by no other; a SYN with a 4-tuple that no pcb has becomes a
connection whatever its destination; and every `Socket` reports the ends of the SYN it was handed
out for, when it was handed out and as long as lwIP owns its pcb, and its session requests the
destination of that SYN. -/
structure TcpStack.Captured (s : TcpStack) : Prop where
  distinct : (s.active.map fun pcb => (s.heap pcb).pcb.tuple).Nodup
  demultiplexed : ∀ (segment : TcpSegment) found place enqueued, segment.passes = true →
    ∀ pcb ∈ s.active, (s.heap pcb).pcb.tuple = segment.tuple →
      s.step (.segment segment found place enqueued) =
        { s with active := pcb :: s.active.erase pcb }.process pcb segment found ∧
      OnlyAbout (s.ref pcb) s (s.step (.segment segment found place enqueued))
  created : ∀ (segment : TcpSegment) found place, segment.passes = true →
    segment.has tcpSyn = true → segment.has tcpAck = false → segment.has tcpRst = false →
    (∀ pcb ∈ s.active ++ s.timeWait, (s.heap pcb).pcb.tuple ≠ segment.tuple) →
      Connected place segment.tuple s (s.step (.segment segment found (some place) true))
  reported : ∀ socket ∈ s.sockets, ∃ tuple, s.syns[socket.ref.syn]? = some tuple ∧
    tuple.Reported socket.pcb ∧
    (s.owns socket.ref = true → tuple.Reported (s.heap socket.ref.pointer).pcb) ∧
    (socket.session.requested = none ∨ socket.session.requested = some tuple.connect)

theorem TcpStack.Sound.captured {s : TcpStack} (sound : s.Sound) : s.Captured := by
  refine ⟨sound.listed.distinct, fun segment found place enqueued passes pcb member same =>
    ⟨sound.listed.input_active passes member same found place enqueued,
      sound.onlyAbout_input passes member same found place enqueued⟩,
    fun segment found place passes syn ack rst fresh => ?_, fun socket member => ?_⟩
  · have listening : s.step (.segment segment found (some place) true) =
        s.register place n2tListener segment := by
      refine (sound.listed.input_listen passes fresh found (some place) true).trans ?_
      simp [TcpStack.listenInput, syn, ack, rst]
    have block : (s.register place n2tListener segment).heap place =
        s.synBlock n2tListener segment := Function.update_self _ _ _
    rw [listening]
    refine ⟨rfl, ?_, ?_, ?_, ?_, rfl⟩
    · rw [block]
      exact TcpPcb.tuple_of_ends (s.synBlock_ends n2tListener segment)
    · rw [block]
      rfl
    · rw [block]
      rfl
    · rw [TcpStack.ref, block]
      rfl
  · obtain ⟨tuple, born, bears⟩ := sound.handed socket member
    have connects : connectRequest (.of tuple.localIp) tuple.localPort = some tuple.connect :=
      connectRequest_eq _ _
    refine ⟨tuple, born, .of_ends bears.ends,
      fun owned => .of_ends (sound.listed.ends_of_owns owned born), ?_⟩
    rw [← connects]
    exact bears.named

/-- Whatever segments arrive, and whatever lwIP, the `N2T` and the sessions do in between,
connections are captured in every run in which no pcb is handed out after lwIP has freed it and no
session builds its request from such a pcb or closes it. -/
theorem connections_captured (inp : Netif) (events : List TcpStackEvent)
    (guarded : tcpStackSystem.Guarded TcpStack.KeepsToPcbs (.new inp) events) :
    (tcpStackSystem.run events (.new inp)).Captured :=
  (TcpStack.sound_run inp guarded).captured

theorem IpCell.of_v4_isV6 (src dest : Ip4Addr) :
    (IpCell.of (.v4 src)).ip.isV6 = (IpCell.of (.v4 dest)).ip.isV6 := rfl

/-- A segment from `10.0.0.2` without data. -/
abbrev sampleTcpSegment (dest : Ip4Addr) (header : Bytes) : TcpSegment where
  current :=
    ⟨.of (.v4 ⟨0x0A000002⟩), .of (.v4 dest), IpCell.of_v4_isV6 ⟨0x0A000002⟩ dest⟩
  p := ⟨⟨header, false⟩, []⟩

/-- A SYN for `10.0.0.1:443`. -/
abbrev sampleSyn : TcpSegment := sampleTcpSegment ⟨0x0A000001⟩
  [19, 136, 1, 187, 0, 0, 0, 0, 0, 0, 0, 0, 80, 2, 32, 0, 102, 157, 0, 0]

/-- The ACK that completes the handshake when lwIP has started from its first sequence number. -/
abbrev sampleAck : TcpSegment := sampleTcpSegment ⟨0x0A000001⟩
  [19, 136, 1, 187, 0, 0, 0, 1, 0, 0, 25, 111, 80, 16, 32, 0, 77, 31, 0, 0]

/-- Nothing acceptable or new in a segment. -/
abbrev nothingReceived : Received where
  rstAcceptable := false
  ackExpected := false
  allAcked := false
  acked := 0
  data := []
  gotFin := false

/-- A connection for `10.0.0.1:443` and the start of its session. -/
abbrev acceptedRun : List TcpStackEvent :=
  [.asyncAccept, .segment sampleSyn nothingReceived (some 0) true,
    .segment sampleAck { nothingReceived with ackExpected := true } none true,
    .session 0 (.connected true), .session 0 (.wrote true)]

/-- The request is sent for a connection that is still open. -/
abbrev requestedRun : List TcpStackEvent := acceptedRun ++ [.session 0 (.read methodReply true)]

theorem connections_captured_open : (tcpStackSystem.run requestedRun (.new ⟨1, 0⟩)).Captured :=
  connections_captured ⟨1, 0⟩ requestedRun (by decide +kernel)

/-- Before the proxy has chosen a method the client closes and acknowledges the FIN it gets, and the
block of the pcb is used again for a connection to `10.0.0.9:80`. -/
abbrev recapturedRun : List TcpStackEvent :=
  acceptedRun ++
    [.segment
      (sampleTcpSegment ⟨0x0A000001⟩
        [19, 136, 1, 187, 0, 0, 0, 1, 0, 0, 25, 111, 80, 17, 32, 0, 77, 30, 0, 0])
      { nothingReceived with gotFin := true } none true,
    .segment
      (sampleTcpSegment ⟨0x0A000001⟩
        [19, 136, 1, 187, 0, 0, 0, 2, 0, 0, 25, 112, 80, 16, 32, 0, 77, 29, 0, 0])
      { nothingReceived with allAcked := true } none true,
    .segment
      (sampleTcpSegment ⟨0x0A000009⟩
        [19, 137, 0, 80, 0, 0, 0, 0, 0, 0, 0, 0, 80, 2, 32, 0, 103, 255, 0, 0])
      nothingReceived (some 0) true,
    .session 0 (.read methodReply true)]

/-- The request of the first connection then names the destination of the second. -/
theorem connections_captured_reused :
    tcpStackSystem.Legal (.new ⟨1, 0⟩) recapturedRun ∧
      ¬ (tcpStackSystem.run recapturedRun (.new ⟨1, 0⟩)).Captured := by
  refine ⟨by decide +kernel, fun captured => ?_⟩
  have wrong : ∃ socket ∈ (tcpStackSystem.run recapturedRun (.new ⟨1, 0⟩)).sockets,
      (tcpStackSystem.run recapturedRun (.new ⟨1, 0⟩)).syns[socket.ref.syn]? =
        some sampleSyn.tuple ∧
      socket.session.requested ≠ none ∧
      socket.session.requested ≠ some sampleSyn.tuple.connect := by decide +kernel
  obtain ⟨socket, member, recorded, sent, other⟩ := wrong
  obtain ⟨tuple, born, _, _, requested⟩ := captured.reported socket member
  cases recorded.symm.trans born
  exact requested.elim sent other

end Net2Tr
