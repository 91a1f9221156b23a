/-
This file is about the handshake of a `UDPSession` with the proxy: when does the
association stand, however TCP cuts the proxy's bytes into reads?

The session takes each read for one message. It reaches `FORWARD` exactly if
the first read is the method reply and the second one starts with a complete
success reply, whatever comes behind that in the same read or later. So a reply
in two pieces is refused, and a stream with bytes behind the reply is accepted.
-/

import Libn2t.UdpReply

namespace Net2Tr

/-- A success reply to `UDP ASSOCIATE` with the address and the port of the relay. -/
def AssociateReply (reply : Bytes) (address : Address) (port : Port) : Prop :=
  address.WellFormed ∧ reply = replyHead ++ address.socks5 ++ portBytes port

/-- Bytes that start with a success reply. -/
def StartsWithReply (data : Bytes) (address : Address) (port : Port) : Prop :=
  ∃ reply, AssociateReply reply address port ∧ reply <+: data

/-- The data of the reads on the control connection. -/
def controlReads (events : List UdpRunEvent) : List Bytes :=
  events.filterMap fun event =>
    match event with
    | .completion (.read data _ _) => some data
    | _ => none

theorem controlReads_append (first second : List UdpRunEvent) :
    controlReads (first ++ second) = controlReads first ++ controlReads second :=
  List.filterMap_append

namespace UdpSession

/-- Nothing goes wrong: no error on the control connection, `connect` succeeds, and the timer does
not expire. -/
def Untroubled (_ : UdpSession) : UdpRunEvent → Prop
  | .process _ => True
  | .completion (.connected ok) => ok = true
  | .completion (.wrote ok) => ok = true
  | .completion (.read _ connectOk _) => connectOk = true
  | .completion (.received _) => True
  | .completion (.waited ok) => ok = false
  | .completion _ => False

instance (s : UdpSession) (event : UdpRunEvent) : Decidable (s.Untroubled event) :=
  match event with
  | .process _ | .completion (.received _) => isTrue trivial
  | .completion (.connected ok) | .completion (.wrote ok) =>
    inferInstanceAs (Decidable (ok = true))
  | .completion (.read _ connectOk _) => inferInstanceAs (Decidable (connectOk = true))
  | .completion (.waited ok) => inferInstanceAs (Decidable (ok = false))
  | .completion .readError | .completion .receiveError | .completion .expire => isFalse not_false

/-- The association with this relay stands. -/
def Associated (s : UdpSession) (address : Address) (port : Port) : Prop :=
  s.status = .forward ∧ s.outPeer = some (address, port)

/-- Every untroubled run over these reads gets to the association, and every untroubled run over
some first part of them can go on to all of them. -/
def Associates (s : UdpSession) (chunks : List Bytes) (address : Address) (port : Port) : Prop :=
  (∀ events, udpSessionSystem.Guarded Untroubled s events → controlReads events = chunks →
    ∃ first, first <+: events ∧ (udpSessionSystem.run first s).Associated address port) ∧
  ∀ events, udpSessionSystem.Guarded Untroubled s events → controlReads events <+: chunks →
    ∃ more, udpSessionSystem.Guarded Untroubled (udpSessionSystem.run events s) more ∧
      controlReads (events ++ more) = chunks

/-- The session associates with the relay that the method reply and a success reply name, if the
reads are these two replies cut anyhow, and otherwise no run over the reads gets to `FORWARD`. -/
def AssociatesExactly (s : UdpSession) (chunks : List Bytes) : Prop :=
  (∀ reply address port, AssociateReply reply address port →
    chunks.flatten = methodReply ++ reply → s.Associates chunks address port) ∧
  ((∀ reply address port, AssociateReply reply address port →
      chunks.flatten ≠ methodReply ++ reply) →
    ∀ events, udpSessionSystem.Legal s events → controlReads events <+: chunks →
      (udpSessionSystem.run events s).status ≠ .forward)

/-! ### What a read does -/

/-- `out_sock` is connected to the relay and both sockets are read, before the flush. -/
def associated (address : Address) (port : Port) (s : UdpSession) : UdpSession :=
  { s with
    outOpen := true
    outPeer := some (address, port)
    status := .forward }.tcpAsyncRead.outAsyncRead

/-- What passes the check of the head and is decoded starts with a success reply. -/
theorem exists_reply {data : Bytes} (head : data.take 3 = replyHead)
    (field : Socks5Field (data.drop 3)) :
    ∃ reply address port rest, AssociateReply reply address port ∧ data = reply ++ rest := by
  obtain ⟨address, wellFormed, high, low, rest, shape⟩ := field.exists_address
  refine ⟨_, address, portOf high low, rest, ⟨wellFormed, rfl⟩, ?_⟩
  rw [portBytes_portOf, ← head, List.append_assoc, List.append_assoc]
  exact (List.take_append_drop 3 data).symm.trans (congrArg (data.take 3 ++ ·) shape)

/-- A success reply connects `out_sock` to the relay, whatever comes behind it. -/
theorem tcpRecv_reply {s : UdpSession} (request : s.status = .request) {reply : Bytes}
    {address : Address} {port : Port} (success : AssociateReply reply address port)
    (rest : Bytes) (failing : Option Nat) :
    s.tcpRecv (reply ++ rest) true failing =
      inRecvAll failing (s.initialPacket :: s.sendQue) (s.associated address port) := by
  obtain ⟨wellFormed, rfl⟩ := success
  obtain ⟨high, low, bytes, value⟩ := portOf_portBytes port
  have behind : (replyHead ++ address.socks5 ++ portBytes port ++ rest).drop 3 =
      address.socks5 ++ high :: low :: rest := by
    rw [bytes, List.append_assoc, List.append_assoc]
    rfl
  have passed : ¬ ((replyHead ++ address.socks5 ++ portBytes port ++ rest).length ≤ 3 ∨
      (replyHead ++ address.socks5 ++ portBytes port ++ rest).take 3 ≠ replyHead) := by
    rintro (short | other)
    · rw [bytes] at short
      simp only [replyHead, List.length_append, List.length_cons] at short
      omega
    · refine other ?_
      rw [List.append_assoc, List.append_assoc]
      rfl
  unfold tcpRecv
  rw [request]
  dsimp only
  rw [if_neg passed, behind, socks5ToAddrport_socks5 address wellFormed]
  dsimp only
  rw [address.fromString_text wellFormed, value]
  rfl

/-- A read destroys the session, or is the method reply, or starts with a success reply. -/
theorem tcpRecv_cases (s : UdpSession) (data : Bytes) (connectOk : Bool)
    (failing : Option Nat) :
    (s.tcpRecv data connectOk failing).1.status = .destroy ∨
    (s.status = .handshake ∧ data = methodReply ∧ s.tcpRecv data connectOk failing =
      ({ s with status := .request }.tcpAsyncWrite associateRequest, false)) ∨
    (s.status = .request ∧ connectOk = true ∧ ∃ reply address port rest,
      AssociateReply reply address port ∧ data = reply ++ rest ∧
      s.tcpRecv data connectOk failing =
        inRecvAll failing (s.initialPacket :: s.sendQue) (s.associated address port)) := by
  cases status : s.status with
  | handshake =>
    unfold tcpRecv
    rw [status]
    dsimp only
    split
    · exact Or.inl s.destroy_status
    · rename_i same
      exact Or.inr (Or.inl ⟨rfl, not_not.mp same, rfl⟩)
  | request =>
    by_cases passed : data.take 3 = replyHead ∧ Socks5Field (data.drop 3)
    · obtain ⟨reply, address, port, rest, success, rfl⟩ := exists_reply passed.1 passed.2
      cases connectOk with
      | true =>
        exact Or.inr (Or.inr ⟨rfl, rfl, reply, address, port, rest, success, rfl,
          tcpRecv_reply status success rest failing⟩)
      | false =>
        refine Or.inl ?_
        unfold tcpRecv
        rw [status]
        dsimp only
        split
        · exact s.destroy_status
        · split
          · exact s.destroy_status
          · rename_i decoded
            obtain ⟨_, parsed, accepted⟩ := socks5ToAddrport_accepted decoded
            rw [accepted]
            exact destroy_status _
    · refine Or.inl ?_
      unfold tcpRecv
      rw [status]
      dsimp only
      split
      · exact s.destroy_status
      · rename_i head
        have noField : ¬ Socks5Field (data.drop 3) := fun field =>
          passed ⟨not_not.mp (not_or.mp head).2, field⟩
        rw [socks5ToAddrport_eq_none noField]
        exact s.destroy_status
  | forward =>
    refine Or.inl ?_
    unfold tcpRecv
    rw [status]
    exact s.destroy_status
  | destroy =>
    refine Or.inl ?_
    unfold tcpRecv
    rw [status]
    exact status

/-- A success reply passes both checks. -/
theorem reply_passes {reply : Bytes} {address : Address} {port : Port}
    (success : AssociateReply reply address port) (rest : Bytes) :
    (reply ++ rest).take 3 = replyHead ∧
      (socks5ToAddrport ((reply ++ rest).drop 3)).isSome = true := by
  obtain ⟨wellFormed, rfl⟩ := success
  obtain ⟨high, low, bytes, _⟩ := portOf_portBytes port
  have behind : (replyHead ++ address.socks5 ++ portBytes port ++ rest).drop 3 =
      address.socks5 ++ high :: low :: rest := by
    rw [bytes, List.append_assoc, List.append_assoc]
    rfl
  rw [behind, socks5ToAddrport_socks5 address wellFormed, List.append_assoc, List.append_assoc]
  exact ⟨rfl, rfl⟩

/-- The read enters `FORWARD`: it passes both checks in `REQUEST`, and the `connect` works. -/
def EntersForward (s : UdpSession) (data : Bytes) (connectOk : Bool) : Prop :=
  s.status = .request ∧ connectOk = true ∧ data.take 3 = replyHead ∧
    (socks5ToAddrport (data.drop 3)).isSome = true

instance (s : UdpSession) (data : Bytes) (connectOk : Bool) :
    Decidable (s.EntersForward data connectOk) :=
  inferInstanceAs (Decidable (_ ∧ _ ∧ _ ∧ _))

theorem EntersForward.run {s : UdpSession} {data : Bytes} {connectOk : Bool}
    (enters : s.EntersForward data connectOk) (failing : Option Nat) :
    ∃ address port, s.tcpRecv data connectOk failing =
      inRecvAll failing (s.initialPacket :: s.sendQue) (s.associated address port) := by
  obtain ⟨request, rfl, head, accepted⟩ := enters
  have field : Socks5Field (data.drop 3) := by
    by_contra other
    rw [socks5ToAddrport_eq_none other] at accepted
    cases accepted
  obtain ⟨reply, address, port, rest, success, rfl⟩ := exists_reply head field
  exact ⟨address, port, tcpRecv_reply request success rest failing⟩

/-- Any other read destroys the session or is the method reply. -/
theorem tcpRecv_other {s : UdpSession} {data : Bytes} {connectOk : Bool}
    (other : ¬ s.EntersForward data connectOk) (failing : Option Nat) :
    (s.tcpRecv data connectOk failing).1.status = .destroy ∨
    (s.status = .handshake ∧ data = methodReply ∧ s.tcpRecv data connectOk failing =
      ({ s with status := .request }.tcpAsyncWrite associateRequest, false)) := by
  rcases s.tcpRecv_cases data connectOk failing with
    destroyed | method | ⟨request, connected, reply, address, port, rest, success, rfl, _⟩
  · exact Or.inl destroyed
  · exact Or.inr method
  · exact absurd ⟨request, connected, reply_passes success rest⟩ other

/-! ### The reads of every run -/

/-- What has been read in a session of this status. -/
structure HasRead (s : UdpSession) (reads : List Bytes) : Prop where
  handshake : s.status = .handshake → reads = []
  request : s.status = .request → reads = [methodReply]
  forward : s.status = .forward →
    ∃ second rest, reads = methodReply :: second :: rest ∧
      ∃ address port, StartsWithReply second address port

theorem HasRead.of_destroyed {s : UdpSession} (destroyed : s.status = .destroy)
    (reads : List Bytes) : s.HasRead reads := by
  refine ⟨fun wrong => ?_, fun wrong => ?_, fun wrong => ?_⟩ <;> cases destroyed.symm.trans wrong

theorem HasRead.of_status {s t : UdpSession} {reads : List Bytes} (hasRead : s.HasRead reads)
    (same : t.status = s.status) : t.HasRead reads := by
  refine ⟨?_, ?_, ?_⟩ <;> rw [same]
  · exact hasRead.handshake
  · exact hasRead.request
  · exact hasRead.forward

theorem HasRead.of_status_or {s t : UdpSession} {reads : List Bytes} (hasRead : s.HasRead reads)
    (same : t.status = s.status ∨ t.status = .destroy) : t.HasRead reads := by
  rcases same with same | destroyed
  · exact hasRead.of_status same
  · exact .of_destroyed destroyed reads

theorem release_status (s : UdpSession) :
    s.release.status = s.status ∨ s.release.status = .destroy := by
  unfold release
  split
  · exact Or.inl rfl
  · exact Or.inr s.destroy_status

theorem outRecv_status (s : UdpSession) (data : Bytes) :
    (s.outRecv data).1.status = s.status ∨ (s.outRecv data).1.status = .destroy := by
  unfold outRecv
  dsimp only
  split
  · split
    · exact Or.inr (destroy_status _)
    · split
      · exact Or.inl rfl
      · split
        · exact Or.inr (destroy_status _)
        · split <;> exact Or.inl rfl
  · exact Or.inl rfl

/-- Only a read on the control connection leads to another status than `DESTROY`. -/
theorem handle_status (s : UdpSession) {event : UdpEvent}
    (other : ∀ data connectOk failing, event ≠ .read data connectOk failing) :
    (s.handle event).1.status = s.status ∨ (s.handle event).1.status = .destroy := by
  cases event with
  | connected ok =>
    cases ok with
    | false => exact Or.inr (destroy_status _)
    | true => exact Or.inl rfl
  | wrote ok =>
    cases ok with
    | false => exact Or.inr (destroy_status _)
    | true =>
      refine Or.inl ?_
      change (s.complete .tcpWrite true).tcpSent.status = _
      unfold tcpSent
      split <;> rfl
  | read data connectOk failing => exact absurd rfl (other data connectOk failing)
  | readError => exact Or.inr (destroy_status _)
  | received data => exact outRecv_status _ data
  | receiveError => exact Or.inr (destroy_status _)
  | expire => exact Or.inl rfl
  | waited ok =>
    cases ok with
    | false => exact Or.inl rfl
    | true => exact Or.inr (destroy_status _)

theorem HasRead.step {s : UdpSession} {reads : List Bytes} (hasRead : s.HasRead reads)
    (event : UdpRunEvent) : (s.runStep event).HasRead (reads ++ controlReads [event]) := by
  cases event with
  | process packet =>
    rw [show controlReads [.process packet] = [] from rfl, List.append_nil]
    change (((s.process packet false).map Prod.fst).getD s).HasRead reads
    cases taken : s.process packet false with
    | none => exact hasRead
    | some result => exact hasRead.of_status (relayed_process taken).status
  | completion event =>
    by_cases isRead : ∃ data connectOk failing, event = .read data connectOk failing
    · obtain ⟨data, connectOk, failing, rfl⟩ := isRead
      refine HasRead.of_status_or ?_ (release_status _)
      change ((s.complete .tcpRead true).tcpRecv data connectOk failing).1.HasRead
        (reads ++ [data])
      rcases (s.complete .tcpRead true).tcpRecv_cases data connectOk failing with
        destroyed | ⟨handshake, rfl, run⟩ |
          ⟨request, _, reply, address, port, rest, success, rfl, run⟩
      · exact .of_destroyed destroyed _
      · rw [run, hasRead.handshake handshake]
        exact ⟨(fun wrong => by cases wrong), fun _ => rfl, (fun wrong => by cases wrong)⟩
      · rw [run, hasRead.request request]
        have status := (relayed_inRecvAll (s.initialPacket :: s.sendQue) failing
          ((s.complete .tcpRead true).associated address port)).status
        refine HasRead.of_status (s := (s.complete .tcpRead true).associated address port) ?_ status
        exact ⟨(fun wrong => by cases wrong), (fun wrong => by cases wrong), fun _ =>
          ⟨_, [], rfl, address, port, reply, success, List.prefix_append _ _⟩⟩
    · have silent : controlReads [.completion event] = [] := by
        cases event with
        | read data connectOk failing => exact absurd ⟨data, connectOk, failing, rfl⟩ isRead
        | connected ok | wrote ok | readError | received data | receiveError | expire | waited ok =>
          rfl
      rw [silent, List.append_nil]
      refine HasRead.of_status_or (hasRead.of_status_or (s.handle_status ?_)) (release_status _)
      rintro data connectOk failing rfl
      exact isRead ⟨data, connectOk, failing, rfl⟩

/-- A run of the session, with the reads in it. -/
theorem HasRead.run {s : UdpSession} {reads : List Bytes} (hasRead : s.HasRead reads)
    (events : List UdpRunEvent) :
    (udpSessionSystem.run events s).HasRead (reads ++ controlReads events) := by
  induction events generalizing s reads with
  | nil =>
    rw [show controlReads [] = [] from rfl, List.append_nil]
    exact hasRead
  | cons event rest inductionHypothesis =>
    rw [← List.singleton_append, controlReads_append, ← List.append_assoc]
    exact inductionHypothesis (hasRead.step event)

/-! ### Untroubled runs -/

/-- An open session on its way through the handshake: one operation is pending, and it can
succeed. -/
structure Handshaking (s : UdpSession) (reads : List Bytes) : Prop where
  alive : s.alive = true
  tcpOpen : s.tcpOpen = true
  stage : s.status = .handshake ∨ s.status = .request
  busy : ∃ kind, s.ops = [⟨kind, true⟩] ∧ kind ≠ .outRead
  read : s.HasRead reads

/-- A pending operation keeps the session alive. -/
theorem release_of_ops {s : UdpSession} {op : UdpOp} {rest : List UdpOp}
    (ops : s.ops = op :: rest) : s.release = s := by
  rw [release, if_pos]
  simp [referenced, ops]

theorem pending_iff {s : UdpSession} {kind : UdpOpKind} (ops : s.ops = [⟨kind, true⟩])
    (other : UdpOpKind) (ok : Bool) : s.pending other ok = true ↔ other = kind := by
  simp [pending, ops, eq_comm]

theorem complete_ops {s : UdpSession} {kind : UdpOpKind} (ops : s.ops = [⟨kind, true⟩])
    (ok : Bool) : (s.complete kind ok).ops = [] := by
  simp [complete, ops]

/-- The only operation completes and the next one on the control connection starts. -/
theorem complete_start {s : UdpSession} {kind : UdpOpKind} (ops : s.ops = [⟨kind, true⟩])
    (tcpOpen : s.tcpOpen = true) (ok : Bool) (next : UdpOpKind) :
    (s.complete kind ok).ops ++ [⟨next, s.tcpOpen⟩] = [⟨next, true⟩] := by
  rw [complete_ops ops, tcpOpen, List.nil_append]

theorem runStep_connected {s : UdpSession} (ops : s.ops = [⟨.connect, true⟩])
    (tcpOpen : s.tcpOpen = true) :
    s.runStep (.completion (.connected true)) = (s.complete .connect true).tcpAsyncWrite greeting ∧
      (s.runStep (.completion (.connected true))).ops = [⟨.tcpWrite, true⟩] := by
  have written : ((s.complete .connect true).tcpAsyncWrite greeting).ops = [⟨.tcpWrite, true⟩] :=
    complete_start ops tcpOpen true .tcpWrite
  have stepped : s.runStep (.completion (.connected true)) =
      (s.complete .connect true).tcpAsyncWrite greeting := release_of_ops written
  exact ⟨stepped, stepped ▸ written⟩

theorem runStep_wrote {s : UdpSession} (ops : s.ops = [⟨.tcpWrite, true⟩])
    (tcpOpen : s.tcpOpen = true) (stage : s.status = .handshake ∨ s.status = .request) :
    s.runStep (.completion (.wrote true)) = (s.complete .tcpWrite true).tcpAsyncRead ∧
      (s.runStep (.completion (.wrote true))).ops = [⟨.tcpRead, true⟩] := by
  have sent : (s.complete .tcpWrite true).tcpSent = (s.complete .tcpWrite true).tcpAsyncRead := by
    have completed : (s.complete .tcpWrite true).status = s.status := rfl
    unfold tcpSent
    rcases stage with status | status <;> rw [completed, status]
  have reading : (s.complete .tcpWrite true).tcpAsyncRead.ops = [⟨.tcpRead, true⟩] :=
    complete_start ops tcpOpen true .tcpRead
  have stepped : s.runStep (.completion (.wrote true)) =
      (s.complete .tcpWrite true).tcpAsyncRead := by
    change (s.complete .tcpWrite true).tcpSent.release = _
    rw [sent, release_of_ops reading]
  exact ⟨stepped, stepped ▸ reading⟩

/-- Any untroubled event but a read. -/
theorem Handshaking.step {s : UdpSession} {reads : List Bytes} (handshaking : s.Handshaking reads)
    {event : UdpRunEvent} (enabled : s.runEnabled event) (untroubled : s.Untroubled event)
    (silent : controlReads [event] = []) : (s.runStep event).Handshaking reads := by
  obtain ⟨alive, tcpOpen, stage, ⟨kind, ops, notOut⟩, read⟩ := handshaking
  cases event with
  | process packet =>
    change (((s.process packet false).map Prod.fst).getD s).Handshaking reads
    cases taken : s.process packet false with
    | none => exact ⟨alive, tcpOpen, stage, ⟨kind, ops, notOut⟩, read⟩
    | some result =>
      have relayed := relayed_process taken
      exact ⟨relayed.alive.trans alive, relayed.tcpOpen.trans tcpOpen,
        relayed.status.symm ▸ stage, ⟨kind, relayed.ops.trans ops, notOut⟩,
        read.of_status relayed.status⟩
  | completion event =>
    cases event with
    | connected ok =>
      obtain rfl : ok = true := untroubled
      obtain rfl := (pending_iff ops .connect true).mp enabled.1.2
      obtain ⟨stepped, written⟩ := runStep_connected ops tcpOpen
      rw [stepped] at written ⊢
      exact ⟨alive, tcpOpen, stage, ⟨.tcpWrite, written, (fun wrong => by cases wrong)⟩,
        read.of_status rfl⟩
    | wrote ok =>
      obtain rfl : ok = true := untroubled
      obtain rfl := (pending_iff ops .tcpWrite true).mp enabled.1.2
      obtain ⟨stepped, reading⟩ := runStep_wrote ops tcpOpen stage
      rw [stepped] at reading ⊢
      exact ⟨alive, tcpOpen, stage, ⟨.tcpRead, reading, (fun wrong => by cases wrong)⟩,
        read.of_status rfl⟩
    | read data connectOk failing => cases silent
    | received data => exact absurd ((pending_iff ops .outRead true).mp enabled.1.2.1).symm notOut
    | waited ok =>
      obtain rfl : ok = false := untroubled
      have kept : ({ s with waits := s.waits.erase (outcome false) } : UdpSession).ops =
          [⟨kind, true⟩] := ops
      change ({ s with waits := s.waits.erase (outcome false) } :
        UdpSession).release.Handshaking reads
      rw [release_of_ops kept]
      exact ⟨alive, tcpOpen, stage, ⟨kind, kept, notOut⟩, read.of_status rfl⟩
    | readError | receiveError | expire => exact untroubled.elim

/-- The next read, if it is the next one of the method reply and a read with a success reply. -/
theorem Handshaking.step_read {s : UdpSession} {reads : List Bytes}
    (handshaking : s.Handshaking reads) {data : Bytes} {failing : Option Nat}
    (enabled : s.runEnabled (.completion (.read data true failing))) {second : Bytes}
    {address : Address} {port : Port} (names : StartsWithReply second address port)
    (prefixed : reads ++ [data] <+: [methodReply, second]) :
    (s.runStep (.completion (.read data true failing))).Handshaking (reads ++ [data]) ∨
      (s.runStep (.completion (.read data true failing))).Associated address port ∧
        reads ++ [data] = [methodReply, second] := by
  have nextRead := handshaking.read.step (.completion (.read data true failing))
  obtain ⟨alive, tcpOpen, stage, ⟨kind, ops, notOut⟩, read⟩ := handshaking
  obtain rfl := (pending_iff ops .tcpRead true).mp enabled.1.2.1
  have completed := complete_ops ops true
  rcases stage with status | status
  · left
    rw [read.handshake status, List.nil_append, List.cons_prefix_cons] at prefixed
    obtain ⟨rfl, _⟩ := prefixed
    have status' : (s.complete .tcpRead true).status = .handshake := status
    have run : (s.complete .tcpRead true).tcpRecv methodReply true failing =
        ({ s.complete .tcpRead true with status := .request }.tcpAsyncWrite associateRequest,
          false) := by
      unfold tcpRecv
      rw [status']
      rfl
    have written : ({ s.complete .tcpRead true with status := .request }.tcpAsyncWrite
        associateRequest).ops = [⟨.tcpWrite, true⟩] := complete_start ops tcpOpen true .tcpWrite
    have stepped : s.runStep (.completion (.read methodReply true failing)) =
        { s.complete .tcpRead true with status := .request }.tcpAsyncWrite associateRequest := by
      change ((s.complete .tcpRead true).tcpRecv methodReply true failing).1.release = _
      rw [run, release_of_ops written]
    rw [stepped] at nextRead ⊢
    exact ⟨alive, tcpOpen, Or.inr rfl, ⟨.tcpWrite, written, (fun wrong => by cases wrong)⟩,
      nextRead⟩
  · right
    rw [read.request status, List.singleton_append, List.cons_prefix_cons,
      List.cons_prefix_cons] at prefixed
    obtain ⟨_, rfl, _⟩ := prefixed
    obtain ⟨reply, success, rest, rfl⟩ := names
    have run := tcpRecv_reply (s := s.complete .tcpRead true) status success rest failing
    have relayed := relayed_inRecvAll (s.initialPacket :: s.sendQue) failing
      ((s.complete .tcpRead true).associated address port)
    have ops' : ((s.complete .tcpRead true).associated address port).ops =
        ⟨.tcpRead, s.tcpOpen⟩ :: [⟨.outRead, true⟩] := by
      change (s.complete .tcpRead true).ops ++ _ ++ _ = _
      rw [completed]
      rfl
    refine ⟨?_, by rw [read.request status]; rfl⟩
    change ((s.complete .tcpRead true).tcpRecv (reply ++ rest) true failing).1.release.Associated
      address port
    rw [run]
    change (inRecvAll failing (s.initialPacket :: s.sendQue) _).1.release.Associated address port
    rw [release_of_ops (relayed.ops.trans ops')]
    exact ⟨relayed.status, relayed.outPeer⟩

/-- An untroubled run over these two reads or the first part of them. -/
theorem Handshaking.run {s : UdpSession} {reads : List Bytes} (handshaking : s.Handshaking reads)
    {events : List UdpRunEvent} (guarded : udpSessionSystem.Guarded Untroubled s events)
    {second : Bytes} {address : Address} {port : Port}
    (names : StartsWithReply second address port)
    (prefixed : reads ++ controlReads events <+: [methodReply, second]) :
    (udpSessionSystem.run events s).Handshaking (reads ++ controlReads events) ∨
      (∃ first, first <+: events ∧ (udpSessionSystem.run first s).Associated address port) ∧
        reads ++ controlReads events = [methodReply, second] := by
  induction events generalizing s reads with
  | nil =>
    left
    rw [show controlReads [] = [] from rfl, List.append_nil]
    exact handshaking
  | cons event rest inductionHypothesis =>
    obtain ⟨⟨enabled, untroubled⟩, later⟩ := guarded
    rw [← List.singleton_append, controlReads_append, ← List.append_assoc] at prefixed ⊢
    have next : (s.runStep event).Handshaking (reads ++ controlReads [event]) ∨
        (s.runStep event).Associated address port ∧
          reads ++ controlReads [event] = [methodReply, second] := by
      by_cases silent : controlReads [event] = []
      · left
        rw [silent, List.append_nil]
        exact handshaking.step enabled untroubled silent
      · match event, untroubled, silent with
        | .completion (.read data true failing), _, _ =>
          exact handshaking.step_read enabled names ((List.prefix_append _ _).trans prefixed)
        | .completion (.read data false failing), wrong, _ => cases wrong
        | .process packet, _, loud => exact absurd rfl loud
        | .completion (.connected ok), _, loud => exact absurd rfl loud
        | .completion (.wrote ok), _, loud => exact absurd rfl loud
        | .completion (.received data), _, loud => exact absurd rfl loud
        | .completion (.waited ok), _, loud => exact absurd rfl loud
        | .completion .readError, _, loud => exact absurd rfl loud
        | .completion .receiveError, _, loud => exact absurd rfl loud
        | .completion .expire, _, loud => exact absurd rfl loud
    rcases next with next | ⟨associated, all⟩
    · rcases inductionHypothesis next later prefixed with still | ⟨⟨first, within, reached⟩, all⟩
      · exact Or.inl still
      · exact Or.inr ⟨⟨event :: first, List.cons_prefix_cons.mpr ⟨rfl, within⟩, reached⟩, all⟩
    · right
      rw [all] at prefixed ⊢
      have nothing := List.IsPrefix.eq_of_length_le prefixed (by
        rw [List.length_append]
        exact Nat.le_add_right _ _)
      exact ⟨⟨[event], List.cons_prefix_cons.mpr ⟨rfl, List.nil_prefix⟩, associated⟩, nothing⟩

/-- After a write the next read gets pending. -/
theorem Handshaking.ready_write {s : UdpSession} {reads : List Bytes}
    (handshaking : s.Handshaking reads) (ops : s.ops = [⟨.tcpWrite, true⟩]) :
    udpSessionSystem.Guarded Untroubled s [.completion (.wrote true)] ∧
      (s.runStep (.completion (.wrote true))).Handshaking reads ∧
      (s.runStep (.completion (.wrote true))).pending .tcpRead true = true := by
  have enabled : s.runEnabled (.completion (.wrote true)) :=
    ⟨⟨handshaking.alive, (pending_iff ops .tcpWrite true).mpr rfl⟩, trivial⟩
  obtain ⟨_, reading⟩ := runStep_wrote ops handshaking.tcpOpen handshaking.stage
  exact ⟨⟨⟨enabled, rfl⟩, trivial⟩, handshaking.step enabled rfl rfl,
    (pending_iff reading .tcpRead true).mpr rfl⟩

/-- From anywhere in the handshake the next read gets pending. -/
theorem Handshaking.ready {s : UdpSession} {reads : List Bytes}
    (handshaking : s.Handshaking reads) :
    ∃ wait, udpSessionSystem.Guarded Untroubled s wait ∧ controlReads wait = [] ∧
      (udpSessionSystem.run wait s).Handshaking reads ∧
      (udpSessionSystem.run wait s).pending .tcpRead true = true := by
  obtain ⟨kind, ops, notOut⟩ := handshaking.busy
  cases kind with
  | connect =>
    have enabled : s.runEnabled (.completion (.connected true)) :=
      ⟨⟨handshaking.alive, (pending_iff ops .connect true).mpr rfl⟩, trivial⟩
    obtain ⟨_, writing⟩ := runStep_connected ops handshaking.tcpOpen
    obtain ⟨guarded, ready, pending⟩ := (handshaking.step enabled rfl rfl).ready_write writing
    exact ⟨[.completion (.connected true), .completion (.wrote true)],
      ⟨⟨enabled, rfl⟩, guarded⟩, rfl, ready, pending⟩
  | tcpWrite =>
    obtain ⟨guarded, ready, pending⟩ := handshaking.ready_write ops
    exact ⟨[.completion (.wrote true)], guarded, rfl, ready, pending⟩
  | tcpRead =>
    exact ⟨[], trivial, rfl, handshaking, (pending_iff ops .tcpRead true).mpr rfl⟩
  | outRead => exact absurd rfl notOut

/-- The rest of the two reads can follow. -/
theorem Handshaking.reads_all {second : Bytes} {address : Address} {port : Port}
    (names : StartsWithReply second address port) (left : List Bytes) {s : UdpSession}
    {reads : List Bytes} (handshaking : s.Handshaking reads)
    (whole : reads ++ left = [methodReply, second])
    (sizes : ∀ chunk ∈ left, 0 < chunk.length ∧ chunk.length ≤ recvBufSize) :
    ∃ more, udpSessionSystem.Guarded Untroubled s more ∧ controlReads more = left := by
  induction left generalizing s reads with
  | nil => exact ⟨[], trivial, rfl⟩
  | cons chunk left inductionHypothesis =>
    obtain ⟨wait, guarded, silent, waited, pending⟩ := handshaking.ready
    obtain ⟨size, sizes⟩ := List.forall_mem_cons.mp sizes
    have enabled : (udpSessionSystem.run wait s).runEnabled
        (.completion (.read chunk true none)) :=
      ⟨⟨waited.alive, pending, size⟩, rfl⟩
    have whole' : reads ++ [chunk] ++ left = [methodReply, second] := by
      rw [List.append_assoc]
      exact whole
    have later : ∃ more, udpSessionSystem.Guarded Untroubled
        ((udpSessionSystem.run wait s).runStep (.completion (.read chunk true none))) more ∧
        controlReads more = left := by
      rcases waited.step_read enabled names ⟨left, whole'⟩ with still | ⟨_, all⟩
      · exact inductionHypothesis still whole' sizes
      · refine ⟨[], trivial, ?_⟩
        rw [all] at whole'
        exact (List.append_right_eq_self.mp whole').symm
    obtain ⟨more, guardedMore, readsMore⟩ := later
    refine ⟨wait ++ .completion (.read chunk true none) :: more, ?_, ?_⟩
    · rw [udpSessionSystem.guarded_append]
      exact ⟨guarded, ⟨enabled, rfl⟩, guardedMore⟩
    · rw [controlReads_append, silent, ← readsMore]
      rfl

theorem handshaking_start (id : Nat) (initialPacket : UdpPacket) :
    (UdpSession.new id initialPacket).start.Handshaking [] :=
  ⟨rfl, rfl, Or.inl rfl, ⟨.connect, rfl, (fun wrong => by cases wrong)⟩,
    ⟨fun _ => rfl, (fun wrong => by cases wrong), (fun wrong => by cases wrong)⟩⟩

/-- The method reply in a read of its own and then one that starts with a success reply. -/
theorem associates_apart (id : Nat) (initialPacket : UdpPacket) {second : Bytes}
    {address : Address} {port : Port} (names : StartsWithReply second address port)
    (sizes : ∀ chunk ∈ [methodReply, second], 0 < chunk.length ∧ chunk.length ≤ recvBufSize) :
    (UdpSession.new id initialPacket).start.Associates [methodReply, second] address port := by
  have start := handshaking_start id initialPacket
  have split (events : List UdpRunEvent) (guarded : udpSessionSystem.Guarded Untroubled
      (UdpSession.new id initialPacket).start events)
      (reads : controlReads events <+: [methodReply, second]) :=
    start.run guarded names (by rw [List.nil_append]; exact reads)
  constructor
  · intro events guarded reads
    rcases split events guarded (reads ▸ List.prefix_rfl) with handshaking | ⟨reached, _⟩
    · have never := handshaking.read
      rw [List.nil_append, reads] at never
      rcases handshaking.stage with status | status
      · cases never.handshake status
      · cases never.request status
    · exact reached
  · intro events guarded reads
    rcases split events guarded reads with handshaking | ⟨_, all⟩
    · obtain ⟨left, whole⟩ := reads
      have leftSizes : ∀ chunk ∈ left, 0 < chunk.length ∧ chunk.length ≤ recvBufSize := by
        intro chunk member
        refine sizes chunk ?_
        rw [← whole]
        exact List.mem_append_right _ member
      obtain ⟨more, guardedMore, readsMore⟩ := handshaking.reads_all names left
        (by rw [List.nil_append]; exact whole) leftSizes
      exact ⟨more, guardedMore, by rw [controlReads_append, readsMore, whole]⟩
    · exact ⟨[], trivial, by rw [List.append_nil]; exact all⟩

/-! ### The result -/

/-- A session that reaches `FORWARD` has read the method reply and then a success reply. -/
theorem forward_reads (id : Nat) (initialPacket : UdpPacket) {events : List UdpRunEvent}
    (forward : (udpSessionSystem.run events (UdpSession.new id initialPacket).start).status =
      .forward) :
    ∃ second rest, controlReads events = methodReply :: second :: rest ∧
      ∃ address port, StartsWithReply second address port :=
  ((handshaking_start id initialPacket).read.run events).forward forward

end UdpSession

/-- The type byte of a success reply tells its length. -/
theorem AssociateReply.length_eq {reply : Bytes} {address : Address} {port : Port}
    (success : AssociateReply reply address port) :
    3 < reply.length ∧ reply.length = if reply[3]? = some 0x01 then 10 else 22 := by
  obtain ⟨wellFormed, rfl⟩ := success
  obtain ⟨high, low, bytes, _⟩ := portOf_portBytes port
  rw [bytes]
  cases address with
  | v4 bytes =>
    have four : bytes.length = 4 := wellFormed
    have length : (replyHead ++ (Address.v4 bytes).socks5 ++ [high, low]).length = 10 := by
      simp only [replyHead, Address.socks5, List.length_append, List.length_cons, four]
      rfl
    exact ⟨by omega, length⟩
  | v6 bytes =>
    have sixteen : bytes.length = 16 := wellFormed
    have length : (replyHead ++ (Address.v6 bytes).socks5 ++ [high, low]).length = 22 := by
      simp only [replyHead, Address.socks5, List.length_append, List.length_cons, sixteen]
      rfl
    exact ⟨by omega, length⟩

/-- No success reply starts with another one. -/
theorem AssociateReply.eq_of_prefix {first second : Bytes} {address other : Address}
    {port otherPort : Port} (firstSuccess : AssociateReply first address port)
    (secondSuccess : AssociateReply second other otherPort) (prefixed : first <+: second) :
    first = second := by
  obtain ⟨long, firstLength⟩ := firstSuccess.length_eq
  obtain ⟨_, secondLength⟩ := secondSuccess.length_eq
  obtain ⟨rest, rfl⟩ := prefixed
  rw [List.getElem?_append_left long, ← firstLength, List.length_append] at secondLength
  rw [List.length_eq_zero_iff.mp (Nat.add_eq_left.mp secondLength), List.append_nil]

/-- However the bytes of the proxy are cut into reads, the session does what the handshake asks
for exactly if they are the method reply and a success reply in two reads, or are no such stream
and the first two reads are not the method reply and a read that starts with a success reply. -/
theorem association_exact (id : Nat) (initialPacket : UdpPacket) (chunks : List Bytes)
    (sizes : ∀ chunk ∈ chunks, 0 < chunk.length ∧ chunk.length ≤ recvBufSize) :
    (UdpSession.new id initialPacket).start.AssociatesExactly chunks ↔
      (∃ reply address port, AssociateReply reply address port ∧
        chunks = [methodReply, reply]) ∨
      ((∀ reply address port, AssociateReply reply address port →
          chunks.flatten ≠ methodReply ++ reply) ∧
        ∀ second rest address port, chunks = methodReply :: second :: rest →
          ¬ StartsWithReply second address port) := by
  constructor
  · rintro ⟨associates, never⟩
    by_cases form : ∃ reply address port, AssociateReply reply address port ∧
        chunks.flatten = methodReply ++ reply
    · left
      obtain ⟨reply, address, port, success, stream⟩ := form
      obtain ⟨safe, live⟩ := associates reply address port success stream
      obtain ⟨events, guarded, reads⟩ := live [] trivial List.nil_prefix
      obtain ⟨first, ⟨later, rfl⟩, forward, _⟩ := safe events guarded reads
      obtain ⟨second, rest, shape, _, _, found, foundSuccess, foundPrefix⟩ :=
        UdpSession.forward_reads id initialPacket forward
      rw [List.nil_append, controlReads_append, shape] at reads
      rw [← reads, List.cons_append, List.cons_append, List.flatten_cons, List.flatten_cons]
        at stream
      have behind := List.append_cancel_left stream
      have found_eq : found = reply := foundSuccess.eq_of_prefix success
        (behind ▸ foundPrefix.trans (List.prefix_append second _))
      have second_eq : second = reply := by
        refine List.IsPrefix.eq_of_length_le (behind ▸ List.prefix_append second _) ?_
        rw [← found_eq]
        exact foundPrefix.length_le
      rw [second_eq] at behind reads
      have nothing : (rest ++ controlReads later).flatten = [] :=
        List.append_right_eq_self.mp behind
      have none : rest ++ controlReads later = [] := by
        rw [List.eq_nil_iff_forall_not_mem]
        intro chunk member
        have positive := (sizes chunk (by
          rw [← reads]
          exact List.mem_cons_of_mem _ (List.mem_cons_of_mem _ member))).1
        rw [List.flatten_eq_nil_iff.mp nothing chunk member] at positive
        exact absurd positive (Nat.lt_irrefl 0)
      refine ⟨reply, address, port, success, ?_⟩
      rw [← reads, List.cons_append, List.cons_append, none]
    · right
      have other : ∀ reply address port, AssociateReply reply address port →
          chunks.flatten ≠ methodReply ++ reply :=
        fun reply address port success stream => form ⟨reply, address, port, success, stream⟩
      refine ⟨other, ?_⟩
      rintro second rest address port rfl names
      obtain ⟨safe, live⟩ := UdpSession.associates_apart id initialPacket names (by
        intro chunk member
        refine sizes chunk ?_
        rw [← List.singleton_append, ← List.singleton_append (l := rest), ← List.append_assoc]
        exact List.mem_append_left rest member)
      obtain ⟨events, guarded, reads⟩ := live [] trivial List.nil_prefix
      obtain ⟨first, ⟨later, rfl⟩, forward, _⟩ := safe events guarded reads
      rw [List.nil_append, controlReads_append] at reads
      have legal := ((udpSessionSystem.guarded_append _ _ _ _).mp guarded).1.legal
      refine never other first legal ?_ forward
      have within : controlReads first <+: [methodReply, second] :=
        reads ▸ List.prefix_append _ _
      refine within.trans ?_
      exact ⟨rest, rfl⟩
  · rintro (⟨reply, address, port, success, rfl⟩ | ⟨other, unspoiled⟩)
    · have whole : [methodReply, reply].flatten = methodReply ++ reply := by
        rw [List.flatten_cons, List.flatten_singleton]
      refine ⟨fun given address port givenSuccess stream => ?_, fun other => ?_⟩
      · have same : reply = given := List.append_cancel_left (whole.symm.trans stream)
        rw [same] at sizes ⊢
        exact UdpSession.associates_apart id initialPacket ⟨given, givenSuccess, List.prefix_rfl⟩
          sizes
      · exact absurd whole (other reply address port success)
    · refine ⟨fun reply address port success stream =>
        absurd stream (other reply address port success), fun _ events _ within forward => ?_⟩
      obtain ⟨second, rest, shape, address, port, names⟩ :=
        UdpSession.forward_reads id initialPacket forward
      obtain ⟨left, whole⟩ := within
      rw [shape] at whole
      exact unspoiled second (rest ++ left) address port whole.symm names

/-- A success reply that names 127.0.0.1:1080. -/
abbrev relayReply : Bytes := [5, 0, 0, 1, 127, 0, 0, 1, 4, 56]

theorem relayReply_success : AssociateReply relayReply (.v4 [127, 0, 0, 1]) 1080 := ⟨rfl, rfl⟩

/-- The two replies, each in a read of its own. -/
theorem association_exact_apart :
    (UdpSession.new 0 (samplePacket [0x61])).start.AssociatesExactly [methodReply, relayReply] ↔
      (∃ reply address port, AssociateReply reply address port ∧
        [methodReply, relayReply] = [methodReply, reply]) ∨
      ((∀ reply address port, AssociateReply reply address port →
          [methodReply, relayReply].flatten ≠ methodReply ++ reply) ∧
        ∀ second rest address port, [methodReply, relayReply] = methodReply :: second :: rest →
          ¬ StartsWithReply second address port) :=
  association_exact 0 (samplePacket [0x61]) [methodReply, relayReply] (by decide)

/-- The same bytes with the success reply in two pieces: the session never gets to `FORWARD`. -/
theorem association_exact_pieces :
    [methodReply, [5, 0, 0, 1, 127], [0, 0, 1, 4, 56]].flatten = methodReply ++ relayReply ∧
      ¬ (UdpSession.new 0 (samplePacket [0x61])).start.AssociatesExactly
        [methodReply, [5, 0, 0, 1, 127], [0, 0, 1, 4, 56]] := by
  refine ⟨rfl, fun exactly => ?_⟩
  obtain ⟨safe, live⟩ := exactly.1 relayReply _ _ relayReply_success rfl
  obtain ⟨events, guarded, reads⟩ := live [] trivial List.nil_prefix
  obtain ⟨first, ⟨later, rfl⟩, forward, _⟩ := safe events guarded reads
  obtain ⟨second, rest, shape, _, _, found, success, found_prefix⟩ :=
    UdpSession.forward_reads 0 (samplePacket [0x61]) forward
  rw [List.nil_append, controlReads_append, shape] at reads
  obtain ⟨_, piece, _⟩ := List.cons_eq_cons.mp reads |>.imp_right List.cons_eq_cons.mp
  have short : found.length ≤ 5 := by
    rw [piece] at found_prefix
    exact found_prefix.length_le
  have long := success.length_eq.2
  split at long <;> omega

end Net2Tr
