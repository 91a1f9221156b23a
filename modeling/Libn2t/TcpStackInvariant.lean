/-
This file proves what holds of the stack in every state of a run: lwIP owns the
blocks on its lists, each block is on one list and once, the active pcbs have
different 4-tuples, and every `Socket` and its session bear the ends of the SYN
they were handed out for.

What a session knows of its connection it reads through the address of the pcb.
The step lemma therefore asks three things of a step: a pcb that is handed out
has not been freed while it waited in the queue, the request is not built from
a pcb that lwIP has freed, and no freed pcb is closed. What memory looks like
after a block was freed twice is not modelled.
-/

import Libn2t.TcpStack

namespace Net2Tr

open TcpSession

/-- The ends of a connection as `tcp_listen_input` writes them. -/
def FourTuple.ends (tuple : FourTuple) : Ends :=
  ⟨.of tuple.localIp, .of tuple.remoteIp, tuple.localPort, tuple.remotePort⟩

theorem TcpPcb.tuple_of_ends {pcb : TcpPcb} {tuple : FourTuple} (ends : pcb.ends = tuple.ends) :
    pcb.tuple = tuple := by
  rw [FourTuple.ends, TcpPcb.ends, Ends.mk.injEq] at ends
  obtain ⟨localIp, remoteIp, localPort, remotePort⟩ := ends
  rw [TcpPcb.tuple, localIp, remoteIp, localPort, remotePort]
  rfl

theorem TcpPcb.tuple_congr {pcb other : TcpPcb} (same : pcb.ends = other.ends) :
    pcb.tuple = other.tuple :=
  congrArg (fun ends : Ends =>
    FourTuple.mk ends.localIp.ip ends.localPort ends.remoteIp.ip ends.remotePort) same

/-! ### What a call may change -/

/-- A method that lwIP calls back: it keeps the pcb's ends and its owner, and only relays. -/
structure IsCallback (f : TcpSession → TcpSession) : Prop where
  frame : ∀ session, PcbFrame session (f session)
  relays : ∀ session, OnlyRelays session (f session)

theorem isCallback_step (event : TcpEvent) (keeps : freesPcb event = false)
    (fresh : ∀ localIp remoteIp localPort remotePort,
      event ≠ .reuse localIp remoteIp localPort remotePort)
    (other : event.completion = false) : IsCallback fun session => session.step event :=
  ⟨fun session => session.frame_step event keeps fresh,
    fun session => session.onlyRelays_step event other⟩

theorem isCallback_errEvent (err : Err) :
    IsCallback fun session => (session.errEvent err).release :=
  ⟨fun session => (session.frame_errEvent err).trans (frame_release _),
    fun session => (session.onlyRelays_errEvent err).trans (onlyRelays_release _)⟩

theorem isCallback_closed : IsCallback fun session => (session.recvEvent none).release :=
  ⟨fun session => session.frame_recvEvent_none.trans (frame_release _),
    fun session => (session.onlyRelays_recvEvent none).trans (onlyRelays_release _)⟩

/-- The socket was handed out for a connection with these ends, and the request, if it has been
written, names them. -/
structure HandedSocket.Bears (tuple : FourTuple) (socket : HandedSocket) : Prop where
  ends : socket.pcb.ends = tuple.ends
  paced : socket.session.Paced
  named : socket.session.requested = none ∨
    socket.session.requested = connectRequest (.of tuple.localIp) tuple.localPort

namespace TcpStack

variable {s t u : TcpStack}

theorem updatePcb_self (pcb : Nat) (f : TcpPcb → TcpPcb) :
    (s.updatePcb pcb f).heap pcb = { s.heap pcb with pcb := f (s.heap pcb).pcb } :=
  Function.update_self _ _ _

theorem updatePcb_other {pcb other : Nat} (different : other ≠ pcb) (f : TcpPcb → TcpPcb) :
    (s.updatePcb pcb f).heap other = s.heap other :=
  Function.update_of_ne different _ _

/-! ### The lists -/

/-- The blocks and lists are what they were, but for the state of the pcbs and their callbacks. -/
structure Steady (s t : TcpStack) : Prop where
  freed : ∀ pcb, (t.heap pcb).pcb.freed = (s.heap pcb).pcb.freed
  ends : ∀ pcb, (t.heap pcb).pcb.ends = (s.heap pcb).pcb.ends
  netifIdx : ∀ pcb, (t.heap pcb).netifIdx = (s.heap pcb).netifIdx
  syn : ∀ pcb, (t.heap pcb).syn = (s.heap pcb).syn
  active : t.active = s.active
  timeWait : t.timeWait = s.timeWait
  listen : t.listen = s.listen
  syns : t.syns = s.syns

/-- Writing a block. -/
theorem Steady.of_update {pcb : Nat} {block : TcpBlock}
    (heap : t.heap = Function.update s.heap pcb block)
    (freed : block.pcb.freed = (s.heap pcb).pcb.freed)
    (ends : block.pcb.ends = (s.heap pcb).pcb.ends)
    (netifIdx : block.netifIdx = (s.heap pcb).netifIdx) (syn : block.syn = (s.heap pcb).syn)
    (active : t.active = s.active) (timeWait : t.timeWait = s.timeWait)
    (listen : t.listen = s.listen) (syns : t.syns = s.syns) : Steady s t := by
  have each {Field : Type} (field : TcpBlock → Field) (same : field block = field (s.heap pcb))
      (other : Nat) : field (t.heap other) = field (s.heap other) := by
    rw [heap]
    by_cases here : other = pcb
    · rw [here, Function.update_self, same]
    · rw [Function.update_of_ne here]
  exact ⟨each (fun block => block.pcb.freed) freed, each (fun block => block.pcb.ends) ends,
    each TcpBlock.netifIdx netifIdx, each TcpBlock.syn syn, active, timeWait, listen, syns⟩

/-- What holds of the lists: lwIP owns the blocks that are listed, each once; the active ones have
different 4-tuples, which are those of their SYNs; and no pcb is bound to a netif. -/
structure Listed (s : TcpStack) : Prop where
  nodup : (s.active ++ s.timeWait).Nodup
  owned : ∀ pcb, pcb ∈ s.active ++ s.timeWait ↔ (s.heap pcb).pcb.freed = false
  distinct : (s.active.map fun pcb => (s.heap pcb).pcb.tuple).Nodup
  born : ∀ pcb, (s.heap pcb).pcb.freed = false →
    ∃ tuple, s.syns[(s.heap pcb).syn]? = some tuple ∧ (s.heap pcb).pcb.ends = tuple.ends
  unbound : ∀ pcb, (s.heap pcb).pcb.freed = false → (s.heap pcb).netifIdx = 0
  listen : s.listen = [n2tListener]

theorem Listed.steady (listed : s.Listed) (steady : Steady s t) : t.Listed where
  nodup := by
    rw [steady.active, steady.timeWait]
    exact listed.nodup
  owned pcb := by
    rw [steady.active, steady.timeWait, steady.freed]
    exact listed.owned pcb
  distinct := by
    have same : (fun pcb => (t.heap pcb).pcb.tuple) = fun pcb => (s.heap pcb).pcb.tuple :=
      funext fun pcb => TcpPcb.tuple_congr (steady.ends pcb)
    rw [steady.active, same]
    exact listed.distinct
  born pcb := by
    rw [steady.freed, steady.syn, steady.ends, steady.syns]
    exact listed.born pcb
  unbound pcb := by
    rw [steady.freed, steady.netifIdx]
    exact listed.unbound pcb
  listen := steady.listen.trans listed.listen

/-- A pcb that lwIP owns has the ends of the SYN its pointer was taken for. -/
theorem Listed.ends_of_owns (listed : s.Listed) {ref : PcbRef}
    (owns : s.owns ref = true) {tuple : FourTuple} (born : s.syns[ref.syn]? = some tuple) :
    (s.heap ref.pointer).pcb.ends = tuple.ends := by
  rw [TcpStack.owns, Bool.and_eq_true, Bool.not_eq_true', decide_eq_true_eq] at owns
  obtain ⟨other, recorded, ends⟩ := listed.born ref.pointer owns.1
  rw [owns.2, born] at recorded
  cases recorded
  exact ends

/-- Reordering the lists, or moving a pcb from one to the other. -/
theorem Listed.reorder (listed : s.Listed) {active timeWait : List Nat}
    (permuted : (active ++ timeWait).Perm (s.active ++ s.timeWait))
    (fewer : active ⊆ s.active) : Listed { s with active := active, timeWait := timeWait } where
  nodup := permuted.nodup_iff.mpr listed.nodup
  owned pcb := permuted.mem_iff.trans (listed.owned pcb)
  distinct := by
    have once : active.Nodup :=
      (List.nodup_append.mp (permuted.nodup_iff.mpr listed.nodup)).1
    refine once.map_on fun first firstIn second secondIn same => ?_
    exact List.inj_on_of_nodup_map listed.distinct (fewer firstIn) (fewer secondIn) same
  born := listed.born
  unbound := listed.unbound
  listen := listed.listen

/-- A block is freed and taken off its list. -/
theorem Listed.free (listed : s.Listed) (pcb : Nat) : (s.free pcb).Listed := by
  have other {found : Nat} (different : found ≠ pcb) : (s.free pcb).heap found = s.heap found :=
    updatePcb_other different _
  have gone : ((s.free pcb).heap pcb).pcb.freed = true := by
    rw [show (s.free pcb).heap pcb = _ from updatePcb_self pcb _]
    rfl
  have live {found : Nat} (freed : ((s.free pcb).heap found).pcb.freed = false) :
      found ≠ pcb := by
    rintro rfl
    cases gone.symm.trans freed
  have sublist : (s.active.erase pcb ++ s.timeWait.erase pcb).Sublist (s.active ++ s.timeWait) :=
    List.erase_sublist.append List.erase_sublist
  obtain ⟨onceActive, onceWait, _⟩ := List.nodup_append.mp listed.nodup
  refine ⟨listed.nodup.sublist sublist, fun found => ?_, ?_, fun found freed => ?_,
    fun found freed => ?_, listed.listen⟩
  · by_cases here : found = pcb
    · refine iff_of_false ?_ ?_
      · rw [here]
        show ¬ pcb ∈ s.active.erase pcb ++ s.timeWait.erase pcb
        rw [List.mem_append, onceActive.mem_erase_iff, onceWait.mem_erase_iff]
        rintro (⟨wrong, _⟩ | ⟨wrong, _⟩) <;> exact wrong rfl
      · rw [here, gone]
        exact fun wrong => by cases wrong
    · rw [other here, ← listed.owned found]
      show found ∈ s.active.erase pcb ++ s.timeWait.erase pcb ↔ _
      rw [List.mem_append, List.mem_append, List.mem_erase_of_ne here, List.mem_erase_of_ne here]
  · have same : (s.active.erase pcb).map (fun found => ((s.free pcb).heap found).pcb.tuple) =
        (s.active.erase pcb).map fun found => (s.heap found).pcb.tuple := by
      refine List.map_congr_left fun found member => ?_
      rw [other (onceActive.mem_erase_iff.mp member).1]
    exact same ▸ MoveToFront.distinct_erase pcb listed.distinct
  · have same := other (live freed)
    rw [same] at freed ⊢
    exact listed.born found freed
  · have same := other (live freed)
    rw [same] at freed ⊢
    exact listed.unbound found freed

theorem steady_updatePcb (s : TcpStack) (pcb : Nat) {f : TcpPcb → TcpPcb}
    (freed : (f (s.heap pcb).pcb).freed = (s.heap pcb).pcb.freed)
    (ends : (f (s.heap pcb).pcb).ends = (s.heap pcb).pcb.ends) :
    Steady s (s.updatePcb pcb f) :=
  .of_update rfl freed ends rfl rfl rfl rfl rfl rfl

theorem Listed.setState (listed : s.Listed) {pcb : Nat} (member : pcb ∈ s.active)
    (state : TcpState) : (s.setState pcb state).Listed := by
  have steady := s.steady_updatePcb pcb (f := fun pcb => { pcb with state := state }) rfl rfl
  unfold TcpStack.setState
  dsimp only
  split
  · refine (listed.steady steady).reorder ?_ (List.erase_subset)
    show (s.active.erase pcb ++ pcb :: s.timeWait).Perm (s.active ++ s.timeWait)
    refine List.perm_middle.trans ?_
    rw [← List.cons_append]
    exact (List.perm_cons_erase member).symm.append_right _
  · exact listed.steady steady

theorem synBlock_ends (s : TcpStack) (lpcb : TcpPcbListen) (segment : TcpSegment) :
    (s.synBlock lpcb segment).pcb.ends = segment.tuple.ends := rfl

/-- What was recorded stays on record. -/
theorem recorded {Entry : Type} {entries : List Entry} {index : Nat} {entry : Entry}
    (found : entries[index]? = some entry) (more : List Entry) :
    (entries ++ more)[index]? = some entry := by
  rw [List.getElem?_append_left (List.getElem?_eq_some_iff.mp found).1]
  exact found

/-- A pcb with a new 4-tuple is registered in memory that no pcb uses. -/
theorem Listed.register (listed : s.Listed) {pcb : Nat}
    (unused : (s.heap pcb).pcb.freed = true) (segment : TcpSegment)
    (fresh : ∀ other ∈ s.active, (s.heap other).pcb.tuple ≠ segment.tuple) :
    (s.register pcb n2tListener segment).Listed := by
  have here : (s.register pcb n2tListener segment).heap pcb = s.synBlock n2tListener segment :=
    Function.update_self _ _ _
  have other {found : Nat} (different : found ≠ pcb) :
      (s.register pcb n2tListener segment).heap found = s.heap found :=
    Function.update_of_ne different _ _
  have apart {found : Nat} (member : found ∈ s.active ++ s.timeWait) : found ≠ pcb := by
    rintro rfl
    cases unused.symm.trans ((listed.owned found).mp member)
  refine ⟨?_, fun found => ?_, ?_, fun found freed => ?_, fun found freed => ?_, listed.listen⟩
  · exact List.nodup_cons.mpr ⟨fun member => apart member rfl, listed.nodup⟩
  · show found ∈ pcb :: (s.active ++ s.timeWait) ↔ _
    rw [List.mem_cons]
    by_cases same : found = pcb
    · rw [same, here]
      exact iff_of_true (Or.inl rfl) rfl
    · rw [other same, ← listed.owned found]
      exact or_iff_right same
  · have old : (s.active.map fun found =>
        ((s.register pcb n2tListener segment).heap found).pcb.tuple) =
        s.active.map fun found => (s.heap found).pcb.tuple := by
      refine List.map_congr_left fun found member => ?_
      rw [other (apart (List.mem_append_left _ member))]
    refine MoveToFront.distinct_cons (by rw [old]; exact listed.distinct) fun found member => ?_
    rw [here, other (apart (List.mem_append_left _ member)),
      TcpPcb.tuple_of_ends (s.synBlock_ends n2tListener segment)]
    exact fresh found member
  · by_cases same : found = pcb
    · rw [same, here]
      refine ⟨segment.tuple, ?_, s.synBlock_ends n2tListener segment⟩
      show (s.syns ++ [segment.tuple])[s.syns.length]? = _
      exact List.getElem?_concat_length
    · rw [other same] at freed ⊢
      obtain ⟨tuple, born, ends⟩ := listed.born found freed
      exact ⟨tuple, recorded born _, ends⟩
  · by_cases same : found = pcb
    · rw [same, here]
      rfl
    · rw [other same] at freed ⊢
      exact listed.unbound found freed

/-! ### The sockets -/

/-- The lists are in order; every socket bears the 4-tuple of the SYN it was handed out for; and
the callbacks of a pcb that lwIP owns go to the socket that was handed out for it. -/
structure Sound (s : TcpStack) : Prop where
  listed : s.Listed
  handed : ∀ socket ∈ s.sockets, ∃ tuple, s.syns[socket.ref.syn]? = some tuple ∧
    socket.Bears tuple
  bound : ∀ pcb index, (s.heap pcb).pcb.freed = false → (s.heap pcb).callbackArg = some index →
    ∃ socket, s.sockets[index]? = some socket ∧ socket.ref = s.ref pcb

/-- A change that hands nothing out. -/
theorem Sound.lists (sound : s.Sound) (listed : t.Listed) (sockets : t.sockets = s.sockets)
    (syns : ∃ more, t.syns = s.syns ++ more)
    (kept : ∀ pcb, (t.heap pcb).pcb.freed = false → (t.heap pcb).callbackArg = none ∨
      (s.heap pcb).pcb.freed = false ∧ (t.heap pcb).callbackArg = (s.heap pcb).callbackArg ∧
        (t.heap pcb).syn = (s.heap pcb).syn) : t.Sound := by
  refine ⟨listed, fun socket member => ?_, fun pcb index live found => ?_⟩
  · obtain ⟨more, appended⟩ := syns
    rw [sockets] at member
    obtain ⟨tuple, born, bears⟩ := sound.handed socket member
    exact ⟨tuple, appended ▸ recorded born more, bears⟩
  · rcases kept pcb live with none | ⟨wasLive, arg, syn⟩
    · cases none.symm.trans found
    · obtain ⟨socket, at', ref⟩ := sound.bound pcb index wasLive (arg.symm.trans found)
      refine ⟨socket, sockets ▸ at', ref.trans ?_⟩
      rw [TcpStack.ref, TcpStack.ref, syn]

theorem Sound.free (sound : s.Sound) (pcb : Nat) : (s.free pcb).Sound := by
  refine sound.lists (sound.listed.free pcb) rfl ⟨[], (List.append_nil _).symm⟩ fun found live => ?_
  by_cases here : found = pcb
  · rw [here, show (s.free pcb).heap pcb = _ from updatePcb_self pcb _] at live
    cases live
  · have same : (s.free pcb).heap found = s.heap found := updatePcb_other here _
    rw [same] at live ⊢
    exact Or.inr ⟨live, rfl, rfl⟩

theorem setState_heap (s : TcpStack) (pcb : Nat) (state : TcpState) :
    (s.setState pcb state).heap =
      (s.updatePcb pcb fun pcb => { pcb with state := state }).heap := by
  unfold TcpStack.setState
  dsimp only
  split <;> rfl

theorem setState_others (s : TcpStack) (pcb : Nat) (state : TcpState) :
    (s.setState pcb state).sockets = s.sockets ∧ (s.setState pcb state).syns = s.syns ∧
      (s.setState pcb state).n2t = s.n2t := by
  unfold TcpStack.setState
  dsimp only
  split <;> exact ⟨rfl, rfl, rfl⟩

theorem Sound.updatePcb (sound : s.Sound) (pcb : Nat) {f : TcpPcb → TcpPcb}
    (freed : (f (s.heap pcb).pcb).freed = (s.heap pcb).pcb.freed)
    (ends : (f (s.heap pcb).pcb).ends = (s.heap pcb).pcb.ends) : (s.updatePcb pcb f).Sound := by
  refine sound.lists (sound.listed.steady (s.steady_updatePcb pcb freed ends)) rfl
    ⟨[], (List.append_nil _).symm⟩ fun found live => ?_
  by_cases here : found = pcb
  · rw [here, updatePcb_self] at live ⊢
    exact Or.inr ⟨freed.symm.trans live, rfl, rfl⟩
  · rw [updatePcb_other here] at live ⊢
    exact Or.inr ⟨live, rfl, rfl⟩

theorem Sound.setState (sound : s.Sound) {pcb : Nat} (member : pcb ∈ s.active)
    (state : TcpState) : (s.setState pcb state).Sound := by
  obtain ⟨sockets, syns, _⟩ := s.setState_others pcb state
  refine sound.lists (sound.listed.setState member state) sockets
    ⟨[], syns.trans (List.append_nil _).symm⟩ fun found live => ?_
  rw [setState_heap] at live ⊢
  by_cases here : found = pcb
  · rw [here, updatePcb_self] at live ⊢
    exact Or.inr ⟨live, rfl, rfl⟩
  · rw [updatePcb_other here] at live ⊢
    exact Or.inr ⟨live, rfl, rfl⟩

theorem Sound.register (sound : s.Sound) {pcb : Nat} (unused : (s.heap pcb).pcb.freed = true)
    (segment : TcpSegment)
    (fresh : ∀ other ∈ s.active, (s.heap other).pcb.tuple ≠ segment.tuple) :
    (s.register pcb n2tListener segment).Sound := by
  refine sound.lists (sound.listed.register unused segment fresh) rfl ⟨_, rfl⟩
    fun found live => ?_
  by_cases here : found = pcb
  · have block : (s.register pcb n2tListener segment).heap pcb =
        s.synBlock n2tListener segment := Function.update_self _ _ _
    rw [here, block]
    exact Or.inl rfl
  · have same : (s.register pcb n2tListener segment).heap found = s.heap found :=
      Function.update_of_ne here _ _
    rw [same] at live ⊢
    exact Or.inr ⟨live, rfl, rfl⟩

/-! ### The sessions -/

theorem call_some {index : Nat} {socket : HandedSocket} (found : s.sockets[index]? = some socket)
    (f : TcpSession → TcpSession) :
    s.call index f = { s.updatePcb socket.ref.pointer fun _ => (f (s.load socket)).pcb with
      sockets := s.sockets.set index { socket with session := f (s.load socket) } } := by
  rw [call, found]

/-- A call keeps the stack sound if it keeps the ends and the owner of its pcb and what its
session has written. -/
theorem Sound.call (sound : s.Sound) {index : Nat} {f : TcpSession → TcpSession}
    (frame : ∀ socket, s.sockets[index]? = some socket →
      PcbFrame (s.load socket) (f (s.load socket)))
    (kept : ∀ socket tuple, s.sockets[index]? = some socket →
      s.syns[socket.ref.syn]? = some tuple → socket.Bears tuple →
      HandedSocket.Bears tuple { socket with session := f (s.load socket) }) :
    (s.call index f).Sound := by
  cases found : s.sockets[index]? with
  | none =>
    rw [TcpStack.call, found]
    exact sound
  | some socket =>
    have changed := sound.updatePcb socket.ref.pointer
      (f := fun _ => (f (s.load socket)).pcb) (frame socket found).freed (frame socket found).ends
    have inside : index < s.sockets.length := (List.getElem?_eq_some_iff.mp found).1
    rw [call_some found]
    refine ⟨⟨changed.listed.nodup, changed.listed.owned, changed.listed.distinct,
      changed.listed.born, changed.listed.unbound, changed.listed.listen⟩,
      fun other member => ?_, fun pcb number live arg => ?_⟩
    · rcases List.mem_or_eq_of_mem_set member with old | rfl
      · exact sound.handed other old
      · obtain ⟨tuple, born, bears⟩ := sound.handed socket (List.mem_of_getElem? found)
        exact ⟨tuple, born, kept socket tuple found born bears⟩
    · obtain ⟨other, at', ref⟩ := changed.bound pcb number live arg
      by_cases same : index = number
      · subst same
        refine ⟨_, List.getElem?_set_self inside, ?_⟩
        have here : other = socket := Option.some.inj (at'.symm.trans found)
        exact here ▸ ref
      · exact ⟨other, (List.getElem?_set_ne same).trans at', ref⟩

/-- A callback of lwIP keeps the stack sound. -/
theorem Sound.callback (sound : s.Sound) (pcb : Nat) {f : TcpSession → TcpSession}
    (isCallback : IsCallback f) : (s.callback pcb f).Sound := by
  unfold TcpStack.callback
  split
  · exact sound
  · refine sound.call (fun socket _ => isCallback.frame _) fun socket tuple _ _ bears => ?_
    have paced : (s.load socket).Paced :=
      ⟨bears.paced.connecting, bears.paced.greeted, bears.paced.requested, bears.paced.long⟩
    have relays := isCallback.relays (s.load socket)
    refine ⟨bears.ends, paced.relays relays, ?_⟩
    rw [show TcpSession.requested (f (s.load socket)) = socket.session.requested from
      relays.requested paced.long]
    exact bears.named

theorem paced_start (pcb : TcpPcb) :
    (TcpSession.accepted pcb).start.Paced ∧ (TcpSession.accepted pcb).start.requested = none :=
  ⟨⟨Or.inr ⟨rfl, rfl⟩, fun _ noConnect => absurd rfl (noConnect _ (List.mem_singleton.mpr rfl)),
    (fun wrong => by cases wrong), (fun wrong => by cases wrong)⟩, rfl⟩

theorem handOut_self (s : TcpStack) (call : AcceptCall Unit Unit PcbRef) :
    (s.handOut (some call)).heap call.pcb.pointer =
      { s.heap call.pcb.pointer with
        pcb := (TcpSession.accepted (s.heap call.pcb.pointer).pcb).start.pcb
        callbackArg := some s.sockets.length } :=
  Function.update_self _ _ _

/-- Handing out a pcb that lwIP owns. -/
theorem Sound.handOut (sound : s.Sound) {call : Option (AcceptCall Unit Unit PcbRef)}
    (owns : ∀ found ∈ call, s.owns found.pcb = true) : (s.handOut call).Sound := by
  cases call with
  | none => exact sound
  | some call =>
    have mine := owns call rfl
    rw [TcpStack.owns, Bool.and_eq_true, Bool.not_eq_true', decide_eq_true_eq] at mine
    obtain ⟨live, syn⟩ := mine
    have steady : Steady s (s.handOut (some call)) :=
      .of_update rfl rfl rfl rfl rfl rfl rfl rfl rfl
    refine ⟨sound.listed.steady steady, fun socket member => ?_, fun pcb index freed arg => ?_⟩
    · rcases List.mem_append.mp member with old | new
      · exact sound.handed socket old
      · obtain ⟨tuple, born, ends⟩ := sound.listed.born call.pcb.pointer live
        rw [List.mem_singleton.mp new]
        exact ⟨tuple, syn ▸ born, ends, (paced_start _).1, Or.inl (paced_start _).2⟩
    · by_cases here : pcb = call.pcb.pointer
      · have bound : ((s.handOut (some call)).heap pcb).callbackArg = some s.sockets.length := by
          rw [here, handOut_self]
        have number : s.sockets.length = index := Option.some.inj (bound.symm.trans arg)
        refine ⟨_, number ▸ List.getElem?_concat_length, ?_⟩
        show call.pcb = ⟨pcb, ((s.handOut (some call)).heap pcb).syn⟩
        rw [steady.syn, here, syn]
      · have same : (s.handOut (some call)).heap pcb = s.heap pcb :=
          Function.update_of_ne here _ _
        rw [same] at freed arg
        obtain ⟨socket, found, ref⟩ := sound.bound pcb index freed arg
        refine ⟨socket, recorded found _, ref.trans ?_⟩
        rw [TcpStack.ref, TcpStack.ref, same]

theorem owns_ref {pcb : Nat} (live : (s.heap pcb).pcb.freed = false) :
    s.owns (s.ref pcb) = true := by
  rw [owns, Bool.and_eq_true, Bool.not_eq_true', decide_eq_true_eq]
  exact ⟨live, rfl⟩

/-- Exchanging the `N2T` does not touch anything else. -/
theorem Sound.withN2T (sound : s.Sound) (n2t : N2T Unit Unit Unit Unit PcbRef) :
    Sound { s with n2t := n2t } :=
  ⟨⟨sound.listed.nodup, sound.listed.owned, sound.listed.distinct, sound.listed.born,
    sound.listed.unbound, sound.listed.listen⟩, sound.handed, sound.bound⟩

/-- The accept callback hands out the pcb it is called for. -/
theorem acceptCallback_pcb {n2t : N2T Unit Unit Unit Unit PcbRef} {ref : PcbRef}
    {call : AcceptCall Unit Unit PcbRef} (called : (n2t.acceptCallback ref true).2 = some call) :
    call.pcb = ref := by
  rw [N2T.acceptCallback, if_pos rfl] at called
  split at called
  · cases called
    rfl
  · cases called

theorem Sound.acceptCallback (sound : s.Sound) {pcb : Nat}
    (live : (s.heap pcb).pcb.freed = false) : (s.acceptCallback pcb).Sound := by
  refine (sound.withN2T _).handOut fun call called => ?_
  rw [acceptCallback_pcb called]
  exact owns_ref live

/-! ### Operations on one pcb -/

/-- What lwIP does for a pcb, one operation after the other. -/
inductive Works (pcb : Nat) (s : TcpStack) : TcpStack → Prop where
  | idle : Works pcb s s
  | free {t : TcpStack} (before : Works pcb s t) : Works pcb s (t.free pcb)
  | close {t : TcpStack} (before : Works pcb s t) : Works pcb s (t.updatePcb pcb TcpPcb.close)
  | setState {t : TcpStack} (before : Works pcb s t) (member : pcb ∈ t.active)
      (state : TcpState) : Works pcb s (t.setState pcb state)
  | callback {t : TcpStack} (before : Works pcb s t) {f : TcpSession → TcpSession}
      (isCallback : IsCallback f) : Works pcb s (t.callback pcb f)
  | accept {t : TcpStack} (before : Works pcb s t)
      (live : (t.heap pcb).pcb.freed = false) : Works pcb s (t.acceptCallback pcb)

theorem Works.sound {pcb : Nat} (works : Works pcb s t) (sound : s.Sound) : t.Sound := by
  induction works with
  | idle => exact sound
  | free _ kept => exact kept.free pcb
  | close _ kept => exact kept.updatePcb pcb (TcpPcb.close_freed _) (TcpPcb.close_ends _)
  | setState _ member state kept => exact kept.setState member state
  | callback _ isCallback kept => exact kept.callback pcb isCallback
  | accept _ live kept => exact kept.acceptCallback live

theorem Works.abandon {pcb : Nat} (works : Works pcb s t) : Works pcb s (t.abandon pcb) := by
  unfold TcpStack.abandon
  dsimp only
  split
  · exact works.free.callback (isCallback_errEvent .abrt)
  · exact works.free

theorem Works.reset {pcb : Nat} (works : Works pcb s t) : Works pcb s (t.reset pcb) := by
  unfold TcpStack.reset
  dsimp only
  split
  · exact (works.callback (isCallback_errEvent .rst)).free
  · exact works.free

theorem Works.closed {pcb : Nat} (works : Works pcb s t) : Works pcb s (t.closed pcb) := by
  unfold TcpStack.closed
  split
  · exact works.close
  · exact works.callback isCallback_closed

theorem isCallback_sent (len : Nat) : IsCallback fun session => session.step (.sent len) :=
  isCallback_step (.sent len) rfl (fun _ _ _ _ wrong => by cases wrong) rfl

theorem isCallback_recv (data : Bytes) : IsCallback fun session => session.step (.recv data) :=
  isCallback_step (.recv data) rfl (fun _ _ _ _ wrong => by cases wrong) rfl

theorem Works.deliver {pcb : Nat} (works : Works pcb s t) (processed : Processed) :
    Works pcb s (t.deliver pcb processed) := by
  have acked : Works pcb s (if 0 < processed.acked then
      t.callback pcb fun session => session.step (.sent processed.acked) else t) := by
    split
    · exact works.callback (isCallback_sent _)
    · exact works
  unfold TcpStack.deliver
  dsimp only
  generalize (if 0 < processed.acked then
    t.callback pcb fun session => session.step (.sent processed.acked) else t) = u at acked ⊢
  have received : Works pcb s (if processed.data ≠ [] then
      u.callback pcb fun session => session.step (.recv processed.data) else u) := by
    split
    · exact acked.callback (isCallback_recv _)
    · exact acked
  split
  · exact acked.free
  · split
    · exact acked.abandon
    · split
      · exact received.closed
      · exact received

theorem setState_live {pcb : Nat} (live : (s.heap pcb).pcb.freed = false) (state : TcpState) :
    ((s.setState pcb state).heap pcb).pcb.freed = false := by
  rw [setState_heap, updatePcb_self]
  exact live

theorem acceptCallback_active (s : TcpStack) (pcb : Nat) :
    (s.acceptCallback pcb).active = s.active := by
  unfold TcpStack.acceptCallback handOut
  dsimp only
  split <;> rfl

/-- A segment is work for the pcb it is processed by. -/
theorem works_process {pcb : Nat} (live : (s.heap pcb).pcb.freed = false)
    (member : pcb ∈ s.active) (segment : TcpSegment) (found : Received) :
    Works pcb s (s.process pcb segment found) := by
  unfold TcpStack.process
  dsimp only
  generalize tcpProcess (s.heap pcb).pcb.state segment found = processed
  have accepted : Works pcb s
        (if processed.accept then (s.setState pcb .established).acceptCallback pcb else s) ∧
      pcb ∈ (if processed.accept then (s.setState pcb .established).acceptCallback pcb
        else s).active := by
    split
    · refine ⟨(Works.idle.setState member .established).accept (setState_live live _), ?_⟩
      rw [acceptCallback_active]
      exact member
    · exact ⟨.idle, member⟩
  obtain ⟨works, still⟩ := accepted
  have moved := works.setState still processed.state
  split
  · exact moved.reset
  · exact moved.deliver processed

/-- A hit moves the pcb to the front of the list. -/
theorem Sound.moveToFront (sound : s.Sound) {pcb : Nat} (member : pcb ∈ s.active) :
    Sound { s with active := pcb :: s.active.erase pcb } := by
  have permuted : (pcb :: s.active.erase pcb).Perm s.active :=
    (List.perm_cons_erase member).symm
  have listed := sound.listed.reorder (permuted.append_right s.timeWait) permuted.subset
  exact ⟨⟨listed.nodup, listed.owned, listed.distinct, listed.born, listed.unbound,
    listed.listen⟩, sound.handed, sound.bound⟩

theorem Listed.live (listed : s.Listed) {pcb : Nat} (member : pcb ∈ s.active) :
    (s.heap pcb).pcb.freed = false :=
  (listed.owned pcb).mp (List.mem_append_left _ member)

/-- The test of the loops compares 4-tuples. -/
theorem Listed.isFor_iff (listed : s.Listed) {pcb : Nat} (member : pcb ∈ s.active ++ s.timeWait)
    (segment : TcpSegment) :
    (s.heap pcb).isFor s.inp segment = true ↔ (s.heap pcb).pcb.tuple = segment.tuple :=
  TcpBlock.isFor_iff (listed.unbound pcb ((listed.owned pcb).mp member)) s.inp segment

theorem Listed.search_none (listed : s.Listed) {segment : TcpSegment}
    (missed : ∀ pcb ∈ s.active, (s.heap pcb).pcb.tuple ≠ segment.tuple) :
    MoveToFront.search (fun pcb => (s.heap pcb).isFor s.inp segment) s.active = none :=
  MoveToFront.search_eq_none.mpr fun pcb member => Bool.eq_false_iff.mpr fun matched =>
    missed pcb member ((listed.isFor_iff (List.mem_append_left _ member) segment).mp matched)

/-- A segment is processed by the active pcb with its 4-tuple. -/
theorem Listed.input_active (listed : s.Listed) {segment : TcpSegment}
    (passes : segment.passes = true) {pcb : Nat} (member : pcb ∈ s.active)
    (same : (s.heap pcb).pcb.tuple = segment.tuple) (found : Received) (place : Option Nat)
    (enqueued : Bool) :
    s.input segment found place enqueued =
      { s with active := pcb :: s.active.erase pcb }.process pcb segment found := by
  have hit : MoveToFront.search (fun pcb => (s.heap pcb).isFor s.inp segment) s.active =
      some (pcb, pcb :: s.active.erase pcb) :=
    MoveToFront.search_key
      (fun _ inside => listed.isFor_iff (List.mem_append_left _ inside) segment)
      listed.distinct member same
  have taken : ¬ segment.passes = false := by simp [passes]
  rw [TcpStack.input, if_neg taken, hit]

/-- A segment whose 4-tuple no pcb has comes to the listener, whatever its destination. -/
theorem Listed.input_listen (listed : s.Listed) {segment : TcpSegment}
    (passes : segment.passes = true)
    (fresh : ∀ pcb ∈ s.active ++ s.timeWait, (s.heap pcb).pcb.tuple ≠ segment.tuple)
    (found : Received) (place : Option Nat) (enqueued : Bool) :
    s.input segment found place enqueued =
      s.listenInput n2tListener segment place enqueued := by
  have missed := listed.search_none fun pcb member => fresh pcb (List.mem_append_left _ member)
  have notWaiting : ¬ s.timeWait.any (fun pcb => (s.heap pcb).isFor s.inp segment) = true := by
    rw [List.any_eq_true]
    rintro ⟨pcb, member, matched⟩
    have inside : pcb ∈ s.active ++ s.timeWait := List.mem_append_right _ member
    exact fresh pcb inside ((listed.isFor_iff inside segment).mp matched)
  have taken : ¬ segment.passes = false := by simp [passes]
  have listening : s.listen = [n2tListener] := listed.listen
  have reordered : { s with listen := n2tListener :: s.listen.erase n2tListener } = s := by
    rw [listening, List.erase_cons_head, ← listening]
  rw [TcpStack.input, if_neg taken, missed]
  dsimp only
  rw [if_neg notWaiting, listening, tcpListenLoop_n2t]
  dsimp only
  rw [← listening, reordered]

/-- Where a segment may end. -/
theorem Listed.input_cases (listed : s.Listed) (segment : TcpSegment) (found : Received)
    (place : Option Nat) (enqueued : Bool) :
    s.input segment found place enqueued = s ∨
      (∃ pcb ∈ s.active, s.input segment found place enqueued =
        { s with active := pcb :: s.active.erase pcb }.process pcb segment found) ∨
      ((∀ pcb ∈ s.active, (s.heap pcb).pcb.tuple ≠ segment.tuple) ∧
        s.input segment found place enqueued =
          s.listenInput n2tListener segment place enqueued) := by
  cases passes : segment.passes with
  | false =>
    left
    rw [TcpStack.input, if_pos passes]
  | true =>
    by_cases active : ∃ pcb ∈ s.active, (s.heap pcb).pcb.tuple = segment.tuple
    · obtain ⟨pcb, member, same⟩ := active
      exact Or.inr (Or.inl ⟨pcb, member, listed.input_active passes member same _ _ _⟩)
    · have missed : ∀ pcb ∈ s.active, (s.heap pcb).pcb.tuple ≠ segment.tuple :=
        fun pcb member same => active ⟨pcb, member, same⟩
      by_cases waiting : ∃ pcb ∈ s.timeWait, (s.heap pcb).pcb.tuple = segment.tuple
      · left
        have any : s.timeWait.any (fun pcb => (s.heap pcb).isFor s.inp segment) = true := by
          obtain ⟨pcb, member, same⟩ := waiting
          exact List.any_eq_true.mpr ⟨pcb, member,
            (listed.isFor_iff (List.mem_append_right _ member) segment).mpr same⟩
        have taken : ¬ segment.passes = false := by simp [passes]
        rw [TcpStack.input, if_neg taken, listed.search_none missed]
        dsimp only
        rw [if_pos any]
      · refine Or.inr (Or.inr ⟨missed, ?_⟩)
        refine listed.input_listen passes (fun pcb member same => ?_) found place enqueued
        rcases List.mem_append.mp member with inside | inside
        · exact active ⟨pcb, inside, same⟩
        · exact waiting ⟨pcb, inside, same⟩

theorem Sound.listenInput (sound : s.Sound) {segment : TcpSegment}
    (fresh : ∀ other ∈ s.active, (s.heap other).pcb.tuple ≠ segment.tuple) {place : Option Nat}
    (unused : ∀ pcb ∈ place, (s.heap pcb).pcb.freed = true) (enqueued : Bool) :
    (s.listenInput n2tListener segment place enqueued).Sound := by
  unfold TcpStack.listenInput
  split
  · exact sound
  · split
    · exact sound
    · split
      · cases place with
        | none => exact sound
        | some pcb =>
          have registered := sound.register (unused pcb rfl) segment fresh
          show (if enqueued = true then s.register pcb n2tListener segment
            else (s.register pcb n2tListener segment).abandon pcb).Sound
          split
          · exact registered
          · exact (Works.abandon .idle).sound registered
      · exact sound

theorem Sound.input (sound : s.Sound) (segment : TcpSegment) (found : Received)
    {place : Option Nat} (unused : ∀ pcb ∈ place, (s.heap pcb).pcb.freed = true)
    (enqueued : Bool) : (s.input segment found place enqueued).Sound := by
  rcases sound.listed.input_cases segment found place enqueued with
    same | ⟨pcb, member, same⟩ | ⟨fresh, same⟩
  · rw [same]
    exact sound
  · rw [same]
    have moved := sound.moveToFront member
    have works := works_process (s := { s with active := pcb :: s.active.erase pcb })
      (sound.listed.live member) List.mem_cons_self segment found
    exact works.sound moved
  · rw [same]
    exact sound.listenInput fresh unused enqueued

end TcpStack

/-! ### What a step must not do -/

/-- The session builds the `CONNECT` request in this event. -/
def TcpSession.requests (s : TcpSession) : TcpEvent → Bool
  | .read data _ => s.status = .handshake && data = methodReply
  | _ => false

/-- The session ends in this event, and its socket closes the pcb. -/
def TcpSession.closes (s : TcpSession) (event : TcpEvent) : Bool :=
  s.alive && !(s.step event).alive && !s.inSock.pcbFreed

namespace TcpStack

variable {s : TcpStack}

/-- The step keeps to the pcbs that lwIP owns: a pcb is not handed out after it was freed, and
after that no session builds its request from it or closes it. -/
def KeepsToPcbs (s : TcpStack) : TcpStackEvent → Prop
  | .asyncAccept => ∀ ref ∈ s.n2t.connectionQue.head?, s.owns ref = true
  | .session index event => ∀ socket ∈ s.sockets[index]?,
      (s.owns socket.ref = false → (s.load socket).requests event = false) ∧
      ((s.heap socket.ref.pointer).pcb.freed = true → (s.load socket).closes event = false)
  | _ => True

instance (s : TcpStack) (event : TcpStackEvent) : Decidable (s.KeepsToPcbs event) :=
  match event with
  | .asyncAccept => inferInstanceAs (Decidable (∀ ref ∈ s.n2t.connectionQue.head?, _))
  | .session index _ => inferInstanceAs (Decidable (∀ socket ∈ s.sockets[index]?, _ ∧ _))
  | .segment .. | .timeout _ | .expire _ | .cancel => isTrue trivial

/-! ### Runs -/

theorem sound_new (inp : Netif) : (new inp).Sound := by
  refine ⟨⟨List.nodup_nil, fun pcb => ?_, List.nodup_nil, fun _ live => ?_, fun _ live => ?_,
    rfl⟩, fun socket member => ?_, fun _ _ live => ?_⟩
  · exact iff_of_false List.not_mem_nil (fun wrong => by cases wrong)
  · cases live
  · cases live
  · cases member
  · cases live

/-- A completion that a session gets. -/
theorem Sound.session (sound : s.Sound) {index : Nat} {event : TcpEvent}
    (enabled : s.enabled (.session index event)) (keeps : s.KeepsToPcbs (.session index event)) :
    (s.call index fun session => session.step event).Sound := by
  obtain ⟨socket, found, completion, enabled⟩ := enabled
  have same {other : HandedSocket} (at' : s.sockets[index]? = some other) : other = socket :=
    Option.some.inj (at'.symm.trans (Option.mem_def.mp found))
  have notLwip : freesPcb event = false ∧ ∀ ip1 ip2 port1 port2,
      event ≠ .reuse ip1 ip2 port1 port2 := by
    refine ⟨?_, ?_⟩
    · cases event <;> first | rfl | cases completion
    · rintro _ _ _ _ rfl
      cases completion
  refine sound.call (fun _ _ => frame_step _ event notLwip.1 notLwip.2)
    fun other tuple at' born bears => ?_
  cases same at'
  have paced : (s.load socket).Paced :=
    ⟨bears.paced.connecting, bears.paced.greeted, bears.paced.requested, bears.paced.long⟩
  refine ⟨bears.ends, paced.step enabled, ?_⟩
  rcases requested_step paced event enabled with kept | ⟨handshake, ⟨accepted, rfl⟩, built⟩
  · rw [show TcpSession.requested (TcpSession.step _ event) = socket.session.requested from kept]
    exact bears.named
  · have builds : (s.load socket).requests (.read methodReply accepted) = true := by
      rw [TcpSession.requests, handshake]
      rfl
    have owned : s.owns socket.ref = true := by
      by_contra unowned
      have unowned := Bool.eq_false_iff.mpr unowned
      cases ((keeps socket found).1 unowned).symm.trans builds
    have ends := sound.listed.ends_of_owns owned born
    have localIp : (s.load socket).pcb.localIp = .of tuple.localIp :=
      congrArg Ends.localIp ends
    have localPort : (s.load socket).pcb.localPort = tuple.localPort :=
      congrArg Ends.localPort ends
    rw [localIp, localPort] at built
    exact Or.inr built

/-- What `async_accept` takes out of the queue it takes from the front. -/
theorem asyncAccept_pcb {n2t : N2T Unit Unit Unit Unit PcbRef}
    {call : AcceptCall Unit Unit PcbRef} (called : (n2t.asyncAccept () ()).2 = some call) :
    call.pcb ∈ n2t.connectionQue.head? := by
  unfold N2T.asyncAccept at called
  split at called
  · cases called
  · rename_i waiting
    cases called
    rw [waiting]
    rfl

theorem Sound.step (sound : s.Sound) (event : TcpStackEvent) (enabled : s.enabled event)
    (keeps : s.KeepsToPcbs event) : (s.step event).Sound := by
  cases event with
  | segment segment found place enqueued => exact sound.input segment found enabled enqueued
  | timeout pcb => exact (Works.abandon .idle).sound sound
  | expire pcb => exact sound.free pcb
  | asyncAccept =>
    refine (sound.withN2T _).handOut fun call called => ?_
    exact keeps call.pcb (asyncAccept_pcb called)
  | cancel => exact sound.withN2T _
  | session index event => exact sound.session enabled keeps

/-- The run lemma: the stack is sound as long as every step keeps to the pcbs that lwIP owns. -/
theorem sound_run (inp : Netif) {events : List TcpStackEvent}
    (guarded : tcpStackSystem.Guarded KeepsToPcbs (.new inp) events) :
    (tcpStackSystem.run events (.new inp)).Sound :=
  tcpStackSystem.guarded_induction Sound
    (fun _ event enabled keeps sound => sound.step event enabled keeps) guarded (sound_new inp)

end TcpStack

end Net2Tr
