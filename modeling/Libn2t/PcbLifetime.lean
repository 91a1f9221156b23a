/-
This file proves when a session misuses its pcb. The socket knows that lwIP has
freed the pcb only from the flag `pcb_freed`, and `cancel` and the two getters
of the destination do not look at it.

Two kinds of freeing are harmless: a RST while the err callback is registered,
because lwIP runs that callback before it frees the pcb, and any freeing after
the session was destroyed with the flag set, because no operation follows. Every
other freeing ends in a misuse, at the latest in the destructor.
-/

import Libn2t.TcpInvariant

namespace Net2Tr

namespace TcpSession

/-- lwIP frees the pcb only by a RST while the err callback is registered, or after the session
was destroyed with `pcb_freed` set. -/
def FreedKnowingly (s : TcpSession) : TcpEvent → Prop
  | .finalAck | .abort => s.status = .destroy ∧ s.inSock.pcbFreed = true
  | .rst => s.pcb.errf = true ∨ (s.status = .destroy ∧ s.inSock.pcbFreed = true)
  | _ => True

instance (s : TcpSession) (event : TcpEvent) : Decidable (s.FreedKnowingly event) :=
  match event with
  | .finalAck | .abort => inferInstanceAs (Decidable (s.status = .destroy ∧ _))
  | .rst => inferInstanceAs (Decidable (s.pcb.errf = true ∨ (s.status = .destroy ∧ _)))
  | .connected _ | .wrote _ | .read _ _ | .readError | .recv _ | .fin | .sent _ | .reuse .. =>
    isTrue trivial

/-! ### Runs that meet the condition -/

/-- A destroyed session that knows that its pcb is gone. -/
def Settled (s : TcpSession) : Prop := s.status = .destroy ∧ s.inSock.pcbFreed = true

/-- No misuse so far, and none to come from a freed pcb. -/
structure Clean (s : TcpSession) : Prop where
  misuses : s.pcb.misuses = []
  settled : s.pcb.freed = true → s.Settled

theorem release_pcbFreed (s : TcpSession) : s.release.inSock.pcbFreed = s.inSock.pcbFreed := by
  rcases s.release_cases with same | destructed
  · rw [same]
  · rw [destructed]
    exact s.destroy_pcbFreed

/-- The destructor of a settled session does not touch the pcb. -/
theorem Settled.release {s : TcpSession} (settled : s.Settled) :
    s.release.pcb = s.pcb ∧ s.release.Settled := by
  refine ⟨?_, release_status settled.1, by rw [release_pcbFreed]; exact settled.2⟩
  rcases s.release_cases with same | destructed
  · rw [same]
  · rw [destructed]
    simp only [destructor, destroy_of_destroyed settled.1, Socket.destructor, settled.2, if_true]

/-- A settled session whose pcb is gone does nothing with it any more. -/
theorem Settled.step {s : TcpSession} (settled : s.Settled) (freed : s.pcb.freed = true)
    (event : TcpEvent) (enabled : s.enabled event) :
    (s.step event).pcb.misuses = s.pcb.misuses ∧ (s.step event).Settled := by
  have kept (t : TcpSession) (pcb : t.pcb = s.pcb) (again : t.Settled) :
      t.release.pcb.misuses = s.pcb.misuses ∧ t.release.Settled := by
    rw [again.release.1, pcb]
    exact ⟨rfl, again.release.2⟩
  cases event with
  | connected ok =>
    refine kept _ ?_ ?_
    · split
      · rfl
      · rw [destroy_of_destroyed (by exact settled.1)]
        rfl
    · split
      · exact settled
      · rw [destroy_of_destroyed (by exact settled.1)]
        exact settled
  | wrote ok =>
    have idle : (s.complete .write ok).outSent = s.complete .write ok := by
      have status : (s.complete .write ok).status = .destroy := settled.1
      simp only [outSent, status]
    refine kept _ ?_ ?_ <;> split
    · rw [idle]
      rfl
    · rw [destroy_of_destroyed (by exact settled.1)]
      rfl
    · rw [idle]
      exact settled
    · rw [destroy_of_destroyed (by exact settled.1)]
      exact settled
  | read data accepted =>
    have idle (t : TcpSession) (status : t.status = .destroy) : t.outRecv data accepted = t := by
      simp only [outRecv, status]
    refine kept _ ?_ ?_
    · rw [idle _ (by exact settled.1)]
      rfl
    · rw [idle _ (by exact settled.1)]
      exact settled
  | readError =>
    refine kept _ ?_ ?_ <;> rw [destroy_of_destroyed (by exact settled.1)]
    · rfl
    · exact settled
  | recv data => cases freed.symm.trans enabled.2.1
  | fin => cases freed.symm.trans enabled.2.1
  | sent len => cases freed.symm.trans enabled.2.1
  | finalAck => cases freed.symm.trans enabled.2.1
  | rst => cases freed.symm.trans enabled.2
  | abort => cases freed.symm.trans enabled.2
  | reuse => exact ⟨rfl, settled⟩

/-- Freeing the pcb of a settled session. -/
theorem Clean.free {s : TcpSession} (clean : s.Clean) (settled : s.Settled) :
    Clean { s with pcb := s.pcb.free } :=
  ⟨clean.misuses, fun _ => settled⟩

theorem Clean.step {s : TcpSession} (clean : s.Clean) (wired : s.Wired) (event : TcpEvent)
    (enabled : s.enabled event) (knowingly : s.FreedKnowingly event) :
    (s.step event).Clean := by
  cases freed : s.pcb.freed with
  | true =>
    obtain ⟨misuses, settled⟩ := (clean.settled freed).step freed event enabled
    exact ⟨misuses.trans clean.misuses, fun _ => settled⟩
  | false =>
    have frames := s.frame_step event
    cases event with
    | finalAck => exact clean.free knowingly
    | rst =>
      unfold TcpSession.step
      dsimp only
      split
      · rename_i registered
        have undestroyed := wired.undestroyed (Or.inr (Or.inr registered))
        have frame := (s.frame_errEvent .rst).trans (frame_release _)
        refine ⟨(frame.clean freed).trans clean.misuses, fun _ => ⟨release_status ?_, ?_⟩⟩
        · rw [errEvent_eq (wired.registered undestroyed).2.2.2, destroy_status]
        · refine (release_pcbFreed _).trans ?_
          rw [errEvent_eq (wired.registered undestroyed).2.2.2, destroy_pcbFreed]
      · rename_i unregistered
        exact clean.free (knowingly.resolve_left unregistered)
    | abort =>
      have unregistered : s.pcb.errf = false := (wired.cancelled knowingly.1).2.2.1
      unfold TcpSession.step
      dsimp only
      rw [unregistered, if_neg Bool.false_ne_true]
      exact clean.free knowingly
    | reuse => cases freed.symm.trans enabled.2
    | _ =>
      have frame := frames rfl (fun _ _ _ _ wrong => by cases wrong)
      refine ⟨(frame.clean freed).trans clean.misuses, fun gone => ?_⟩
      cases gone.symm.trans (frame.freed.trans freed)

/-! ### Runs that miss the condition -/

/-- A misuse has happened, or the pcb is gone and a later operation will touch it. -/
def Doomed (s : TcpSession) : Prop :=
  s.pcb.misuses ≠ [] ∨ (s.pcb.freed = true ∧ ¬ s.Settled)

theorem Doomed.congr {s t : TcpSession} (doomed : s.Doomed) (pcb : t.pcb = s.pcb)
    (status : t.status = s.status) (pcbFreed : t.inSock.pcbFreed = s.inSock.pcbFreed) :
    t.Doomed := by
  unfold Doomed Settled
  rw [pcb, status, pcbFreed]
  exact doomed

/-- A call that stays short of `destroy` keeps the doom. -/
theorem Doomed.frame {s t : TcpSession} (doomed : s.Doomed) (frame : PcbFrame s t)
    (undestroyed : t.status ≠ .destroy) : t.Doomed := by
  rcases doomed with misused | ⟨freed, _⟩
  · exact Or.inl (frame.lasting misused)
  · exact Or.inr ⟨frame.freed.trans freed, fun settled => undestroyed settled.1⟩

/-- `destroy` touches the pcb of a session that is not destroyed yet. -/
theorem misused_destroy {s : TcpSession} (freed : s.pcb.freed = true)
    (undestroyed : s.status ≠ .destroy) : s.destroy.pcb.misuses ≠ [] := by
  rw [destroy, if_neg undestroyed]
  exact TcpPcb.misuses_touch_of_freed .cancel freed

theorem Doomed.destroy {s : TcpSession} (doomed : s.Doomed) : s.destroy.Doomed := by
  by_cases destroyed : s.status = .destroy
  · rw [destroy_of_destroyed destroyed]
    exact doomed
  · rcases doomed with misused | ⟨freed, _⟩
    · exact Or.inl (s.frame_destroy.lasting misused)
    · exact Or.inl (misused_destroy freed destroyed)

/-- The destructor of a doomed session is a misuse at the latest. -/
theorem Doomed.destructor {s : TcpSession} (doomed : s.Doomed) :
    s.destructor.pcb.misuses ≠ [] := by
  rcases doomed with misused | ⟨freed, unsettled⟩
  · exact s.frame_destructor.lasting misused
  · by_cases destroyed : s.status = .destroy
    · have unknown : s.inSock.pcbFreed = false := by
        rw [← Bool.not_eq_true]
        exact fun known => unsettled ⟨destroyed, known⟩
      have touched := TcpPcb.misuses_touch_of_freed .destructor freed
      simp only [TcpSession.destructor, destroy_of_destroyed destroyed, Socket.destructor,
        unknown, Bool.false_eq_true, if_false]
      rw [TcpPcb.close_misuses]
      exact touched
    · have misused := misused_destroy freed destroyed
      simp only [TcpSession.destructor, Socket.destructor]
      split
      · exact misused
      · rw [TcpPcb.close_misuses]
        exact TcpPcb.misuses_touch_ne_nil .destructor misused

theorem Doomed.release {s : TcpSession} (doomed : s.Doomed) :
    s.release.Doomed ∧ (s.release.alive = false → s.alive = true →
      s.release.pcb.misuses ≠ []) := by
  rcases s.release_cases with same | destructed
  · rw [same]
    refine ⟨doomed, fun dead alive => ?_⟩
    cases dead.symm.trans alive
  · rw [destructed]
    exact ⟨Or.inl doomed.destructor, fun _ _ => doomed.destructor⟩

theorem Doomed.inRecv {s : TcpSession} (doomed : s.Doomed) (data : Bytes) :
    (s.inRecv data).Doomed := by
  unfold TcpSession.inRecv
  split
  · exact doomed.congr rfl rfl rfl
  · exact doomed

theorem Doomed.inAsyncRead {s : TcpSession} (doomed : s.Doomed) : s.inAsyncRead.Doomed := by
  by_cases freed : s.inSock.pcbFreed = true
  · rw [inAsyncRead_freed freed]
    exact Doomed.destroy (doomed.congr rfl rfl rfl)
  · rw [Bool.not_eq_true] at freed
    by_cases empty : s.inSock.recvBuf = []
    · rw [inAsyncRead_park freed empty]
      exact doomed.congr rfl rfl rfl
    · rw [inAsyncRead_take freed empty]
      refine Doomed.inRecv ?_ _
      exact doomed.congr rfl rfl rfl

theorem Doomed.inAsyncWrite {s : TcpSession} (doomed : s.Doomed) (data : Bytes)
    (accepted : Bool) (undestroyed : s.status ≠ .destroy) :
    (s.inAsyncWrite data accepted).Doomed := by
  have frame := s.frame_inAsyncWrite data accepted
  by_cases freed : s.inSock.pcbFreed = true
  · rw [inAsyncWrite_freed freed]
    exact Doomed.destroy (doomed.congr rfl rfl rfl)
  · rw [Bool.not_eq_true] at freed
    rw [inAsyncWrite_live freed] at frame ⊢
    exact doomed.frame frame undestroyed

theorem Doomed.outRecv {s : TcpSession} (doomed : s.Doomed) (data : Bytes) (accepted : Bool) :
    (s.outRecv data accepted).Doomed := by
  have frame := s.frame_outRecv data accepted
  unfold TcpSession.outRecv at frame ⊢
  split at frame
  · split_ifs at frame ⊢
    · exact doomed.destroy
    · dsimp only at frame ⊢
      split at frame <;> exact doomed.frame frame (fun wrong => by cases wrong)
  · rename_i request
    split_ifs at frame ⊢
    · exact doomed.destroy
    · have forwarding : TcpSession.Doomed { s with status := .forward } :=
        doomed.frame (.of_eq rfl) (fun wrong => by cases wrong)
      exact forwarding.inAsyncRead.congr rfl rfl rfl
  · rename_i forward
    exact doomed.inAsyncWrite data accepted (forward_undestroyed forward)
  · exact doomed

theorem Doomed.outSent {s : TcpSession} (doomed : s.Doomed) : s.outSent.Doomed := by
  unfold TcpSession.outSent
  split
  · exact doomed.congr rfl rfl rfl
  · exact doomed.congr rfl rfl rfl
  · exact doomed.inAsyncRead
  · exact doomed

/-- Doom is final: a dead session that was doomed has misused its pcb. -/
def Spoiled (s : TcpSession) : Prop := s.pcb.misuses ≠ [] ∨ (s.alive = true ∧ s.Doomed)

theorem Doomed.spoiled {s : TcpSession} (doomed : s.Doomed) (alive : s.alive = true) :
    s.release.Spoiled := by
  obtain ⟨released, dead⟩ := doomed.release
  cases stillAlive : s.release.alive with
  | true => exact Or.inr ⟨stillAlive, released⟩
  | false => exact Or.inl (dead stillAlive alive)

/-- Misuses stay on record. -/
theorem lasting_step {s : TcpSession} (misused : s.pcb.misuses ≠ []) (event : TcpEvent) :
    (s.step event).pcb.misuses ≠ [] := by
  have frames := s.frame_step event
  cases event with
  | finalAck => exact misused
  | rst =>
    unfold step
    dsimp only
    split
    · exact ((s.frame_errEvent .rst).trans (frame_release _)).lasting misused
    · exact misused
  | abort =>
    unfold step
    dsimp only
    split
    · exact ((frame_errEvent _ .abrt).trans (frame_release _)).lasting misused
    · exact misused
  | reuse => exact misused
  | _ => exact (frames rfl (fun _ _ _ _ wrong => by cases wrong)).lasting misused

theorem Spoiled.step {s : TcpSession} (spoiled : s.Spoiled) (event : TcpEvent)
    (enabled : s.enabled event) : (s.step event).Spoiled := by
  rcases spoiled with misused | ⟨alive, misused | ⟨freed, unsettled⟩⟩
  · exact Or.inl (lasting_step misused event)
  · exact Or.inl (lasting_step misused event)
  · have doomed : s.Doomed := Or.inr ⟨freed, unsettled⟩
    have kept (t : TcpSession) (doomed : t.Doomed) (same : t.alive = s.alive) :
        t.release.Spoiled := doomed.spoiled (same.trans alive)
    cases event with
    | connected ok =>
      have completed : (s.complete .connect ok).Doomed := doomed.congr rfl rfl rfl
      refine kept _ ?_ ?_ <;> split
      · exact completed.congr rfl rfl rfl
      · exact completed.destroy
      · rfl
      · exact destroy_alive _
    | wrote ok =>
      have completed : (s.complete .write ok).Doomed := doomed.congr rfl rfl rfl
      refine kept _ ?_ ?_ <;> split
      · exact completed.outSent
      · exact completed.destroy
      · exact alive_outSent _
      · exact destroy_alive _
    | read data accepted =>
      refine kept _ (Doomed.outRecv ?_ data accepted) (alive_outRecv _ data accepted)
      exact doomed.congr rfl rfl rfl
    | readError =>
      refine kept _ (Doomed.destroy ?_) (destroy_alive _)
      exact doomed.congr rfl rfl rfl
    | recv data => cases freed.symm.trans enabled.2.1
    | fin => cases freed.symm.trans enabled.2.1
    | sent len => cases freed.symm.trans enabled.2.1
    | finalAck => cases freed.symm.trans enabled.2.1
    | rst => cases freed.symm.trans enabled.2
    | abort => cases freed.symm.trans enabled.2
    | reuse => exact Or.inr ⟨alive, doomed⟩

/-- Freeing the pcb in any other way dooms the session. -/
theorem spoiled_of_missed {s : TcpSession} (wired : s.Wired) (event : TcpEvent)
    (enabled : s.enabled event) (missed : ¬ s.FreedKnowingly event) :
    (s.step event).Spoiled := by
  cases event with
  | finalAck => exact Or.inr ⟨enabled.1, Or.inr ⟨rfl, missed⟩⟩
  | rst =>
    rw [FreedKnowingly, not_or, Bool.not_eq_true] at missed
    unfold TcpSession.step
    dsimp only
    rw [missed.1, if_neg Bool.false_ne_true]
    exact Or.inr ⟨enabled.1, Or.inr ⟨rfl, missed.2⟩⟩
  | abort =>
    unfold TcpSession.step
    dsimp only
    split
    · rename_i registered
      have undestroyed := wired.undestroyed (Or.inr (Or.inr registered))
      rw [errEvent_eq (by exact (wired.registered undestroyed).2.2.2)]
      exact Or.inl ((frame_release _).lasting (misused_destroy rfl undestroyed))
    · exact Or.inr ⟨enabled.1, Or.inr ⟨rfl, missed⟩⟩
  | _ => exact absurd trivial missed

end TcpSession

/-- A run in which lwIP frees the pcb only by a RST with the err callback registered, or after
the session was destroyed with `pcb_freed` set, contains no operation on a freed pcb. A run to
the end of the session contains none exactly if it is such a run. -/
theorem pcb_lifetime (localIp remoteIp : IpCell) (localPort remotePort : Port)
    (events : List TcpEvent)
    (legal : tcpSystem.Legal (.init localIp remoteIp localPort remotePort) events) :
    (tcpSystem.Guarded TcpSession.FreedKnowingly
        (.init localIp remoteIp localPort remotePort) events →
      (tcpSystem.run events (.init localIp remoteIp localPort remotePort)).pcb.misuses = []) ∧
    ((tcpSystem.run events (.init localIp remoteIp localPort remotePort)).alive = false →
      ((tcpSystem.run events (.init localIp remoteIp localPort remotePort)).pcb.misuses = [] ↔
        tcpSystem.Guarded TcpSession.FreedKnowingly
          (.init localIp remoteIp localPort remotePort) events)) := by
  have wired := TcpSession.wired_init localIp remoteIp localPort remotePort
  have clean : (TcpSession.init localIp remoteIp localPort remotePort).Clean :=
    ⟨rfl, fun freed => by cases freed⟩
  have safe (guarded : tcpSystem.Guarded TcpSession.FreedKnowingly
      (.init localIp remoteIp localPort remotePort) events) :
      (tcpSystem.run events (.init localIp remoteIp localPort remotePort)).pcb.misuses = [] :=
    (tcpSystem.guarded_induction (fun s => s.Wired ∧ s.Clean)
      (fun _ event enabled knowingly both =>
        ⟨both.1.step event enabled, both.2.step both.1 event enabled knowingly⟩)
      guarded ⟨wired, clean⟩).2.misuses
  refine ⟨safe, fun dead => ⟨fun unused => ?_, safe⟩⟩
  refine tcpSystem.guarded_of_unspoiled TcpSession.Wired TcpSession.Spoiled
    (fun _ event enabled wired => wired.step event enabled)
    (fun _ event enabled wired missed => TcpSession.spoiled_of_missed wired event enabled missed)
    (fun _ event enabled _ spoiled => spoiled.step event enabled) legal wired ?_
  rintro (misused | ⟨alive, _⟩)
  · exact misused unused
  · cases dead.symm.trans alive

/-- The client resets the connection and the connection to the proxy fails after that. -/
theorem pcb_lifetime_reset :
    (tcpSystem.Guarded TcpSession.FreedKnowingly sampleSession [.rst, .connected false] →
      (tcpSystem.run [.rst, .connected false] sampleSession).pcb.misuses = []) ∧
    ((tcpSystem.run [.rst, .connected false] sampleSession).alive = false →
      ((tcpSystem.run [.rst, .connected false] sampleSession).pcb.misuses = [] ↔
        tcpSystem.Guarded TcpSession.FreedKnowingly sampleSession [.rst, .connected false])) :=
  pcb_lifetime sampleDst.1 sampleSrc.1 sampleDst.2 sampleSrc.2 [.rst, .connected false]
    (by decide)

/-- lwIP gives the connection up: it frees the pcb and calls the err callback, whose `destroy`
cancels the callbacks of the freed pcb. -/
theorem pcb_lifetime_abort :
    tcpSystem.Legal sampleSession [.abort] ∧
      (tcpSystem.run [.abort] sampleSession).pcb.misuses = [.cancel] := by
  decide

end Net2Tr
