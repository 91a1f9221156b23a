/-
This file is about `N2S::start` and `N2S::stop`: does every start run the event
loop until the next stop, with one wait on the timer and one on the tun device?

A handler is called in the event loop and ends with the call that waits again.
The two are separate steps here, so that `start` and `stop` may come between
them. `start` clears the flag of `N2SInternal` as if it could come again, but
nobody calls `restart` on the `io_context`, and the waits of the last time are
still there, an aborted one of the timer included, whose handler waits again.
-/

import Libn2t.UdpSession

namespace Net2Tr

/-- The last call of a handler. -/
inductive LoopCall where
  | asyncWaitTimer
  | asyncReadFd
deriving DecidableEq, Repr

/-- `N2SInternal`, as far as the event loop goes: its flag and that of the `io_context`, the calls
of `run` that have not returned, the waits on `lwip_timer` and on the tun device whose handlers
have not been called, and the handlers under way with the calls they end with. The last two fields
count the starts since the last stop and tell whether `start` or `stop` has been called; no
function reads them. -/
structure EventLoop where
  stopped : Bool
  contextStopped : Bool
  runs : Nat
  timer : List Wait
  tun : List Wait
  calls : List LoopCall
  starts : Nat
  called : Bool
deriving DecidableEq, Repr

namespace EventLoop

/-- The constructor. -/
def new : EventLoop where
  stopped := false
  contextStopped := false
  runs := 0
  timer := []
  tun := []
  calls := []
  starts := 0
  called := false

variable (loop : EventLoop)

/-- `async_wait_timer`; `expires_after` cancels what is pending. -/
def asyncWaitTimer : EventLoop :=
  if loop.stopped then loop
  else { loop with timer := loop.timer.map Wait.cancel ++ [.armed] }

/-- `async_read_fd`. -/
def asyncReadFd : EventLoop :=
  if loop.stopped then loop
  else { loop with tun := loop.tun ++ [.armed] }

/-- `io_context::run`, which returns at once from a stopped context. -/
def run : EventLoop :=
  if loop.contextStopped then loop else { loop with runs := loop.runs + 1 }

/-- `N2S::start`. -/
def start : EventLoop :=
  { loop with
    stopped := false
    starts := loop.starts + 1
    called := true }.asyncWaitTimer.asyncReadFd.run

/-- `N2S::stop`. All calls of `run` return. -/
def stop : EventLoop :=
  { loop with
    stopped := true
    timer := loop.timer.map Wait.cancel
    contextStopped := true
    runs := 0
    starts := 0
    called := true }

/-- A handler goes on to its last call. -/
def proceed : EventLoop :=
  match loop.calls with
  | [] => loop
  | .asyncWaitTimer :: rest => { loop with calls := rest }.asyncWaitTimer
  | .asyncReadFd :: rest => { loop with calls := rest }.asyncReadFd

end EventLoop

/-- What happens to the loop: `start` and `stop`, the timer expires, the tun device becomes
readable, a handler of a wait is called, and a handler under way goes on. -/
inductive LoopEvent where
  | start
  | stop
  | expire
  | readable
  | waited (ok : Bool)
  | read (ok : Bool)
  | proceed
deriving DecidableEq, Repr

namespace EventLoop

variable (loop : EventLoop)

/-- Some call of `run` is not in a handler. -/
def Polls : Prop := loop.calls.length < loop.runs

/-- The event can happen. -/
def enabled : LoopEvent → Prop
  | .start | .stop => True
  | .expire => loop.Polls ∧ .armed ∈ loop.timer
  | .readable => loop.Polls ∧ .armed ∈ loop.tun
  | .waited ok => loop.Polls ∧ UdpSession.outcome ok ∈ loop.timer
  | .read ok => loop.Polls ∧ UdpSession.outcome ok ∈ loop.tun
  | .proceed => loop.calls ≠ []

/-- The effect of an event. -/
def step : LoopEvent → EventLoop
  | .start => loop.start
  | .stop => loop.stop
  | .expire => { loop with timer := loop.timer.replace .armed .fired }
  | .readable => { loop with tun := loop.tun.replace .armed .fired }
  | .waited ok =>
    { loop with
      timer := loop.timer.erase (UdpSession.outcome ok)
      calls := .asyncWaitTimer :: loop.calls }
  | .read ok =>
    { loop with
      tun := loop.tun.erase (UdpSession.outcome ok)
      calls := .asyncReadFd :: loop.calls }
  | .proceed => loop.proceed

/-- Every start since the last stop runs the event loop, and there is at most one wait on the timer
and on the tun device. -/
def InOrder : Prop :=
  loop.runs = loop.starts ∧ loop.timer.length ≤ 1 ∧ loop.tun.length ≤ 1

/-- `start` is the first call. -/
def StartsFirst : LoopEvent → Prop
  | .start => loop.called = false
  | _ => True

instance (event : LoopEvent) : Decidable (loop.enabled event) :=
  match event with
  | .start | .stop => isTrue trivial
  | .expire | .readable | .waited _ | .read _ => inferInstanceAs (Decidable (_ < _ ∧ _ ∈ _))
  | .proceed => inferInstanceAs (Decidable (_ ≠ _))

instance (event : LoopEvent) : Decidable (loop.StartsFirst event) :=
  match event with
  | .start => inferInstanceAs (Decidable (_ = false))
  | .stop | .expire | .readable | .waited _ | .read _ | .proceed => isTrue trivial

instance : Decidable loop.InOrder := inferInstanceAs (Decidable (_ ∧ _ ∧ _))

end EventLoop

/-- The event loop as a transition system. -/
def loopSystem : Transition.System EventLoop LoopEvent where
  enabled := EventLoop.enabled
  step := EventLoop.step

instance (loop : EventLoop) (event : LoopEvent) : Decidable (loopSystem.enabled loop event) :=
  inferInstanceAs (Decidable (loop.enabled event))

namespace EventLoop

variable {loop : EventLoop}

/-! ### The loop and its waits -/

/-- Between the start and the stop: each of the two waits is pending, or its handler is under
way. -/
structure Live (loop : EventLoop) : Prop where
  opened : loop.stopped = false ∧ loop.contextStopped = false
  once : loop.runs = 1 ∧ loop.starts = 1
  single : loop.calls.length ≤ 1
  timer : loop.timer.length + loop.calls.count .asyncWaitTimer = 1
  tun : loop.tun.length + loop.calls.count .asyncReadFd = 1
  called : loop.called = true

/-- Behind the stop: nothing runs, and the waits are still there. -/
structure Halted (loop : EventLoop) : Prop where
  closed : loop.stopped = true ∧ loop.contextStopped = true
  idle : loop.runs = 0 ∧ loop.starts = 0
  timer : loop.timer.length ≤ 1
  tun : loop.tun.length ≤ 1
  called : loop.called = true

/-- Before the start, between start and stop, or behind the stop. -/
def Tidy (loop : EventLoop) : Prop := loop = new ∨ loop.Live ∨ loop.Halted

theorem Tidy.inOrder (tidy : loop.Tidy) : loop.InOrder := by
  rcases tidy with rfl | live | halted
  · exact ⟨rfl, Nat.zero_le 1, Nat.zero_le 1⟩
  · refine ⟨live.once.1.trans live.once.2.symm, ?_, ?_⟩
    · exact le_of_add_le_left live.timer.le
    · exact le_of_add_le_left live.tun.le
  · exact ⟨halted.idle.1.trans halted.idle.2.symm, halted.timer, halted.tun⟩

theorem live_start : (start new).Live :=
  ⟨⟨rfl, rfl⟩, ⟨rfl, rfl⟩, Nat.zero_le 1, rfl, rfl, rfl⟩

theorem Tidy.stop (tidy : loop.Tidy) : loop.stop.Halted := by
  obtain ⟨_, timer, tun⟩ := tidy.inOrder
  refine ⟨⟨rfl, rfl⟩, ⟨rfl, rfl⟩, ?_, tun, rfl⟩
  change (loop.timer.map Wait.cancel).length ≤ 1
  rw [List.length_map]
  exact timer

theorem Live.polls (live : loop.Live) (polls : loop.Polls) : loop.calls = [] := by
  unfold Polls at polls
  rw [live.once.1] at polls
  exact List.length_eq_zero_iff.mp (Nat.lt_one_iff.mp polls)

theorem Halted.not_polls (halted : loop.Halted) : ¬ loop.Polls := by
  unfold Polls
  rw [halted.idle.1]
  exact Nat.not_lt_zero _

/-- A handler that is called takes its wait away until its last call. -/
theorem Live.waited (live : loop.Live) {ok : Bool} (polls : loop.Polls)
    (member : UdpSession.outcome ok ∈ loop.timer) : (loop.step (.waited ok)).Live := by
  have none := live.polls polls
  obtain ⟨opened, once, _, timer, tun, called⟩ := live
  have erased := List.length_erase_of_mem member
  rw [none] at timer tun
  refine ⟨opened, once, ?_, ?_, ?_, called⟩
  all_goals
    unfold step
    dsimp only
    rw [none]
  · exact Nat.le_refl 1
  · rw [List.count_nil, Nat.add_zero] at timer
    rw [erased, List.count_cons_self, List.count_nil, timer]
  · exact tun

theorem Live.read (live : loop.Live) {ok : Bool} (polls : loop.Polls)
    (member : UdpSession.outcome ok ∈ loop.tun) : (loop.step (.read ok)).Live := by
  have none := live.polls polls
  obtain ⟨opened, once, _, timer, tun, called⟩ := live
  have erased := List.length_erase_of_mem member
  rw [none] at timer tun
  refine ⟨opened, once, ?_, ?_, ?_, called⟩
  all_goals
    unfold step
    dsimp only
    rw [none]
  · exact Nat.le_refl 1
  · exact timer
  · rw [List.count_nil, Nat.add_zero] at tun
    rw [erased, List.count_cons_self, List.count_nil, tun]

/-- The last call of a handler waits again. -/
theorem Live.proceed (live : loop.Live) (busy : loop.calls ≠ []) : loop.proceed.Live := by
  obtain ⟨⟨opened, context⟩, once, single, timer, tun, called⟩ := live
  unfold EventLoop.proceed
  match calls : loop.calls, single with
  | [], _ => exact absurd calls busy
  | [.asyncWaitTimer], _ =>
    rw [calls] at timer tun
    have empty : loop.timer = [] := List.length_eq_zero_iff.mp (Nat.succ_inj.mp timer)
    dsimp only
    rw [asyncWaitTimer, if_neg (by rw [opened]; exact Bool.false_ne_true)]
    refine ⟨⟨opened, context⟩, once, Nat.zero_le 1, ?_, tun, called⟩
    change (loop.timer.map Wait.cancel ++ [Wait.armed]).length + 0 = 1
    rw [empty]
    rfl
  | [.asyncReadFd], _ =>
    rw [calls] at timer tun
    have empty : loop.tun = [] := List.length_eq_zero_iff.mp (Nat.succ_inj.mp tun)
    dsimp only
    rw [asyncReadFd, if_neg (by rw [opened]; exact Bool.false_ne_true)]
    refine ⟨⟨opened, context⟩, once, Nat.zero_le 1, timer, ?_, called⟩
    change (loop.tun ++ [Wait.armed]).length + 0 = 1
    rw [empty]
    rfl

/-- The last call of a handler that is under way when `stop` comes does nothing. -/
theorem Halted.proceed (halted : loop.Halted) : loop.proceed.Halted := by
  obtain ⟨⟨stopped, context⟩, idle, timer, tun, called⟩ := halted
  unfold EventLoop.proceed
  split
  · exact ⟨⟨stopped, context⟩, idle, timer, tun, called⟩
  · rw [asyncWaitTimer, if_pos stopped]
    exact ⟨⟨stopped, context⟩, idle, timer, tun, called⟩
  · rw [asyncReadFd, if_pos stopped]
    exact ⟨⟨stopped, context⟩, idle, timer, tun, called⟩

theorem Live.step (live : loop.Live) {event : LoopEvent} (enabled : loop.enabled event)
    (startsFirst : loop.StartsFirst event) : (loop.step event).Tidy := by
  cases event with
  | start => cases live.called.symm.trans startsFirst
  | stop => exact Or.inr (Or.inr (Tidy.stop (Or.inr (Or.inl live))))
  | expire =>
    obtain ⟨opened, once, single, timer, tun, called⟩ := live
    have same : (loop.timer.replace .armed .fired).length = loop.timer.length :=
      List.length_replace
    exact Or.inr (Or.inl ⟨opened, once, single, same.symm ▸ timer, tun, called⟩)
  | readable =>
    obtain ⟨opened, once, single, timer, tun, called⟩ := live
    have same : (loop.tun.replace .armed .fired).length = loop.tun.length := List.length_replace
    exact Or.inr (Or.inl ⟨opened, once, single, timer, same.symm ▸ tun, called⟩)
  | waited ok => exact Or.inr (Or.inl (live.waited enabled.1 enabled.2))
  | read ok => exact Or.inr (Or.inl (live.read enabled.1 enabled.2))
  | proceed => exact Or.inr (Or.inl (live.proceed enabled))

theorem Halted.step (halted : loop.Halted) {event : LoopEvent} (enabled : loop.enabled event)
    (startsFirst : loop.StartsFirst event) : (loop.step event).Tidy := by
  cases event with
  | start => cases halted.called.symm.trans startsFirst
  | stop => exact Or.inr (Or.inr (Tidy.stop (Or.inr (Or.inr halted))))
  | expire => exact absurd enabled.1 halted.not_polls
  | readable => exact absurd enabled.1 halted.not_polls
  | waited ok => exact absurd enabled.1 halted.not_polls
  | read ok => exact absurd enabled.1 halted.not_polls
  | proceed => exact Or.inr (Or.inr halted.proceed)

theorem Tidy.step (tidy : loop.Tidy) {event : LoopEvent} (enabled : loop.enabled event)
    (startsFirst : loop.StartsFirst event) : (loop.step event).Tidy := by
  rcases tidy with rfl | live | halted
  · cases event with
    | start => exact Or.inr (Or.inl live_start)
    | stop => exact Or.inr (Or.inr (Tidy.stop (Or.inl rfl)))
    | expire => exact absurd enabled.1 (Nat.not_lt_zero _)
    | readable => exact absurd enabled.1 (Nat.not_lt_zero _)
    | waited ok => exact absurd enabled.1 (Nat.not_lt_zero _)
    | read ok => exact absurd enabled.1 (Nat.not_lt_zero _)
    | proceed => exact absurd rfl enabled
  · exact live.step enabled startsFirst
  · exact halted.step enabled startsFirst

/-- A start waits for the timer and the device and runs the loop unless the context is stopped. -/
theorem start_eq (loop : EventLoop) :
    loop.start =
      { loop with
        stopped := false
        runs := if loop.contextStopped then loop.runs else loop.runs + 1
        timer := loop.timer.map Wait.cancel ++ [.armed]
        tun := loop.tun ++ [.armed]
        starts := loop.starts + 1
        called := true } := by
  rw [start, asyncWaitTimer, if_neg Bool.false_ne_true, asyncReadFd, if_neg Bool.false_ne_true, run]
  cases loop.contextStopped <;> rfl

/-- A second start of a running loop waits twice, for the timer or for the device. -/
theorem Live.not_inOrder_start (live : loop.Live) : ¬ loop.start.InOrder := by
  obtain ⟨_, _, single, timer, tun, _⟩ := live
  rw [start_eq]
  rintro ⟨_, oneTimer, oneTun⟩
  change (loop.timer.map Wait.cancel ++ [Wait.armed]).length ≤ 1 at oneTimer
  change (loop.tun ++ [Wait.armed]).length ≤ 1 at oneTun
  rw [List.length_append, List.length_map, List.length_singleton] at oneTimer
  rw [List.length_append, List.length_singleton] at oneTun
  have waitTimer : loop.calls.count .asyncWaitTimer = 1 := by omega
  have readFd : loop.calls.count .asyncReadFd = 1 := by omega
  match calls : loop.calls, single with
  | [], _ =>
    rw [calls] at waitTimer
    cases waitTimer
  | [.asyncWaitTimer], _ =>
    rw [calls] at readFd
    cases readFd
  | [.asyncReadFd], _ =>
    rw [calls] at waitTimer
    cases waitTimer

/-- A start behind the stop does not run. -/
theorem Halted.not_inOrder_start (halted : loop.Halted) : ¬ loop.start.InOrder := by
  obtain ⟨⟨_, context⟩, ⟨runs, starts⟩, _⟩ := halted
  rw [start_eq, context, if_pos rfl, runs, starts]
  rintro ⟨wrong, _⟩
  cases wrong

/-- A start that is not the first call goes wrong. -/
theorem Tidy.not_inOrder (tidy : loop.Tidy) {event : LoopEvent}
    (again : ¬ loop.StartsFirst event) : ¬ (loop.step event).InOrder := by
  cases event with
  | start =>
    rcases tidy with rfl | live | halted
    · exact absurd rfl again
    · exact live.not_inOrder_start
    · exact halted.not_inOrder_start
  | _ => exact absurd trivial again

end EventLoop

/-- One start, both handlers once, one stop. -/
abbrev onceRun : List LoopEvent :=
  [.start, .expire, .waited true, .proceed, .readable, .read true, .proceed, .stop]

end Net2Tr
