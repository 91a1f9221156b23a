/-
This file is the run calculus of a guarded transition system: a deterministic
step function together with the condition under which each event may happen.
All nondeterminism sits in the choice of the events, so a run is a list of
events, its final state is a fold, and every induction over runs is an
induction over that list.

Two rules carry the rest of the development. The invariant rule turns a step
lemma into a fact about every reachable state. The guarded rule does the same
for the runs whose steps all meet a further condition on the state before the
step and the event taken, which is the form of a property that the system has
only while some bad combination of state and event does not occur.
-/

import Mathlib.Data.List.Basic

namespace Transition

variable {State Event : Type}

/-- A guarded transition system: which events may happen in a state, and what they do. -/
structure System (State Event : Type) where
  enabled : State → Event → Prop
  step : State → Event → State

namespace System

variable (system : System State Event)

/-- The state a list of events leads to. -/
def run (events : List Event) (state : State) : State :=
  events.foldl system.step state

/-- Every event of the list may happen in the state it is taken in and meets the guard
there. -/
def Guarded (guard : State → Event → Prop) : State → List Event → Prop
  | _, [] => True
  | state, event :: rest =>
    (system.enabled state event ∧ guard state event) ∧
      Guarded guard (system.step state event) rest

/-- Every event of the list may happen in the state it is taken in. -/
def Legal (state : State) (events : List Event) : Prop :=
  system.Guarded (fun _ _ => True) state events

instance decidableGuarded (guard : State → Event → Prop)
    [∀ state event, Decidable (system.enabled state event)]
    [∀ state event, Decidable (guard state event)] :
    ∀ (state : State) (events : List Event), Decidable (system.Guarded guard state events)
  | _, [] => isTrue trivial
  | state, event :: rest =>
    haveI := decidableGuarded guard (system.step state event) rest
    inferInstanceAs (Decidable ((_ ∧ _) ∧ _))

instance decidableLegal [∀ state event, Decidable (system.enabled state event)]
    (state : State) (events : List Event) : Decidable (system.Legal state events) :=
  inferInstanceAs (Decidable (system.Guarded (fun _ _ => True) state events))

@[simp] theorem run_nil (state : State) : system.run [] state = state := rfl

@[simp] theorem run_cons (event : Event) (rest : List Event) (state : State) :
    system.run (event :: rest) state = system.run rest (system.step state event) := rfl

theorem run_append (first second : List Event) (state : State) :
    system.run (first ++ second) state = system.run second (system.run first state) :=
  List.foldl_append

@[simp] theorem guarded_nil (guard : State → Event → Prop) (state : State) :
    system.Guarded guard state [] := trivial

@[simp] theorem guarded_cons (guard : State → Event → Prop) (state : State) (event : Event)
    (rest : List Event) :
    system.Guarded guard state (event :: rest) ↔
      (system.enabled state event ∧ guard state event) ∧
        system.Guarded guard (system.step state event) rest := Iff.rfl

@[simp] theorem legal_nil (state : State) : system.Legal state [] := trivial

@[simp] theorem legal_cons (state : State) (event : Event) (rest : List Event) :
    system.Legal state (event :: rest) ↔
      system.enabled state event ∧ system.Legal (system.step state event) rest := by
  simp only [Legal, guarded_cons, and_true]

theorem guarded_append (guard : State → Event → Prop) (first second : List Event)
    (state : State) :
    system.Guarded guard state (first ++ second) ↔
      system.Guarded guard state first ∧
        system.Guarded guard (system.run first state) second := by
  induction first generalizing state with
  | nil => simp
  | cons event rest inductionHypothesis =>
    simp only [List.cons_append, guarded_cons, run_cons, inductionHypothesis, and_assoc]

theorem legal_append (first second : List Event) (state : State) :
    system.Legal state (first ++ second) ↔
      system.Legal state first ∧ system.Legal (system.run first state) second :=
  system.guarded_append _ first second state

/-- A run that meets a guard is a run. -/
theorem Guarded.legal {guard : State → Event → Prop} {state : State} {events : List Event}
    (guarded : system.Guarded guard state events) : system.Legal state events := by
  induction events generalizing state with
  | nil => exact system.legal_nil state
  | cons event rest inductionHypothesis =>
    obtain ⟨⟨enabled, _⟩, later⟩ := guarded
    exact (system.legal_cons state event rest).mpr ⟨enabled, inductionHypothesis later⟩

/-! ### The rules of induction over runs -/

/-- The guarded rule: what every enabled step that meets the guard preserves holds at the end
of every guarded run. -/
theorem guarded_induction {guard : State → Event → Prop} (holds : State → Prop)
    (preserved : ∀ state event, system.enabled state event → guard state event →
      holds state → holds (system.step state event))
    {state : State} {events : List Event} (guarded : system.Guarded guard state events)
    (start : holds state) : holds (system.run events state) := by
  induction events generalizing state with
  | nil => exact start
  | cons event rest inductionHypothesis =>
    rw [guarded_cons] at guarded
    exact inductionHypothesis guarded.2
      (preserved state event guarded.1.1 guarded.1.2 start)

/-- The invariant rule: what every enabled step preserves holds at the end of every run. -/
theorem invariant (holds : State → Prop)
    (preserved : ∀ state event, system.enabled state event → holds state →
      holds (system.step state event))
    {state : State} {events : List Event} (legal : system.Legal state events)
    (start : holds state) : holds (system.run events state) :=
  system.guarded_induction holds (fun state event enabled _ => preserved state event enabled)
    legal start

/-- The rule of one step of a run: in front of every event of a guarded run what every enabled step
that meets the guard preserves holds, and the event may happen there and meets the guard. -/
theorem guarded_at {guard : State → Event → Prop} (holds : State → Prop)
    (preserved : ∀ state event, system.enabled state event → guard state event →
      holds state → holds (system.step state event))
    {state : State} {early late : List Event} {event : Event}
    (guarded : system.Guarded guard state (early ++ event :: late)) (start : holds state) :
    holds (system.run early state) ∧ system.enabled (system.run early state) event ∧
      guard (system.run early state) event := by
  rw [guarded_append, guarded_cons] at guarded
  exact ⟨system.guarded_induction holds preserved guarded.1 start, guarded.2.1⟩

/-- The rule of the log. When every enabled step appends to a log what the event alone determines,
a run appends what its events determine. The step may use an invariant of the system. -/
theorem run_log {Entry : Type} (holds : State → Prop) (log : State → List Entry)
    (entry : Event → Option Entry)
    (preserved : ∀ state event, system.enabled state event → holds state →
      holds (system.step state event))
    (logged : ∀ state event, system.enabled state event → holds state →
      log (system.step state event) = log state ++ (entry event).toList)
    {state : State} {events : List Event} (legal : system.Legal state events)
    (start : holds state) :
    log (system.run events state) = log state ++ events.filterMap entry := by
  induction events generalizing state with
  | nil => rw [run_nil, List.filterMap_nil, List.append_nil]
  | cons event rest inductionHypothesis =>
    rw [legal_cons] at legal
    have first : (event :: rest).filterMap entry =
        (entry event).toList ++ rest.filterMap entry := by
      cases entered : entry event with
      | none => rw [List.filterMap_cons_none entered, Option.toList_none, List.nil_append]
      | some item =>
        rw [List.filterMap_cons_some entered, Option.toList_some, List.singleton_append]
    rw [run_cons, inductionHypothesis legal.2 (preserved state event legal.1 start),
      logged state event legal.1 start, List.append_assoc, first]

/-- The rule of the exact guard. When every enabled step that misses the guard spoils the state
and spoiled states stay spoiled, a run that ends unspoiled has met the guard at every step. Both
may use an invariant of the system. -/
theorem guarded_of_unspoiled {guard : State → Event → Prop} (holds spoiled : State → Prop)
    (preserved : ∀ state event, system.enabled state event → holds state →
      holds (system.step state event))
    (violated : ∀ state event, system.enabled state event → holds state → ¬ guard state event →
      spoiled (system.step state event))
    (stays : ∀ state event, system.enabled state event → holds state → spoiled state →
      spoiled (system.step state event))
    {state : State} {events : List Event} (legal : system.Legal state events)
    (start : holds state) (unspoiled : ¬ spoiled (system.run events state)) :
    system.Guarded guard state events := by
  induction events generalizing state with
  | nil => exact system.guarded_nil guard state
  | cons event rest inductionHypothesis =>
    rw [legal_cons] at legal
    have next := preserved state event legal.1 start
    refine (system.guarded_cons guard state event rest).mpr
      ⟨⟨legal.1, ?_⟩, inductionHypothesis legal.2 next unspoiled⟩
    by_contra missed
    have stillSpoiled : holds (system.run rest (system.step state event)) ∧
        spoiled (system.run rest (system.step state event)) :=
      system.invariant (fun state => holds state ∧ spoiled state)
        (fun state event enabled both => ⟨preserved state event enabled both.1,
          stays state event enabled both.1 both.2⟩)
        legal.2 ⟨next, violated state event legal.1 start missed⟩
    exact unspoiled stillSpoiled.2

/-- The rule of the exact step. When an enabled step leads to a good state exactly from a good
state in which it meets the guard, a run ends in a good state exactly if it starts in one and
meets the guard at every step. The step may use an invariant of the system. -/
theorem guarded_iff {guard : State → Event → Prop} (holds good : State → Prop)
    (preserved : ∀ state event, system.enabled state event → holds state →
      holds (system.step state event))
    (exact_step : ∀ state event, system.enabled state event → holds state →
      (good (system.step state event) ↔ good state ∧ guard state event))
    {state : State} {events : List Event} (legal : system.Legal state events)
    (start : holds state) :
    good (system.run events state) ↔ good state ∧ system.Guarded guard state events := by
  induction events generalizing state with
  | nil => exact (and_iff_left (system.guarded_nil guard state)).symm
  | cons event rest inductionHypothesis =>
    rw [legal_cons] at legal
    rw [run_cons, inductionHypothesis legal.2 (preserved state event legal.1 start),
      exact_step state event legal.1 start, guarded_cons, and_assoc, and_assoc,
      and_iff_right legal.1]

/-! ### What holds throughout a run -/

/-- Every state of the run is good, the first one and the last one included. -/
def Throughout (good : State → Prop) : State → List Event → Prop
  | state, [] => good state
  | state, event :: rest => good state ∧ Throughout good (system.step state event) rest

@[simp] theorem throughout_nil (good : State → Prop) (state : State) :
    system.Throughout good state [] ↔ good state := Iff.rfl

@[simp] theorem throughout_cons (good : State → Prop) (state : State) (event : Event)
    (rest : List Event) :
    system.Throughout good state (event :: rest) ↔
      good state ∧ system.Throughout good (system.step state event) rest := Iff.rfl

instance decidableThroughout (good : State → Prop) [DecidablePred good] :
    ∀ (state : State) (events : List Event), Decidable (system.Throughout good state events)
  | state, [] => inferInstanceAs (Decidable (good state))
  | state, event :: rest =>
    haveI := decidableThroughout good (system.step state event) rest
    inferInstanceAs (Decidable (_ ∧ _))

/-- The rule of the exact guard for what holds throughout. When an enabled step from a good state
leads to a good state exactly if it meets the guard, the states of a run are all good exactly if
every step meets the guard. The step may use an invariant that holds as long as the states are
good. -/
theorem throughout_iff {guard : State → Event → Prop} (holds good : State → Prop)
    (preserved : ∀ state event, system.enabled state event → holds state →
      good (system.step state event) → holds (system.step state event))
    (exact_step : ∀ state event, system.enabled state event → holds state → good state →
      (good (system.step state event) ↔ guard state event))
    {state : State} {events : List Event} (legal : system.Legal state events)
    (start : holds state) (goodStart : good state) :
    system.Throughout good state events ↔ system.Guarded guard state events := by
  induction events generalizing state with
  | nil => exact iff_of_true goodStart (system.guarded_nil guard state)
  | cons event rest inductionHypothesis =>
    rw [legal_cons] at legal
    have next := preserved state event legal.1 start
    have exactly := exact_step state event legal.1 start goodStart
    rw [throughout_cons, guarded_cons, and_iff_right goodStart, and_iff_right legal.1]
    constructor
    · intro later
      have goodNext : good (system.step state event) := by
        cases rest with
        | nil => exact later
        | cons other rest => exact later.1
      exact ⟨exactly.mp goodNext, (inductionHypothesis legal.2 (next goodNext) goodNext).mp later⟩
    · rintro ⟨met, later⟩
      have goodNext := exactly.mpr met
      exact (inductionHypothesis legal.2 (next goodNext) goodNext).mpr later

/-! ### The parts of a system -/

section Part

variable {PartState PartEvent : Type} (part : System PartState PartEvent)

/-- What happens to a part of a system in a run, when each event is some events of the part. -/
def partEvents (happens : State → Event → List PartEvent) : State → List Event → List PartEvent
  | _, [] => []
  | state, event :: rest =>
    happens state event ++ partEvents happens (system.step state event) rest

/-- The rule of the part. When every enabled step that meets the guard is a run of a part that
leads to the part of the next state, every guarded run is a run of the part. The step may use an
invariant of the system. -/
theorem part_run {guard : State → Event → Prop} (holds : State → Prop)
    (view : State → PartState) (happens : State → Event → List PartEvent)
    (preserved : ∀ state event, system.enabled state event → guard state event →
      holds state → holds (system.step state event))
    (runs : ∀ state event, system.enabled state event → guard state event → holds state →
      part.Legal (view state) (happens state event) ∧
        part.run (happens state event) (view state) = view (system.step state event))
    {state : State} {events : List Event} (guarded : system.Guarded guard state events)
    (start : holds state) :
    part.Legal (view state) (system.partEvents happens state events) ∧
      part.run (system.partEvents happens state events) (view state) =
        view (system.run events state) := by
  induction events generalizing state with
  | nil => exact ⟨part.legal_nil _, rfl⟩
  | cons event rest inductionHypothesis =>
    rw [guarded_cons] at guarded
    obtain ⟨legal, next⟩ := runs state event guarded.1.1 guarded.1.2 start
    obtain ⟨legalRest, final⟩ := inductionHypothesis guarded.2
      (preserved state event guarded.1.1 guarded.1.2 start)
    rw [partEvents, legal_append, run_append, next]
    exact ⟨⟨legal, legalRest⟩, final⟩

end Part

end System

end Transition
