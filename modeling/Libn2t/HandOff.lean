/-
This file is about handing items to one-shot handlers. A channel keeps at most
one waiting handler and a queue of items; a produced item goes to the waiting
handler or into the queue, and a registered handler takes the oldest item or
waits.

Every operation has finished with the channel when it calls a handler, so an
operation that the handler makes in turn finds the channel just as a later one
would. A run is therefore a plain sequence of operations, however deeply the
calls are nested.
-/

import Mathlib.Data.List.Basic

namespace HandOff

variable {Item Handler : Type}

/-- A slot for one handler and a queue of items. -/
structure Channel (Item Handler : Type) where
  slot : Option Handler
  queue : List Item
deriving DecidableEq, Repr

/-- What a channel has seen: the items in the order they arrived, the handlers in the order they
were registered, and the calls of handlers in the order they were made. -/
structure History (Item Handler : Type) where
  arrived : List Item
  registered : List Handler
  handed : List (Handler × Item)
deriving DecidableEq, Repr

namespace Channel

/-- An item arrives. The second component is the call that follows. -/
def produce (item : Item) (channel : Channel Item Handler) :
    Channel Item Handler × Option (Handler × Item) :=
  match channel.slot with
  | some handler => ({ channel with slot := none }, some (handler, item))
  | none => ({ channel with queue := channel.queue ++ [item] }, none)

/-- A handler is registered. -/
def register (handler : Handler) (channel : Channel Item Handler) :
    Channel Item Handler × Option (Handler × Item) :=
  match channel.queue with
  | [] => ({ channel with slot := some handler }, none)
  | item :: rest => ({ channel with queue := rest }, some (handler, item))

/-- The waiting handler is dropped. -/
def cancel (channel : Channel Item Handler) : Channel Item Handler := { channel with slot := none }

theorem produce_waiting {channel : Channel Item Handler} {handler : Handler}
    (waiting : channel.slot = some handler) (item : Item) :
    channel.produce item = (⟨none, channel.queue⟩, some (handler, item)) := by
  simp only [produce, waiting]

theorem produce_idle {channel : Channel Item Handler} (idle : channel.slot = none) (item : Item) :
    channel.produce item = (⟨none, channel.queue ++ [item]⟩, none) := by
  simp only [produce, idle]

theorem register_empty {channel : Channel Item Handler} (empty : channel.queue = [])
    (handler : Handler) : channel.register handler = (⟨some handler, []⟩, none) := by
  simp only [register, empty]

theorem register_queued {channel : Channel Item Handler} {item : Item} {rest : List Item}
    (queued : channel.queue = item :: rest) (handler : Handler) :
    channel.register handler = (⟨channel.slot, rest⟩, some (handler, item)) := by
  simp only [register, queued]

/-- No handler waits while items are queued. -/
def Prompt (channel : Channel Item Handler) : Prop :=
  channel.slot.isSome = true → channel.queue = []

/-- Whatever was waiting before, an item put in leaves no handler waiting. -/
theorem produce_prompt (channel : Channel Item Handler) (item : Item) :
    (channel.produce item).1.Prompt := by
  cases waiting : channel.slot with
  | some handler =>
    rw [produce_waiting waiting]
    exact fun wrong => absurd wrong Bool.false_ne_true
  | none =>
    rw [produce_idle waiting]
    exact fun wrong => absurd wrong Bool.false_ne_true

theorem Prompt.register {channel : Channel Item Handler} (prompt : channel.Prompt)
    (handler : Handler) : (channel.register handler).1.Prompt := by
  cases items : channel.queue with
  | nil =>
    rw [register_empty items]
    exact fun _ => rfl
  | cons item rest =>
    rw [register_queued items]
    intro waiting
    cases (prompt waiting).symm.trans items

/-- A registered handler waits unless it is called. -/
theorem register_waits (channel : Channel Item Handler) (handler : Handler) :
    (channel.register handler).1.slot.isSome = true ∨
      (channel.register handler).2.isSome = true := by
  cases items : channel.queue with
  | nil =>
    rw [register_empty items]
    exact Or.inl rfl
  | cons item rest =>
    rw [register_queued items]
    exact Or.inr rfl

/-- A handler that waits is called with the next item. -/
theorem produce_calls {channel : Channel Item Handler} (waiting : channel.slot.isSome = true)
    (item : Item) : (channel.produce item).2.isSome = true := by
  obtain ⟨handler, slot⟩ := Option.isSome_iff_exists.mp waiting
  rw [produce_waiting slot]
  rfl

/-- A call takes an item off the queue. -/
theorem register_queue (channel : Channel Item Handler) (handler : Handler) :
    (channel.register handler).1.queue.length +
        (channel.register handler).2.toList.length = channel.queue.length := by
  cases items : channel.queue with
  | nil =>
    rw [register_empty items]
    rfl
  | cons item rest =>
    rw [register_queued items]
    rfl

end Channel

namespace History

/-- Nothing has happened yet. -/
def empty : History Item Handler := ⟨[], [], []⟩

/-- An item has arrived and may have been handed over at once. -/
def produced (item : Item) (call : Option (Handler × Item)) (history : History Item Handler) :
    History Item Handler :=
  { history with
    arrived := history.arrived ++ [item]
    handed := history.handed ++ call.toList }

/-- A handler has been registered and may have been called at once. -/
def subscribed (handler : Handler) (call : Option (Handler × Item))
    (history : History Item Handler) : History Item Handler :=
  { history with
    registered := history.registered ++ [handler]
    handed := history.handed ++ call.toList }

end History

/-- The channel keeps its promises: no handler waits while there are items, the items handed over
and those in the queue are the arrived ones in order, and the handlers called and the one that
waits are distinct registrations. -/
structure Sound (channel : Channel Item Handler) (history : History Item Handler) : Prop where
  prompt : channel.slot ≠ none → channel.queue = []
  conserved : history.handed.map Prod.snd ++ channel.queue = history.arrived
  once : (history.handed.map Prod.fst ++ channel.slot.toList).Sublist history.registered

theorem sound_empty : Sound (⟨none, []⟩ : Channel Item Handler) .empty :=
  ⟨fun _ => rfl, rfl, List.nil_sublist _⟩

theorem Sound.produce {channel : Channel Item Handler} {history : History Item Handler}
    (sound : Sound channel history) (item : Item) :
    Sound (channel.produce item).1 (history.produced item (channel.produce item).2) := by
  obtain ⟨prompt, conserved, once⟩ := sound
  cases waiting : channel.slot with
  | some handler =>
    have empty : channel.queue = [] := prompt (by rw [waiting]; exact Option.some_ne_none _)
    rw [empty, List.append_nil] at conserved
    rw [waiting] at once
    rw [Channel.produce_waiting waiting, empty]
    refine ⟨fun _ => rfl, ?_, ?_⟩
    · simp only [History.produced, Option.toList_some, List.map_append, List.map_cons,
        List.map_nil, conserved, List.append_nil]
    · simpa only [History.produced, Option.toList_some, Option.toList_none, List.map_append,
        List.map_cons, List.map_nil, List.append_nil] using once
  | none =>
    rw [waiting] at once
    rw [Channel.produce_idle waiting]
    refine ⟨fun wrong => absurd rfl wrong, ?_, ?_⟩
    · simp only [History.produced, Option.toList_none, List.append_nil, ← conserved,
        List.append_assoc]
    · simpa only [History.produced, Option.toList_none, List.append_nil] using once

theorem Sound.register {channel : Channel Item Handler} {history : History Item Handler}
    (sound : Sound channel history) (handler : Handler) :
    Sound (channel.register handler).1
      (history.subscribed handler (channel.register handler).2) := by
  obtain ⟨prompt, conserved, once⟩ := sound
  have called : (history.handed.map Prod.fst).Sublist history.registered :=
    (List.sublist_append_left _ _).trans once
  cases items : channel.queue with
  | nil =>
    rw [items] at conserved
    rw [Channel.register_empty items]
    refine ⟨fun _ => rfl, ?_, ?_⟩
    · simpa only [History.subscribed, Option.toList_none, List.append_nil] using conserved
    · simpa only [History.subscribed, Option.toList_none, Option.toList_some, List.append_nil]
        using called.append (List.Sublist.refl [handler])
  | cons item rest =>
    have idle : channel.slot = none := by
      by_contra waiting
      cases (prompt waiting).symm.trans items
    rw [items] at conserved
    rw [Channel.register_queued items, idle]
    refine ⟨fun wrong => absurd rfl wrong, ?_, ?_⟩
    · simpa only [History.subscribed, Option.toList_some, List.map_append, List.map_cons,
        List.map_nil, List.append_assoc, List.cons_append, List.nil_append] using conserved
    · simpa only [History.subscribed, Option.toList_some, Option.toList_none,
        List.map_append, List.map_cons, List.map_nil, List.append_nil]
        using called.append (List.Sublist.refl [handler])

theorem Sound.cancel {channel : Channel Item Handler} {history : History Item Handler}
    (sound : Sound channel history) : Sound channel.cancel history := by
  obtain ⟨_, conserved, once⟩ := sound
  refine ⟨fun wrong => absurd rfl wrong, conserved, ?_⟩
  simpa only [Channel.cancel, Option.toList_none, List.append_nil]
    using (List.sublist_append_left _ _).trans once

end HandOff
