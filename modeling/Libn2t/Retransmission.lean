/-
This file is about a sender that keeps the pieces of its stream until they are
acknowledged.

A piece is in flight or waits to be sent. What is sent may be lost, so a piece in
flight can be put back among those that wait, in its place; an acknowledgement
drops the pieces before it. Whatever order this happens in, the pieces that are
kept tile the stream behind what was acknowledged: nothing of it gets lost, and
nothing is in it twice. The two things a sender must not do are to extend the
last of the pieces that wait while a later one is in flight, and to put all pieces
back in front of an earlier one.
-/

import Libn2t.Pieces
import Mathlib.Data.List.Infix
import Mathlib.Data.List.Sort
import Mathlib.Logic.Relation

namespace Retransmission

open Pieces

variable {α : Type}

/-- A piece does not start behind another. -/
def StartsBy (piece other : Piece α) : Prop := piece.start ≤ other.start

instance : DecidableRel (StartsBy (α := α)) := fun piece other =>
  inferInstanceAs (Decidable (piece.start ≤ other.start))

instance : Std.Total (StartsBy (α := α)) :=
  ⟨fun piece other => Nat.le_total piece.start other.start⟩

instance : IsTrans (Piece α) StartsBy := ⟨fun _ _ _ => Nat.le_trans⟩

/-- What a sender has of its stream: what was written, up to where it is acknowledged and was sent,
and the pieces it keeps. -/
structure Buffer (α : Type) where
  stream : List α
  acked : Nat
  sent : Nat
  inFlight : List (Piece α)
  waiting : List (Piece α)

namespace Buffer

variable (buffer : Buffer α)

/-- All pieces that are kept. -/
def kept : List (Piece α) := buffer.inFlight ++ buffer.waiting

/-- No piece waits in front of one that is in flight. -/
def Settled : Prop :=
  ∀ piece ∈ buffer.inFlight, ∀ other ∈ buffer.waiting, piece.start < other.start

/-- The pieces tile the stream from a place that is acknowledged to its end. -/
structure Sound : Prop where
  tiled : ∃ low tiling, low ≤ buffer.acked ∧ Tiles low tiling buffer.stream.length ∧
    buffer.kept.Perm tiling
  nonempty : ∀ piece ∈ buffer.kept, piece.data ≠ []
  slices : ∀ piece ∈ buffer.kept, piece.data <+: buffer.stream.drop piece.start
  inFlightSorted : buffer.inFlight.Pairwise StartsBy
  waitingSorted : buffer.waiting.Pairwise StartsBy
  flown : ∀ piece ∈ buffer.inFlight, piece.stop ≤ buffer.sent
  acked_le : buffer.acked ≤ buffer.sent
  sent_le : buffer.sent ≤ buffer.stream.length

/-- What a sender does. -/
inductive Step : Buffer α → Buffer α → Prop
  /-- More is written, in new pieces. -/
  | write {buffer : Buffer α} {pieces : List (Piece α)}
    (tiles : Tiles buffer.stream.length pieces (buffer.stream ++ joined pieces).length)
    (nonempty : ∀ piece ∈ pieces, piece.data ≠ []) :
    Step buffer { buffer with
      stream := buffer.stream ++ joined pieces
      waiting := buffer.waiting ++ pieces }
  /-- More is written, behind the last piece that waits. -/
  | extend {buffer : Buffer α} {front : List (Piece α)} {last : Piece α} (data : List α)
    (settled : buffer.Settled) (waiting : buffer.waiting = front ++ [last]) :
    Step buffer { buffer with
      stream := buffer.stream ++ data
      waiting := front ++ [⟨last.start, last.data ++ data⟩] }
  /-- The first piece that waits is sent. -/
  | send {buffer : Buffer α} {piece : Piece α} {rest : List (Piece α)}
    (waiting : buffer.waiting = piece :: rest) :
    Step buffer { buffer with
      inFlight := buffer.inFlight.orderedInsert StartsBy piece
      waiting := rest
      sent := max buffer.sent piece.stop }
  /-- The front of the first piece that waits is sent to see whether it gets through. -/
  | probe {buffer : Buffer α} {piece : Piece α} {rest : List (Piece α)} {place : Nat}
    (waiting : buffer.waiting = piece :: rest) (inside : place ≤ piece.stop) :
    Step buffer { buffer with sent := max buffer.sent place }
  /-- The first piece in flight is to be sent again. -/
  | resendFirst {buffer : Buffer α} {piece : Piece α} {rest : List (Piece α)}
    (inFlight : buffer.inFlight = piece :: rest) :
    Step buffer { buffer with
      inFlight := rest
      waiting := buffer.waiting.orderedInsert StartsBy piece }
  /-- All pieces in flight are to be sent again. -/
  | resendAll {buffer : Buffer α} (settled : buffer.Settled) :
    Step buffer { buffer with inFlight := [], waiting := buffer.inFlight ++ buffer.waiting }
  /-- The first piece that waits is cut in two. -/
  | split {buffer : Buffer α} {piece : Piece α} {rest : List (Piece α)} {length : Nat}
    (waiting : buffer.waiting = piece :: rest) (positive : 0 < length)
    (inside : length < piece.data.length) :
    Step buffer { buffer with
      waiting := ⟨piece.start, piece.data.take length⟩ ::
        ⟨piece.start + length, piece.data.drop length⟩ :: rest }
  /-- The stream is acknowledged up to a place. -/
  | ack {buffer : Buffer α} {place : Nat} (later : buffer.acked ≤ place)
    (known : place ≤ buffer.sent) :
    Step buffer { buffer with
      acked := place
      inFlight := buffer.inFlight.dropWhile (·.stop ≤ place)
      waiting := buffer.waiting.dropWhile (·.stop ≤ place) }

end Buffer

/-! ### Pieces of a tiling -/

section Tiling

variable {low high : Nat} {tiling : List (Piece α)}

/-- The pieces of a tiling that reach beyond a place tile what is behind some place before it. -/
theorem tiles_filter {place : Nat} (tiles : Tiles low tiling high) (from_low : low ≤ place) :
    ∃ low' ≤ place, Tiles low' (tiling.filter (place < ·.stop)) high := by
  induction tiling generalizing low with
  | nil => exact ⟨low, from_low, tiles⟩
  | cons piece rest inductionHypothesis =>
    by_cases beyond : place < piece.stop
    · have all : (piece :: rest).filter (place < ·.stop) = piece :: rest := by
        refine List.filter_eq_self.mpr fun other isIn => decide_eq_true ?_
        rcases List.mem_cons.mp isIn with rfl | later
        · exact beyond
        · have behind := tiles.2.le_start other later
          rw [Piece.stop]
          omega
      rw [all]
      exact ⟨low, from_low, tiles⟩
    · rw [List.filter_cons_of_neg (by rwa [decide_eq_true_eq])]
      exact inductionHypothesis tiles.2 (by omega)

/-- A tiling is one of a part in front and one of what is behind it. -/
theorem tiles_append {later : List (Piece α)} :
    Tiles low (tiling ++ later) high ↔
      ∃ middle, Tiles low tiling middle ∧ Tiles middle later high := by
  induction tiling generalizing low with
  | nil =>
    constructor
    · exact fun tiles => ⟨low, rfl, tiles⟩
    · rintro ⟨middle, rfl, tiles⟩
      exact tiles
  | cons piece rest inductionHypothesis =>
    constructor
    · intro tiles
      obtain ⟨middle, front, behind⟩ := inductionHypothesis.mp tiles.2
      exact ⟨middle, ⟨tiles.1, front⟩, behind⟩
    · rintro ⟨middle, front, behind⟩
      exact ⟨front.1, inductionHypothesis.mpr ⟨middle, front.2, behind⟩⟩

/-- A piece of a tiling is a part of what the pieces hold together. -/
theorem tiles_slice (tiles : Tiles low tiling high) :
    ∀ piece ∈ tiling, piece.data <+: (joined tiling).drop (piece.start - low) := by
  induction tiling generalizing low with
  | nil =>
    intro piece isIn
    cases isIn
  | cons first rest inductionHypothesis =>
    intro piece isIn
    rw [joined, List.flatMap_cons]
    rcases List.mem_cons.mp isIn with rfl | later
    · rw [tiles.1, Nat.sub_self, List.drop_zero]
      exact List.prefix_append _ _
    · have behind := tiles.2.le_start piece later
      have start := tiles.1
      rw [Piece.stop] at behind
      rw [List.drop_append, List.drop_eq_nil_of_le (by omega), List.nil_append, ← start,
        Nat.sub_sub]
      exact inductionHypothesis tiles.2 piece later

/-- Parts of a string that tile what is behind a place are what is behind it. -/
theorem tiles_joined {whole : List α} (tiles : Tiles low tiling whole.length)
    (slices : ∀ piece ∈ tiling, piece.data <+: whole.drop piece.start) :
    joined tiling = whole.drop low := by
  induction tiling generalizing low with
  | nil => exact (List.drop_eq_nil_of_le (Nat.le_of_eq (Eq.symm tiles))).symm
  | cons piece rest inductionHypothesis =>
    have behind := inductionHypothesis tiles.2 fun other isIn =>
      slices other (List.mem_cons_of_mem _ isIn)
    obtain ⟨others, is⟩ := slices piece List.mem_cons_self
    rw [Piece.stop, ← List.drop_drop, ← is, List.drop_left] at behind
    rw [← tiles.1, ← is, ← behind]
    rfl

end Tiling

/-- What grows along a list is at most a bound in a part at its front. -/
theorem dropWhile_eq_filter {β : Type} (measure : β → Nat) (bound : Nat) {list : List β}
    (grows : list.Pairwise fun first second => measure first ≤ measure second) :
    list.dropWhile (measure · ≤ bound) = list.filter (bound < measure ·) := by
  induction list with
  | nil => rfl
  | cons first rest inductionHypothesis =>
    rw [List.pairwise_cons] at grows
    by_cases below : measure first ≤ bound
    · rw [List.dropWhile_cons_of_pos (by rwa [decide_eq_true_eq]), List.filter_cons_of_neg (by
        rw [decide_eq_true_eq]
        omega)]
      exact inductionHypothesis grows.2
    · rw [List.dropWhile_cons_of_neg (by rwa [decide_eq_true_eq])]
      refine (List.filter_eq_self.mpr fun other isIn => decide_eq_true ?_).symm
      rcases List.mem_cons.mp isIn with rfl | later
      · omega
      · have le := grows.1 other later
        omega

namespace Buffer.Sound

variable {buffer : Buffer α}

/-- Two pieces do not overlap. -/
theorem separate (sound : buffer.Sound) {piece other : Piece α} (isIn : piece ∈ buffer.kept)
    (otherIn : other ∈ buffer.kept) (different : piece ≠ other) :
    (piece.stop ≤ other.start ∧ piece.start < other.start) ∨
      (other.stop ≤ piece.start ∧ other.start < piece.start) := by
  obtain ⟨low, tiling, -, tiles, perm⟩ := sound.tiled
  have apart := tiles.apart fun piece isIn => sound.nonempty piece (perm.mem_iff.mpr isIn)
  exact apart.separate (perm.mem_iff.mp isIn) (perm.mem_iff.mp otherIn) different

/-- No piece is kept twice. -/
theorem nodup (sound : buffer.Sound) : buffer.kept.Nodup := by
  obtain ⟨low, tiling, -, tiles, perm⟩ := sound.tiled
  have apart := tiles.apart fun piece isIn => sound.nonempty piece (perm.mem_iff.mpr isIn)
  refine perm.nodup_iff.mpr (apart.pairwise.imp ?_)
  rintro piece _ less rfl
  exact less.2.false

/-- Pieces that are sorted are so by their ends. -/
theorem stops_sorted (sound : buffer.Sound) {pieces : List (Piece α)}
    (sorted : pieces.Pairwise StartsBy) (kept : ∀ piece ∈ pieces, piece ∈ buffer.kept) :
    pieces.Pairwise fun piece other => piece.stop ≤ other.stop := by
  refine sorted.imp_of_mem fun {piece other} isIn otherIn starts => ?_
  by_cases same : piece = other
  · rw [same]
  · have starts : piece.start ≤ other.start := starts
    rcases sound.separate (kept piece isIn) (kept other otherIn) same with before | after
    · exact before.1.trans (Nat.le_add_right _ _)
    · omega

theorem kept_inFlight (buffer : Buffer α) : ∀ piece ∈ buffer.inFlight, piece ∈ buffer.kept :=
  fun _ isIn => List.mem_append_left _ isIn

theorem kept_waiting (buffer : Buffer α) : ∀ piece ∈ buffer.waiting, piece ∈ buffer.kept :=
  fun _ isIn => List.mem_append_right _ isIn

/-- When nothing waits in front of what is in flight, the last piece that waits is the last. -/
theorem last_stop (sound : buffer.Sound) (settled : buffer.Settled) {front : List (Piece α)}
    {last : Piece α} (waiting : buffer.waiting = front ++ [last]) :
    ∃ low tiling, low ≤ buffer.acked ∧ Tiles low (tiling ++ [last]) buffer.stream.length ∧
      (buffer.inFlight ++ front).Perm tiling := by
  obtain ⟨low, tiling, low_le, tiles, perm⟩ := sound.tiled
  have lastIn : last ∈ buffer.kept := kept_waiting buffer last (by
    rw [waiting]
    exact List.mem_append_right _ List.mem_cons_self)
  have behind : ∀ piece ∈ buffer.kept, piece.start ≤ last.start := by
    intro piece isIn
    rcases List.mem_append.mp isIn with flying | waits
    · exact (settled piece flying last (by
        rw [waiting]
        exact List.mem_append_right _ List.mem_cons_self)).le
    · have sorted := sound.waitingSorted
      rw [waiting] at sorted waits
      rcases List.mem_append.mp waits with inFront | isLast
      · exact (List.pairwise_append.mp sorted).2.2 piece inFront last List.mem_cons_self
      · rw [List.mem_singleton.mp isLast]
  rcases List.eq_nil_or_concat tiling with rfl | ⟨before, final, rfl⟩
  · cases perm.mem_iff.mp lastIn
  · rw [List.concat_eq_append] at tiles perm
    have finalIn : final ∈ buffer.kept := perm.mem_iff.mpr (List.mem_append_right _
      List.mem_cons_self)
    have same : final = last := by
      by_contra different
      obtain ⟨_, -, -, finalStop⟩ := tiles_append.mp tiles
      have lastStop := tiles.stop_le last (perm.mem_iff.mp lastIn)
      have positive := List.length_pos_of_ne_nil (sound.nonempty last lastIn)
      have starts := behind final finalIn
      rw [Piece.stop] at lastStop
      change final.stop = _ at finalStop
      rcases sound.separate finalIn lastIn different with before | after
      · omega
      · omega
    subst same
    refine ⟨low, before, low_le, tiles, ?_⟩
    rw [kept, waiting, ← List.append_assoc] at perm
    exact (List.perm_append_right_iff _).mp perm

/-- No piece reaches beyond the stream. -/
theorem stop_le (sound : buffer.Sound) :
    ∀ piece ∈ buffer.kept, piece.stop ≤ buffer.stream.length := by
  obtain ⟨low, tiling, -, tiles, perm⟩ := sound.tiled
  exact fun piece isIn => tiles.stop_le piece (perm.mem_iff.mp isIn)

/-- What was kept of the stream stays when more is written. -/
theorem slices_append (sound : buffer.Sound) (data : List α) :
    ∀ piece ∈ buffer.kept, piece.data <+: (buffer.stream ++ data).drop piece.start := by
  intro piece isIn
  refine (sound.slices piece isIn).trans ?_
  have stop := sound.stop_le piece isIn
  rw [Piece.stop] at stop
  rw [List.drop_append_of_le_length (by omega)]
  exact List.prefix_append _ _

/-- The pieces are put in another order, and more may have been sent. -/
theorem rearrange (sound : buffer.Sound) {sent : Nat} {inFlight waiting : List (Piece α)}
    (perm : (inFlight ++ waiting).Perm buffer.kept) (inFlightSorted : inFlight.Pairwise StartsBy)
    (waitingSorted : waiting.Pairwise StartsBy) (flown : ∀ piece ∈ inFlight, piece.stop ≤ sent)
    (later : buffer.sent ≤ sent) (inside : sent ≤ buffer.stream.length) :
    Sound { buffer with sent := sent, inFlight := inFlight, waiting := waiting } := by
  obtain ⟨low, tiling, low_le, tiles, same⟩ := sound.tiled
  exact ⟨⟨low, tiling, low_le, tiles, perm.trans same⟩,
    fun piece isIn => sound.nonempty piece (perm.mem_iff.mp isIn),
    fun piece isIn => sound.slices piece (perm.mem_iff.mp isIn), inFlightSorted, waitingSorted,
    flown, sound.acked_le.trans later, inside⟩

/-- More is written, in new pieces. -/
theorem write (sound : buffer.Sound) {pieces : List (Piece α)}
    (new : Tiles buffer.stream.length pieces (buffer.stream ++ joined pieces).length)
    (nonempty : ∀ piece ∈ pieces, piece.data ≠ []) :
    Sound { buffer with
      stream := buffer.stream ++ joined pieces
      waiting := buffer.waiting ++ pieces } := by
  obtain ⟨low, tiling, low_le, tiles, perm⟩ := sound.tiled
  have starts := new.le_start
  have isKept : ∀ piece ∈ buffer.inFlight ++ (buffer.waiting ++ pieces),
      piece ∈ buffer.kept ∨ piece ∈ pieces := by
    intro piece isIn
    rwa [← List.append_assoc, List.mem_append] at isIn
  refine ⟨⟨low, tiling ++ pieces, low_le, tiles_append.mpr ⟨_, tiles, new⟩, ?_⟩,
    fun piece isIn => ?_, fun piece isIn => ?_, sound.inFlightSorted, ?_, sound.flown,
    sound.acked_le, ?_⟩
  · rw [kept, ← List.append_assoc]
    exact perm.append_right pieces
  · exact (isKept piece isIn).elim (sound.nonempty piece) (nonempty piece)
  · rcases isKept piece isIn with old | isNew
    · exact sound.slices_append _ piece old
    · change _ <+: (buffer.stream ++ joined pieces).drop piece.start
      rw [List.drop_append, List.drop_eq_nil_of_le (starts piece isNew), List.nil_append]
      exact tiles_slice new piece isNew
  · refine List.pairwise_append.mpr ⟨sound.waitingSorted, ?_, fun piece waits other isNew => ?_⟩
    · exact (new.apart nonempty).pairwise.imp fun sep => sep.2.le
    · exact ((Nat.le_add_right _ _).trans
        (sound.stop_le piece (kept_waiting buffer piece waits))).trans (starts other isNew)
  · rw [List.length_append]
    exact sound.sent_le.trans (Nat.le_add_right _ _)

/-- More is written, behind the last piece that waits. -/
theorem extend (sound : buffer.Sound) (settled : buffer.Settled) {front : List (Piece α)}
    {last : Piece α} (waiting : buffer.waiting = front ++ [last]) (data : List α) :
    Sound { buffer with
      stream := buffer.stream ++ data
      waiting := front ++ [⟨last.start, last.data ++ data⟩] } := by
  obtain ⟨low, tiling, low_le, tiles, perm⟩ := sound.last_stop settled waiting
  obtain ⟨_, before, rfl, stop⟩ := tiles_append.mp tiles
  change last.stop = _ at stop
  have lastIn : last ∈ buffer.waiting := by
    rw [waiting]
    exact List.mem_append_right _ List.mem_cons_self
  have whole : last.data = buffer.stream.drop last.start := by
    refine (sound.slices last (kept_waiting buffer last lastIn)).eq_of_length ?_
    rw [List.length_drop, ← stop, Piece.stop, Nat.add_sub_cancel_left]
  have grown : (buffer.stream ++ data).drop last.start = last.data ++ data := by
    rw [Piece.stop] at stop
    rw [List.drop_append_of_le_length (by omega), whole]
  have isKept : ∀ piece ∈ buffer.inFlight ++ (front ++ [⟨last.start, last.data ++ data⟩]),
      piece ∈ buffer.kept ∨ piece = ⟨last.start, last.data ++ data⟩ := by
    intro piece isIn
    rw [← List.append_assoc, List.mem_append, List.mem_singleton] at isIn
    refine isIn.imp_left fun old => ?_
    rw [kept, waiting, ← List.append_assoc]
    exact List.mem_append_left _ old
  refine ⟨⟨low, tiling ++ [⟨last.start, last.data ++ data⟩], low_le,
      tiles_append.mpr ⟨_, before, rfl, ?_⟩, ?_⟩, fun piece isIn => ?_, fun piece isIn => ?_,
    sound.inFlightSorted, ?_, sound.flown, sound.acked_le, ?_⟩
  · change last.start + (last.data ++ data).length = (buffer.stream ++ data).length
    rw [List.length_append, List.length_append, ← stop, Piece.stop, Nat.add_assoc]
  · rw [kept, ← List.append_assoc]
    exact perm.append_right _
  · rcases isKept piece isIn with old | rfl
    · exact sound.nonempty piece old
    · exact fun empty => sound.nonempty last (kept_waiting buffer last lastIn)
        (List.append_eq_nil_iff.mp empty).1
  · rcases isKept piece isIn with old | rfl
    · exact sound.slices_append data piece old
    · change _ <+: (buffer.stream ++ data).drop last.start
      rw [grown]
  · have sorted := sound.waitingSorted
    rw [waiting, List.pairwise_append] at sorted
    refine List.pairwise_append.mpr ⟨sorted.1, List.pairwise_singleton _ _, ?_⟩
    intro piece inFront other isLast
    rw [List.mem_singleton.mp isLast]
    exact sorted.2.2 piece inFront last List.mem_cons_self
  · rw [List.length_append]
    exact sound.sent_le.trans (Nat.le_add_right _ _)

/-- The first piece that waits is cut in two. -/
theorem split (sound : buffer.Sound) {piece : Piece α} {rest : List (Piece α)} {length : Nat}
    (waiting : buffer.waiting = piece :: rest) (positive : 0 < length)
    (inside : length < piece.data.length) :
    Sound { buffer with
      waiting := ⟨piece.start, piece.data.take length⟩ ::
        ⟨piece.start + length, piece.data.drop length⟩ :: rest } := by
  obtain ⟨low, tiling, low_le, tiles, perm⟩ := sound.tiled
  have isIn : piece ∈ buffer.kept := kept_waiting buffer piece (by
    rw [waiting]
    exact List.mem_cons_self)
  obtain ⟨before, after, rfl⟩ := List.append_of_mem (perm.mem_iff.mp isIn)
  obtain ⟨_, front, rfl, behind⟩ := tiles_append.mp tiles
  have others : (buffer.inFlight ++ rest).Perm (before ++ after) := by
    rw [kept, waiting] at perm
    exact ((List.perm_middle.symm.trans perm).trans List.perm_middle).cons_inv
  have short : (piece.data.take length).length = length := List.length_take_of_le inside.le
  have isKept : ∀ other ∈ buffer.inFlight ++ (⟨piece.start, piece.data.take length⟩ ::
      ⟨piece.start + length, piece.data.drop length⟩ :: rest),
      other ∈ buffer.kept ∨ other = ⟨piece.start, piece.data.take length⟩ ∨
        other = ⟨piece.start + length, piece.data.drop length⟩ := by
    intro other otherIn
    simp only [List.mem_append, List.mem_cons] at otherIn
    rw [kept, waiting, List.mem_append, List.mem_cons]
    tauto
  have slice : piece.data <+: buffer.stream.drop piece.start := sound.slices piece isIn
  have sorted := sound.waitingSorted
  rw [waiting, List.pairwise_cons] at sorted
  refine ⟨⟨low, before ++ ⟨piece.start, piece.data.take length⟩ ::
      ⟨piece.start + length, piece.data.drop length⟩ :: after, low_le,
      tiles_append.mpr ⟨_, front, rfl, ?_, ?_⟩, ?_⟩, fun other otherIn => ?_,
    fun other otherIn => ?_, sound.inFlightSorted, ?_, sound.flown, sound.acked_le, sound.sent_le⟩
  · change piece.start + length = piece.start + _
    rw [short]
  · change Tiles (piece.start + length + (piece.data.drop length).length) after _
    rw [List.length_drop, Nat.add_assoc, Nat.add_sub_cancel' inside.le]
    exact behind
  · change (buffer.inFlight ++ _ :: _ :: rest).Perm _
    refine (List.perm_middle.trans (List.perm_middle.cons _)).trans ?_
    exact ((others.cons _).cons _).trans (List.perm_middle.trans (List.perm_middle.cons _)).symm
  · rcases isKept other otherIn with old | rfl | rfl
    · exact sound.nonempty other old
    · exact List.ne_nil_of_length_pos (by rwa [short])
    · exact List.ne_nil_of_length_pos (by
        change 0 < (piece.data.drop length).length
        rw [List.length_drop]
        omega)
  · rcases isKept other otherIn with old | rfl | rfl
    · exact sound.slices other old
    · exact (List.take_prefix length piece.data).trans slice
    · change piece.data.drop length <+: buffer.stream.drop (piece.start + length)
      rw [← List.drop_drop]
      exact List.IsPrefix.drop slice length
  · have far : ∀ other ∈ rest, piece.start + length ≤ other.start := by
      intro other otherIn
      have starts : piece.start ≤ other.start := sorted.1 other otherIn
      have bytes := List.length_pos_of_ne_nil (sound.nonempty other (kept_waiting buffer other (by
        rw [waiting]
        exact List.mem_cons_of_mem _ otherIn)))
      rcases List.mem_append.mp (others.mem_iff.mp (List.mem_append_right _ otherIn)) with
        inFront | later
      · have stop := front.stop_le other inFront
        rw [Piece.stop] at stop
        omega
      · have start := behind.le_start other later
        rw [Piece.stop] at start
        omega
    refine List.Pairwise.cons (fun other otherIn => ?_) (List.Pairwise.cons far sorted.2)
    rcases List.mem_cons.mp otherIn with rfl | later
    · exact Nat.le_add_right _ _
    · exact sorted.1 other later

/-- The stream is acknowledged up to a place. -/
theorem ack (sound : buffer.Sound) {place : Nat} (later : buffer.acked ≤ place)
    (known : place ≤ buffer.sent) :
    Sound { buffer with
      acked := place
      inFlight := buffer.inFlight.dropWhile (·.stop ≤ place)
      waiting := buffer.waiting.dropWhile (·.stop ≤ place) } := by
  obtain ⟨low, tiling, low_le, tiles, perm⟩ := sound.tiled
  have flying := dropWhile_eq_filter Piece.stop place
    (sound.stops_sorted sound.inFlightSorted (kept_inFlight buffer))
  have waits := dropWhile_eq_filter Piece.stop place
    (sound.stops_sorted sound.waitingSorted (kept_waiting buffer))
  have isKept : ∀ piece ∈ buffer.inFlight.dropWhile (·.stop ≤ place) ++
      buffer.waiting.dropWhile (·.stop ≤ place), piece ∈ buffer.kept := by
    intro piece isIn
    rcases List.mem_append.mp isIn with inFlight | waiting
    · exact kept_inFlight buffer piece ((List.dropWhile_sublist _).subset inFlight)
    · exact kept_waiting buffer piece ((List.dropWhile_sublist _).subset waiting)
  obtain ⟨low', low'_le, tiles'⟩ := tiles_filter tiles (low_le.trans later)
  refine ⟨⟨low', tiling.filter (place < ·.stop), low'_le, tiles', ?_⟩,
    fun piece isIn => sound.nonempty piece (isKept piece isIn),
    fun piece isIn => sound.slices piece (isKept piece isIn),
    sound.inFlightSorted.sublist (List.dropWhile_sublist _),
    sound.waitingSorted.sublist (List.dropWhile_sublist _),
    fun piece isIn => sound.flown piece ((List.dropWhile_sublist _).subset isIn), known,
    sound.sent_le⟩
  change (buffer.inFlight.dropWhile _ ++ buffer.waiting.dropWhile _).Perm _
  rw [flying, waits, ← List.filter_append]
  exact perm.filter _

end Buffer.Sound

/-! ### What a sender keeps -/

namespace Buffer

variable {buffer : Buffer α}

/-- A sender of nothing. -/
theorem Sound.empty : Sound (α := α) ⟨[], 0, 0, [], []⟩ where
  tiled := ⟨0, [], le_rfl, rfl, List.Perm.refl _⟩
  nonempty _ isIn := by cases isIn
  slices _ isIn := by cases isIn
  inFlightSorted := List.Pairwise.nil
  waitingSorted := List.Pairwise.nil
  flown _ isIn := by cases isIn
  acked_le := le_rfl
  sent_le := le_rfl

/-- In some order the pieces are the stream behind a place that is acknowledged. -/
theorem Sound.rest (sound : buffer.Sound) :
    ∃ low order, low ≤ buffer.acked ∧ low + (joined order).length = buffer.stream.length ∧
      order.Perm buffer.kept ∧ joined order = buffer.stream.drop low := by
  obtain ⟨low, tiling, low_le, tiles, perm⟩ := sound.tiled
  refine ⟨low, tiling, low_le, tiles.length_joined, perm.symm, ?_⟩
  exact tiles_joined tiles fun piece isIn => sound.slices piece (perm.mem_iff.mpr isIn)

/-- When nothing waits and all that was sent is acknowledged, all of the stream is. -/
theorem Sound.finished (sound : buffer.Sound) (waiting : buffer.waiting = [])
    (all : buffer.acked = buffer.sent) : buffer.acked = buffer.stream.length := by
  obtain ⟨low, tiling, low_le, tiles, perm⟩ := sound.tiled
  have sent_le := sound.sent_le
  rw [kept, waiting, List.append_nil] at perm
  by_cases empty : tiling = []
  · subst empty
    have same : low = buffer.stream.length := tiles
    omega
  · obtain ⟨last, isIn, stop⟩ := tiles.exists_stop empty
    have flown := sound.flown last (perm.mem_iff.mpr isIn)
    omega

/-- Nothing of the stream is lost by a step. -/
theorem Step.sound {buffer' : Buffer α} (step : Step buffer buffer')
    (sound : buffer.Sound) : buffer'.Sound := by
  cases step with
  | write tiles nonempty => exact sound.write tiles nonempty
  | extend data settled waiting => exact sound.extend settled waiting data
  | @send piece rest waiting =>
    have isIn : piece ∈ buffer.kept := Sound.kept_waiting buffer piece (by
      rw [waiting]
      exact List.mem_cons_self)
    refine sound.rearrange ?_ (sound.inFlightSorted.orderedInsert piece _) ?_ ?_
      (Nat.le_max_left _ _) (Nat.max_le.mpr ⟨sound.sent_le, sound.stop_le piece isIn⟩)
    · refine ((List.perm_orderedInsert _ piece buffer.inFlight).append_right rest).trans ?_
      rw [kept, waiting]
      exact List.perm_middle.symm
    · have sorted := sound.waitingSorted
      rw [waiting] at sorted
      exact sorted.of_cons
    · intro other isIn
      rcases (List.mem_orderedInsert _).mp isIn with rfl | flying
      · exact Nat.le_max_right _ _
      · exact (sound.flown other flying).trans (Nat.le_max_left _ _)
  | @probe piece rest place waiting inside =>
    have isIn : piece ∈ buffer.kept := Sound.kept_waiting buffer piece (by
      rw [waiting]
      exact List.mem_cons_self)
    exact sound.rearrange (List.Perm.refl _) sound.inFlightSorted sound.waitingSorted
      (fun other flying => (sound.flown other flying).trans (Nat.le_max_left _ _))
      (Nat.le_max_left _ _)
      (Nat.max_le.mpr ⟨sound.sent_le, inside.trans (sound.stop_le piece isIn)⟩)
  | @resendFirst piece rest inFlight =>
    have sorted := sound.inFlightSorted
    rw [inFlight] at sorted
    refine sound.rearrange ?_ sorted.of_cons (sound.waitingSorted.orderedInsert piece _) ?_ le_rfl
      sound.sent_le
    · refine ((List.perm_orderedInsert _ piece buffer.waiting).append_left rest).trans ?_
      rw [kept, inFlight]
      exact List.perm_middle
    · intro other isIn
      exact sound.flown other (by
        rw [inFlight]
        exact List.mem_cons_of_mem _ isIn)
  | resendAll settled =>
    refine sound.rearrange (List.Perm.refl _) List.Pairwise.nil ?_ (by simp) le_rfl sound.sent_le
    exact List.pairwise_append.mpr ⟨sound.inFlightSorted, sound.waitingSorted,
      fun piece flying other waits => (settled piece flying other waits).le⟩
  | split waiting positive inside => exact sound.split waiting positive inside
  | ack later known => exact sound.ack later known

/-- What a sender has written only grows, and what is acknowledged does not go back. -/
theorem Step.grows {buffer' : Buffer α} (step : Step buffer buffer') :
    buffer.stream <+: buffer'.stream ∧ buffer.acked ≤ buffer'.acked := by
  cases step with
  | write _ _ => exact ⟨List.prefix_append _ _, le_rfl⟩
  | extend data _ _ => exact ⟨List.prefix_append _ _, le_rfl⟩
  | ack later _ => exact ⟨List.prefix_rfl, later⟩
  | send _ => exact ⟨List.prefix_rfl, le_rfl⟩
  | probe _ _ => exact ⟨List.prefix_rfl, le_rfl⟩
  | resendFirst _ => exact ⟨List.prefix_rfl, le_rfl⟩
  | resendAll _ => exact ⟨List.prefix_rfl, le_rfl⟩
  | split _ _ _ => exact ⟨List.prefix_rfl, le_rfl⟩

/-- Steps one after the other. -/
abbrev Steps : Buffer α → Buffer α → Prop := Relation.ReflTransGen Step

theorem Steps.sound {buffer' : Buffer α} (steps : Steps buffer buffer') (sound : buffer.Sound) :
    buffer'.Sound := by
  induction steps with
  | refl => exact sound
  | tail _ step inductionHypothesis => exact step.sound inductionHypothesis

theorem Steps.grows {buffer' : Buffer α} (steps : Steps buffer buffer') :
    buffer.stream <+: buffer'.stream ∧ buffer.acked ≤ buffer'.acked := by
  induction steps with
  | refl => exact ⟨List.prefix_rfl, le_rfl⟩
  | tail _ step inductionHypothesis =>
    exact ⟨inductionHypothesis.1.trans step.grows.1, inductionHypothesis.2.trans step.grows.2⟩

end Buffer

end Retransmission
