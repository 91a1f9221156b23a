/-
This file is about pieces of a string that is cut up: where a piece starts and
what it holds.

Pieces that follow one another from one place to another tile what is between.
Pieces that only lie apart, in their order, may have holes. If they are pieces of
a tiling and tile as far as its end, they are the whole tiling.
-/

import Mathlib.Algebra.Order.Ring.Nat
import Mathlib.Data.List.Basic

namespace Pieces

variable {α : Type}

/-- What stands at a place of a string. -/
structure Piece (α : Type) where
  start : Nat
  data : List α

/-- The place behind a piece. -/
def Piece.stop (piece : Piece α) : Nat := piece.start + piece.data.length

/-- Pieces start one behind the other and do not overlap, from a place on. -/
def Apart : Nat → List (Piece α) → Prop
  | _, [] => True
  | lo, piece :: rest =>
    lo ≤ piece.start ∧ Apart (max piece.stop (piece.start + 1)) rest

/-- Pieces follow one another without holes from a place to a place. -/
def Tiles : Nat → List (Piece α) → Nat → Prop
  | lo, [], hi => lo = hi
  | lo, piece :: rest, hi => piece.start = lo ∧ Tiles piece.stop rest hi

/-- What pieces hold together. -/
def joined (pieces : List (Piece α)) : List α := pieces.flatMap Piece.data

/-! ### Pieces apart -/

namespace Apart

variable {lo : Nat} {pieces : List (Piece α)}

theorem le_start (apart : Apart lo pieces) : ∀ piece ∈ pieces, lo ≤ piece.start := by
  induction pieces generalizing lo with
  | nil =>
    intro piece isIn
    cases isIn
  | cons first rest inductionHypothesis =>
    intro piece isIn
    rcases List.mem_cons.mp isIn with rfl | later
    · exact apart.1
    · have behind := inductionHypothesis apart.2 piece later
      have from_lo := apart.1
      omega

/-- A piece is put between others. -/
theorem insert {before behind : List (Piece α)} {piece : Piece α}
    (apart : Apart lo (before ++ behind)) (from_lo : lo ≤ piece.start)
    (front : ∀ other ∈ before, other.stop ≤ piece.start ∧ other.start < piece.start)
    (back : ∀ other ∈ behind, piece.stop ≤ other.start ∧ piece.start < other.start) :
    Apart lo (before ++ piece :: behind) := by
  induction before generalizing lo with
  | nil =>
    refine ⟨from_lo, ?_⟩
    cases behind with
    | nil => trivial
    | cons next rest =>
      have after := back next List.mem_cons_self
      exact ⟨by omega, apart.2⟩
  | cons first rest inductionHypothesis =>
    have ahead := front first List.mem_cons_self
    exact ⟨apart.1, inductionHypothesis apart.2 (by omega) fun other isIn =>
      front other (List.mem_cons_of_mem _ isIn)⟩

/-- Pieces apart are in the order of their places. -/
theorem pairwise (apart : Apart lo pieces) :
    pieces.Pairwise fun piece other => piece.stop ≤ other.start ∧ piece.start < other.start := by
  induction pieces generalizing lo with
  | nil => exact List.Pairwise.nil
  | cons first rest inductionHypothesis =>
    refine List.Pairwise.cons (fun other isIn => ?_) (inductionHypothesis apart.2)
    have behind := apart.2.le_start other isIn
    omega

/-- Two pieces apart do not overlap, and do not start together. -/
theorem separate (apart : Apart lo pieces) {piece other : Piece α} (isIn : piece ∈ pieces)
    (otherIn : other ∈ pieces) (different : piece ≠ other) :
    (piece.stop ≤ other.start ∧ piece.start < other.start) ∨
      (other.stop ≤ piece.start ∧ other.start < piece.start) := by
  have before : pieces.Pairwise fun piece other => piece ≠ other →
      (piece.stop ≤ other.start ∧ piece.start < other.start) ∨
        (other.stop ≤ piece.start ∧ other.start < piece.start) :=
    apart.pairwise.imp fun sep _ => Or.inl sep
  exact before.forall_of_forall_of_flip (fun piece _ same => absurd rfl same)
    (apart.pairwise.imp fun sep _ => Or.inr sep) isIn otherIn different

/-- Pieces apart are in one order only. -/
theorem eq_of_mem_iff {lo' : Nat} {pieces' : List (Piece α)} (apart : Apart lo pieces)
    (apart' : Apart lo' pieces') (same : ∀ piece, piece ∈ pieces ↔ piece ∈ pieces') :
    pieces = pieces' := by
  have once : ∀ {lo : Nat} {pieces : List (Piece α)}, Apart lo pieces → pieces.Nodup := by
    intro lo pieces apart
    refine apart.pairwise.imp ?_
    rintro piece _ less rfl
    exact less.2.false
  exact ((List.perm_ext_iff_of_nodup (once apart) (once apart')).mpr same).eq_of_pairwise
    (fun piece other _ _ less more => absurd less.2 more.2.not_gt) apart.pairwise apart'.pairwise

end Apart

/-! ### Tilings -/

namespace Tiles

variable {lo hi : Nat} {pieces : List (Piece α)}

theorem le (tiles : Tiles lo pieces hi) : lo ≤ hi := by
  induction pieces generalizing lo with
  | nil => exact Nat.le_of_eq tiles
  | cons piece rest inductionHypothesis =>
    have behind := inductionHypothesis tiles.2
    have start := tiles.1
    rw [Piece.stop] at behind
    omega

theorem le_start (tiles : Tiles lo pieces hi) : ∀ piece ∈ pieces, lo ≤ piece.start := by
  induction pieces generalizing lo with
  | nil =>
    intro piece isIn
    cases isIn
  | cons first rest inductionHypothesis =>
    intro piece isIn
    have start := tiles.1
    rcases List.mem_cons.mp isIn with rfl | later
    · exact start.ge
    · have behind := inductionHypothesis tiles.2 piece later
      rw [Piece.stop] at behind
      omega

theorem stop_le (tiles : Tiles lo pieces hi) : ∀ piece ∈ pieces, piece.stop ≤ hi := by
  induction pieces generalizing lo with
  | nil =>
    intro piece isIn
    cases isIn
  | cons first rest inductionHypothesis =>
    intro piece isIn
    rcases List.mem_cons.mp isIn with rfl | later
    · exact tiles.2.le
    · exact inductionHypothesis tiles.2 piece later

theorem length_joined (tiles : Tiles lo pieces hi) : lo + (joined pieces).length = hi := by
  induction pieces generalizing lo with
  | nil => exact tiles
  | cons piece rest inductionHypothesis =>
    have behind := inductionHypothesis tiles.2
    rw [Piece.stop, tiles.1] at behind
    rw [joined, List.flatMap_cons, List.length_append, ← Nat.add_assoc]
    exact behind

/-- A piece ends before those behind it start. -/
theorem stop_le_start {before behind : List (Piece α)} {piece other : Piece α}
    (tiles : Tiles lo (before ++ piece :: behind) hi) (isIn : other ∈ before) :
    other.stop ≤ piece.start := by
  induction before generalizing lo with
  | nil => cases isIn
  | cons first rest inductionHypothesis =>
    rcases List.mem_cons.mp isIn with rfl | later
    · exact tiles.2.le_start piece (List.mem_append_right _ List.mem_cons_self)
    · exact inductionHypothesis tiles.2 later

/-- A tiling is cut behind one of its pieces. -/
theorem cut {before behind : List (Piece α)} {piece : Piece α}
    (tiles : Tiles lo (before ++ piece :: behind) hi) :
    Tiles lo (before ++ [piece]) piece.stop ∧ Tiles piece.stop behind hi := by
  induction before generalizing lo with
  | nil => exact ⟨⟨tiles.1, rfl⟩, tiles.2⟩
  | cons first rest inductionHypothesis =>
    obtain ⟨front, back⟩ := inductionHypothesis tiles.2
    exact ⟨⟨tiles.1, front⟩, back⟩

/-- Pieces with data that tile are apart. -/
theorem apart (tiles : Tiles lo pieces hi) (data : ∀ piece ∈ pieces, piece.data ≠ []) :
    Apart lo pieces := by
  induction pieces generalizing lo with
  | nil => trivial
  | cons piece rest inductionHypothesis =>
    have bytes := List.length_pos_of_ne_nil (data piece List.mem_cons_self)
    refine ⟨tiles.1.ge, ?_⟩
    rw [max_eq_left (by rw [Piece.stop]; omega)]
    exact inductionHypothesis tiles.2 fun other isIn => data other (List.mem_cons_of_mem _ isIn)

/-- The last piece ends where the tiling does. -/
theorem exists_stop (tiles : Tiles lo pieces hi) (notEmpty : pieces ≠ []) :
    ∃ piece ∈ pieces, piece.stop = hi := by
  induction pieces generalizing lo with
  | nil => exact absurd rfl notEmpty
  | cons first rest inductionHypothesis =>
    cases rest with
    | nil => exact ⟨first, List.mem_cons_self, tiles.2⟩
    | cons second others =>
      obtain ⟨piece, isIn, stop⟩ := inductionHypothesis tiles.2 (List.cons_ne_nil _ _)
      exact ⟨piece, List.mem_cons_of_mem _ isIn, stop⟩

/-- Pieces of a tiling that tile and reach its end are the tiling. -/
theorem eq_of_subset {whole : List (Piece α)} {top : Nat} (tiles : Tiles lo pieces hi)
    (tiling : Tiles lo whole top) (data : ∀ piece ∈ whole, piece.data ≠ [])
    (subset : ∀ piece ∈ pieces, piece ∈ whole) (last : ∃ piece ∈ pieces, piece.stop = top) :
    pieces = whole := by
  induction pieces generalizing lo whole with
  | nil =>
    obtain ⟨piece, isIn, _⟩ := last
    cases isIn
  | cons piece rest inductionHypothesis =>
    cases whole with
    | nil => cases subset piece List.mem_cons_self
    | cons first others =>
      have firstBytes := List.length_pos_of_ne_nil (data first List.mem_cons_self)
      have above := tiling.2.le_start
      have same : piece = first := by
        rcases List.mem_cons.mp (subset piece List.mem_cons_self) with same | later
        · exact same
        · have behind := above piece later
          have start := tiles.1
          have firstStart := tiling.1
          rw [Piece.stop] at behind
          omega
      subst same
      have inOthers : ∀ other ∈ rest, other ∈ others := by
        intro other isIn
        have behind := tiles.2.le_start other isIn
        rcases List.mem_cons.mp (subset other (List.mem_cons_of_mem _ isIn)) with same | later
        · rw [same, Piece.stop] at behind
          omega
        · exact later
      obtain ⟨final, isIn, stop⟩ := last
      rcases List.mem_cons.mp isIn with rfl | later
      · -- nothing is left behind the end
        have noOthers : others = [] := by
          cases others with
          | nil => rfl
          | cons second others =>
            have bytes := List.length_pos_of_ne_nil
              (data second (List.mem_cons_of_mem _ List.mem_cons_self))
            have behind := above second List.mem_cons_self
            have within := tiling.2.stop_le second List.mem_cons_self
            rw [Piece.stop] at within
            omega
        subst noOthers
        have noRest : rest = [] := List.eq_nil_iff_forall_not_mem.mpr fun other isIn =>
          List.not_mem_nil (inOthers other isIn)
        rw [noRest]
      · rw [inductionHypothesis tiles.2 tiling.2
          (fun other isIn => data other (List.mem_cons_of_mem _ isIn)) inOthers
          ⟨final, later, stop⟩]

end Tiles

end Pieces
