/-
This file is about a list that is searched from the front and whose hit moves to
the front, as caches and connection tables do it. The order of such a list
depends on its whole past, so nothing may be said about the order: what a hit
does is a permutation, and which element is hit is clear only when the elements
have keys that are pairwise different.
-/

import Mathlib.Data.List.Basic
import Mathlib.Data.List.Perm.Basic
import Mathlib.Data.List.Nodup

namespace MoveToFront

variable {Item Key : Type}

/-! ### Lists with different keys -/

/-- An item with a new key may be put into the list. -/
theorem distinct_cons {items : List Item} {key : Item → Key} {item : Item}
    (distinct : (items.map key).Nodup) (fresh : ∀ other ∈ items, key other ≠ key item) :
    ((item :: items).map key).Nodup := by
  rw [List.map_cons, List.nodup_cons]
  refine ⟨fun member => ?_, distinct⟩
  obtain ⟨other, inside, same⟩ := List.mem_map.mp member
  exact fresh other inside same

variable [DecidableEq Item]

/-- An item may be taken out. -/
theorem distinct_erase {items : List Item} {key : Item → Key} (item : Item)
    (distinct : (items.map key).Nodup) : ((items.erase item).map key).Nodup :=
  distinct.sublist ((List.erase_sublist).map key)

/-! ### The search -/

/-- The first item that matches, and the list with it at the front. -/
def search (isMatch : Item → Bool) (items : List Item) : Option (Item × List Item) :=
  (items.find? isMatch).map fun item => (item, item :: items.erase item)

theorem search_eq_none {isMatch : Item → Bool} {items : List Item} :
    search isMatch items = none ↔ ∀ item ∈ items, isMatch item = false := by
  simp only [search, Option.map_eq_none_iff, List.find?_eq_none, Bool.not_eq_true]

/-- A hit is an item of the list that matches, and the list is only reordered. -/
theorem search_some {isMatch : Item → Bool} {items moved : List Item} {item : Item}
    (hit : search isMatch items = some (item, moved)) :
    item ∈ items ∧ isMatch item = true ∧ moved = item :: items.erase item ∧
      moved.Perm items := by
  obtain ⟨found, first, same⟩ := Option.map_eq_some_iff.mp hit
  obtain ⟨rfl, rfl⟩ := Prod.mk.inj same
  have member : found ∈ items := List.mem_of_find?_eq_some first
  exact ⟨member, List.find?_some first, rfl, (List.perm_cons_erase member).symm⟩

/-- When matching means having a certain key and no two items have the same key, the item with
that key is the hit. -/
theorem search_key {isMatch : Item → Bool} {items : List Item} {key : Item → Key} {wanted : Key}
    (matching : ∀ item ∈ items, isMatch item = true ↔ key item = wanted)
    (distinct : (items.map key).Nodup) {item : Item} (member : item ∈ items)
    (same : key item = wanted) :
    search isMatch items = some (item, item :: items.erase item) := by
  cases hit : search isMatch items with
  | none =>
    have unmatched := search_eq_none.mp hit item member
    cases unmatched.symm.trans ((matching item member).mpr same)
  | some found =>
    obtain ⟨other, moved⟩ := found
    obtain ⟨otherMember, matched, rfl, _⟩ := search_some hit
    have key := ((matching other otherMember).mp matched).trans same.symm
    rw [List.inj_on_of_nodup_map distinct otherMember member key]

end MoveToFront
