/-
This file proves that lwIP reads back the address texts it prints: `ipaddr_aton`
of what `ipaddr_ntoa` writes is the address.

For IPv6 the parser counts the colons first, to know how many blocks a `::`
stands for. A printed address is the blocks before the zero run, `::`, and the
blocks after it, or eight blocks with a colon between any two. The parser stores
a block at each colon, so what it has stored and the block it is reading are
together the blocks of the text so far.
-/

import Libn2t.AddressText

namespace Net2Tr

open Numeral

/-! ### The shape of a printed address -/

/-- Blocks with colons between them. -/
def joinedText : List Nat → Text
  | [] => []
  | block :: rest => hexText block ++ blocksText false 2 rest

/-- What is printed from inside the zero run: a colon, and the blocks behind the run. -/
theorem blocksText_run (blocks : List Nat) (more : blocks ≠ []) :
    ∃ zeros after, blocks = List.replicate zeros 0 ++ after ∧ after.head? ≠ some 0 ∧
      blocksText false 1 blocks = ':' :: joinedText after := by
  induction blocks with
  | nil => exact absurd rfl more
  | cons block rest inductionHypothesis =>
    by_cases zero : block = 0
    · subst zero
      by_cases ending : rest = []
      · subst ending
        exact ⟨1, [], rfl, (fun wrong => by cases wrong), rfl⟩
      · obtain ⟨zeros, after, rfl, other, text⟩ := inductionHypothesis ending
        refine ⟨zeros + 1, after, rfl, other, ?_⟩
        rw [blocksText, if_pos rfl, if_neg (by simp [ending]), if_neg (by simp), if_pos rfl, text]
    · refine ⟨0, block :: rest, rfl, ?_, ?_⟩
      · rintro wrong
        exact zero (Option.some.inj wrong)
      · rw [blocksText, if_neg zero, if_pos rfl]
        rfl

/-- A block that opens the zero run, with the run and the blocks behind it. -/
theorem blocksText_opened (first : Bool) (rest : List Nat) (next : rest.head? = some 0) :
    ∃ zeros after, 0 :: rest = List.replicate (zeros + 2) 0 ++ after ∧
      blocksText first 0 (0 :: rest) = ':' :: ':' :: joinedText after := by
  have more : rest ≠ [] := by
    rintro rfl
    cases next
  obtain ⟨tail, text, later⟩ := blocksText_opening first rest next
  obtain ⟨zeros, after, shape, other, run⟩ := blocksText_run rest more
  obtain ⟨_, tailEq⟩ := List.cons_eq_cons.mp (later.symm.trans run)
  cases zeros with
  | zero =>
    rw [shape] at next
    exact absurd next other
  | succ zeros =>
    refine ⟨zeros, after, ?_, tailEq ▸ text⟩
    rw [shape]
    rfl

/-- Blocks behind a first one: all are written out, or there is a zero run. -/
theorem blocksText_shape (blocks : List Nat) :
    blocksText false 0 blocks = blocksText false 2 blocks ∨
      ∃ before zeros after, blocks = before ++ List.replicate (zeros + 2) 0 ++ after ∧
        blocksText false 0 blocks =
          blocksText false 2 before ++ ':' :: ':' :: joinedText after := by
  induction blocks with
  | nil => exact Or.inl rfl
  | cons block rest inductionHypothesis =>
    by_cases opening : block = 0 ∧ rest.head? = some 0
    · right
      obtain ⟨rfl, next⟩ := opening
      obtain ⟨zeros, after, shape, text⟩ := blocksText_opened false rest next
      exact ⟨[], zeros, after, shape, text⟩
    · rw [blocksText_beforeRun false block rest opening, blocksText_afterRun]
      rcases inductionHypothesis with whole | ⟨before, zeros, after, shape, text⟩
      · left
        rw [whole]
        rfl
      · right
        refine ⟨block :: before, zeros, after, ?_, ?_⟩
        · rw [shape]
          rfl
        · rw [text, blocksText_afterRun]
          simp only [groupText, Bool.false_eq_true, if_false, List.append_assoc, List.cons_append,
            List.nil_append]

/-- A printed address: eight joined blocks, or the blocks around a zero run. -/
theorem blocksText_joined (blocks : List Nat) (more : blocks ≠ []) :
    blocksText true 0 blocks = joinedText blocks ∨
      ∃ before zeros after, blocks = before ++ List.replicate (zeros + 2) 0 ++ after ∧
        blocksText true 0 blocks = joinedText before ++ ':' :: ':' :: joinedText after := by
  cases blocks with
  | nil => exact absurd rfl more
  | cons block rest =>
    by_cases opening : block = 0 ∧ rest.head? = some 0
    · right
      obtain ⟨rfl, next⟩ := opening
      obtain ⟨zeros, after, shape, text⟩ := blocksText_opened true rest next
      exact ⟨[], zeros, after, shape, text⟩
    · rw [blocksText_beforeRun true block rest opening, groupText, if_pos rfl, List.nil_append]
      rcases blocksText_shape rest with whole | ⟨before, zeros, after, shape, text⟩
      · left
        rw [whole]
        rfl
      · right
        refine ⟨block :: before, zeros, after, ?_, ?_⟩
        · rw [shape]
          rfl
        · rw [text, ← List.append_assoc]
          rfl

/-! ### Counting the colons -/

theorem hexText_xdigit (value : Nat) : ∀ c ∈ hexText value, lwipIsxdigit c = true := by
  intro c member
  obtain ⟨digit, inside, rfl⟩ := List.mem_map.mp member
  exact (lwipXchar_digit digit (plain_lt (by decide) 4 value digit inside)).1

theorem aton6Count_colon (zeroBlocks : Nat) (rest : Text) (small : zeroBlocks < 8) :
    aton6Count (zeroBlocks + 1) (':' :: rest) = aton6Count zeroBlocks rest := by
  rw [aton6Count, if_pos rfl, show (zeroBlocks + 1 + (2 ^ 32 - 1)) % 2 ^ 32 = zeroBlocks by omega]

theorem aton6Count_afterRun (blocks : List Nat) (zeroBlocks : Nat) (rest : Text)
    (small : zeroBlocks + blocks.length ≤ 8) :
    aton6Count (zeroBlocks + blocks.length) (blocksText false 2 blocks ++ rest) =
      aton6Count zeroBlocks rest := by
  induction blocks with
  | nil => rfl
  | cons block blocks inductionHypothesis =>
    rw [List.length_cons] at small ⊢
    rw [blocksText_afterRun, List.cons_append, ← Nat.add_assoc, aton6Count_colon _ _ (by omega),
      List.append_assoc, aton6Count_digits _ _ _ (hexText_xdigit block),
      inductionHypothesis (by omega)]

/-- Joined blocks have a colon less than blocks. -/
theorem aton6Count_joined (blocks : List Nat) (zeroBlocks : Nat) (rest : Text)
    (small : zeroBlocks + blocks.length ≤ 9) :
    aton6Count (zeroBlocks + (blocks.length - 1)) (joinedText blocks ++ rest) =
      aton6Count zeroBlocks rest := by
  cases blocks with
  | nil => rfl
  | cons block blocks =>
    rw [List.length_cons] at small ⊢
    rw [Nat.add_sub_cancel, joinedText, List.append_assoc,
      aton6Count_digits _ _ _ (hexText_xdigit block), aton6Count_afterRun _ _ _ (by omega)]

/-! ### Storing the blocks -/

/-- The memory behind `addr` holds these blocks, two in each word. -/
def Stored (blocks addr : List Nat) : Prop :=
  addr.length = 4 ∧ ∀ word, 2 * word < blocks.length →
    addr.getD word 0 = blocks.getD (2 * word) 0 * 2 ^ 16 + blocks.getD (2 * word + 1) 0

theorem getD_set_self {values : List Nat} {index : Nat} (inside : index < values.length)
    (value : Nat) : (values.set index value).getD index 0 = value := by
  rw [List.getD_eq_getElem?_getD, List.getElem?_set_self inside, Option.getD_some]

theorem getD_set_other {values : List Nat} {index other : Nat} (different : index ≠ other)
    (value : Nat) : (values.set index value).getD other 0 = values.getD other 0 := by
  rw [List.getD_eq_getElem?_getD, List.getElem?_set_ne different, List.getD_eq_getElem?_getD]

theorem getD_snoc_left {values : List Nat} {index : Nat} (inside : index < values.length)
    (value : Nat) : (values ++ [value]).getD index 0 = values.getD index 0 := by
  rw [List.getD_eq_getElem?_getD, List.getElem?_append_left inside, List.getD_eq_getElem?_getD]

theorem getD_snoc_length {values : List Nat} {index : Nat} (last : index = values.length)
    (value : Nat) : (values ++ [value]).getD index 0 = value := by
  rw [last, List.getD_eq_getElem?_getD, List.getElem?_concat_length, Option.getD_some]

theorem getD_beyond {values : List Nat} {index : Nat} (beyond : values.length ≤ index) :
    values.getD index 0 = 0 := by
  rw [List.getD_eq_getElem?_getD, List.getElem?_eq_none beyond, Option.getD_none]

/-- A block with an even index goes to the upper half of its word. -/
theorem Stored.even {blocks addr : List Nat} (stored : Stored blocks addr) {index : Nat}
    (value : Nat) (length : blocks.length = 2 * index) (room : index < 4) (small : value < 2 ^ 16) :
    Stored (blocks ++ [value]) (addr.set index ((value <<< 16) % 2 ^ 32)) := by
  obtain ⟨four, words⟩ := stored
  refine ⟨by rw [List.length_set]; exact four, fun word inside => ?_⟩
  rw [List.length_append, List.length_singleton] at inside
  by_cases same : index = word
  · subst same
    rw [getD_set_self (four.symm ▸ room), getD_snoc_length length.symm, getD_beyond (by
        rw [List.length_append, List.length_singleton]
        omega), Nat.shiftLeft_eq, Nat.add_zero]
    rw [Nat.mod_eq_of_lt (by omega)]
  · rw [getD_set_other same, words word (by omega), getD_snoc_left (by omega),
      getD_snoc_left (by omega)]

/-- A block with an odd index goes to the lower half. -/
theorem Stored.odd {blocks addr : List Nat} (stored : Stored blocks addr) {index value : Nat}
    (length : blocks.length = 2 * index + 1) (room : index < 4) (small : value < 2 ^ 16) :
    Stored (blocks ++ [value]) (addr.set index (addr.getD index 0 ||| value)) := by
  obtain ⟨four, words⟩ := stored
  refine ⟨by rw [List.length_set]; exact four, fun word inside => ?_⟩
  rw [List.length_append, List.length_singleton] at inside
  by_cases same : index = word
  · subst same
    have upper := words index (by omega)
    rw [@getD_beyond _ (2 * index + 1) (by omega), Nat.add_zero] at upper
    rw [getD_set_self (four.symm ▸ room), upper, getD_snoc_left (by omega),
      getD_snoc_length length.symm, or_eq_add _ _ 16 small]
  · rw [getD_set_other same, words word (by omega), getD_snoc_left (by omega),
      getD_snoc_left (by omega)]

/-- A zero block with an odd index is there already. -/
theorem Stored.zero {blocks addr : List Nat} (stored : Stored blocks addr) {index : Nat}
    (length : blocks.length = 2 * index + 1) : Stored (blocks ++ [0]) addr := by
  obtain ⟨four, words⟩ := stored
  refine ⟨four, fun word inside => ?_⟩
  rw [List.length_append, List.length_singleton] at inside
  rw [words word (by omega), getD_snoc_left (by omega)]
  by_cases last : word = index
  · rw [@getD_snoc_length _ (2 * word + 1) (by omega),
      @getD_beyond _ (2 * word + 1) (by omega)]
  · rw [@getD_snoc_left _ (2 * word + 1) (by omega)]

namespace Aton6

/-- The parser has stored these blocks. -/
structure Behind (state : Aton6) (blocks : List Nat) : Prop where
  index : state.currentBlockIndex = blocks.length
  word : state.addrIndex = blocks.length / 2
  stored : Stored blocks state.addr

/-- The state with the block that is being read stored. -/
def next (state : Aton6) : Aton6 :=
  { state.store with
    currentBlockIndex := state.store.currentBlockIndex + 1
    currentBlockValue := 0 }

theorem store_currentBlockIndex (state : Aton6) :
    state.store.currentBlockIndex = state.currentBlockIndex := by
  rw [store]
  split <;> rfl

theorem store_zeroBlocks (state : Aton6) : state.store.zeroBlocks = state.zeroBlocks := by
  rw [store]
  split <;> rfl

/-- A block has been read. -/
theorem Behind.read {state : Aton6} {blocks : List Nat} (behind : state.Behind blocks)
    (value : Nat) (small : value < 2 ^ 16) (room : blocks.length < 8) :
    { state with currentBlockValue := value }.next.Behind (blocks ++ [value]) := by
  obtain ⟨index, word, stored⟩ := behind
  rcases Nat.even_or_odd' blocks.length with ⟨half, even | odd⟩
  · have half_eq : state.addrIndex = half := by omega
    have upper : ¬ state.currentBlockIndex &&& 0x1 = 1 := by
      rw [index, even]
      exact even_and_one half
    rw [next, store, if_neg upper]
    refine ⟨?_, ?_, ?_⟩
    · rw [List.length_append, ← index]
      rfl
    · rw [List.length_append]
      change state.addrIndex = (blocks.length + 1) / 2
      omega
    · change Stored _ (state.addr.set state.addrIndex _)
      rw [half_eq]
      exact stored.even value even (by omega) small
  · have half_eq : state.addrIndex = half := by omega
    have lower : state.currentBlockIndex &&& 0x1 = 1 := by
      rw [index, odd]
      exact odd_and_one half
    rw [next, store, if_pos lower]
    refine ⟨?_, ?_, ?_⟩
    · rw [List.length_append, ← index]
      rfl
    · rw [List.length_append]
      change state.addrIndex + 1 = (blocks.length + 1) / 2
      omega
    · change Stored _ (state.addr.set state.addrIndex (state.addr.getD state.addrIndex 0 ||| _))
      rw [half_eq]
      exact stored.odd odd (by omega) small

/-- The loop at a `::` stores zero blocks. -/
theorem Behind.zeros (zeroBlocks : Nat) {state : Aton6} {blocks : List Nat}
    (behind : state.Behind blocks) (room : blocks.length + zeroBlocks ≤ 7) :
    ∃ filled, aton6Zeros zeroBlocks state = some filled ∧
      filled.Behind (blocks ++ List.replicate zeroBlocks 0) ∧
      filled.currentBlockValue = state.currentBlockValue := by
  induction zeroBlocks generalizing state blocks with
  | zero =>
    refine ⟨{ state with zeroBlocks := 0 }, rfl, ?_, rfl⟩
    rw [List.replicate_zero, List.append_nil]
    exact ⟨behind.index, behind.word, behind.stored⟩
  | succ zeroBlocks inductionHypothesis =>
    obtain ⟨index, word, stored⟩ := behind
    have count : ¬ state.currentBlockIndex + 1 > 7 := by omega
    have grown : (blocks ++ [0]).length = blocks.length + 1 := by
      rw [List.length_append, List.length_singleton]
    rcases Nat.even_or_odd' blocks.length with ⟨half, even | odd⟩
    · have upper : ¬ state.currentBlockIndex &&& 0x1 = 1 := by
        rw [index, even]
        exact even_and_one half
      have half_eq : state.addrIndex = half := by omega
      have stored' := stored.even 0 even (by omega) (by decide)
      obtain ⟨filled, run, filledBehind, value⟩ := @inductionHypothesis
        { state with
          addr := state.addr.set state.addrIndex 0
          currentBlockIndex := state.currentBlockIndex + 1 }
        (blocks ++ [0])
        ⟨by rw [grown, ← index], by rw [grown]; change state.addrIndex = _; omega, by
          change Stored _ (state.addr.set state.addrIndex 0)
          rw [half_eq]
          exact stored'⟩ (by omega)
      refine ⟨filled, ?_, ?_, value⟩
      · rw [aton6Zeros, if_neg upper]
        dsimp only
        rw [if_neg count]
        exact run
      · rw [List.append_assoc] at filledBehind
        exact filledBehind
    · have lower : state.currentBlockIndex &&& 0x1 = 1 := by
        rw [index, odd]
        exact odd_and_one half
      obtain ⟨filled, run, filledBehind, value⟩ := @inductionHypothesis
        { state with
          addrIndex := state.addrIndex + 1
          currentBlockIndex := state.currentBlockIndex + 1 }
        (blocks ++ [0])
        ⟨by rw [grown, ← index], by rw [grown]; change state.addrIndex + 1 = _; omega,
          stored.zero odd⟩ (by omega)
      refine ⟨filled, ?_, ?_, value⟩
      · rw [aton6Zeros, if_pos lower]
        dsimp only
        rw [if_neg count]
        exact run
      · rw [List.append_assoc] at filledBehind
        exact filledBehind

/-! ### Reading a printed address -/

/-- The blocks stored and the one being read are these. -/
def Reading (state : Aton6) (blocks : List Nat) : Prop := state.next.Behind blocks

theorem hexText_single (value : Nat) (rest : Text) : Single (hexText value ++ rest) := by
  obtain ⟨c, tail, shape, other⟩ := hexText_head value
  exact ⟨c, tail ++ rest, by rw [shape]; rfl, other⟩

/-- Reading the digits of a block. -/
theorem loop_hexText (state : Aton6) (fresh : state.currentBlockValue = 0) {value : Nat}
    (small : value < 2 ^ 16) (rest : Text) :
    aton6Loop false state (hexText value ++ rest) =
      aton6Loop false { state with currentBlockValue := value } rest := by
  have horner_eq : horner 16 0 (plain 16 4 value) = value := @horner_plain 16 4 value small
  rw [hexText, aton6Loop_digits lwipXchar_digit _ _ _ (plain_lt (by decide) 4 value) (by
    rw [fresh, horner_eq]
    omega), fresh, horner_eq]

/-- Reading blocks with a colon before each. -/
theorem Reading.afterRun {state : Aton6} {done : List Nat} (reading : state.Reading done)
    (rest : List Nat) (small : ∀ block ∈ rest, block < 2 ^ 16)
    (room : done.length + rest.length ≤ 8) (tail : Text) :
    ∃ later : Aton6, aton6Loop false state (blocksText false 2 rest ++ tail) =
        aton6Loop false later tail ∧
      later.Reading (done ++ rest) ∧ later.zeroBlocks = state.zeroBlocks := by
  induction rest generalizing state done with
  | nil => exact ⟨state, rfl, by rw [List.append_nil]; exact reading, rfl⟩
  | cons block rest inductionHypothesis =>
    rw [List.length_cons] at room
    have index : state.currentBlockIndex + 1 = done.length := by
      rw [← state.store_currentBlockIndex]
      exact reading.index
    have read := Behind.read reading block (small block List.mem_cons_self) (by omega)
    obtain ⟨later, run, laterReading, zeroBlocks⟩ := inductionHypothesis read
      (fun other member => small other (List.mem_cons_of_mem _ member)) (by
        rw [List.length_append, List.length_singleton]
        omega)
    refine ⟨later, ?_, ?_, zeroBlocks.trans state.store_zeroBlocks⟩
    · rw [blocksText_afterRun, List.cons_append, List.append_assoc,
        aton6Loop_colon _ _ (hexText_single block _) (by omega)]
      exact (loop_hexText state.next rfl (small block List.mem_cons_self) _).trans run
    · rw [List.append_assoc] at laterReading
      exact laterReading

/-- Reading joined blocks. -/
theorem Behind.joined {state : Aton6} {done : List Nat} (behind : state.Behind done)
    (fresh : state.currentBlockValue = 0) {blocks : List Nat} (more : blocks ≠ [])
    (small : ∀ block ∈ blocks, block < 2 ^ 16) (room : done.length + blocks.length ≤ 8)
    (tail : Text) :
    ∃ later : Aton6, aton6Loop false state (joinedText blocks ++ tail) =
        aton6Loop false later tail ∧
      later.Reading (done ++ blocks) ∧ later.zeroBlocks = state.zeroBlocks := by
  cases blocks with
  | nil => exact absurd rfl more
  | cons block rest =>
    rw [List.length_cons] at room
    have reading := behind.read block (small block List.mem_cons_self) (by omega)
    obtain ⟨later, run, laterReading, zeroBlocks⟩ := Reading.afterRun reading rest
      (fun other member => small other (List.mem_cons_of_mem _ member)) (by
        rw [List.length_append, List.length_singleton]
        omega) tail
    refine ⟨later, ?_, ?_, zeroBlocks⟩
    · rw [joinedText, List.append_assoc,
        loop_hexText state fresh (small block List.mem_cons_self)]
      exact run
    · rw [List.append_assoc] at laterReading
      exact laterReading

/-- At a `::` the missing zero blocks are stored. -/
theorem Reading.doubleColon {state : Aton6} {done : List Nat} (reading : state.Reading done)
    (room : done.length + state.zeroBlocks ≤ 7) {tail : Text}
    (other : ∀ rest, tail ≠ ':' :: rest) :
    ∃ later : Aton6, aton6Loop false state (':' :: ':' :: tail) = aton6Loop false later tail ∧
      later.Behind (done ++ List.replicate state.zeroBlocks 0) ∧
      later.currentBlockValue = 0 := by
  have index : state.currentBlockIndex + 1 = done.length := by
    rw [← state.store_currentBlockIndex]
    exact reading.index
  obtain ⟨later, filled, behind, value⟩ := Behind.zeros state.zeroBlocks reading room
  refine ⟨later, ?_, behind, value⟩
  have zeros : aton6Zeros state.store.zeroBlocks { state.store with
      currentBlockIndex := state.currentBlockIndex + 1
      currentBlockValue := 0 } = some later := by
    rw [state.store_zeroBlocks, ← state.store_currentBlockIndex]
    exact filled
  rw [aton6Loop.eq_def]
  simp only [if_true, Bool.false_eq_true, false_and, if_false, state.store_currentBlockIndex]
  rw [if_neg (by omega), zeros]

/-- At the end of the text the last block is stored. -/
theorem Reading.finish {state : Aton6} {blocks : List Nat} (reading : state.Reading blocks)
    (eight : blocks.length = 8) :
    ∃ final, aton6Loop false state [] = some final ∧ final.currentBlockIndex = 7 ∧
      Stored blocks final.addr := by
  refine ⟨state.store, by rw [aton6Loop], ?_, reading.stored⟩
  have index : state.store.currentBlockIndex + 1 = blocks.length := reading.index
  omega

end Aton6

/-! ### The round trip -/

/-- The colon count of a printed address: the blocks a `::` stands for. -/
theorem aton6Count_around (before after : List Nat) (small : before.length + after.length ≤ 6) :
    aton6Count 8 (joinedText before ++ ':' :: ':' :: joinedText after) =
      some (6 - (before.length - 1) - (after.length - 1), false) := by
  have first := aton6Count_joined before (8 - (before.length - 1))
    (':' :: ':' :: joinedText after) (by omega)
  have last := aton6Count_joined after (6 - (before.length - 1) - (after.length - 1)) []
    (by omega)
  have split : 8 - (before.length - 1) + (before.length - 1) = 8 := by omega
  have colons : 8 - (before.length - 1) = 6 - (before.length - 1) + 1 + 1 := by omega
  have rest : 6 - (before.length - 1) - (after.length - 1) + (after.length - 1) =
      6 - (before.length - 1) := by omega
  rw [split] at first
  rw [rest, List.append_nil] at last
  rw [first, colons, aton6Count_colon _ _ (by omega), aton6Count_colon _ _ (by omega), last,
    aton6Count]

theorem joinedText_not_colon (blocks : List Nat) (rest : Text) :
    joinedText blocks ≠ ':' :: rest := by
  cases blocks with
  | nil =>
    rintro ⟨⟩
  | cons block blocks =>
    obtain ⟨c, tail, shape, other⟩ := Aton6.hexText_single block (blocksText false 2 blocks)
    rw [joinedText, shape]
    intro same
    exact other (List.cons_eq_cons.mp same).1

/-- The blocks before a zero run have been read, or a zero block when there are none. -/
theorem Aton6.Behind.before {state : Aton6} (behind : state.Behind [])
    (fresh : state.currentBlockValue = 0) (before : List Nat)
    (small : ∀ block ∈ before, block < 2 ^ 16) (room : before.length ≤ 8) (tail : Text) :
    ∃ later : Aton6, aton6Loop false state (joinedText before ++ tail) =
        aton6Loop false later tail ∧
      later.Reading (if before = [] then [0] else before) ∧
      later.zeroBlocks = state.zeroBlocks := by
  by_cases none : before = []
  · subst none
    have value : { state with currentBlockValue := 0 } = state := by rw [← fresh]
    have reading := behind.read 0 (by decide) (by decide)
    rw [value] at reading
    exact ⟨state, rfl, reading, rfl⟩
  · obtain ⟨later, run, reading, zeroBlocks⟩ := behind.joined fresh none small (by
      rw [List.length_nil, Nat.zero_add]
      exact room) tail
    exact ⟨later, run, by rw [if_neg none]; exact reading, zeroBlocks⟩

/-- What is stored around a `::` is the zero run with its neighbours. -/
theorem around_eq (before after : List Nat) (zeros : Nat)
    (eight : before.length + (zeros + 2) + after.length = 8) :
    (if before = [] then [0] else before) ++
        List.replicate (6 - (before.length - 1) - (after.length - 1)) 0 ++
        (if after = [] then [0] else after) =
      before ++ List.replicate (zeros + 2) 0 ++ after := by
  cases before with
  | nil =>
    cases after with
    | nil =>
      obtain rfl : zeros = 6 := by
        rw [List.length_nil] at eight
        omega
      rfl
    | cons last after =>
      rw [List.length_nil, List.length_cons] at eight
      rw [if_pos rfl, if_neg (List.cons_ne_nil last after), List.length_cons,
        show zeros + 2 = 6 - (([] : List Nat).length - 1) - (after.length + 1 - 1) + 1 by
          rw [List.length_nil]
          omega, List.replicate_succ]
      rfl
  | cons first before =>
    cases after with
    | nil =>
      rw [List.length_nil, List.length_cons] at eight
      rw [if_pos rfl, if_neg (List.cons_ne_nil first before), List.length_cons,
        show zeros + 2 = 6 - (before.length + 1 - 1) - (([] : List Nat).length - 1) + 1 by
          rw [List.length_nil]
          omega, List.replicate_succ', List.append_nil, List.append_assoc]
    | cons last after =>
      rw [List.length_cons, List.length_cons] at eight
      rw [if_neg (List.cons_ne_nil first before), if_neg (List.cons_ne_nil last after),
        List.length_cons, List.length_cons,
        show zeros + 2 = 6 - (before.length + 1 - 1) - (after.length + 1 - 1) by omega]

/-- `ip6addr_aton` reads the printed blocks. -/
theorem aton6Loop_blocksText (blocks : List Nat) (eight : blocks.length = 8)
    (small : ∀ block ∈ blocks, block < 2 ^ 16) :
    ∃ zeroBlocks, aton6Count 8 (blocksText true 0 blocks) = some (zeroBlocks, false) ∧
      ∀ addr : List Nat, addr.length = 4 →
        ∃ final, aton6Loop false ⟨addr, 0, zeroBlocks, 0, 0⟩ (blocksText true 0 blocks) =
            some final ∧ final.currentBlockIndex = 7 ∧ Stored blocks final.addr := by
  have more : blocks ≠ [] := by
    rintro rfl
    cases eight
  have start (addr : List Nat) (four : addr.length = 4) (zeroBlocks : Nat) :
      Aton6.Behind ⟨addr, 0, zeroBlocks, 0, 0⟩ [] :=
    ⟨rfl, rfl, four, fun word inside => absurd inside (Nat.not_lt_zero _)⟩
  rcases blocksText_joined blocks more with text | ⟨before, zeros, after, rfl, text⟩
  · rw [text]
    have count := aton6Count_joined blocks 1 [] (by omega)
    rw [eight, List.append_nil] at count
    refine ⟨1, count.trans rfl, fun addr four => ?_⟩
    obtain ⟨later, run, reading, _⟩ := (start addr four 1).joined rfl more small (by
      rw [eight]
      decide) []
    obtain ⟨final, finished, index, stored⟩ := Aton6.Reading.finish reading eight
    rw [List.append_nil] at run
    exact ⟨final, run.trans finished, index, stored⟩
  · rw [text]
    simp only [List.length_append, List.length_replicate] at eight
    have smallBefore : ∀ block ∈ before, block < 2 ^ 16 := fun block member =>
      small block (List.mem_append_left _ (List.mem_append_left _ member))
    have smallAfter : ∀ block ∈ after, block < 2 ^ 16 := fun block member =>
      small block (List.mem_append_right _ member)
    refine ⟨_, aton6Count_around before after (by omega), fun addr four => ?_⟩
    obtain ⟨first, runFirst, readingFirst, zeroBlocks⟩ := (start addr four
      (6 - (before.length - 1) - (after.length - 1))).before rfl before smallBefore (by omega)
      (':' :: ':' :: joinedText after)
    have count : first.zeroBlocks = 6 - (before.length - 1) - (after.length - 1) := zeroBlocks
    have read : (if before = [] then [0] else before).length = before.length - 1 + 1 := by
      cases before <;> rfl
    obtain ⟨second, runSecond, behind, fresh⟩ := Aton6.Reading.doubleColon readingFirst
      (by omega) (joinedText_not_colon after)
    rw [count] at behind
    have around := around_eq before after zeros (by omega)
    obtain ⟨last, runLast, readingLast⟩ : ∃ last : Aton6,
        aton6Loop false second (joinedText after) = aton6Loop false last [] ∧
          last.Reading ((if before = [] then [0] else before) ++
            List.replicate (6 - (before.length - 1) - (after.length - 1)) 0 ++
            (if after = [] then [0] else after)) := by
      have length : ((if before = [] then [0] else before) ++
          List.replicate (6 - (before.length - 1) - (after.length - 1)) 0).length +
            (after.length - 1) < 8 := by
        rw [List.length_append, List.length_replicate, read]
        omega
      by_cases none : after = []
      · subst none
        have value : { second with currentBlockValue := 0 } = second := by rw [← fresh]
        have reading := behind.read 0 (by decide) (by omega)
        rw [value] at reading
        exact ⟨second, rfl, reading⟩
      · have positive := List.length_pos_iff.mpr none
        obtain ⟨last, run, reading, _⟩ := behind.joined fresh none smallAfter (by omega) []
        rw [List.append_nil] at run
        exact ⟨last, run, by rw [if_neg none]; exact reading⟩
    rw [around] at readingLast
    obtain ⟨final, finished, index, stored⟩ := Aton6.Reading.finish readingLast (by
      simp only [List.length_append, List.length_replicate]
      omega)
    exact ⟨final, runFirst.trans (runSecond.trans (runLast.trans finished)), index, stored⟩

/-- The words of an address from its blocks. -/
theorem ofNat_blocks (word : UInt32) :
    UInt32.ofNat (word.toNat / 2 ^ 16 * 2 ^ 16 + word.toNat % 2 ^ 16) = word := by
  rw [Nat.div_add_mod', UInt32.ofNat_toNat]

/-- The family of a printed address that is not IPv4-mapped. -/
theorem ipaddrAtonIsV6_joined (blocks : List Nat) (rest : Text)
    (colon : 2 ≤ blocks.length ∨ ∃ tail, rest = ':' :: tail) :
    ipaddrAtonIsV6 (joinedText blocks ++ rest) = true := by
  have head (tail : Text) : ipaddrAtonIsV6 (':' :: tail) = true := by
    rw [ipaddrAtonIsV6, if_pos rfl]
  cases blocks with
  | nil =>
    obtain ⟨tail, rfl⟩ := colon.resolve_left (by decide)
    exact head tail
  | cons block blocks =>
    rw [joinedText, List.append_assoc, ipaddrAtonIsV6_digits _ _ (hexText_xdigit block)]
    cases blocks with
    | nil =>
      obtain ⟨tail, rfl⟩ := colon.resolve_left (Nat.not_succ_le_self 1)
      exact head tail
    | cons other blocks =>
      rw [blocksText_afterRun]
      exact head _

theorem ipaddrAton_blocksText (ip addr : Ip6Addr) :
    ipaddrAton (blocksText true 0 ip.blocks) addr = some (.v6 ip) := by
  have family : ipaddrAtonIsV6 (blocksText true 0 ip.blocks) = true := by
    rcases blocksText_joined ip.blocks (List.cons_ne_nil _ _) with
      text | ⟨before, zeros, after, _, text⟩
    · have joined := ipaddrAtonIsV6_joined ip.blocks [] (Or.inl (Nat.le_add_left 2 6))
      rw [text]
      rw [List.append_nil] at joined
      exact joined
    · rw [text]
      exact ipaddrAtonIsV6_joined before _ (Or.inr ⟨_, rfl⟩)
  obtain ⟨zeroBlocks, count, parse⟩ := aton6Loop_blocksText ip.blocks rfl ip.blocks_lt
  obtain ⟨final, run, index, _, words⟩ := parse
    [addr.addr0.toNat, addr.addr1.toNat, addr.addr2.toNat, addr.addr3.toNat] rfl
  have parsed : ip6addrAton (blocksText true 0 ip.blocks) addr = some ip := by
    rw [ip6addrAton, count, Option.bind_eq_bind, Option.bind_some]
    dsimp only
    have word (index : Nat) (inside : index < 4) : final.addr.getD index 0 =
        ip.blocks.getD (2 * index) 0 * 2 ^ 16 + ip.blocks.getD (2 * index + 1) 0 :=
      words index (by
        rw [show ip.blocks.length = 8 from rfl]
        omega)
    rw [run, Option.bind_eq_bind, Option.bind_some, if_neg (not_not.mpr index),
      word 0 (by decide), word 1 (by decide), word 2 (by decide), word 3 (by decide)]
    change some (Ip6Addr.mk (UInt32.ofNat (ip.addr0.toNat / 2 ^ 16 * 2 ^ 16 +
        ip.addr0.toNat % 2 ^ 16)) (UInt32.ofNat (ip.addr1.toNat / 2 ^ 16 * 2 ^ 16 +
        ip.addr1.toNat % 2 ^ 16)) (UInt32.ofNat (ip.addr2.toNat / 2 ^ 16 * 2 ^ 16 +
        ip.addr2.toNat % 2 ^ 16)) (UInt32.ofNat (ip.addr3.toNat / 2 ^ 16 * 2 ^ 16 +
        ip.addr3.toNat % 2 ^ 16))) = some ip
    rw [ofNat_blocks, ofNat_blocks, ofNat_blocks, ofNat_blocks]
  rw [ipaddrAton, if_pos family, parsed]
  rfl

/-- The zeros in front of an IPv4-mapped address. -/
theorem aton6Loop_mappedZeros (word0 word1 word2 word3 : Nat) {c : Char} (rest : Text)
    (other : c ≠ ':') :
    aton6Loop true ⟨[word0, word1, word2, word3], 0, 4, 0, 0⟩ (':' :: ':' :: c :: rest) =
      aton6Loop true ⟨[0, 0, 0, word3], 2, 0, 5, 0⟩ (c :: rest) := by
  rw [aton6Loop.eq_def]
  simp [Aton6.store, aton6Zeros, other]

/-- The IPv4 part of an IPv4-mapped address. -/
theorem aton6Loop_mappedPart (word3 a b c d : Nat)
    (small : ∀ octet ∈ [a, b, c, d], octet < 256) :
    aton6Loop true ⟨[0, 0, 0, word3], 2, 0, 5, 0xFFFF⟩ (':' :: dottedText [a, b, c, d]) =
      some ⟨[0, 0, 0xFFFF, (UInt32.ofNat (a * 2 ^ 24 + b * 2 ^ 16 + c * 2 ^ 8 + d)).toNat], 3, 0, 7,
        0xFFFF⟩ := by
  rw [aton6Loop.eq_def]
  simp [Aton6.store, ip4addrAton_dottedText a b c d small]

/-- `ip6addr_aton` reads a printed IPv4-mapped address. -/
theorem ipaddrAton_mapped (ip addr : Ip6Addr) (mapped : ip.isIpv4Mapped = true) :
    ipaddrAton (ip4MappedHeader ++ dottedText ((beBytes4 ip.addr3.toNat).map UInt8.toNat)) addr =
      some (.v6 ip) := by
  have small := Ip4Addr.octets_lt ⟨ip.addr3⟩
  have octets : (Ip4Addr.bytes ⟨ip.addr3⟩).map UInt8.toNat =
      [ip.addr3.toNat / 2 ^ 24 % 256, ip.addr3.toNat / 2 ^ 16 % 256,
        ip.addr3.toNat / 2 ^ 8 % 256, ip.addr3.toNat % 256] := by
    simp only [Ip4Addr.bytes, beBytes4, List.map_cons, List.map_nil, UInt8.toNat_ofNat']
  have word := Ip4Addr.ofNat_bytes ⟨ip.addr3⟩
  change _ = ip.addr3 at word
  rw [octets] at small
  change ipaddrAton (_ ++ dottedText ((Ip4Addr.bytes ⟨ip.addr3⟩).map UInt8.toNat)) addr = _
  rw [octets]
  generalize ip.addr3.toNat / 2 ^ 24 % 256 = a at small word ⊢
  generalize ip.addr3.toNat / 2 ^ 16 % 256 = b at small word ⊢
  generalize ip.addr3.toNat / 2 ^ 8 % 256 = c at small word ⊢
  generalize ip.addr3.toNat % 256 = d at small word ⊢
  have header (rest : Text) : ip4MappedHeader ++ rest =
      ':' :: ':' :: ([15, 15, 15, 15].map lwipXchar ++ ':' :: rest) := rfl
  have digits : ∀ c ∈ [15, 15, 15, 15].map lwipXchar, lwipIsxdigit c = true := by
    intro c member
    obtain ⟨digit, fifteen, rfl⟩ := List.mem_map.mp member
    have value : digit = 15 := List.eq_of_mem_replicate (n := 4) fifteen
    exact (lwipXchar_digit digit (by omega)).1
  have count : aton6Count 8 (ip4MappedHeader ++ dottedText [a, b, c, d]) = some (4, true) := by
    rw [header, aton6Count_colon 7 _ (by decide), aton6Count_colon 6 _ (by decide),
      aton6Count_digits _ _ _ digits, aton6Count_colon 5 _ (by decide), dottedText_four,
      aton6Count_digits _ _ _ (decimalText_xdigit a)]
    rfl
  have parsed : ip6addrAton (ip4MappedHeader ++ dottedText [a, b, c, d]) addr = some ip := by
    rw [ip6addrAton, count, Option.bind_eq_bind, Option.bind_some, header]
    dsimp only
    have value : horner 16 0 [15, 15, 15, 15] = 0xFFFF := by decide
    have block := @aton6Loop_digits _ lwipXchar_digit true [15, 15, 15, 15]
      ⟨[0, 0, 0, addr.addr3.toNat], 2, 0, 5, 0⟩ (':' :: dottedText [a, b, c, d]) (by decide) (by
        dsimp only
        rw [value]
        decide)
    dsimp only at block
    rw [value, aton6Loop_mappedPart addr.addr3.toNat a b c d small] at block
    rw [List.map_cons, List.cons_append, aton6Loop_mappedZeros _ _ _ _ _ (by decide),
      ← List.cons_append, ← List.map_cons, block, Option.bind_eq_bind, Option.bind_some,
      if_neg (not_not.mpr rfl), word]
    rw [Ip6Addr.isIpv4Mapped, decide_eq_true_eq] at mapped
    obtain ⟨first, second, third⟩ := mapped
    obtain ⟨addr0, addr1, addr2, addr3⟩ := ip
    dsimp only at first second third
    rw [first, second, third]
    simp
  rw [ipaddrAton, if_pos (by rfl), parsed]
  rfl

/-- `ipaddr_aton` reads what `ipaddr_ntoa` prints, whatever its result variable held before. -/
theorem ipaddrAton_ipaddrNtoa (ip : IpAddr) (past : UInt32)
    (tag : ip.isV6 = true → past >>> 24 = 6) {text : Text}
    (printed : ipaddrNtoa ip past = some text) (addr : Ip6Addr) :
    ipaddrAton text addr = some ip := by
  cases ip with
  | v4 ip =>
    obtain rfl := Option.some.inj ((ip4addrNtoaR_eq ip le_rfl).symm.trans printed)
    exact ipaddrAton_dottedText ip addr
  | v6 ip =>
    cases mapped : ip.isIpv4Mapped with
    | true =>
      obtain rfl := Option.some.inj ((ip6addrNtoaR_mapped ip past mapped).symm.trans printed)
      exact ipaddrAton_mapped ip addr mapped
    | false =>
      have written := ip6addrNtoaR_eq ip past mapped (by rw [tag rfl]; decide)
      obtain rfl := Option.some.inj (written.symm.trans printed)
      exact ipaddrAton_blocksText ip addr

end Net2Tr
