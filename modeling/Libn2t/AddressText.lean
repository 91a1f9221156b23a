/-
This file proves that addresses survive the hand-off between lwIP, boost and
SOCKS5 as text. What lwIP prints is read back by `inet_pton` to the same bytes,
and what `socks5_to_addrport` prints is read back by `ipaddr_aton` to the same
address.

Both directions follow the parsers character by character. Reading the digits
of one group is Horner's rule; the compressed zero run is followed in three
phases, before, inside and after it, which are the three values of the flag the
printer keeps.
-/

import Libn2t.Printing

namespace Net2Tr

open Numeral

/-! ### Characters -/

theorem lwipXchar_digit : ∀ digit < 16,
    lwipIsxdigit (lwipXchar digit) = true ∧ lwipXvalue (lwipXchar digit) = digit := by
  decide

theorem hexDigit_digit : ∀ digit < 16,
    lwipIsxdigit (hexDigit digit) = true ∧ lwipXvalue (hexDigit digit) = digit := by
  decide

theorem decimalDigit_digit : ∀ digit < 10,
    lwipIsdigit (decimalDigit digit) = true ∧ lwipIsxdigit (decimalDigit digit) = true ∧
      (decimalDigit digit).toNat - '0'.toNat = digit ∧ (decimalDigit digit = '0' → digit = 0) := by
  decide

theorem colon_not_xdigit : lwipIsxdigit ':' = false := by decide

theorem dot_not_xdigit : lwipIsxdigit '.' = false := by decide

theorem dot_not_digit : lwipIsdigit '.' = false := by decide

/-- A hexadecimal digit is neither of the separators. -/
theorem ne_of_xdigit {c : Char} (digit : lwipIsxdigit c = true) : c ≠ ':' ∧ c ≠ '.' := by
  constructor
  · rintro rfl
    exact absurd digit (by decide)
  · rintro rfl
    exact absurd digit (by decide)

/-! ### `inet_pton` reads what lwIP prints: IPv6 -/

/-- Reading the digits of a group is Horner's rule. -/
theorem pton6Loop_xdigits (text : Text) (state : Pton6) (curtok rest : Text)
    (digits : ∀ c ∈ text, lwipIsxdigit c = true) (few : state.xdigitsSeen + text.length ≤ 4) :
    pton6Loop state curtok (text ++ rest) =
      pton6Loop { state with
        xdigitsSeen := state.xdigitsSeen + text.length
        val := horner 16 state.val (text.map lwipXvalue) } curtok rest := by
  induction text generalizing state with
  | nil => rfl
  | cons c text inductionHypothesis =>
    rw [List.length_cons] at few
    rw [List.cons_append, pton6Loop, if_pos (digits c List.mem_cons_self), if_neg (by omega),
      inductionHypothesis _ (fun other member => digits other (List.mem_cons_of_mem _ member))
        (by
          show state.xdigitsSeen + 1 + text.length ≤ 4
          omega)]
    simp only [horner_cons, List.map_cons, List.length_cons, Nat.add_comm 1, Nat.add_assoc]

/-- Reading digits written one by one. -/
theorem pton6Loop_digits {write : Nat → Char} (written : ∀ digit < 16,
      lwipIsxdigit (write digit) = true ∧ lwipXvalue (write digit) = digit)
    (digits : List Nat) (state : Pton6) (curtok rest : Text)
    (small : ∀ digit ∈ digits, digit < 16) (few : state.xdigitsSeen + digits.length ≤ 4) :
    pton6Loop state curtok (digits.map write ++ rest) =
      pton6Loop { state with
        xdigitsSeen := state.xdigitsSeen + digits.length
        val := horner 16 state.val digits } curtok rest := by
  have xdigits : ∀ c ∈ digits.map write, lwipIsxdigit c = true := by
    intro c member
    obtain ⟨digit, inside, rfl⟩ := List.mem_map.mp member
    exact (written digit (small digit inside)).1
  have values : (digits.map write).map lwipXvalue = digits := by
    rw [List.map_map]
    exact (List.map_congr_left fun digit inside => (written digit (small digit inside)).2).trans
      (List.map_id _)
  rw [pton6Loop_xdigits _ _ _ _ xdigits (by rwa [List.length_map]), values, List.length_map]

theorem hexText_length_pos (value : Nat) : 0 < (hexText value).length := by
  rw [hexText, List.length_map]
  exact List.length_pos_iff.mpr (plain_ne_nil 16 3 value)

theorem hexText_ne_nil (value : Nat) : hexText value ≠ [] :=
  List.length_pos_iff.mp (hexText_length_pos value)

/-- Reading one printed block. -/
theorem pton6Loop_hexText (tmp : Bytes) (colonp : Option Nat) (value : Nat) (curtok rest : Text)
    (small : value < 2 ^ 16) :
    pton6Loop ⟨tmp, colonp, 0, 0⟩ curtok (hexText value ++ rest) =
      pton6Loop ⟨tmp, colonp, (hexText value).length, value⟩ curtok rest := by
  have bound := plain_length_le 16 4 value
  rw [hexText, pton6Loop_digits lwipXchar_digit _ _ _ _ (plain_lt (by decide) 4 value)
    (by simpa using bound)]
  simp only [Nat.zero_add, List.length_map, @horner_plain 16 4 value small]

/-- A colon after a group stores the group. -/
theorem pton6Loop_store (tmp : Bytes) (colonp : Option Nat) (seen value : Nat)
    (curtok rest : Text) (pending : 0 < seen) (more : rest ≠ []) (room : tmp.length + 2 ≤ 16) :
    pton6Loop ⟨tmp, colonp, seen, value⟩ curtok (':' :: rest) =
      pton6Loop ⟨tmp ++ beBytes2 value, colonp, 0, 0⟩ rest rest := by
  rw [pton6Loop, if_neg (by rw [colon_not_xdigit]; decide), if_pos rfl,
    if_neg (show ¬ seen = 0 by omega), if_neg more, if_neg (by
      show ¬ tmp.length + 2 > 16
      omega)]

/-- A colon where a group would start is the second of `::`. -/
theorem pton6Loop_mark (tmp : Bytes) (curtok rest : Text) :
    pton6Loop ⟨tmp, none, 0, 0⟩ curtok (':' :: rest) =
      pton6Loop ⟨tmp, some tmp.length, 0, 0⟩ rest rest := by
  rw [pton6Loop, if_neg (by rw [colon_not_xdigit]; decide), if_pos rfl, if_pos rfl,
    if_neg (by simp)]

theorem beBytes2_length (value : Nat) : (beBytes2 value).length = 2 := rfl

theorem beBytes2_zero : beBytes2 0 = [0, 0] := by decide

theorem flatMap_beBytes2_length (blocks : List Nat) :
    (blocks.flatMap beBytes2).length = 2 * blocks.length := by
  induction blocks with
  | nil => rfl
  | cons block rest inductionHypothesis =>
    rw [List.flatMap_cons, List.length_append, inductionHypothesis, beBytes2_length,
      List.length_cons]
    omega

/-- At the end of the text a pending group is stored. -/
theorem finish_pending (tmp : Bytes) (colonp : Option Nat) (seen value : Nat)
    (pending : 0 < seen) :
    Pton6.finish ⟨tmp, colonp, seen, value⟩ =
      Pton6.finish ⟨tmp ++ beBytes2 value, colonp, 0, 0⟩ := by
  simp only [Pton6.finish, pending, if_true, Nat.lt_irrefl, if_false, gt_iff_lt]

/-- Without a `::` the groups must fill the address. -/
theorem finish_full (tmp : Bytes) (full : tmp.length = 16) :
    Pton6.finish ⟨tmp, none, 0, 0⟩ = some tmp := by
  simp [Pton6.finish, full]

/-- With a `::` the missing bytes are zeros at its place. -/
theorem finish_filled (first second : Bytes) (zeros : Nat) (missing : 0 < zeros)
    (full : first.length + zeros + second.length = 16) :
    Pton6.finish ⟨first ++ second, some first.length, 0, 0⟩ =
      some (first ++ List.replicate zeros 0 ++ second) := by
  have count : 16 - (first.length + second.length) = zeros := by omega
  simp only [Pton6.finish, gt_iff_lt, Nat.lt_irrefl, if_false, List.length_append]
  rw [if_neg (by omega), if_neg (by omega), count, List.take_left, List.drop_left]

theorem blocksText_afterRun (block : Nat) (rest : List Nat) :
    blocksText false 2 (block :: rest) = ':' :: (hexText block ++ blocksText false 2 rest) := by
  rw [blocksText]
  by_cases zero : block = 0
  · simp [zero, groupText]
  · simp [zero, groupText]

/-- After the zero run every block is written out. -/
theorem pton6Loop_afterRun (blocks : List Nat) (tmp : Bytes) (colonp : Option Nat)
    (seen value : Nat) (curtok : Text) (pending : 0 < seen)
    (small : ∀ block ∈ blocks, block < 2 ^ 16) (room : tmp.length + 2 * blocks.length ≤ 16) :
    pton6Loop ⟨tmp, colonp, seen, value⟩ curtok (blocksText false 2 blocks) =
      Pton6.finish ⟨tmp ++ beBytes2 value ++ blocks.flatMap beBytes2, colonp, 0, 0⟩ := by
  induction blocks generalizing tmp seen value curtok with
  | nil =>
    rw [blocksText, pton6Loop, List.flatMap_nil, List.append_nil]
    exact finish_pending tmp colonp seen value pending
  | cons block rest inductionHypothesis =>
    rw [List.length_cons] at room
    rw [blocksText_afterRun, pton6Loop_store tmp colonp seen value curtok _ pending
        (List.append_ne_nil_of_left_ne_nil (hexText_ne_nil block) _) (by omega),
      pton6Loop_hexText _ _ _ _ _ (small block List.mem_cons_self),
      inductionHypothesis _ _ _ _ (hexText_length_pos block)
        (fun other member => small other (List.mem_cons_of_mem _ member)) (by
          rw [List.length_append, beBytes2_length]
          omega),
      List.flatMap_cons, List.append_assoc, List.append_assoc]

theorem replicate_two_succ (zeros : Nat) :
    List.replicate (2 * (zeros + 1)) (0 : UInt8) =
      List.replicate (2 * zeros) 0 ++ beBytes2 0 := by
  rw [beBytes2_zero, show 2 * (zeros + 1) = 2 * zeros + 2 by omega, List.replicate_add]
  rfl

/-- Inside the zero run: the remaining zero blocks leave no trace but the second colon. -/
theorem pton6Loop_inRun (blocks : List Nat) (tmp : Bytes) (zeros : Nat) (curtok : Text)
    (more : blocks ≠ []) (small : ∀ block ∈ blocks, block < 2 ^ 16) (opened : 0 < zeros)
    (room : tmp.length + 2 * zeros + 2 * blocks.length = 16) :
    pton6Loop ⟨tmp, none, 0, 0⟩ curtok (blocksText false 1 blocks) =
      some (tmp ++ List.replicate (2 * zeros) 0 ++ blocks.flatMap beBytes2) := by
  induction blocks generalizing zeros with
  | nil => exact absurd rfl more
  | cons block rest inductionHypothesis =>
    rw [List.length_cons] at room
    rw [blocksText, List.flatMap_cons]
    by_cases zero : block = 0
    · subst zero
      rw [if_pos rfl, ← List.append_assoc,
        List.append_assoc tmp (List.replicate (2 * zeros) 0) (beBytes2 0), ← replicate_two_succ]
      by_cases ending : rest = []
      · subst ending
        rw [if_pos ⟨rfl, rfl⟩, pton6Loop_mark, pton6Loop, List.flatMap_nil]
        have filled := finish_filled tmp [] (2 * (zeros + 1)) (by omega) (by
          simp only [List.length_nil] at room ⊢
          omega)
        rwa [List.append_nil] at filled
      · rw [if_neg (by simp [ending]), if_neg (by simp), if_pos rfl]
        exact inductionHypothesis (zeros + 1) ending
          (fun other member => small other (List.mem_cons_of_mem _ member)) (by omega) (by omega)
    · rw [if_neg zero, if_pos rfl, groupText, if_neg Bool.false_ne_true, List.append_assoc,
        List.cons_append, List.nil_append, pton6Loop_mark,
        pton6Loop_hexText _ _ _ _ _ (small block List.mem_cons_self),
        pton6Loop_afterRun rest _ _ _ _ _ (hexText_length_pos block)
          (fun other member => small other (List.mem_cons_of_mem _ member)) (by omega),
        List.append_assoc tmp (beBytes2 block) (rest.flatMap beBytes2)]
      exact finish_filled tmp _ (2 * zeros) (by omega) (by
        rw [List.length_append, beBytes2_length, flatMap_beBytes2_length]
        omega)

/-- Inside the zero run the next character is the second colon. -/
theorem blocksText_inRun (blocks : List Nat) (more : blocks ≠ []) :
    ∃ tail, blocksText false 1 blocks = ':' :: tail := by
  induction blocks with
  | nil => exact absurd rfl more
  | cons block rest inductionHypothesis =>
    rw [blocksText]
    by_cases zero : block = 0
    · by_cases ending : rest = []
      · rw [if_pos zero, if_pos ⟨ending, rfl⟩]
        exact ⟨[], rfl⟩
      · rw [if_pos zero, if_neg (by simp [ending]), if_neg (by simp), if_pos rfl]
        exact inductionHypothesis ending
    · rw [if_neg zero]
      exact ⟨_, rfl⟩

/-- A block that does not open the zero run is written out. -/
theorem blocksText_beforeRun (first : Bool) (block : Nat) (rest : List Nat)
    (written : ¬ (block = 0 ∧ rest.head? = some 0)) :
    blocksText first 0 (block :: rest) =
      groupText first block ++ blocksText false 0 rest := by
  rw [blocksText]
  by_cases zero : block = 0
  · rw [if_pos zero, if_neg (by simp), if_neg (by simpa [zero] using written), if_neg (by simp)]
  · rw [if_neg zero, if_neg (by simp)]

/-- A block that opens the zero run is replaced by the first colon. -/
theorem blocksText_opening (first : Bool) (rest : List Nat) (next : rest.head? = some 0) :
    ∃ tail, blocksText first 0 (0 :: rest) = ':' :: ':' :: tail ∧
      blocksText false 1 rest = ':' :: tail := by
  have more : rest ≠ [] := by
    rintro rfl
    cases next
  obtain ⟨tail, shape⟩ := blocksText_inRun rest more
  refine ⟨tail, ?_, shape⟩
  rw [blocksText, if_pos rfl, if_neg (by simp [more]), if_pos ⟨rfl, next⟩, shape]

/-- Before the zero run: every block is written out until the run begins. -/
theorem pton6Loop_beforeRun (blocks : List Nat) (tmp : Bytes) (seen value : Nat)
    (curtok : Text) (pending : 0 < seen) (small : ∀ block ∈ blocks, block < 2 ^ 16)
    (room : tmp.length + 2 + 2 * blocks.length = 16) :
    pton6Loop ⟨tmp, none, seen, value⟩ curtok (blocksText false 0 blocks) =
      some (tmp ++ beBytes2 value ++ blocks.flatMap beBytes2) := by
  induction blocks generalizing tmp seen value curtok with
  | nil =>
    rw [blocksText, pton6Loop, List.flatMap_nil, List.append_nil,
      finish_pending tmp none seen value pending]
    exact finish_full _ (by simpa [beBytes2_length] using room)
  | cons block rest inductionHypothesis =>
    rw [List.length_cons] at room
    have smallRest : ∀ other ∈ rest, other < 2 ^ 16 :=
      fun other member => small other (List.mem_cons_of_mem _ member)
    have stored : (tmp ++ beBytes2 value).length = tmp.length + 2 := by
      rw [List.length_append, beBytes2_length]
    by_cases opening : block = 0 ∧ rest.head? = some 0
    · obtain ⟨rfl, next⟩ := opening
      have more : rest ≠ [] := by
        rintro rfl
        cases next
      obtain ⟨tail, shape, later⟩ := blocksText_opening false rest next
      rw [shape, pton6Loop_store tmp none seen value curtok _ pending (List.cons_ne_nil _ _)
          (by omega), ← later,
        pton6Loop_inRun rest _ 1 _ more smallRest (by omega) (by omega), List.flatMap_cons,
        beBytes2_zero, ← List.append_assoc]
      rfl
    · rw [blocksText_beforeRun false block rest opening, groupText, if_neg Bool.false_ne_true,
        List.append_assoc, List.cons_append, List.nil_append,
        pton6Loop_store tmp none seen value curtok _ pending
          (List.append_ne_nil_of_left_ne_nil (hexText_ne_nil block) _) (by omega),
        pton6Loop_hexText _ _ _ _ _ (small block List.mem_cons_self),
        inductionHypothesis _ _ _ _ (hexText_length_pos block) smallRest (by omega),
        List.flatMap_cons, ← List.append_assoc]

theorem hexText_head (value : Nat) : ∃ c rest, hexText value = c :: rest ∧ c ≠ ':' := by
  obtain ⟨digit, digits, shape⟩ := List.exists_cons_of_ne_nil (plain_ne_nil 16 3 value)
  have small : digit < 16 :=
    plain_lt (by decide) 4 value digit (by rw [shape]; exact List.mem_cons_self)
  refine ⟨lwipXchar digit, digits.map lwipXchar, by rw [hexText, shape, List.map_cons], ?_⟩
  exact (ne_of_xdigit (lwipXchar_digit digit small).1).1

/-- A text that does not start with a colon is read from its first character. -/
theorem inetPton6_of_head {c : Char} {rest : Text} (other : c ≠ ':') :
    inetPton6 (c :: rest) = pton6Loop ⟨[], none, 0, 0⟩ (c :: rest) (c :: rest) := by
  rw [inetPton6]
  · rintro tail ⟨⟩
    exact other rfl
  · rintro tail ⟨⟩
    exact other rfl

/-- `inet_pton` reads the printed blocks back to their bytes. -/
theorem inetPton6_blocksText (blocks : List Nat) (eight : blocks.length = 8)
    (small : ∀ block ∈ blocks, block < 2 ^ 16) :
    inetPton6 (blocksText true 0 blocks) = some (blocks.flatMap beBytes2) := by
  cases blocks with
  | nil => cases eight
  | cons block rest =>
    rw [List.length_cons] at eight
    have smallRest : ∀ other ∈ rest, other < 2 ^ 16 :=
      fun other member => small other (List.mem_cons_of_mem _ member)
    by_cases opening : block = 0 ∧ rest.head? = some 0
    · obtain ⟨rfl, next⟩ := opening
      have more : rest ≠ [] := by
        rintro rfl
        cases next
      obtain ⟨tail, shape, later⟩ := blocksText_opening true rest next
      rw [shape, inetPton6, ← later, pton6Loop_inRun rest [] 1 _ more smallRest (by omega) (by
          simp only [List.length_nil]
          omega),
        List.flatMap_cons, beBytes2_zero]
      rfl
    · obtain ⟨c, tail, shape, other⟩ := hexText_head block
      have head : inetPton6 (hexText block ++ blocksText false 0 rest) =
          pton6Loop ⟨[], none, 0, 0⟩ (hexText block ++ blocksText false 0 rest)
            (hexText block ++ blocksText false 0 rest) := by
        rw [shape, List.cons_append]
        exact inetPton6_of_head other
      rw [blocksText_beforeRun true block rest opening, groupText, if_pos rfl, List.nil_append,
        head, pton6Loop_hexText _ _ _ _ _ (small block List.mem_cons_self),
        pton6Loop_beforeRun rest _ _ _ _ (hexText_length_pos block) smallRest (by
          simp only [List.length_nil]
          omega),
        List.flatMap_cons, List.nil_append]

/-! ### `inet_pton` reads what lwIP prints: IPv4 -/

theorem decimalText_eq (value : Nat) :
    ∃ digit digits, plain 10 3 value = digit :: digits ∧
      decimalText value = decimalDigit digit :: digits.map decimalDigit ∧
      (∀ other ∈ digit :: digits, other < 10) ∧ (digits ≠ [] → digit ≠ 0) := by
  obtain ⟨digit, digits, shape⟩ := List.exists_cons_of_ne_nil (plain_ne_nil 10 2 value)
  refine ⟨digit, digits, shape, by rw [decimalText, shape, List.map_cons], ?_, ?_⟩
  · rw [← shape]
    exact plain_lt (by decide) 3 value
  · exact trim_head_ne_zero (fixed 10 3 value) shape

/-- Reading further digits of an octet that is not zero. -/
theorem pton4Loop_digits (digits done : List Nat) (value : Nat) (rest : Text)
    (small : ∀ digit ∈ digits, digit < 10) (nonzero : digits ≠ [] → value ≠ 0)
    (octet : horner 10 value digits ≤ 255) :
    pton4Loop done (some value) (digits.map decimalDigit ++ rest) =
      pton4Loop done (some (horner 10 value digits)) rest := by
  induction digits generalizing value with
  | nil => rfl
  | cons digit digits inductionHypothesis =>
    obtain ⟨isDigit, _, read, _⟩ := decimalDigit_digit digit (small digit List.mem_cons_self)
    have positive := nonzero (List.cons_ne_nil _ _)
    have bound := (le_horner (by decide : 0 < 10) (value * 10 + digit) digits).trans octet
    rw [List.map_cons, List.cons_append, pton4Loop, if_pos isDigit, read]
    simp only [positive, false_or]
    rw [if_neg (by omega), inductionHypothesis (value * 10 + digit)
      (fun other member => small other (List.mem_cons_of_mem _ member)) (fun _ => by omega)
      octet]
    rfl

/-- Reading one printed octet. -/
theorem pton4Loop_decimalText (done : List Nat) (value : Nat) (rest : Text)
    (room : done.length < 4) (small : value < 256) :
    pton4Loop done none (decimalText value ++ rest) = pton4Loop done (some value) rest := by
  obtain ⟨digit, digits, shape, text, digitsSmall, nonzero⟩ := decimalText_eq value
  have whole : horner 10 digit digits = value := by
    have read := @horner_plain 10 3 value (by omega)
    rwa [shape, horner_cons, Nat.zero_mul, Nat.zero_add] at read
  obtain ⟨isDigit, _, read, _⟩ := decimalDigit_digit digit (digitsSmall digit List.mem_cons_self)
  rw [text, List.cons_append, pton4Loop, if_pos isDigit, read]
  simp only [ge_iff_le]
  rw [if_neg (by omega), pton4Loop_digits digits done digit rest
    (fun other member => digitsSmall other (List.mem_cons_of_mem _ member)) nonzero
    (by omega), whole]

/-- A dot after an octet stores the octet. -/
theorem pton4Loop_dot (done : List Nat) (value : Nat) (rest : Text) (room : done.length < 3) :
    pton4Loop done (some value) ('.' :: rest) = pton4Loop (done ++ [value]) none rest := by
  rw [pton4Loop, if_neg (by rw [dot_not_digit]; decide), if_pos rfl]
  simp only [ge_iff_le]
  rw [if_neg (by omega)]

theorem Ip4Addr.octets_lt (ip : Ip4Addr) : ∀ octet ∈ ip.bytes.map UInt8.toNat, octet < 256 := by
  intro octet member
  obtain ⟨byte, _, rfl⟩ := List.mem_map.mp member
  exact byte.toNat_lt

theorem dottedText_four (a b c d : Nat) :
    dottedText [a, b, c, d] =
      decimalText a ++ '.' :: (decimalText b ++ '.' :: (decimalText c ++ '.' :: decimalText d)) :=
  rfl

/-- `inet_pton` reads four printed octets back. -/
theorem pton4Loop_dottedText (a b c d : Nat) (small : ∀ octet ∈ [a, b, c, d], octet < 256) :
    pton4Loop [] none (dottedText [a, b, c, d]) = some [a, b, c, d] := by
  simp only [List.forall_mem_cons] at small
  obtain ⟨smallA, smallB, smallC, smallD, _⟩ := small
  rw [dottedText_four,
    pton4Loop_decimalText _ _ _ (by decide) smallA, pton4Loop_dot _ _ _ (by decide),
    pton4Loop_decimalText _ _ _ (by simp) smallB, pton4Loop_dot _ _ _ (by simp),
    pton4Loop_decimalText _ _ _ (by simp) smallC, pton4Loop_dot _ _ _ (by simp),
    ← List.append_nil (decimalText d), pton4Loop_decimalText _ _ _ (by simp) smallD]
  rfl

/-- The IPv4 parser returns four octets. -/
theorem pton4Loop_length (src : Text) (done : List Nat) (current : Option Nat)
    (octets : List Nat) (parsed : pton4Loop done current src = some octets) :
    octets.length = 4 := by
  induction src generalizing done current with
  | nil =>
    cases current with
    | none => cases parsed
    | some value =>
      simp only [pton4Loop] at parsed
      split at parsed
      · rename_i three
        injection parsed with same
        rw [← same, List.length_append, three]
        rfl
      · cases parsed
  | cons c src inductionHypothesis =>
    cases current with
    | none =>
      simp only [pton4Loop] at parsed
      split at parsed
      · split at parsed
        · cases parsed
        · exact inductionHypothesis _ _ parsed
      · split at parsed <;> cases parsed
    | some value =>
      simp only [pton4Loop] at parsed
      split at parsed
      · split at parsed
        · cases parsed
        · exact inductionHypothesis _ _ parsed
      · split at parsed
        · split at parsed
          · cases parsed
          · exact inductionHypothesis _ _ parsed
        · cases parsed

/-- The IPv6 parser rejects a text that starts with digits and a dot: what follows the dot
ends the address at four bytes. -/
theorem pton6Loop_dotted (text : Text) (state : Pton6) (curtok rest : Text)
    (digits : ∀ c ∈ text, lwipIsxdigit c = true) (start : state.tmp = [])
    (unmarked : state.colonp = none) :
    pton6Loop state curtok (text ++ '.' :: rest) = none := by
  induction text generalizing state with
  | nil =>
    rw [List.nil_append, pton6Loop, if_neg (by rw [dot_not_xdigit]; decide), if_neg (by decide),
      if_pos ⟨rfl, by simp [start]⟩]
    cases read : inetPton4 curtok with
    | none => rfl
    | some bytes =>
      obtain ⟨octets, parsed, same⟩ := Option.map_eq_some_iff.mp read
      have four := pton4Loop_length _ _ _ _ parsed
      have length : bytes.length = 4 := by rw [← same, List.length_map, four]
      simp [Pton6.finish, start, unmarked, length]
  | cons c text inductionHypothesis =>
    rw [List.cons_append, pton6Loop, if_pos (digits c List.mem_cons_self)]
    split
    · rfl
    · exact inductionHypothesis _ (fun other member => digits other (List.mem_cons_of_mem _ member))
        start unmarked

theorem decimalText_xdigit (value : Nat) : ∀ c ∈ decimalText value, lwipIsxdigit c = true := by
  intro c member
  obtain ⟨digit, digitMember, rfl⟩ := List.mem_map.mp member
  exact (decimalDigit_digit digit (plain_lt (by decide) 3 value digit digitMember)).2.1

theorem inetPton6_dottedText (a b c d : Nat) : inetPton6 (dottedText [a, b, c, d]) = none := by
  obtain ⟨digit, digits, _, text, digitsSmall, _⟩ := decimalText_eq a
  have other := (ne_of_xdigit
    (decimalDigit_digit digit (digitsSmall digit List.mem_cons_self)).2.1).1
  have read := pton6Loop_dotted (decimalText a) ⟨[], none, 0, 0⟩ (dottedText [a, b, c, d])
    (decimalText b ++ '.' :: (decimalText c ++ '.' :: decimalText d)) (decimalText_xdigit a) rfl
    rfl
  rw [← dottedText_four] at read
  rw [dottedText_four, text, List.cons_append] at read ⊢
  rw [inetPton6_of_head other]
  exact read

theorem fromString_dottedText (a b c d : Nat) (small : ∀ octet ∈ [a, b, c, d], octet < 256) :
    fromString (dottedText [a, b, c, d]) = some (.v4 ([a, b, c, d].map UInt8.ofNat)) := by
  rw [fromString, inetPton6_dottedText, inetPton4, pton4Loop_dottedText a b c d small]
  rfl

/-! ### `inet_pton` reads what lwIP prints: IPv4-mapped addresses -/

/-- Digits that turn out to be the first octet of an IPv4 part leave only a count and a value
behind. -/
theorem pton6Loop_octet (text : Text) (state : Pton6) (curtok rest : Text)
    (digits : ∀ c ∈ text, lwipIsxdigit c = true) (few : state.xdigitsSeen + text.length ≤ 4) :
    ∃ seen value, pton6Loop state curtok (text ++ rest) =
      pton6Loop { state with xdigitsSeen := seen, val := value } curtok rest := by
  induction text generalizing state with
  | nil => exact ⟨state.xdigitsSeen, state.val, rfl⟩
  | cons c text inductionHypothesis =>
    rw [List.length_cons] at few
    obtain ⟨seen, value, later⟩ := inductionHypothesis
      { state with
        xdigitsSeen := state.xdigitsSeen + 1
        val := state.val * 16 + lwipXvalue c }
      (fun other member => digits other (List.mem_cons_of_mem _ member)) (by
        show state.xdigitsSeen + 1 + text.length ≤ 4
        omega)
    refine ⟨seen, value, ?_⟩
    rw [List.cons_append, pton6Loop, if_pos (digits c List.mem_cons_self), if_neg (by omega),
      later]

/-- `inet_pton` reads a printed IPv4-mapped address back to its bytes. -/
theorem inetPton6_mapped (a b c d : Nat) (small : ∀ octet ∈ [a, b, c, d], octet < 256) :
    inetPton6 (ip4MappedHeader ++ dottedText [a, b, c, d]) =
      some (List.replicate 10 0 ++ [0xFF, 0xFF] ++ [a, b, c, d].map UInt8.ofNat) := by
  have length := decimalText_length_le a
  have parsed : inetPton4 (dottedText [a, b, c, d]) = some ([a, b, c, d].map UInt8.ofNat) := by
    rw [inetPton4, pton4Loop_dottedText a b c d small]
    rfl
  have header : ip4MappedHeader ++ dottedText [a, b, c, d] =
      ':' :: ':' :: ([15, 15, 15, 15].map lwipXchar ++ ':' :: dottedText [a, b, c, d]) := rfl
  have nonempty : dottedText [a, b, c, d] ≠ [] := by
    obtain ⟨digit, digits, _, text, _⟩ := decimalText_eq a
    rw [dottedText_four, text]
    exact List.cons_ne_nil _ _
  rw [header, inetPton6, pton6Loop_mark,
    pton6Loop_digits lwipXchar_digit _ _ _ _ (by decide) (by decide),
    pton6Loop_store _ _ _ _ _ _ (by decide) nonempty (by decide)]
  obtain ⟨seen, value, octet⟩ := pton6Loop_octet (decimalText a)
    ⟨[] ++ beBytes2 (horner 16 0 [15, 15, 15, 15]), some 0, 0, 0⟩ (dottedText [a, b, c, d])
    ('.' :: (decimalText b ++ '.' :: (decimalText c ++ '.' :: decimalText d)))
    (decimalText_xdigit a) (by
      show 0 + (decimalText a).length ≤ 4
      omega)
  rw [← dottedText_four] at octet
  refine octet.trans ?_
  rw [pton6Loop, if_neg (by rw [dot_not_xdigit]; decide), if_neg (by decide),
    if_pos ⟨rfl, by
      show 2 + 4 ≤ 16
      decide⟩, parsed]
  rfl

/-! ### `ipaddr_aton` reads what `socks5_to_addrport` prints: IPv4 -/

/-- Writing a number behind the zero bits of another is adding it. -/
theorem or_eq_add (high low shift : Nat) (small : low < 2 ^ shift) :
    high * 2 ^ shift ||| low = high * 2 ^ shift + low := by
  rw [Nat.mul_comm]
  exact (Nat.two_pow_add_eq_or_of_lt small high).symm

/-- The text after a number: nothing, or a dot. -/
def Stop (rest : Text) : Prop := rest = [] ∨ ∃ tail, rest = '.' :: tail

theorem aton4Collect_stop (base value : Nat) (rest : Text) (stop : Stop rest) :
    aton4Collect base value rest = (value, rest) := by
  rcases stop with rfl | ⟨tail, rfl⟩
  · rfl
  · rw [aton4Collect, if_neg (by rw [dot_not_digit]; decide),
      if_neg (by simp [dot_not_xdigit])]

theorem aton4Collect_digits (digits : List Nat) (value : Nat) (rest : Text) (stop : Stop rest)
    (small : ∀ digit ∈ digits, digit < 10) (word : horner 10 value digits < 2 ^ 32) :
    aton4Collect 10 value (digits.map decimalDigit ++ rest) = (horner 10 value digits, rest) := by
  induction digits generalizing value with
  | nil => exact aton4Collect_stop 10 value rest stop
  | cons digit digits inductionHypothesis =>
    obtain ⟨isDigit, _, read, _⟩ := decimalDigit_digit digit (small digit List.mem_cons_self)
    have bound := (le_horner (by decide : 0 < 10) (value * 10 + digit) digits).trans_lt word
    rw [List.map_cons, List.cons_append, aton4Collect, if_pos isDigit, read,
      Nat.mod_eq_of_lt bound]
    exact inductionHypothesis _
      (fun other member => small other (List.mem_cons_of_mem _ member)) word

/-- A printed octet is read as a decimal number: it starts with `0` only when it is `0`. -/
theorem aton4Number_decimalText (value : Nat) (rest : Text) (stop : Stop rest)
    (small : value < 256) : aton4Number (decimalText value ++ rest) = some (value, rest) := by
  obtain ⟨digit, digits, shape, text, digitsSmall, nonzero⟩ := decimalText_eq value
  obtain ⟨isDigit, _, read, zeroChar⟩ :=
    decimalDigit_digit digit (digitsSmall digit List.mem_cons_self)
  have whole := @horner_plain 10 3 value (by omega)
  rw [shape] at whole
  by_cases zero : digit = 0
  · have single : digits = [] := by
      by_contra more
      exact nonzero more zero
    subst zero
    subst single
    have isZero : value = 0 := whole.symm
    subst isZero
    rcases stop with rfl | ⟨tail, rfl⟩ <;> rfl
  · rw [text, List.cons_append, aton4Number.eq_def]
    show (if lwipIsdigit (decimalDigit digit) = false then none
      else if decimalDigit digit = '0' then _ else _) = _
    rw [if_neg (by simp [isDigit]), if_neg (fun same => zero (zeroChar same)),
      ← List.cons_append, ← List.map_cons,
      aton4Collect_digits _ 0 rest stop digitsSmall (by omega), whole]

theorem aton4Parts_dot (room : Nat) (parts : List Nat) (value : Nat) (rest : Text)
    (small : value < 256) :
    aton4Parts (room + 1) parts (decimalText value ++ '.' :: rest) =
      aton4Parts room (parts ++ [value]) rest := by
  rw [aton4Parts, aton4Number_decimalText value _ (Or.inr ⟨rest, rfl⟩) small]
  rfl

theorem aton4Parts_last (room : Nat) (parts : List Nat) (value : Nat) (small : value < 256) :
    aton4Parts room parts (decimalText value) = some (parts, value, []) := by
  have number := aton4Number_decimalText value [] (Or.inl rfl) small
  rw [List.append_nil] at number
  cases room with
  | zero => rw [aton4Parts, number]
  | succ room => rw [aton4Parts, number]

/-- `ip4addr_aton` reads four printed octets. -/
theorem ip4addrAton_dottedText (a b c d : Nat) (small : ∀ octet ∈ [a, b, c, d], octet < 256) :
    ip4addrAton (dottedText [a, b, c, d]) =
      some ⟨UInt32.ofNat (a * 2 ^ 24 + b * 2 ^ 16 + c * 2 ^ 8 + d)⟩ := by
  simp only [List.forall_mem_cons] at small
  obtain ⟨smallA, smallB, smallC, smallD, _⟩ := small
  have parts : aton4Parts 3 [] (dottedText [a, b, c, d]) = some ([a, b, c], d, []) := by
    rw [dottedText_four, aton4Parts_dot _ _ _ _ smallA, aton4Parts_dot _ _ _ _ smallB,
      aton4Parts_dot _ _ _ _ smallC, aton4Parts_last _ _ _ smallD]
    rfl
  have word : a * 2 ^ 24 ||| b * 2 ^ 16 ||| c * 2 ^ 8 ||| d =
      a * 2 ^ 24 + b * 2 ^ 16 + c * 2 ^ 8 + d := by
    rw [or_eq_add a (b * 2 ^ 16) 24 (by omega),
      show a * 2 ^ 24 + b * 2 ^ 16 = (a * 2 ^ 8 + b) * 2 ^ 16 by ring,
      or_eq_add (a * 2 ^ 8 + b) (c * 2 ^ 8) 16 (by omega),
      show (a * 2 ^ 8 + b) * 2 ^ 16 + c * 2 ^ 8 = ((a * 2 ^ 8 + b) * 2 ^ 8 + c) * 2 ^ 8 by ring,
      or_eq_add ((a * 2 ^ 8 + b) * 2 ^ 8 + c) d 8 (by omega)]
  simp only [ip4addrAton, parts, Option.bind_eq_bind, Option.bind_some, word]
  rw [if_neg (by omega)]

theorem ipaddrAtonIsV6_digits (text rest : Text) (digits : ∀ c ∈ text, lwipIsxdigit c = true) :
    ipaddrAtonIsV6 (text ++ rest) = ipaddrAtonIsV6 rest := by
  induction text with
  | nil => rfl
  | cons c text inductionHypothesis =>
    obtain ⟨colon, dot⟩ := ne_of_xdigit (digits c List.mem_cons_self)
    rw [List.cons_append, ipaddrAtonIsV6, if_neg colon, if_neg dot,
      inductionHypothesis fun other member => digits other (List.mem_cons_of_mem _ member)]

/-- The bytes of an IPv4 address give the address back. -/
theorem Ip4Addr.ofNat_bytes (ip : Ip4Addr) :
    UInt32.ofNat (ip.addr.toNat / 2 ^ 24 % 256 * 2 ^ 24 + ip.addr.toNat / 2 ^ 16 % 256 * 2 ^ 16 +
      ip.addr.toNat / 2 ^ 8 % 256 * 2 ^ 8 + ip.addr.toNat % 256) = ip.addr := by
  have bound := ip.addr.toNat_lt
  apply UInt32.toNat_inj.mp
  rw [UInt32.toNat_ofNat']
  omega

/-- `ipaddr_aton` reads the printed octets of an address back to the address. -/
theorem ipaddrAton_dottedText (ip : Ip4Addr) (addr : Ip6Addr) :
    ipaddrAton (dottedText (ip.bytes.map UInt8.toNat)) addr = some (.v4 ip) := by
  have octets : ip.bytes.map UInt8.toNat =
      [ip.addr.toNat / 2 ^ 24 % 256, ip.addr.toNat / 2 ^ 16 % 256, ip.addr.toNat / 2 ^ 8 % 256,
        ip.addr.toNat % 256] := by
    simp only [Ip4Addr.bytes, beBytes4, List.map_cons, List.map_nil, UInt8.toNat_ofNat']
  have small := ip.octets_lt
  rw [octets] at small ⊢
  have family (a b c d : Nat) : ipaddrAtonIsV6 (dottedText [a, b, c, d]) = false := by
    rw [dottedText_four, ipaddrAtonIsV6_digits _ _ (decimalText_xdigit a), ipaddrAtonIsV6,
      if_neg (by decide), if_pos rfl]
  rw [ipaddrAton, family, if_neg Bool.false_ne_true, ip4addrAton_dottedText _ _ _ _ small,
    ip.ofNat_bytes]
  rfl

/-! ### `ipaddr_aton` reads what `socks5_to_addrport` prints: IPv6 -/

/-- A 16-bit block written as four hexadecimal digits. -/
def blockHex (high low : UInt8) : Text := hex02 high ++ hex02 low

/-- The digits of a block. -/
def blockDigits (high low : UInt8) : List Nat := fixed 16 2 high.toNat ++ fixed 16 2 low.toNat

/-- The value of a block. -/
def blockValue (high low : UInt8) : Nat := high.toNat * 2 ^ 8 + low.toNat

theorem blockHex_eq (high low : UInt8) :
    blockHex high low = (blockDigits high low).map hexDigit := by
  rw [blockHex, blockDigits, List.map_append]
  rfl

theorem blockDigits_lt (high low : UInt8) : ∀ digit ∈ blockDigits high low, digit < 16 := by
  intro digit member
  rcases List.mem_append.mp member with left | right
  · exact fixed_lt (by decide) 2 _ digit left
  · exact fixed_lt (by decide) 2 _ digit right

theorem horner_blockDigits (high low : UInt8) :
    horner 16 0 (blockDigits high low) = blockValue high low := by
  have highBound := high.toNat_lt
  have lowBound := low.toNat_lt
  rw [blockDigits, horner, List.foldl_append]
  show horner 16 (horner 16 0 (fixed 16 2 high.toNat)) (fixed 16 2 low.toNat) = _
  rw [horner_fixed, horner_fixed, blockValue]
  omega

theorem blockValue_lt (high low : UInt8) : blockValue high low < 2 ^ 16 := by
  have highBound := high.toNat_lt
  have lowBound := low.toNat_lt
  rw [blockValue]
  omega

theorem blockHex_xdigit (high low : UInt8) : ∀ c ∈ blockHex high low, lwipIsxdigit c = true := by
  intro c member
  rw [blockHex_eq] at member
  obtain ⟨digit, digitMember, rfl⟩ := List.mem_map.mp member
  exact (hexDigit_digit digit (blockDigits_lt high low digit digitMember)).1

theorem aton6Count_digits (text rest : Text) (zeroBlocks : Nat)
    (digits : ∀ c ∈ text, lwipIsxdigit c = true) :
    aton6Count zeroBlocks (text ++ rest) = aton6Count zeroBlocks rest := by
  induction text with
  | nil => rfl
  | cons c text inductionHypothesis =>
    obtain ⟨colon, dot⟩ := ne_of_xdigit (digits c List.mem_cons_self)
    rw [List.cons_append, aton6Count, if_neg colon, if_neg dot,
      if_neg (by simp [digits c List.mem_cons_self]),
      inductionHypothesis fun other member => digits other (List.mem_cons_of_mem _ member)]

/-- Every group with a colon after it takes one from the number of missing blocks. -/
theorem aton6Count_block (zeroBlocks : Nat) (high low : UInt8) (rest : Text)
    (small : zeroBlocks < 8) :
    aton6Count (zeroBlocks + 1) (blockHex high low ++ ':' :: rest) =
      aton6Count zeroBlocks rest := by
  rw [aton6Count_digits _ _ _ (blockHex_xdigit high low), aton6Count, if_pos rfl,
    show (zeroBlocks + 1 + (2 ^ 32 - 1)) % 2 ^ 32 = zeroBlocks by omega]

/-- Reading digits written one by one is Horner's rule. -/
theorem aton6Loop_digits {write : Nat → Char} (written : ∀ digit < 16,
      lwipIsxdigit (write digit) = true ∧ lwipXvalue (write digit) = digit)
    {checkIpv4Mapped : Bool} (digits : List Nat) (state : Aton6) (rest : Text)
    (small : ∀ digit ∈ digits, digit < 16)
    (word : horner 16 state.currentBlockValue digits < 2 ^ 32) :
    aton6Loop checkIpv4Mapped state (digits.map write ++ rest) =
      aton6Loop checkIpv4Mapped
        { state with currentBlockValue := horner 16 state.currentBlockValue digits } rest := by
  induction digits generalizing state with
  | nil => rfl
  | cons digit digits inductionHypothesis =>
    obtain ⟨isDigit, value⟩ := written digit (small digit List.mem_cons_self)
    have bound :=
      (le_horner (by decide : 0 < 16) (state.currentBlockValue * 16 + digit) digits).trans_lt word
    have next : ((state.currentBlockValue <<< 4) + digit) % 2 ^ 32 =
        state.currentBlockValue * 16 + digit := by
      rw [Nat.shiftLeft_eq]
      exact Nat.mod_eq_of_lt bound
    rw [List.map_cons, List.cons_append, aton6Loop, if_neg (ne_of_xdigit isDigit).1,
      if_pos isDigit, value, next]
    exact inductionHypothesis _
      (fun other member => small other (List.mem_cons_of_mem _ member)) word

theorem aton6Loop_blockHex (high low : UInt8) (state : Aton6) (rest : Text)
    (fresh : state.currentBlockValue = 0) :
    aton6Loop false state (blockHex high low ++ rest) =
      aton6Loop false { state with currentBlockValue := blockValue high low } rest := by
  have bound := blockValue_lt high low
  rw [blockHex_eq, aton6Loop_digits hexDigit_digit _ _ _ (blockDigits_lt high low) (by
    rw [fresh, horner_blockDigits]
    omega), fresh, horner_blockDigits]

/-- A text that starts with another character than a colon. -/
def Single (text : Text) : Prop := ∃ c tail, text = c :: tail ∧ c ≠ ':'

theorem blockHex_single (high low : UInt8) (rest : Text) :
    Single (blockHex high low ++ rest) := by
  have digits := blockHex_xdigit high low
  cases shape : blockHex high low with
  | nil => exact absurd shape (by simp [blockHex, hex02, fixed])
  | cons c tail =>
    rw [shape] at digits
    exact ⟨c, tail ++ rest, rfl, (ne_of_xdigit (digits c List.mem_cons_self)).1⟩

/-- A single colon stores the finished block and starts the next one. -/
theorem aton6Loop_colon (state : Aton6) (rest : Text) (single : Single rest)
    (room : state.currentBlockIndex < 7) :
    aton6Loop false state (':' :: rest) =
      aton6Loop false { state.store with
        currentBlockIndex := state.store.currentBlockIndex + 1
        currentBlockValue := 0 } rest := by
  obtain ⟨c, tail, rfl, other⟩ := single
  have same : state.store.currentBlockIndex = state.currentBlockIndex := by
    rw [Aton6.store]
    split <;> rfl
  rw [aton6Loop.eq_def]
  simp only [if_true, Bool.false_eq_true, false_and, if_false, same]
  rw [if_neg (by omega)]
  split
  · rename_i equal
    injection equal with equal _
    exact absurd equal other
  · rename_i equal
    injection equal with equal _
    exact absurd equal other
  · rfl

theorem even_and_one (index : Nat) : ¬ (2 * index) &&& 0x1 = 1 := by
  rw [Nat.and_one_is_mod]
  omega

theorem odd_and_one (index : Nat) : (2 * index + 1) &&& 0x1 = 1 := by
  rw [Nat.and_one_is_mod]
  omega

/-- The word of two blocks. -/
def wordValue (a b c d : UInt8) : Nat := blockValue a b * 2 ^ 16 + blockValue c d

/-- Storing an even block and then an odd one stores their word. -/
theorem store_word (addr : List Nat) (index : Nat) (a b c d : UInt8)
    (inside : index < addr.length) :
    (addr.set index ((blockValue a b <<< 16) % 2 ^ 32)).set index
      ((addr.set index ((blockValue a b <<< 16) % 2 ^ 32)).getD index 0 ||| blockValue c d) =
      addr.set index (wordValue a b c d) := by
  have bound := blockValue_lt a b
  have high : (blockValue a b <<< 16) % 2 ^ 32 = blockValue a b * 2 ^ 16 := by
    rw [Nat.shiftLeft_eq]
    exact Nat.mod_eq_of_lt (by omega)
  rw [List.set_set, high, List.getD_eq_getElem?_getD, List.getElem?_set_self inside,
    Option.getD_some, or_eq_add _ _ _ (blockValue_lt c d), wordValue]

/-- Reading two blocks, each with the colon after it, stores one word. -/
theorem aton6Loop_word (addr : List Nat) (index zeroBlocks : Nat) (a b c d : UInt8)
    (rest : Text) (single : Single rest) (room : index < 3) (inside : index < addr.length) :
    aton6Loop false ⟨addr, index, zeroBlocks, 2 * index, 0⟩
        (blockHex a b ++ ':' :: (blockHex c d ++ ':' :: rest)) =
      aton6Loop false
        ⟨addr.set index (wordValue a b c d), index + 1, zeroBlocks, 2 * (index + 1), 0⟩
        rest := by
  rw [aton6Loop_blockHex _ _ _ _ rfl, aton6Loop_colon _ _ (blockHex_single c d _) (by
      show 2 * index < 7
      omega), Aton6.store, if_neg (even_and_one index),
    aton6Loop_blockHex _ _ _ _ rfl, aton6Loop_colon _ _ single (by
      show 2 * index + 1 < 7
      omega), Aton6.store, if_pos (odd_and_one index)]
  simp only [store_word addr index a b c d inside]
  rfl

/-- Reading the last two blocks stores the last word. -/
theorem aton6Loop_lastWord (addr : List Nat) (index zeroBlocks : Nat) (a b c d : UInt8)
    (room : index ≤ 3) (inside : index < addr.length) :
    aton6Loop false ⟨addr, index, zeroBlocks, 2 * index, 0⟩
        (blockHex a b ++ ':' :: blockHex c d) =
      some ⟨addr.set index (wordValue a b c d), index + 1, zeroBlocks, 2 * index + 1,
        blockValue c d⟩ := by
  rw [aton6Loop_blockHex _ _ _ _ rfl, ← List.append_nil (blockHex c d),
    aton6Loop_colon _ _ (blockHex_single c d []) (by
      show 2 * index < 7
      omega), Aton6.store, if_neg (even_and_one index),
    aton6Loop_blockHex _ _ _ _ rfl, aton6Loop, Aton6.store, if_pos (odd_and_one index)]
  simp only [store_word addr index a b c d inside]

/-- The eight groups as the four pairs the parser reads. -/
theorem hexGroups_words (b0 b1 b2 b3 b4 b5 b6 b7 b8 b9 b10 b11 b12 b13 b14 b15 : UInt8) :
    hexGroups [b0, b1, b2, b3, b4, b5, b6, b7, b8, b9, b10, b11, b12, b13, b14, b15] =
      blockHex b0 b1 ++ ':' :: (blockHex b2 b3 ++ ':' ::
        (blockHex b4 b5 ++ ':' :: (blockHex b6 b7 ++ ':' ::
          (blockHex b8 b9 ++ ':' :: (blockHex b10 b11 ++ ':' ::
            (blockHex b12 b13 ++ ':' :: blockHex b14 b15)))))) := by
  simp only [hexGroups, blockHex, List.append_assoc]

/-- `ip6addr_aton` reads eight groups of four digits. -/
theorem ip6addrAton_hexGroups (b0 b1 b2 b3 b4 b5 b6 b7 b8 b9 b10 b11 b12 b13 b14 b15 : UInt8)
    (addr : Ip6Addr) :
    ip6addrAton
        (hexGroups [b0, b1, b2, b3, b4, b5, b6, b7, b8, b9, b10, b11, b12, b13, b14, b15]) addr =
      some ⟨UInt32.ofNat (wordValue b0 b1 b2 b3), UInt32.ofNat (wordValue b4 b5 b6 b7),
        UInt32.ofNat (wordValue b8 b9 b10 b11), UInt32.ofNat (wordValue b12 b13 b14 b15)⟩ := by
  have count : aton6Count 8
      (hexGroups [b0, b1, b2, b3, b4, b5, b6, b7, b8, b9, b10, b11, b12, b13, b14, b15]) =
      some (1, false) := by
    rw [hexGroups_words, aton6Count_block 7 _ _ _ (by decide),
      aton6Count_block 6 _ _ _ (by decide), aton6Count_block 5 _ _ _ (by decide),
      aton6Count_block 4 _ _ _ (by decide), aton6Count_block 3 _ _ _ (by decide),
      aton6Count_block 2 _ _ _ (by decide), aton6Count_block 1 _ _ _ (by decide),
      ← List.append_nil (blockHex b14 b15),
      aton6Count_digits _ _ _ (blockHex_xdigit b14 b15), aton6Count]
  rw [ip6addrAton, count, Option.bind_eq_bind, Option.bind_some, hexGroups_words]
  simp only
  rw [show (0 : Nat) = 2 * 0 from rfl,
    aton6Loop_word _ 0 _ _ _ _ _ _ (blockHex_single _ _ _) (by decide) (by simp),
    aton6Loop_word _ 1 _ _ _ _ _ _ (blockHex_single _ _ _) (by decide) (by simp),
    aton6Loop_word _ 2 _ _ _ _ _ _ (blockHex_single _ _ _) (by decide) (by simp),
    aton6Loop_lastWord _ 3 _ _ _ _ _ (by decide) (by simp)]
  rfl

/-- The bytes of a word give the word back. -/
theorem ofNat_wordValue (word : UInt32) :
    UInt32.ofNat (wordValue (UInt8.ofNat (word.toNat / 2 ^ 24))
      (UInt8.ofNat (word.toNat / 2 ^ 16)) (UInt8.ofNat (word.toNat / 2 ^ 8))
      (UInt8.ofNat word.toNat)) = word := by
  have bound := word.toNat_lt
  apply UInt32.toNat_inj.mp
  rw [UInt32.toNat_ofNat', wordValue, blockValue, blockValue]
  simp only [UInt8.toNat_ofNat']
  omega

/-- `ipaddr_aton` reads the printed groups of an address back to the address. -/
theorem ipaddrAton_hexGroups (ip addr : Ip6Addr) :
    ipaddrAton (hexGroups ip.bytes) addr = some (.v6 ip) := by
  have family : ipaddrAtonIsV6 (hexGroups ip.bytes) = true := by
    simp only [Ip6Addr.bytes, beBytes4, List.cons_append, List.nil_append, hexGroups_words]
    rw [ipaddrAtonIsV6_digits _ _ (blockHex_xdigit _ _)]
    rfl
  have parsed : ip6addrAton (hexGroups ip.bytes) addr = some ip := by
    simp only [Ip6Addr.bytes, beBytes4, List.cons_append, List.nil_append,
      ip6addrAton_hexGroups, ofNat_wordValue]
  rw [ipaddrAton, if_pos family, parsed]
  rfl

/-! ### The hand-off -/

/-- The SOCKS5 type byte of an address. -/
def IpAddr.atyp : IpAddr → UInt8
  | .v4 _ => 0x01
  | .v6 _ => 0x04

theorem port_high (port : Port) : (port >>> 8).toUInt8 = UInt8.ofNat (port.toNat / 2 ^ 8) := by
  apply UInt8.toNat_inj.mp
  simp [Nat.shiftRight_eq_div_pow]

theorem port_low (port : Port) : (port &&& 0xFF).toUInt8 = UInt8.ofNat port.toNat := by
  apply UInt8.toNat_inj.mp
  rw [UInt16.toNat_toUInt8, UInt16.toNat_and, UInt8.toNat_ofNat']
  show (port.toNat &&& 2 ^ 8 - 1) % 2 ^ 8 = port.toNat % 2 ^ 8
  rw [Nat.and_two_pow_sub_one_eq_mod, Nat.mod_mod]

/-- A port is written in network order. -/
theorem portBytes_eq (port : Port) : portBytes port = beBytes2 port.toNat := by
  rw [portBytes, beBytes2, port_high, port_low]

/-- A port is read in network order. -/
theorem portOf_bytes (port : Port) :
    portOf (UInt8.ofNat (port.toNat / 2 ^ 8)) (UInt8.ofNat port.toNat) = port := by
  have bound := port.toNat_lt
  have high : (UInt8.ofNat (port.toNat / 2 ^ 8)).toNat = port.toNat / 2 ^ 8 := by
    rw [UInt8.toNat_ofNat']
    omega
  have low : (UInt8.ofNat port.toNat).toNat = port.toNat % 2 ^ 8 := UInt8.toNat_ofNat'
  apply UInt16.toNat_inj.mp
  rw [portOf, UInt16.toNat_or, UInt16.toNat_shiftLeft, UInt8.toNat_toUInt16,
    UInt8.toNat_toUInt16, high, low, Nat.shiftLeft_eq]
  show port.toNat / 2 ^ 8 * 2 ^ 8 % 2 ^ 16 ||| port.toNat % 2 ^ 8 = port.toNat
  rw [Nat.mod_eq_of_lt (by omega), or_eq_add _ _ 8 (by omega)]
  omega

/-- The bytes of an IPv4-mapped address. -/
theorem Ip6Addr.bytes_mapped (ip : Ip6Addr) (mapped : ip.isIpv4Mapped = true) :
    ip.bytes = List.replicate 10 0 ++ [0xFF, 0xFF] ++ beBytes4 ip.addr3.toNat := by
  rw [Ip6Addr.isIpv4Mapped, decide_eq_true_eq] at mapped
  obtain ⟨first, second, third⟩ := mapped
  rw [Ip6Addr.bytes, first, second, third]
  rfl

theorem map_ofNat_toNat (bytes : Bytes) : (bytes.map UInt8.toNat).map UInt8.ofNat = bytes := by
  rw [List.map_map]
  exact (List.map_congr_left fun byte _ => UInt8.ofNat_toNat).trans (List.map_id _)

/-- What `ipaddr_ntoa` prints, `addrport_to_socks5` turns into the raw bytes of the address and
the port. -/
theorem addrportToSocks5_ipaddrNtoa (ip : IpAddr) (past : UInt32) (port : Port)
    (tag : ip.isV6 = true → past >>> 24 = 6) :
    ∃ text, ipaddrNtoa ip past = some text ∧
      addrportToSocks5 text port = some (ip.atyp :: ip.bytes ++ beBytes2 port.toNat) := by
  cases ip with
  | v4 ip =>
    refine ⟨_, ip4addrNtoaR_eq ip le_rfl, ?_⟩
    have parsed : fromString (dottedText (ip.bytes.map UInt8.toNat)) =
        some (.v4 ((ip.bytes.map UInt8.toNat).map UInt8.ofNat)) :=
      fromString_dottedText _ _ _ _ ip.octets_lt
    rw [addrportToSocks5, parsed, map_ofNat_toNat, portBytes_eq]
    rfl
  | v6 ip =>
    cases mapped : ip.isIpv4Mapped with
    | true =>
      refine ⟨_, ip6addrNtoaR_mapped ip past mapped, ?_⟩
      have parsed : inetPton6 (ip4MappedHeader ++
          dottedText ((beBytes4 ip.addr3.toNat).map UInt8.toNat)) = some ip.bytes := by
        rw [ip.bytes_mapped mapped]
        refine (inetPton6_mapped _ _ _ _ (Ip4Addr.octets_lt ⟨ip.addr3⟩)).trans ?_
        exact congrArg (fun bytes => some (List.replicate 10 0 ++ [0xFF, 0xFF] ++ bytes))
          (map_ofNat_toNat (beBytes4 ip.addr3.toNat))
      rw [addrportToSocks5, fromString, parsed, portBytes_eq]
      rfl
    | false =>
      refine ⟨_, ip6addrNtoaR_eq ip past mapped (by rw [tag rfl]; decide), ?_⟩
      rw [addrportToSocks5, fromString, inetPton6_blocksText ip.blocks rfl ip.blocks_lt,
        ← ip.bytes_eq_blocks, portBytes_eq]
      rfl

theorem getD_append {first : Bytes} {length : Nat} (full : first.length = length)
    (second : Bytes) (index : Nat) :
    (first ++ second).getD (length + index) 0 = second.getD index 0 := by
  rw [← full, List.getD_eq_getElem?_getD, List.getElem?_append_right (Nat.le_add_right _ _),
    Nat.add_sub_cancel_left, List.getD_eq_getElem?_getD]

/-- What `socks5_to_addrport` prints, `ipaddr_aton` turns back into the address. -/
theorem ipaddrAton_socks5ToAddrport (ip : IpAddr) (port : Port) (trailing : Bytes)
    (addr : Ip6Addr) :
    ∃ text, socks5ToAddrport (ip.atyp :: ip.bytes ++ beBytes2 port.toNat ++ trailing) =
        some (1 + ip.bytes.length + 2, text, port) ∧
      ipaddrAton text addr = some ip := by
  cases ip with
  | v4 ip =>
    refine ⟨dottedText (ip.bytes.map UInt8.toNat), ?_, ipaddrAton_dottedText ip addr⟩
    have port_back := portOf_bytes port
    simp only [IpAddr.atyp, IpAddr.bytes, Ip4Addr.bytes, beBytes4, beBytes2, List.cons_append,
      List.nil_append, socks5ToAddrport, if_true, port_back]
    simp only [List.append_assoc, List.cons_append]
    rfl
  | v6 ip =>
    refine ⟨hexGroups ip.bytes, ?_, ipaddrAton_hexGroups ip addr⟩
    have port_back := portOf_bytes port
    have sixteen : ip.bytes.length = 16 := rfl
    have length : ¬ (0x04 :: ip.bytes ++ beBytes2 port.toNat ++ trailing).length < 19 := by
      simp only [List.length_append, List.length_cons, sixteen, beBytes2_length]
      omega
    show socks5ToAddrport (0x04 :: ip.bytes ++ beBytes2 port.toNat ++ trailing) = _
    simp only [List.cons_append, socks5ToAddrport]
    rw [if_neg (by decide), if_pos trivial, if_neg (by simpa using length)]
    simp only [List.append_assoc, List.take_left' sixteen, beBytes2, List.cons_append,
      List.nil_append]
    rw [getD_append sixteen _ 0, getD_append sixteen _ 1]
    exact congrArg (fun port => some (19, hexGroups ip.bytes, port)) port_back

/-- Addresses survive the textual hand-off between lwIP, boost and SOCKS5: the text lwIP prints
for an address gives its raw bytes in a SOCKS5 message, and the text made from a SOCKS5
message gives lwIP the address back. The hypothesis on `past` is the type tag that follows the
four words of an IPv6 address in memory. -/
theorem address_hand_off (ip : IpAddr) (past : UInt32) (port : Port) (trailing : Bytes)
    (addr : Ip6Addr) (tag : ip.isV6 = true → past >>> 24 = 6) :
    (∃ text, ipaddrNtoa ip past = some text ∧
      addrportToSocks5 text port = some (ip.atyp :: ip.bytes ++ beBytes2 port.toNat)) ∧
    (∃ text, socks5ToAddrport (ip.atyp :: ip.bytes ++ beBytes2 port.toNat ++ trailing) =
        some (1 + ip.bytes.length + 2, text, port) ∧
      ipaddrAton text addr = some ip) :=
  ⟨addrportToSocks5_ipaddrNtoa ip past port tag,
    ipaddrAton_socks5ToAddrport ip port trailing addr⟩

/-- The hand-off of `2001:DB8::1:0`, whose last two blocks follow a zero run. -/
theorem address_hand_off_zeroRun :
    (∃ text, ipaddrNtoa (.v6 ⟨0x20010DB8, 0, 0, 0x10000⟩) 0x06000000 = some text ∧
      addrportToSocks5 text 443 =
        some (0x04 :: Ip6Addr.bytes ⟨0x20010DB8, 0, 0, 0x10000⟩ ++ beBytes2 443)) ∧
    (∃ text, socks5ToAddrport
        (0x04 :: Ip6Addr.bytes ⟨0x20010DB8, 0, 0, 0x10000⟩ ++ beBytes2 443 ++ [0x2A]) =
        some (19, text, 443) ∧
      ipaddrAton text ⟨1, 2, 3, 4⟩ = some (.v6 ⟨0x20010DB8, 0, 0, 0x10000⟩)) :=
  address_hand_off (.v6 ⟨0x20010DB8, 0, 0, 0x10000⟩) 0x06000000 443 [0x2A] ⟨1, 2, 3, 4⟩
    (fun _ => by decide)

end Net2Tr
