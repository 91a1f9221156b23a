/-
This file proves that the address field of SOCKS5 messages is a codec: what
`socks5_to_addrport` accepts it gives back in a form from which
`addrport_to_socks5` makes the same bytes, and what `addrport_to_socks5` writes
is read back to the same address and port, whatever follows it.

Both directions meet in the printed form of an address, which boost's parser
reads back to the raw bytes.
-/

import Libn2t.AddressText

namespace Net2Tr

/-! ### Addresses with their raw bytes -/

/-- The raw bytes of the family's length. -/
def Address.WellFormed : Address → Prop
  | .v4 bytes => bytes.length = 4
  | .v6 bytes => bytes.length = 16

/-- The text `socks5_to_addrport` prints for an address. -/
def Address.text : Address → Text
  | .v4 bytes => dottedText (bytes.map UInt8.toNat)
  | .v6 bytes => hexGroups bytes

/-! ### `inet_pton` reads what `socks5_to_addrport` prints -/

theorem beBytes2_blockValue (high low : UInt8) : beBytes2 (blockValue high low) = [high, low] := by
  have bound := low.toNat_lt
  have quotient : (high.toNat * 2 ^ 8 + low.toNat) / 2 ^ 8 = high.toNat := by omega
  have remainder : UInt8.ofNat (high.toNat * 2 ^ 8 + low.toNat) = low := by
    apply UInt8.toNat_inj.mp
    rw [UInt8.toNat_ofNat']
    omega
  rw [beBytes2, blockValue, quotient, remainder, UInt8.ofNat_toNat]

/-- Reading one block of four digits. -/
theorem pton6Loop_blockHex (tmp : Bytes) (high low : UInt8) (curtok rest : Text) :
    pton6Loop ⟨tmp, none, 0, 0⟩ curtok (blockHex high low ++ rest) =
      pton6Loop ⟨tmp, none, 4, blockValue high low⟩ curtok rest := by
  rw [blockHex_eq, pton6Loop_digits hexDigit_digit _ _ _ _ (blockDigits_lt high low) le_rfl]
  dsimp only
  rw [horner_blockDigits]
  rfl

theorem hexGroups_ne_nil (bytes : Bytes) (more : 2 ≤ bytes.length) : hexGroups bytes ≠ [] := by
  rcases bytes with _ | ⟨high, _ | ⟨low, _ | ⟨next, rest⟩⟩⟩
  · exact absurd more (Nat.not_succ_le_zero 1)
  · exact absurd more (Nat.not_succ_le_self 1)
  · exact List.cons_ne_nil _ _
  · exact List.cons_ne_nil _ _

/-- Reading groups that fill the address. -/
theorem pton6Loop_hexGroups (bytes tmp : Bytes) (curtok : Text) (more : bytes ≠ [])
    (even : tmp.length % 2 = 0) (full : tmp.length + bytes.length = 16) :
    pton6Loop ⟨tmp, none, 0, 0⟩ curtok (hexGroups bytes) = some (tmp ++ bytes) := by
  induction bytes using hexGroups.induct generalizing tmp curtok with
  | case1 high low =>
    have length : (tmp ++ [high, low]).length = 16 := by
      rw [List.length_append]
      exact full
    rw [hexGroups, ← List.append_nil (hex02 high ++ hex02 low)]
    rw [show hex02 high ++ hex02 low = blockHex high low from rfl, pton6Loop_blockHex, pton6Loop,
      finish_pending _ _ _ _ (by decide), beBytes2_blockValue, finish_full _ length]
  | case2 high low rest long inductionHypothesis =>
    have length : tmp.length + 2 + rest.length = 16 := by
      simp only [List.length_cons] at full
      omega
    have nonempty : rest ≠ [] := by
      rintro rfl
      exact long rfl
    have two : 2 ≤ rest.length := by
      have positive := List.length_pos_iff.mpr nonempty
      omega
    have groups : hexGroups (high :: low :: rest) =
        blockHex high low ++ ':' :: hexGroups rest := by
      rw [hexGroups, blockHex]
      exact long
    have longer : (tmp ++ [high, low]).length = tmp.length + 2 := List.length_append
    rw [groups, pton6Loop_blockHex,
      pton6Loop_store _ _ _ _ _ _ (by decide) (hexGroups_ne_nil rest two) (by omega),
      beBytes2_blockValue, inductionHypothesis _ _ nonempty (by omega) (by omega)]
    simp only [List.append_assoc, List.cons_append, List.nil_append]
  | case3 bytes notTwo notMore =>
    rcases bytes with _ | ⟨single, _ | ⟨low, rest⟩⟩
    · exact absurd rfl more
    · have odd : tmp.length + 1 = 16 := full
      omega
    · exact absurd rfl (notMore single low rest)

/-- boost reads the groups of sixteen bytes back to the bytes. -/
theorem fromString_hexGroups (bytes : Bytes) (sixteen : bytes.length = 16) :
    fromString (hexGroups bytes) = some (.v6 bytes) := by
  match bytes, sixteen with
  | high :: low :: rest, sixteen =>
    have length : rest.length = 14 := by
      simp only [List.length_cons] at sixteen
      omega
    have long : rest = [] → False := by
      rintro rfl
      cases length
    have groups : hexGroups (high :: low :: rest) =
        blockHex high low ++ ':' :: hexGroups rest := by
      rw [hexGroups, blockHex]
      exact long
    obtain ⟨c, tail, shape, other⟩ := blockHex_single high low (':' :: hexGroups rest)
    have read := pton6Loop_hexGroups (high :: low :: rest) [] (c :: tail) (List.cons_ne_nil _ _)
      rfl (by
        rw [sixteen]
        rfl)
    rw [groups, shape] at read ⊢
    rw [fromString, inetPton6_of_head other, read]
    rfl

theorem Address.fromString_text (address : Address) (wellFormed : address.WellFormed) :
    fromString address.text = some address := by
  cases address with
  | v4 bytes =>
    match bytes, wellFormed with
    | [a, b, c, d], _ =>
      have small : ∀ octet ∈ [a, b, c, d].map UInt8.toNat, octet < 256 := by
        intro octet member
        obtain ⟨byte, _, rfl⟩ := List.mem_map.mp member
        exact byte.toNat_lt
      refine (fromString_dottedText _ _ _ _ small).trans ?_
      exact congrArg (fun bytes => some (Address.v4 bytes)) (map_ofNat_toNat [a, b, c, d])
  | v6 bytes => exact fromString_hexGroups bytes wellFormed

/-! ### What boost's parser returns -/

theorem finish_length {state : Pton6} {bytes : Bytes} (finished : state.finish = some bytes) :
    bytes.length = 16 := by
  unfold Pton6.finish at finished
  dsimp only at finished
  generalize (if state.xdigitsSeen > 0 then state.tmp ++ beBytes2 state.val else state.tmp) =
    tmp at finished
  split at finished
  · cases finished
  · rename_i short
    split at finished
    · split at finished
      · cases finished
      · rw [← Option.some.inj finished]
        simp only [List.length_append, List.length_take, List.length_drop, List.length_replicate]
        omega
    · split at finished
      · rename_i full
        rw [← Option.some.inj finished]
        exact full
      · cases finished

theorem pton6Loop_length (src : Text) (state : Pton6) (curtok : Text) (bytes : Bytes)
    (parsed : pton6Loop state curtok src = some bytes) : bytes.length = 16 := by
  induction src generalizing state curtok with
  | nil => exact finish_length parsed
  | cons c src inductionHypothesis =>
    unfold pton6Loop at parsed
    split at parsed
    · split at parsed
      · cases parsed
      · exact inductionHypothesis _ _ parsed
    · split at parsed
      · split at parsed
        · split at parsed
          · cases parsed
          · exact inductionHypothesis _ _ parsed
        · split at parsed
          · cases parsed
          · split at parsed
            · cases parsed
            · exact inductionHypothesis _ _ parsed
      · split at parsed
        · split at parsed
          · exact finish_length parsed
          · cases parsed
        · cases parsed

theorem inetPton6_length {src : Text} {bytes : Bytes} (parsed : inetPton6 src = some bytes) :
    bytes.length = 16 := by
  unfold inetPton6 at parsed
  dsimp only at parsed
  split at parsed
  · exact pton6Loop_length _ _ _ _ parsed
  · cases parsed
  · exact pton6Loop_length _ _ _ _ parsed

theorem fromString_wellFormed {text : Text} {address : Address}
    (parsed : fromString text = some address) : address.WellFormed := by
  unfold fromString at parsed
  split at parsed
  · rename_i bytes v6
    rw [← Option.some.inj parsed]
    exact inetPton6_length v6
  · obtain ⟨bytes, v4, rfl⟩ := Option.map_eq_some_iff.mp parsed
    obtain ⟨octets, four, rfl⟩ := Option.map_eq_some_iff.mp v4
    show (octets.map UInt8.ofNat).length = 4
    rw [List.length_map]
    exact pton4Loop_length _ _ _ _ four

/-! ### Reading an address field -/

theorem portBytes_portOf (high low : UInt8) : portBytes (portOf high low) = [high, low] := by
  have highBound := high.toNat_lt
  have lowBound := low.toNat_lt
  have value : (portOf high low).toNat = blockValue high low := by
    rw [portOf, UInt16.toNat_or, UInt16.toNat_shiftLeft, UInt8.toNat_toUInt16,
      UInt8.toNat_toUInt16, Nat.shiftLeft_eq]
    show high.toNat * 2 ^ 8 % 2 ^ 16 ||| low.toNat = blockValue high low
    rw [Nat.mod_eq_of_lt (by omega), or_eq_add _ _ 8 lowBound, blockValue]
  rw [portBytes_eq, value, beBytes2_blockValue]

theorem portOf_portBytes (port : Port) :
    ∃ high low, portBytes port = [high, low] ∧ portOf high low = port :=
  ⟨_, _, portBytes_eq port, portOf_bytes port⟩

/-- Reading the field of an address. -/
theorem socks5ToAddrport_socks5 (address : Address) (wellFormed : address.WellFormed)
    (high low : UInt8) (rest : Bytes) :
    socks5ToAddrport (address.socks5 ++ high :: low :: rest) =
      some (address.socks5.length + 2, address.text, portOf high low) := by
  cases address with
  | v4 bytes =>
    match bytes, wellFormed with
    | [a, b, c, d], _ =>
      have dots : toString8 a ++ '.' :: toString8 b ++ '.' :: toString8 c ++ '.' :: toString8 d =
          dottedText ([a, b, c, d].map UInt8.toNat) := by
        simp only [List.append_assoc, List.cons_append]
        rfl
      exact congrArg (fun text => some (7, text, portOf high low)) dots
  | v6 bytes =>
    have sixteen : bytes.length = 16 := wellFormed
    have long : ¬ (0x04 :: (bytes ++ high :: low :: rest)).length < 19 := by
      simp only [List.length_cons, List.length_append, sixteen]
      omega
    show socks5ToAddrport (0x04 :: (bytes ++ high :: low :: rest)) =
      some (bytes.length + 1 + 2, hexGroups bytes, portOf high low)
    simp only [socks5ToAddrport]
    rw [if_neg (by decide), if_pos trivial, if_neg long, List.take_left' sixteen,
      getD_append sixteen _ 0, getD_append sixteen _ 1, sixteen]
    rfl

/-- A field that `socks5_to_addrport` accepts: a known type byte followed by at least the address
and the port. -/
def Socks5Field (socks5 : Bytes) : Prop :=
  (∃ rest, socks5 = 0x01 :: rest ∧ 6 ≤ rest.length) ∨
    ∃ rest, socks5 = 0x04 :: rest ∧ 18 ≤ rest.length

/-- Bytes with two more behind them. -/
theorem exists_split {bytes : Bytes} (length : Nat) (long : length + 2 ≤ bytes.length) :
    ∃ first high low rest, bytes = first ++ high :: low :: rest ∧ first.length = length := by
  have behind : 2 ≤ (bytes.drop length).length := by
    rw [List.length_drop]
    omega
  match tail : bytes.drop length, behind with
  | high :: low :: rest, _ =>
    refine ⟨bytes.take length, high, low, rest, ?_, ?_⟩
    · rw [← tail, List.take_append_drop]
    · rw [List.length_take]
      omega

/-- An accepted field starts with an address and a port. -/
theorem Socks5Field.exists_address {socks5 : Bytes} (field : Socks5Field socks5) :
    ∃ address : Address, address.WellFormed ∧
      ∃ high low rest, socks5 = address.socks5 ++ high :: low :: rest := by
  rcases field with ⟨rest, rfl, long⟩ | ⟨rest, rfl, long⟩
  · obtain ⟨bytes, high, low, tail, rfl, four⟩ := exists_split 4 long
    exact ⟨.v4 bytes, four, high, low, tail, rfl⟩
  · obtain ⟨bytes, high, low, tail, rfl, sixteen⟩ := exists_split 16 long
    exact ⟨.v6 bytes, sixteen, high, low, tail, rfl⟩

theorem Socks5Field.of_address {address : Address} (wellFormed : address.WellFormed)
    (high low : UInt8) (rest : Bytes) :
    Socks5Field (address.socks5 ++ high :: low :: rest) := by
  cases address with
  | v4 bytes =>
    refine Or.inl ⟨bytes ++ high :: low :: rest, rfl, ?_⟩
    have four : bytes.length = 4 := wellFormed
    simp only [List.length_append, List.length_cons, four]
    omega
  | v6 bytes =>
    refine Or.inr ⟨bytes ++ high :: low :: rest, rfl, ?_⟩
    have sixteen : bytes.length = 16 := wellFormed
    simp only [List.length_append, List.length_cons, sixteen]
    omega

theorem socks5ToAddrport_eq_none {socks5 : Bytes} (other : ¬ Socks5Field socks5) :
    socks5ToAddrport socks5 = none := by
  cases socks5 with
  | nil => rfl
  | cons atyp rest =>
    simp only [socks5ToAddrport]
    split
    · rename_i v4
      have short : ¬ 6 ≤ rest.length := fun long => other (Or.inl ⟨rest, by rw [v4], long⟩)
      split
      · simp only [List.length_cons] at short
        omega
      · rfl
    · split
      · rename_i v6
        have short : ¬ 18 ≤ rest.length := fun long => other (Or.inr ⟨rest, by rw [v6], long⟩)
        rw [if_pos (by
          rw [List.length_cons]
          omega)]
      · rfl

theorem socks5ToAddrport_eq_none_iff (socks5 : Bytes) :
    socks5ToAddrport socks5 = none ↔ ¬ Socks5Field socks5 := by
  refine ⟨fun rejected field => ?_, socks5ToAddrport_eq_none⟩
  obtain ⟨address, wellFormed, high, low, rest, rfl⟩ := field.exists_address
  rw [socks5ToAddrport_socks5 address wellFormed] at rejected
  cases rejected

/-- What the decoder accepts has a length that the input has, and an address that boost parses. -/
theorem socks5ToAddrport_accepted {socks5 : Bytes} {res : Nat} {addr : Text} {port : Port}
    (accepted : socks5ToAddrport socks5 = some (res, addr, port)) :
    res ≤ socks5.length ∧ ∃ address, fromString addr = some address := by
  have field : Socks5Field socks5 := by
    by_contra other
    rw [socks5ToAddrport_eq_none other] at accepted
    cases accepted
  obtain ⟨address, wellFormed, high, low, rest, rfl⟩ := field.exists_address
  rw [socks5ToAddrport_socks5 address wellFormed] at accepted
  obtain ⟨rfl, rfl, _⟩ := Option.some.inj accepted
  refine ⟨?_, address, address.fromString_text wellFormed⟩
  rw [List.length_append, List.length_cons, List.length_cons]
  omega

/-- Writing the address that was read. -/
theorem addrportToSocks5_text (address : Address) (wellFormed : address.WellFormed)
    (port : Port) :
    addrportToSocks5 address.text port = some (address.socks5 ++ portBytes port) := by
  rw [addrportToSocks5, address.fromString_text wellFormed]
  rfl

/-! ### The codec -/

/-- `Utils::socks5_to_addrport` with the variables it writes: the result, the address and the
port after the call. -/
def socks5ToAddrportRef (socks5 : Bytes) (addr : Text) (port : Port) : Int × Text × Port :=
  match socks5 with
  | [] => (-1, addr, port)
  | atyp :: rest =>
    if atyp = 1 then
      if socks5.length < 7 then (-1, addr, port)
      else
        (7, toString8 (rest.getD 0 0) ++ '.' :: toString8 (rest.getD 1 0) ++
            '.' :: toString8 (rest.getD 2 0) ++ '.' :: toString8 (rest.getD 3 0),
          portOf (rest.getD 4 0) (rest.getD 5 0))
    else if atyp = 4 then
      if socks5.length < 19 then (-1, addr, port)
      else (19, hexGroups (rest.take 16), portOf (rest.getD 16 0) (rest.getD 17 0))
    else (-1, addr, port)

theorem socks5ToAddrportRef_eq (socks5 : Bytes) (addr : Text) (port : Port) :
    socks5ToAddrportRef socks5 addr port =
      match socks5ToAddrport socks5 with
      | none => (-1, addr, port)
      | some (length, addr, port) => (length, addr, port) := by
  cases socks5 with
  | nil => rfl
  | cons atyp rest =>
    simp only [socks5ToAddrportRef, socks5ToAddrport]
    split
    · rcases rest with _ | ⟨a, _ | ⟨b, _ | ⟨c, _ | ⟨d, _ | ⟨high, _ | ⟨low, tail⟩⟩⟩⟩⟩⟩ <;>
        rfl
    · split
      · split <;> rfl
      · rfl

/-- A field that is read has 7 or 19 bytes, and writing what was read gives them back. -/
theorem socks5ToAddrportRef_field {socks5 : Bytes} (field : Socks5Field socks5) (addr : Text)
    (port : Port) :
    ∃ length : Nat, (socks5ToAddrportRef socks5 addr port).1 = length ∧
      (length = 7 ∨ length = 19) ∧ length ≤ socks5.length ∧
      addrportToSocks5 (socks5ToAddrportRef socks5 addr port).2.1
        (socks5ToAddrportRef socks5 addr port).2.2 = some (socks5.take length) := by
  obtain ⟨address, wellFormed, high, low, rest, rfl⟩ := field.exists_address
  rw [socks5ToAddrportRef_eq, socks5ToAddrport_socks5 address wellFormed]
  refine ⟨address.socks5.length + 2, rfl, ?_, ?_, ?_⟩
  · cases address with
    | v4 bytes => exact Or.inl (congrArg (· + 3) wellFormed)
    | v6 bytes => exact Or.inr (congrArg (· + 3) wellFormed)
  · rw [List.length_append, List.length_cons, List.length_cons]
    omega
  · rw [addrportToSocks5_text address wellFormed, portBytes_portOf, List.take_length_add_append]
    rfl

/-- The result is -1 exactly when nothing was read, and then the variables are left alone. -/
theorem socks5ToAddrportRef_rejected (socks5 : Bytes) (addr : Text) (port : Port) :
    ((socks5ToAddrportRef socks5 addr port).1 = -1 ↔ socks5ToAddrport socks5 = none) ∧
      (socks5ToAddrport socks5 = none →
        socks5ToAddrportRef socks5 addr port = (-1, addr, port)) := by
  rw [socks5ToAddrportRef_eq]
  cases socks5ToAddrport socks5 with
  | none => exact ⟨iff_of_true rfl rfl, fun _ => rfl⟩
  | some read =>
    refine ⟨iff_of_false ?_ (Option.some_ne_none read), (fun wrong => by cases wrong)⟩
    show (read.1 : Int) ≠ -1
    omega

/-- What is written for a text of an address is read back. -/
theorem socks5ToAddrportRef_written {text : Text} {address : Address}
    (parsed : fromString text = some address) (other : Port) (trailing : Bytes) (addr : Text)
    (port : Port) :
    ∃ written, addrportToSocks5 text other = some written ∧
      (socks5ToAddrportRef (written ++ trailing) addr port).1 = written.length ∧
      (socks5ToAddrportRef (written ++ trailing) addr port).2.2 = other ∧
      fromString (socks5ToAddrportRef (written ++ trailing) addr port).2.1 = some address := by
  have wellFormed := fromString_wellFormed parsed
  obtain ⟨high, low, bytes, value⟩ := portOf_portBytes other
  refine ⟨address.socks5 ++ [high, low], ?_, ?_⟩
  · rw [addrportToSocks5, parsed, bytes]
    rfl
  · have read := socks5ToAddrport_socks5 address wellFormed high low trailing
    rw [socks5ToAddrportRef_eq, List.append_assoc, List.cons_append, List.cons_append,
      List.nil_append, read]
    refine ⟨?_, value, address.fromString_text wellFormed⟩
    rw [List.length_append]
    rfl

/-- The codec in both directions. Reading: a result other than -1 is 7 or 19, no more bytes than
there are, and writing the address and the port gives these bytes back; the result is -1 exactly
for bytes that are no address field, and then the variables keep their values. Writing: for every
text of an address, what is written and followed by anything is read back with its length, the
port and a text of the same address. -/
theorem socks5_codec (socks5 : Bytes) (addr : Text) (port : Port) :
    ((socks5ToAddrportRef socks5 addr port).1 ≠ -1 →
      ∃ length : Nat, (socks5ToAddrportRef socks5 addr port).1 = length ∧
        (length = 7 ∨ length = 19) ∧ length ≤ socks5.length ∧
        addrportToSocks5 (socks5ToAddrportRef socks5 addr port).2.1
          (socks5ToAddrportRef socks5 addr port).2.2 = some (socks5.take length)) ∧
    ((socks5ToAddrportRef socks5 addr port).1 = -1 ↔ ¬ Socks5Field socks5) ∧
    ((socks5ToAddrportRef socks5 addr port).1 = -1 →
      (socks5ToAddrportRef socks5 addr port).2 = (addr, port)) ∧
    ∀ (text : Text) (address : Address), fromString text = some address →
      ∀ (other : Port) (trailing : Bytes), ∃ written,
        addrportToSocks5 text other = some written ∧
        (socks5ToAddrportRef (written ++ trailing) addr port).1 = written.length ∧
        (socks5ToAddrportRef (written ++ trailing) addr port).2.2 = other ∧
        fromString (socks5ToAddrportRef (written ++ trailing) addr port).2.1 = some address := by
  obtain ⟨rejected, kept⟩ := socks5ToAddrportRef_rejected socks5 addr port
  refine ⟨fun accepted => ?_, rejected.trans (socks5ToAddrport_eq_none_iff socks5),
    fun failed => congrArg Prod.snd (kept (rejected.mp failed)),
    fun text address parsed other trailing =>
      socks5ToAddrportRef_written parsed other trailing addr port⟩
  by_cases field : Socks5Field socks5
  · exact socks5ToAddrportRef_field field addr port
  · exact absurd (rejected.mpr (socks5ToAddrport_eq_none field)) accepted

end Net2Tr
