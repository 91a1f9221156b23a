/-
This file proves what holds of the reassembly of IPv4 packets whatever fragments
come: its list stays in order, it keeps no more pbufs than it may, no assertion
fails, and each packet it passes on is made of fragments of one packet that have
come, each of them used once.

The list of an incomplete packet is taken as pieces of a string that lie apart.
The search for the place of a fragment then has one specification, from which
everything about complete packets follows by what holds of tilings.
-/

import Libn2t.Ip4Frag
import Libn2t.Pieces

namespace Net2Tr

open Pieces

/-! ### The list of a packet as pieces -/

namespace ReassFrag

/-- The bytes of a fragment, and where they belong. -/
def piece (frag : ReassFrag) : Piece UInt8 := ⟨frag.start.toNat, frag.data⟩

/-- `stop` is the end of the bytes. -/
def Fits (frag : ReassFrag) : Prop := frag.stop.toNat = frag.start.toNat + frag.data.length

theorem Fits.stop {frag : ReassFrag} (fits : frag.Fits) : frag.piece.stop = frag.stop.toNat :=
  fits.symm

/-- Two fragments overlap, or start together. -/
def Conflict (new q : ReassFrag) : Prop :=
  new.start = q.start ∨ (q.start.toNat < new.start.toNat ∧ new.start.toNat < q.stop.toNat) ∨
    (new.start.toNat < q.start.toNat ∧ q.start.toNat < new.stop.toNat)

end ReassFrag

/-- There are no holes in a list behind what is in front of it. -/
def linked : Option ReassFrag → List ReassFrag → Bool
  | some prev, list => noHoles prev list
  | none, [] => true
  | none, first :: rest => noHoles first rest

theorem noHoles_append (prev new : ReassFrag) (before behind : List ReassFrag) :
    noHoles prev (before ++ new :: behind) =
      (noHoles prev (before ++ [new]) && noHoles new behind) := by
  induction before generalizing prev with
  | nil => simp only [List.nil_append, noHoles, Bool.and_true]
  | cons q rest inductionHypothesis =>
    simp only [List.cons_append, noHoles, inductionHypothesis, Bool.and_assoc]

theorem linked_append (new : ReassFrag) (before behind : List ReassFrag) :
    linked none (before ++ new :: behind) =
      (linked none (before ++ [new]) && noHoles new behind) := by
  cases before with
  | nil => exact (Bool.true_and _).symm
  | cons first rest => exact noHoles_append first new rest behind

/-- Pieces without holes tile what is between the first and the last one. -/
theorem tiles_of_noHoles {first : ReassFrag} {rest : List ReassFrag}
    (fits : ∀ q ∈ first :: rest, q.Fits) (whole : noHoles first rest = true) :
    ∃ hi, Tiles first.start.toNat ((first :: rest).map ReassFrag.piece) hi := by
  induction rest generalizing first with
  | nil => exact ⟨_, rfl, rfl⟩
  | cons q rest inductionHypothesis =>
    rw [noHoles, Bool.and_eq_true, decide_eq_true_eq] at whole
    obtain ⟨hi, tiles⟩ := inductionHypothesis
      (fun other isIn => fits other (List.mem_cons_of_mem _ isIn)) whole.2
    refine ⟨hi, rfl, ?_⟩
    rw [(fits first List.mem_cons_self).stop, whole.1]
    exact tiles

/-- What tiles has no holes. -/
theorem noHoles_of_tiles {first : ReassFrag} {rest : List ReassFrag} {lo hi : Nat}
    (fits : ∀ q ∈ first :: rest, q.Fits)
    (tiles : Tiles lo ((first :: rest).map ReassFrag.piece) hi) : noHoles first rest = true := by
  induction rest generalizing first lo with
  | nil => rfl
  | cons q rest inductionHypothesis =>
    have next := tiles.2.1
    rw [(fits first List.mem_cons_self).stop] at next
    rw [noHoles, Bool.and_eq_true, decide_eq_true_eq]
    exact ⟨(UInt16.toNat_inj.mp next).symm,
      inductionHypothesis (fun other isIn => fits other (List.mem_cons_of_mem _ isIn)) tiles.2⟩

/-! ### The place of a fragment -/

/-- What a search for the place of a fragment has found out. -/
structure Found (new : ReassFrag) (prev : Option ReassFrag) (valid : Bool)
    (list before behind : List ReassFrag) (valid' : Bool) : Prop where
  split : list = before ++ behind
  front : ∀ q ∈ before, q.stop.toNat ≤ new.start.toNat ∧ q.start.toNat < new.start.toNat
  back : ∀ q ∈ behind, new.stop.toNat ≤ q.start.toNat ∧ new.start.toNat < q.start.toNat
  valid : valid' = (valid && linked prev (before ++ [new]))

/-- The search never fails its assertion. It drops a fragment only for one that overlaps it or
starts with it, and otherwise splits the list where the fragment belongs. -/
theorem chainLoop_spec (new : ReassFrag) {list : List ReassFrag} (prev : Option ReassFrag)
    {lo : Nat} (valid : Bool) (apart : Apart lo (list.map ReassFrag.piece))
    (ahead : ∀ q ∈ prev, q.stop.toNat ≤ new.start.toNat ∧ q.start.toNat < new.start.toNat) :
    (chainLoop new prev valid list = some .dropped ∧ ∃ q ∈ list, new.Conflict q) ∨
      ∃ before behind valid',
        chainLoop new prev valid list = some (.chained before behind valid') ∧
          Found new prev valid list before behind valid' := by
  induction list generalizing prev lo valid with
  | nil =>
    refine Or.inr ⟨[], [], valid && linked prev [new], ?_, rfl, ?_, ?_, rfl⟩
    · cases prev with
      | none => rw [chainLoop, linked, noHoles, Bool.and_true]
      | some prev =>
        have below : prev.stop ≤ new.start := UInt16.le_iff_toNat_le.mpr (ahead prev rfl).1
        rw [chainLoop, if_pos below, linked, noHoles, noHoles, Bool.and_true]
    · intro q isIn
      cases isIn
    · intro q isIn
      cases isIn
  | cons q rest inductionHypothesis =>
    obtain ⟨_, restApart⟩ := apart
    unfold chainLoop
    by_cases before : new.start < q.start
    · rw [if_pos before]
      rw [UInt16.lt_iff_toNat_lt] at before
      by_cases overlap : q.start.toNat < new.stop.toNat
      · -- the fragment reaches into the next one
        refine Or.inl ⟨?_, q, List.mem_cons_self, Or.inr (Or.inr ⟨before, overlap⟩)⟩
        have reaches : new.stop > q.start := UInt16.lt_iff_toNat_lt.mpr overlap
        cases prev with
        | none => exact congrArg some (if_pos reaches)
        | some prev => exact congrArg some (if_pos (Or.inr reaches))
      · have under : ¬ new.stop > q.start := fun reaches =>
          overlap (UInt16.lt_iff_toNat_lt.mp reaches)
        refine Or.inr ⟨[], q :: rest, valid && linked prev [new], ?_, rfl, ?_, ?_, rfl⟩
        · cases prev with
          | none =>
            rw [linked, noHoles, Bool.and_true]
            exact congrArg some (if_neg under)
          | some prev =>
            have behindPrev : ¬ new.start < prev.stop := by
              rw [UInt16.lt_iff_toNat_lt]
              exact Nat.not_lt.mpr (ahead prev rfl).1
            rw [linked, noHoles, noHoles, Bool.and_true]
            exact congrArg some (if_neg (not_or.mpr ⟨behindPrev, under⟩))
        · intro other isIn
          cases isIn
        · intro other isIn
          rcases List.mem_cons.mp isIn with rfl | later
          · omega
          · have above := restApart.le_start other.piece (List.mem_map_of_mem later)
            change max _ (q.start.toNat + 1) ≤ other.start.toNat at above
            omega
    · rw [if_neg before]
      rw [UInt16.lt_iff_toNat_lt] at before
      by_cases together : new.start = q.start
      · rw [if_pos together]
        exact Or.inl ⟨rfl, q, List.mem_cons_self, Or.inl together⟩
      · have apartStarts : q.start.toNat ≠ new.start.toNat := fun same =>
          together (UInt16.toNat_inj.mp same).symm
        rw [if_neg together]
        by_cases inside : new.start < q.stop
        · rw [if_pos inside]
          rw [UInt16.lt_iff_toNat_lt] at inside
          exact Or.inl ⟨rfl, q, List.mem_cons_self, Or.inr (Or.inl ⟨by omega, inside⟩)⟩
        · rw [if_neg inside]
          dsimp only
          rw [UInt16.lt_iff_toNat_lt] at inside
          have aheadRest : ∀ other ∈ some q, other.stop.toNat ≤ new.start.toNat ∧
              other.start.toNat < new.start.toNat := by
            rintro _ ⟨⟩
            omega
          rcases inductionHypothesis (some q) (valid && prev.all fun prev => prev.stop = q.start)
            restApart aheadRest with
              ⟨is, other, isIn, conflict⟩ | ⟨front, behind, valid', is, found⟩
          · rw [is]
            exact Or.inl ⟨rfl, other, List.mem_cons_of_mem _ isIn, conflict⟩
          · rw [is]
            refine Or.inr ⟨q :: front, behind, valid', rfl, ?_, ?_, found.back, ?_⟩
            · rw [found.split, List.cons_append]
            · intro other isIn
              rcases List.mem_cons.mp isIn with rfl | later
              · omega
              · exact found.front other later
            · rw [found.valid, Bool.and_assoc]
              cases prev with
              | none => rfl
              | some prev => rfl

/-! ### A fragment in its packet -/

/-- A list in order, whose fragments end where their bytes do. -/
structure Chain (p : List ReassFrag) : Prop where
  fits : ∀ q ∈ p, q.Fits
  apart : Apart 0 (p.map ReassFrag.piece)

theorem Chain.nil : Chain [] where
  fits q isIn := by cases isIn
  apart := trivial

/-- Every fragment from the start on is there, up to some place. -/
def Whole (p : List ReassFrag) : Prop := ∃ hi, Tiles 0 (p.map ReassFrag.piece) hi

theorem whole_iff {p : List ReassFrag} (fits : ∀ q ∈ p, q.Fits) :
    Whole p ↔ (p.head?.all fun first => first.start = 0) = true ∧ linked none p = true := by
  cases p with
  | nil => exact ⟨fun _ => ⟨rfl, rfl⟩, fun _ => ⟨0, rfl⟩⟩
  | cons first rest =>
    rw [linked, List.head?_cons, Option.all_some, decide_eq_true_eq]
    constructor
    · rintro ⟨hi, tiles⟩
      exact ⟨UInt16.toNat_inj.mp tiles.1, noHoles_of_tiles fits tiles⟩
    · rintro ⟨start, holes⟩
      obtain ⟨hi, tiles⟩ := tiles_of_noHoles fits holes
      rw [start] at tiles
      exact ⟨hi, tiles⟩

/-- The bytes of a packet, and where its header says they belong. -/
def IpPacket.piece (packet : IpPacket) : Piece UInt8 :=
  ⟨packet.hdr.offsetBytes.toNat, packet.data⟩

/-- The end of a fragment does not wrap around and, if it is the last one, a header fits before
the bytes up to it. -/
structure IpPacket.Admitted (packet : IpPacket) : Prop where
  stop : packet.piece.stop < 2 ^ 16
  last : packet.hdr.mf = false → packet.piece.stop + ipHlen < 2 ^ 16

/-- What a fragment leaves in the list of its packet. -/
def IpPacket.frag (packet : IpPacket) (clen : Nat) : ReassFrag :=
  ⟨packet.hdr.offsetBytes, packet.hdr.offsetBytes + UInt16.ofNat packet.data.length, packet.data,
    clen⟩

theorem IpPacket.Admitted.frag_stop {packet : IpPacket} (admitted : packet.Admitted) (clen : Nat) :
    (packet.frag clen).stop.toNat = packet.piece.stop := by
  have stop : packet.hdr.offsetBytes.toNat + packet.data.length < 2 ^ 16 := admitted.stop
  rw [IpPacket.frag, UInt16.toNat_add, UInt16.toNat_ofNat', Nat.add_mod_mod, Nat.mod_eq_of_lt stop]
  rfl

/-- A fragment that `ip4_reass` puts into a list: its header has no options and the length that its
bytes have, and it is not a whole packet. -/
structure IpPacket.Fragment (packet : IpPacket) : Prop where
  hl : packet.hdr.hlBytes = ipHlen
  len : ipHlen + packet.data.length = packet.hdr.len.toNat
  part : packet.hdr.offsetBytes = 0 → packet.hdr.mf = true

namespace IpPacket.Fragment

variable {packet : IpPacket}

theorem length_lt (fragment : packet.Fragment) : packet.data.length + ipHlen < 2 ^ 16 := by
  have len := fragment.len
  have small := packet.hdr.len.toNat_lt
  omega

theorem dataLen (fragment : packet.Fragment) :
    packet.hdr.len - UInt16.ofNat packet.hdr.hlBytes = UInt16.ofNat packet.data.length := by
  have len := fragment.len
  have small := packet.hdr.len.toNat_lt
  rw [fragment.hl, ← UInt16.toNat_inj, UInt16.toNat_sub, UInt16.toNat_ofNat', UInt16.toNat_ofNat']
  change (2 ^ 16 - 20 + _) % 2 ^ 16 = _
  change 20 + _ = _ at len
  omega

/-- As long as the end does not wrap around, it is the end of the bytes. -/
theorem fits_iff (fragment : packet.Fragment) (clen : Nat) :
    (packet.frag clen).Fits ↔ ¬ (packet.frag clen).stop < packet.hdr.offsetBytes := by
  have small := fragment.length_lt
  have offset := packet.hdr.offsetBytes.toNat_lt
  rw [UInt16.lt_iff_toNat_lt, ReassFrag.Fits, IpPacket.frag, UInt16.toNat_add,
    UInt16.toNat_ofNat']
  change _ + 20 < _ at small
  change _ = packet.hdr.offsetBytes.toNat + packet.data.length ↔ _
  omega

theorem admitted {clen : Nat} (fits : (packet.frag clen).Fits)
    (short : ¬ ((!packet.hdr.mf) = true ∧
      (packet.hdr.offsetBytes + UInt16.ofNat packet.data.length < packet.hdr.offsetBytes ∨
        (packet.hdr.offsetBytes + UInt16.ofNat packet.data.length).toNat > 0xffff - ipHlen))) :
    packet.Admitted := by
  have range := (packet.frag clen).stop.toNat_lt
  have stop : packet.piece.stop = (packet.frag clen).stop.toNat := fits.symm
  refine ⟨by omega, fun isLast => ?_⟩
  have room : ¬ (packet.frag clen).stop.toNat > 0xffff - ipHlen := fun long =>
    short ⟨by rw [isLast]; rfl, Or.inr long⟩
  have hlen : ipHlen = 20 := rfl
  omega

end IpPacket.Fragment

theorem Chain.insert {before behind : List ReassFrag} {new : ReassFrag}
    (chain : Chain (before ++ behind)) (fits : new.Fits)
    (front : ∀ q ∈ before, q.stop.toNat ≤ new.start.toNat ∧ q.start.toNat < new.start.toNat)
    (back : ∀ q ∈ behind, new.stop.toNat ≤ q.start.toNat ∧ new.start.toNat < q.start.toNat) :
    Chain (before ++ new :: behind) where
  fits q isIn := by
    rcases List.mem_append.mp isIn with inFront | inBack
    · exact chain.fits q (List.mem_append_left _ inFront)
    · rcases List.mem_cons.mp inBack with rfl | later
      · exact fits
      · exact chain.fits q (List.mem_append_right _ later)
  apart := by
    have apart := chain.apart
    rw [List.map_append] at apart
    rw [List.map_append, List.map_cons]
    refine apart.insert (Nat.zero_le _) ?_ ?_
    · intro other isIn
      obtain ⟨q, inFront, rfl⟩ := List.mem_map.mp isIn
      rw [(chain.fits q (List.mem_append_left _ inFront)).stop]
      exact front q inFront
    · intro other isIn
      obtain ⟨q, inBack, rfl⟩ := List.mem_map.mp isIn
      rw [fits.stop]
      exact back q inBack

/-- A fragment is dropped if its end wraps around or if it is in conflict with another one.
Otherwise it is put into the list, which stays in order, and the packet is complete exactly if the
last fragment has come and there are no holes. No assertion fails. -/
theorem ipReassChainFrag_spec {ipr : IpReassData} {packet : IpPacket} (clen : Nat) (isLast : Bool)
    (chain : Chain ipr.p) (fragment : packet.Fragment)
    (last : isLast = true → packet.hdr.offsetBytes ≠ 0)
    (first : ipr.p = [] → ipr.lastFrag = false) :
    (ipReassChainFrag ipr packet.hdr packet.data clen isLast = some .dropped ∧
        (¬ (packet.frag clen).Fits ∨ ∃ q ∈ ipr.p, (packet.frag clen).Conflict q)) ∨
      ∃ before behind, ipr.p = before ++ behind ∧ Chain (before ++ packet.frag clen :: behind) ∧
        (ipReassChainFrag ipr packet.hdr packet.data clen isLast =
              some (.finished (before ++ packet.frag clen :: behind)) ∧
            (isLast = true ∨ ipr.lastFrag = true) ∧ Whole (before ++ packet.frag clen :: behind) ∨
          ipReassChainFrag ipr packet.hdr packet.data clen isLast =
              some (.queued (before ++ packet.frag clen :: behind)) ∧
            ¬ ((isLast = true ∨ ipr.lastFrag = true) ∧
              Whole (before ++ packet.frag clen :: behind))) := by
  have lengths : ¬ packet.hdr.hlBytes > packet.hdr.len.toNat := by
    rw [fragment.hl, ← fragment.len]
    exact Nat.not_lt.mpr (Nat.le_add_right _ _)
  have is : ipReassChainFrag ipr packet.hdr packet.data clen isLast =
      if (packet.frag clen).stop < packet.hdr.offsetBytes then some .dropped
      else (chainLoop (packet.frag clen) none true ipr.p).bind
        (validatePart ipr (packet.frag clen) isLast) := by
    rw [ipReassChainFrag, if_neg lengths, fragment.dataLen]
    rfl
  rw [is]
  by_cases wraps : (packet.frag clen).stop < packet.hdr.offsetBytes
  · rw [if_pos wraps]
    exact Or.inl ⟨rfl, Or.inl fun fits => (fragment.fits_iff clen).mp fits wraps⟩
  rw [if_neg wraps]
  have fits := (fragment.fits_iff clen).mpr wraps
  rcases chainLoop_spec (packet.frag clen) none true chain.apart
    (by rintro _ ⟨⟩) with ⟨loop, conflict⟩ | ⟨before, behind, valid, loop, found⟩
  · rw [loop]
    exact Or.inl ⟨rfl, Or.inr conflict⟩
  rw [loop]
  have inserted : Chain (before ++ packet.frag clen :: behind) :=
    Chain.insert (found.split ▸ chain) fits found.front found.back
  have complete : (valid = true ∧
      ((before ++ packet.frag clen :: behind).head?.all fun first => first.start = 0) = true ∧
        noHoles (packet.frag clen) behind = true) ↔
      Whole (before ++ packet.frag clen :: behind) := by
    rw [whole_iff inserted.fits, linked_append, found.valid, Bool.true_and, Bool.and_eq_true]
    exact ⟨fun ⟨linked, start, holes⟩ => ⟨start, linked, holes⟩,
      fun ⟨start, linked, holes⟩ => ⟨linked, start, holes⟩⟩
  refine Or.inr ⟨before, behind, found.split, inserted, ?_⟩
  rw [Option.bind_some, validatePart]
  by_cases finished : (isLast = true ∨ ipr.lastFrag = true) ∧
      Whole (before ++ packet.frag clen :: behind)
  · refine Or.inl ⟨?_, finished.1, finished.2⟩
    have several : (before ++ packet.frag clen :: behind).length ≠ 1 := by
      intro one
      rw [List.length_append, List.length_cons] at one
      have noFront : before = [] := List.eq_nil_of_length_eq_zero (by omega)
      have noBack : behind = [] := List.eq_nil_of_length_eq_zero (by omega)
      have alone : ipr.p = [] := by rw [found.split, noFront, noBack]; rfl
      obtain ⟨isLast' | flag, hi, tiles⟩ := finished
      · rw [noFront, noBack] at tiles
        exact last isLast' (UInt16.toNat_inj.mp tiles.1)
      · rw [first alone] at flag
        cases flag
    rw [if_pos ⟨finished.1, complete.mpr finished.2⟩, if_neg several]
  · exact Or.inr ⟨if_neg fun both => finished ⟨both.1, complete.mp both.2⟩, finished⟩

/-! ### The list of incomplete packets -/

/-- What fragments of one packet agree in. -/
def IpHdr.key (hdr : IpHdr) : Ip4Addr × Ip4Addr × UInt16 := (hdr.src, hdr.dest, hdr.id)

theorem IpHdr.addressesAndIdMatch_iff (hdr hdr' : IpHdr) :
    hdr.addressesAndIdMatch hdr' = true ↔ hdr.key = hdr'.key := by
  rw [addressesAndIdMatch, decide_eq_true_eq, key, key, Prod.mk.injEq, Prod.mk.injEq]

/-- An entry of the list has a fragment, its fragments are in order, and its timer runs. -/
structure EntryOk (ipr : IpReassData) : Prop where
  chain : Chain ipr.p
  notEmpty : ipr.p ≠ []
  timer : ipr.timer.toNat ≤ 15

namespace IpReass

/-- The number of pbufs that entries keep. -/
def kept (list : List IpReassData) : Nat := (list.map fun ipr => pbufs ipr.p).sum

theorem kept_append (first second : List IpReassData) :
    kept (first ++ second) = kept first + kept second := by
  rw [kept, List.map_append, List.sum_append]
  rfl

theorem kept_cons (ipr : IpReassData) (list : List IpReassData) :
    kept (ipr :: list) = pbufs ipr.p + kept list := rfl

theorem kept_sublist {list list' : List IpReassData} (sublist : list.Sublist list') :
    kept list ≤ kept list' := by
  induction sublist with
  | slnil => exact le_rfl
  | cons ipr _ inductionHypothesis => exact inductionHypothesis.trans (Nat.le_add_left _ _)
  | cons_cons ipr _ inductionHypothesis => exact Nat.add_le_add_left inductionHypothesis _

/-- The list has one entry for each packet, its pbufs are counted, and there are not too many. -/
structure Ok (reass : IpReass) : Prop where
  entries : ∀ ipr ∈ reass.reassdatagrams, EntryOk ipr
  keys : (reass.reassdatagrams.map fun ipr => ipr.iphdr.key).Nodup
  count : reass.pbufcount = kept reass.reassdatagrams
  room : reass.pbufcount ≤ ipReassMaxPbufs

/-- A place of a list splits it. -/
theorem split_at {list : List IpReassData} {place : Nat} {ipr : IpReassData}
    (found : list[place]? = some ipr) :
    ∃ front back, list = front ++ ipr :: back ∧ front.length = place := by
  obtain ⟨inside, is⟩ := List.getElem?_eq_some_iff.mp found
  refine ⟨list.take place, list.drop (place + 1), ?_, List.length_take_of_le inside.le⟩
  rw [← is, List.getElem_cons_drop, List.take_append_drop]

variable {reass : IpReass} {front back : List IpReassData} {ipr : IpReassData}

theorem getElem?_split : (front ++ ipr :: back)[front.length]? = some ipr := by
  rw [List.getElem?_append_right le_rfl, Nat.sub_self]
  rfl

theorem eraseIdx_split : (front ++ ipr :: back).eraseIdx front.length = front ++ back := by
  rw [List.eraseIdx_append_of_length_le le_rfl, Nat.sub_self]
  rfl

theorem set_split (ipr' : IpReassData) :
    (front ++ ipr :: back).set front.length ipr' = front ++ ipr' :: back := by
  rw [List.set_append_right _ _ le_rfl, Nat.sub_self]
  rfl

theorem modify_split (change : IpReassData → IpReassData) :
    (front ++ ipr :: back).modify front.length change = front ++ change ipr :: back := by
  induction front with
  | nil => rfl
  | cons first rest inductionHypothesis =>
    exact congrArg (first :: ·) inductionHypothesis

/-- An entry of an ordered list is freed. -/
theorem Ok.free (ok : reass.Ok) (split : reass.reassdatagrams = front ++ ipr :: back) :
    ∃ reass', reass.freeCompleteDatagram front.length = some (reass', pbufs ipr.p) ∧
      reass'.reassdatagrams = front ++ back ∧ reass'.Ok := by
  have entry := ok.entries ipr (by rw [split]; exact List.mem_append_right _ List.mem_cons_self)
  have count := ok.count
  have room := ok.room
  have keys := ok.keys
  rw [split, kept_append, kept_cons] at count
  rw [split, List.map_append, List.map_cons] at keys
  rw [freeCompleteDatagram, split, getElem?_split, Option.bind_some, if_neg]
  · refine ⟨_, rfl, ?_, ?_, ?_, ?_, ?_⟩
    · rw [dequeue, split, eraseIdx_split]
    · intro other isIn
      rw [dequeue, split, eraseIdx_split] at isIn
      refine ok.entries other ?_
      rw [split]
      exact List.mem_append.mpr ((List.mem_append.mp isIn).imp_right (List.mem_cons_of_mem _))
    · change (List.map _ (reass.dequeue front.length).reassdatagrams).Nodup
      rw [dequeue, split, eraseIdx_split, List.map_append]
      exact keys.sublist (List.Sublist.append_left (List.sublist_cons_self _ _) _)
    · change reass.pbufcount - _ = kept (reass.dequeue front.length).reassdatagrams
      rw [dequeue, split, eraseIdx_split, kept_append]
      omega
    · change reass.pbufcount - _ ≤ _
      omega
  · have small : ipReassMaxPbufs = 10 := rfl
    rintro (empty | many | few)
    · exact entry.notEmpty empty
    · omega
    · omega

/-- The oldest one is an entry of another packet. -/
theorem oldestLoop_spec (fraghdr : IpHdr) (list : List IpReassData) (place : Nat)
    (oldest : Option (Nat × UInt8)) (others : Nat) {found : Nat × UInt8}
    (is : (oldestLoop fraghdr list place oldest others).1 = some found) :
    oldest = some found ∨ ∃ front ipr back, list = front ++ ipr :: back ∧
      found.1 = place + front.length ∧ ipr.iphdr.key ≠ fraghdr.key := by
  induction list generalizing place oldest others with
  | nil => exact Or.inl is
  | cons r rest inductionHypothesis =>
    unfold oldestLoop at is
    split at is
    case isTrue =>
      rcases inductionHypothesis _ _ _ is with before | ⟨front, ipr, back, split, at_place, other⟩
      · exact Or.inl before
      · refine Or.inr ⟨r :: front, ipr, back, by rw [split]; rfl, ?_, other⟩
        rw [at_place, List.length_cons]
        omega
    case isFalse different =>
      rw [IpHdr.addressesAndIdMatch_iff] at different
      rcases inductionHypothesis _ _ _ is with now | ⟨front, ipr, back, split, at_place, other⟩
      · have here : found.1 = place →
            ∃ front ipr back, r :: rest = front ++ ipr :: back ∧
              found.1 = place + front.length ∧ ipr.iphdr.key ≠ fraghdr.key := fun at_place =>
          ⟨[], r, rest, rfl, at_place, different⟩
        cases oldest with
        | none =>
          cases now
          exact Or.inr (here rfl)
        | some before =>
          dsimp only at now
          split at now
          · cases now
            exact Or.inr (here rfl)
          · exact Or.inl now
      · refine Or.inr ⟨r :: front, ipr, back, by rw [split]; rfl, ?_, other⟩
        rw [at_place, List.length_cons]
        omega

/-- Making room frees entries of other packets only, and ends. -/
theorem Ok.removeOldestLoop (fraghdr : IpHdr) (pbufsNeeded fuel freed : Nat) {reass : IpReass}
    (ok : reass.Ok) (enough : reass.reassdatagrams.length < fuel) :
    ∃ reass' freed', removeOldestLoop fraghdr pbufsNeeded fuel reass freed = some (reass', freed') ∧
      reass'.Ok ∧ reass'.reassdatagrams.Sublist reass.reassdatagrams ∧
      ∀ ipr ∈ reass.reassdatagrams, ipr.iphdr.key = fraghdr.key → ipr ∈ reass'.reassdatagrams := by
  induction fuel generalizing reass freed with
  | zero => cases enough
  | succ fuel inductionHypothesis =>
    rw [IpReass.removeOldestLoop]
    cases oldest : oldestLoop fraghdr reass.reassdatagrams 0 none 0 with
    | mk found others =>
      cases found with
      | none => exact ⟨reass, freed, rfl, ok, List.Sublist.refl _, fun ipr isIn _ => isIn⟩
      | some found =>
        obtain ⟨⟨⟩⟩ | ⟨front, ipr, back, split, at_place, other⟩ :=
          oldestLoop_spec fraghdr _ _ _ _ (congrArg Prod.fst oldest)
        rw [Nat.zero_add] at at_place
        obtain ⟨reass', free, list, ok'⟩ := ok.free split
        dsimp only
        rw [at_place, free, Option.bind_some]
        dsimp only
        have sublist : reass'.reassdatagrams.Sublist reass.reassdatagrams := by
          rw [list, split]
          exact List.Sublist.append_left (List.sublist_cons_self _ _) _
        have keeps : ∀ ipr ∈ reass.reassdatagrams, ipr.iphdr.key = fraghdr.key →
            ipr ∈ reass'.reassdatagrams := by
          intro ipr' isIn same
          rw [split] at isIn
          rw [list]
          rcases List.mem_append.mp isIn with inFront | inBack
          · exact List.mem_append_left _ inFront
          · rcases List.mem_cons.mp inBack with rfl | later
            · exact absurd same other
            · exact List.mem_append_right _ later
        by_cases more : freed + pbufs ipr.p < pbufsNeeded ∧ others > 1
        · rw [if_pos more]
          have shorter : reass'.reassdatagrams.length < fuel := by
            rw [split, List.length_append, List.length_cons] at enough
            rw [list, List.length_append]
            omega
          obtain ⟨reass'', freed'', is, ok'', sublist', keeps'⟩ :=
            inductionHypothesis (freed + pbufs ipr.p) ok' shorter
          exact ⟨reass'', freed'', is, ok'', sublist'.trans sublist, fun ipr' isIn same =>
            keeps' ipr' (keeps ipr' isIn same) same⟩
        · rw [if_neg more]
          exact ⟨reass', _, rfl, ok', sublist, keeps⟩

/-- Making room never fails. -/
theorem Ok.removeOldestDatagram {reass : IpReass} (ok : reass.Ok) (fraghdr : IpHdr)
    (pbufsNeeded : Nat) :
    ∃ reass' freed, reass.removeOldestDatagram fraghdr pbufsNeeded = some (reass', freed) ∧
      reass'.Ok ∧ reass'.reassdatagrams.Sublist reass.reassdatagrams ∧
      ∀ ipr ∈ reass.reassdatagrams, ipr.iphdr.key = fraghdr.key → ipr ∈ reass'.reassdatagrams :=
  ok.removeOldestLoop fraghdr pbufsNeeded _ 0 (Nat.lt_succ_self _)

/-- An entry is replaced by one of the same packet with as many pbufs. -/
theorem Ok.replace (ok : reass.Ok) (split : reass.reassdatagrams = front ++ ipr :: back)
    (ipr' : IpReassData) (entry : EntryOk ipr') (key : ipr'.iphdr.key = ipr.iphdr.key)
    (same : pbufs ipr'.p = pbufs ipr.p) :
    Ok { reass with reassdatagrams := front ++ ipr' :: back } where
  entries other isIn := by
    rcases List.mem_append.mp isIn with inFront | inBack
    · exact ok.entries other (by rw [split]; exact List.mem_append_left _ inFront)
    · rcases List.mem_cons.mp inBack with rfl | later
      · exact entry
      · refine ok.entries other ?_
        rw [split]
        exact List.mem_append_right _ (List.mem_cons_of_mem _ later)
  keys := by
    have keys := ok.keys
    rw [split, List.map_append, List.map_cons] at keys
    rw [List.map_append, List.map_cons, key]
    exact keys
  count := by
    have count := ok.count
    rw [split, kept_append, kept_cons] at count
    rw [kept_append, kept_cons, same]
    exact count
  room := ok.room

/-- Entries that run out of time are freed, and the others stay with a second less. -/
theorem Ok.tmrLoop {reass : IpReass} (ok : reass.Ok) (front : List IpReassData)
    (split : reass.reassdatagrams = front ++ back) :
    ∃ reass', tmrLoop back.length front.length reass = some reass' ∧ reass'.Ok ∧
      reass'.reassdatagrams = front ++ (back.filter fun ipr => ipr.timer > 0).map fun ipr =>
        { ipr with timer := ipr.timer - 1 } := by
  induction back generalizing reass front with
  | nil => exact ⟨reass, rfl, ok, split⟩
  | cons ipr rest inductionHypothesis =>
    rw [List.length_cons, IpReass.tmrLoop, split, getElem?_split, Option.bind_some]
    by_cases runs : ipr.timer > 0
    · rw [if_pos runs, set_split]
      have entry := ok.entries ipr (by
        rw [split]
        exact List.mem_append_right _ List.mem_cons_self)
      have less : (ipr.timer - 1).toNat = ipr.timer.toNat - 1 :=
        UInt8.toNat_sub_of_le _ _ (UInt8.le_iff_toNat_le.mpr (UInt8.lt_iff_toNat_lt.mp runs))
      have ticked := ok.replace split { ipr with timer := ipr.timer - 1 }
        ⟨entry.chain, entry.notEmpty, by
          change (ipr.timer - 1).toNat ≤ 15
          have timer := entry.timer
          omega⟩ rfl rfl
      obtain ⟨reass'', is, ok'', final⟩ := inductionHypothesis
        ticked (front ++ [{ ipr with timer := ipr.timer - 1 }]) (by
          rw [List.append_assoc]
          rfl)
      rw [List.length_append] at is
      refine ⟨reass'', is, ok'', ?_⟩
      rw [final, List.filter_cons_of_pos (by simpa using runs), List.map_cons, List.append_assoc]
      rfl
    · rw [if_neg runs]
      obtain ⟨reass', free, list, ok'⟩ := ok.free split
      rw [free, Option.bind_some]
      obtain ⟨reass'', is, ok'', final⟩ := inductionHypothesis ok' front list
      refine ⟨reass'', is, ok'', ?_⟩
      rw [final, List.filter_cons_of_neg (by simpa using runs)]

theorem Ok.tmr {reass : IpReass} (ok : reass.Ok) :
    ∃ reass', reass.ipReassTmr = some reass' ∧ reass'.Ok ∧
      reass'.reassdatagrams = (reass.reassdatagrams.filter fun ipr => ipr.timer > 0).map fun ipr =>
        { ipr with timer := ipr.timer - 1 } :=
  ok.tmrLoop [] rfl

/-! ### A fragment that comes -/

/-- An ordered list with the place of the entry for a fragment. A new entry, which has no fragment
yet, is the first one. -/
structure Open (reass : IpReass) (hdr : IpHdr) (front : List IpReassData) (ipr : IpReassData)
    (back : List IpReassData) : Prop where
  split : reass.reassdatagrams = front ++ ipr :: back
  others : ∀ other ∈ front ++ back, EntryOk other
  chain : Chain ipr.p
  first : ipr.p = [] → front = [] ∧ ipr.lastFrag = false
  timer : ipr.timer.toNat ≤ 15
  keys : ((front ++ ipr :: back).map fun ipr => ipr.iphdr.key).Nodup
  key : ipr.iphdr.key = hdr.key
  count : reass.pbufcount = kept (front ++ ipr :: back)
  room : reass.pbufcount ≤ ipReassMaxPbufs

/-- The entry that `ip_reass_enqueue_new_datagram` makes. -/
def freshEntry (hdr : IpHdr) : IpReassData :=
  { p := [], iphdr := hdr, datagramLen := 0, lastFrag := false, timer := ipReassMaxage }

/-- An entry after a fragment with this header was found to belong to it. -/
def updateHdr (hdr : IpHdr) (ipr : IpReassData) : IpReassData :=
  if hdr.offset &&& ipOffmask = 0 ∧ ipr.iphdr.offset &&& ipOffmask ≠ 0 then
    { ipr with iphdr := hdr }
  else ipr

theorem updateHdr_p (hdr : IpHdr) (ipr : IpReassData) : (updateHdr hdr ipr).p = ipr.p := by
  unfold updateHdr
  split <;> rfl

theorem updateHdr_timer (hdr : IpHdr) (ipr : IpReassData) :
    (updateHdr hdr ipr).timer = ipr.timer := by
  unfold updateHdr
  split <;> rfl

theorem updateHdr_key {hdr : IpHdr} {ipr : IpReassData} (same : ipr.iphdr.key = hdr.key) :
    (updateHdr hdr ipr).iphdr.key = hdr.key := by
  unfold updateHdr
  split
  · rfl
  · exact same

/-- Where the entry of a fragment comes from. -/
inductive Origin (reass : IpReass) (hdr : IpHdr) (mem : Bool) :
    List IpReassData → IpReassData → List IpReassData → Prop
  | fresh {back : List IpReassData} : back.Sublist reass.reassdatagrams →
    (mem = true → back = reass.reassdatagrams) →
    (∀ ipr ∈ reass.reassdatagrams, ipr.iphdr.key ≠ hdr.key) →
    Origin reass hdr mem [] (freshEntry hdr) back
  | old {front back : List IpReassData} {ipr : IpReassData} :
    reass.reassdatagrams = front ++ ipr :: back → ipr.iphdr.key = hdr.key →
    Origin reass hdr mem front (updateHdr hdr ipr) back

theorem Origin.kept_le {mem : Bool} {hdr : IpHdr} (origin : Origin reass hdr mem front ipr back) :
    kept (front ++ ipr :: back) ≤ kept reass.reassdatagrams := by
  cases origin with
  | fresh sublist _ _ =>
    rw [List.nil_append, kept_cons]
    exact (Nat.zero_add _).le.trans (kept_sublist sublist)
  | old split _ => rw [split, kept_append, kept_append, kept_cons, kept_cons, updateHdr_p]

/-- The entry of a fragment is found or made, unless there is no memory for it. -/
theorem Ok.lookUp {reass : IpReass} (ok : reass.Ok) (hdr : IpHdr) (clen : Nat)
    (mem : Bool × Bool) :
    (∃ reass', reass.lookUp hdr clen mem = some (reass', none) ∧ reass'.Ok ∧ mem.1 = false ∧
        reass'.reassdatagrams.Sublist reass.reassdatagrams) ∨
      ∃ reass' front ipr back, reass.lookUp hdr clen mem = some (reass', some front.length) ∧
        Open reass' hdr front ipr back ∧ Origin reass hdr mem.1 front ipr back := by
  rw [IpReass.lookUp]
  cases found : reass.reassdatagrams.findIdx? fun ipr => ipr.iphdr.addressesAndIdMatch hdr with
  | some place =>
    dsimp only
    obtain ⟨inside, is, -⟩ := List.findIdx?_eq_some_iff_getElem.mp found
    obtain ⟨front, back, split, at_place⟩ := split_at (List.getElem?_eq_getElem inside)
    have same := (IpHdr.addressesAndIdMatch_iff _ _).mp is
    generalize reass.reassdatagrams[place] = ipr at split same
    have entry := ok.entries ipr (by
      rw [split]
      exact List.mem_append_right _ List.mem_cons_self)
    subst at_place
    refine Or.inr ⟨_, front, updateHdr hdr ipr, back, rfl, ?_, .old split same⟩
    refine ⟨?_, ?_, ?_, ?_, ?_, ?_, updateHdr_key same, ?_, ok.room⟩
    · change reass.reassdatagrams.modify front.length (updateHdr hdr) = _
      rw [split, modify_split]
    · intro other isIn
      refine ok.entries other ?_
      rw [split]
      exact List.mem_append.mpr ((List.mem_append.mp isIn).imp_right (List.mem_cons_of_mem _))
    · rw [updateHdr_p]
      exact entry.chain
    · rw [updateHdr_p]
      exact fun empty => absurd empty entry.notEmpty
    · rw [updateHdr_timer]
      exact entry.timer
    · have keys := ok.keys
      rw [split, List.map_append, List.map_cons, same] at keys
      rw [List.map_append, List.map_cons, updateHdr_key same]
      exact keys
    · rw [kept_append, kept_cons, updateHdr_p, ← kept_cons, ← kept_append, ← split]
      exact ok.count
  | none =>
    dsimp only
    have other : ∀ ipr ∈ reass.reassdatagrams, ipr.iphdr.key ≠ hdr.key := by
      intro ipr isIn same
      have unmatched := List.findIdx?_eq_none_iff.mp found ipr isIn
      rw [(IpHdr.addressesAndIdMatch_iff _ _).mpr same] at unmatched
      cases unmatched
    -- a new entry in front of a list in order
    have new : ∀ {reass' : IpReass}, reass'.Ok →
        reass'.reassdatagrams.Sublist reass.reassdatagrams →
        Open { reass' with reassdatagrams := freshEntry hdr :: reass'.reassdatagrams } hdr []
          (freshEntry hdr) reass'.reassdatagrams := by
      intro reass' ok' sublist
      refine ⟨rfl, ok'.entries, Chain.nil, fun _ => ⟨rfl, rfl⟩, le_rfl, ?_, rfl, ?_, ok'.room⟩
      · rw [List.nil_append, List.map_cons, List.nodup_cons]
        refine ⟨fun isIn => ?_, ok'.keys⟩
        obtain ⟨ipr, isIn, same⟩ := List.mem_map.mp isIn
        exact other ipr (sublist.subset isIn) same
      · rw [List.nil_append, kept_cons]
        exact ok'.count.trans (Nat.zero_add _).symm
    cases memory : mem.1 with
    | true =>
      refine Or.inr ⟨_, [], freshEntry hdr, reass.reassdatagrams, ?_, new ok (.refl _), ?_⟩
      · rw [enqueueNewDatagram, memory]
        rfl
      · exact .fresh (.refl _) (fun _ => rfl) other
    | false =>
      obtain ⟨reass', freed, is, ok', sublist, -⟩ := ok.removeOldestDatagram hdr clen
      rw [enqueueNewDatagram, memory, if_neg Bool.false_ne_true, is]
      by_cases second : (decide (freed ≥ clen) && mem.2) = true
      · refine Or.inr ⟨_, [], freshEntry hdr, reass'.reassdatagrams, ?_, new ok' sublist, ?_⟩
        · simp only [Option.bind_eq_bind, Option.bind_some, second, if_true]
          rfl
        · exact .fresh sublist (fun yes => by cases yes) other
      · refine Or.inl ⟨reass', ?_, ok', rfl, sublist⟩
        simp only [Option.bind_eq_bind, Option.bind_some, if_neg second]
        rfl

/-- An entry after a fragment of its packet was put into its list. -/
def chained (packet : IpPacket) (ipr : IpReassData) (p : List ReassFrag) : IpReassData :=
  if packet.hdr.mf = false then
    { ipr with p := p, datagramLen := (packet.frag 0).stop, lastFrag := true }
  else { ipr with p := p }

/-- The packet that a complete entry becomes. -/
def assembled (ipr : IpReassData) : IpPacket where
  hdr :=
    { ipr.iphdr with
      len := ipr.datagramLen + UInt16.ofNat ipHlen
      offset := 0 }.withChksum
  data := ipr.p.flatMap ReassFrag.data

/-- The last fragment has come, and there are no holes. -/
def Complete (ipr : IpReassData) : Prop := ipr.lastFrag = true ∧ Whole ipr.p

theorem complete_updateHdr {hdr : IpHdr} {ipr : IpReassData} :
    Complete (updateHdr hdr ipr) ↔ Complete ipr := by
  unfold updateHdr
  split <;> exact Iff.rfl

/-- What becomes of a fragment and its entry: the list afterwards, and the packet that is passed
on. -/
inductive Outcome (packet : IpPacket) (clen : Nat) (front : List IpReassData) (ipr : IpReassData)
    (back : List IpReassData) : List IpReassData → Option IpPacket → Prop
  | dropped {list : List IpReassData} :
    (packet.hdr.mf = false ∧ 0xffff - ipHlen < packet.hdr.offsetBytes.toNat + packet.data.length) ∨
      ¬ (packet.frag clen).Fits ∨ (∃ q ∈ ipr.p, (packet.frag clen).Conflict q) →
    (ipr.p = [] → list = front ++ back) → (ipr.p ≠ [] → list = front ++ ipr :: back) →
    Outcome packet clen front ipr back list none
  | queued {before behind : List ReassFrag} : packet.Admitted → ipr.p = before ++ behind →
    ¬ Complete (chained packet ipr (before ++ packet.frag clen :: behind)) →
    Outcome packet clen front ipr back
      (front ++ chained packet ipr (before ++ packet.frag clen :: behind) :: back) none
  | finished {before behind : List ReassFrag} : packet.Admitted → ipr.p = before ++ behind →
    Complete (chained packet ipr (before ++ packet.frag clen :: behind)) →
    Outcome packet clen front ipr back (front ++ back)
      (some (assembled (chained packet ipr (before ++ packet.frag clen :: behind))))

theorem chained_p (packet : IpPacket) (ipr : IpReassData) (p : List ReassFrag) :
    (chained packet ipr p).p = p := by
  unfold chained
  split <;> rfl

theorem chained_iphdr (packet : IpPacket) (ipr : IpReassData) (p : List ReassFrag) :
    (chained packet ipr p).iphdr = ipr.iphdr := by
  unfold chained
  split <;> rfl

theorem chained_timer (packet : IpPacket) (ipr : IpReassData) (p : List ReassFrag) :
    (chained packet ipr p).timer = ipr.timer := by
  unfold chained
  split <;> rfl

theorem chained_eq (packet : IpPacket) (ipr : IpReassData) (p : List ReassFrag) :
    (if (!packet.hdr.mf) = true then
      { ipr with
        p := p
        datagramLen := packet.hdr.offsetBytes + UInt16.ofNat packet.data.length
        lastFrag := true }
    else { ipr with p := p }) = chained packet ipr p := by
  unfold chained
  cases packet.hdr.mf with
  | true => rfl
  | false => rfl

theorem complete_chained {packet : IpPacket} {ipr : IpReassData} {p : List ReassFrag} :
    Complete (chained packet ipr p) ↔
      ((!packet.hdr.mf) = true ∨ ipr.lastFrag = true) ∧ Whole p := by
  have flag : (chained packet ipr p).lastFrag = (!packet.hdr.mf || ipr.lastFrag) := by
    unfold chained
    cases packet.hdr.mf with
    | true => rfl
    | false => rfl
  rw [Complete, chained_p, flag, Bool.or_eq_true]

theorem pbufs_insert (before behind : List ReassFrag) (new : ReassFrag) :
    pbufs (before ++ new :: behind) = pbufs (before ++ behind) + new.clen := by
  rw [pbufs, pbufs, List.map_append, List.map_cons, List.sum_append, List.sum_cons,
    List.map_append, List.sum_append]
  omega

namespace Open

variable {hdr : IpHdr}

/-- The entry is in the list in order, if it has a fragment. -/
theorem ok (isOpen : Open reass hdr front ipr back) (notEmpty : ipr.p ≠ []) : reass.Ok where
  entries other isIn := by
    rw [isOpen.split] at isIn
    rcases List.mem_append.mp isIn with inFront | inBack
    · exact isOpen.others other (List.mem_append_left _ inFront)
    · rcases List.mem_cons.mp inBack with rfl | later
      · exact ⟨isOpen.chain, notEmpty, isOpen.timer⟩
      · exact isOpen.others other (List.mem_append_right _ later)
  keys := by
    rw [isOpen.split]
    exact isOpen.keys
  count := by
    rw [isOpen.split]
    exact isOpen.count
  room := isOpen.room

/-- The entry is taken out, with its pbufs. -/
theorem without (isOpen : Open reass hdr front ipr back) {count : Nat}
    (is : count = kept (front ++ back)) (timeExceeded : List IpPacket) :
    Ok ⟨front ++ back, count, timeExceeded⟩ where
  entries := isOpen.others
  keys := by
    have keys := isOpen.keys
    rw [List.map_append, List.map_cons] at keys
    rw [List.map_append]
    exact keys.sublist (List.Sublist.append_left (List.sublist_cons_self _ _) _)
  count := is
  room := by
    have before := isOpen.count
    have room := isOpen.room
    rw [kept_append, kept_cons] at before
    rw [kept_append] at is
    change count ≤ _
    omega

theorem nullreturnIpr (isOpen : Open reass hdr front ipr back) :
    ∃ reass', reass.nullreturnIpr front.length = some (reass', none) ∧ reass'.Ok ∧
      (ipr.p = [] → reass'.reassdatagrams = front ++ back) ∧
      (ipr.p ≠ [] → reass'.reassdatagrams = front ++ ipr :: back) := by
  rw [IpReass.nullreturnIpr, isOpen.split, getElem?_split, Option.bind_some]
  by_cases empty : ipr.p = []
  · obtain ⟨isFirst, _⟩ := isOpen.first empty
    subst isFirst
    rw [if_pos empty, if_pos List.length_nil]
    have list : (reass.dequeue 0).reassdatagrams = back := by
      rw [dequeue, isOpen.split]
      rfl
    refine ⟨reass.dequeue 0, rfl, ?_, fun _ => list, fun notEmpty => absurd empty notEmpty⟩
    have count := isOpen.count
    rw [List.nil_append, kept_cons, empty] at count
    have without := isOpen.without
      (count.trans (Nat.zero_add _)) reass.timeExceeded
    rw [List.nil_append, ← list] at without
    exact without
  · rw [if_neg empty]
    exact ⟨reass, rfl, isOpen.ok empty, fun none => absurd none empty, fun _ => isOpen.split⟩

/-- A fragment is dropped, put into the list of its packet, or completes the packet. -/
theorem reassInto {packet : IpPacket} (isOpen : Open reass packet.hdr front ipr back)
    (fragment : packet.Fragment) {clen : Nat}
    (room : reass.pbufcount + clen ≤ ipReassMaxPbufs) :
    ∃ reass' out, reass.reassInto front.length packet.hdr packet.data clen = some (reass', out) ∧
      reass'.Ok ∧ Outcome packet clen front ipr back reass'.reassdatagrams out := by
  obtain ⟨null, isNull, okNull, emptyNull, keptNull⟩ := isOpen.nullreturnIpr
  have small := fragment.length_lt
  have offset := packet.hdr.offsetBytes.toNat_lt
  have stop : (packet.hdr.offsetBytes + UInt16.ofNat packet.data.length).toNat =
      (packet.hdr.offsetBytes.toNat + packet.data.length) % 2 ^ 16 := by
    rw [UInt16.toNat_add, UInt16.toNat_ofNat', Nat.add_mod_mod]
  have hlen : ipHlen = 20 := rfl
  rw [IpReass.reassInto, isOpen.split, getElem?_split, Option.bind_some, fragment.dataLen]
  dsimp only
  by_cases long : (!packet.hdr.mf) = true ∧
      (packet.hdr.offsetBytes + UInt16.ofNat packet.data.length < packet.hdr.offsetBytes ∨
        (packet.hdr.offsetBytes + UInt16.ofNat packet.data.length).toNat > 0xffff - ipHlen)
  · rw [if_pos long]
    refine ⟨null, none, isNull, okNull, .dropped (Or.inl ⟨?_, ?_⟩) emptyNull keptNull⟩
    · rw [← Bool.not_eq_true']
      exact long.1
    · have exceeds := long.2
      rw [UInt16.lt_iff_toNat_lt, stop] at exceeds
      omega
  rw [if_neg long]
  have last : (!packet.hdr.mf) = true → packet.hdr.offsetBytes ≠ 0 := by
    intro isLast start
    rw [fragment.part start] at isLast
    cases isLast
  have admitted : ∀ {before behind : List ReassFrag},
      Chain (before ++ packet.frag clen :: behind) → packet.Admitted := fun chain =>
    IpPacket.Fragment.admitted (chain.fits _ (List.mem_append_right _ List.mem_cons_self)) long
  rcases ipReassChainFrag_spec clen (!packet.hdr.mf) isOpen.chain fragment last
    (fun empty => (isOpen.first empty).2) with ⟨is, rejected⟩ |
      ⟨before, behind, split, chain, ⟨is, complete⟩ | ⟨is, incomplete⟩⟩
  · rw [is]
    exact ⟨null, none, isNull, okNull, .dropped (Or.inr rejected) emptyNull keptNull⟩
  · -- the packet is complete
    have count : kept front + (pbufs ipr.p + kept back) = reass.pbufcount := by
      rw [isOpen.count, kept_append, kept_cons]
    have pbufs := pbufs_insert before behind (packet.frag clen)
    rw [← split] at pbufs
    change _ = _ + clen at pbufs
    rw [is, Option.bind_some]
    dsimp only
    rw [chained_eq, if_neg (by omega), ← chained_iphdr packet ipr]
    refine ⟨_, _, rfl, ?_, ?_⟩
    · rw [dequeue, isOpen.split, eraseIdx_split]
      exact isOpen.without (by rw [kept_append]; omega) _
    · rw [dequeue, isOpen.split, eraseIdx_split]
      have finished : Outcome packet clen front ipr back (front ++ back) _ :=
        .finished (admitted chain) split (complete_chained.mpr complete)
      rw [assembled, chained_p] at finished
      exact finished
  · have complete : ¬ Complete (chained packet ipr (before ++ packet.frag clen :: behind)) :=
      fun both => incomplete (complete_chained.mp both)
    rw [is, Option.bind_some]
    dsimp only
    rw [chained_eq, set_split]
    refine ⟨_, _, rfl, ⟨?_, ?_, ?_, room⟩, .queued (admitted chain) split complete⟩
    · intro other isIn
      rcases List.mem_append.mp isIn with inFront | inBack
      · exact isOpen.others other (List.mem_append_left _ inFront)
      · rcases List.mem_cons.mp inBack with rfl | later
        · refine ⟨?_, ?_, ?_⟩
          · rw [chained_p]
            exact chain
          · rw [chained_p]
            exact List.append_ne_nil_of_right_ne_nil _ (List.cons_ne_nil _ _)
          · rw [chained_timer]
            exact isOpen.timer
        · exact isOpen.others other (List.mem_append_right _ later)
    · have keys := isOpen.keys
      rw [List.map_append, List.map_cons] at keys ⊢
      rw [chained_iphdr]
      exact keys
    · have count := isOpen.count
      rw [kept_append, kept_cons] at count ⊢
      rw [chained_p, pbufs_insert, ← split]
      change reass.pbufcount + clen = kept front + (pbufs ipr.p + clen + kept back)
      omega

end Open

/-- What becomes of a packet that comes to `ip4_reass`: it is ignored, or it is put to the entry of
its packet. Entries may have been freed to make room. -/
inductive Effect (reass : IpReass) (packet : IpPacket) (clen : Nat) (mem : Bool) :
    List IpReassData → Option IpPacket → Prop
  | ignored {list : List IpReassData} : list.Sublist reass.reassdatagrams →
    ¬ (packet.Fragment ∧ reass.pbufcount + clen ≤ ipReassMaxPbufs ∧ mem = true) →
    (reass.pbufcount + clen ≤ ipReassMaxPbufs → mem = true → list = reass.reassdatagrams) →
    Effect reass packet clen mem list none
  | taken {reass' : IpReass} {front back list : List IpReassData} {ipr : IpReassData}
    {out : Option IpPacket} : packet.Fragment →
    reass'.reassdatagrams.Sublist reass.reassdatagrams →
    (reass.pbufcount + clen ≤ ipReassMaxPbufs → reass' = reass) →
    Origin reass' packet.hdr mem front ipr back → Outcome packet clen front ipr back list out →
    Effect reass packet clen mem list out

/-- `ip4_reass` never fails an assertion, and leaves the list in order. -/
theorem Ok.ip4Reass {reass : IpReass} (ok : reass.Ok) {packet : IpPacket} (clen : Nat)
    (len : packet.hdr.hlBytes + packet.data.length = packet.hdr.len.toNat)
    (part : packet.hdr.offsetBytes = 0 → packet.hdr.mf = true) (mem : Bool × Bool) :
    ∃ reass' out, reass.ip4Reass packet.hdr packet.data clen mem = some (reass', out) ∧
      reass'.Ok ∧ Effect reass packet clen mem.1 reass'.reassdatagrams out := by
  rw [IpReass.ip4Reass]
  by_cases options : packet.hdr.hlBytes ≠ ipHlen
  · rw [if_pos options]
    exact ⟨reass, none, rfl, ok, .ignored (.refl _) (fun all => options all.1.hl) fun _ _ => rfl⟩
  have hl : packet.hdr.hlBytes = ipHlen := not_not.mp options
  have fragment : packet.Fragment := ⟨hl, by rw [← hl, len], part⟩
  rw [if_neg options, if_neg (by omega)]
  -- the part behind the look for room
  have behind : ∀ {reass₀ : IpReass}, reass₀.Ok → reass₀.pbufcount + clen ≤ ipReassMaxPbufs →
      reass₀.reassdatagrams.Sublist reass.reassdatagrams →
      (reass.pbufcount + clen ≤ ipReassMaxPbufs → reass₀ = reass) →
      ∃ reass' out,
        reass₀.reassLookUp packet.hdr packet.data clen mem = some (reass', out) ∧ reass'.Ok ∧
          Effect reass packet clen mem.1 reass'.reassdatagrams out := by
    intro reass₀ ok₀ room sublist same
    rw [IpReass.reassLookUp]
    rcases ok₀.lookUp packet.hdr clen mem with
      ⟨reass', is, ok', memory, sublist'⟩ | ⟨reass₁, front, ipr, back, is, isOpen, origin⟩
    · rw [is]
      have none_left : mem.1 ≠ true := by
        rw [memory]
        exact Bool.false_ne_true
      exact ⟨reass', none, rfl, ok', .ignored (sublist'.trans sublist)
        (fun all => none_left all.2.2) fun _ enough => absurd enough none_left⟩
    · have count : reass₁.pbufcount + clen ≤ ipReassMaxPbufs := by
        have before := ok₀.count
        have now := isOpen.count
        have less := origin.kept_le
        omega
      obtain ⟨reass', out, into, ok', outcome⟩ := isOpen.reassInto fragment count
      rw [is]
      exact ⟨reass', out, into, ok', .taken fragment sublist same origin outcome⟩
  by_cases full : reass.pbufcount + clen > ipReassMaxPbufs
  · obtain ⟨reass₀, freed, is, ok₀, sublist, -⟩ := ok.removeOldestDatagram packet.hdr clen
    rw [if_pos full, is]
    by_cases room : freed ≠ 0 ∧ reass₀.pbufcount + clen ≤ ipReassMaxPbufs
    · simp only [Option.bind_eq_bind, Option.bind_some, decide_eq_true room,
        Bool.true_eq_false, if_false]
      exact behind ok₀ room.2 sublist fun enough => absurd enough (Nat.not_le.mpr full)
    · simp only [Option.bind_eq_bind, Option.bind_some, decide_eq_false room, if_true]
      exact ⟨reass₀, none, rfl, ok₀, .ignored sublist
        (fun all => absurd all.2.1 (Nat.not_le.mpr full))
        fun enough => absurd enough (Nat.not_le.mpr full)⟩
  · rw [if_neg full]
    simp only [Option.bind_eq_bind, Option.bind_some, Bool.true_eq_false, if_false]
    exact behind ok (Nat.not_lt.mp full) (.refl _) fun _ => rfl

end IpReass

/-! ### Where complete packets come from -/

theorem IpHdr.toNat_offset (hdr : IpHdr) :
    (hdr.offset &&& ipOffmask).toNat = hdr.offset.toNat % 2 ^ 13 := by
  rw [UInt16.toNat_and]
  exact Nat.and_two_pow_sub_one_eq_mod _ 13

theorem IpHdr.toNat_offsetBytes (hdr : IpHdr) :
    hdr.offsetBytes.toNat = hdr.offset.toNat % 2 ^ 13 * 8 := by
  rw [offsetBytes, UInt16.toNat_mul, toNat_offset]
  change _ % 2 ^ 13 * 8 % 2 ^ 16 = _
  omega

theorem IpHdr.offsetBytes_eq_zero (hdr : IpHdr) :
    hdr.offsetBytes = 0 ↔ hdr.offset &&& ipOffmask = 0 := by
  rw [← UInt16.toNat_inj, ← UInt16.toNat_inj, toNat_offsetBytes, toNat_offset]
  change _ = 0 ↔ _ = 0
  omega

/-- The packets that come in an event. -/
def ReassEvent.packet : ReassEvent → Option IpPacket
  | .fragment packet _ _ => some packet
  | .tmr => none

/-- An entry is made of fragments of one packet that have come. The length that it has is where one
of them ends that is marked as the last. -/
structure EntryFrom (received : List IpPacket) (ipr : IpReassData) : Prop where
  frags : ∀ q ∈ ipr.p, ∃ packet ∈ received, packet.hdr.key = ipr.iphdr.key ∧
    q = packet.frag q.clen
  last : ipr.lastFrag = true → ∃ packet ∈ received, packet.hdr.key = ipr.iphdr.key ∧
    packet.hdr.mf = false ∧ (∃ clen, packet.frag clen ∈ ipr.p) ∧
    ipr.datagramLen.toNat = packet.piece.stop ∧ packet.piece.stop + ipHlen < 2 ^ 16
  hdr : ∃ packet ∈ received, packet.hdr = ipr.iphdr
  start : (∃ q ∈ ipr.p, q.start = 0) → ipr.iphdr.offset &&& ipOffmask = 0

/-- A packet is made of fragments of one packet that have come and follow one another from the
first byte on. One of them is marked as the last, and the length in the header counts the bytes up
to its end; the rest of the header is that of a fragment with the first byte. -/
structure Assembled (received : List IpPacket) (out : IpPacket) : Prop where
  parts : ∃ before last behind,
    (∀ part ∈ before ++ last :: behind, part ∈ received ∧ part.hdr.key = out.hdr.key) ∧
      Tiles 0 ((before ++ last :: behind).map IpPacket.piece) out.data.length ∧
      out.data = (before ++ last :: behind).flatMap IpPacket.data ∧ last.hdr.mf = false ∧
      out.hdr.len.toNat = ipHlen + ((before ++ [last]).flatMap IpPacket.data).length
  header : ∃ first ∈ received, first.hdr.key = out.hdr.key ∧ first.hdr.offset &&& ipOffmask = 0 ∧
    out.hdr = { first.hdr with len := out.hdr.len, offset := 0 }.withChksum

theorem Assembled.mono {received received' : List IpPacket} {out : IpPacket}
    (made : Assembled received out) (subset : received ⊆ received') : Assembled received' out where
  parts := by
    obtain ⟨before, last, behind, came, rest⟩ := made.parts
    exact ⟨before, last, behind,
      fun part isIn => ⟨subset (came part isIn).1, (came part isIn).2⟩, rest⟩
  header := by
    obtain ⟨first, came, rest⟩ := made.header
    exact ⟨first, subset came, rest⟩

/-- The bytes of fragments that follow one another from the first byte on. -/
theorem length_upTo {before behind : List IpPacket} {last : IpPacket} {hi : Nat}
    (tiles : Tiles 0 ((before ++ last :: behind).map IpPacket.piece) hi) :
    ((before ++ [last]).flatMap IpPacket.data).length = last.piece.stop := by
  rw [List.map_append, List.map_cons] at tiles
  have upTo := tiles.cut.1.length_joined
  rw [joined, ← List.map_singleton, ← List.map_append, List.flatMap_map, Nat.zero_add] at upTo
  exact upTo

/-- No fragment of a packet ends behind one that is marked as the last. -/
def EndsAtLast (received : List IpPacket) (key : Ip4Addr × Ip4Addr × UInt16) : Prop :=
  ∀ last ∈ received, last.hdr.key = key → last.hdr.mf = false →
    ∀ part ∈ received, part.hdr.key = key → part.piece.stop ≤ last.piece.stop

/-- The header of a packet names its length, unless a fragment ends behind a last one. -/
theorem Assembled.length {received : List IpPacket} {out : IpPacket}
    (made : Assembled received out) (ends : EndsAtLast received out.hdr.key) :
    out.hdr.len.toNat = ipHlen + out.data.length := by
  obtain ⟨before, last, behind, came, tiles, -, isLast, len⟩ := made.parts
  have lastIn : last ∈ before ++ last :: behind := List.mem_append_right _ List.mem_cons_self
  have fromLast := ends last (came last lastIn).1 (came last lastIn).2 isLast
  have notEmpty : (before ++ last :: behind).map IpPacket.piece ≠ [] :=
    List.ne_nil_of_mem (List.mem_map_of_mem lastIn)
  have within := tiles.stop_le _ (List.mem_map_of_mem lastIn)
  obtain ⟨_, isIn, top⟩ := tiles.exists_stop notEmpty
  obtain ⟨part, partIn, rfl⟩ := List.mem_map.mp isIn
  have below := fromLast part (came part partIn).1 (came part partIn).2
  have upTo := length_upTo tiles
  omega

/-- The bytes that entries keep. -/
def heldBytes (list : List IpReassData) : Nat :=
  (list.map fun ipr => (ipr.p.flatMap ReassFrag.data).length).sum

theorem heldBytes_append (first second : List IpReassData) :
    heldBytes (first ++ second) = heldBytes first + heldBytes second := by
  rw [heldBytes, List.map_append, List.sum_append]
  rfl

theorem heldBytes_cons (ipr : IpReassData) (list : List IpReassData) :
    heldBytes (ipr :: list) = (ipr.p.flatMap ReassFrag.data).length + heldBytes list := rfl

theorem heldBytes_sublist {list list' : List IpReassData} (sublist : list.Sublist list') :
    heldBytes list ≤ heldBytes list' := by
  induction sublist with
  | slnil => exact le_rfl
  | cons ipr _ inductionHypothesis => exact inductionHypothesis.trans (Nat.le_add_left _ _)
  | cons_cons ipr _ inductionHypothesis => exact Nat.add_le_add_left inductionHypothesis _

theorem length_flatMap_insert (before behind : List ReassFrag) (new : ReassFrag) :
    ((before ++ new :: behind).flatMap ReassFrag.data).length =
      ((before ++ behind).flatMap ReassFrag.data).length + new.data.length := by
  simp only [List.flatMap_append, List.flatMap_cons, List.length_append]
  omega

section Trace

variable {front back : List IpReassData} {ipr : IpReassData} {received : List IpPacket}
  {packet : IpPacket}

namespace EntryFrom

theorem mono {received' : List IpPacket} (entry : EntryFrom received ipr)
    (subset : received ⊆ received') : EntryFrom received' ipr where
  frags q isIn := by
    obtain ⟨packet, came, rest⟩ := entry.frags q isIn
    exact ⟨packet, subset came, rest⟩
  last flag := by
    obtain ⟨packet, came, rest⟩ := entry.last flag
    exact ⟨packet, subset came, rest⟩
  hdr := by
    obtain ⟨packet, came, rest⟩ := entry.hdr
    exact ⟨packet, subset came, rest⟩
  start := entry.start

/-- A new entry. -/
theorem fresh (came : packet ∈ received) : EntryFrom received (IpReass.freshEntry packet.hdr) where
  frags q isIn := by cases isIn
  last flag := by cases flag
  hdr := ⟨packet, came, rfl⟩
  start := by
    rintro ⟨q, isIn, -⟩
    cases isIn

/-- An entry for which a fragment has come. -/
theorem updateHdr (entry : EntryFrom received ipr) (came : packet ∈ received)
    (same : ipr.iphdr.key = packet.hdr.key) :
    EntryFrom received (IpReass.updateHdr packet.hdr ipr) := by
  unfold IpReass.updateHdr
  split
  case isTrue isFirst =>
    refine ⟨?_, ?_, ⟨packet, came, rfl⟩, fun _ => isFirst.1⟩
    · rw [← same]
      exact entry.frags
    · rw [← same]
      exact entry.last
  case isFalse => exact entry

theorem updateHdr_offset :
    packet.hdr.offset &&& ipOffmask = 0 →
      (IpReass.updateHdr packet.hdr ipr).iphdr.offset &&& ipOffmask = 0 := by
  intro isFirst
  unfold IpReass.updateHdr
  split
  · exact isFirst
  case isFalse keeps => exact not_not.mp fun other => keeps ⟨isFirst, other⟩

/-- The fragment is put into the list of its entry. -/
theorem chained (entry : EntryFrom received ipr) (came : packet ∈ received)
    (admitted : packet.Admitted) (same : ipr.iphdr.key = packet.hdr.key)
    (first : packet.hdr.offset &&& ipOffmask = 0 → ipr.iphdr.offset &&& ipOffmask = 0)
    {before behind : List ReassFrag} {clen : Nat} (split : ipr.p = before ++ behind) :
    EntryFrom received
      (IpReass.chained packet ipr (before ++ packet.frag clen :: behind)) where
  frags q isIn := by
    rw [IpReass.chained_p] at isIn
    rw [IpReass.chained_iphdr]
    rcases List.mem_append.mp isIn with inFront | inBack
    · exact entry.frags q (by rw [split]; exact List.mem_append_left _ inFront)
    · rcases List.mem_cons.mp inBack with rfl | later
      · exact ⟨packet, came, same.symm, rfl⟩
      · exact entry.frags q (by rw [split]; exact List.mem_append_right _ later)
  last flag := by
    rw [IpReass.chained_iphdr, IpReass.chained_p]
    unfold IpReass.chained at flag ⊢
    split
    case isTrue isLast =>
      exact ⟨packet, came, same.symm, isLast,
        ⟨clen, List.mem_append_right _ List.mem_cons_self⟩, admitted.frag_stop 0,
        admitted.last isLast⟩
    case isFalse more =>
      rw [if_neg more] at flag
      obtain ⟨last, lastCame, key, isLast, ⟨count, isIn⟩, length⟩ := entry.last flag
      rw [split] at isIn
      refine ⟨last, lastCame, key, isLast, ⟨count, ?_⟩, length⟩
      exact List.mem_append.mpr ((List.mem_append.mp isIn).imp_right (List.mem_cons_of_mem _))
  hdr := by
    rw [IpReass.chained_iphdr]
    exact entry.hdr
  start := by
    rw [IpReass.chained_iphdr, IpReass.chained_p]
    rintro ⟨q, isIn, start⟩
    rcases List.mem_append.mp isIn with inFront | inBack
    · exact entry.start ⟨q, by rw [split]; exact List.mem_append_left _ inFront, start⟩
    · rcases List.mem_cons.mp inBack with rfl | later
      · exact first ((IpHdr.offsetBytes_eq_zero _).mp start)
      · exact entry.start ⟨q, by rw [split]; exact List.mem_append_right _ later, start⟩

/-- Fragments that have come stand for the packets they came in. -/
theorem exists_parts {key : Ip4Addr × Ip4Addr × UInt16} {p : List ReassFrag}
    (frags : ∀ q ∈ p, ∃ packet ∈ received, packet.hdr.key = key ∧ q = packet.frag q.clen) :
    ∃ parts : List IpPacket, (∀ part ∈ parts, part ∈ received ∧ part.hdr.key = key) ∧
      parts.map IpPacket.piece = p.map ReassFrag.piece ∧
      parts.flatMap IpPacket.data = p.flatMap ReassFrag.data := by
  induction p with
  | nil => exact ⟨[], List.forall_mem_nil _, rfl, rfl⟩
  | cons q rest inductionHypothesis =>
    obtain ⟨packet, came, same, is⟩ := frags q List.mem_cons_self
    obtain ⟨parts, came', pieces, data⟩ := inductionHypothesis fun other isIn =>
      frags other (List.mem_cons_of_mem _ isIn)
    refine ⟨packet :: parts, ?_, ?_, ?_⟩
    · intro part isIn
      rcases List.mem_cons.mp isIn with rfl | later
      · exact ⟨came, same⟩
      · exact came' part later
    · rw [List.map_cons, List.map_cons, pieces, is]
      rfl
    · rw [List.flatMap_cons, List.flatMap_cons, data, is]
      rfl

/-- The packets that the fragments of an entry came in, with the one that gives the length. -/
theorem exists_last (entry : EntryFrom received ipr) (flag : ipr.lastFrag = true) :
    ∃ before last behind,
      (∀ part ∈ before ++ last :: behind, part ∈ received ∧ part.hdr.key = ipr.iphdr.key) ∧
        (before ++ last :: behind).map IpPacket.piece = ipr.p.map ReassFrag.piece ∧
        (before ++ last :: behind).flatMap IpPacket.data = ipr.p.flatMap ReassFrag.data ∧
        last.hdr.mf = false ∧ ipr.datagramLen.toNat = last.piece.stop ∧
        last.piece.stop + ipHlen < 2 ^ 16 := by
  obtain ⟨last, lastCame, lastKey, isLast, ⟨clen, isIn⟩, length⟩ := entry.last flag
  obtain ⟨front, back, split⟩ := List.append_of_mem isIn
  have frags := entry.frags
  rw [split] at frags
  obtain ⟨before, beforeCame, beforePieces, beforeData⟩ := exists_parts fun q isIn =>
    frags q (List.mem_append_left _ isIn)
  obtain ⟨behind, behindCame, behindPieces, behindData⟩ := exists_parts fun q isIn =>
    frags q (List.mem_append_right _ (List.mem_cons_of_mem _ isIn))
  refine ⟨before, last, behind, fun part isIn => ?_, ?_, ?_, isLast, length⟩
  · rcases List.mem_append.mp isIn with inFront | inBack
    · exact beforeCame part inFront
    · rcases List.mem_cons.mp inBack with rfl | later
      · exact ⟨lastCame, lastKey⟩
      · exact behindCame part later
  · rw [split, List.map_append, List.map_append, List.map_cons, List.map_cons, beforePieces,
      behindPieces]
    rfl
  · rw [split, List.flatMap_append, List.flatMap_append, List.flatMap_cons, List.flatMap_cons,
      beforeData, behindData]
    rfl

/-- A complete entry becomes a packet. -/
theorem assembled (entry : EntryFrom received ipr) (complete : IpReass.Complete ipr)
    (notEmpty : ipr.p ≠ []) : Assembled received (IpReass.assembled ipr) := by
  obtain ⟨flag, hi, tiles⟩ := complete
  have total : (IpReass.assembled ipr).data.length = hi := by
    have sum := tiles.length_joined
    rw [Nat.zero_add, joined, List.flatMap_map] at sum
    exact sum
  constructor
  case parts =>
    obtain ⟨before, last, behind, came, pieces, data, isLast, length, room⟩ :=
      entry.exists_last flag
    rw [← pieces] at tiles
    refine ⟨before, last, behind, came, by rwa [total], data.symm, isLast, ?_⟩
    change (ipr.datagramLen + UInt16.ofNat ipHlen).toNat = _
    rw [UInt16.toNat_add, length, length_upTo tiles, Nat.add_comm]
    exact Nat.mod_eq_of_lt (by rw [Nat.add_comm]; exact room)
  case header =>
    obtain ⟨first, firstCame, isFirst⟩ := entry.hdr
    refine ⟨first, firstCame, by rw [isFirst]; rfl, ?_, by rw [isFirst]; rfl⟩
    rw [isFirst]
    refine entry.start ?_
    cases p : ipr.p with
    | nil => exact absurd p notEmpty
    | cons q rest =>
      rw [p] at tiles
      exact ⟨q, List.mem_cons_self, UInt16.toNat_inj.mp tiles.1⟩

end EntryFrom

/-- What a run has made of the fragments that have come. -/
structure Traced (received : List IpPacket) (run : ReassRun) : Prop where
  ok : run.reass.Ok
  entries : ∀ ipr ∈ run.reass.reassdatagrams, EntryFrom received ipr
  delivered : ∀ out ∈ run.delivered, Assembled received out
  bytes : (run.delivered.map (·.data.length)).sum + heldBytes run.reass.reassdatagrams ≤
    (received.map (·.data.length)).sum
  failed : run.failed = false

/-- Entries that come from an entry list after a fragment was looked up. -/
theorem IpReass.Origin.entries {reass : IpReass} {mem : Bool}
    (origin : Origin reass packet.hdr mem front ipr back)
    (entries : ∀ ipr ∈ reass.reassdatagrams, EntryFrom received ipr) (came : packet ∈ received) :
    (∀ other ∈ front ++ ipr :: back, EntryFrom received other) ∧
      ipr.iphdr.key = packet.hdr.key ∧
      (packet.hdr.offset &&& ipOffmask = 0 → ipr.iphdr.offset &&& ipOffmask = 0) ∧
      heldBytes (front ++ ipr :: back) ≤ heldBytes reass.reassdatagrams := by
  cases origin with
  | fresh sublist _ _ =>
    refine ⟨fun other isIn => ?_, rfl, id, ?_⟩
    · rcases List.mem_cons.mp isIn with rfl | later
      · exact .fresh came
      · exact entries other (sublist.subset later)
    · rw [List.nil_append, heldBytes_cons]
      exact (Nat.zero_add _).le.trans (heldBytes_sublist sublist)
  | @old _ _ ipr split same =>
    refine ⟨fun other isIn => ?_, updateHdr_key same, EntryFrom.updateHdr_offset, ?_⟩
    · rcases List.mem_append.mp isIn with inFront | inBack
      · exact entries other (by rw [split]; exact List.mem_append_left _ inFront)
      · rcases List.mem_cons.mp inBack with rfl | later
        · refine EntryFrom.updateHdr (entries ipr ?_) came same
          rw [split]
          exact List.mem_append_right _ List.mem_cons_self
        · refine entries other ?_
          rw [split]
          exact List.mem_append_right _ (List.mem_cons_of_mem _ later)
    · rw [split, heldBytes_append, heldBytes_append, heldBytes_cons, heldBytes_cons, updateHdr_p]

/-- What becomes of a fragment comes from what has come. -/
theorem IpReass.Outcome.traced {clen : Nat} {list : List IpReassData} {out : Option IpPacket}
    (outcome : Outcome packet clen front ipr back list out)
    (entries : ∀ other ∈ front ++ ipr :: back, EntryFrom received other) (came : packet ∈ received)
    (same : ipr.iphdr.key = packet.hdr.key)
    (first : packet.hdr.offset &&& ipOffmask = 0 → ipr.iphdr.offset &&& ipOffmask = 0) :
    (∀ other ∈ list, EntryFrom received other) ∧ (∀ made ∈ out, Assembled received made) ∧
      (out.toList.map (·.data.length)).sum + heldBytes list ≤
        heldBytes (front ++ ipr :: back) + packet.data.length := by
  have others : ∀ other ∈ front ++ back, EntryFrom received other := fun other isIn =>
    entries other (List.mem_append.mpr
      ((List.mem_append.mp isIn).imp_right (List.mem_cons_of_mem _)))
  have own : EntryFrom received ipr :=
    entries ipr (List.mem_append_right _ List.mem_cons_self)
  cases outcome with
  | dropped _ empty kept =>
    by_cases none : ipr.p = []
    · rw [empty none]
      refine ⟨others, (by rintro _ ⟨⟩), ?_⟩
      rw [heldBytes_append, heldBytes_append, heldBytes_cons]
      change 0 + _ ≤ _
      omega
    · rw [kept none]
      refine ⟨entries, (by rintro _ ⟨⟩), ?_⟩
      change 0 + _ ≤ _
      omega
  | @queued before behind admitted split _ =>
    refine ⟨fun other isIn => ?_, (by rintro _ ⟨⟩), ?_⟩
    · rcases List.mem_append.mp isIn with inFront | inBack
      · exact others other (List.mem_append_left _ inFront)
      · rcases List.mem_cons.mp inBack with rfl | later
        · exact own.chained came admitted same first split
        · exact others other (List.mem_append_right _ later)
    · rw [heldBytes_append, heldBytes_append, heldBytes_cons, heldBytes_cons, chained_p,
        length_flatMap_insert, ← split]
      change 0 + (_ + (_ + packet.data.length + _)) ≤ _
      omega
  | @finished before behind admitted split complete =>
    refine ⟨others, ?_, ?_⟩
    · rintro _ ⟨⟩
      refine (own.chained came admitted same first split).assembled complete ?_
      rw [chained_p]
      exact List.append_ne_nil_of_right_ne_nil _ (List.cons_ne_nil _ _)
    · rw [heldBytes_append, heldBytes_append, heldBytes_cons]
      change (assembled _).data.length + 0 + _ ≤ _
      rw [IpReass.assembled, chained_p, length_flatMap_insert, ← split]
      change _ + packet.data.length + 0 + _ ≤ _
      omega

end Trace

/-- A packet with an offset or the more-fragments flag is not whole. -/
theorem IpHdr.part_of_offset {hdr : IpHdr} (part : hdr.offset &&& (ipOffmask ||| ipMf) ≠ 0) :
    hdr.offsetBytes = 0 → hdr.mf = true := by
  intro start
  refine decide_eq_true fun none => part ?_
  have low := hdr.offsetBytes_eq_zero.mp start
  have both : hdr.offset &&& (ipOffmask ||| ipMf) =
      (hdr.offset &&& ipOffmask) ||| (hdr.offset &&& ipMf) :=
    UInt16.toBitVec_inj.mp BitVec.and_or_distrib_left
  rw [both, low, none]
  rfl

namespace Traced

variable {received : List IpPacket} {run : ReassRun}

theorem init : Traced [] .init where
  ok := ⟨List.forall_mem_nil _, List.nodup_nil, rfl, Nat.zero_le _⟩
  entries := List.forall_mem_nil _
  delivered := List.forall_mem_nil _
  bytes := le_rfl
  failed := rfl

/-- Every event keeps the trace. -/
theorem step (traced : Traced received run) {event : ReassEvent} (enabled : run.enabled event) :
    Traced (received ++ event.packet.toList) (run.step event) := by
  cases event with
  | tmr =>
    obtain ⟨reass', is, ok', list⟩ := traced.ok.tmr
    rw [ReassRun.step, is]
    have frags : ∀ ipr ∈ reass'.reassdatagrams, EntryFrom received ipr := by
      intro ipr isIn
      rw [list] at isIn
      obtain ⟨old, isOld, rfl⟩ := List.mem_map.mp isIn
      have entry := traced.entries old (List.mem_of_mem_filter isOld)
      exact ⟨entry.frags, entry.last, entry.hdr, entry.start⟩
    have bytes : heldBytes reass'.reassdatagrams ≤ heldBytes run.reass.reassdatagrams := by
      rw [list, heldBytes, List.map_map]
      exact heldBytes_sublist (List.filter_sublist)
    have before := traced.bytes
    simp only [ReassEvent.packet, Option.toList_none, List.append_nil]
    exact ⟨ok', frags, traced.delivered, (Nat.add_le_add_left bytes _).trans before, traced.failed⟩
  | fragment packet clen mem =>
    obtain ⟨_, part, _, len, _, _⟩ := enabled
    obtain ⟨reass', out, is, ok', effect⟩ :=
      traced.ok.ip4Reass clen len (IpHdr.part_of_offset part) mem
    rw [ReassRun.step, is]
    simp only [ReassEvent.packet, Option.toList_some]
    have more : received ⊆ received ++ [packet] := List.subset_append_left _ _
    have came : packet ∈ received ++ [packet] :=
      List.mem_append_right _ List.mem_cons_self
    have before : ∀ ipr ∈ run.reass.reassdatagrams, EntryFrom (received ++ [packet]) ipr :=
      fun ipr isIn => (traced.entries ipr isIn).mono more
    have old : ∀ made ∈ run.delivered, Assembled (received ++ [packet]) made :=
      fun made isIn => (traced.delivered made isIn).mono more
    have bytes := traced.bytes
    have total : ((received ++ [packet]).map (·.data.length)).sum =
        (received.map (·.data.length)).sum + packet.data.length := by
      rw [List.map_append, List.sum_append]
      rfl
    cases effect with
    | ignored sublist _ _ =>
      have held := heldBytes_sublist sublist
      rw [Option.toList_none, List.append_nil]
      refine ⟨ok', fun ipr isIn => before ipr (sublist.subset isIn), old, ?_, traced.failed⟩
      rw [total]
      have kept := (Nat.add_le_add_left held (run.delivered.map (·.data.length)).sum).trans bytes
      exact kept.trans (Nat.le_add_right _ _)
    | taken _ sublist _ origin outcome =>
      obtain ⟨entries, same, first, held⟩ :=
        origin.entries (fun ipr isIn => before ipr (sublist.subset isIn)) came
      obtain ⟨entries', made, held'⟩ := outcome.traced entries came same first
      have less := heldBytes_sublist sublist
      refine ⟨ok', entries', fun made' isIn => ?_, ?_, traced.failed⟩
      · rcases List.mem_append.mp isIn with before | now
        · exact old made' before
        · exact made made' (Option.mem_toList.mp now)
      · rw [total, List.map_append, List.sum_append]
        change _ + _ + heldBytes reass'.reassdatagrams ≤ _
        omega

/-- Every run can be traced. -/
theorem runs {start : ReassRun} (traced : Traced received start) {events : List ReassEvent}
    (legal : reassSystem.Legal start events) :
    Traced (received ++ events.filterMap ReassEvent.packet) (reassSystem.run events start) := by
  induction events generalizing received start with
  | nil => rwa [List.filterMap_nil, List.append_nil]
  | cons event rest inductionHypothesis =>
    obtain ⟨enabled, later⟩ := (reassSystem.legal_cons start event rest).mp legal
    have traced' := inductionHypothesis (traced.step enabled) later
    rw [List.append_assoc] at traced'
    cases packet : event.packet with
    | none =>
      rw [List.filterMap_cons_none packet]
      rwa [packet] at traced'
    | some packet' =>
      rw [List.filterMap_cons_some packet]
      rwa [packet] at traced'

end Traced

/-- Whatever fragments come and however they overlap: no assertion of the reassembly fails, it
never keeps more pbufs than `IP_REASS_MAX_PBUFS`, it has one entry for each packet, and the
fragments of an entry are in order without overlaps. -/
theorem reassembly_in_order (events : List ReassEvent) (legal : reassSystem.Legal .init events) :
    let run := reassSystem.run events .init
    run.failed = false ∧ run.reass.pbufcount ≤ ipReassMaxPbufs ∧
      run.reass.pbufcount = IpReass.kept run.reass.reassdatagrams ∧
      (run.reass.reassdatagrams.map fun ipr => ipr.iphdr.key).Nodup ∧
      ∀ ipr ∈ run.reass.reassdatagrams, EntryOk ipr := by
  have traced := Traced.init.runs legal
  exact ⟨traced.failed, traced.ok.room, traced.ok.count, traced.ok.keys, traced.ok.entries⟩

/-- A fragment of a packet from 10.0.0.1 to 10.0.0.2. -/
def fragmentAt (offset : UInt16) (data : Bytes) : IpPacket :=
  ⟨⟨0x45, 0, UInt16.ofNat (ipHlen + data.length), 1, offset, 64, 17, 0, ⟨0x0100000a⟩, ⟨0x0200000a⟩⟩,
    data⟩

/-- The last fragment comes first, then one that starts together with it, and the first one a
second later. -/
def overlappingFragments : List ReassEvent :=
  [.fragment (fragmentAt 1 [9, 10]) 1 (true, true),
    .fragment (fragmentAt 0x2001 [0, 0, 0, 0, 0, 0, 0, 0]) 1 (true, true), .tmr,
    .fragment (fragmentAt 0x2000 [1, 2, 3, 4, 5, 6, 7, 8]) 1 (true, true)]

theorem reassembly_in_order_overlapping :
    (reassSystem.run overlappingFragments .init).failed = false :=
  (reassembly_in_order overlappingFragments (by decide)).1

/-- Every packet that the reassembly passes on consists of fragments of one packet that have come,
which follow one another from its first byte on, under the header of one of them. The length in it
is the one up to the end of a last fragment: that of the packet, unless a fragment ends behind a
last one. It never passes on more bytes than have come. -/
theorem reassembled_from_received (events : List ReassEvent)
    (legal : reassSystem.Legal .init events) :
    let run := reassSystem.run events .init
    let received := events.filterMap ReassEvent.packet
    (∀ out ∈ run.delivered, Assembled received out ∧
      (EndsAtLast received out.hdr.key → out.hdr.len.toNat = ipHlen + out.data.length)) ∧
      (run.delivered.map (·.data.length)).sum + heldBytes run.reass.reassdatagrams ≤
        (received.map (·.data.length)).sum := by
  have traced := Traced.init.runs legal
  exact ⟨fun out isIn => ⟨traced.delivered out isIn, (traced.delivered out isIn).length⟩,
    traced.bytes⟩

theorem reassembled_from_received_overlapping :
    (∀ out ∈ (reassSystem.run overlappingFragments .init).delivered,
      Assembled (overlappingFragments.filterMap ReassEvent.packet) out) ∧
      ((reassSystem.run overlappingFragments .init).delivered.map (·.data.length)).sum ≤ 18 := by
  have received := reassembled_from_received overlappingFragments (by decide)
  exact ⟨fun out isIn => (received.1 out isIn).1, (Nat.le_add_right _ _).trans received.2⟩

example : (reassSystem.run overlappingFragments .init).delivered.map IpPacket.data =
    [[1, 2, 3, 4, 5, 6, 7, 8, 9, 10]] := by decide

-- A fragment that is not the last one ends 8 bytes behind the last one.
example : (reassSystem.run
    [.fragment (fragmentAt 1 (List.replicate 8 2)) 1 (true, true),
      .fragment (fragmentAt 0x2002 (List.replicate 8 3)) 1 (true, true),
      .fragment (fragmentAt 0x2000 (List.replicate 8 1)) 1 (true, true)] .init).delivered.map
    (fun out => (out.hdr.len.toNat, out.data.length)) = [(ipHlen + 16, 24)] := by decide

end Net2Tr
