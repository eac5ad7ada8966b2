import OfferAnswer.Ip.Text
import OfferAnswer.Proofs.Text.Words

/-!
# Addresses are read back

Every address is read back from its written form. For IPv4 that is a matter of four numerals. An
IPv6 address is written in one of three forms, and each takes another way through the reader: eight
groups fill the room, a double colon stops the first run of groups, and behind the prefix of an
IPv4-mapped address the second run ends in an IPv4 form.

The reader tries an IPv4 form at every group. What keeps the two apart is the point: without one in
the text, no IPv4 form is found.
-/

namespace OfferAnswer

open Numeral (decimalChars hexChars hexValue?)

variable {cs rest : List Char}

/-! ## IPv4 -/

namespace Ipv4

theorem readByte_decimalChars (b : UInt8) (hrest : ∀ c ∈ rest.head?, c.isDigit = false) :
    readByte (decimalChars b.toNat ++ rest) = some (b, rest) := by
  have hdigits : ∀ c ∈ decimalChars b.toNat, c.isDigit = true :=
    fun c ↦ Numeral.isDigit_of_mem_decimalChars
  have hlength : (decimalChars b.toNat).length ≤ 3 := by
    rw [decimalChars, List.length_map]
    have hb := b.toNat_lt_size
    exact Numeral.length_digits_le (by decide) (by decide) (Nat.lt_trans hb (by decide))
  have hlead : ¬((decimalChars b.toNat).head? = some '0' ∧ 1 < (decimalChars b.toNat).length) := by
    rintro ⟨hhead, hlong⟩
    rw [Numeral.decimalChars_of_head hhead] at hlong
    exact absurd hlong (by decide)
  have hgood : ¬(decimalChars b.toNat = [] ∨ 3 < (decimalChars b.toNat).length ∨
      ((decimalChars b.toNat).head? = some '0' ∧ 1 < (decimalChars b.toNat).length) ∨
        256 ≤ b.toNat) := by
    rintro (hnil | hlong | hzero | hbig)
    · exact Numeral.decimalChars_ne_nil _ hnil
    · exact absurd hlength (Nat.not_le.mpr hlong)
    · exact hlead hzero
    · exact absurd b.toNat_lt_size (Nat.not_lt.mpr hbig)
  rw [readByte, Text.takeWhile_append hdigits hrest, Text.dropWhile_append hdigits hrest,
    Numeral.decimalValue_decimalChars, if_neg hgood, UInt8.ofNat_toNat]

theorem chars_eq (x : Ipv4) : x.chars = decimalChars x.a.toNat ++ ('.' ::
    (decimalChars x.b.toNat ++ ('.' :: (decimalChars x.c.toNat ++
      ('.' :: decimalChars x.d.toNat))))) := by
  simp [chars, Text.joinWith]

/-- An address is read up to a character that is no digit. -/
theorem read_chars (x : Ipv4) (hrest : ∀ c ∈ rest.head?, c.isDigit = false) :
    read (x.chars ++ rest) = some (x, rest) := by
  have hpoint : ∀ cs : List Char, ∀ c ∈ ('.' :: cs).head?, c.isDigit = false := by
    rintro cs _ ⟨rfl⟩
    decide
  rw [chars_eq]
  simp only [read, List.append_assoc, List.cons_append, readByte_decimalChars _ (hpoint _),
    readPointByte, readByte_decimalChars _ hrest, Option.bind_eq_bind, Option.bind_some]
  rfl

theorem readByte_of_head (h : ∀ c ∈ cs.head?, c.isDigit = false) : readByte cs = none := by
  have hnone : cs.takeWhile Char.isDigit = [] := by
    have htake := Text.takeWhile_append (w := []) (p := Char.isDigit) nofun h
    exact htake
  rw [readByte, hnone]
  rfl

theorem read_of_head (h : ∀ c ∈ cs.head?, c.isDigit = false) : read cs = none := by
  rw [read, readByte_of_head h]
  rfl

/-- Without a point in the text, there is no address at its front. -/
theorem read_of_notMem (h : '.' ∉ cs) : read cs = none := by
  rw [read]
  cases hbyte : readByte cs with
  | none => rfl
  | some r =>
    have hrest : r.2 = cs.dropWhile Char.isDigit := by
      rw [readByte] at hbyte
      split at hbyte
      · cases hbyte
      · cases hbyte
        rfl
    have hpoint : readPointByte r.2 = none := by
      rw [hrest, readPointByte.eq_def]
      split
      · rename_i hcs
        have hmem : '.' ∈ cs.dropWhile Char.isDigit := hcs ▸ List.mem_cons_self
        exact absurd ((List.dropWhile_sublist _).subset hmem) h
      · rfl
    simp only [Option.bind_eq_bind, Option.bind_some, hpoint, Option.bind_none]

end Ipv4

/-! ## Groups -/

namespace Ipv6

variable {g : UInt16} {gs : List UInt16} {room : Nat} {first : Bool}

/-- Whether a text, unless it is empty, begins with something that is no hexadecimal digit. -/
def EndsGroup (cs : List Char) : Prop := ∀ c ∈ cs.head?, (hexValue? c).isSome = false

theorem endsGroup_nil : EndsGroup [] := nofun

theorem endsGroup_colon (cs : List Char) : EndsGroup (':' :: cs) := by
  rintro _ ⟨rfl⟩
  decide

theorem EndsGroup.isDigit_eq (h : EndsGroup cs) : ∀ c ∈ cs.head?, c.isDigit = false := by
  intro c hc
  have hnone := h c hc
  rw [hexValue?] at hnone
  split at hnone
  · cases hnone
  · rename_i hdigit
    exact Bool.not_eq_true _ ▸ hdigit

theorem readGroup_hexChars (g : UInt16) (hrest : EndsGroup rest) :
    readGroup (hexChars g.toNat ++ rest) = some (g, rest) := by
  have hhex : ∀ c ∈ hexChars g.toNat, (hexValue? c).isSome = true :=
    fun c ↦ Numeral.isHex_of_mem_hexChars
  have hlength : (Numeral.digits 16 g.toNat).length ≤ 4 :=
    Numeral.length_digits_le (by decide) (by decide)
      (Nat.lt_of_lt_of_eq g.toNat_lt_size (by decide))
  have hgood : ¬(Numeral.digits 16 g.toNat = [] ∨ 4 < (Numeral.digits 16 g.toNat).length) := by
    rintro (hnil | hlong)
    · exact Numeral.digits_ne_nil (by decide) _ hnil
    · exact absurd hlength (Nat.not_le.mpr hlong)
  rw [readGroup, Text.takeWhile_append hhex hrest, Text.dropWhile_append hhex hrest,
    Numeral.filterMap_hexChars, if_neg hgood, Numeral.value_digits (by decide), UInt16.ofNat_toNat]

theorem readGroup_of_ends (h : EndsGroup cs) : readGroup cs = none := by
  have hnone : cs.takeWhile (fun c ↦ (hexValue? c).isSome) = [] :=
    Text.takeWhile_append (w := []) nofun h
  rw [readGroup, hnone]
  rfl

theorem readGroups_of_ends (h : ∀ body, readColon first cs = some body → EndsGroup body) :
    readGroups room first cs = ⟨[], false, cs⟩ := by
  cases room with
  | zero => rfl
  | succ room =>
    rw [readGroups]
    cases hbody : readColon first cs with
    | none => simp
    | some body =>
      have hends := h body hbody
      simp [Ipv4.read_of_head hends.isDigit_eq, readGroup_of_ends hends]

theorem readGroups_nil (room : Nat) (first : Bool) :
    readGroups room first [] = ⟨[], false, []⟩ := by
  refine readGroups_of_ends fun body hbody ↦ ?_
  cases first
  · cases hbody
  · cases hbody
    exact endsGroup_nil

theorem readGroups_colons (room : Nat) (first : Bool) (cs : List Char) :
    readGroups room first (':' :: ':' :: cs) = ⟨[], false, ':' :: ':' :: cs⟩ := by
  refine readGroups_of_ends fun body hbody ↦ ?_
  cases first <;>
  · cases hbody
    exact endsGroup_colon _

theorem point_notMem_hexChars (n : Nat) : '.' ∉ hexChars n :=
  fun h ↦ absurd (Numeral.isHex_of_mem_hexChars h) (by decide)

theorem colon_notMem_hexChars (n : Nat) : ':' ∉ hexChars n :=
  fun h ↦ absurd (Numeral.isHex_of_mem_hexChars h) (by decide)

theorem readGroups_cons (hcolon : readColon first cs = some (hexChars g.toNat ++ rest))
    (hrest : EndsGroup rest) (hpoint : '.' ∉ rest) : readGroups (room + 1) first cs =
      { readGroups room false rest with groups := g :: (readGroups room false rest).groups } := by
  have hfour : Ipv4.read (hexChars g.toNat ++ rest) = none :=
    Ipv4.read_of_notMem (List.not_mem_append (point_notMem_hexChars _) hpoint)
  rw [readGroups, hcolon, Option.bind_some, Option.bind_some, hfour, ite_self,
    readGroup_hexChars g hrest]

/-- Groups behind the first, each with a colon in front. -/
def moreChars (gs : List UInt16) : List Char := gs.flatMap fun g ↦ ':' :: hexChars g.toNat

theorem groupChars_cons (g : UInt16) (gs : List UInt16) :
    groupChars (g :: gs) = hexChars g.toNat ++ moreChars gs := by
  rw [groupChars, List.map_cons, Text.joinWith_cons, List.flatMap_map]
  rfl

theorem point_notMem_moreChars (gs : List UInt16) : '.' ∉ moreChars gs := by
  intro h
  obtain ⟨g, -, hg⟩ := List.mem_flatMap.mp h
  rcases List.mem_cons.mp hg with hg | hg
  · exact absurd hg (by decide)
  · exact point_notMem_hexChars _ hg

theorem point_notMem_groupChars (gs : List UInt16) : '.' ∉ groupChars gs := by
  cases gs with
  | nil => exact List.not_mem_nil
  | cons g gs =>
    rw [groupChars_cons]
    exact List.not_mem_append (point_notMem_hexChars _) (point_notMem_moreChars gs)

theorem endsGroup_moreChars (gs : List UInt16) (hrest : EndsGroup rest) :
    EndsGroup (moreChars gs ++ rest) := by
  cases gs with
  | nil => exact hrest
  | cons g gs => exact endsGroup_colon _

/-- Groups are read as long as there is room, up to where none follows. -/
theorem readGroups_moreChars (hroom : gs.length ≤ room) (hrest : EndsGroup rest)
    (hpoint : '.' ∉ rest)
    (hstop : ∀ room, readGroups room false rest = ⟨[], false, rest⟩) :
    readGroups room false (moreChars gs ++ rest) = ⟨gs, false, rest⟩ := by
  induction gs generalizing room with
  | nil => exact hstop room
  | cons g gs ih =>
    cases room with
    | zero => exact absurd hroom (Nat.not_succ_le_zero _)
    | succ room =>
      have hmore : moreChars (g :: gs) ++ rest =
          ':' :: (hexChars g.toNat ++ (moreChars gs ++ rest)) := by
        simp [moreChars]
      rw [hmore, readGroups_cons rfl (endsGroup_moreChars gs hrest)
        (List.not_mem_append (point_notMem_moreChars gs) hpoint), ih (Nat.le_of_succ_le_succ hroom)]

theorem readGroups_groupChars (hroom : gs.length ≤ room) (hrest : EndsGroup rest)
    (hpoint : '.' ∉ rest)
    (hstop : ∀ room first, readGroups room first rest = ⟨[], false, rest⟩) :
    readGroups room true (groupChars gs ++ rest) = ⟨gs, false, rest⟩ := by
  cases gs with
  | nil => exact hstop room true
  | cons g gs =>
    cases room with
    | zero => exact absurd hroom (Nat.not_succ_le_zero _)
    | succ room =>
      have hcolon : readColon true (hexChars g.toNat ++ (moreChars gs ++ rest)) =
          some (hexChars g.toNat ++ (moreChars gs ++ rest)) := by
        obtain ⟨c, cs, hcs⟩ := List.exists_cons_of_ne_nil (Numeral.hexChars_ne_nil g.toNat)
        have hc : c ≠ ':' := fun hc ↦ colon_notMem_hexChars g.toNat (hcs ▸ hc ▸ List.mem_cons_self)
        rw [hcs, readColon.eq_def]
        split
        · rename_i heq
          exact absurd (List.cons.inj heq).1 hc
        · rfl
      rw [groupChars_cons, List.append_assoc, readGroups_cons hcolon
        (endsGroup_moreChars gs hrest) (List.not_mem_append (point_notMem_moreChars gs) hpoint),
        readGroups_moreChars (Nat.le_of_succ_le_succ hroom) hrest hpoint
          fun room ↦ hstop room false]

/-! ## The three forms -/

theorem zeroRun_spec (gs : List UInt16) :
    (zeroRun gs).2 = zerosAt gs (zeroRun gs).1 ∨ (zeroRun gs).2 = 0 := by
  have hfold : ∀ (is : List Nat) (best : Nat × Nat), best.2 = zerosAt gs best.1 ∨ best.2 = 0 →
      (is.foldl (fun best i ↦ if best.2 < zerosAt gs i then (i, zerosAt gs i) else best) best).2 =
        zerosAt gs (is.foldl
          (fun best i ↦ if best.2 < zerosAt gs i then (i, zerosAt gs i) else best) best).1 ∨
      (is.foldl (fun best i ↦ if best.2 < zerosAt gs i then (i, zerosAt gs i) else best) best).2 =
        0 := by
    intro is
    induction is with
    | nil => exact fun best hbest ↦ hbest
    | cons i is ih =>
      intro best hbest
      refine ih _ ?_
      dsimp only
      split
      · exact Or.inl rfl
      · exact hbest
  exact hfold _ _ (Or.inr rfl)

theorem zerosAt_le (gs : List UInt16) (i : Nat) : zerosAt gs i ≤ gs.length - i := by
  rw [zerosAt, ← List.length_drop]
  exact (List.takeWhile_prefix _).length_le

/-- Groups are those before a run of zeros, the zeros, and those behind it. -/
theorem take_append_zeros (gs : List UInt16) (i : Nat) :
    gs.take i ++ List.replicate (zerosAt gs i) 0 ++ gs.drop (i + zerosAt gs i) = gs := by
  have hzeros : (gs.drop i).takeWhile (· == 0) = List.replicate (zerosAt gs i) 0 :=
    List.eq_replicate_iff.mpr
      ⟨rfl, fun g hg ↦ eq_of_beq (List.all_eq_true.mp List.all_takeWhile g hg)⟩
  have htake : (gs.drop i).take (zerosAt gs i) = List.replicate (zerosAt gs i) 0 := by
    rw [← hzeros]
    exact (List.prefix_iff_eq_take.mp (List.takeWhile_prefix _)).symm
  rw [← htake, List.append_assoc, ← List.drop_drop, List.take_append_drop, List.take_append_drop]

theorem ofEnds?_eq {x : Ipv6} {front back : List UInt16}
    (h : front ++ List.replicate (8 - front.length - back.length) 0 ++ back = x.groups) :
    ofEnds? front back = some x := by
  rw [ofEnds?, dif_pos (h ▸ x.length_eq)]
  cases x with
  | mk groups hlength => rw [Option.some_inj, mk.injEq, h]

theorem groups_of_mapped? {x : Ipv6} {y : Ipv4} (h : x.mapped? = some y) :
    x.groups = [0, 0, 0, 0, 0] ++ 0xFFFF :: y.groups := by
  rw [mapped?] at h
  split at h
  · rename_i g h' hgroups
    have hword : ∀ w : UInt16, UInt16.ofNat ((UInt8.ofNat (w.toNat / 256)).toNat * 256 +
        (UInt8.ofNat (w.toNat % 256)).toNat) = w := by
      intro w
      have hw := w.toNat_lt_size
      have hparts :
          (UInt8.ofNat (w.toNat / 256)).toNat * 256 + (UInt8.ofNat (w.toNat % 256)).toNat =
          w.toNat := by
        simp only [UInt8.toNat_ofNat', UInt16.size] at hw ⊢
        omega
      rw [hparts, UInt16.ofNat_toNat]
    cases h
    rw [hgroups, Ipv4.groups, hword g, hword h']
    rfl
  · cases h

theorem read_mapped {x : Ipv6} {y : Ipv4} (h : x.mapped? = some y) :
    read ("::ffff:".toList ++ y.chars) = some (x, []) := by
  have hfront : readGroups 8 true ("::ffff:".toList ++ y.chars) =
      ⟨[], false, "::ffff:".toList ++ y.chars⟩ := readGroups_colons 8 true _
  have hfour : Ipv4.read y.chars = some (y, []) := by
    have hread : Ipv4.read (y.chars ++ []) = some (y, []) := y.read_chars nofun
    rwa [List.append_nil] at hread
  have hlast : readGroups 6 false (':' :: y.chars) = ⟨y.groups, true, []⟩ := by
    rw [readGroups, readColon]
    simp [hfour]
  have hback : readGroups 7 true ("ffff:".toList ++ y.chars) = ⟨0xFFFF :: y.groups, true, []⟩ := by
    have hnone : Ipv4.read ("ffff:".toList ++ y.chars) = none := Ipv4.read_of_head (by
      rintro _ ⟨rfl⟩
      decide)
    have hgroup : readGroup ("ffff:".toList ++ y.chars) = some (0xFFFF, ':' :: y.chars) :=
      rfl
    have hcolon : readColon true ("ffff:".toList ++ y.chars) = some ("ffff:".toList ++ y.chars) :=
      rfl
    rw [readGroups, hcolon, Option.bind_some, Option.bind_some, hnone, ite_self, hgroup]
    dsimp only
    rw [hlast]
  have hends : ofEnds? [] (0xFFFF :: y.groups) = some x := ofEnds?_eq (groups_of_mapped? h).symm
  rw [read, hfront]
  change (ofEnds? [] (readGroups 7 true ("ffff:".toList ++ y.chars)).groups).map
    (·, (readGroups 7 true ("ffff:".toList ++ y.chars)).rest) = _
  rw [hback, hends]
  rfl

theorem read_plain (x : Ipv6) : read (groupChars x.groups) = some (x, []) := by
  have hgroups : readGroups 8 true (groupChars x.groups ++ []) = ⟨x.groups, false, []⟩ :=
    readGroups_groupChars (Nat.le_of_eq x.length_eq) endsGroup_nil nofun readGroups_nil
  have hends : ofEnds? x.groups [] = some x := by
    refine ofEnds?_eq ?_
    rw [x.length_eq]
    simp
  rw [List.append_nil] at hgroups
  rw [read, hgroups]
  dsimp only
  rw [if_pos x.length_eq, hends]
  rfl

/-- Around a double colon, what was written is read. -/
theorem read_ends {x : Ipv6} {front back : List UInt16} (hroom : front.length + back.length ≤ 7)
    (h : front ++ List.replicate (8 - front.length - back.length) 0 ++ back = x.groups) :
    read (groupChars front ++ [':', ':'] ++ groupChars back) = some (x, []) := by
  have hpoint : '.' ∉ [':', ':'] ++ groupChars back :=
    List.not_mem_append (by decide) (point_notMem_groupChars back)
  have hfront : readGroups 8 true (groupChars front ++ ([':', ':'] ++ groupChars back)) =
      ⟨front, false, [':', ':'] ++ groupChars back⟩ :=
    readGroups_groupChars (by omega) (endsGroup_colon _) hpoint
      fun room first ↦ readGroups_colons room first _
  have hback : readGroups (7 - front.length) true (groupChars back ++ []) = ⟨back, false, []⟩ :=
    readGroups_groupChars (by omega) endsGroup_nil nofun readGroups_nil
  rw [List.append_nil] at hback
  rw [List.append_assoc, read, hfront]
  dsimp only
  rw [if_neg (by omega), if_neg Bool.false_ne_true]
  change (ofEnds? front (readGroups (7 - front.length) true (groupChars back)).groups).map
    (·, (readGroups (7 - front.length) true (groupChars back)).rest) = _
  rw [hback, ofEnds?_eq h]
  rfl

/-- **An IPv6 address is read back.** -/
theorem read_chars (x : Ipv6) : read x.chars = some (x, []) := by
  rw [chars]
  cases hmapped : x.mapped? with
  | some y => exact read_mapped hmapped
  | none =>
    dsimp only
    split
    · rename_i hlong
      have hzeros := (zeroRun_spec x.groups).resolve_right (by omega)
      have hlength := zerosAt_le x.groups (zeroRun x.groups).1
      rw [x.length_eq] at hlength
      have hfront : (x.groups.take (zeroRun x.groups).1).length = (zeroRun x.groups).1 := by
        rw [List.length_take, x.length_eq]
        omega
      have hback : (x.groups.drop ((zeroRun x.groups).1 + (zeroRun x.groups).2)).length =
          8 - ((zeroRun x.groups).1 + (zeroRun x.groups).2) := by
        rw [List.length_drop, x.length_eq]
      refine read_ends (by omega) ?_
      have hmiddle :
          8 - (zeroRun x.groups).1 - (8 - ((zeroRun x.groups).1 + (zeroRun x.groups).2)) =
          zerosAt x.groups (zeroRun x.groups).1 := by
        omega
      rw [hfront, hback, hmiddle, hzeros]
      exact take_append_zeros x.groups _
    · exact read_plain x

/-- No IPv6 address looks like an IPv4 one. -/
theorem read_four_chars (x : Ipv6) : Ipv4.read x.chars = none := by
  rw [chars]
  cases hmapped : x.mapped? with
  | some y =>
    refine Ipv4.read_of_head ?_
    rintro _ ⟨rfl⟩
    decide
  | none =>
    refine Ipv4.read_of_notMem ?_
    dsimp only
    split
    · refine List.not_mem_append (List.not_mem_append (point_notMem_groupChars _) (by decide)) ?_
      exact point_notMem_groupChars _
    · exact point_notMem_groupChars _

end Ipv6

/-! ## Addresses -/

/-- **An address is read back.** -/
theorem IpAddress.ofText?_text (x : IpAddress) : ofText? x.text = some x := by
  rw [ofText?, text, String.toList_ofList, ofChars?, chars.eq_def]
  cases x with
  | v4 x =>
    have hread : Ipv4.read (x.chars ++ []) = some (x, []) := x.read_chars nofun
    rw [List.append_nil] at hread
    dsimp only
    rw [hread]
    rfl
  | v6 x =>
    dsimp only
    rw [x.read_four_chars, x.read_chars]
    rfl

end OfferAnswer
