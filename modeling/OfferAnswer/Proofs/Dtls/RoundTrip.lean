import OfferAnswer.Dtls.Fingerprint
import OfferAnswer.Proofs.Sdp.RoundTrip

/-!
# Fingerprints are read back

A digest is written in upper case and read in either case, so a text is not determined by what is
read from it. It is determined up to the case of the digest: `Fingerprint.ofText?_eq_some_iff` says
of every text what is read from it, in terms of the written form. A digit that is missing or too
many, a separator with no pair behind it and a digest without a pair are in no written form, so
nothing is read from a text that has one.

The case of the name counts. It is a word like any other, and is kept as it stands.
-/

namespace OfferAnswer

open Text (Filled)

/-! ## Words in front -/

namespace Text

variable {s : String} {w cs rest : List Char}

theorem append_of_readWord (h : readWord cs = some (w, rest)) : w ++ rest = cs := by
  rw [readWord] at h
  split at h
  · cases h
  · cases h
    exact List.takeWhile_append_dropWhile

theorem space_notMem_firstWord (s : String) : ' ' ∉ (firstWord s).toList := by
  intro hmem
  rw [firstWord, String.toList_ofList, before] at hmem
  have hne := List.mem_takeWhile_imp hmem
  exact of_decide_eq_true hne rfl

theorem firstWord_append_afterFirstWord (h : afterFirstWord s ≠ "") :
    firstWord s ++ " " ++ afterFirstWord s = s := by
  have hspace : ' ' ∈ s.toList := by
    by_contra hnone
    apply h
    rw [afterFirstWord, after, List.dropWhile_eq_nil_iff.mpr, List.drop_nil, String.ofList_nil]
    intro c hc
    exact decide_eq_true fun heq ↦ hnone (heq ▸ hc)
  obtain ⟨w, rest, hs, hw⟩ := List.eq_append_cons_of_mem hspace
  rw [← String.toList_inj, String.toList_append, String.toList_append, firstWord, afterFirstWord,
    String.toList_ofList, String.toList_ofList, hs, before_append hw, after_append hw]
  simp

/-- Letters a to z in upper case, all else as it is. -/
def upper (s : String) : String := String.ofList (s.toList.map Char.toUpper)

@[simp] theorem toList_upper (s : String) : (upper s).toList = s.toList.map Char.toUpper :=
  String.toList_ofList

end Text

/-! ## Digits of either case -/

namespace Numeral

variable {c h l : Char} {d : Nat} {b : UInt8}

theorem toNat_lt_of_hexValue? (hc : hexValue? c = some d) : c.toNat < 128 := by
  have hrange {top : Char} (htop : c ≤ top) (hlt : top.toNat < 128) : c.toNat < 128 :=
    Nat.lt_of_le_of_lt (UInt32.le_iff_toNat_le.mp htop) hlt
  rw [hexValue?] at hc
  split at hc
  · rename_i hdigit
    exact Text.toNat_lt_of_isAlphanum (by rw [Char.isAlphanum, hdigit, Bool.or_true])
  · split at hc
    · rename_i hlower
      exact hrange hlower.2 (by decide)
    · split at hc
      · rename_i hupper
        exact hrange hupper.2 (by decide)
      · cases hc

theorem toUpper_of_le (hc : 128 ≤ c.toNat) : c.toUpper = c := by
  rw [Char.toUpper, dif_neg]
  rintro ⟨-, hz⟩
  have hlt : c.toNat ≤ 122 := UInt32.le_iff_toNat_le.mp hz
  omega

/-- What a table shows of ASCII, and what holds beyond, holds of every character. -/
theorem forall_of_table {P : Char → Prop} (htable : ∀ n : Fin 128, P (Char.ofNat n))
    (hbeyond : ∀ c : Char, 128 ≤ c.toNat → P c) (c : Char) : P c := by
  rcases Nat.lt_or_ge c.toNat 128 with hc | hc
  · have hentry := htable ⟨c.toNat, hc⟩
    rwa [Char.ofNat_toNat] at hentry
  · exact hbeyond c hc

theorem hexValue?_hexCharUpper (hd : d < 16) : hexValue? (hexCharUpper d) = some d := by
  have htable : ∀ d : Fin 16, hexValue? (hexCharUpper d) = some d.val := by decide
  exact htable ⟨d, hd⟩

theorem hexValue?_toUpper (c : Char) : hexValue? c.toUpper = hexValue? c := by
  refine forall_of_table (P := fun c ↦ hexValue? c.toUpper = hexValue? c) (by decide)
    (fun c hc ↦ ?_) c
  rw [toUpper_of_le hc]

theorem toUpper_eq_colon_iff : c.toUpper = ':' ↔ c = ':' := by
  refine forall_of_table (P := fun c ↦ c.toUpper = ':' ↔ c = ':') (by decide) (fun c hc ↦ ?_) c
  rw [toUpper_of_le hc]

/-- What denotes a digit is, in upper case, the character that is written for it. -/
theorem hexValue?_eq_some_iff :
    hexValue? c = some d ↔ d < 16 ∧ c.toUpper = hexCharUpper d := by
  constructor
  · refine forall_of_table (P := fun c ↦ ∀ d ∈ hexValue? c, d < 16 ∧ c.toUpper = hexCharUpper d)
      (by decide) (fun c hc d hd ↦ ?_) c d
    exact absurd (toNat_lt_of_hexValue? hd) (Nat.not_lt.mpr hc)
  · rintro ⟨hd, hc⟩
    rw [← hexValue?_toUpper, hc, hexValue?_hexCharUpper hd]

/-- Two characters are, in upper case, what is written for the byte that they denote. -/
theorem eq_byteChars_iff : [h.toUpper, l.toUpper] = byteChars b ↔
    ∃ x y, hexValue? h = some x ∧ hexValue? l = some y ∧ b = UInt8.ofNat (16 * x + y) := by
  have hb := b.toNat_lt
  rw [byteChars, List.cons.injEq, List.cons.injEq]
  constructor
  · rintro ⟨hh, hl, -⟩
    refine ⟨b.toNat / 16, b.toNat % 16, hexValue?_eq_some_iff.mpr ⟨by omega, hh⟩,
      hexValue?_eq_some_iff.mpr ⟨by omega, hl⟩, ?_⟩
    rw [Nat.div_add_mod, UInt8.ofNat_toNat]
  · rintro ⟨x, y, hx, hy, rfl⟩
    obtain ⟨hx16, hh⟩ := hexValue?_eq_some_iff.mp hx
    obtain ⟨hy16, hl⟩ := hexValue?_eq_some_iff.mp hy
    have hvalue : (UInt8.ofNat (16 * x + y)).toNat = 16 * x + y :=
      UInt8.toNat_ofNat_of_lt' (show 16 * x + y < 256 by omega)
    have hdiv : (16 * x + y) / 16 = x := by omega
    have hmod : (16 * x + y) % 16 = y := by omega
    rw [hvalue, hdiv, hmod]
    exact ⟨hh, hl, rfl⟩

end Numeral

namespace Fingerprint

variable {f : Fingerprint} {s : String} {cs : List Char} {bs : List UInt8}

/-! ## Digests -/

/-- The characters of a digest. -/
def digestChars (bs : List UInt8) : List Char := Text.joinWith [':'] (bs.map Numeral.byteChars)

theorem digestChars_cons_cons (b b' : UInt8) (bs : List UInt8) :
    digestChars (b :: b' :: bs) = Numeral.byteChars b ++ ':' :: digestChars (b' :: bs) := by
  rw [digestChars, List.map_cons, List.map_cons, Text.joinWith, List.append_assoc,
    List.singleton_append]
  rfl

theorem map_toUpper_of_readPairs (hread : readPairs cs = some bs) :
    bs ≠ [] ∧ cs.map Char.toUpper = digestChars bs := by
  fun_induction readPairs cs generalizing bs with
  | case1 h l =>
    simp only [Option.bind_eq_bind, Option.bind_eq_some_iff, Option.pure_def,
      Option.some.injEq] at hread
    obtain ⟨x, hx, y, hy, rfl⟩ := hread
    exact ⟨List.cons_ne_nil _ [], Numeral.eq_byteChars_iff.mpr ⟨x, y, hx, hy, rfl⟩⟩
  | case2 h l rest ih =>
    simp only [Option.bind_eq_bind, Option.bind_eq_some_iff, Option.pure_def,
      Option.some.injEq] at hread
    obtain ⟨x, hx, y, hy, bs', hrest, rfl⟩ := hread
    obtain ⟨hne, hupper⟩ := ih hrest
    obtain ⟨b, bs, rfl⟩ := List.exists_cons_of_ne_nil hne
    refine ⟨List.cons_ne_nil _ _, ?_⟩
    rw [digestChars_cons_cons, ← Numeral.eq_byteChars_iff.mpr ⟨x, y, hx, hy, rfl⟩, ← hupper]
    rfl
  | case3 => cases hread

/-- A digest in some case is read. -/
theorem readPairs_of_map_toUpper (hne : bs ≠ []) (hupper : cs.map Char.toUpper = digestChars bs) :
    readPairs cs = some bs := by
  induction bs generalizing cs with
  | nil => exact absurd rfl hne
  | cons b bs ih =>
    cases bs with
    | nil =>
      obtain ⟨h, l, rfl⟩ : ∃ h l, cs = [h, l] := by
        apply List.length_eq_two.mp
        rw [← List.length_map Char.toUpper, hupper]
        rfl
      obtain ⟨x, y, hx, hy, rfl⟩ := Numeral.eq_byteChars_iff.mp hupper
      simp [readPairs, hx, hy]
    | cons b' bs =>
      rw [digestChars_cons_cons] at hupper
      obtain ⟨h, front, rfl, hh, hfront⟩ := List.map_eq_cons_iff.mp hupper
      obtain ⟨l, back, rfl, hl, hback⟩ := List.map_eq_cons_iff.mp hfront
      obtain ⟨c, rest, rfl, hc, hrest⟩ := List.map_eq_cons_iff.mp hback
      obtain rfl := Numeral.toUpper_eq_colon_iff.mp hc
      have hpair : [h.toUpper, l.toUpper] = Numeral.byteChars b := by
        rw [hh, hl]
        rfl
      obtain ⟨x, y, hx, hy, rfl⟩ := Numeral.eq_byteChars_iff.mp hpair
      simp [readPairs, hx, hy, ih (List.cons_ne_nil b' bs) hrest]

theorem readPairs_eq_some_iff :
    readPairs cs = some bs ↔ bs ≠ [] ∧ cs.map Char.toUpper = digestChars bs :=
  ⟨map_toUpper_of_readPairs, fun h ↦ readPairs_of_map_toUpper h.1 h.2⟩

theorem map_toUpper_digestChars (bs : List UInt8) :
    (digestChars bs).map Char.toUpper = digestChars bs := by
  have hdigit {d : Nat} (hd : d < 16) :
      (Numeral.hexCharUpper d).toUpper = Numeral.hexCharUpper d :=
    (Numeral.hexValue?_eq_some_iff.mp (Numeral.hexValue?_hexCharUpper hd)).2
  have hall : ∀ c ∈ digestChars bs, c.toUpper = c := by
    refine Text.forall_mem_joinWith (by simp) fun w hw c hc ↦ ?_
    obtain ⟨b, -, rfl⟩ := List.mem_map.mp hw
    have hb := b.toNat_lt
    simp only [Numeral.byteChars, List.mem_cons, List.not_mem_nil, or_false] at hc
    rcases hc with rfl | rfl
    · exact hdigit (by omega)
    · exact hdigit (by omega)
  exact (List.map_congr_left hall).trans (List.map_id _)

/-! ## Texts -/

/-- What can be written as a fingerprint: the name is a word, and there is a digest. -/
structure WellFormed (f : Fingerprint) : Prop where
  /-- The name ends at a space or with its line. -/
  hash : Filled [' ', '\r', '\n'] f.hash.toList
  /-- The digest has a byte. -/
  bytes : f.bytes ≠ []

instance (f : Fingerprint) : Decidable f.WellFormed :=
  decidable_of_iff (Filled [' ', '\r', '\n'] f.hash.toList ∧ f.bytes ≠ [])
    ⟨fun ⟨hh, hb⟩ ↦ ⟨hh, hb⟩, fun ⟨hh, hb⟩ ↦ ⟨hh, hb⟩⟩

/-- A text with everything behind its first space in upper case. -/
def upperDigest (s : String) : String :=
  Text.firstWord s ++ " " ++ Text.upper (Text.afterFirstWord s)

theorem text_eq (f : Fingerprint) :
    f.text = f.hash ++ " " ++ String.ofList (digestChars f.bytes) := rfl

/-- A fingerprint is read where a word, a space and a digest are. -/
theorem ofText?_eq_some_iff_exists : ofText? s = some f ↔ Filled [' ', '\r', '\n'] f.hash.toList ∧
    ∃ digest, s = f.hash ++ " " ++ digest ∧ readPairs digest.toList = some f.bytes := by
  constructor
  · intro hread
    rw [ofText?] at hread
    split at hread
    · rename_i name rest hname
      obtain ⟨bytes, hbytes, rfl⟩ := Option.map_eq_some_iff.mp hread
      refine ⟨?_, String.ofList rest, ?_, ?_⟩
      · rw [String.toList_ofList]
        exact Sdp.yields_readWord _ _ _ hname
      · rw [← String.toList_inj, ← Text.append_of_readWord hname]
        simp
      · rwa [String.toList_ofList]
    · cases hread
  · rintro ⟨hhash, digest, rfl, hdigest⟩
    have hword : Text.readWord (f.hash ++ " " ++ digest).toList =
        some (f.hash.toList, ' ' :: digest.toList) := by
      rw [String.toList_append, String.toList_append, List.append_assoc]
      exact Sdp.readWord_filled hhash (Sdp.opens_cons (c := ' ') (by simp) _)
    rw [ofText?, hword]
    simp [hdigest]

theorem WellFormed.space_notMem (hf : f.WellFormed) : ' ' ∉ f.hash.toList :=
  hf.hash.2 ' ' (by simp)

/-- What is read from a text is the fingerprint that is written so, up to the case of the digest. -/
theorem ofText?_eq_some_iff : ofText? s = some f ↔ f.WellFormed ∧ f.text = upperDigest s := by
  rw [ofText?_eq_some_iff_exists]
  constructor
  · rintro ⟨hhash, digest, rfl, hdigest⟩
    obtain ⟨hne, hchars⟩ := readPairs_eq_some_iff.mp hdigest
    have hf : f.WellFormed := ⟨hhash, hne⟩
    refine ⟨hf, ?_⟩
    rw [upperDigest, Text.firstWord_append hf.space_notMem, Text.afterFirstWord_append
      hf.space_notMem, text_eq, ← hchars, Text.upper]
  · rintro ⟨hf, htext⟩
    -- both sides are cut at their first space
    have hname := congrArg Text.firstWord htext
    have hrest := congrArg Text.afterFirstWord htext
    rw [text_eq, upperDigest, Text.firstWord_append hf.space_notMem,
      Text.firstWord_append (Text.space_notMem_firstWord s)] at hname
    rw [text_eq, upperDigest, Text.afterFirstWord_append hf.space_notMem,
      Text.afterFirstWord_append (Text.space_notMem_firstWord s)] at hrest
    have hdigest : readPairs (Text.afterFirstWord s).toList = some f.bytes := by
      rw [readPairs_eq_some_iff, ← Text.toList_upper, ← hrest, String.toList_ofList]
      exact ⟨hf.bytes, rfl⟩
    have hne : Text.afterFirstWord s ≠ "" := by
      intro hempty
      rw [hempty] at hdigest
      cases hdigest
    refine ⟨hf.hash, Text.afterFirstWord s, ?_, hdigest⟩
    rw [hname, Text.firstWord_append_afterFirstWord hne]

theorem WellFormed.upperDigest_text (hf : f.WellFormed) : upperDigest f.text = f.text := by
  rw [upperDigest, text_eq, Text.firstWord_append hf.space_notMem,
    Text.afterFirstWord_append hf.space_notMem, Text.upper, String.toList_ofList,
    map_toUpper_digestChars]

/-- **A fingerprint is read back from its text, and a text is read as the fingerprint that it is the
text of, up to the case of the digest.** Whatever is read can be written, with the digest in upper
case, and is read back from that. -/
theorem read_up_to_case :
    (∀ f : Fingerprint, f.WellFormed → ofText? f.text = some f) ∧
      ∀ (s : String) (f : Fingerprint),
        (ofText? s = some f ↔ f.WellFormed ∧ f.text = upperDigest s) ∧
          (ofText? s = some f → ofText? f.text = some f) := by
  have hback (f : Fingerprint) (hf : f.WellFormed) : ofText? f.text = some f :=
    ofText?_eq_some_iff.mpr ⟨hf, hf.upperDigest_text.symm⟩
  refine ⟨hback, fun s f ↦ ⟨ofText?_eq_some_iff, fun hread ↦ ?_⟩⟩
  exact hback f (ofText?_eq_some_iff.mp hread).1

/-- A digest with leading zeros, under a name that ends in a colon. -/
def zeros : Fingerprint := ⟨"sha-256:", [0, 10, 255]⟩

theorem zeros_read_up_to_case : zeros.WellFormed ∧ ofText? zeros.text = some zeros ∧
    ofText? "sha-256: 00:0a:fF" = some zeros ∧
    zeros.text = upperDigest "sha-256: 00:0a:fF" := by
  have hf : zeros.WellFormed := by decide
  have hread : ofText? "sha-256: 00:0a:fF" = some zeros := by decide +kernel
  exact ⟨hf, read_up_to_case.1 zeros hf, hread, ((read_up_to_case.2 _ zeros).1.mp hread).2⟩

/-- A lost zero, a separator at the end, a digit too many, and no digest at all. -/
example : ["sha-256 00:A:FF", "sha-256 00:0A:", "sha-256 00:0A0", "sha-256 "].map ofText? =
    [none, none, none, none] := by decide +kernel

end Fingerprint

end OfferAnswer
