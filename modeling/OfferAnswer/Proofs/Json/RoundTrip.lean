import OfferAnswer.Json.Reader
import OfferAnswer.Json.Writer
import OfferAnswer.Proofs.Text.Words

/-!
# JSON values are read back

What is written in the compact form is read back as the value it was, whatever stands in its
strings. That holds of the values that this library writes, `Json.Writable`: their strings are texts
and their numbers natural. Other values need not come back: a string without a text is written as an
empty one.

The reader spends fuel. A step for every character and one for every value is enough, so the bound
of each lemma is twice the length of what is read; and it does not look further than the comma or
the bracket that ends a value.
-/

namespace OfferAnswer.Json

open Numeral (decimalChars)

variable {cs rest : List Char} {fuel n : Nat} {v : Json} {vs : List Json}

/-! ## Ends -/

/-- Whether a text, unless it is empty, begins with what ends a value. -/
def EndsValue (cs : List Char) : Prop := ∀ c ∈ cs.head?, c ∈ [',', ']', '\x7d']

theorem endsValue_nil : EndsValue [] := nofun

theorem endsValue_cons {c : Char} (h : c ∈ [',', ']', '\x7d']) (cs : List Char) :
    EndsValue (c :: cs) := by
  rintro _ ⟨rfl⟩
  exact h

theorem EndsValue.isDigit_eq_false (h : EndsValue cs) : ∀ c ∈ cs.head?, c.isDigit = false := by
  intro c hc
  have hend := h c hc
  simp only [List.mem_cons, List.not_mem_nil, or_false] at hend
  rcases hend with rfl | rfl | rfl <;> rfl

theorem skip_of_head (h : ∀ c ∈ cs.head?, isSpace c = false) : skip cs = cs :=
  Text.dropWhile_append (w := []) nofun h

theorem skip_cons {c : Char} (h : isSpace c = false) (cs : List Char) : skip (c :: cs) = c :: cs :=
  skip_of_head (by rintro _ ⟨rfl⟩; exact h)

/-! ## Numbers -/

theorem isSpace_of_isDigit {c : Char} (h : c.isDigit = true) : isSpace c = false := by
  rw [Bool.eq_false_iff]
  intro hspace
  simp only [isSpace, Bool.or_eq_true, decide_eq_true_eq] at hspace
  rcases hspace with ((rfl | rfl) | rfl) | rfl <;> exact absurd h (by decide)

theorem readDigitRun_decimalChars (hrest : ∀ c ∈ rest.head?, c.isDigit = false) :
    readDigitRun (decimalChars n ++ rest) = some (decimalChars n, rest) := by
  have hdigits : ∀ c ∈ decimalChars n, c.isDigit = true :=
    fun c ↦ Numeral.isDigit_of_mem_decimalChars
  rw [readDigitRun, Text.takeWhile_append hdigits hrest, Text.dropWhile_append hdigits hrest,
    if_neg (Numeral.decimalChars_ne_nil n)]

theorem readWhole_decimalChars (hrest : ∀ c ∈ rest.head?, c.isDigit = false) :
    readWhole (decimalChars n ++ rest) = some (decimalChars n, rest) := by
  have hlead : ¬((decimalChars n).head? = some '0' ∧ 1 < (decimalChars n).length) := by
    rintro ⟨hhead, hlong⟩
    rw [Numeral.decimalChars_of_head hhead] at hlong
    exact absurd hlong (by decide)
  simp only [readWhole, readDigitRun_decimalChars hrest, Option.bind_eq_bind, Option.bind_some,
    if_neg hlead]
  rfl

theorem readFraction_of_ends (h : EndsValue cs) : readFraction cs = some ([], cs) := by
  rw [readFraction.eq_def]
  split
  · exact absurd (h '.' rfl) (by decide)
  · rfl

theorem readExponent_of_ends (h : EndsValue cs) : readExponent cs = some (none, cs) := by
  rw [readExponent.eq_def]
  split
  · exact absurd (h 'e' rfl) (by decide)
  · exact absurd (h 'E' rfl) (by decide)
  · rfl

theorem readNumber_decimalChars (n : Nat) (hrest : EndsValue rest) :
    readNumber (decimalChars n ++ rest) = some (.ofNat n, rest) := by
  have hsign : ¬(decimalChars n ++ rest).head? = some '-' := by
    obtain ⟨c, ds, hds, hc⟩ := Numeral.decimalChars_eq_cons n
    rw [hds, List.cons_append, List.head?_cons, Option.some_inj]
    rintro rfl
    exact absurd hc (by decide)
  have hwhole := readWhole_decimalChars (n := n) hrest.isDigit_eq_false
  simp only [readNumber, hsign, if_false, hwhole, readFraction_of_ends hrest,
    readExponent_of_ends hrest, Option.bind_eq_bind, Option.bind_some, Numeral.map_decimalChars,
    decide_false]
  rfl

/-! ## Strings -/

/-- The letter of an escape is read as the character that it stands for. -/
theorem escaped?_of_letter {c e : Char} (h : escapeLetter? c = some e) :
    escaped? e = some c ∧ e ≠ 'u' := by
  rw [escapeLetter?.eq_def] at h
  split at h <;> cases h <;> exact ⟨rfl, by decide⟩

/-- The piece that is read for a written character. -/
def pieceOf (c : Char) : Piece :=
  if escapeLetter? c = none ∧ c.toNat < 0x20 then .unit c.toNat else .char c

/-- A control character is written by its number. -/
theorem readUnit_hexChar (h : n < 0x20) :
    readUnit '0' '0' (Numeral.hexChar (n / 16)) (Numeral.hexChar (n % 16)) = some n := by
  have hall : ∀ n : Fin 0x20,
      readUnit '0' '0' (Numeral.hexChar (n / 16)) (Numeral.hexChar (n % 16)) = some n.val := by
    decide
  exact hall ⟨n, h⟩

/-- A character is read back as its piece. -/
theorem readPieces_escape (c : Char) (cs : List Char) : readPieces (escape c ++ cs) =
    (readPieces cs).map fun r ↦ (pieceOf c :: r.1, r.2) := by
  rw [escape]
  rcases hletter : escapeLetter? c with _ | e
  · dsimp only
    split
    · rename_i hcontrol
      simp only [List.cons_append, List.nil_append, readPieces, readUnit_hexChar hcontrol,
        Option.bind_eq_bind, Option.bind_some, pieceOf, if_pos (And.intro hletter hcontrol)]
      cases readPieces cs <;> rfl
    · rename_i hplain
      have hquote : c ≠ '"' := by
        rintro rfl
        cases hletter
      have hslash : c ≠ '\\' := by
        rintro rfl
        cases hletter
      rw [List.cons_append, List.nil_append, readPieces, if_neg hplain, pieceOf,
        if_neg fun h ↦ hplain h.2]
      · cases readPieces cs <;> rfl
      · exact hquote
      · exact fun _ _ _ _ _ h ↦ absurd h hslash
      · exact fun _ _ h ↦ absurd h hslash
  · obtain ⟨hread, hunit⟩ := escaped?_of_letter hletter
    rw [List.cons_append, List.cons_append, List.nil_append, pieceOf,
      if_neg fun h ↦ Option.some_ne_none e (hletter.symm.trans h.1),
      readPieces.eq_3 e cs fun _ _ _ _ _ h ↦ absurd h hunit, hread]
    cases readPieces cs <;> rfl

theorem readPieces_flatMap (s rest : List Char) :
    readPieces (s.flatMap escape ++ '"' :: rest) = some (s.map pieceOf, rest) := by
  induction s with
  | nil => rfl
  | cons c s ih =>
    rw [List.flatMap_cons, List.append_assoc, readPieces_escape, ih]
    rfl

/-- A unit that is no half of a surrogate pair stands for itself. -/
theorem decodePieces_unit (h : n < 0x20) (ps : List Piece) :
    decodePieces (.unit n :: ps) = (decodePieces ps).map (Char.ofNat n :: ·) := by
  have hhigh : isHigh n = false := by
    simp only [isHigh, Bool.and_eq_false_iff, decide_eq_false_iff_not]
    omega
  have hlow : isLow n = false := by
    simp only [isLow, Bool.and_eq_false_iff, decide_eq_false_iff_not]
    omega
  rcases ps with _ | ⟨c | l, ps⟩ <;>
    simp only [decodePieces, hhigh, hlow, Bool.false_and, Bool.or_self, Bool.false_eq_true,
      if_false]

theorem decodePieces_map (s : List Char) : decodePieces (s.map pieceOf) = some s := by
  induction s with
  | nil => rfl
  | cons c s ih =>
    rw [List.map_cons, pieceOf]
    split
    · rename_i hcontrol
      rw [decodePieces_unit hcontrol.2, ih, Char.ofNat_toNat]
      rfl
    · rw [decodePieces, ih]
      rfl

theorem readString_flatMap (s : String) (rest : List Char) :
    readString (s.toList.flatMap escape ++ '"' :: rest) = some (some s, rest) := by
  simp only [readString, readPieces_flatMap, Option.bind_eq_bind, Option.bind_some,
    decodePieces_map, Option.map_some, String.ofList_toList]
  rfl

/-! ## Written values -/

/-- Values that are written so that they can be read back. -/
inductive Writable : Json → Prop
  | null : Writable .null
  | bool (b : Bool) : Writable (.bool b)
  | nat (n : Nat) : Writable (.nat n)
  | str (s : String) : Writable (.str s)
  /-- An array of such values. -/
  | array {vs : List Json} : (∀ v ∈ vs, Writable v) → Writable (.array vs)
  /-- An object whose members are named and have such values. -/
  | obj {ms : List (String × Json)} : (∀ m ∈ ms, Writable m.2) → Writable (.obj ms)

/-- The written form of a value, as characters. -/
def chars (v : Json) : List Char := (text v).toList

/-- The written form of a member, after its opening quote. -/
def memberChars (m : String × Json) : List Char :=
  m.1.toList.flatMap escape ++ '"' :: ':' :: chars m.2

theorem length_memberChars (m : String × Json) : (memberChars m).length =
    (m.1.toList.flatMap escape).length + ((chars m.2).length + 2) := by
  rw [memberChars, List.length_append, List.length_cons, List.length_cons]

/-- Items behind the first. -/
def moreItems (vs : List Json) : List Char := vs.flatMap fun v ↦ ',' :: chars v

/-- Members behind the first. -/
def moreMembers (ms : List (String × Json)) : List Char :=
  ms.flatMap fun m ↦ ',' :: '"' :: memberChars m

theorem itemTexts_eq (vs : List Json) : itemTexts vs = vs.map text := by
  induction vs with
  | nil => rfl
  | cons v vs ih => rw [itemTexts, ih, List.map_cons]

theorem obj_eq (ms : List (String × Json)) : obj ms = .object (ms.map fun m ↦ (some m.1, m.2)) :=
  rfl

theorem memberTexts_eq (ms : List (String × Json)) :
    memberTexts (ms.map fun m ↦ (some m.1, m.2)) =
      ms.map fun m ↦ quote m.1 ++ ":" ++ text m.2 := by
  induction ms with
  | nil => rfl
  | cons m ms ih =>
    rw [List.map_cons, memberTexts, ih, List.map_cons]
    rfl

theorem toList_quote (s : String) :
    (quote s).toList = '"' :: (s.toList.flatMap escape ++ ['"']) := by
  simp [quote]

theorem chars_nat (n : Nat) : chars (.nat n) = decimalChars n := by
  simp [chars, text, Json.nat, numberText, JsonNumber.ofNat, decimalChars]

theorem chars_str (s : String) : chars (.str s) = '"' :: (s.toList.flatMap escape ++ ['"']) :=
  toList_quote s

theorem chars_array_cons (v : Json) (vs : List Json) :
    chars (.array (v :: vs)) = '[' :: (chars v ++ (moreItems vs ++ [']'])) := by
  simp [chars, text, itemTexts_eq, Text.join, Text.joinWith_cons, List.flatMap_map, moreItems]

theorem chars_obj_cons (m : String × Json) (ms : List (String × Json)) :
    chars (.obj (m :: ms)) = '\x7b' :: '"' :: (memberChars m ++ (moreMembers ms ++ ['\x7d'])) := by
  rw [chars, obj_eq, text, memberTexts_eq]
  simp [Text.join, Text.joinWith_cons, List.flatMap_map, toList_quote, moreMembers, memberChars,
    chars]

/-! ## Reading values -/

/-- A written value begins with something that is neither blank nor the end of an array. -/
theorem Writable.exists_head (hv : v.Writable) :
    ∃ c cs, chars v = c :: cs ∧ isSpace c = false ∧ c ≠ ']' := by
  cases hv with
  | null => exact ⟨_, _, rfl, by decide, by decide⟩
  | bool b => cases b <;> exact ⟨_, _, rfl, by decide, by decide⟩
  | nat n =>
    obtain ⟨c, cs, hcs, hc⟩ := Numeral.decimalChars_eq_cons n
    refine ⟨c, cs, (chars_nat n).trans hcs, isSpace_of_isDigit hc, ?_⟩
    rintro rfl
    exact absurd hc (by decide)
  | str s => exact ⟨_, _, chars_str s, by decide, by decide⟩
  | @array vs hvs =>
    cases vs with
    | nil => exact ⟨_, _, rfl, by decide, by decide⟩
    | cons v vs => exact ⟨_, _, chars_array_cons v vs, by decide, by decide⟩
  | @obj ms hms =>
    cases ms with
    | nil => exact ⟨_, _, rfl, by decide, by decide⟩
    | cons m ms => exact ⟨_, _, chars_obj_cons m ms, by decide, by decide⟩

/-- Whether a value is read back, by a reader with fuel for its characters. -/
def Reads (v : Json) : Prop := ∀ (fuel : Nat) (rest : List Char), EndsValue rest →
  2 * (chars v).length ≤ fuel → readValue fuel (chars v ++ rest) = some (v, rest)

theorem endsValue_moreItems (vs : List Json) (rest : List Char) :
    EndsValue (moreItems vs ++ ']' :: rest) := by
  cases vs with
  | nil => exact endsValue_cons (by decide) rest
  | cons v vs => exact endsValue_cons (by decide) _

theorem readItems_chars (hvs : ∀ w ∈ v :: vs, Reads w) (rest : List Char)
    (hfuel : 2 * ((chars v).length + (moreItems vs).length) < fuel) :
    readItems fuel (chars v ++ (moreItems vs ++ ']' :: rest)) = some (v :: vs, rest) := by
  induction vs generalizing v fuel with
  | nil =>
    obtain ⟨fuel, rfl⟩ := Nat.exists_eq_succ_of_ne_zero (Nat.ne_zero_of_lt hfuel)
    have hv := hvs v List.mem_cons_self fuel _ (endsValue_moreItems [] rest) (by omega)
    rw [readItems, hv]
    rfl
  | cons w vs ih =>
    obtain ⟨fuel, rfl⟩ := Nat.exists_eq_succ_of_ne_zero (Nat.ne_zero_of_lt hfuel)
    have hmore : moreItems (w :: vs) = ',' :: (chars w ++ moreItems vs) := rfl
    rw [hmore, List.length_cons, List.length_append] at hfuel
    have hv := hvs v List.mem_cons_self fuel _ (endsValue_moreItems (w :: vs) rest) (by omega)
    have hrest : readItems fuel (chars w ++ (moreItems vs ++ ']' :: rest)) =
        some (w :: vs, rest) := ih (fun x hx ↦ hvs x (List.mem_cons_of_mem v hx)) (by omega)
    rw [readItems, hv, hmore, List.cons_append, List.append_assoc]
    exact congrArg (Option.map fun r ↦ (v :: r.1, r.2)) hrest

theorem endsValue_moreMembers (ms : List (String × Json)) (rest : List Char) :
    EndsValue (moreMembers ms ++ '\x7d' :: rest) := by
  cases ms with
  | nil => exact endsValue_cons (by decide) rest
  | cons m ms => exact endsValue_cons (by decide) _

theorem readMembers_cons {m : String × Json} (hm : Reads m.2) (first : Bool) {c : Char}
    (hskip : skip (c :: cs) = c :: cs) (hc : c ≠ '\x7d')
    (hkey : nextKey first (c :: cs) = some (memberChars m ++ rest)) (hrest : EndsValue rest)
    (hfuel : 2 * (chars m.2).length ≤ fuel) :
    readMembers (fuel + 1) first (c :: cs) =
      { readMembers fuel false rest with
        members := (some m.1, m.2) :: (readMembers fuel false rest).members } := by
  have hname : (nextKey first (c :: cs)).bind readString =
      some (some m.1, ':' :: (chars m.2 ++ rest)) := by
    rw [hkey, memberChars, List.append_assoc]
    exact readString_flatMap m.1 _
  have hvalue : (skipColon (':' :: (chars m.2 ++ rest))).bind (readValue fuel) =
      some (m.2, rest) := by
    rw [skipColon, skip_cons (by decide)]
    exact hm fuel rest hrest hfuel
  rw [readMembers, hskip]
  split
  · rename_i heq
    exact absurd (List.cons.inj heq).1 hc
  · rw [hname]
    dsimp only
    rw [hvalue]

/-- Members behind the first are read in order, up to the brace. -/
theorem readMembers_moreMembers {ms : List (String × Json)} (hms : ∀ m ∈ ms, Reads m.2)
    (rest : List Char) (hfuel : 2 * (moreMembers ms).length < fuel) :
    readMembers fuel false (moreMembers ms ++ '\x7d' :: rest) =
      ⟨ms.map fun m ↦ (some m.1, m.2), .closed rest⟩ := by
  induction ms generalizing fuel with
  | nil =>
    obtain ⟨fuel, rfl⟩ := Nat.exists_eq_succ_of_ne_zero (Nat.ne_zero_of_lt hfuel)
    change readMembers (fuel + 1) false ('\x7d' :: rest) = _
    rw [readMembers, skip_cons (by decide)]
    rfl
  | cons m ms ih =>
    obtain ⟨fuel, rfl⟩ := Nat.exists_eq_succ_of_ne_zero (Nat.ne_zero_of_lt hfuel)
    have hmore : moreMembers (m :: ms) = ',' :: '"' :: (memberChars m ++ moreMembers ms) := rfl
    rw [hmore, List.length_cons, List.length_cons, List.length_append, length_memberChars] at hfuel
    rw [hmore, List.cons_append, List.cons_append, List.append_assoc,
      readMembers_cons (hms m List.mem_cons_self) false (skip_cons (by decide) _) (by decide) rfl
        (endsValue_moreMembers ms rest) (by omega),
      ih (fun x hx ↦ hms x (List.mem_cons_of_mem m hx)) (by omega)]
    rfl

theorem reads_of_succ (hne : chars v ≠ [])
    (h : ∀ (fuel : Nat) (rest : List Char), EndsValue rest → 2 * (chars v).length ≤ fuel + 1 →
      readValue (fuel + 1) (chars v ++ rest) = some (v, rest)) : Reads v := by
  intro fuel rest hrest hfuel
  have hpos : 0 < (chars v).length := List.length_pos_iff.mpr hne
  obtain ⟨fuel, rfl⟩ := Nat.exists_eq_succ_of_ne_zero (show fuel ≠ 0 by omega)
  exact h fuel rest hrest hfuel

theorem reads_nat (n : Nat) : Reads (.nat n) := by
  have hne : chars (.nat n) ≠ [] := chars_nat n ▸ Numeral.decimalChars_ne_nil n
  refine reads_of_succ hne fun fuel rest hrest _ ↦ ?_
  obtain ⟨d, ds, hds, hd⟩ := Numeral.decimalChars_eq_cons n
  -- a digit is what none of the other values begins with
  have hdigit : ∀ c cs, decimalChars n ++ rest = c :: cs → c.isDigit = true := by
    intro c cs hcs
    rw [hds, List.cons_append] at hcs
    rw [← (List.cons.inj hcs).1, hd]
  have hskip : skip (decimalChars n ++ rest) = decimalChars n ++ rest := by
    rw [hds, List.cons_append, skip_cons (isSpace_of_isDigit hd)]
  rw [chars_nat, readValue, hskip]
  split
  · exact absurd (hdigit _ _ ‹_›) (by decide)
  · exact absurd (hdigit _ _ ‹_›) (by decide)
  · exact absurd (hdigit _ _ ‹_›) (by decide)
  · exact absurd (hdigit _ _ ‹_›) (by decide)
  · exact absurd (hdigit _ _ ‹_›) (by decide)
  · exact absurd (hdigit _ _ ‹_›) (by decide)
  · exact congrArg (Option.map fun r ↦ (Json.number r.1, r.2)) (readNumber_decimalChars n hrest)

theorem reads_str (s : String) : Reads (.str s) := by
  refine reads_of_succ (by simp [chars_str]) fun fuel rest hrest hfuel ↦ ?_
  rw [chars_str, List.cons_append, List.append_assoc, List.singleton_append, readValue,
    skip_cons (by decide)]
  exact congrArg (Option.map fun r ↦ (Json.string r.1, r.2)) (readString_flatMap s rest)

/-- What does not close an array at once is its items. -/
theorem readValue_bracket {c : Char} (hspace : isSpace c = false) (hc : c ≠ ']')
    (hitems : readItems fuel (c :: cs) = some (vs, rest)) :
    readValue (fuel + 1) ('[' :: c :: cs) = some (.array vs, rest) := by
  simp [readValue, skip_cons (show isSpace '[' = false by decide), skip_cons hspace, hc, hitems]

theorem readValue_brace {ms : List (Option String × Json)}
    (hmembers : readMembers fuel true cs = ⟨ms, .closed rest⟩) :
    readValue (fuel + 1) ('\x7b' :: cs) = some (.object ms, rest) := by
  simp [readValue, skip_cons (show isSpace '\x7b' = false by decide), hmembers]

theorem reads_array (hvs : ∀ v ∈ vs, Writable v) (ih : ∀ v ∈ vs, Reads v) :
    Reads (.array vs) := by
  rcases vs with _ | ⟨v, vs⟩
  · exact reads_of_succ (by decide) fun fuel rest _ _ ↦ rfl
  · refine reads_of_succ (by simp [chars_array_cons]) fun fuel rest _ hfuel ↦ ?_
    rw [chars_array_cons, List.length_cons, List.length_append, List.length_append] at hfuel
    have hitems : readItems fuel (chars v ++ (moreItems vs ++ ']' :: rest)) =
        some (v :: vs, rest) := readItems_chars ih rest (by omega)
    obtain ⟨c, cs, hcs, hspace, hc⟩ := (hvs v List.mem_cons_self).exists_head
    rw [chars_array_cons, List.cons_append, List.append_assoc, List.append_assoc,
      List.singleton_append, hcs, List.cons_append]
    rw [hcs, List.cons_append] at hitems
    exact readValue_bracket hspace hc hitems

/-- The members of a written object are read in order, up to its brace. -/
theorem exists_readMembers {ms : List (String × Json)} (hms : ∀ m ∈ ms, Reads m.2) :
    ∃ cs, chars (.obj ms) = '\x7b' :: cs ∧ ∀ (fuel : Nat) (rest : List Char),
      2 * cs.length < fuel →
      readMembers fuel true (cs ++ rest) = ⟨ms.map fun m ↦ (some m.1, m.2), .closed rest⟩ := by
  rcases ms with _ | ⟨m, ms⟩
  · refine ⟨['\x7d'], rfl, fun fuel rest hfuel ↦ ?_⟩
    obtain ⟨fuel, rfl⟩ := Nat.exists_eq_succ_of_ne_zero (Nat.ne_zero_of_lt hfuel)
    rfl
  · refine ⟨_, chars_obj_cons m ms, fun fuel rest hfuel ↦ ?_⟩
    rw [List.length_cons, List.length_append, List.length_append, List.length_singleton,
      length_memberChars] at hfuel
    obtain ⟨fuel, rfl⟩ := Nat.exists_eq_succ_of_ne_zero (Nat.ne_zero_of_lt hfuel)
    rw [List.cons_append, List.append_assoc, List.append_assoc, List.singleton_append,
      readMembers_cons (hms m List.mem_cons_self) true (skip_cons (c := '"') (by decide) _)
        (by decide) rfl (endsValue_moreMembers ms rest) (by omega),
      readMembers_moreMembers (fun x hx ↦ hms x (List.mem_cons_of_mem m hx)) rest (by omega)]
    rfl

theorem reads_obj {ms : List (String × Json)} (ih : ∀ m ∈ ms, Reads m.2) : Reads (.obj ms) := by
  obtain ⟨cs, hcs, hread⟩ := exists_readMembers ih
  refine reads_of_succ (by simp [hcs]) fun fuel rest _ hfuel ↦ ?_
  rw [hcs, List.length_cons] at hfuel
  obtain ⟨fuel, rfl⟩ := Nat.exists_eq_succ_of_ne_zero (show fuel ≠ 0 by omega)
  rw [hcs, List.cons_append]
  exact readValue_brace (hread _ rest (by omega))

/-- **A value is read back** with as much fuel as it has characters, twice. -/
theorem Writable.reads (hv : v.Writable) : Reads v := by
  induction hv with
  | null => exact reads_of_succ (by decide) fun fuel rest hrest hfuel ↦ rfl
  | bool b =>
    cases b
    · exact reads_of_succ (by decide) fun fuel rest hrest hfuel ↦ rfl
    · exact reads_of_succ (by decide) fun fuel rest hrest hfuel ↦ rfl
  | nat n => exact reads_nat n
  | str s => exact reads_str s
  | array hvs ih => exact reads_array hvs ih
  | obj hms ih => exact reads_obj ih

/-- **Written values are read back.** -/
theorem ofText?_text (hv : v.Writable) : ofText? v.text = some v := by
  have hread := hv.reads (fuelFor (chars v)) [] endsValue_nil (Nat.le_add_right _ 2)
  rw [List.append_nil] at hread
  change ofChars? (chars v) = some v
  rw [ofChars?, hread]
  rfl

end OfferAnswer.Json
