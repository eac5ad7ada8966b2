import OfferAnswer.Proofs.Sdp.WellFormed

/-!
# Descriptions are read back

A written description is read back as itself. That is a statement about what may follow: a word is
read whole because the character after it is none of a word, a repetition ends because the next line
has another type, and an optional line is missed because nothing else in the grammar starts with its
letter. All three are about the letter that a text opens with, and `Opens` says so in a form that
survives appending.

With `yields_readDescription` the round trip is an equivalence: the well-formed descriptions are
those that are read back, and they are those that are read at all.
-/

namespace OfferAnswer

open Text (Filled)

namespace Sdp

variable {α β : Type} {p : Char → Bool} {ends types letters w rest : List Char}

/-! ## What a text opens with -/

/-- Whether a text, unless it is empty, opens with one of some letters. -/
def Opens (letters cs : List Char) : Prop := ∀ c ∈ cs.head?, c ∈ letters

theorem opens_nil (letters : List Char) : Opens letters [] := nofun

theorem opens_cons {c : Char} (h : c ∈ letters) (cs : List Char) : Opens letters (c :: cs) := by
  rintro _ ⟨rfl⟩
  exact h

theorem Opens.mono {more : List Char} (h : Opens letters w) (hsub : letters ⊆ more) :
    Opens more w :=
  fun c hc ↦ hsub (h c hc)

theorem Opens.append (hw : Opens letters w) (hrest : Opens letters rest) :
    Opens letters (w ++ rest) := by
  cases w with
  | nil => exact hrest
  | cons c w => exact hw

theorem opens_flatMap {as : List α} {write : α → List Char}
    (h : ∀ a ∈ as, Opens letters (write a)) : Opens letters (as.flatMap write) := by
  induction as with
  | nil => exact opens_nil letters
  | cons a as ih =>
    rw [List.forall_mem_cons] at h
    exact h.1.append (ih h.2)

theorem opens_getD {o : Option α} {write : α → List Char} (h : ∀ a ∈ o, Opens letters (write a)) :
    Opens letters ((o.map write).getD []) := by
  cases o with
  | none => exact opens_nil letters
  | some a => exact h a rfl

theorem readLine_eq_none {body : Reader α} (h : Opens letters w)
    (htypes : ∀ t ∈ types, t ∉ letters) : readLine types body w = none := by
  rw [readLine.eq_def]
  split
  · rename_i t cs
    have ht : t ∉ types := fun ht ↦ htypes t ht (h t rfl)
    rw [if_neg ht]
  · rfl

/-! ## Words and lines -/

/-- A run of characters of a class is read whole if what follows is of another class. -/
theorem readSome_append (hne : w ≠ []) (hw : ∀ c ∈ w, p c = true)
    (hrest : ∀ c ∈ rest.head?, p c = false) : readSome p (w ++ rest) = some (w, rest) := by
  rw [readSome, Text.takeWhile_append hw hrest, Text.dropWhile_append hw hrest, if_neg hne]

theorem readSome_filled (hp : ∀ c, p c = true ↔ c ∉ ends) (hw : Filled ends w)
    (hrest : Opens ends rest) : readSome p (w ++ rest) = some (w, rest) := by
  obtain ⟨hne, hall⟩ := (Text.filled_iff hp).mp hw
  refine readSome_append hne hall fun c hc ↦ ?_
  rw [← Bool.not_eq_true, hp, not_not]
  exact hrest c hc

theorem readAny_filled (hw : Filled ['\r', '\n'] w) (hrest : Opens ['\r', '\n'] rest) :
    readAny (w ++ rest) = some (w, rest) :=
  readSome_filled inLine_iff hw hrest

theorem readWord_filled (hw : Filled [' ', '\r', '\n'] w) (hrest : Opens [' ', '\r', '\n'] rest) :
    Text.readWord (w ++ rest) = some (w, rest) :=
  readSome_filled Text.isWordChar_iff hw hrest

theorem readDigits_decimal (n : Nat) (hrest : Opens [' '] rest) :
    readSome Char.isDigit (Numeral.decimalChars n ++ rest) =
      some (Numeral.decimalChars n, rest) := by
  refine readSome_append (Numeral.decimalChars_ne_nil n)
    (fun c hc ↦ Numeral.isDigit_of_mem_decimalChars hc) fun c hc ↦ ?_
  rw [List.mem_singleton.mp (hrest c hc)]
  decide

theorem readNumber_decimal {n bound : Nat} (h : n < bound) (hrest : Opens [' '] rest) :
    readNumber bound (Numeral.decimalChars n ++ rest) = some (n, rest) := by
  simp only [readNumber, readDigits_decimal n hrest, Option.bind_eq_bind, Option.bind_some,
    Numeral.readDigits_decimalChars h, Option.pure_def]

@[simp] theorem readChar_cons (c : Char) (cs : List Char) : readChar c (c :: cs) = some cs := by
  simp [readChar]

/-- A written line is read if its value is read up to the line break. -/
theorem readLine_written {body : Reader α} {a : α} {t : Char} (ht : t ∈ types)
    (h : body (w ++ (lineBreak ++ rest)) = some (a, lineBreak ++ rest)) :
    readLine types body (t :: '=' :: w ++ lineBreak ++ rest) = some (a, rest) := by
  have hend : readLineEnd (lineBreak ++ rest) = some rest := rfl
  rw [List.append_assoc, List.cons_append, List.cons_append, readLine, if_pos ht, h]
  simp only [Option.bind_eq_bind, Option.bind_some, hend, Option.pure_def]

/-- What a line break opens with ends words, values and keys. -/
theorem opens_lineBreak (h : '\r' ∈ letters) (rest : List Char) :
    Opens letters (lineBreak ++ rest) :=
  opens_cons h _

/-! ## Repetition and choice -/

theorem many_of_none {r : Reader α} (h : r rest = none) : many r rest = ([], rest) := by
  rw [many, h]

/-- What was written one after the other is read in order, if each piece is read before what the
pieces and the rest open with, and the rest is not taken for a piece. -/
theorem many_flatMap {r : Reader α} {write : α → List Char} {as : List α}
    (follow : List Char → Prop) (hstop : r rest = none) (hrest : follow rest)
    (hfollow : ∀ a ∈ as, ∀ cs, write a ≠ [] ∧ follow (write a ++ cs))
    (hread : ∀ a ∈ as, ∀ cs, follow cs → r (write a ++ cs) = some (a, cs)) :
    many r (as.flatMap write ++ rest) = (as, rest) := by
  induction as with
  | nil => exact many_of_none hstop
  | cons a as ih =>
    rw [List.forall_mem_cons] at hfollow hread
    have hopen : follow (as.flatMap write ++ rest) := by
      cases as with
      | nil => exact hrest
      | cons b as =>
        rw [List.flatMap_cons, List.append_assoc]
        exact (hfollow.2 b List.mem_cons_self _).2
    have hshort : (as.flatMap write ++ rest).length <
        (write a ++ (as.flatMap write ++ rest)).length := by
      have hpos := List.length_pos_iff.mpr (hfollow.1 []).1
      simp only [List.length_append]
      omega
    rw [List.flatMap_cons, List.append_assoc, many, hread.1 _ hopen]
    dsimp only
    rw [if_pos hshort, ih hfollow.2 hread.2]

/-- An optional part is read if it is there, and missed if nothing else is taken for it. -/
theorem maybe_getD {r : Reader β} {write : α → List Char} {value : α → β} {o : Option α}
    (hread : ∀ a ∈ o, r (write a ++ rest) = some (value a, rest)) (hstop : r rest = none) :
    maybe r ((o.map write).getD [] ++ rest) = (o.map value, rest) := by
  cases o with
  | none => simp [maybe, hstop]
  | some a => simp [maybe, hread a rfl]

end Sdp

/-! ## Attributes and bandwidths -/

namespace Attribute

theorem chars_eq (a : Attribute) : a.chars =
    'a' :: '=' :: (a.key.toList ++ (a.value.map fun v ↦ ':' :: v.toList).getD []) ++ lineBreak := by
  obtain ⟨key, value⟩ := a
  cases value <;> simp [chars]

theorem WellFormed.readAttribute_chars {a : Attribute} (h : a.WellFormed) (rest : List Char) :
    Sdp.readAttribute (a.chars ++ rest) = some (a, rest) := by
  obtain ⟨key, value⟩ := a
  rw [chars_eq]
  refine Sdp.readLine_written (List.mem_singleton.mpr rfl) ?_
  cases value with
  | none =>
    have hkey := Sdp.readSome_filled Sdp.inKey_iff h.key (Sdp.opens_lineBreak (by simp) rest)
    simp only [Option.map_none, Option.getD_none, List.append_nil, hkey, Option.bind_eq_bind,
      Option.bind_some]
    simp [lineBreak]
  | some v =>
    have hkey := Sdp.readSome_filled Sdp.inKey_iff h.key
      (Sdp.opens_cons (c := ':') (by simp) (v.toList ++ (lineBreak ++ rest)))
    have hv : ∀ c ∈ v.toList, Sdp.inLine c = true := by
      intro c hc
      obtain ⟨hreturn, hfeed⟩ := h.value v rfl
      rw [Sdp.inLine_iff, List.mem_pair]
      rintro (rfl | rfl)
      · exact hreturn hc
      · exact hfeed hc
    have htake : (lineBreak ++ rest).takeWhile Sdp.inLine = [] := rfl
    have hdrop : (lineBreak ++ rest).dropWhile Sdp.inLine = lineBreak ++ rest := rfl
    simp only [Option.map_some, Option.getD_some, List.append_assoc, List.cons_append, hkey,
      Option.bind_eq_bind, Option.bind_some]
    simp [List.takeWhile_append_of_pos hv, List.dropWhile_append_of_pos hv, htake, hdrop]

end Attribute

namespace Bandwidth

theorem chars_eq (b : Bandwidth) :
    b.chars = 'b' :: '=' :: (b.type.toList ++ ':' :: b.value.toList) ++ lineBreak := by
  unfold chars
  simp

theorem WellFormed.readBandwidth_chars {b : Bandwidth} (h : b.WellFormed) (rest : List Char) :
    Sdp.readBandwidth (b.chars ++ rest) = some (b, rest) := by
  rw [chars_eq]
  refine Sdp.readLine_written (List.mem_singleton.mpr rfl) ?_
  have htype := Sdp.readSome_filled Sdp.ne_colon_iff h.type
    (Sdp.opens_cons (c := ':') (by simp) (b.value.toList ++ (lineBreak ++ rest)))
  have hvalue := Sdp.readAny_filled h.value (Sdp.opens_lineBreak (by simp) rest)
  simp only [List.append_assoc, List.cons_append, htype, hvalue, Sdp.readChar_cons,
    Option.bind_eq_bind, Option.bind_some, Option.pure_def, String.ofList_toList]

end Bandwidth

/-! ## Sections -/

namespace Sdp

variable {rest : List Char}

theorem many_readAttribute {attrs : List Attribute} (h : ∀ a ∈ attrs, a.WellFormed)
    (hrest : readAttribute rest = none) :
    many readAttribute (attrs.flatMap Attribute.chars ++ rest) = (attrs, rest) := by
  refine many_flatMap (fun _ ↦ True) hrest trivial (fun a _ cs ↦ ⟨?_, trivial⟩)
    fun a ha cs _ ↦ (h a ha).readAttribute_chars cs
  rw [Attribute.chars_eq]
  exact List.cons_ne_nil _ _

theorem maybe_readBandwidth {bandwidth : Option Bandwidth} (h : ∀ b ∈ bandwidth, b.WellFormed)
    (hrest : readBandwidth rest = none) :
    maybe readBandwidth ((bandwidth.map Bandwidth.chars).getD [] ++ rest) = (bandwidth, rest) := by
  have hread := maybe_getD (fun b hb ↦ (h b hb).readBandwidth_chars rest) hrest
  rwa [Option.map_id'] at hread

theorem opens_attributes (attrs : List Attribute) : Opens ['a'] (attrs.flatMap Attribute.chars) :=
  opens_flatMap fun a _ ↦ by
    rw [a.chars_eq]
    exact opens_cons (List.mem_singleton.mpr rfl) _

theorem opens_bandwidth (bandwidth : Option Bandwidth) :
    Opens ['b'] ((bandwidth.map Bandwidth.chars).getD []) :=
  opens_getD fun b _ ↦ by
    rw [b.chars_eq]
    exact opens_cons (List.mem_singleton.mpr rfl) _

theorem readPort_decimal (port : UInt16) (rest : List Char) :
    readPort (Numeral.decimalChars port.toNat ++ ' ' :: rest) = some (port, ' ' :: rest) := by
  have hds := readDigits_decimal port.toNat (opens_cons (List.mem_singleton.mpr rfl) rest)
  simp only [readPort, hds, Option.bind_eq_bind, Option.bind_some,
    Numeral.readDigits_decimalChars port.toNat_lt_size, Option.pure_def, UInt16.ofNat_toNat]
  rfl

theorem readNextWord_filled {w : List Char} (hw : Filled [' ', '\r', '\n'] w)
    (hrest : Opens [' ', '\r', '\n'] rest) : readNextWord (' ' :: w ++ rest) = some (w, rest) := by
  simp only [readNextWord, List.cons_append, readChar_cons, Option.bind_eq_bind, Option.bind_some,
    readWord_filled hw hrest]

theorem opens_connection (connection : Option String) :
    Opens ['c'] ((connection.map connectionChars).getD []) :=
  opens_getD fun _ _ ↦ opens_cons (List.mem_singleton.mpr rfl) _

theorem readConnection_chars {c : String} (hc : Filled ['\r', '\n'] c.toList) (rest : List Char) :
    readLine ['c'] readAny (connectionChars c ++ rest) = some (c.toList, rest) :=
  readLine_written (List.mem_singleton.mpr rfl)
    (readAny_filled hc (opens_lineBreak (by simp) rest))

end Sdp

namespace Section

open Sdp

variable {m : Section} {rest : List Char}

/-- The formats as they follow the protocol. -/
def formatChars (m : Section) : List Char := (m.formats.map String.toList).flatMap (' ' :: ·)

theorem mediaChars_eq (m : Section) : m.mediaChars = 'm' :: '=' :: (m.kind.name.toList ++
    ' ' :: (Numeral.decimalChars m.port.toNat ++ ' ' :: m.proto.toList ++ m.formatChars)) ++
      lineBreak := by
  unfold mediaChars
  simp [formatChars, List.flatMap_map]

theorem opens_formatChars (m : Section) : Opens [' ', '\r', '\n'] m.formatChars :=
  opens_flatMap fun _ _ ↦ opens_cons (by simp) _

/-- The formats are read up to the end of the line. -/
theorem WellFormed.many_readNextWord (h : m.WellFormed) (hrest : Opens ['\r', '\n'] rest) :
    many readNextWord (m.formatChars ++ rest) = (m.formats.map String.toList, rest) := by
  refine many_flatMap (Opens [' ', '\r', '\n']) ?_ (hrest.mono (by simp))
    (fun w _ cs ↦ ⟨List.cons_ne_nil _ _, opens_cons (by simp) _⟩) fun w hw cs hcs ↦ ?_
  · cases rest with
    | nil => rfl
    | cons c rest =>
      have hc : c ≠ ' ' := fun he ↦ by simpa [he] using hrest c rfl
      simp [readNextWord, readChar, hc]
  · obtain ⟨f, hf, rfl⟩ := List.mem_map.mp hw
    exact readNextWord_filled (h.formats f hf) hcs

theorem WellFormed.readMedia_chars (h : m.WellFormed) (rest : List Char) :
    readMedia (m.mediaChars ++ rest) = some
      ({ kind := m.kind, port := m.port, proto := m.proto, formats := m.formats }, rest) := by
  rw [mediaChars_eq]
  refine readLine_written (List.mem_singleton.mpr rfl) ?_
  have hkind := readWord_filled h.kind.filled (opens_cons (c := ' ') (by simp)
    (Numeral.decimalChars m.port.toNat ++
      (' ' :: m.proto.toList ++ (m.formatChars ++ (lineBreak ++ rest)))))
  have hport := readPort_decimal m.port (m.proto.toList ++ (m.formatChars ++ (lineBreak ++ rest)))
  have hformats := h.many_readNextWord (opens_lineBreak (by simp) rest)
  have hproto := readNextWord_filled h.proto
    (m.opens_formatChars.append (opens_lineBreak (by simp) rest))
  simp only [List.append_assoc, List.cons_append] at hkind hport hproto ⊢
  simp only [hkind, readChar_cons, hport, hproto, hformats, Option.bind_eq_bind, Option.bind_some,
    Option.pure_def, String.ofList_toList, h.kind.ofName_name, List.map_map]
  simp

theorem WellFormed.readSection_chars (h : m.WellFormed) (hrest : Opens ['m'] rest) :
    readSection (m.chars ++ rest) = some (m, rest) := by
  have hattrs : Opens ['a', 'm'] (m.attrs.flatMap Attribute.chars ++ rest) :=
    ((opens_attributes m.attrs).mono (by simp)).append (hrest.mono (by simp))
  have hbandwidth : Opens ['b', 'a', 'm'] ((m.bandwidth.map Bandwidth.chars).getD [] ++
      (m.attrs.flatMap Attribute.chars ++ rest)) :=
    ((opens_bandwidth m.bandwidth).mono (by simp)).append (hattrs.mono (by simp))
  have hconnection : Opens ['c', 'b', 'a', 'm'] ((m.connection.map connectionChars).getD [] ++
      ((m.bandwidth.map Bandwidth.chars).getD [] ++
        (m.attrs.flatMap Attribute.chars ++ rest))) :=
    ((opens_connection m.connection).mono (by simp)).append (hbandwidth.mono (by simp))
  simp only [chars, List.append_assoc, readSection, h.readMedia_chars, Option.bind_eq_bind,
    Option.bind_some]
  rw [many_of_none (readLine_eq_none hconnection (by simp)),
    maybe_getD (fun c hc ↦ readConnection_chars (h.connection c hc) _)
      (readLine_eq_none hbandwidth (by simp)),
    maybe_readBandwidth h.bandwidth (readLine_eq_none hattrs (by simp)),
    many_readAttribute h.attrs (readLine_eq_none hrest (by simp))]
  simp

theorem exists_chars_eq (m : Section) : ∃ tail, m.chars = 'm' :: tail := by
  rw [chars, mediaChars_eq]
  exact ⟨_, rfl⟩

end Section

/-! ## Session parts -/

namespace SessionPart

open Sdp

theorem originChars_eq (s : SessionPart) : s.originChars = 'o' :: '=' :: ('-' :: ' ' ::
    (Numeral.decimalChars s.id.toNat ++ ' ' :: (Numeral.decimalChars s.version.toNat ++
      ' ' :: "IN IP4 0.0.0.0".toList))) ++ lineBreak := by
  unfold originChars
  simp

theorem readOrigin_chars (s : SessionPart) (rest : List Char) :
    readOrigin (s.originChars ++ rest) = some ((s.id, s.version), rest) := by
  rw [originChars_eq]
  refine readLine_written (List.mem_singleton.mpr rfl) ?_
  have huser := readWord_filled (w := ['-']) (by simp [Filled]) (opens_cons (c := ' ') (by simp)
    (Numeral.decimalChars s.id.toNat ++ (' ' :: (Numeral.decimalChars s.version.toNat ++
      (' ' :: ("IN IP4 0.0.0.0".toList ++ (lineBreak ++ rest)))))))
  have hid := readNumber_decimal s.id.toNat_lt_size (opens_cons (List.mem_singleton.mpr rfl)
    (Numeral.decimalChars s.version.toNat ++
      (' ' :: ("IN IP4 0.0.0.0".toList ++ (lineBreak ++ rest)))))
  have hversion := readNumber_decimal s.version.toNat_lt_size (opens_cons
    (List.mem_singleton.mpr rfl) ("IN IP4 0.0.0.0".toList ++ (lineBreak ++ rest)))
  have haddress := readAny_filled (w := "IN IP4 0.0.0.0".toList) (by simp [Filled])
    (opens_lineBreak (by simp) rest)
  simp only [List.cons_append, List.nil_append, List.append_assoc] at huser ⊢
  simp only [huser, hid, hversion, haddress, readChar_cons, Option.bind_eq_bind, Option.bind_some,
    Option.pure_def, UInt64.ofNat_toNat]

/-- The lines whose values mean nothing between the peers. -/
theorem readAny_line {t : Char} {w : List Char} (hw : Filled ['\r', '\n'] w) (rest : List Char) :
    readLine [t] readAny (t :: '=' :: w ++ lineBreak ++ rest) = some (w, rest) :=
  readLine_written (List.mem_singleton.mpr rfl) (readAny_filled hw (opens_lineBreak (by simp) rest))

theorem chars_append (s : SessionPart) (rest : List Char) : s.chars ++ rest =
    'v' :: '=' :: ['0'] ++ lineBreak ++ (s.originChars ++ ('s' :: '=' :: ['-'] ++ lineBreak ++
      ((s.bandwidth.map Bandwidth.chars).getD [] ++ ('t' :: '=' :: ['0', ' ', '0'] ++ lineBreak ++
        (s.attrs.flatMap Attribute.chars ++ rest))))) := by
  unfold chars
  simp only [String.reduceToList, List.append_assoc, List.cons_append, List.nil_append]

theorem readSession_chars {s : SessionPart} {rest : List Char}
    (hbandwidth : ∀ b ∈ s.bandwidth, b.WellFormed) (hattrs : ∀ a ∈ s.attrs, a.WellFormed)
    (hrest : Opens ['m'] rest) : readSession (s.chars ++ rest) = some (s, rest) := by
  have hopen : Opens ['a', 'm'] (s.attrs.flatMap Attribute.chars ++ rest) :=
    ((opens_attributes s.attrs).mono (by simp)).append (hrest.mono (by simp))
  have htime : Opens ['t'] ('t' :: '=' :: ['0', ' ', '0'] ++ lineBreak ++
      (s.attrs.flatMap Attribute.chars ++ rest)) := opens_cons (List.mem_singleton.mpr rfl) _
  have hpassed : Opens ['b', 't'] ((s.bandwidth.map Bandwidth.chars).getD [] ++
      ('t' :: '=' :: ['0', ' ', '0'] ++ lineBreak ++ (s.attrs.flatMap Attribute.chars ++ rest))) :=
    ((opens_bandwidth s.bandwidth).mono (by simp)).append (htime.mono (by simp))
  have hversion (cs : List Char) :
      readVersion ('v' :: '=' :: ['0'] ++ lineBreak ++ cs) = some ((), cs) := rfl
  have hsubject := readAny_line (t := 's') (w := ['-']) (by simp [Filled])
  have htimes := readAny_line (t := 't') (w := ['0', ' ', '0']) (by simp [Filled])
  rw [chars_append]
  simp only [readSession, hversion, readOrigin_chars, hsubject, Option.bind_eq_bind,
    Option.bind_some]
  rw [many_of_none (readLine_eq_none hpassed (by simp)),
    maybe_readBandwidth hbandwidth (readLine_eq_none htime (by simp)), htimes]
  dsimp only [Option.bind_some]
  rw [many_of_none (readLine_eq_none hopen (by simp)),
    many_readAttribute hattrs (readLine_eq_none hrest (by simp))]
  rfl

end SessionPart

/-! ## Descriptions -/

namespace Description

open Sdp

variable {d : Description}

theorem WellFormed.many_readSection (h : d.WellFormed) :
    many readSection (d.sections.flatMap Section.chars) = (d.sections, []) := by
  have hread : many readSection (d.sections.flatMap Section.chars ++ []) = (d.sections, []) := by
    refine many_flatMap (Opens ['m']) rfl (opens_nil _) (fun m _ cs ↦ ?_)
      fun m hm cs hcs ↦ (h.sections m hm).readSection_chars hcs
    obtain ⟨tail, hm⟩ := m.exists_chars_eq
    rw [hm]
    exact ⟨List.cons_ne_nil _ _, opens_cons (List.mem_singleton.mpr rfl) _⟩
  rwa [List.append_nil] at hread

theorem WellFormed.readDescription_chars (h : d.WellFormed) :
    readDescription d.chars = some (d, []) := by
  have hsections : Opens ['m'] (d.sections.flatMap Section.chars) := by
    refine opens_flatMap fun m _ ↦ ?_
    obtain ⟨tail, hm⟩ := m.exists_chars_eq
    rw [hm]
    exact opens_cons (List.mem_singleton.mpr rfl) tail
  simp only [chars, readDescription, SessionPart.readSession_chars h.bandwidth h.attrs hsections,
    h.many_readSection, Option.bind_eq_bind, Option.bind_some, Option.pure_def]

/-- The well-formed descriptions are those that are read back from what is written of them, and they
are those that are read from any text. -/
theorem wellFormed_iff_read (d : Description) :
    (d.WellFormed ↔ ofText? d.text = some d) ∧ (d.WellFormed ↔ ∃ s, ofText? s = some d) := by
  have hback : d.WellFormed → ofText? d.text = some d := by
    intro h
    rw [ofText?, text, String.toList_ofList, h.readDescription_chars, Option.map_some]
  have hread : (∃ s, ofText? s = some d) → d.WellFormed := by
    rintro ⟨s, hs⟩
    obtain ⟨⟨d', rest⟩, hread, rfl⟩ := Option.map_eq_some_iff.mp hs
    exact yields_readDescription _ _ _ hread
  exact ⟨⟨hback, fun h ↦ hread ⟨d.text, h⟩⟩, fun h ↦ ⟨d.text, hback h⟩, hread⟩

/-- A bandwidth type may run over a line end; an attribute may have an empty value, or none. -/
example : WellFormed ⟨⟨1, 1, some ⟨"AS\r\na=mid", "0"⟩, [.of "mid" "", .flag "mid"]⟩,
    [{ kind := .other "text", port := 9, proto := "RTP/AVP" }]⟩ := by decide

end Description

end OfferAnswer
