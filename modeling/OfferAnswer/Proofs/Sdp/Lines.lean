import Mathlib
import OfferAnswer.Proofs.Text.Words
import OfferAnswer.Sdp.Reader

/-!
# What becomes of the lines of a text

Every reader of a line takes a whole line or nothing, so the lines of a text can be counted through
the grammar: what a reader is given has as many lines of a type as its value stands for and its rest
has. `Reader.Counts` says so, and it passes from lines to repetitions and to whole descriptions.

Two kinds of lines are in no value. Reading stops without complaint at the first line that fits
nowhere, and what follows it is left over. And a bandwidth type runs to the first colon, over line
ends if need be, so that lines may begin inside it. `lines_accounted_for` says that these are all.

## A second bandwidth line

A section takes one bandwidth line, after its connection line and before its attributes. Any other
is a line that fits nowhere, and so is every line that is in another order or cannot be read. What
was meant to follow is lost with it: `second_bandwidth_ends_reading` is a text of two sections of
which one is read, and that one without its attributes.
-/

namespace OfferAnswer

/-! ## Counting lines -/

namespace Text

/-- Whether a line has a type. -/
def hasType (t : Char) (line : List Char) : Bool := [t, '='].isPrefixOf line

/-- The number of lines of a type in a text. -/
def lineCount (t : Char) (cs : List Char) : Nat := (splitAt '\n' cs).countP (hasType t)

variable {t : Char} {w cs : List Char}

@[simp] theorem lineCount_nil (t : Char) : lineCount t [] = 0 := rfl

theorem splitAt_ne_nil (sep : Char) (cs : List Char) : splitAt sep cs ≠ [] := by
  cases cs with
  | nil => simp [splitAt]
  | cons c cs =>
    rw [splitAt]
    split
    · simp
    · split <;> simp

theorem splitAt_append_sep (sep : Char) (w cs : List Char) :
    splitAt sep (w ++ sep :: cs) = splitAt sep w ++ splitAt sep cs := by
  induction w with
  | nil => simp [splitAt]
  | cons c w ih =>
    by_cases hc : c = sep
    · simp [splitAt, hc, ih]
    · obtain ⟨v, ws, hws⟩ := List.exists_cons_of_ne_nil (splitAt_ne_nil sep w)
      rw [splitAt_cons_of_ne hc hws, List.cons_append]
      refine splitAt_cons_of_ne hc ?_
      rw [ih, hws]
      rfl

/-- A line end parts the lines before it from those after it. -/
theorem lineCount_append (t : Char) (w cs : List Char) :
    lineCount t (w ++ '\n' :: cs) = lineCount t w + lineCount t cs := by
  rw [lineCount, splitAt_append_sep, List.countP_append]
  rfl

theorem splitAt_append_of_notMem {sep : Char} {v : List Char} (hv : sep ∉ v) (w : List Char) :
    ∃ ws last, splitAt sep w = ws ++ [last] ∧ splitAt sep (w ++ v) = ws ++ [last ++ v] := by
  induction w with
  | nil => exact ⟨[], [], by simp [splitAt], by simp [splitAt_of_notMem hv]⟩
  | cons c w ih =>
    obtain ⟨ws, last, hw, hwv⟩ := ih
    by_cases hc : c = sep
    · exact ⟨[] :: ws, last, by simp [splitAt, hc, hw], by simp [splitAt, hc, hwv]⟩
    · cases ws with
      | nil => exact ⟨[], c :: last, by simp [splitAt, hc, hw], by simp [splitAt, hc, hwv]⟩
      | cons u ws => exact ⟨(c :: u) :: ws, last, by simp [splitAt, hc, hw],
          by simp [splitAt, hc, hwv]⟩

/-- What continues the last line with a character that is in no type leaves all types alone. -/
theorem lineCount_append_of_ne {x : Char} (tail : List Char) (hx : x ≠ t) (hequals : x ≠ '=')
    (hline : '\n' ∉ x :: tail) (w : List Char) : lineCount t (w ++ x :: tail) = lineCount t w := by
  obtain ⟨ws, last, hw, hwv⟩ := splitAt_append_of_notMem hline w
  have hlast : hasType t (last ++ x :: tail) = hasType t last := by
    match last with
    | [] => simp [hasType, List.isPrefixOf, hx.symm]
    | [c] => simp [hasType, List.isPrefixOf, hequals.symm]
    | _ :: _ :: _ => simp [hasType, List.isPrefixOf]
  rw [lineCount, lineCount, hw, hwv, List.countP_append, List.countP_append]
  simp [hlast]

theorem lineCount_line {u : Char} (hu : u ≠ '\n') (hw : '\n' ∉ w) :
    lineCount t (u :: '=' :: w) = if u = t then 1 else 0 := by
  have hline : '\n' ∉ u :: '=' :: w := by simp [hu.symm, hw]
  rw [lineCount, splitAt_of_notMem hline]
  by_cases h : u = t
  · simp [hasType, List.isPrefixOf, h]
  · simp [hasType, List.isPrefixOf, h, Ne.symm h]

end Text

/-! ## Readers that stay in their line -/

namespace Sdp

open Text (lineCount hasType lineCount_append lineCount_append_of_ne lineCount_line)

/-- Whether a text is taken up to a rest without passing a line end. -/
def InLine (cs rest : List Char) : Prop := ∃ used, cs = used ++ rest ∧ '\n' ∉ used

theorem InLine.refl (cs : List Char) : InLine cs cs := ⟨[], rfl, List.not_mem_nil⟩

theorem InLine.trans {cs cs' rest : List Char} (h : InLine cs cs') (h' : InLine cs' rest) :
    InLine cs rest := by
  obtain ⟨used, rfl, hused⟩ := h
  obtain ⟨more, rfl, hmore⟩ := h'
  exact ⟨used ++ more, by simp, by simp [hused, hmore]⟩

/-- A reader that takes no line end. -/
def Reader.StaysInLine {α : Type} (r : Reader α) : Prop :=
  ∀ cs a rest, r cs = some (a, rest) → InLine cs rest

variable {α : Type} {cs rest : List Char}

theorem inLine_readChar {c : Char} (hc : c ≠ '\n') (h : readChar c cs = some rest) :
    InLine cs rest := by
  cases cs with
  | nil => cases h
  | cons d cs =>
    rw [readChar] at h
    split at h
    · rename_i hd
      cases h
      exact ⟨[d], rfl, by simp [hd, hc.symm]⟩
    · cases h

theorem inLine_dropWhile {p : Char → Bool} (hp : p '\n' = false) (cs : List Char) :
    InLine cs (cs.dropWhile p) := by
  refine ⟨cs.takeWhile p, List.takeWhile_append_dropWhile.symm, ?_⟩
  intro hmem
  have hall := List.all_eq_true.mp (List.all_takeWhile (p := p) (l := cs)) _ hmem
  rw [hp] at hall
  cases hall

theorem staysInLine_readSome {p : Char → Bool} (hp : p '\n' = false) :
    (readSome p).StaysInLine := by
  intro cs a rest h
  rw [readSome] at h
  split at h
  · cases h
  · cases h
    exact inLine_dropWhile hp cs

theorem staysInLine_readAny : readAny.StaysInLine := staysInLine_readSome (by decide)

theorem inLine_readWord {word : List Char} (h : Text.readWord cs = some (word, rest)) :
    InLine cs rest := by
  rw [Text.readWord] at h
  split at h
  · cases h
  · cases h
    exact inLine_dropWhile (by decide) cs

theorem staysInLine_readNumber (bound : Nat) : (readNumber bound).StaysInLine := by
  intro cs n rest h
  simp only [readNumber, Option.bind_eq_bind, Option.bind_eq_some_iff] at h
  obtain ⟨⟨ds, cs'⟩, hds, n', -, h⟩ := h
  cases h
  exact staysInLine_readSome (by decide) _ _ _ hds

/-! ## Lines with a count -/

/-- A reader whose values stand for some number of lines of a type: as many as its text has more
than its rest. -/
def Reader.Counts (t : Char) (weight : α → Nat) (r : Reader α) : Prop :=
  ∀ cs a rest, r cs = some (a, rest) → lineCount t cs = weight a + lineCount t rest

variable {t : Char} {weight : α → Nat} {r : Reader α}

theorem lineCount_of_readLineEnd (ht : t ≠ '\r') (h : readLineEnd cs = some rest) (w : List Char) :
    lineCount t (w ++ cs) = lineCount t w + lineCount t rest := by
  rw [readLineEnd.eq_def] at h
  split at h
  · cases h
    have hreturn := lineCount_append_of_ne [] ht.symm (by decide) (by decide) w
    rw [← hreturn, ← lineCount_append, List.append_assoc]
    rfl
  · cases h
    exact lineCount_append t w _
  · cases h
    simp
  · cases h

theorem readLine_spec {types : List Char} {body : Reader α} {a : α}
    (h : readLine types body cs = some (a, rest)) : ∃ u ∈ types, ∃ cs' cs'',
      cs = u :: '=' :: cs' ∧ body cs' = some (a, cs'') ∧ readLineEnd cs'' = some rest := by
  rw [readLine.eq_def] at h
  split at h
  · rename_i u cs'
    split at h
    · rename_i hu
      simp only [Option.bind_eq_bind, Option.bind_eq_some_iff] at h
      obtain ⟨⟨a', cs''⟩, hbody, rest', hend, h⟩ := h
      cases h
      exact ⟨u, hu, cs', cs'', rfl, hbody, hend⟩
    · cases h
  · cases h

/-- A reader of one line whose type is one of `types`. -/
def Reader.LineOf (types : List Char) (r : Reader α) : Prop :=
  ∃ body, r = readLine types body ∧ body.StaysInLine

theorem lineOf_readAny (types : List Char) : (readLine types readAny).LineOf types :=
  ⟨readAny, rfl, staysInLine_readAny⟩

/-- What such a reader takes is the line, with its type in front. -/
theorem Reader.LineOf.spec {types : List Char} {a : α} (hr : r.LineOf types)
    (h : r cs = some (a, rest)) : ∃ u ∈ types, ∃ w cs', '\n' ∉ w ∧
      cs = u :: '=' :: w ++ cs' ∧ readLineEnd cs' = some rest := by
  obtain ⟨body, rfl, hbody⟩ := hr
  obtain ⟨u, hu, cs₁, cs₂, rfl, hread, hend⟩ := readLine_spec h
  obtain ⟨w, rfl, hw⟩ := hbody _ _ _ hread
  exact ⟨u, hu, w, cs₂, hw, rfl, hend⟩

/-- The types that are counted: those of sections and of attributes. -/
def IsCounted (t : Char) : Prop := t = 'm' ∨ t = 'a'

theorem IsCounted.ne {u : Char} (ht : IsCounted t) (hm : u ≠ 'm') (ha : u ≠ 'a') : u ≠ t := by
  rcases ht with rfl | rfl
  · exact hm
  · exact ha

theorem Reader.LineOf.lineCount_eq {types : List Char} {a : α} (hr : r.LineOf types)
    (ht : IsCounted t) (hend : '\n' ∉ types) (h : r cs = some (a, rest)) :
    ∃ u ∈ types, lineCount t cs = (if u = t then 1 else 0) + lineCount t rest := by
  obtain ⟨u, hu, w, cs', hw, rfl, hline⟩ := hr.spec h
  have hne : u ≠ '\n' := fun he ↦ hend (he ▸ hu)
  refine ⟨u, hu, ?_⟩
  rw [lineCount_of_readLineEnd (ht.ne (by decide) (by decide)).symm hline, lineCount_line hne hw]

theorem Reader.LineOf.counts {u : Char} (hr : r.LineOf [u]) (ht : IsCounted t) (hu : u ≠ '\n') :
    r.Counts t fun _ ↦ if u = t then 1 else 0 := by
  intro cs a rest h
  obtain ⟨v, hv, hcount⟩ := hr.lineCount_eq ht (by simpa using hu.symm) h
  rw [List.mem_singleton] at hv
  rw [hcount, hv]

/-- Lines that are passed over count for neither type. -/
theorem Reader.LineOf.counts_zero {types : List Char} (hr : r.LineOf types) (ht : IsCounted t)
    (hend : '\n' ∉ types) (htypes : ∀ u ∈ types, u ≠ 'm' ∧ u ≠ 'a') :
    r.Counts t fun _ ↦ 0 := by
  intro cs a rest h
  obtain ⟨u, hu, hcount⟩ := hr.lineCount_eq ht hend h
  have hne := ht.ne (htypes u hu).1 (htypes u hu).2
  rw [hcount, if_neg hne]

/-! ## Repetition and choice -/

theorem Reader.Counts.many (h : r.Counts t weight) (cs : List Char) :
    lineCount t cs = ((many r cs).1.map weight).sum + lineCount t (many r cs).2 := by
  induction cs using many.induct r with
  | case1 cs hread => simp [Sdp.many, hread]
  | case2 cs a rest hread hshort as rest' hmany ih =>
    have hone := h cs a rest hread
    rw [Sdp.many, hread]
    simp only [hshort, if_true, List.map_cons, List.sum_cons]
    omega
  | case3 cs a rest hread hlong =>
    have hone := h cs a rest hread
    rw [Sdp.many, hread]
    simpa [hlong] using hone

theorem Reader.Counts.maybe (h : r.Counts t weight) (cs : List Char) :
    lineCount t cs = ((maybe r cs).1.map weight).getD 0 + lineCount t (maybe r cs).2 := by
  rw [Sdp.maybe]
  cases hread : r cs with
  | none => simp
  | some x => simpa using h cs x.1 x.2 hread

end Sdp

/-! ## Bandwidth lines -/

/-- The number of lines of a type that begin inside a bandwidth type. -/
def Bandwidth.linesInside (t : Char) (b : Bandwidth) : Nat :=
  ((Text.splitAt '\n' b.type.toList).drop 1).countP (Text.hasType t)

namespace Sdp

open Text (lineCount hasType lineCount_append_of_ne)

variable {t : Char} {cs rest : List Char}

/-- The type of a bandwidth line runs to a colon, over line ends; the value stays in its line. -/
theorem readBandwidth_spec {b : Bandwidth} (h : readBandwidth cs = some (b, rest)) :
    ∃ w cs', ':' ∉ b.type.toList ∧ '\n' ∉ w ∧ cs = 'b' :: '=' :: b.type.toList ++ ':' :: w ++ cs' ∧
      readLineEnd cs' = some rest := by
  obtain ⟨u, hu, cs₀, cs'', rfl, hread, hline⟩ := readLine_spec h
  rw [List.mem_singleton] at hu
  simp only [Option.bind_eq_bind, Option.bind_eq_some_iff] at hread
  obtain ⟨⟨type, cs₁⟩, htype, cs₂, hcolon, ⟨value, cs₃⟩, hvalue, hread⟩ := hread
  cases hread
  -- the type is all that stands before the first colon
  obtain ⟨hnone, rfl⟩ : ':' ∉ type ∧ cs₀ = type ++ cs₁ := by
    rw [readSome] at htype
    split at htype
    · cases htype
    · cases htype
      exact ⟨fun hmem ↦ by simpa using List.mem_takeWhile_imp hmem,
        List.takeWhile_append_dropWhile.symm⟩
  obtain rfl : cs₁ = ':' :: cs₂ := by
    cases cs₁ with
    | nil => cases hcolon
    | cons c cs₁ =>
      rw [readChar] at hcolon
      split at hcolon
      · rename_i hc
        cases hcolon
        rw [hc]
      · cases hcolon
  obtain ⟨w, rfl, hw⟩ := staysInLine_readAny _ _ _ hvalue
  refine ⟨w, cs₃, ?_, hw, ?_, hline⟩
  · rwa [String.toList_ofList]
  · rw [hu, String.toList_ofList]
    simp

theorem lineCount_bandwidth (ht : IsCounted t) (type : List Char) :
    lineCount t ('b' :: '=' :: type) =
      ((Text.splitAt '\n' type).drop 1).countP (hasType t) := by
  have hb := ht.ne (u := 'b') (by decide) (by decide)
  obtain ⟨first, more, hsplit⟩ := List.exists_cons_of_ne_nil (Text.splitAt_ne_nil '\n' type)
  have hfirst : Text.splitAt '\n' ('b' :: '=' :: type) = ('b' :: '=' :: first) :: more :=
    Text.splitAt_cons_of_ne (by decide) (Text.splitAt_cons_of_ne (by decide) hsplit)
  rw [lineCount, hfirst, hsplit]
  simp [hasType, hb.symm]

theorem counts_readBandwidth (ht : IsCounted t) :
    readBandwidth.Counts t (Bandwidth.linesInside t) := by
  intro cs b rest h
  obtain ⟨w, cs', -, hw, rfl, hline⟩ := readBandwidth_spec h
  have hlast := lineCount_append_of_ne (x := ':') w (ht.ne (by decide) (by decide)) (by decide)
    (by simpa using hw) ('b' :: '=' :: b.type.toList)
  rw [lineCount_of_readLineEnd (ht.ne (by decide) (by decide)).symm hline, hlast,
    lineCount_bandwidth ht, Bandwidth.linesInside]

/-! ## Attribute lines and section lines -/

theorem lineOf_readAttribute : readAttribute.LineOf ['a'] := by
  refine ⟨_, rfl, ?_⟩
  intro cs a rest h
  simp only [Option.bind_eq_bind, Option.bind_eq_some_iff] at h
  obtain ⟨⟨key, cs'⟩, hkey, h⟩ := h
  have hin := staysInLine_readSome (p := inKey) (by decide) _ _ _ hkey
  refine hin.trans ?_
  dsimp only at h
  split at h
  · rename_i cs''
    cases h
    have hcolon : InLine (':' :: cs'') cs'' := ⟨[':'], rfl, by decide⟩
    exact hcolon.trans (inLine_dropWhile (by decide) cs'')
  · cases h
    exact .refl _

theorem staysInLine_readNextWord : readNextWord.StaysInLine := by
  intro cs a rest h
  simp only [readNextWord, Option.bind_eq_bind, Option.bind_eq_some_iff] at h
  obtain ⟨cs', hspace, hword⟩ := h
  exact (inLine_readChar (by decide) hspace).trans (inLine_readWord hword)

theorem staysInLine_readPort : readPort.StaysInLine := by
  intro cs a rest h
  simp only [readPort, Option.bind_eq_bind, Option.bind_eq_some_iff] at h
  obtain ⟨⟨ds, cs'⟩, hds, h⟩ := h
  refine (staysInLine_readSome (by decide) _ _ _ hds).trans ?_
  dsimp only at h
  split at h
  · rename_i more
    have hslash : InLine ('/' :: more) more := ⟨['/'], rfl, by decide⟩
    cases hmore : readSome Char.isDigit more with
    | none => simp [hmore] at h
    | some x =>
      obtain ⟨n, -, -, rfl⟩ : ∃ n, Numeral.readDigits UInt16.size ds = some n ∧
          UInt16.ofNat n = a ∧ x.2 = rest := by simpa [hmore, Option.bind_eq_some_iff] using h
      exact hslash.trans (staysInLine_readSome (by decide) _ _ _ hmore)
  · obtain ⟨n, -, -, rfl⟩ : ∃ n, Numeral.readDigits UInt16.size ds = some n ∧
        UInt16.ofNat n = a ∧ cs' = rest := by simpa [Option.bind_eq_some_iff] using h
    exact .refl _

theorem inLine_many {α : Type} {r : Reader α} (hr : r.StaysInLine) (cs : List Char) :
    InLine cs (many r cs).2 := by
  induction cs using many.induct r with
  | case1 cs hread =>
    rw [many, hread]
    exact .refl cs
  | case2 cs a rest hread hshort as rest' hmany ih =>
    rw [many, hread]
    simpa [hshort] using (hr cs a rest hread).trans ih
  | case3 cs a rest hread hlong =>
    rw [many, hread]
    simpa [hlong] using hr cs a rest hread

theorem lineOf_readMedia : readMedia.LineOf ['m'] := by
  refine ⟨_, rfl, ?_⟩
  intro cs a rest h
  simp only [Option.bind_eq_bind, Option.bind_eq_some_iff] at h
  obtain ⟨⟨kind, cs₁⟩, hkind, cs₂, hspace, ⟨port, cs₃⟩, hport, ⟨proto, cs₄⟩, hproto, h⟩ := h
  cases h
  have hhead := (inLine_readWord hkind).trans (inLine_readChar (by decide) hspace)
  have hrest := (staysInLine_readPort _ _ _ hport).trans (staysInLine_readNextWord _ _ _ hproto)
  exact (hhead.trans hrest).trans (inLine_many staysInLine_readNextWord cs₄)

end Sdp

/-! ## Sections and descriptions -/

/-- The number of lines of a type that begin inside the bandwidth type, if there is one. -/
def Section.linesInside (t : Char) (m : Section) : Nat :=
  (m.bandwidth.map (Bandwidth.linesInside t)).getD 0

/-- The number of lines of a type that begin inside the bandwidth type, if there is one. -/
def SessionPart.linesInside (t : Char) (p : SessionPart) : Nat :=
  (p.bandwidth.map (Bandwidth.linesInside t)).getD 0

/-- The number of lines of a type that begin inside the bandwidth types of a description. -/
def Description.linesInside (t : Char) (d : Description) : Nat :=
  d.session.linesInside t + (d.sections.map (Section.linesInside t)).sum

/-- The attributes of a description, those of the session part and those of the sections. -/
def Description.attrCount (d : Description) : Nat :=
  d.session.attrs.length + (d.sections.map (·.attrs.length)).sum

namespace Sdp

open Text (lineCount)

variable {t : Char}

theorem counts_readAny_zero (ht : IsCounted t) (types : List Char) (hend : '\n' ∉ types)
    (htypes : ∀ u ∈ types, u ≠ 'm' ∧ u ≠ 'a') :
    (readLine types readAny).Counts t fun _ ↦ 0 :=
  (lineOf_readAny types).counts_zero ht hend htypes

theorem lineCount_many_zero {α : Type} {r : Reader α} (h : r.Counts t fun _ ↦ 0)
    (cs : List Char) : lineCount t (many r cs).2 = lineCount t cs := by
  have hmany := h.many cs
  rw [List.map_const', List.sum_replicate_nat, Nat.mul_zero, Nat.zero_add] at hmany
  exact hmany.symm

theorem lineCount_many_attributes (ht : IsCounted t) (cs : List Char) :
    lineCount t cs = (if 'a' = t then (many readAttribute cs).1.length else 0) +
      lineCount t (many readAttribute cs).2 := by
  have hmany := (lineOf_readAttribute.counts ht (by decide)).many cs
  rw [List.map_const', List.sum_replicate_nat] at hmany
  rw [hmany]
  split <;> simp

/-- What a section counts for: its own line, its attributes, and what its bandwidth type hides. -/
theorem counts_readSection (ht : IsCounted t) :
    readSection.Counts t fun m ↦ (if 'm' = t then 1 else 0) + m.linesInside t +
      (if 'a' = t then m.attrs.length else 0) := by
  intro cs m rest h
  simp only [readSection, Option.bind_eq_bind, Option.bind_eq_some_iff] at h
  obtain ⟨⟨m₀, cs₁⟩, hmedia, h⟩ := h
  cases h
  have hline := lineOf_readMedia.counts ht (by decide) _ _ _ hmedia
  have htitle := lineCount_many_zero (counts_readAny_zero ht ['i'] (by decide) (by simp)) cs₁
  have hconnection := (counts_readAny_zero ht ['c'] (by decide) (by simp)).maybe
    (many (readLine ['i'] readAny) cs₁).2
  have hbandwidth := (counts_readBandwidth ht).maybe
    (maybe (readLine ['c'] readAny) (many (readLine ['i'] readAny) cs₁).2).2
  have hattrs := lineCount_many_attributes ht (maybe readBandwidth
    (maybe (readLine ['c'] readAny) (many (readLine ['i'] readAny) cs₁).2).2).2
  rw [← htitle, hconnection, hbandwidth, hattrs] at hline
  have hnone (o : Option (List Char)) : (o.map fun _ ↦ 0).getD 0 = 0 := by cases o <;> rfl
  rw [hnone] at hline
  rw [hline]
  simp only [Section.linesInside]
  omega

theorem lineOf_readVersion : readVersion.LineOf ['v'] := by
  refine ⟨_, rfl, ?_⟩
  intro cs a rest h
  obtain ⟨rest', hzero, h⟩ := Option.map_eq_some_iff.mp h
  cases h
  exact inLine_readChar (by decide) hzero

theorem lineOf_readOrigin : readOrigin.LineOf ['o'] := by
  refine ⟨_, rfl, ?_⟩
  intro cs a rest h
  simp only [Option.bind_eq_bind, Option.bind_eq_some_iff] at h
  obtain ⟨⟨user, cs₁⟩, huser, cs₂, hspace, ⟨id, cs₃⟩, hid, cs₄, hspace', ⟨version, cs₅⟩, hversion,
    cs₆, hspace'', ⟨host, cs₇⟩, hhost, h⟩ := h
  cases h
  have hfirst := (inLine_readWord huser).trans (inLine_readChar (by decide) hspace)
  have hsecond := (staysInLine_readNumber _ _ _ _ hid).trans
    (inLine_readChar (by decide) hspace')
  have hthird := (staysInLine_readNumber _ _ _ _ hversion).trans
    (inLine_readChar (by decide) hspace'')
  exact ((hfirst.trans hsecond).trans hthird).trans (staysInLine_readAny _ _ _ hhost)

/-- What a session part counts for: its attributes, and what its bandwidth type hides. -/
theorem counts_readSession (ht : IsCounted t) :
    readSession.Counts t fun p ↦ p.linesInside t + (if 'a' = t then p.attrs.length else 0) := by
  intro cs p rest h
  simp only [readSession, Option.bind_eq_bind, Option.bind_eq_some_iff] at h
  obtain ⟨⟨_, cs₁⟩, hversion, ⟨⟨id, version⟩, cs₂⟩, horigin, ⟨_, cs₃⟩, hsubject, ⟨_, cs₄⟩, htime,
    h⟩ := h
  cases h
  have hhead := lineOf_readVersion.counts_zero ht (by decide) (by simp) _ _ _ hversion
  have hname := lineOf_readOrigin.counts_zero ht (by decide) (by simp) _ _ _ horigin
  have htitle := counts_readAny_zero ht ['s'] (by decide) (by simp) _ _ _ hsubject
  have hpassed := lineCount_many_zero (counts_readAny_zero ht
    ['i', 'u', 'e', 'p', 'c', 'z', 'k'] (by decide) (by simp)) cs₃
  have hbandwidth := (counts_readBandwidth ht).maybe
    (many (readLine ['i', 'u', 'e', 'p', 'c', 'z', 'k'] readAny) cs₃).2
  have hclock := counts_readAny_zero ht ['t'] (by decide) (by simp) _ _ _ htime
  have hrepeats := lineCount_many_zero (counts_readAny_zero ht ['r'] (by decide)
    (by simp)) cs₄
  have hattrs := lineCount_many_attributes ht (many (readLine ['r'] readAny) cs₄).2
  simp only [SessionPart.linesInside]
  dsimp only at *
  omega

theorem sum_counts_sections (t : Char) (ms : List Section) :
    (ms.map fun m ↦ (if 'm' = t then 1 else 0) + m.linesInside t +
      (if 'a' = t then m.attrs.length else 0)).sum =
    (if 'm' = t then ms.length else 0) + (ms.map (Section.linesInside t)).sum +
      (if 'a' = t then (ms.map (·.attrs.length)).sum else 0) := by
  induction ms with
  | nil => simp
  | cons m ms ih =>
    simp only [List.map_cons, List.sum_cons, List.length_cons, ih]
    split <;> split <;> omega

theorem counts_readDescription (ht : IsCounted t) :
    readDescription.Counts t fun d ↦ (if 'm' = t then d.sections.length else 0) +
      (if 'a' = t then d.attrCount else 0) + d.linesInside t := by
  intro cs d rest h
  simp only [readDescription, Option.bind_eq_bind, Option.bind_eq_some_iff] at h
  obtain ⟨⟨p, cs₁⟩, hsession, h⟩ := h
  cases h
  have hhead := counts_readSession ht _ _ _ hsession
  have hsections := (counts_readSection ht).many cs₁
  rw [sum_counts_sections] at hsections
  simp only [Description.attrCount, Description.linesInside]
  dsimp only at *
  by_cases ha : 'a' = t
  · simp only [ha, if_true] at hhead hsections ⊢
    omega
  · simp only [ha, if_false] at hhead hsections ⊢
    omega

end Sdp

namespace Description

variable {s : String} {d : Description}

/-- Where the section and attribute lines of a text are after reading: a section or an attribute for
each, but for those that a bandwidth type hides and those after the place where reading stopped. -/
theorem lines_accounted_for (h : ofText? s = some d) :
    ∃ unread, Sdp.readDescription s.toList = some (d, unread) ∧
      Text.lineCount 'm' s.toList =
        d.sections.length + d.linesInside 'm' + Text.lineCount 'm' unread ∧
      Text.lineCount 'a' s.toList =
        d.attrCount + d.linesInside 'a' + Text.lineCount 'a' unread := by
  obtain ⟨⟨d', unread⟩, hread, rfl⟩ := Option.map_eq_some_iff.mp h
  have hsections := Sdp.counts_readDescription (t := 'm') (.inl rfl) _ _ _ hread
  have hattrs := Sdp.counts_readDescription (t := 'a') (.inr rfl) _ _ _ hread
  refine ⟨unread, hread, ?_, ?_⟩
  · simpa using hsections
  · simpa using hattrs

/-- Two sections, of which the first has two bandwidth lines. -/
def twoBandwidths : String :=
  "v=0\r\no=- 1 1 IN IP4 0.0.0.0\r\ns=-\r\nt=0 0\r\nm=video 9 RTP/AVP 96\r\nb=AS:500\r\n" ++
    "b=TIAS:500000\r\na=mid:0\r\nm=audio 9 RTP/AVP 0\r\na=mid:1\r\n"

theorem twoBandwidths_lines_accounted_for : ∃ d, ofText? twoBandwidths = some d ∧
    ∃ unread, Sdp.readDescription twoBandwidths.toList = some (d, unread) ∧
      Text.lineCount 'm' twoBandwidths.toList =
        d.sections.length + d.linesInside 'm' + Text.lineCount 'm' unread ∧
      Text.lineCount 'a' twoBandwidths.toList =
        d.attrCount + d.linesInside 'a' + Text.lineCount 'a' unread := by
  have hread : (ofText? twoBandwidths).isSome = true := by decide +kernel
  obtain ⟨d, hd⟩ := Option.isSome_iff_exists.mp hread
  exact ⟨d, hd, lines_accounted_for hd⟩

/-- A text that is read without complaint, with two section lines and two attribute lines, of which
one section and no attribute are in the description. -/
theorem second_bandwidth_ends_reading :
    Text.lineCount 'm' twoBandwidths.toList = 2 ∧ Text.lineCount 'a' twoBandwidths.toList = 2 ∧
      ∃ d, ofText? twoBandwidths = some d ∧ d.sections.length = 1 ∧ d.attrCount = 0 := by
  have hcounts : (ofText? twoBandwidths).map (fun d ↦ (d.sections.length, d.attrCount)) =
      some (1, 0) := by decide +kernel
  obtain ⟨d, hd, hpair⟩ := Option.map_eq_some_iff.mp hcounts
  obtain ⟨hsections, hattrs⟩ := Prod.mk.inj hpair
  exact ⟨by decide +kernel, by decide +kernel, d, hd, hsections, hattrs⟩

end Description

end OfferAnswer
