import OfferAnswer.Proofs.Sdp.Lines
import OfferAnswer.Proofs.Sdp.WellFormed

/-!
# Which fields stay in their line

A field that runs over a line end takes the lines behind it along: attributes, time lines and
sections become part of a text that nobody looks into. All texts of a description end with their
line by how they are read, but for the types of bandwidth lines, which run to a colon wherever it
is.

Which texts have such a type is decided line by line. A `b=` line without a colon is *bare*, and a
type spans lines exactly if a bare line is read: the type begins in it, and in any other line it
ends at the colon. So readers are followed by the lines that they take. `Passes P cs rest` says that
reading from `cs` to `rest` takes whole lines, and that `P` is what it means for none of them to be
bare; it composes along a grammar, and `P` with it.
-/

namespace OfferAnswer

/-! ## Bare lines -/

namespace Text

open Sdp (inLine inLine_iff)

/-- Whether a text ends with its line: no line end is in it. -/
def WithinLine (s : String) : Prop := '\r' ∉ s.toList ∧ '\n' ∉ s.toList

instance (s : String) : Decidable (WithinLine s) := inferInstanceAs (Decidable (_ ∧ _))

theorem withinLine_iff {s : String} : WithinLine s ↔ ∀ c ∈ s.toList, inLine c = true := by
  simp only [inLine_iff, WithinLine, List.mem_cons, List.not_mem_nil, or_false, not_or]
  constructor
  · rintro ⟨hreturn, hfeed⟩ c hc
    exact ⟨fun he ↦ hreturn (he ▸ hc), fun he ↦ hfeed (he ▸ hc)⟩
  · intro h
    exact ⟨fun hc ↦ (h _ hc).1 rfl, fun hc ↦ (h _ hc).2 rfl⟩

theorem Filled.withinLine {ends : List Char} {s : String} (h : Filled ends s.toList)
    (hends : ['\r', '\n'] ⊆ ends) : WithinLine s :=
  ⟨h.2 _ (hends (by simp)), h.2 _ (hends (by simp))⟩

variable {w cs : List Char} {x : Char}

/-- Whether a text begins with a bandwidth line that has no colon. The line ends at a carriage
return as well as at a line feed. -/
def isBare (cs : List Char) : Bool :=
  hasType 'b' (cs.takeWhile inLine) && !(cs.takeWhile inLine).contains ':'

theorem isBare_append_of_neg (hx : inLine x = false) (w cs : List Char) :
    isBare (w ++ x :: cs) = isBare w := by
  rw [isBare, takeWhile_append_of_neg hx, isBare]

theorem isBare_of_ne (hx : x ≠ 'b') (cs : List Char) : isBare (x :: cs) = false := by
  rw [isBare, List.takeWhile_cons]
  split <;> simp [hasType, List.isPrefixOf, hx.symm]

/-- A line of a bandwidth type and a colon is not bare if the type ends in it. -/
theorem isBare_bandwidth (hw : ':' ∉ w) (cs : List Char) :
    isBare ('b' :: '=' :: w ++ ':' :: cs) = false ↔ ∀ c ∈ w, inLine c = true := by
  have hrun : isBare ('b' :: '=' :: w ++ ':' :: cs) = false ↔
      ':' ∈ (w ++ ':' :: cs).takeWhile inLine := by
    simp [isBare, hasType, List.isPrefixOf, inLine]
  rw [hrun]
  constructor
  · intro hcolon c hc
    by_contra hout
    -- the run ends in front of such a character, in a text without colons
    obtain ⟨before, after, rfl⟩ := List.append_of_mem hc
    rw [List.append_assoc, List.cons_append,
      takeWhile_append_of_neg (Bool.not_eq_true _ ▸ hout)] at hcolon
    exact hw (List.mem_append_left _ ((List.takeWhile_subset _) hcolon))
  · intro h
    rw [List.takeWhile_append_of_pos h]
    exact List.mem_append_right _ List.mem_cons_self

/-- Whether no line of a text is bare. -/
def Clear (cs : List Char) : Prop := ∀ line ∈ splitAt '\n' cs, isBare line = false

theorem clear_of_notMem (h : '\n' ∉ w) : Clear w ↔ isBare w = false := by
  rw [Clear, splitAt_of_notMem h, List.forall_mem_singleton]

theorem clear_nil : Clear [] := (clear_of_notMem List.not_mem_nil).mpr rfl

theorem clear_append (w cs : List Char) : Clear (w ++ '\n' :: cs) ↔ Clear w ∧ Clear cs := by
  rw [Clear, splitAt_append_sep, List.forall_mem_append, Clear, Clear]

theorem clear_append_return (w : List Char) : Clear (w ++ ['\r']) ↔ Clear w := by
  obtain ⟨ws, last, hw, hwv⟩ := splitAt_append_of_notMem (show '\n' ∉ ['\r'] by decide) w
  simp only [Clear, hw, hwv, List.forall_mem_append, List.forall_mem_singleton,
    isBare_append_of_neg (x := '\r') (by decide)]

theorem Clear.isBare_eq_false (h : Clear cs) : isBare cs = false := by
  by_cases hfeed : '\n' ∈ cs
  · obtain ⟨w, rest, rfl, hw⟩ := List.eq_append_cons_of_mem hfeed
    rw [isBare_append_of_neg (by decide)]
    exact (clear_of_notMem hw).mp ((clear_append _ _).mp h).1
  · exact (clear_of_notMem hfeed).mp h

/-- The lines of a bandwidth type and of what follows the colon are not bare exactly if they are
one line. -/
theorem clear_bandwidth (hw : ':' ∉ w) (hcs : '\n' ∉ cs) :
    Clear ('b' :: '=' :: w ++ ':' :: cs) ↔ ∀ c ∈ w, inLine c = true := by
  constructor
  · intro h
    exact (isBare_bandwidth hw cs).mp h.isBare_eq_false
  · intro h
    have hfeed : '\n' ∉ w := fun hmem ↦ absurd (h _ hmem) (by decide)
    exact (clear_of_notMem (by simp [hfeed, hcs])).mpr ((isBare_bandwidth hw cs).mpr h)

end Text

/-! ## Readers and the lines they take -/

namespace Sdp

open Text (Clear WithinLine)

variable {α : Type} {P Q : Prop} {cs mid rest : List Char}

/-- Whether reading takes whole lines, none of which is bare exactly if `P`. -/
def Passes (P : Prop) (cs rest : List Char) : Prop :=
  ∃ used, cs = used ++ rest ∧ (used = [] ∨ rest = [] ∨ ∃ w, used = w ++ ['\n']) ∧
    (P ↔ Clear used)

theorem Passes.refl (cs : List Char) : Passes True cs cs :=
  ⟨[], rfl, .inl rfl, iff_of_true trivial Text.clear_nil⟩

theorem Passes.of_iff (h : Passes P cs rest) (hQ : Q ↔ P) : Passes Q cs rest := by
  obtain ⟨used, hcs, hend, hP⟩ := h
  exact ⟨used, hcs, hend, hQ.trans hP⟩

theorem Passes.trans (h : Passes P cs mid) (h' : Passes Q mid rest) :
    Passes (P ∧ Q) cs rest := by
  obtain ⟨used, rfl, hend, hP⟩ := h
  obtain ⟨used', rfl, hend', hQ⟩ := h'
  refine ⟨used ++ used', (List.append_assoc _ _ _).symm, ?_, ?_⟩
  · rcases hend' with rfl | hrest | ⟨w, rfl⟩
    · rwa [List.append_nil]
    · exact .inr (.inl hrest)
    · exact .inr (.inr ⟨used ++ w, (List.append_assoc _ _ _).symm⟩)
  · rw [hP, hQ]
    -- what was taken first ends with its line, unless nothing is taken before or after
    rcases hend with rfl | hmid | ⟨w, rfl⟩
    · exact and_iff_right Text.clear_nil
    · obtain ⟨rfl, -⟩ := List.append_eq_nil_iff.mp hmid
      rw [List.append_nil]
      exact and_iff_left Text.clear_nil
    · rw [List.append_assoc, List.singleton_append, Text.clear_append, Text.clear_append,
        and_iff_left Text.clear_nil]

/-- Whether what a reader takes are whole lines, none of which is bare exactly if `P` holds of what
it gives. -/
def Reader.Passes (P : α → Prop) (r : Reader α) : Prop :=
  ∀ cs a rest, r cs = some (a, rest) → Sdp.Passes (P a) cs rest

/-- A line end closes the line before it, and that is all it does. -/
theorem passes_readLineEnd (h : readLineEnd cs = some rest) (w : List Char) :
    Passes (Clear w) (w ++ cs) rest := by
  rw [readLineEnd.eq_def] at h
  split at h
  · cases h
    refine ⟨w ++ ['\r'] ++ ['\n'], by simp, .inr (.inr ⟨_, rfl⟩), ?_⟩
    rw [Text.clear_append, Text.clear_append_return, and_iff_left Text.clear_nil]
  · cases h
    refine ⟨w ++ ['\n'], by simp, .inr (.inr ⟨_, rfl⟩), ?_⟩
    rw [Text.clear_append, and_iff_left Text.clear_nil]
  · cases h
    exact ⟨w, rfl, .inr (.inl rfl), .rfl⟩
  · cases h

variable {P : α → Prop} {r : Reader α} {types : List Char}

theorem Reader.LineOf.passes (hr : r.LineOf types) (htypes : ∀ u ∈ types, u ≠ 'b' ∧ u ≠ '\n') :
    r.Passes fun _ ↦ True := by
  intro cs a rest h
  obtain ⟨u, hu, w, cs', hw, rfl, hend⟩ := hr.spec h
  obtain ⟨htype, hfeed⟩ := htypes u hu
  refine (passes_readLineEnd hend _).of_iff (iff_of_true trivial ?_)
  rw [Text.clear_of_notMem (by simp [hfeed.symm, hw])]
  exact Text.isBare_of_ne htype _

/-- A bandwidth type spans lines exactly if its line is bare. -/
theorem passes_readBandwidth : readBandwidth.Passes fun b ↦ WithinLine b.type := by
  intro cs b rest h
  obtain ⟨w, cs', htype, hw, rfl, hend⟩ := readBandwidth_spec h
  exact (passes_readLineEnd hend _).of_iff
    (Text.withinLine_iff.trans (Text.clear_bandwidth htype hw).symm)

theorem Reader.Passes.many (h : r.Passes P) (cs : List Char) :
    Sdp.Passes (∀ a ∈ (many r cs).1, P a) cs (many r cs).2 := by
  induction cs using many.induct r with
  | case1 cs hread =>
    rw [Sdp.many, hread]
    exact (Passes.refl cs).of_iff (by simp)
  | case2 cs a rest hread hshort as rest' hmany ih =>
    rw [Sdp.many, hread]
    simp only [hshort, if_true]
    exact ((h cs a rest hread).trans ih).of_iff List.forall_mem_cons
  | case3 cs a rest hread hlong =>
    rw [Sdp.many, hread]
    simp only [hlong, if_false]
    exact (h cs a rest hread).of_iff List.forall_mem_singleton

theorem Reader.Passes.maybe (h : r.Passes P) (cs : List Char) :
    Sdp.Passes (∀ a ∈ (maybe r cs).1, P a) cs (maybe r cs).2 := by
  rw [Sdp.maybe]
  cases hread : r cs with
  | none => exact (Passes.refl cs).of_iff (by simp)
  | some x => exact (h cs x.1 x.2 hread).of_iff (by simp)

end Sdp

/-! ## The fields of a description -/

/-- The texts of an attribute. -/
def Attribute.texts (a : Attribute) : List String := a.key :: a.value.toList

/-- The texts of a section, but for a bandwidth type. -/
def Section.texts (m : Section) : List String :=
  m.kind.name :: m.proto :: (m.formats ++ m.connection.toList ++
    (m.bandwidth.map (·.value)).toList ++ m.attrs.flatMap Attribute.texts)

namespace Description

/-- The texts of a description, but for the bandwidth types. -/
def texts (d : Description) : List String :=
  (d.session.bandwidth.map (·.value)).toList ++ d.session.attrs.flatMap Attribute.texts ++
    d.sections.flatMap Section.texts

/-- The bandwidth lines of a description. -/
def bandwidths (d : Description) : List Bandwidth :=
  d.session.bandwidth.toList ++ d.sections.flatMap (·.bandwidth.toList)

/-- Every text of a description: kinds, protocols, formats, connection values, bandwidth types and
values, keys and values of attributes. -/
def fields (d : Description) : List String := d.texts ++ d.bandwidths.map (·.type)

end Description

open Text (WithinLine)

theorem Bandwidth.WellFormed.withinLine {b : Bandwidth} (h : b.WellFormed) : WithinLine b.value :=
  h.value.withinLine (by simp)

theorem Attribute.WellFormed.withinLine {a : Attribute} (h : a.WellFormed) :
    ∀ f ∈ a.texts, WithinLine f := by
  rw [texts, List.forall_mem_cons]
  exact ⟨h.key.withinLine (by simp), fun v hv ↦ h.value v (Option.mem_toList.mp hv)⟩

/-- A section that was read has no text but a bandwidth type that spans lines. -/
theorem Section.WellFormed.withinLine {m : Section} (h : m.WellFormed) :
    ∀ f ∈ m.texts, WithinLine f := by
  simp only [texts, List.forall_mem_cons, List.forall_mem_append, Option.mem_toList,
    List.mem_flatMap]
  refine ⟨h.kind.filled.withinLine (by simp), h.proto.withinLine (by simp), ⟨⟨?_, ?_⟩, ?_⟩, ?_⟩
  · exact fun f hf ↦ (h.formats f hf).withinLine (by simp)
  · exact fun c hc ↦ (h.connection c hc).withinLine (by simp)
  · intro v hv
    obtain ⟨b, hb, rfl⟩ := Option.map_eq_some_iff.mp hv
    exact (h.bandwidth b hb).withinLine
  · rintro f ⟨a, ha, hf⟩
    exact (h.attrs a ha).withinLine f hf

theorem Description.WellFormed.withinLine {d : Description} (h : d.WellFormed) :
    ∀ f ∈ d.texts, WithinLine f := by
  simp only [texts, List.forall_mem_append, Option.mem_toList, List.mem_flatMap]
  refine ⟨⟨?_, ?_⟩, ?_⟩
  · intro v hv
    obtain ⟨b, hb, rfl⟩ := Option.map_eq_some_iff.mp hv
    exact (h.bandwidth b hb).withinLine
  · rintro f ⟨a, ha, hf⟩
    exact (h.attrs a ha).withinLine f hf
  · rintro f ⟨m, hm, hf⟩
    exact (h.sections m hm).withinLine f hf

namespace Sdp

theorem passes_readSection :
    readSection.Passes fun m ↦ ∀ b ∈ m.bandwidth, WithinLine b.type := by
  intro cs m rest h
  simp only [readSection, Option.bind_eq_bind, Option.bind_eq_some_iff] at h
  obtain ⟨⟨m₀, cs₁⟩, hmedia, h⟩ := h
  cases h
  have hline := lineOf_readMedia.passes (by simp) _ _ _ hmedia
  have htitle := ((lineOf_readAny ['i']).passes (by simp)).many cs₁
  have hconnection := ((lineOf_readAny ['c']).passes (by simp)).maybe
    (many (readLine ['i'] readAny) cs₁).2
  have hbandwidth := passes_readBandwidth.maybe
    (maybe (readLine ['c'] readAny) (many (readLine ['i'] readAny) cs₁).2).2
  have hattrs := (lineOf_readAttribute.passes (by simp)).many (maybe readBandwidth
    (maybe (readLine ['c'] readAny) (many (readLine ['i'] readAny) cs₁).2).2).2
  exact ((((hline.trans htitle).trans hconnection).trans hbandwidth).trans hattrs).of_iff
    (by simp)

theorem passes_readSession :
    readSession.Passes fun p ↦ ∀ b ∈ p.bandwidth, WithinLine b.type := by
  intro cs p rest h
  simp only [readSession, Option.bind_eq_bind, Option.bind_eq_some_iff] at h
  obtain ⟨⟨_, cs₁⟩, hversion, ⟨⟨id, version⟩, cs₂⟩, horigin, ⟨_, cs₃⟩, hsubject, ⟨_, cs₄⟩, htime,
    h⟩ := h
  cases h
  have hhead := lineOf_readVersion.passes (by simp) _ _ _ hversion
  have hname := lineOf_readOrigin.passes (by simp) _ _ _ horigin
  have htitle := (lineOf_readAny ['s']).passes (by simp) _ _ _ hsubject
  have hpassed := ((lineOf_readAny ['i', 'u', 'e', 'p', 'c', 'z', 'k']).passes (by simp)).many cs₃
  have hbandwidth := passes_readBandwidth.maybe
    (many (readLine ['i', 'u', 'e', 'p', 'c', 'z', 'k'] readAny) cs₃).2
  have hclock := (lineOf_readAny ['t']).passes (by simp) _ _ _ htime
  have hrepeats := ((lineOf_readAny ['r']).passes (by simp)).many cs₄
  have hattrs := (lineOf_readAttribute.passes (by simp)).many
    (many (readLine ['r'] readAny) cs₄).2
  have hfront := ((hhead.trans hname).trans htitle).trans hpassed
  exact ((((hfront.trans hbandwidth).trans hclock).trans hrepeats).trans hattrs).of_iff (by simp)

theorem passes_readDescription :
    readDescription.Passes fun d ↦ ∀ b ∈ d.bandwidths, WithinLine b.type := by
  intro cs d rest h
  simp only [readDescription, Option.bind_eq_bind, Option.bind_eq_some_iff] at h
  obtain ⟨⟨p, cs₁⟩, hsession, h⟩ := h
  cases h
  refine ((passes_readSession _ _ _ hsession).trans (passes_readSection.many cs₁)).of_iff ?_
  simp only [Description.bandwidths, List.forall_mem_append, Option.mem_toList,
    List.forall_mem_flatMap]
  rfl

end Sdp

namespace Description

variable {s : String} {d : Description}

/-- **No field spans lines, but for the type of a bandwidth line without a colon.** What is read of
a text are whole lines, and all fields stay in theirs exactly if none of these is bare. -/
theorem fields_within_lines_iff (h : ofText? s = some d) :
    ∃ used unread, s.toList = used ++ unread ∧ Sdp.readDescription s.toList = some (d, unread) ∧
      (∀ f ∈ d.texts, WithinLine f) ∧
      ((∀ f ∈ d.fields, WithinLine f) ↔
        ∀ line ∈ Text.splitAt '\n' used, Text.isBare line = false) := by
  obtain ⟨⟨d', unread⟩, hread, rfl⟩ := Option.map_eq_some_iff.mp h
  obtain ⟨used, hused, -, htypes⟩ := Sdp.passes_readDescription _ _ _ hread
  have htexts := (Sdp.yields_readDescription _ _ _ hread).withinLine
  refine ⟨used, unread, hused, hread, htexts, ?_⟩
  rw [fields, List.forall_mem_append, List.forall_mem_map, and_iff_right htexts]
  exact htypes

/-- A text whose bandwidth line has no colon. Two lines are taken along up to the next one. -/
def bareBandwidth : String :=
  "v=0\r\no=- 1 1 IN IP4 0.0.0.0\r\ns=-\r\nb=AS\r\nt=0 0\r\na=mid:0\r\nt=0 0\r\n"

theorem bareBandwidth_fields_within_lines_iff : ∃ d, ofText? bareBandwidth = some d ∧
    ∃ used unread, bareBandwidth.toList = used ++ unread ∧
      Sdp.readDescription bareBandwidth.toList = some (d, unread) ∧
      (∀ f ∈ d.texts, WithinLine f) ∧
      ((∀ f ∈ d.fields, WithinLine f) ↔
        ∀ line ∈ Text.splitAt '\n' used, Text.isBare line = false) := by
  have hread : (ofText? bareBandwidth).isSome = true := by decide +kernel
  obtain ⟨d, hd⟩ := Option.isSome_iff_exists.mp hread
  exact ⟨d, hd, fields_within_lines_iff hd⟩

/-- A time line and the key of an attribute are in the type of a bandwidth line. -/
theorem bareBandwidth_spans_lines : ∃ d, ofText? bareBandwidth = some d ∧
    ∃ f ∈ d.fields, f = "AS\r\nt=0 0\r\na=mid" ∧ ¬WithinLine f := by
  have hread : (ofText? bareBandwidth).map fields = some ["0", "AS\r\nt=0 0\r\na=mid"] := by
    decide +kernel
  obtain ⟨d, hd, hfields⟩ := Option.map_eq_some_iff.mp hread
  exact ⟨d, hd, _, by rw [hfields]; simp, rfl, by decide⟩

end Description

end OfferAnswer
