import OfferAnswer.Proofs.Sdp.Lines
import OfferAnswer.Sdp.Text

/-!
# Well-formed descriptions

A description is a record of texts, and not every text can stand in every place: a word ends at a
space, a value at the end of its line, a key at a colon. `Description.WellFormed` asks of each text
that it has none of the characters that would end it where it stands, and that it is not empty where
the grammar wants a character. A kind that is named like a known one is the known one.

Reading gives well-formed descriptions only: every text is read up to the first character that ends
it. `Reader.Yields` carries that from words to lines, repetitions and descriptions.

The type of a bandwidth line ends at a colon and at nothing else, so a line end is well formed in
it.
-/

namespace OfferAnswer

/-! ## Texts and what ends them -/

namespace Text

/-- Whether a text has a character, and none of those that would end it. -/
def Filled (ends cs : List Char) : Prop := cs ≠ [] ∧ ∀ c ∈ ends, c ∉ cs

-- the bounded quantifier, not the one over all characters
instance (ends cs : List Char) : Decidable (Filled ends cs) :=
  @instDecidableAnd _ _ inferInstance (List.decidableBAll _ _)

variable {p : Char → Bool} {ends cs : List Char}

theorem filled_iff (hp : ∀ c, p c = true ↔ c ∉ ends) :
    Filled ends cs ↔ cs ≠ [] ∧ ∀ c ∈ cs, p c = true := by
  simp only [Filled, hp]
  constructor
  · rintro ⟨hne, h⟩
    exact ⟨hne, fun c hc hend ↦ h c hend hc⟩
  · rintro ⟨hne, h⟩
    exact ⟨hne, fun c hend hc ↦ h c hc hend⟩

theorem isWordChar_iff (c : Char) : isWordChar c = true ↔ c ∉ [' ', '\r', '\n'] := by
  simp [isWordChar, and_assoc]

end Text

namespace Sdp

theorem inLine_iff (c : Char) : inLine c = true ↔ c ∉ ['\r', '\n'] := by
  simp [inLine]

theorem inKey_iff (c : Char) : inKey c = true ↔ c ∉ [':', '\r', '\n'] := by
  simp [inKey, inLine]

theorem ne_colon_iff (c : Char) : decide (c ≠ ':') = true ↔ c ∉ [':'] := by
  simp

end Sdp

/-! ## Well-formed parts -/

open Text (Filled)

/-- A kind that is not handled has a name of its own. -/
def MediaKind.WellFormed : MediaKind → Prop
  | other name => Filled [' ', '\r', '\n'] name.toList ∧ name ∉ ["audio", "video", "application"]
  | _ => True

/-- What can stand in a bandwidth line. -/
structure Bandwidth.WellFormed (b : Bandwidth) : Prop where
  /-- The type ends at a colon, and at nothing else. -/
  type : Filled [':'] b.type.toList
  /-- The value ends with its line. -/
  value : Filled ['\r', '\n'] b.value.toList

/-- What can stand in an attribute line. -/
structure Attribute.WellFormed (a : Attribute) : Prop where
  /-- The key ends at a colon or with its line. -/
  key : Filled [':', '\r', '\n'] a.key.toList
  /-- The value ends with its line; it may be empty. -/
  value : ∀ v ∈ a.value, '\r' ∉ v.toList ∧ '\n' ∉ v.toList

/-- What can stand in a section. -/
structure Section.WellFormed (m : Section) : Prop where
  /-- The kind is a word. -/
  kind : m.kind.WellFormed
  /-- The protocol is a word. -/
  proto : Filled [' ', '\r', '\n'] m.proto.toList
  /-- Every format is a word. -/
  formats : ∀ f ∈ m.formats, Filled [' ', '\r', '\n'] f.toList
  /-- The connection value ends with its line. -/
  connection : ∀ c ∈ m.connection, Filled ['\r', '\n'] c.toList
  /-- The bandwidth line is well formed. -/
  bandwidth : ∀ b ∈ m.bandwidth, b.WellFormed
  /-- Every attribute is well formed. -/
  attrs : ∀ a ∈ m.attrs, a.WellFormed

/-- What can stand in a description. -/
structure Description.WellFormed (d : Description) : Prop where
  /-- The bandwidth line of the session part is well formed. -/
  bandwidth : ∀ b ∈ d.session.bandwidth, b.WellFormed
  /-- Every attribute of the session part is well formed. -/
  attrs : ∀ a ∈ d.session.attrs, a.WellFormed
  /-- Every section is well formed. -/
  sections : ∀ m ∈ d.sections, m.WellFormed

instance : (k : MediaKind) → Decidable k.WellFormed
  | .other _ => inferInstanceAs (Decidable (_ ∧ _))
  | .audio | .video | .application => inferInstanceAs (Decidable True)

instance (b : Bandwidth) : Decidable b.WellFormed :=
  decidable_of_iff (Filled [':'] b.type.toList ∧ Filled ['\r', '\n'] b.value.toList)
    ⟨fun ⟨ht, hv⟩ ↦ ⟨ht, hv⟩, fun ⟨ht, hv⟩ ↦ ⟨ht, hv⟩⟩

instance (a : Attribute) : Decidable a.WellFormed :=
  decidable_of_iff (Filled [':', '\r', '\n'] a.key.toList ∧
      ∀ v ∈ a.value, '\r' ∉ v.toList ∧ '\n' ∉ v.toList)
    ⟨fun ⟨hk, hv⟩ ↦ ⟨hk, hv⟩, fun ⟨hk, hv⟩ ↦ ⟨hk, hv⟩⟩

instance (m : Section) : Decidable m.WellFormed :=
  decidable_of_iff (m.kind.WellFormed ∧ Filled [' ', '\r', '\n'] m.proto.toList ∧
      (∀ f ∈ m.formats, Filled [' ', '\r', '\n'] f.toList) ∧
      (∀ c ∈ m.connection, Filled ['\r', '\n'] c.toList) ∧
      (∀ b ∈ m.bandwidth, b.WellFormed) ∧ ∀ a ∈ m.attrs, a.WellFormed)
    ⟨fun ⟨hk, hp, hf, hc, hb, ha⟩ ↦ ⟨hk, hp, hf, hc, hb, ha⟩,
      fun ⟨hk, hp, hf, hc, hb, ha⟩ ↦ ⟨hk, hp, hf, hc, hb, ha⟩⟩

instance (d : Description) : Decidable d.WellFormed :=
  decidable_of_iff ((∀ b ∈ d.session.bandwidth, b.WellFormed) ∧
      (∀ a ∈ d.session.attrs, a.WellFormed) ∧ ∀ m ∈ d.sections, m.WellFormed)
    ⟨fun ⟨hb, ha, hm⟩ ↦ ⟨hb, ha, hm⟩, fun ⟨hb, ha, hm⟩ ↦ ⟨hb, ha, hm⟩⟩

namespace MediaKind

variable {k : MediaKind}

theorem WellFormed.filled (h : k.WellFormed) : Filled [' ', '\r', '\n'] k.name.toList := by
  cases k with
  | other s => exact h.1
  | audio | video | application => simp [Filled, name]

/-- A well-formed kind is the kind of its name. -/
theorem WellFormed.ofName_name (h : k.WellFormed) : ofName k.name = k := by
  cases k with
  | other s =>
    obtain ⟨-, hother⟩ := h
    simp only [List.mem_cons, List.not_mem_nil, or_false, not_or] at hother
    rw [name, ofName, if_neg hother.1, if_neg hother.2.1, if_neg hother.2.2]
  | audio | video | application => rfl

theorem wellFormed_ofName {s : String} (h : Filled [' ', '\r', '\n'] s.toList) :
    (ofName s).WellFormed := by
  rw [ofName]
  split
  · trivial
  · split
    · trivial
    · split
      · trivial
      · exact ⟨h, by simp [*]⟩

end MediaKind

/-! ## What readers give -/

namespace Sdp

variable {α : Type} {P : α → Prop} {r body : Reader α} {p : Char → Bool} {ends : List Char}

/-- Whether whatever is read has a property. -/
def Reader.Yields (P : α → Prop) (r : Reader α) : Prop :=
  ∀ cs a rest, r cs = some (a, rest) → P a

theorem yields_readSome (hp : ∀ c, p c = true ↔ c ∉ ends) : (readSome p).Yields (Filled ends) := by
  intro cs w rest h
  rw [readSome] at h
  split at h
  · cases h
  · rename_i hne
    cases h
    exact (Text.filled_iff hp).mpr ⟨hne, fun c hc ↦ List.mem_takeWhile_imp hc⟩

theorem yields_readAny : readAny.Yields (Filled ['\r', '\n']) := yields_readSome inLine_iff

theorem yields_readWord : Reader.Yields (Filled [' ', '\r', '\n']) Text.readWord :=
  yields_readSome Text.isWordChar_iff

theorem Reader.Yields.readLine (h : body.Yields P) (types : List Char) :
    (readLine types body).Yields P := by
  intro cs a rest hread
  obtain ⟨_, _, cs', cs'', _, hbody, _⟩ := readLine_spec hread
  exact h cs' a cs'' hbody

theorem Reader.Yields.many (h : r.Yields P) (cs : List Char) : ∀ a ∈ (many r cs).1, P a := by
  induction cs using many.induct r with
  | case1 cs hread => simp [Sdp.many, hread]
  | case2 cs a rest hread hshort as rest' hmany ih =>
    rw [Sdp.many, hread]
    simpa [hshort] using ⟨h cs a rest hread, ih⟩
  | case3 cs a rest hread hlong =>
    rw [Sdp.many, hread]
    simpa [hlong] using h cs a rest hread

theorem Reader.Yields.maybe (h : r.Yields P) (cs : List Char) : ∀ a ∈ (maybe r cs).1, P a := by
  rw [Sdp.maybe]
  split
  · simp
  · rename_i a rest hread
    simpa using h cs a rest hread

/-! ## What is read is well formed -/

theorem yields_readBandwidth : readBandwidth.Yields Bandwidth.WellFormed := by
  refine Reader.Yields.readLine ?_ ['b']
  intro cs b rest h
  simp only [Option.bind_eq_bind, Option.bind_eq_some_iff] at h
  obtain ⟨⟨type, cs₁⟩, htype, cs₂, hcolon, ⟨value, cs₃⟩, hvalue, h⟩ := h
  cases h
  constructor
  · simpa using yields_readSome ne_colon_iff _ _ _ htype
  · simpa using yields_readAny _ _ _ hvalue

theorem yields_readAttribute : readAttribute.Yields Attribute.WellFormed := by
  refine Reader.Yields.readLine ?_ ['a']
  intro cs a rest h
  simp only [Option.bind_eq_bind, Option.bind_eq_some_iff] at h
  obtain ⟨⟨key, cs'⟩, hkey, h⟩ := h
  have hfilled := yields_readSome inKey_iff _ _ _ hkey
  dsimp only at h
  split at h
  · rename_i cs''
    cases h
    refine ⟨by simpa using hfilled, ?_⟩
    rintro v ⟨rfl⟩
    have hline : ∀ c ∈ cs''.takeWhile inLine, c ∉ ['\r', '\n'] :=
      fun c hc ↦ (inLine_iff c).mp (List.mem_takeWhile_imp hc)
    rw [String.toList_ofList]
    exact ⟨fun hc ↦ hline _ hc (by simp), fun hc ↦ hline _ hc (by simp)⟩
  · cases h
    exact ⟨by simpa using hfilled, nofun⟩

theorem yields_readNextWord : readNextWord.Yields (Filled [' ', '\r', '\n']) := by
  intro cs w rest h
  simp only [readNextWord, Option.bind_eq_bind, Option.bind_eq_some_iff] at h
  obtain ⟨cs', -, hword⟩ := h
  exact yields_readWord _ _ _ hword

/-- An `m=` line gives kind, protocol and formats, and leaves the rest of the section open. -/
theorem yields_readMedia : readMedia.Yields Section.WellFormed := by
  refine Reader.Yields.readLine ?_ ['m']
  intro cs m rest h
  simp only [Option.bind_eq_bind, Option.bind_eq_some_iff] at h
  obtain ⟨⟨kind, cs₁⟩, hkind, cs₂, -, ⟨port, cs₃⟩, -, ⟨proto, cs₄⟩, hproto, h⟩ := h
  cases h
  refine ⟨MediaKind.wellFormed_ofName ?_, ?_, ?_, nofun, nofun, nofun⟩
  · simpa using yields_readWord _ _ _ hkind
  · simpa using yields_readNextWord _ _ _ hproto
  · simpa using yields_readNextWord.many cs₄

theorem yields_readSection : readSection.Yields Section.WellFormed := by
  intro cs m rest h
  simp only [readSection, Option.bind_eq_bind, Option.bind_eq_some_iff] at h
  obtain ⟨⟨m₀, cs₁⟩, hmedia, h⟩ := h
  cases h
  have hm := yields_readMedia _ _ _ hmedia
  refine ⟨hm.kind, hm.proto, hm.formats, ?_, yields_readBandwidth.maybe _,
    yields_readAttribute.many _⟩
  rintro c hc
  obtain ⟨w, hw, rfl⟩ := Option.map_eq_some_iff.mp hc
  simpa using (yields_readAny.readLine ['c']).maybe _ w hw

theorem yields_readDescription : readDescription.Yields Description.WellFormed := by
  intro cs d rest h
  simp only [readDescription, readSession, Option.bind_eq_bind, Option.bind_eq_some_iff] at h
  obtain ⟨⟨session, cs₁⟩,
    ⟨_, _, ⟨⟨id, version⟩, cs₂⟩, _, ⟨_, cs₃⟩, _, ⟨_, cs₄⟩, _, hsession⟩, h⟩ := h
  cases hsession
  cases h
  exact ⟨yields_readBandwidth.maybe _, yields_readAttribute.many _, yields_readSection.many _⟩

end Sdp

end OfferAnswer
