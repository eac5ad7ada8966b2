import OfferAnswer.Handler.Media
import OfferAnswer.Proofs.Handler.Codecs
import OfferAnswer.Proofs.Sdp.Attributes

/-!
# What a handler offers

A handler that could be made never fails to offer: its formats are those of its codecs, and each has
its lines. `MediaHandler.Offers` is what the other side may rely on. It is said under few keys, so
it survives whatever the session adds to the section.
-/

namespace OfferAnswer

namespace RtpHandler

variable {h : RtpHandler} {c : Codec} {formats : List String} {f : String}

/-! ## Formats -/

theorem mem_addFormats {codecs : List Codec} (hf : f ∈ addFormats formats codecs) :
    f ∈ formats ∨ ∃ c ∈ codecs, c.format = f := by
  induction codecs generalizing formats with
  | nil => exact Or.inl hf
  | cons c codecs ih =>
    rcases ih hf with hf | ⟨c', hc', hf⟩
    · dsimp only at hf
      split at hf
      · exact Or.inl hf
      · rcases List.mem_append.mp hf with hf | hf
        · exact Or.inl hf
        · exact Or.inr ⟨c, List.mem_cons_self, (List.mem_singleton.mp hf).symm⟩
    · exact Or.inr ⟨c', List.mem_cons_of_mem c hc', hf⟩

theorem subset_addFormats (formats : List String) (codecs : List Codec) :
    formats ⊆ addFormats formats codecs := by
  induction codecs generalizing formats with
  | nil => exact List.Subset.refl formats
  | cons c codecs ih =>
    refine List.Subset.trans ?_ (ih _)
    dsimp only
    split
    · exact List.Subset.refl formats
    · exact List.subset_append_left formats _

theorem addFormats_ne_nil {codecs : List Codec} (hcodecs : codecs ≠ []) :
    addFormats formats codecs ≠ [] := by
  cases codecs with
  | nil => exact absurd rfl hcodecs
  | cons c codecs =>
    -- the first codec has its format from the first step on
    refine List.ne_nil_of_mem (a := c.format) (subset_addFormats _ codecs ?_)
    dsimp only
    split
    · rename_i hin
      exact List.contains_iff_mem.mp hin
    · exact List.mem_append_right _ List.mem_cons_self

/-- Every format of an offer is one of ours, whatever the previous offer had. -/
theorem isSome_of_mem_offerFormats {previous : Option Section} (hf : f ∈ h.offerFormats previous) :
    (h.codecOf? f).isSome = true := by
  rcases mem_addFormats hf with hf | ⟨c, hc, rfl⟩
  · exact (List.mem_filter.mp hf).2
  · exact isSome_codecOf? hc

/-! ## Lines -/

/-- The lines of formats that are all ours. -/
def offerLines (h : RtpHandler) (formats : List String) : List Attribute :=
  formats.flatMap fun f ↦ ((h.codecOf? f).map (h.formatLines f)).getD []

theorem addFormatLines_eq (hours : ∀ f ∈ formats, (h.codecOf? f).isSome = true) (m : Section) :
    h.addFormatLines formats m = (.ok (), m.addAll (h.offerLines formats)) := by
  induction formats generalizing m with
  | nil => rfl
  | cons f formats ih =>
    obtain ⟨c, hc⟩ := Option.isSome_iff_exists.mp (hours f List.mem_cons_self)
    rw [addFormatLines, hc]
    dsimp only
    rw [ih fun g hg ↦ hours g (List.mem_cons_of_mem f hg), offerLines, offerLines,
      List.flatMap_cons, hc, Section.addAll_append]
    rfl

/-- The keys of the lines of a format. -/
def formatKeys : List String := ["rtpmap", "fmtp", "rtcp-fb"]

theorem mem_formatLines {a : Attribute} (ha : a ∈ h.formatLines f c) :
    a = .of "rtpmap" c.rtpmap ∨ a.key = "fmtp" ∨ a.key = "rtcp-fb" := by
  rw [formatLines, List.cons_append, List.mem_cons, List.mem_append] at ha
  rcases ha with ha | ha | ha
  · exact Or.inl ha
  · rw [Option.mem_toList] at ha
    obtain ⟨v, -, rfl⟩ := Option.map_eq_some_iff.mp ha
    exact Or.inr (Or.inl rfl)
  · split at ha
    · obtain ⟨v, -, rfl⟩ := List.mem_map.mp ha
      exact Or.inr (Or.inr rfl)
    · cases ha

theorem key_of_mem_offerLines {a : Attribute} (ha : a ∈ h.offerLines formats) :
    a.key ∈ formatKeys := by
  obtain ⟨f, -, ha⟩ := List.mem_flatMap.mp ha
  cases hc : h.codecOf? f with
  | none =>
    rw [hc] at ha
    cases ha
  | some c =>
    rw [hc] at ha
    rcases mem_formatLines ha with rfl | hkey | hkey
    · exact List.mem_cons_self
    · rw [hkey]
      decide
    · rw [hkey]
      decide

/-- Among the lines of a codec, the `rtpmap` line is the one that declares its format. -/
theorem find?_formatLines (hformat : c.format = f) (g : String) :
    (h.formatLines f c).find? (Section.isLineFor "rtpmap" g) =
      if f = g then some (.of "rtpmap" c.rtpmap) else none := by
  split
  · rename_i hfg
    refine List.find?_cons_of_pos ?_
    simp [Section.isLineFor, Attribute.of, Attribute.content, c.firstWord_rtpmap, hformat, hfg]
  · rename_i hfg
    refine List.find?_eq_none.mpr fun a ha ↦ ?_
    rcases mem_formatLines ha with rfl | hkey | hkey
    · simp [Section.isLineFor, Attribute.of, Attribute.content, c.firstWord_rtpmap, hformat, hfg]
    · simp [Section.isLineFor, hkey]
    · simp [Section.isLineFor, hkey]

theorem find?_offerLines (hours : ∀ f ∈ formats, (h.codecOf? f).isSome = true) (hf : f ∈ formats) :
    (h.offerLines formats).find? (Section.isLineFor "rtpmap" f) =
      (h.codecOf? f).map fun c ↦ .of "rtpmap" c.rtpmap := by
  obtain ⟨c, hc⟩ := Option.isSome_iff_exists.mp (hours f hf)
  rw [offerLines, Section.find?_flatMap_lines hf fun g hg hne ↦ ?_, hc, Option.map_some,
    Option.getD_some, find?_formatLines (mem_of_codecOf? hc).2, if_pos rfl, Option.map_some]
  obtain ⟨c', hc'⟩ := Option.isSome_iff_exists.mp (hours g hg)
  rw [hc', Option.map_some, Option.getD_some, find?_formatLines (mem_of_codecOf? hc').2, if_neg hne]

end RtpHandler

/-! ## Offered sections -/

/-- An offered section without the lines of its formats. -/
def RtpHandler.unlined (h : RtpHandler) (previous : Option Section) : Section :=
  let m : Section :=
    { kind := h.kind, port := 1, proto := h.profile.proto, formats := h.offerFormats previous }
  (m.add (.of "setup" "actpass")).setDirection h.direction

/-- An offered section without our port. -/
def SctpHandler.unported : Section :=
  let m : Section :=
    { kind := .application, port := 1, proto := SctpHandler.proto,
      formats := [SctpHandler.format] }
  m.add (.of "setup" "actpass")

namespace MediaHandler

variable {h : MediaHandler} {kind : MediaKind} {previous : Option Section} {o o' : Section}

/-- The section that a handler offers. -/
def offered : MediaHandler → Option Section → Section
  | rtp h, previous => (h.unlined previous).addAll (h.offerLines (h.offerFormats previous))
  | sctp h, _ => h.addOfferAttributes SctpHandler.unported

theorem kind_offered (h : MediaHandler) (previous : Option Section) :
    (h.offered previous).kind = h.kind := by
  cases h <;> rfl

/-- **All that offering can do**: give the section of the handler, if it is asked for its kind. -/
theorem offer_eq_ok_iff :
    h.offer kind previous = .ok o ↔ kind = h.kind ∧ h.offered previous = o := by
  cases h with
  | rtp h =>
    have hours : ∀ f ∈ (h.unlined previous).formats, (h.codecOf? f).isSome = true := fun f hf ↦
      RtpHandler.isSome_of_mem_offerFormats hf
    by_cases hkind : kind = h.kind
    · subst hkind
      have hcreate : (rtp h).createOffer h.kind previous = .ok (h.unlined previous) :=
        if_neg (not_not.mpr rfl)
      rw [offer, hcreate]
      dsimp only
      rw [addOfferAttributes, RtpHandler.addOfferAttributes, RtpHandler.addFormatLines_eq hours]
      dsimp only
      rw [Except.ok.injEq]
      exact (and_iff_right rfl).symm
    · have hcreate : (rtp h).createOffer kind previous =
          .error (.invalidMedia (h.kind.name ++ " handler can't offer " ++ kind.name)) :=
        if_pos hkind
      rw [offer, hcreate]
      exact ⟨nofun, fun hboth ↦ absurd hboth.1 hkind⟩
  | sctp h =>
    cases kind with
    | application => exact ⟨fun ho ↦ ⟨rfl, Except.ok.inj ho⟩, fun hboth ↦ congrArg _ hboth.2⟩
    | _ => exact ⟨nofun, fun hboth ↦ nomatch hboth.1⟩

theorem isRejected_of_offer (ho : h.offer kind previous = .ok o) : o.isRejected = false := by
  obtain ⟨-, rfl⟩ := offer_eq_ok_iff.mp ho
  cases h <;> rfl

/-- What making a handler promises. -/
def IsMade : MediaHandler → Prop
  | rtp h => h.kind.isMedia = true ∧ h.codecs ≠ []
  | sctp _ => True

def codecs : MediaHandler → List Codec
  | rtp h => h.codecs
  | sctp _ => []

/-- Whether a section declares each of its formats to be a codec of the handler. -/
def Declares : MediaHandler → Section → Prop
  | rtp h, o => ∀ f ∈ o.formats, ∃ c, h.codecOf? f = some c ∧
      o.attrFor? "rtpmap" f = some (.of "rtpmap" c.rtpmap)
  | sctp _, _ => True

/-- What holds of a section that a handler offers. -/
structure Offers (h : MediaHandler) (o : Section) : Prop where
  /-- It is of the kind of the handler. -/
  kind_eq : o.kind = h.kind
  /-- It has a protocol. -/
  proto_ne : o.proto.isEmpty = false
  /-- It has formats. -/
  formats_ne : o.formats ≠ []
  /-- It says what they are. -/
  declares : h.Declares o

theorem Offers.congr (ho : h.Offers o) (hkind : o'.kind = o.kind) (hproto : o'.proto = o.proto)
    (hformats : o'.formats = o.formats) (hattrs : o'.attrsOf "rtpmap" = o.attrsOf "rtpmap") :
    h.Offers o' where
  kind_eq := hkind.trans ho.kind_eq
  proto_ne := hproto ▸ ho.proto_ne
  formats_ne := hformats ▸ ho.formats_ne
  declares := by
    have hdeclares := ho.declares
    cases h with
    | sctp h => trivial
    | rtp h =>
      intro f hf
      rw [hformats] at hf
      obtain ⟨c, hc, hline⟩ := hdeclares f hf
      exact ⟨c, hc, (Section.attrFor?_congr hattrs f).trans hline⟩

theorem offers_rtp {h : RtpHandler} (hcodecs : h.codecs ≠ []) (previous : Option Section) :
    (rtp h).Offers ((rtp h).offered previous) ∧ ((rtp h).offered previous).Tidy ∧
      ((rtp h).offered previous).Keyed := by
  let o := h.unlined previous
  have hours : ∀ f ∈ o.formats, (h.codecOf? f).isSome = true := fun f hf ↦
    RtpHandler.isSome_of_mem_offerFormats hf
  have htidy : o.Tidy := ((Section.tidy_of_nil rfl).add _).setDirection _
  have hkeyed : o.Keyed := by
    refine Section.Keyed.setDirection (Section.Keyed.add (fun a ha ↦ ?_) (by decide)) _
    cases ha
  have hlines : ∀ a ∈ h.offerLines o.formats, a.key ∈ RtpHandler.formatKeys := fun a ha ↦
    RtpHandler.key_of_mem_offerLines ha
  -- nothing is said of formats before their lines are added, so those are the ones that are found
  have hnone : o.attrsOf "rtpmap" = [] := by
    dsimp only [o, RtpHandler.unlined]
    rw [Section.attrsOf_setDirection (by decide), Section.attrsOf_add_of_ne (by decide)]
    rfl
  refine ⟨⟨rfl, ?_, ?_, fun f hf ↦ ?_⟩, htidy.addAll _, ?_⟩
  · change h.profile.proto.isEmpty = false
    cases h.profile <;> decide
  · exact RtpHandler.addFormats_ne_nil hcodecs
  · obtain ⟨c, hc⟩ := Option.isSome_iff_exists.mp (hours f hf)
    refine ⟨c, hc, ?_⟩
    change (o.addAll (h.offerLines o.formats)).attrFor? "rtpmap" f = _
    rw [Section.attrFor?_addAll (fun a ha hkey ↦ ?_), Section.attrFor?, hnone, List.find?_nil,
      Option.none_or, RtpHandler.find?_offerLines hours hf, hc, Option.map_some]
    exact (Attribute.isSingle_congr (b := .flag "rtpmap") hkey).trans (by decide)
  · refine hkeyed.addAll fun a ha ↦ ?_
    have hall : ∀ key ∈ RtpHandler.formatKeys, key ≠ "" := by decide
    exact hall _ (hlines a ha)

/-- **A handler never fails to offer**, whatever it offered before. -/
theorem offer_ok (hmade : h.IsMade) (previous : Option Section) :
    ∃ o, h.offer h.kind previous = .ok o ∧ h.Offers o ∧ o.Tidy ∧ o.Keyed ∧
      o.isRejected = false := by
  refine ⟨h.offered previous, offer_eq_ok_iff.mpr ⟨rfl, rfl⟩, ?_⟩
  cases h with
  | rtp h =>
    obtain ⟨hoffers, htidy, hkeyed⟩ := offers_rtp hmade.2 previous
    exact ⟨hoffers, htidy, hkeyed, rfl⟩
  | sctp h =>
    refine ⟨⟨rfl, show SctpHandler.proto.isEmpty = false by decide, List.cons_ne_nil _ _, trivial⟩,
      ?_, ?_, rfl⟩
    · exact (((Section.tidy_of_nil rfl).add _).add _).add _
    · have hkeyed : SctpHandler.unported.Keyed :=
        Section.Keyed.add (fun a ha ↦ nomatch ha) (show "setup" ≠ "" by decide)
      exact (hkeyed.add (show "sctp-port" ≠ "" by decide)).add
        (show "max-message-size" ≠ "" by decide)

end MediaHandler

/-! ## Offering again -/

namespace RtpHandler

variable {h : RtpHandler} {formats : List String}

theorem format_mem_addFormats {codecs : List Codec} {c : Codec} (hc : c ∈ codecs) :
    c.format ∈ addFormats formats codecs := by
  induction codecs generalizing formats with
  | nil => cases hc
  | cons c' codecs ih =>
    rcases List.mem_cons.mp hc with rfl | hc
    · apply subset_addFormats _ codecs
      dsimp only
      split
      · rename_i hin
        simpa using hin
      · simp
    · exact ih hc

theorem addFormats_eq_self {codecs : List Codec} (h : ∀ c ∈ codecs, c.format ∈ formats) :
    addFormats formats codecs = formats := by
  induction codecs with
  | nil => rfl
  | cons c codecs ih =>
    have hin : c.format ∈ formats := h c List.mem_cons_self
    have hrest := ih fun c' hc' ↦ h c' (List.mem_cons_of_mem c hc')
    simpa [addFormats, hin] using hrest

/-- The formats of a last offer are all still ours, and none is missing. -/
theorem offerFormats_again {previous : Option Section} {o : Section}
    (ho : o.formats = h.offerFormats previous) :
    h.offerFormats (some o) = h.offerFormats previous := by
  have hours : o.formats.filter (fun f ↦ (h.codecOf? f).isSome) = o.formats := by
    rw [List.filter_eq_self, ho]
    intro f hf
    exact isSome_of_mem_offerFormats hf
  have hall : ∀ c ∈ h.codecs, c.format ∈ o.formats := by
    intro c hc
    rw [ho]
    exact format_mem_addFormats hc
  rw [← ho, offerFormats]
  simp only [Option.map_some, Option.getD_some, hours]
  exact addFormats_eq_self hall

end RtpHandler

namespace MediaHandler

variable {h : MediaHandler} {kind : MediaKind} {previous : Option Section} {o base : Section}

/-- **A handler offers the same again**, whatever it started from: nothing but the formats of its
last offer counts. -/
theorem offer_again (hbase : h.offer kind previous = .ok base) (ho : o.formats = base.formats) :
    h.offer kind (some o) = .ok base := by
  obtain ⟨rfl, rfl⟩ := offer_eq_ok_iff.mp hbase
  refine offer_eq_ok_iff.mpr ⟨rfl, ?_⟩
  cases h with
  | sctp h => rfl
  | rtp h =>
    have hformats : h.offerFormats (some o) = h.offerFormats previous :=
      RtpHandler.offerFormats_again ho
    rw [offered, offered, RtpHandler.unlined, RtpHandler.unlined, hformats]

end MediaHandler

end OfferAnswer
