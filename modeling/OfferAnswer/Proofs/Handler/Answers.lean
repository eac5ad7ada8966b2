import OfferAnswer.Handler.Media
import OfferAnswer.Proofs.Handler.Codecs
import OfferAnswer.Proofs.Handler.Offers
import OfferAnswer.Proofs.Sdp.Attributes

/-!
# What a handler answers

An answer repeats kind and protocol of the offered section, takes some of its formats, and means by
each what the offer means. `MediaHandler.Answers` says so, again under keys that the session never
adds to.

When a handler cannot answer, that concerns its section alone: only an attribute without a key,
which cannot be copied, is anything worse.
-/

namespace OfferAnswer

namespace Handler

variable {may : Attribute → Section → Bool} {kind : MediaKind} {as : List Attribute}
  {m m' : Section}

/-! ## Copying -/

theorem insertAll_spec {Fits : Attribute → Prop} (hmay : ∀ a m, may a m = true → Fits a)
    (h : insertAll may kind as m = .ok m') :
    ∃ copied, m' = m.addAll copied ∧ ∀ a ∈ copied, Fits a := by
  induction as generalizing m with
  | nil =>
    cases h
    exact ⟨[], rfl, fun _ ha ↦ nomatch ha⟩
  | cons a as ih =>
    rw [insertAll] at h
    split at h
    · exact ih h
    · rename_i hfits
      split at h
      · cases h
      · obtain ⟨copied, rfl, hcopied⟩ := ih h
        refine ⟨a :: copied, rfl, fun b hb ↦ ?_⟩
        rcases List.mem_cons.mp hb with rfl | hb
        · exact hmay b m (by simpa using hfits)
        · exact hcopied b hb

theorem insertAll_ok (has : ∀ a ∈ as, a.key ≠ "") (m : Section) :
    ∃ m', insertAll may kind as m = .ok m' := by
  induction as generalizing m with
  | nil => exact ⟨m, rfl⟩
  | cons a as ih =>
    have hrest := fun m ↦ ih (fun b hb ↦ has b (List.mem_cons_of_mem a hb)) m
    rw [insertAll]
    split
    · exact hrest m
    · split
      · rename_i hempty
        exact absurd (String.isEmpty_iff.mp hempty) (has a List.mem_cons_self)
      · exact hrest (m.add a)

/-- Whether an attribute is neither derived nor the offerer's own. -/
def IsCommon (derived : List String) (a : Attribute) : Prop := a.key ∉ derived ∧ isOwn a = false

theorem isCommon_of_canInsertExcept {derived : List String} {a : Attribute}
    (h : canInsertExcept derived a m = true) : IsCommon derived a := by
  rw [canInsertExcept, canInsert, Bool.and_eq_true, Bool.and_eq_true, Bool.not_eq_true',
    Bool.not_eq_true'] at h
  refine ⟨fun hmem ↦ ?_, h.2.1⟩
  rw [List.contains_iff_mem.mpr hmem] at h
  cases h.1

theorem isSectionLocal_of_checkOffer {takesProtocol : String → Bool} {e : NegotiationError}
    (h : checkOffer takesProtocol kind m = .error e) : e.isSectionLocal = true := by
  rw [checkOffer] at h
  split at h
  · cases h
    rfl
  · split at h
    · cases h
      rfl
    · split at h
      · cases h
        rfl
      · cases h

theorem kind_of_checkOffer {takesProtocol : String → Bool}
    (h : checkOffer takesProtocol kind m = .ok ()) : m.kind = kind ∧ m.formats ≠ [] := by
  rw [checkOffer] at h
  split at h
  · cases h
  · split at h
    · cases h
    · rename_i hkind
      split at h
      · cases h
      · rename_i hformats
        exact ⟨Decidable.not_not.mp hkind, fun hnil ↦ hformats (by rw [hnil]; rfl)⟩

end Handler

/-! ## Audio and video -/

namespace RtpHandler

variable {h : RtpHandler} {c : Codec} {offer a : Section} {formats : List String} {f : String}
  {e : NegotiationError}

/-- The formats that mean one of our codecs. -/
def commonFormats (h : RtpHandler) (offer : Section) (formats : List String) : List String :=
  formats.filter fun f ↦ (h.match? offer f).isSome

/-- The lines of the formats that mean one of our codecs. -/
def commonLines (h : RtpHandler) (offer : Section) (formats : List String) : List Attribute :=
  formats.flatMap fun f ↦ ((h.match? offer f).map (answerLines offer f)).getD []

theorem answerFormats_eq (h : RtpHandler) (offer : Section) (formats : List String) (m : Section) :
    h.answerFormats offer formats m =
      { m with formats := m.formats ++ h.commonFormats offer formats }.addAll
        (h.commonLines offer formats) := by
  induction formats generalizing m with
  | nil =>
    rw [commonFormats, List.filter_nil, List.append_nil]
    rfl
  | cons f formats ih =>
    rw [answerFormats, commonFormats, commonLines, List.flatMap_cons, List.filter_cons]
    cases hmatch : h.match? offer f with
    | none => exact ih m
    | some c =>
      refine (ih _).trans ?_
      rw [Option.map_some, Option.getD_some, Section.addAll_append]
      dsimp only [Section.addAll]
      rw [List.append_assoc]
      rfl

/-- Behind the `rtpmap` line of a format stand its parameters and its feedback. -/
theorem key_of_mem_otherLines {b : Attribute}
    (hb : b ∈ (offer.attrFor? "fmtp" f).toList ++ feedbackLines offer f c) :
    b.key = "fmtp" ∨ b.key = "rtcp-fb" := by
  rcases List.mem_append.mp hb with hb | hb
  · exact Or.inl (Section.of_attrFor? (Option.mem_toList.mp hb)).1
  · obtain ⟨b', -, hb'⟩ := List.mem_filterMap.mp hb
    dsimp only at hb'
    split at hb'
    · cases hb'
      exact Or.inr rfl
    · cases hb'

theorem find?_answerLines (offer : Section) (f : String) (c : Codec) (g : String) :
    (answerLines offer f c).find? (Section.isLineFor "rtpmap" g) =
      if f = g then offer.attrFor? "rtpmap" f else none := by
  have hothers : ((offer.attrFor? "fmtp" f).toList ++ feedbackLines offer f c).find?
      (Section.isLineFor "rtpmap" g) = none := by
    refine List.find?_eq_none.mpr fun b hb ↦ ?_
    rcases key_of_mem_otherLines hb with hkey | hkey
    · simp [Section.isLineFor, hkey]
    · simp [Section.isLineFor, hkey]
  rw [answerLines, List.append_assoc, List.find?_append, hothers, Option.or_none]
  cases hline : offer.attrFor? "rtpmap" f with
  | none => exact (ite_self _).symm
  | some b =>
    obtain ⟨hkey, hword⟩ := Section.of_attrFor? hline
    rw [Option.toList_some, List.find?_singleton]
    simp [Section.isLineFor, hkey, hword]

/-- An answered format has the `rtpmap` line of the offer. -/
theorem find?_commonLines (hf : f ∈ h.commonFormats offer formats) :
    (h.commonLines offer formats).find? (Section.isLineFor "rtpmap" f) =
      offer.attrFor? "rtpmap" f := by
  obtain ⟨hmem, hmatch⟩ := List.mem_filter.mp hf
  obtain ⟨c, hc⟩ := Option.isSome_iff_exists.mp hmatch
  rw [commonLines, Section.find?_flatMap_lines hmem fun g _ hne ↦ ?_, hc, Option.map_some,
    Option.getD_some, find?_answerLines, if_pos rfl]
  cases h.match? offer g with
  | none => rfl
  | some c' => rw [Option.map_some, Option.getD_some, find?_answerLines, if_neg hne]

theorem attrFor?_commonLines {m : Section} (hm : m.attrs = [])
    (hf : f ∈ h.commonFormats offer formats) :
    (m.addAll (h.commonLines offer formats)).attrFor? "rtpmap" f = offer.attrFor? "rtpmap" f := by
  rw [Section.attrFor?_addAll (fun a _ hkey ↦ ?_), find?_commonLines hf, Section.attrFor?,
    Section.attrsOf, hm, List.filter_nil, List.find?_nil, Option.none_or]
  exact (Attribute.isSingle_congr (b := .flag "rtpmap") hkey).trans (by decide)

theorem isSectionLocal_of_createAnswer (hkeyed : offer.Keyed)
    (he : h.createAnswer offer = .error e) : e.isSectionLocal = true := by
  rw [createAnswer] at he
  split at he
  · rename_i e' hcheck
    cases he
    exact Handler.isSectionLocal_of_checkOffer hcheck
  · dsimp only at he
    split at he
    · cases he
      rfl
    · obtain ⟨m, hm⟩ := Handler.insertAll_ok hkeyed _
      exact absurd (hm.symm.trans he) (by simp)

end RtpHandler

/-! ## Data channels -/

namespace SctpHandler

variable {h : SctpHandler} {offer m : Section} {e : NegotiationError}

theorem isSectionLocal_of_createAnswer (hkeyed : offer.Keyed)
    (he : h.createAnswer offer = .error e) : e.isSectionLocal = true := by
  rw [createAnswer] at he
  split at he
  · rename_i e' hcheck
    cases he
    exact Handler.isSectionLocal_of_checkOffer hcheck
  · split at he
    · cases he
      rfl
    · obtain ⟨m, hm⟩ := Handler.insertAll_ok hkeyed _
      exact absurd (hm.symm.trans he) (by simp)

theorem remotePort?_congr {m' : Section} (hport : m'.attrsOf "sctp-port" = m.attrsOf "sctp-port")
    (hmap : m'.attrsOf "sctpmap" = m.attrsOf "sctpmap") : remotePort? m' = remotePort? m := by
  rw [remotePort?, remotePort?, Section.attr?_eq, Section.attr?_eq, Section.attr?_eq,
    Section.attr?_eq, hport, hmap]

theorem remotePort?_of_port {port : UInt16}
    (h : m.attrsOf "sctp-port" = [.of "sctp-port" (Numeral.decimal port.toNat)]) :
    remotePort? m = some port := by
  have hblank : ∀ c ∈ Numeral.decimalChars port.toNat, Text.isBlank c = false := fun c hc ↦
    Text.isBlank_of_isDigit (Numeral.isDigit_of_mem_decimalChars hc)
  rw [remotePort?, Section.attr?_eq, h]
  change Numeral.readUInt16 (Text.trim (Numeral.decimal port.toNat).toList) = _
  rw [Numeral.toList_decimal, Text.trim_eq_self hblank, Numeral.readUInt16_decimalChars]

theorem remotePort?_of_map {port : UInt16} (more : String) (hnone : m.attrsOf "sctp-port" = [])
    (h : m.attrsOf "sctpmap" = [.of "sctpmap" (Numeral.decimal port.toNat ++ " " ++ more)]) :
    remotePort? m = some port := by
  rw [remotePort?, Section.attr?_eq, Section.attr?_eq, hnone, h]
  change Numeral.readUInt16
    (Text.before ' ' (Numeral.decimal port.toNat ++ " " ++ more).toList) = _
  rw [String.toList_append, String.toList_append, List.append_assoc, Numeral.toList_decimal]
  refine (congrArg _ (Text.before_append (Numeral.space_notMem_decimalChars _) _)).trans ?_
  exact Numeral.readUInt16_decimalChars port

theorem remotePort?_answerLines (h : SctpHandler) (offer : Section) (hm : m.attrs = []) :
    remotePort? (m.addAll (h.answerLines offer)) = some h.port := by
  have hnone : ∀ key, m.attrsOf key = [] := fun key ↦ by
    rw [Section.attrsOf, hm]
    rfl
  rw [answerLines]
  split
  · refine remotePort?_of_map "webrtc-datachannel 1024" ?_ ?_
    · refine (Section.attrsOf_addAll_of_ne (fun a ha ↦ ?_) m).trans (hnone _)
      rw [List.mem_singleton.mp ha]
      exact (by decide : "sctpmap" ≠ "sctp-port")
    · rw [String.append_assoc]
      exact Section.attrsOf_add_of_nil (hnone "sctpmap")
  · refine remotePort?_of_port (Section.attrsOf_addAll (Section.tidy_of_nil hm) List.mem_cons_self
      ?_ fun b hb hkey ↦ ?_)
    · exact (by decide : "sctp-port" ∈ Attribute.singleKeys)
    · rcases List.mem_cons.mp hb with hb | hb
      · exact hb
      · rw [List.mem_singleton.mp hb] at hkey
        exact absurd hkey (by decide : "max-message-size" ≠ "sctp-port")

end SctpHandler

/-! ## Answered sections -/

namespace MediaHandler

variable {h : MediaHandler} {o a a' : Section} {e : NegotiationError}

/-- Whether an answer can be used: its formats mean what the offer means by them, and our handler
knows what that is; or it names a port. -/
def Usable : MediaHandler → Section → Section → Prop
  | rtp h, o, a => ∀ f ∈ a.formats, (h.match? o f).isSome = true ∧
      a.attrFor? "rtpmap" f = o.attrFor? "rtpmap" f
  | sctp _, _, a => (SctpHandler.remotePort? a).isSome = true

/-- What holds of a section that a handler answers with. -/
structure Answers (h : MediaHandler) (o a : Section) : Prop where
  /-- The offer is of the kind of the handler. -/
  handler_kind : o.kind = h.kind
  /-- It is of the kind of the offer. -/
  kind_eq : a.kind = o.kind
  /-- It has the protocol of the offer. -/
  proto_eq : a.proto = o.proto
  /-- It has formats. -/
  formats_ne : a.formats ≠ []
  /-- They were offered. -/
  formats_subset : a.formats ⊆ o.formats
  /-- It can be used. -/
  usable : h.Usable o a

/-- The keys that make an answer usable. -/
def usableKeys : List String := ["rtpmap", "sctp-port", "sctpmap"]

theorem Answers.congr (ha : h.Answers o a) (hkind : a'.kind = a.kind) (hproto : a'.proto = a.proto)
    (hformats : a'.formats = a.formats)
    (hattrs : ∀ key ∈ usableKeys, a'.attrsOf key = a.attrsOf key) : h.Answers o a' where
  handler_kind := ha.handler_kind
  kind_eq := hkind.trans ha.kind_eq
  proto_eq := hproto.trans ha.proto_eq
  formats_ne := hformats ▸ ha.formats_ne
  formats_subset := hformats ▸ ha.formats_subset
  usable := by
    have husable := ha.usable
    cases h with
    | rtp h =>
      intro f hf
      rw [hformats] at hf
      obtain ⟨hmatch, hline⟩ := husable f hf
      exact ⟨hmatch, (Section.attrFor?_congr (hattrs _ (by decide)) f).trans hline⟩
    | sctp h =>
      change (SctpHandler.remotePort? a').isSome = true
      rwa [SctpHandler.remotePort?_congr (hattrs _ (by decide)) (hattrs _ (by decide))]

/-- Attributes that are copied say nothing under a key that the handler derives. -/
theorem attrsOf_copied {derived : List String} {copied : List Attribute}
    (hcopied : ∀ b ∈ copied, Handler.IsCommon derived b) {key : String} (hkey : key ∈ derived)
    (m : Section) : (m.addAll copied).attrsOf key = m.attrsOf key :=
  Section.attrsOf_addAll_of_ne (fun b hb heq ↦ (hcopied b hb).1 (heq ▸ hkey)) m

theorem addMux_eq (mux : Bool) (m : Section) :
    ∃ as, (if mux then m.add (.flag "rtcp-mux") else m) = m.addAll as ∧
      ∀ b ∈ as, b.key = "rtcp-mux" := by
  cases mux with
  | true =>
    refine ⟨[.flag "rtcp-mux"], rfl, fun b hb ↦ ?_⟩
    rw [List.mem_singleton.mp hb]
    rfl
  | false => exact ⟨[], rfl, fun _ hb ↦ nomatch hb⟩

theorem answers_rtp {h : RtpHandler} (ha : h.createAnswer o = .ok a) :
    (rtp h).Answers o a ∧ a.Tidy ∧ a.isRejected = false := by
  rw [RtpHandler.createAnswer] at ha
  split at ha
  · cases ha
  · rename_i hcheck
    rw [RtpHandler.answerFormats_eq] at ha
    dsimp only at ha
    split at ha
    · cases ha
    · rename_i hformats
      obtain ⟨copied, rfl, hcopied⟩ := Handler.insertAll_spec
        (fun _ _ hmay ↦ Handler.isCommon_of_canInsertExcept hmay) ha
      let common : Section :=
        { kind := o.kind, port := 1, proto := o.proto
          formats := [] ++ h.commonFormats o o.formats }
      obtain ⟨mux, hmux, hkeys⟩ := addMux_eq o.rtcpMux (common.addAll (h.commonLines o o.formats))
      rw [hmux]
      have htidy : common.Tidy := Section.tidy_of_nil rfl
      refine ⟨⟨(Handler.kind_of_checkOffer hcheck).1, rfl, rfl,
        fun hnil ↦ hformats (List.isEmpty_iff.mpr hnil), fun f hf ↦ (List.mem_filter.mp hf).1,
        fun f hf ↦ ⟨(List.mem_filter.mp hf).2, ?_⟩⟩,
        (((htidy.addAll _).addAll _).setDirection _).addAll _, rfl⟩
      -- the lines that are added behind those of the formats are no `rtpmap` lines
      have hempty : common.attrs = [] := rfl
      refine (Section.attrFor?_congr ?_ f).trans (RtpHandler.attrFor?_commonLines hempty hf)
      rw [attrsOf_copied hcopied (by decide), Section.attrsOf_setDirection (by decide)]
      refine Section.attrsOf_addAll_of_ne (fun b hb ↦ ?_) _
      rw [hkeys b hb]
      decide

theorem answers_sctp {h : SctpHandler} (ha : h.createAnswer o = .ok a) :
    (sctp h).Answers o a ∧ a.Tidy ∧ a.isRejected = false := by
  rw [SctpHandler.createAnswer] at ha
  split at ha
  · cases ha
  · rename_i hcheck
    obtain ⟨hkind, hformats⟩ := Handler.kind_of_checkOffer hcheck
    split at ha
    · cases ha
    · obtain ⟨copied, rfl, hcopied⟩ := Handler.insertAll_spec
        (fun _ _ hmay ↦ Handler.isCommon_of_canInsertExcept hmay) ha
      refine ⟨⟨hkind, hkind.symm, rfl, hformats, List.Subset.refl _, ?_⟩,
        ((Section.tidy_of_nil rfl).addAll _).addAll _, rfl⟩
      change (SctpHandler.remotePort? _).isSome = true
      rw [SctpHandler.remotePort?_congr (attrsOf_copied hcopied (by decide) _)
        (attrsOf_copied hcopied (by decide) _), SctpHandler.remotePort?_answerLines h o rfl]
      rfl

/-- **What an answer is like**, whichever handler made it. -/
theorem answers (ha : h.createAnswer o = .ok a) :
    h.Answers o a ∧ a.Tidy ∧ a.isRejected = false := by
  cases h with
  | rtp h => exact answers_rtp ha
  | sctp h => exact answers_sctp ha

/-- **What a handler cannot answer concerns its section alone**, unless an attribute has no key. -/
theorem isSectionLocal_of_createAnswer (hkeyed : o.Keyed) (he : h.createAnswer o = .error e) :
    e.isSectionLocal = true := by
  cases h with
  | rtp h => exact RtpHandler.isSectionLocal_of_createAnswer hkeyed he
  | sctp h => exact SctpHandler.isSectionLocal_of_createAnswer hkeyed he

/-! ## Agreement -/

theorem isMedia_kind (hmade : h.IsMade) :
    (∃ handler, h = rtp handler ∧ h.kind.isMedia = true) ∨
      ∃ handler, h = sctp handler ∧ h.kind.isMedia = false := by
  cases h with
  | rtp handler => exact Or.inl ⟨handler, rfl, hmade.1⟩
  | sctp handler => exact Or.inr ⟨handler, rfl, rfl⟩

/-- The first format of an answer is usable on both sides, and means the same. -/
theorem agree_rtp {ours theirs : RtpHandler} (ho : (rtp ours).Offers o)
    (ha : (rtp theirs).Answers o a) (hrej : a.isRejected = false)
    (hnames : ∀ c ∈ ours.codecs, '/' ∉ c.name.toList) :
    ∃ codec, ours.processAnswer o a = .ok codec ∧ theirs.processAnswer o a = .ok codec := by
  obtain ⟨f, formats, hformats⟩ := List.exists_cons_of_ne_nil ha.formats_ne
  have hf : f ∈ a.formats := hformats ▸ List.mem_cons_self
  have hoffered := ha.formats_subset hf
  -- the offer maps the format to one of our codecs, and the answer repeats the line
  obtain ⟨c, hc, hline⟩ := ho.declares f hoffered
  obtain ⟨hmatch, hsame⟩ := ha.usable f hf
  obtain ⟨hmem, hformat⟩ := RtpHandler.mem_of_codecOf? hc
  have hmap := Section.rtpmap?_of_attrFor? (hnames c hmem) hline
  have hmap' := (Section.rtpmap?_congr hsame).trans hmap
  have hpt : Numeral.readUInt8 f.toList = some c.pt := hformat ▸ c.readUInt8_format
  rw [RtpHandler.match?, hmap, Option.bind_some] at hmatch
  exact ⟨_, RtpHandler.processAnswer_eq hrej hformats (RtpHandler.answeredCodec?_eq hoffered hmap'
      (RtpHandler.isSome_codecNamed? hmem c.channels) hpt),
    RtpHandler.processAnswer_eq hrej hformats
      (RtpHandler.answeredCodec?_eq hoffered hmap' hmatch hpt)⟩

/-- **Both sides settle on the same codec.** What one handler offers and another answers is usable
to both, and to both it means the same. -/
theorem agree {ours theirs : MediaHandler} (hours : ours.IsMade) (htheirs : theirs.IsMade)
    (ho : ours.Offers o) (ha : theirs.Answers o a) (hrej : a.isRejected = false)
    (hnames : ∀ c ∈ ours.codecs, '/' ∉ c.name.toList) :
    ∃ codec, ours.processAnswer o a = .ok codec ∧ theirs.processAnswer o a = .ok codec := by
  have hkind : ours.kind = theirs.kind := ho.kind_eq.symm.trans ha.handler_kind
  rcases isMedia_kind hours with ⟨h, rfl, hmedia⟩ | ⟨h, rfl, hmedia⟩ <;>
    rcases isMedia_kind htheirs with ⟨h', rfl, hmedia'⟩ | ⟨h', rfl, hmedia'⟩
  · exact agree_rtp ho ha hrej hnames
  · rw [hkind, hmedia'] at hmedia
    cases hmedia
  · rw [hkind, hmedia'] at hmedia
    cases hmedia
  · obtain ⟨port, hport⟩ := Option.isSome_iff_exists.mp ha.usable
    have hok : SctpHandler.processAnswer a = .ok () := by
      rw [SctpHandler.processAnswer, hport]
      simp
    refine ⟨none, ?_, ?_⟩ <;> rw [processAnswer, hok] <;> rfl

end MediaHandler

end OfferAnswer
