import OfferAnswer.Proofs.Handler.Offers

/-!
# What was said need not be said again

A handler adds the lines of its offer one by one, and each is judged by what stands in the section
already: the very line is left alone, a line that may stand only once takes the place of the first
of its key, anything else is appended. That a second round changes nothing is not a matter of one
line. A later line could replace an earlier one, which would then be added again.

It does not happen, because the lines of one handler are `Compatible`: those of formats may stand
often, and the two of a data channel have different keys. So all of them stand in the section in
the end, whatever else does, and each is then found there.
-/

namespace OfferAnswer

/-! ## Audio and video -/

namespace RtpHandler

variable {h : RtpHandler} {formats : List String} {m m' : Section}

theorem isSome_of_addFormatLines (hm : h.addFormatLines formats m = (.ok (), m')) :
    ∀ f ∈ formats, (h.codecOf? f).isSome = true := by
  induction formats generalizing m with
  | nil => nofun
  | cons f formats ih =>
    rw [addFormatLines] at hm
    cases hc : h.codecOf? f with
    | none =>
      rw [hc] at hm
      cases hm
    | some c =>
      rw [hc] at hm
      intro g hg
      rcases List.mem_cons.mp hg with rfl | hg
      · rw [hc]
        rfl
      · exact ih hm g hg

theorem compatible_offerLines (h : RtpHandler) (formats : List String) :
    Attribute.Compatible (h.offerLines formats) := by
  have hopen : ∀ key ∈ formatKeys, (Attribute.flag key).isSingle = false := by decide
  refine Attribute.compatible_of_open fun a ha ↦ ?_
  exact (Attribute.isSingle_congr rfl).trans (hopen a.key (key_of_mem_offerLines ha))

end RtpHandler

/-! ## All handlers -/

namespace MediaHandler

variable {h : MediaHandler} {m m' n : Section}

/-- The lines that a handler adds to a section that is offered. -/
def addedLines : MediaHandler → Section → List Attribute
  | rtp h, m => h.offerLines m.formats
  | sctp h, _ =>
    [.of "sctp-port" (Numeral.decimal h.port.toNat),
      .of "max-message-size" (Numeral.decimal h.maxMessageSize.toNat)]

theorem compatible_addedLines (h : MediaHandler) (m : Section) :
    Attribute.Compatible (h.addedLines m) := by
  cases h with
  | rtp h => exact h.compatible_offerLines m.formats
  | sctp h =>
    intro a ha b hb hkey _
    simp only [addedLines, List.mem_cons, List.not_mem_nil, or_false] at ha hb
    rcases ha with rfl | rfl <;> rcases hb with rfl | rfl
    · rfl
    · exact absurd hkey (by decide : "max-message-size" ≠ "sctp-port")
    · exact absurd hkey (by decide : "sctp-port" ≠ "max-message-size")
    · rfl

/-- Whether a handler adds its lines hangs on the formats of the section alone. -/
theorem addOfferAttributes_eq (hm : h.addOfferAttributes m = (.ok (), m'))
    (hformats : n.formats = m.formats) :
    h.addOfferAttributes n = (.ok (), n.addAll (h.addedLines m)) := by
  cases h with
  | rtp h =>
    rw [addOfferAttributes, RtpHandler.addOfferAttributes, hformats]
    exact RtpHandler.addFormatLines_eq (RtpHandler.isSome_of_addFormatLines hm) n
  | sctp h => rfl

/-- **An offer is complete after one call.** On every section, if the call succeeds, all lines of
the handler stand in the section, and to call again succeeds and changes nothing. -/
theorem offer_attributes_added_once (hm : h.addOfferAttributes m = (.ok (), m')) :
    h.addedLines m ⊆ m'.attrs ∧ h.addOfferAttributes m' = (.ok (), m') := by
  obtain rfl : m.addAll (h.addedLines m) = m' :=
    (Prod.mk.inj ((addOfferAttributes_eq hm rfl).symm.trans hm)).2
  have hlines := h.compatible_addedLines m
  refine ⟨Attribute.subset_addAllOnce hlines m.attrs, ?_⟩
  rw [addOfferAttributes_eq (n := m.addAll (h.addedLines m)) hm rfl, Section.addAll_again hlines]

/-- A handler that has two codecs under one payload type, of which the first one counts. -/
def namesakeCodecs : RtpHandler where
  kind := .audio
  profile := .savpf
  codecs := [
    { pt := 111, name := "opus", clockRate := 48000, channels := some 2,
      fmtp := some "useinbandfec=1", feedback := ["nack", "nack"] },
    { pt := 111, name := "PCMU", clockRate := 8000 }]
  direction := .sendRecv

/-- A section that names a format twice, says something else of it, and has two identifiers. -/
def crowded : Section where
  kind := .audio
  port := 9
  proto := "UDP/TLS/RTP/SAVPF"
  formats := ["111", "111"]
  attrs := [.of "mid" "0", .of "rtpmap" "111 G722/8000", .of "mid" "1", .of "rtcp-fb" "111 nack"]

/-- The same section with the lines of its format. -/
def completed : Section :=
  { crowded with attrs := crowded.attrs ++
      [.of "rtpmap" "111 opus/48000/2", .of "fmtp" "111 useinbandfec=1"] }

theorem crowded_completed :
    (rtp namesakeCodecs).addOfferAttributes crowded = (.ok (), completed) ∧
    (rtp namesakeCodecs).addedLines crowded ⊆ completed.attrs ∧
    (rtp namesakeCodecs).addOfferAttributes completed = (.ok (), completed) := by
  have hlines : crowded.addAll (namesakeCodecs.offerLines crowded.formats) = completed := by
    decide +kernel
  have hfirst : (rtp namesakeCodecs).addOfferAttributes crowded = (.ok (), completed) := by
    rw [← hlines]
    exact RtpHandler.addFormatLines_eq (by decide +kernel) crowded
  exact ⟨hfirst, offer_attributes_added_once hfirst⟩

/-- A section with two ports, as no offer of ours has. -/
def twoPorts : Section where
  kind := .application
  port := 9
  proto := SctpHandler.proto
  attrs := [.of "sctp-port" "1", .of "sctp-port" "2", .of "max-message-size" "3"]

/-- The port takes the place of the first of two, and the second stays. -/
example : ((sctp {}).addOfferAttributes twoPorts).2.attrs =
    [.of "sctp-port" "5000", .of "sctp-port" "2", .of "max-message-size" "262144"] := by
  decide +kernel

end MediaHandler

end OfferAnswer
