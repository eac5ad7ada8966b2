import OfferAnswer.Handler.Rtp
import OfferAnswer.Proofs.Text.Words

/-!
# Codecs are read as they are written

The `rtpmap` line of a codec is read back as its name, clock rate and channels, provided that the
name has no slash: the encoding is cut at slashes, and a name with one would lose its second half.

Which codec an answer settles on is a question to a handler, but the handler has little to say in
it. It must know the codec; everything in the result is read from the answer and the offer. So two
handlers that both know the codec of a format find the same.
-/

namespace OfferAnswer

namespace Codec

variable {c : Codec}

@[simp] theorem toList_format (c : Codec) : c.format.toList = Numeral.decimalChars c.pt.toNat :=
  Numeral.toList_decimal _

theorem space_notMem_format (c : Codec) : ' ' ∉ c.format.toList := by
  rw [toList_format]
  exact Numeral.space_notMem_decimalChars _

@[simp] theorem readUInt8_format (c : Codec) : Numeral.readUInt8 c.format.toList = some c.pt := by
  rw [toList_format, Numeral.readUInt8_decimalChars]

/-- The value of the `rtpmap` line without the format. -/
def encoding (c : Codec) : String :=
  c.name ++ "/" ++ Numeral.decimal c.clockRate.toNat ++
    (match c.channels with
    | some n => "/" ++ Numeral.decimal n.toNat
    | none => "")

theorem rtpmap_eq (c : Codec) : c.rtpmap = c.format ++ " " ++ c.encoding := by
  rw [rtpmap, encoding]
  cases c.channels with
  | none => simp only [String.append_assoc]
  | some n => simp only [String.append_assoc]

theorem firstWord_rtpmap (c : Codec) : Text.firstWord c.rtpmap = c.format := by
  rw [rtpmap_eq, Text.firstWord_append c.space_notMem_format]

theorem afterFirstWord_rtpmap (c : Codec) : Text.afterFirstWord c.rtpmap = c.encoding := by
  rw [rtpmap_eq, Text.afterFirstWord_append c.space_notMem_format]

theorem splitAt_encoding (h : '/' ∉ c.name.toList) : Text.splitAt '/' c.encoding.toList =
    c.name.toList :: Numeral.decimalChars c.clockRate.toNat ::
      (c.channels.map fun n ↦ Numeral.decimalChars n.toNat).toList := by
  have hrate := Numeral.slash_notMem_decimalChars c.clockRate.toNat
  rw [encoding]
  cases c.channels with
  | none =>
    simp only [String.append_empty, String.toList_append, Numeral.toList_decimal, List.append_assoc]
    refine (Text.splitAt_append h _).trans (congrArg _ ?_)
    exact Text.splitAt_of_notMem hrate
  | some n =>
    simp only [String.toList_append, Numeral.toList_decimal, List.append_assoc]
    refine (Text.splitAt_append h _).trans (congrArg _ ?_)
    refine (Text.splitAt_append hrate _).trans (congrArg _ ?_)
    exact Text.splitAt_of_notMem (Numeral.slash_notMem_decimalChars n.toNat)

/-- What a codec declares of itself is read back. -/
theorem ofEncoding?_encoding (h : '/' ∉ c.name.toList) :
    RtpMap.ofEncoding? c.encoding = some ⟨c.name, c.clockRate, c.channels⟩ := by
  rw [RtpMap.ofEncoding?, splitAt_encoding h]
  dsimp only
  rw [Numeral.readUInt32_decimalChars, Option.map_some, String.ofList_toList]
  cases c.channels with
  | none => rfl
  | some n =>
    rw [Option.map_some, Option.toList_some, List.head?_cons, Option.bind_some,
      Numeral.readUInt8_decimalChars]

theorem isNamed_self (c : Codec) : c.isNamed c.name c.clockRate = true := by
  rw [isNamed, Text.sameIgnoringCase, beq_self_eq_true, beq_self_eq_true]
  rfl

end Codec

namespace Section

variable {m : Section} {c : Codec}

/-- A section with the `rtpmap` line of a codec declares that codec. -/
theorem rtpmap?_of_attrFor? (hname : '/' ∉ c.name.toList) {format : String}
    (h : m.attrFor? "rtpmap" format = some (.of "rtpmap" c.rtpmap)) :
    m.rtpmap? format = some ⟨c.name, c.clockRate, c.channels⟩ := by
  rw [rtpmap?, h]
  change RtpMap.ofEncoding? (Text.afterFirstWord c.rtpmap) = _
  rw [c.afterFirstWord_rtpmap, Codec.ofEncoding?_encoding hname]

theorem rtpmap?_congr {m' : Section} {format : String}
    (h : m'.attrFor? "rtpmap" format = m.attrFor? "rtpmap" format) :
    m'.rtpmap? format = m.rtpmap? format := by
  rw [rtpmap?, rtpmap?, h]

end Section

namespace RtpHandler

variable {h : RtpHandler} {c : Codec} {offer answer : Section} {format : String}

theorem isSome_codecOf? (hc : c ∈ h.codecs) : (h.codecOf? c.format).isSome = true := by
  rw [codecOf?, List.find?_isSome]
  exact ⟨c, hc, beq_self_eq_true _⟩

theorem mem_of_codecOf? (hc : h.codecOf? format = some c) : c ∈ h.codecs ∧ c.format = format := by
  have hformat := List.find?_some hc
  exact ⟨List.mem_of_find?_eq_some hc, eq_of_beq hformat⟩

theorem isSome_codecNamed? (hc : c ∈ h.codecs) (channels : Option UInt8) :
    (h.codecNamed? ⟨c.name, c.clockRate, channels⟩).isSome = true := by
  rw [codecNamed?, List.find?_isSome]
  exact ⟨c, hc, c.isNamed_self⟩

/-! ## The codec of an answered format -/

/-- What an answer says about a format of a given meaning. -/
def agreed (answer : Section) (format : String) (r : RtpMap) (pt : PayloadType) : Codec where
  pt := pt
  name := r.name
  clockRate := r.clockRate
  channels := r.channels
  fmtp := (answer.attrFor? "fmtp" format).map fun a ↦ Text.afterFirstWord a.content
  feedback := (answer.attrsOf "rtcp-fb").filterMap fun a ↦
    if Text.firstWord a.content = format ∨ Text.firstWord a.content = "*" then
      some (Text.afterFirstWord a.content)
    else none

/-- A handler that knows the codec of an offered format finds what the answer says about it. -/
theorem answeredCodec?_eq {r : RtpMap} {pt : PayloadType} (hoffered : format ∈ offer.formats)
    (hmap : answer.rtpmap? format = some r) (hknown : (h.codecNamed? r).isSome = true)
    (hpt : Numeral.readUInt8 format.toList = some pt) :
    h.answeredCodec? offer answer format = some (agreed answer format r pt) := by
  have hcontains : offer.formats.contains format = true := List.contains_iff_mem.mpr hoffered
  have hsome : (h.codecNamed? r).isNone = false := by
    rw [← Option.not_isSome, hknown]
    rfl
  rw [answeredCodec?, hcontains, hmap, Option.some_or, hpt]
  simp only [Bool.not_true, Bool.false_eq_true, if_false, Option.bind_eq_bind, Option.bind_some,
    hsome]
  rfl

/-- An answer settles on the codec of its first format, if that is usable. -/
theorem processAnswer_eq {formats : List String} (hrej : answer.isRejected = false)
    (hformats : answer.formats = format :: formats)
    (hcodec : h.answeredCodec? offer answer format = some c) :
    h.processAnswer offer answer = .ok (some c) := by
  rw [processAnswer, hrej, hformats, List.findSome?_cons, hcodec]
  rfl

end RtpHandler

end OfferAnswer
