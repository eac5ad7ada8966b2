import OfferAnswer.Proofs.Session.Exchange
import OfferAnswer.Proofs.Session.Exhaustion
import OfferAnswer.Proofs.Session.Listening

/-!
# Finding the codec of an answer

A session that answers asks its handler twice: once for the answer, and once for the codec that the
answer settles on. Both times a format is looked up by what its `rtpmap` line says, and there the
two agree. But a codec has a payload type, so the second time the format must also be a number of 8
bits. A format that is none is answered all the same, and then skipped.

So an answer settles on the first *payload type* among its formats, and an accepted section may have
no codec at all.
-/

namespace OfferAnswer

/-- The payload types among the formats of a section. -/
def Section.payloads (m : Section) : List PayloadType :=
  m.formats.filterMap fun f ↦ Numeral.readUInt8 f.toList

/-! ## Handlers -/

namespace RtpHandler

variable {h : RtpHandler} {o a : Section} {f : String} {fs : List String}

/-- Whether a codec is one of ours, by name and clock rate. -/
def Knows (h : RtpHandler) (c : Codec) : Prop :=
  ∃ l ∈ h.codecs, l.isNamed c.name c.clockRate = true

/-- Whether a handler finds one of its codecs behind the first format of an answer. -/
def Resolves (h : RtpHandler) (o a : Section) : Prop :=
  ∃ f c, a.formats.head? = some f ∧ Numeral.readUInt8 f.toList = some c.pt ∧
    h.processAnswer o a = .ok (some c) ∧ h.Knows c

theorem answeredCodec?_of_usable (hoffered : f ∈ o.formats) (hmatch : (h.match? o f).isSome = true)
    (hline : a.attrFor? "rtpmap" f = o.attrFor? "rtpmap" f) :
    ∃ r, h.answeredCodec? o a f = (Numeral.readUInt8 f.toList).map (agreed a f r) ∧
      ∃ l ∈ h.codecs, l.isNamed r.name r.clockRate = true := by
  obtain ⟨l, hl⟩ := Option.isSome_iff_exists.mp hmatch
  obtain ⟨r, hr, hnamed⟩ := Option.bind_eq_some_iff.mp hl
  have hmap : a.rtpmap? f = some r := (Section.rtpmap?_congr hline).trans hr
  have hknown : (h.codecNamed? r).isSome = true := by
    rw [hnamed]
    rfl
  have hname : l.isNamed r.name r.clockRate = true := by
    simpa using List.find?_some hnamed
  refine ⟨r, ?_, l, List.mem_of_find?_eq_some hnamed, hname⟩
  cases hpt : Numeral.readUInt8 f.toList with
  | some pt => exact answeredCodec?_eq hoffered hmap hknown hpt
  | none => simp [answeredCodec?, hmap, hpt]

theorem findSome?_answeredCodec? (husable : ∀ f ∈ fs, f ∈ o.formats ∧
      (h.match? o f).isSome = true ∧ a.attrFor? "rtpmap" f = o.attrFor? "rtpmap" f) :
    (fs.findSome? (h.answeredCodec? o a)).map Codec.pt =
        (fs.filterMap fun f ↦ Numeral.readUInt8 f.toList).head? ∧
      ∀ c, fs.findSome? (h.answeredCodec? o a) = some c → h.Knows c := by
  induction fs with
  | nil => exact ⟨rfl, nofun⟩
  | cons f fs ih =>
    obtain ⟨hoffered, hmatch, hline⟩ := husable f List.mem_cons_self
    obtain ⟨r, hcodec, hknown⟩ := answeredCodec?_of_usable hoffered hmatch hline
    rw [List.findSome?_cons, hcodec, List.filterMap_cons]
    cases Numeral.readUInt8 f.toList with
    | none => exact ih fun g hg ↦ husable g (List.mem_cons_of_mem f hg)
    | some pt =>
      refine ⟨rfl, fun c hc ↦ ?_⟩
      rw [← Option.some_inj.mp hc]
      exact hknown

/-- **What a handler makes of its own answer**: the codec of the first payload type, or an error if
there is none. -/
theorem processAnswer_of_answers (ha : (MediaHandler.rtp h).Answers o a)
    (hrej : a.isRejected = false) :
    (∀ pt, a.payloads.head? = some pt →
      ∃ c, h.processAnswer o a = .ok (some c) ∧ c.pt = pt ∧ h.Knows c) ∧
    (a.payloads = [] → ∃ e, h.processAnswer o a = .error e) := by
  have hformats : a.formats.isEmpty = false := by
    rw [← Bool.not_eq_true, List.isEmpty_iff]
    exact ha.formats_ne
  obtain ⟨hpt, hknows⟩ := findSome?_answeredCodec? fun f hf ↦
    ⟨ha.formats_subset hf, ha.usable f hf⟩
  change _ = a.payloads.head? at hpt
  simp only [processAnswer, hrej, hformats, Bool.false_eq_true, if_false]
  cases hfound : a.formats.findSome? (h.answeredCodec? o a) with
  | none =>
    rw [hfound] at hpt
    refine ⟨fun pt hhead ↦ ?_, fun _ ↦ ⟨_, rfl⟩⟩
    rw [hhead] at hpt
    cases hpt
  | some c =>
    rw [hfound] at hpt
    constructor
    · intro pt hhead
      rw [hhead] at hpt
      exact ⟨c, rfl, Option.some_inj.mp hpt, hknows c hfound⟩
    · intro hnil
      rw [hnil] at hpt
      cases hpt

/-- A handler settles on the first format of its answer if and only if that is a payload type. -/
theorem resolves_iff (ha : (MediaHandler.rtp h).Answers o a) (hrej : a.isRejected = false) :
    h.Resolves o a ↔
      ∃ f, a.formats.head? = some f ∧ (Numeral.readUInt8 f.toList).isSome = true := by
  constructor
  · rintro ⟨f, c, hhead, hpt, -, -⟩
    exact ⟨f, hhead, by rw [hpt]; rfl⟩
  · rintro ⟨f, hhead, hsome⟩
    obtain ⟨pt, hpt⟩ := Option.isSome_iff_exists.mp hsome
    obtain ⟨fs, hformats⟩ : ∃ fs, a.formats = f :: fs := List.head?_eq_some_iff.mp hhead
    have hfirst : a.payloads.head? = some pt := by
      rw [Section.payloads, hformats, List.filterMap_cons, hpt]
      rfl
    obtain ⟨c, hc, rfl, hknows⟩ := (processAnswer_of_answers ha hrej).1 pt hfirst
    exact ⟨f, c, hhead, hpt, hc, hknows⟩

end RtpHandler

/-! ## Sessions -/

namespace Session

theorem codec_of_row {s : Session} {remote : Description} {run : Answering s remote} {i : Nat}
    {q r : Planned} {o a : Section} {n : NegotiatedMedia} (hrow : run.Row i q r o a n)
    (hrej : a.isRejected = false) : ∃ h, s.handler? r.handler = some h ∧ h.Answers o a ∧
      n.kind = a.kind ∧ n.codec = (h.processAnswer o a).toOption.join := by
  obtain ⟨-, h, hh, hanswers⟩ := hrow.answers.1.answers hrej
  refine ⟨h, hh, hanswers, ?_⟩
  have hwritten : run.written.2.handler? r.handler = some h := by
    rw [handler?, run.handlers_written]
    exact hh
  rw [hrow.settled, outcome, hrej, hwritten, if_neg Bool.false_ne_true]
  refine ⟨rfl, ?_⟩
  dsimp only [Option.bind_some]
  cases h.processAnswer o a <;> rfl

theorem isSome_codec_of_row {s : Session} {remote : Description} {run : Answering s remote}
    {i : Nat}
    {q r : Planned} {o a : Section} {n : NegotiatedMedia} (hrow : run.Row i q r o a n)
    (hmade : ∀ h ∈ s.handlers, h.IsMade) (hrej : a.isRejected = false)
    (hmedia : n.kind.isMedia = true) : n.codec.isSome = true ↔ a.payloads ≠ [] := by
  obtain ⟨h, hh, hanswers, hkind, hcodec⟩ := codec_of_row hrow hrej
  have hsort : h.kind.isMedia = true := by
    rw [← hanswers.handler_kind, ← hanswers.kind_eq, ← hkind]
    exact hmedia
  rcases MediaHandler.isMedia_kind (hmade h (mem_of_handler? hh)) with
    ⟨h, rfl, -⟩ | ⟨h, rfl, hchannel⟩
  · obtain ⟨hsome, hnone⟩ := RtpHandler.processAnswer_of_answers hanswers hrej
    rw [hcodec]
    cases hpayloads : a.payloads with
    | nil =>
      obtain ⟨e, he⟩ := hnone hpayloads
      rw [MediaHandler.processAnswer, he]
      exact ⟨fun h ↦ Bool.noConfusion h, fun h ↦ absurd rfl h⟩
    | cons pt pts =>
      obtain ⟨c, hc, -⟩ := hsome pt (by rw [hpayloads]; rfl)
      rw [MediaHandler.processAnswer, hc]
      exact ⟨fun _ ↦ List.cons_ne_nil pt pts, fun _ ↦ rfl⟩
  · rw [hchannel] at hsort
    cases hsort

/-- A section that a session has accepted has a codec exactly if its answer has a payload type. -/
theorem isSome_codec_negotiated {s : Session} {ports : PortAllocator} {remote answer : Description}
    {i : Nat} {n : NegotiatedMedia} {a : Section} (hs : s.Reachable)
    (h : (s.processOffer ports remote).result = .ok answer)
    (hn : (s.processOffer ports remote).session.negotiated[i]? = some n)
    (ha : answer.sections[i]? = some a) (hrej : n.rejected = false)
    (hmedia : n.kind.isMedia = true) : n.codec.isSome = true ↔ a.payloads ≠ [] := by
  have hsound := hs.sound
  rcases processOffer_cases hsound.exclusive hsound.hasPem hsound.answerSetup_ne ports remote with
    ⟨e, hr⟩ | ⟨-, -, run, hr⟩
  · rw [hr] at h
    cases h
  · rw [hr] at h hn
    cases h
    rw [run.negotiated_concluded] at hn
    obtain ⟨q, r, o, a', -, ha', hrow⟩ := run.exists_row hn
    obtain rfl : a' = a := Option.some.inj (ha'.symm.trans ha)
    have haccepted : a'.isRejected = false := by
      rcases run.row_cases hrow with ⟨-, rfl⟩ | ⟨-, -, -, hrej, -⟩
      · cases hrej
      · exact hrej
    exact isSome_codec_of_row hrow (fun _ hh ↦ hsound.isMade hh) haccepted hmedia

/-- **Answering and resolving agree on payload types.**

Whatever a handler answers, it finds the codec of the first payload type in its own answer, and it
is one of its codecs; without a payload type it finds nothing. That is the codec of the first format
if and only if that format is a payload type.

So whatever a session that was built has been through: if it answers an offer, an accepted section
of audio or video has a codec if and only if the answer has a payload type in it. -/
theorem codecs_resolved (h : RtpHandler) (o a : Section) (ha : h.createAnswer o = .ok a) :
    (h.Resolves o a ↔
      ∃ f, a.formats.head? = some f ∧ (Numeral.readUInt8 f.toList).isSome = true) ∧
    (∀ pt, a.payloads.head? = some pt →
      ∃ c, h.processAnswer o a = .ok (some c) ∧ c.pt = pt ∧ h.Knows c) ∧
    (a.payloads = [] → ∃ e, h.processAnswer o a = .error e) ∧
    ∀ (s : Session) (ports : PortAllocator) (remote answer : Description), s.Reachable →
      (s.processOffer ports remote).result = .ok answer →
      ∀ (i : Nat) n a, (s.processOffer ports remote).session.negotiated[i]? = some n →
        answer.sections[i]? = some a → n.rejected = false → n.kind.isMedia = true →
          (n.codec.isSome = true ↔ a.payloads ≠ []) := by
  obtain ⟨hanswers, -, hrej⟩ := MediaHandler.answers_rtp ha
  obtain ⟨hsome, hnone⟩ := RtpHandler.processAnswer_of_answers hanswers hrej
  exact ⟨RtpHandler.resolves_iff hanswers hrej, hsome, hnone,
    fun s ports remote answer hs h i n a ↦ isSome_codec_negotiated hs h⟩

/-- A handler of audio in the clear. -/
def clearAudio : RtpHandler := ⟨.audio, .avp, Codec.defaultAudio, .sendRecv⟩

theorem static_format_resolved :
    (∃ a, clearAudio.createAnswer (audioSection "a" ["0"] []) = .ok a ∧
      clearAudio.Resolves (audioSection "a" ["0"] []) a) ∧
    ∃ n, ((ofAudio ⟨fun i ↦ i, 0⟩).processOffer {} (twoAudios [] [])).session.negotiated[1]? =
      some n ∧ n.rejected = false ∧ n.codec.isSome = true := by
  have hformats : (clearAudio.createAnswer (audioSection "a" ["0"] [])).toOption.map (·.formats) =
      some ["0"] := by
    decide +kernel
  have hanswer : (((ofAudio ⟨fun i ↦ i, 0⟩).processOffer {} (twoAudios [] [])).result.toOption.bind
      (·.sections[1]?)).map Section.payloads = some [0] := by
    decide +kernel
  have hnegotiated : (((ofAudio ⟨fun i ↦ i, 0⟩).processOffer {}
      (twoAudios [] [])).session.negotiated[1]?).any
        (fun n ↦ !n.rejected && n.kind.isMedia) = true := by
    decide +kernel
  rcases h : clearAudio.createAnswer (audioSection "a" ["0"] []) with e | a
  · rw [h] at hformats
    cases hformats
  obtain ⟨hresolves, -, -, hsession⟩ := codecs_resolved clearAudio _ a h
  constructor
  · rw [h] at hformats
    replace hformats : a.formats = ["0"] := Option.some_inj.mp hformats
    have hhead : a.formats.head? = some "0" := by
      rw [hformats]
      rfl
    exact ⟨a, rfl, hresolves.mpr ⟨"0", hhead, by decide⟩⟩
  · replace hsession := fun answer ↦ hsession (ofAudio ⟨fun i ↦ i, 0⟩) {} (twoAudios [] []) answer
      (reachable_ofAudio _)
    generalize (ofAudio ⟨fun i ↦ i, 0⟩).processOffer {} (twoAudios [] []) = r
      at hsession hanswer hnegotiated ⊢
    obtain ⟨n, hn, haccepted⟩ := (Option.any_eq_true _ _).mp hnegotiated
    rw [Bool.and_eq_true, Bool.not_eq_true'] at haccepted
    rcases hr : r.result with e | answer
    · rw [hr] at hanswer
      cases hanswer
    · rw [hr] at hanswer
      obtain ⟨a', ha', hpayloads⟩ := Option.map_eq_some_iff.mp hanswer
      refine ⟨n, hn, haccepted.1, (hsession answer hr 1 n a' hn ha' haccepted.1 haccepted.2).mpr ?_⟩
      rw [hpayloads]
      exact List.cons_ne_nil 0 []

/-- A format that does not fit in 8 bits is answered, but its codec is not found. -/
theorem large_format_unresolved :
    ¬∀ (h : RtpHandler) (o a : Section), h.createAnswer o = .ok a → h.Resolves o a := by
  intro hresolved
  let o := audioSection "a" ["300"] [.of "rtpmap" "300 PCMU/8000"]
  have hrun : (clearAudio.createAnswer o).toOption.map
      (fun a ↦ (clearAudio.processAnswer o a).isOk) = some false := by
    decide +kernel
  cases h : clearAudio.createAnswer o with
  | error e =>
    rw [h] at hrun
    cases hrun
  | ok a =>
    obtain ⟨f, c, -, -, hfound, -⟩ := hresolved clearAudio o a h
    rw [h] at hrun
    replace hrun : (clearAudio.processAnswer o a).isOk = false := Option.some_inj.mp hrun
    rw [hfound] at hrun
    cases hrun

end Session

end OfferAnswer
