import OfferAnswer.Proofs.Handler.Intersection

/-!
# Answers to nobody in particular

An offer says what is offered and who offers it: which identifiers the offerer has given, which
sources it sends from, how it can be reached. A handler answers the first and does not look at the
second. `Section.anonymous` is the offer without the second part, and a handler answers it as it
answers the offer itself, also with an error. So sections that differ in nothing else get the same
answer.

There are two ways for an attribute to reach an answer. It can be read, and nothing is read under a
personal key; or it can be copied, and nothing personal is copied, so what is personal does not
count as already there either.
-/

namespace OfferAnswer

/-! ## Personal attributes -/

namespace Section

variable {m : Section} {a : Attribute} {key : String}

/-- The keys, those of ICE aside, under which an offerer speaks of itself. -/
def personalKeys : List String :=
  ["mid", "setup", "fingerprint", "candidate", "end-of-candidates", "rtcp", "ssrc", "ssrc-group",
    "msid", "rid", "simulcast"]

/-- Whether an offerer speaks of itself under a key. -/
def isPersonal (key : String) : Bool := Text.startsWith key "ice-" || personalKeys.contains key

/-- The attributes that are not about the offerer. -/
def impersonal (m : Section) : List Attribute := m.attrs.filter (!isPersonal ·.key)

/-- What a section offers, whoever offers it. -/
def anonymous (m : Section) : Section where
  kind := m.kind
  port := 1
  proto := m.proto
  formats := m.formats
  attrs := m.impersonal

theorem attrsOf_anonymous (h : isPersonal key = false) (m : Section) :
    m.anonymous.attrsOf key = m.attrsOf key := by
  change (m.attrs.filter _).filter _ = m.attrs.filter _
  rw [List.filter_filter]
  refine List.filter_congr fun a _ ↦ ?_
  by_cases hkey : a.key = key
  · simp [hkey, h]
  · simp [hkey]

theorem attr?_anonymous (h : isPersonal key = false) (m : Section) :
    m.anonymous.attr? key = m.attr? key := by
  rw [attr?_eq, attr?_eq, attrsOf_anonymous h]

theorem hasAttr_anonymous (h : isPersonal key = false) (m : Section) :
    m.anonymous.hasAttr key = m.hasAttr key := by
  have hsame : m.anonymous.attrsOf key = [] ↔ m.attrsOf key = [] := by rw [attrsOf_anonymous h]
  rw [hasAttr, hasAttr, Bool.eq_iff_iff, ← not_iff_not, Bool.not_eq_true, Bool.not_eq_true,
    Attribute.hasKey_eq_false, Attribute.hasKey_eq_false]
  exact hsame

theorem isPersonal_of_direction (h : a.direction?.isSome = true) : isPersonal a.key = false := by
  obtain ⟨d, hd⟩ := Option.isSome_iff_exists.mp h
  rw [key_of_ofKey? hd]
  cases d <;> decide

theorem direction_anonymous (m : Section) : m.anonymous.direction = m.direction := by
  have hsame : m.anonymous.directions = m.directions := by
    change (m.attrs.filter _).filter _ = m.attrs.filter _
    rw [List.filter_filter]
    refine List.filter_congr fun a _ ↦ ?_
    cases hd : a.direction?.isSome with
    | false => rfl
    | true => rw [isPersonal_of_direction hd, Bool.not_false, Bool.and_self]
  rw [direction_eq, direction_eq, hsame]

end Section

open Section (isPersonal)

/-! ## Copying -/

namespace Handler

variable {derived : List String} {kind : MediaKind} {a : Attribute}

/-- What is personal belongs to the side that wrote it. -/
theorem isOwn_of_isPersonal (h : isPersonal a.key = true) : isOwn a = true := by
  have hall : ∀ key ∈ Section.personalKeys, ownKeys.contains key = true := by decide
  rw [isPersonal, Bool.or_eq_true] at h
  rw [isOwn, Bool.or_eq_true, Bool.or_eq_true]
  exact h.imp Or.inr fun hkey ↦ hall _ (List.contains_iff_mem.mp hkey)

/-- Copying passes over what is personal. -/
theorem insertAll_filter (as : List Attribute) (m : Section) :
    insertAll (canInsertExcept derived) kind (as.filter (!isPersonal ·.key)) m =
      insertAll (canInsertExcept derived) kind as m := by
  induction as generalizing m with
  | nil => rfl
  | cons a as ih =>
    cases hpersonal : isPersonal a.key with
    | true =>
      have hskip : canInsertExcept derived a m = false := by
        rw [canInsertExcept, canInsert, isOwn_of_isPersonal hpersonal, Bool.not_true,
          Bool.false_and, Bool.and_false]
      rw [List.filter_cons_of_neg (by simp [hpersonal]), ih, insertAll, hskip]
      rfl
    | false =>
      rw [List.filter_cons_of_pos (by simp [hpersonal]), insertAll, insertAll, ih, ih]

theorem intersect_anonymous (o m : Section) :
    intersect (canInsertExcept derived) o.anonymous m = intersect (canInsertExcept derived) o m :=
  insertAll_filter o.attrs m

end Handler

/-! ## Audio and video -/

namespace RtpHandler

theorem match?_anonymous (h : RtpHandler) (o : Section) (f : String) :
    h.match? o.anonymous f = h.match? o f := by
  have hline : o.anonymous.attrFor? "rtpmap" f = o.attrFor? "rtpmap" f :=
    Section.attrFor?_congr (Section.attrsOf_anonymous (by decide) o) f
  rw [match?, match?, Section.rtpmap?_congr hline]

theorem answerLines_anonymous (o : Section) (f : String) (c : Codec) :
    answerLines o.anonymous f c = answerLines o f c := by
  have hsame : ∀ key ∈ formatKeys, o.anonymous.attrsOf key = o.attrsOf key := by
    have hall : ∀ key ∈ formatKeys, isPersonal key = false := by decide
    exact fun key hkey ↦ Section.attrsOf_anonymous (hall key hkey) o
  rw [answerLines, answerLines, Section.attrFor?_congr (hsame "rtpmap" (by decide)),
    Section.attrFor?_congr (hsame "fmtp" (by decide)), feedbackLines, feedbackLines,
    hsame "rtcp-fb" (by decide)]

theorem answerFormats_anonymous (h : RtpHandler) (o : Section) (fs : List String) (m : Section) :
    h.answerFormats o.anonymous fs m = h.answerFormats o fs m := by
  induction fs generalizing m with
  | nil => rfl
  | cons f fs ih =>
    rw [answerFormats, answerFormats, match?_anonymous]
    cases h.match? o f with
    | none => exact ih m
    | some c =>
      dsimp only
      rw [ih, answerLines_anonymous]

theorem createAnswer_anonymous (h : RtpHandler) (o : Section) :
    h.createAnswer o.anonymous = h.createAnswer o := by
  have hmux : o.anonymous.rtcpMux = o.rtcpMux := Section.hasAttr_anonymous (by decide) o
  have hcopied : ∀ m, Handler.intersect canInsert o.anonymous m = Handler.intersect canInsert o m :=
    Handler.intersect_anonymous o
  have hcheck : Handler.checkOffer h.takesProtocol h.kind o.anonymous =
    Handler.checkOffer h.takesProtocol h.kind o := rfl
  rw [createAnswer, createAnswer, hcheck]
  cases Handler.checkOffer h.takesProtocol h.kind o with
  | error e => rfl
  | ok _ =>
    dsimp only
    rw [answerFormats_anonymous, hmux, Section.direction_anonymous, hcopied]
    rfl

end RtpHandler

/-! ## Data channels -/

namespace SctpHandler

theorem remotePort?_anonymous (o : Section) : remotePort? o.anonymous = remotePort? o :=
  remotePort?_congr (Section.attrsOf_anonymous (by decide) o)
    (Section.attrsOf_anonymous (by decide) o)

theorem answerLines_anonymous (h : SctpHandler) (o : Section) :
    h.answerLines o.anonymous = h.answerLines o := by
  have hlegacy : isLegacy o.anonymous = isLegacy o := by
    rw [isLegacy, isLegacy, Section.hasAttr_anonymous (by decide),
      Section.hasAttr_anonymous (by decide)]
  have hsize : h.answerMaxMessageSize o.anonymous = h.answerMaxMessageSize o := by
    rw [answerMaxMessageSize, answerMaxMessageSize, Section.attr?_anonymous (by decide)]
  rw [answerLines, answerLines, hlegacy, hsize]

theorem createAnswer_anonymous (h : SctpHandler) (o : Section) :
    h.createAnswer o.anonymous = h.createAnswer o := by
  have hcopied : ∀ m, Handler.intersect canInsert o.anonymous m = Handler.intersect canInsert o m :=
    Handler.intersect_anonymous o
  have hcheck : Handler.checkOffer takesProtocol .application o.anonymous =
    Handler.checkOffer takesProtocol .application o := rfl
  rw [createAnswer, createAnswer, hcheck, remotePort?_anonymous, answerLines_anonymous, hcopied]
  rfl

end SctpHandler

/-! ## Handlers -/

namespace MediaHandler

/-- A handler answers what is offered, whoever offers it. -/
theorem createAnswer_anonymous (h : MediaHandler) (o : Section) :
    h.createAnswer o.anonymous = h.createAnswer o := by
  cases h with
  | rtp h => exact h.createAnswer_anonymous o
  | sctp h => exact h.createAnswer_anonymous o

/-- **An answer does not depend on who offers.**

Sections of one kind, protocol and list of formats whose attributes are the same apart from personal
ones have the same answer, or the same error. Nor do port, connection and bandwidth matter. -/
theorem createAnswer_blind (h : MediaHandler) {o o' : Section} (hkind : o.kind = o'.kind)
    (hproto : o.proto = o'.proto) (hformats : o.formats = o'.formats)
    (hattrs : o.impersonal = o'.impersonal) : h.createAnswer o = h.createAnswer o' := by
  have hsame : o.anonymous = o'.anonymous := by
    rw [Section.anonymous, Section.anonymous, hkind, hproto, hformats, hattrs]
  rw [← createAnswer_anonymous, hsame, createAnswer_anonymous]

/-- The offer of two video codecs as somebody else makes it, elsewhere and with more to say. -/
def twoCodecsElsewhere : Section :=
  { RtpHandler.twoCodecs with
    port := 5004
    connection := some "IN IP4 192.0.2.1"
    attrs := [.of "mid" "v", .of "ssrc" "7 cname:c", .of "rtpmap" "120 vp8/90000",
      .of "setup" "actpass", .of "rtpmap" "121 H264/90000", .of "rtcp-fb" "120 nack",
      .of "rtcp-fb" "* ccm fir", .of "ssrc" "7 cname:c", .of "rtcp-fb" "* goog-remb",
      .flag "sendrecv", .of "ice-pwd" "p", .of "extmap" "1 urn:a", .of "extmap" "2 urn:b",
      .of "simulcast" "send 1", .of "extmap" "1 urn:a", .flag "end-of-candidates"] }

theorem twoCodecs_answered_alike :
    twoCodecsElsewhere.attrs ≠ RtpHandler.twoCodecs.attrs ∧
    twoCodecsElsewhere.impersonal = RtpHandler.twoCodecs.impersonal ∧
    ∃ a, (rtp RtpHandler.watcher).createAnswer RtpHandler.twoCodecs = .ok a ∧
      (rtp RtpHandler.watcher).createAnswer twoCodecsElsewhere = .ok a := by
  have himpersonal : twoCodecsElsewhere.impersonal = RtpHandler.twoCodecs.impersonal := by decide
  have hsame : (rtp RtpHandler.watcher).createAnswer twoCodecsElsewhere =
    (rtp RtpHandler.watcher).createAnswer RtpHandler.twoCodecs :=
    createAnswer_blind _ rfl rfl rfl himpersonal
  refine ⟨by decide, himpersonal, ?_⟩
  rw [hsame]
  have hok : ((rtp RtpHandler.watcher).createAnswer RtpHandler.twoCodecs).isOk = true := by decide
  cases ha : (rtp RtpHandler.watcher).createAnswer RtpHandler.twoCodecs with
  | error e =>
    rw [ha] at hok
    cases hok
  | ok a => exact ⟨a, rfl, rfl⟩

end MediaHandler

end OfferAnswer
