import OfferAnswer.Proofs.Handler.Unsigned

/-!
# What an answer of audio or video says

An answer is the intersection of an offered section with a handler. `RtpHandler.Intersection` says
what is in it, key by key and for all keys: the lines of formats, the feedback both sides know, the
direction, and whatever else may be repeated. `intersection_of_createAnswer` is exact in both
respects: when there is an answer, and what it says.

Copying and deriving do not get in each other's way. What is derived stands under keys that are not
copied, and what is copied finds nothing of its key. So a rule for one key is a rule about lists
that start empty: each attribute once, or the last one alone.
-/

namespace OfferAnswer

namespace Handler

variable {derived : List String} {kind : MediaKind} {a : Attribute} {as : List Attribute}
  {m m' : Section}

instance (derived : List String) (a : Attribute) : Decidable (IsCommon derived a) :=
  inferInstanceAs (Decidable (_ ∧ _))

/-! ## Copying -/

theorem canInsertExcept_iff :
    canInsertExcept derived a m = true ↔ IsCommon derived a ∧ a ∉ m.attrs := by
  simp [canInsertExcept, canInsert, IsCommon, and_assoc]

/-- Copying adds all attributes that are common. Those that are there already make no difference. -/
theorem insertAll_eq (has : ∀ a ∈ as, a.key ≠ "") (m : Section) :
    insertAll (canInsertExcept derived) kind as m =
      .ok (m.addAll (as.filter (IsCommon derived ·))) := by
  induction as generalizing m with
  | nil => rfl
  | cons a as ih =>
    have hrest := fun m ↦ ih (fun b hb ↦ has b (List.mem_cons_of_mem a hb)) m
    rw [insertAll, List.filter_cons]
    by_cases hmay : canInsertExcept derived a m = true
    · have hempty : ¬a.key.isEmpty = true := fun h ↦
        has a List.mem_cons_self (String.isEmpty_iff.mp h)
      rw [hmay, if_neg (by simp), if_neg hempty,
        if_pos (decide_eq_true (canInsertExcept_iff.mp hmay).1)]
      exact hrest (m.add a)
    · rw [if_pos (by simpa using hmay), hrest m]
      split
      · rename_i hcommon
        have hmem : a ∈ m.attrs := by
          by_contra hnot
          exact hmay (canInsertExcept_iff.mpr ⟨of_decide_eq_true hcommon, hnot⟩)
        have hadd : m.add a = m := by
          rw [Section.add, Attribute.addOnce, if_pos hmem]
        change _ = Except.ok ((m.add a).addAll _)
        rw [hadd]
      · rfl

theorem isCommon_of_key_eq (hderived : "" ∉ derived) (h : a.key = "") : IsCommon derived a := by
  refine ⟨h ▸ hderived, ?_⟩
  rw [isOwn, Attribute.direction?, h]
  decide

theorem keyed_of_insertAll (hderived : "" ∉ derived) (hm : m.Keyed)
    (h : insertAll (canInsertExcept derived) kind as m = .ok m') : ∀ a ∈ as, a.key ≠ "" := by
  induction as generalizing m with
  | nil => exact fun a ha ↦ nomatch ha
  | cons a as ih =>
    have hkey : a.key ≠ "" := by
      intro hkey
      have hmay : canInsertExcept derived a m = true :=
        canInsertExcept_iff.mpr ⟨isCommon_of_key_eq hderived hkey, fun ha ↦ hm a ha hkey⟩
      rw [insertAll, hmay, hkey] at h
      cases h
    have hrest : ∀ b ∈ as, b.key ≠ "" := by
      rw [insertAll] at h
      split at h
      · exact ih hm h
      · split at h
        · cases h
        · exact ih (hm.add hkey) h
    intro b hb
    rcases List.mem_cons.mp hb with rfl | hb
    · exact hkey
    · exact hrest b hb

theorem checkOffer_eq_ok {takesProtocol : String → Bool} :
    checkOffer takesProtocol kind m = .ok () ↔
    takesProtocol m.proto = true ∧ m.kind = kind ∧ m.formats ≠ [] := by
  rw [checkOffer]
  cases takesProtocol m.proto <;> by_cases hkind : m.kind = kind <;>
    by_cases hformats : m.formats = [] <;> simp [hkind, hformats]

end Handler

/-! ## Answers before anything is copied -/

namespace RtpHandler

variable {h : RtpHandler} {o a : Section} {c : Codec} {b : Attribute} {f key : String}
  {fs : List String}

/-- The line that shares the port with RTCP, if the offer has it. -/
def muxLines (o : Section) : List Attribute := if o.rtcpMux then [.flag "rtcp-mux"] else []

/-- An answer without attributes. -/
def bareAnswer (h : RtpHandler) (o : Section) : Section where
  kind := o.kind
  port := 1
  proto := o.proto
  formats := h.commonFormats o o.formats

/-- An answer before anything is copied. -/
def derivedAnswer (h : RtpHandler) (o : Section) : Section :=
  ((h.bareAnswer o).addAll (h.commonLines o o.formats ++ muxLines o)).setDirection
    (Direction.answerTo o.direction h.direction)

theorem createAnswer_of_checked (hcheck : Handler.checkOffer h.takesProtocol h.kind o = .ok ()) :
    h.createAnswer o =
      if (h.commonFormats o o.formats).isEmpty then
        .error (.invalidMedia ("no common codec for " ++ o.kind.name))
      else Handler.intersect canInsert o (h.derivedAnswer o) := by
  have hmux : ∀ m : Section,
      (if o.rtcpMux then m.add (.flag "rtcp-mux") else m) = m.addAll (muxLines o) := by
    intro m
    rw [muxLines]
    cases o.rtcpMux <;> rfl
  rw [createAnswer, hcheck, answerFormats_eq, derivedAnswer, Section.addAll_append, ← hmux]
  rfl

theorem key_of_mem_derivedLines (hb : b ∈ h.commonLines o o.formats ++ muxLines o) :
    b.key ∈ derivedKeys := by
  rcases List.mem_append.mp hb with hb | hb
  · have hall : ∀ key ∈ formatKeys, key ∈ derivedKeys := by decide
    exact hall _ (key_of_mem_commonLines hb)
  · rw [muxLines] at hb
    split at hb
    · rw [List.mem_singleton.mp hb]
      decide
    · cases hb

theorem keyed_derivedAnswer (h : RtpHandler) (o : Section) : (h.derivedAnswer o).Keyed := by
  have hbare : (h.bareAnswer o).Keyed := fun a ha ↦ nomatch ha
  have hall : ∀ key ∈ derivedKeys, key ≠ "" := by decide
  exact (hbare.addAll fun a ha ↦ hall _ (key_of_mem_derivedLines ha)).setDirection _

/-- **A handler answers** if it takes protocol and kind, a format means one of its codecs, and every
attribute has a key; and its answer is what it derives, with what is common copied to it. -/
theorem createAnswer_eq_ok_iff : h.createAnswer o = .ok a ↔
    (h.takesProtocol o.proto = true ∧ o.kind = h.kind ∧
      (∃ f ∈ o.formats, (h.match? o f).isSome = true) ∧ o.Keyed) ∧
    a = (h.derivedAnswer o).addAll (o.attrs.filter (Handler.IsCommon derivedKeys ·)) := by
  have hempty : (h.commonFormats o o.formats).isEmpty = false ↔
      ∃ f ∈ o.formats, (h.match? o f).isSome = true := by
    simp [commonFormats, Option.isSome_iff_ne_none]
  constructor
  · intro ha
    cases hcheck : Handler.checkOffer h.takesProtocol h.kind o with
    | error e =>
      rw [createAnswer, hcheck] at ha
      cases ha
    | ok _ =>
      obtain ⟨hproto, hkind, -⟩ := Handler.checkOffer_eq_ok.mp hcheck
      rw [createAnswer_of_checked hcheck] at ha
      split at ha
      · cases ha
      · rename_i hformats
        -- what is derived has keys, so only an offered attribute can lack one
        have hkeyed : o.Keyed :=
          Handler.keyed_of_insertAll (by decide) (keyed_derivedAnswer h o) ha
        refine ⟨⟨hproto, hkind, hempty.mp (by simpa using hformats), hkeyed⟩, ?_⟩
        exact Except.ok.inj (ha.symm.trans (Handler.insertAll_eq hkeyed _))
  · rintro ⟨⟨hproto, hkind, hcommon, hkeyed⟩, rfl⟩
    have hformats : o.formats ≠ [] := by
      obtain ⟨f, hf, -⟩ := hcommon
      exact List.ne_nil_of_mem hf
    rw [createAnswer_of_checked (Handler.checkOffer_eq_ok.mpr ⟨hproto, hkind, hformats⟩),
      hempty.mpr hcommon, if_neg Bool.false_ne_true]
    exact Handler.insertAll_eq hkeyed _

/-! ## Reading derived lines -/

theorem filter_attrFor? (o : Section) (k f key : String) :
    (o.attrFor? k f).toList.filter (·.key == key) =
      if k = key then (o.attrFor? k f).toList else [] := by
  cases hline : o.attrFor? k f with
  | none => simp
  | some b =>
    have hkey := (Section.of_attrFor? hline).1
    by_cases h : k = key <;> simp [hkey, h]

theorem filter_feedbackLines (hkey : key ≠ "rtcp-fb") :
    (feedbackLines o f c).filter (·.key == key) = [] := by
  refine List.filter_eq_nil_iff.mpr fun b hb ↦ ?_
  obtain ⟨x, -, hx⟩ := List.mem_filterMap.mp hb
  dsimp only at hx
  split at hx
  · cases hx
    simpa [Attribute.of] using Ne.symm hkey
  · cases hx

/-- Under `rtpmap` and `fmtp` stand the lines of the offer. -/
theorem filter_commonLines (hkey : key ∈ ["rtpmap", "fmtp"]) :
    (h.commonLines o fs).filter (·.key == key) =
      (h.commonFormats o fs).filterMap (o.attrFor? key) := by
  induction fs with
  | nil => rfl
  | cons f fs ih =>
    have hfeedback : key ≠ "rtcp-fb" := by
      rintro rfl
      exact absurd hkey (by decide)
    rw [commonLines, List.flatMap_cons, List.filter_append, commonFormats, List.filter_cons]
    cases hmatch : h.match? o f with
    | none => exact ih
    | some c =>
      have hlines : (answerLines o f c).filter (·.key == key) = (o.attrFor? key f).toList := by
        rw [answerLines, List.filter_append, List.filter_append, filter_attrFor?, filter_attrFor?,
          filter_feedbackLines hfeedback, List.append_nil]
        rcases List.mem_cons.mp hkey with rfl | hkey
        · simp
        · obtain rfl := List.mem_singleton.mp hkey
          simp
      rw [Option.map_some, Option.getD_some, hlines, Option.isSome_some, if_pos rfl,
        List.filterMap_cons]
      cases o.attrFor? key f with
      | none => exact ih
      | some b => exact congrArg (b :: ·) ih

end RtpHandler

/-- Whether a section declares a kind of feedback for a format, or for all of them. A line is read
as its first word and what follows. -/
def Section.DeclaresFeedback (m : Section) (format kind : String) : Prop :=
  ∃ b ∈ m.attrsOf "rtcp-fb", (Text.firstWord b.content = format ∨ Text.firstWord b.content = "*") ∧
    Text.afterFirstWord b.content = kind

namespace RtpHandler

variable {h : RtpHandler} {o a : Section} {c : Codec} {b : Attribute} {f key : String}
  {fs : List String}

theorem mem_feedbackLines : b ∈ feedbackLines o f c ↔
    ∃ v ∈ c.feedback, o.DeclaresFeedback f v ∧ b = .of "rtcp-fb" (f ++ " " ++ v) := by
  rw [feedbackLines, List.mem_filterMap]
  constructor
  · rintro ⟨x, hx, hb⟩
    dsimp only at hb
    split at hb
    · rename_i hcommon
      exact ⟨_, List.contains_iff_mem.mp hcommon.2, ⟨x, hx, hcommon.1, rfl⟩,
        (Option.some_inj.mp hb).symm⟩
    · cases hb
  · rintro ⟨v, hv, ⟨x, hx, hword, rfl⟩, rfl⟩
    exact ⟨x, hx, if_pos ⟨hword, List.contains_iff_mem.mpr hv⟩⟩

/-- Under `rtcp-fb` stands the feedback that both sides know. -/
theorem mem_filter_commonLines : b ∈ (h.commonLines o fs).filter (·.key == "rtcp-fb") ↔
    ∃ f ∈ h.commonFormats o fs, ∃ c v, h.match? o f = some c ∧ v ∈ c.feedback ∧
      o.DeclaresFeedback f v ∧ b = .of "rtcp-fb" (f ++ " " ++ v) := by
  rw [commonLines, List.filter_flatMap, List.mem_flatMap]
  constructor
  · rintro ⟨f, hf, hb⟩
    cases hmatch : h.match? o f with
    | none =>
      rw [hmatch] at hb
      cases hb
    | some c =>
      rw [hmatch, Option.map_some, Option.getD_some, answerLines, List.filter_append,
        List.filter_append, filter_attrFor?, filter_attrFor?, if_neg (by decide),
        if_neg (by decide)] at hb
      obtain ⟨v, hv, hdeclares, rfl⟩ := mem_feedbackLines.mp (List.mem_filter.mp hb).1
      exact ⟨f, List.mem_filter.mpr ⟨hf, by rw [hmatch]; rfl⟩, c, v, hmatch, hv, hdeclares, rfl⟩
  · rintro ⟨f, hf, c, v, hmatch, hv, hdeclares, rfl⟩
    refine ⟨f, (List.mem_filter.mp hf).1, ?_⟩
    rw [hmatch, Option.map_some, Option.getD_some, answerLines, List.filter_append]
    refine List.mem_append_right _ (List.mem_filter.mpr ⟨?_, rfl⟩)
    exact mem_feedbackLines.mpr ⟨v, hv, hdeclares, rfl⟩

theorem filter_muxLines (o : Section) (key : String) :
    (muxLines o).filter (·.key == key) = if key = "rtcp-mux" then muxLines o else [] := by
  rw [muxLines]
  cases o.rtcpMux with
  | false => exact (ite_self _).symm
  | true =>
    by_cases hkey : key = "rtcp-mux"
    · simp [Attribute.flag, hkey]
    · simp [Attribute.flag, hkey, Ne.symm hkey]

/-! ## Answers -/

/-- What an answer takes from an offer. -/
def commonAttrs (o : Section) : List Attribute := o.attrs.filter (Handler.IsCommon derivedKeys ·)

theorem attrsOf_answer_derived (hkey : key ∈ derivedKeys) :
    ((h.derivedAnswer o).addAll (commonAttrs o)).attrsOf key = Attribute.addAllOnce
      ((h.commonLines o o.formats).filter (·.key == key) ++ (muxLines o).filter (·.key == key))
      [] := by
  have hnone : ∀ key ∈ derivedKeys, Direction.ofKey? key = none := by decide
  have hcommon : ∀ b ∈ commonAttrs o, Handler.IsCommon derivedKeys b :=
    fun b hb ↦ of_decide_eq_true (List.mem_filter.mp hb).2
  rw [MediaHandler.attrsOf_copied hcommon hkey, derivedAnswer,
    Section.attrsOf_setDirection (hnone key hkey), Section.attrsOf_addAll_eq, List.filter_append]
  rfl

theorem attrsOf_answer_copied (hkey : key ∉ derivedKeys) (hnone : Direction.ofKey? key = none) :
    ((h.derivedAnswer o).addAll (commonAttrs o)).attrsOf key =
      Attribute.addAllOnce ((commonAttrs o).filter (·.key == key)) [] := by
  have hderived : ∀ b ∈ h.commonLines o o.formats ++ muxLines o, b.key ≠ key :=
    fun b hb heq ↦ hkey (heq ▸ key_of_mem_derivedLines hb)
  rw [Section.attrsOf_addAll_eq, derivedAnswer, Section.attrsOf_setDirection hnone,
    Section.attrsOf_addAll_of_ne hderived]
  rfl

theorem filter_commonAttrs (hkey : b.key ∉ derivedKeys) :
    (commonAttrs o).filter (·.key == b.key) =
      if Handler.isOwn b then [] else o.attrsOf b.key := by
  have hown : ∀ x : Attribute, x.key = b.key → Handler.isOwn x = Handler.isOwn b := by
    intro x hx
    rw [Handler.isOwn, Handler.isOwn, Attribute.direction?, Attribute.direction?, hx]
  rw [commonAttrs, List.filter_filter, Section.attrsOf]
  cases howned : Handler.isOwn b with
  | true =>
    rw [if_pos rfl, List.filter_eq_nil_iff]
    intro x _
    by_cases hx : x.key = b.key <;> simp [Handler.IsCommon, hx, hown x, howned]
  | false =>
    rw [if_neg Bool.false_ne_true]
    refine List.filter_congr fun x _ ↦ ?_
    by_cases hx : x.key = b.key <;> simp [Handler.IsCommon, hx, hown x, howned, hkey]

/-- What a handler of audio or video makes of an offered section: all that an answer says. -/
structure Intersection (h : RtpHandler) (o a : Section) : Prop where
  /-- The kind is that of the offer. -/
  kind_eq : a.kind = o.kind
  /-- The protocol is that of the offer. -/
  proto_eq : a.proto = o.proto
  /-- The formats are those of the offer that mean a codec of the handler, in order. -/
  formats_eq : a.formats = o.formats.filter fun f ↦ (h.match? o f).isSome
  /-- Each has the first line that the offer has for it under `rtpmap`. -/
  rtpmap_eq : a.attrsOf "rtpmap" = (a.formats.filterMap (o.attrFor? "rtpmap")).eraseDups
  /-- And under `fmtp`. -/
  fmtp_eq : a.attrsOf "fmtp" = (a.formats.filterMap (o.attrFor? "fmtp")).eraseDups
  /-- Each has the feedback that the offer declares for it, or for all, and its codec knows. -/
  feedback_iff : ∀ b, b ∈ a.attrsOf "rtcp-fb" ↔ ∃ f ∈ a.formats, ∃ c v, h.match? o f = some c ∧
    v ∈ c.feedback ∧ o.DeclaresFeedback f v ∧ b = .of "rtcp-fb" (f ++ " " ++ v)
  /-- No feedback stands twice. -/
  feedback_nodup : (a.attrsOf "rtcp-fb").Nodup
  /-- The port is shared with RTCP if that is offered. -/
  mux_eq : a.attrsOf "rtcp-mux" = if o.rtcpMux then [.flag "rtcp-mux"] else []
  /-- There is one direction. -/
  direction_eq : a.directions = [.flag a.direction.key]
  /-- It sends what the offer receives and the handler sends. -/
  sending_iff : a.direction.isSending = true ↔
    o.direction.isReceiving = true ∧ h.direction.isSending = true
  /-- It receives what the offer sends and the handler receives. -/
  receiving_iff : a.direction.isReceiving = true ↔
    o.direction.isSending = true ∧ h.direction.isReceiving = true
  /-- Anything else is that of the offer, unless it is the offerer's own: each attribute once, or
  the last one of its key, if that may stand only once. -/
  others : ∀ b : Attribute, b.key ∉ derivedKeys → b.direction? = none → a.attrsOf b.key =
    if Handler.isOwn b then []
    else if b.isSingle then (o.attrsOf b.key).getLast?.toList
    else (o.attrsOf b.key).eraseDups

theorem attrsOf_answer_lines (hkey : key ∈ ["rtpmap", "fmtp"]) :
    ((h.derivedAnswer o).addAll (commonAttrs o)).attrsOf key =
      ((h.commonFormats o o.formats).filterMap (o.attrFor? key)).eraseDups := by
  have hderived : ∀ key ∈ ["rtpmap", "fmtp"], key ∈ derivedKeys ∧ key ≠ "rtcp-mux" ∧
      (Attribute.flag key).isSingle = false := by
    decide
  obtain ⟨hmem, hmux, hopen⟩ := hderived key hkey
  rw [attrsOf_answer_derived hmem, filter_commonLines hkey, filter_muxLines, if_neg hmux,
    List.append_nil]
  refine Attribute.addAllOnce_of_open fun b hb ↦ ?_
  obtain ⟨f, -, hb⟩ := List.mem_filterMap.mp hb
  exact (Attribute.isSingle_congr (b := .flag key) (Section.of_attrFor? hb).1).trans hopen

theorem isSingle_feedback (value : String) : (Attribute.of "rtcp-fb" value).isSingle = false := by
  change (Attribute.flag "rtcp-fb").isSingle = false
  decide

theorem attrsOf_answer_feedback : ((h.derivedAnswer o).addAll (commonAttrs o)).attrsOf "rtcp-fb" =
    Attribute.addAllOnce ((h.commonLines o o.formats).filter (·.key == "rtcp-fb")) [] := by
  rw [attrsOf_answer_derived (by decide), filter_muxLines, if_neg (by decide), List.append_nil]

theorem attrsOf_answer_mux : ((h.derivedAnswer o).addAll (commonAttrs o)).attrsOf "rtcp-mux" =
    muxLines o := by
  have hnone : (h.commonLines o o.formats).filter (·.key == "rtcp-mux") = [] := by
    refine List.filter_eq_nil_iff.mpr fun b hb ↦ ?_
    have hall : ∀ key ∈ formatKeys, ¬(key == "rtcp-mux") = true := by decide
    exact hall b.key (key_of_mem_commonLines hb)
  rw [attrsOf_answer_derived (by decide), filter_muxLines, if_pos rfl, hnone, List.nil_append,
    muxLines]
  cases o.rtcpMux <;> rfl

theorem directions_answer : ((h.derivedAnswer o).addAll (commonAttrs o)).directions =
    [.flag (Direction.answerTo o.direction h.direction).key] := by
  rw [Section.directions_addAll fun b hb ↦ ?_, derivedAnswer, Section.directions_setDirection]
  exact (Handler.IsCommon.isNeutral (of_decide_eq_true (List.mem_filter.mp hb).2)).2

theorem attrsOf_answer_other (hkey : b.key ∉ derivedKeys) (hnone : b.direction? = none) :
    ((h.derivedAnswer o).addAll (commonAttrs o)).attrsOf b.key =
      if Handler.isOwn b then []
      else if b.isSingle then (o.attrsOf b.key).getLast?.toList
      else (o.attrsOf b.key).eraseDups := by
  rw [attrsOf_answer_copied hkey hnone, filter_commonAttrs hkey]
  cases Handler.isOwn b with
  | true => rfl
  | false =>
    rw [if_neg Bool.false_ne_true, if_neg Bool.false_ne_true]
    have hsame : ∀ x ∈ o.attrsOf b.key, x.key = b.key ∧ x.isSingle = b.isSingle := by
      intro x hx
      have hxkey : x.key = b.key := eq_of_beq (List.mem_filter.mp hx).2
      exact ⟨hxkey, Attribute.isSingle_congr hxkey⟩
    cases hsingle : b.isSingle with
    | true =>
      exact Attribute.addAllOnce_of_single fun x hx ↦
        ⟨(hsame x hx).1, (hsame x hx).2.trans hsingle⟩
    | false =>
      exact Attribute.addAllOnce_of_open fun x hx ↦ (hsame x hx).2.trans hsingle

theorem intersection_answer (h : RtpHandler) (o : Section) :
    h.Intersection o ((h.derivedAnswer o).addAll (commonAttrs o)) := by
  have hdirection := Section.direction_of_directions (directions_answer (h := h) (o := o))
  -- lines of feedback may stand often, so none of them replaces another
  have hopen : ∀ b ∈ (h.commonLines o o.formats).filter (·.key == "rtcp-fb"),
      b.isSingle = false := by
    intro b hb
    obtain ⟨f, -, c, v, -, -, -, rfl⟩ := mem_filter_commonLines.mp hb
    exact isSingle_feedback _
  refine
    { kind_eq := rfl
      proto_eq := rfl
      formats_eq := rfl
      rtpmap_eq := attrsOf_answer_lines (by decide)
      fmtp_eq := attrsOf_answer_lines (by decide)
      feedback_iff := fun b ↦ ?_
      feedback_nodup := ?_
      mux_eq := attrsOf_answer_mux
      direction_eq := by rw [hdirection, directions_answer]
      sending_iff := ?_
      receiving_iff := ?_
      others := fun b ↦ attrsOf_answer_other }
  · rw [attrsOf_answer_feedback, Attribute.addAllOnce_of_open hopen, List.mem_eraseDups,
      mem_filter_commonLines]
    rfl
  · rw [attrsOf_answer_feedback]
    exact Attribute.nodup_addAllOnce_of_open hopen List.nodup_nil
  · rw [hdirection]
    cases o.direction <;> cases h.direction <;> decide
  · rw [hdirection]
    cases o.direction <;> cases h.direction <;> decide

/-- **An answer is the intersection of the offer with the handler.**

There is an answer if and only if the handler takes protocol and kind, a format means one of its
codecs, and no attribute lacks a key. What it says then is all in `Intersection`. -/
theorem createAnswer_is_intersection (h : RtpHandler) (o : Section) :
    ((∃ a, h.createAnswer o = .ok a) ↔ h.takesProtocol o.proto = true ∧ o.kind = h.kind ∧
      (∃ f ∈ o.formats, (h.match? o f).isSome = true) ∧ o.Keyed) ∧
    ∀ a, h.createAnswer o = .ok a → h.Intersection o a := by
  constructor
  · constructor
    · rintro ⟨a, ha⟩
      exact (createAnswer_eq_ok_iff.mp ha).1
    · intro hgood
      exact ⟨_, createAnswer_eq_ok_iff.mpr ⟨hgood, rfl⟩⟩
  · intro a ha
    obtain ⟨-, rfl⟩ := createAnswer_eq_ok_iff.mp ha
    exact intersection_answer h o

/-- A handler of one video codec, which only receives. -/
def watcher : RtpHandler where
  kind := .video
  profile := .savpf
  codecs := [{ pt := 96, name := "VP8", clockRate := 90000, feedback := ["nack", "ccm fir"] }]
  direction := .recvOnly

/-- An offer of two video codecs, with feedback for one and for all. -/
def twoCodecs : Section where
  kind := .video
  port := 9
  proto := "UDP/TLS/RTP/SAVPF"
  formats := ["120", "121"]
  attrs := [.of "rtpmap" "120 vp8/90000", .of "rtpmap" "121 H264/90000", .of "rtcp-fb" "120 nack",
    .of "rtcp-fb" "* ccm fir", .of "rtcp-fb" "* goog-remb", .flag "sendrecv", .of "ice-ufrag" "u",
    .of "extmap" "1 urn:a", .of "extmap" "2 urn:b", .of "extmap" "1 urn:a"]

theorem twoCodecs_intersected : ∃ a, watcher.createAnswer twoCodecs = .ok a ∧
    watcher.Intersection twoCodecs a ∧ a.formats = ["120"] ∧
      a.attrsOf "rtpmap" = [.of "rtpmap" "120 vp8/90000"] ∧
      a.attrsOf "extmap" = [.of "extmap" "1 urn:a", .of "extmap" "2 urn:b"] ∧
      a.direction.isSending = false := by
  have hkeyed : twoCodecs.Keyed := by
    change ∀ a ∈ twoCodecs.attrs, a.key ≠ ""
    decide
  obtain ⟨a, ha⟩ := (createAnswer_is_intersection watcher twoCodecs).1.mpr
    ⟨by decide, rfl, ⟨"120", by decide, by decide⟩, hkeyed⟩
  have hall := (createAnswer_is_intersection watcher twoCodecs).2 a ha
  have hformats : a.formats = ["120"] := hall.formats_eq.trans (by decide)
  refine ⟨a, ha, hall, hformats, ?_, ?_, ?_⟩
  · rw [hall.rtpmap_eq, hformats]
    decide
  · exact (hall.others (.flag "extmap") (by decide) (by decide)).trans (by decide)
  · rw [← Bool.not_eq_true, hall.sending_iff]
    decide

end RtpHandler

end OfferAnswer
