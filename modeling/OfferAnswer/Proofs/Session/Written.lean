import OfferAnswer.Proofs.Handler.Answers
import OfferAnswer.Proofs.Sdp.Descriptions
import OfferAnswer.Proofs.Session.Answering
import OfferAnswer.Proofs.Session.Decoration
import OfferAnswer.Proofs.Session.Offering
import OfferAnswer.Proofs.Session.Planning

/-!
# What offers and answers say

A section goes through a handler, gets ports and is decorated. Each stage leaves alone what the
others said, so the row of a section can be summed up: it is still what its handler offers or
answers, and it is written by its session. That is all that the other side reads.
-/

namespace OfferAnswer

open Placement (Fate)

/-! ## Rejected sections -/

theorem Section.tidy_rejected (m : Section) : (Section.rejected m).Tidy := by
  intro key _
  refine Nat.le_trans (List.length_filter_le _ _) ?_
  rw [Section.rejected]
  cases m.attr? "mid" with
  | none => exact Nat.zero_le 1
  | some mid => exact Nat.le_refl 1

namespace Session

variable {s s' : Session} {remote : Description} {mid mid' : Mid} {setup : Option Setup}
  {m : Section} {i : Nat}

/-! ## Reading what was written -/

/-- Whether a session that has a certificate can read the fingerprint of another. -/
def Trusts (s s' : Session) : Prop := s.config.certificate.isSome = true →
  ∃ c, s'.config.certificate = some c ∧ (Fingerprint.ofText? c.fingerprint.text).isSome = true

/-- What a session has written of an accepted section passes the checks of one that trusts it. -/
theorem Writes.checkRemoteParams_ok (hw : s'.Writes mid setup m) (htrusts : s.Trusts s')
    (hm : remote.sections[i]? = some m) (hrej : m.isRejected = false)
    (hsetup : isSecure m.proto = true → ∃ v, setup = some v) (mid' : Mid) :
    s.checkRemoteParams remote i mid' = .ok () := by
  rw [checkRemoteParams, hm, Option.any_some]
  cases hsecure : isSecure m.proto with
  | false => rfl
  | true =>
    -- a section that says something itself does not inherit it
    obtain ⟨v, hv⟩ := hsetup hsecure
    have hice := Description.iceCredentials?_of_attr? hm (hw.ufrag_eq hrej) (hw.password_eq hrej)
    rw [hice]
    cases hcert : s.config.certificate.isSome with
    | false => rfl
    | true =>
      obtain ⟨c, hc, hreads⟩ := htrusts hcert
      have hfingerprint :=
        Description.fingerprint?_of_attr? hm (hw.fingerprint_eq hrej v hv c hc)
      obtain ⟨fingerprint, hread⟩ := Option.isSome_iff_exists.mp hreads
      rw [hfingerprint, hread]
      rfl

/-! ## The session part -/

/-- The session part of a description that a session writes. -/
def WritesPart (s : Session) (group : List Mid) (part : SessionPart) : Prop :=
  part.attrs = s.sessionAttrs ++ groupAttrs group

variable {group : List Mid} {part : SessionPart}

theorem WritesPart.iceLite_eq (h : s.WritesPart group part) : part.iceLite = s.config.iceLite := by
  have hgroup : Attribute.hasKey "ice-lite" (groupAttrs group) = false := by
    rw [groupAttrs]
    split <;> rfl
  rw [SessionPart.iceLite, SessionPart.hasAttr, h, Attribute.hasKey, List.any_append]
  change ((s.sessionAttrs.any fun a ↦ a.key == "ice-lite") ||
    Attribute.hasKey "ice-lite" (groupAttrs group)) = _
  rw [hgroup, Bool.or_false, sessionAttrs]
  cases s.config.iceLite <;> rfl

/-- A group is read as it was written, without its empty names. -/
theorem WritesPart.bundle?_of_legible (h : s.WritesPart group part)
    (hlegible : ∀ m ∈ group, m.Legible) :
    part.bundle?.getD [] = group.filter fun m ↦ m.text.toList ≠ [] := by
  have hlite : (s.sessionAttrs.findSome? fun a ↦
      if a.key = "group" then a.value.bind SessionPart.bundleOf? else none) = none := by
    rw [sessionAttrs]
    split <;> rfl
  rw [SessionPart.bundle?, h, List.findSome?_append, hlite, Option.none_or, groupAttrs]
  cases group with
  | nil => rfl
  | cons m group =>
    have hread := SessionPart.bundleOf?_of_legible (List.cons_ne_nil m group) hlegible
    rw [List.isEmpty_cons, if_neg Bool.false_ne_true, List.findSome?_singleton]
    change (SessionPart.bundleOf? _).getD [] = _
    rw [hread, Option.getD_some]

theorem WritesPart.bundle?_eq (h : s.WritesPart group part) (hnamed : ∀ m ∈ group, m.Named) :
    part.bundle?.getD [] = group := by
  rw [h.bundle?_of_legible fun m hm ↦ (hnamed m hm).legible, List.filter_eq_self]
  intro m hm
  exact decide_eq_true fun hnil ↦ (hnamed m hm).text_ne_empty (String.toList_eq_nil_iff.mp hnil)

theorem mem_acceptedMids {sections : List Section} :
    mid ∈ acceptedMids sections ↔ ∃ m ∈ sections, m.isRejected = false ∧ m.mid? = some mid := by
  simp [acceptedMids, and_assoc]

/-- The group of an offer. -/
def offerGroup (s : Session) (sections : List Section) : List Mid :=
  if s.bundles then acceptedMids sections else []

/-- The attributes of the session part of an offer. -/
def offerAttrs (s : Session) (sections : List Section) : List Attribute :=
  s.sessionAttrs ++ groupAttrs (s.offerGroup sections)

theorem offerAttrs_congr {s' : Session} (h : s'.config = s.config) (sections : List Section) :
    s'.offerAttrs sections = s.offerAttrs sections := by
  rw [offerAttrs, offerAttrs, offerGroup, offerGroup, bundles, bundles, sessionAttrs,
    sessionAttrs, h]

/-- Who reads the session part knows whether both agents are ICE lite. -/
theorem WritesPart.checkIceLite_ok (h : s'.WritesPart group remote.session)
    (hfull : ¬(s.config.iceLite = true ∧ s'.config.iceLite = true)) :
    s.checkIceLite remote = .ok () := by
  rw [checkIceLite, h.iceLite_eq]
  exact if_neg fun hboth ↦ hfull (Bool.and_eq_true_iff.mp hboth)

/-! ## Plans of answers -/

theorem planAnswer_ok (hkeyed : m.Keyed) (hparams : m.isRejected = false →
    s.checkRemoteParams remote i (midAt remote i) = .ok ()) :
    ∃ q, s.planAnswer remote i m = .ok q := by
  unfold planAnswer
  dsimp only
  split
  · exact ⟨_, rfl⟩
  · rename_i hrej
    split
    · exact ⟨_, rfl⟩
    · split
      · exact ⟨_, rfl⟩
      · split
        · rw [hparams (Bool.eq_false_iff.mpr hrej)]
          exact ⟨_, rfl⟩
        · rename_i e he
          rw [if_pos (MediaHandler.isSectionLocal_of_createAnswer hkeyed he)]
          exact ⟨_, rfl⟩

theorem planAnswers_ok {ms : List Section} (h : ∀ (j : Nat) m, ms[j]? = some m →
    ∃ q, s.planAnswer remote (i + j) m = .ok q) :
    ∃ plan, s.planAnswers remote i ms = .ok plan := by
  induction ms generalizing i with
  | nil => exact ⟨[], rfl⟩
  | cons m ms ih =>
    obtain ⟨q, hq⟩ := h 0 m rfl
    have hrest : ∀ (j : Nat) m, ms[j]? = some m →
        ∃ q, s.planAnswer remote (i + 1 + j) m = .ok q := by
      intro j m' hm'
      rw [Nat.add_assoc, Nat.add_comm 1 j]
      exact h (j + 1) m' hm'
    obtain ⟨plan, hplan⟩ := ih hrest
    rw [Nat.add_zero] at hq
    refine ⟨q :: plan, ?_⟩
    rw [planAnswers, hq]
    dsimp only
    rw [hplan]
    rfl

/-- What is planned for an offered section: its kind and protocol, and if it is not rejected, what a
handler of ours answers. -/
structure PlansAnswer (s : Session) (offered : Section) (position : Option Nat) (body : Section) :
    Prop where
  /-- The kind is that of the offer. -/
  kind_eq : body.kind = offered.kind
  /-- The protocol is that of the offer. -/
  proto_eq : body.proto = offered.proto
  /-- No single-valued key stands twice in it. -/
  tidy : body.Tidy
  /-- If it is accepted, the offer is, and a handler answers. -/
  answers : body.isRejected = false → offered.isRejected = false ∧
    ∃ h, s.handler? position = some h ∧ h.Answers offered body

theorem plansAnswer_rejected (s : Session) (offered : Section) (position : Option Nat) :
    s.PlansAnswer offered position (.rejected offered) :=
  ⟨rfl, rfl, Section.tidy_rejected offered, fun h ↦ nomatch (show true = false from h)⟩

theorem plansAnswer_planAnswer {q : Planned} (h : s.planAnswer remote i m = .ok q) :
    s.PlansAnswer m q.handler q.body := by
  rcases planAnswer_cases h with
    ⟨position, rfl⟩ | ⟨position, handler, a, hrej, -, hhandler, ha, rfl⟩
  · exact plansAnswer_rejected s m position
  · obtain ⟨hanswers, htidy, -⟩ := MediaHandler.answers ha
    exact ⟨hanswers.kind_eq, hanswers.proto_eq, htidy,
      fun _ ↦ ⟨hrej, handler, hhandler, hanswers⟩⟩

end Session

/-! ## Offered sections -/

namespace Offering

open Session

variable {s : Session} {run : Offering s} {i : Nat} {q r : Planned} {o : Section}
  {h : MediaHandler}

theorem Row.body (hrow : run.Row i q r o) (hq : s.PlansOffer q h) :
    h.Offers r.body ∧ r.body.Tidy ∧ r.body.Keyed ∧ (r.body.isRejected = false →
      ∃ id, run.place.transport.carrier? q.mid = some id) := by
  cases hrow.fate with
  | rejected hrej => exact absurd (hq.accepted.symm.trans hrej) Bool.false_ne_true
  | refused _ =>
    exact ⟨hq.offers.congr rfl rfl rfl rfl, hq.tidy, hq.keyed,
      fun hrej ↦ nomatch (show true = false from hrej)⟩
  | @carried e _ he hmid =>
    refine ⟨hq.offers.congr (Placement.kind_writePorts e q.body)
      (Placement.proto_writePorts e q.body) (Placement.formats_writePorts e q.body)
      (Placement.attrsOf_writePorts (by decide) e q.body),
      Placement.tidy_writePorts hq.tidy e, Placement.keyed_writePorts hq.keyed e, fun _ ↦ ?_⟩
    exact ⟨e.id, run.ready.exclusive.carrier?_eq_some.mpr ⟨e, he, rfl, hmid⟩⟩

/-- **What an offered section says**: what its handler offers, and who offers it. If it has a port,
something carries it. -/
theorem Row.offers (hrow : run.Row i q r o) (hq : s.PlansOffer q h) :
    h.Offers o ∧ o.Keyed ∧
      s.Writes q.mid (if isSecure o.proto then some .actPass else none) o ∧
      (o.isRejected = false → ∃ id, run.place.transport.carrier? q.mid = some id) := by
  obtain ⟨hoffers, htidy, hkeyed, hcarried⟩ := hrow.body hq
  have hmid := hrow.fate.mid_eq
  obtain ⟨ssrcs, e, rfl⟩ := hrow.written
  refine ⟨hoffers.congr (kind_decorate _ _ _ _) (proto_decorate _ _ _ _) (formats_decorate _ _ _ _)
    (attrsOf_decorate (by decide) _ _ _ _), keyed_decorate hkeyed _ _ _, ?_, fun hrej ↦ ?_⟩
  · rw [proto_decorate, ← hmid]
    exact (writes_decorate htidy (run.start.withSources ssrcs e) r.mid (offerSetup r)).congr rfl rfl
  · rw [Section.isRejected, port_decorate] at hrej
    exact hcarried hrej

theorem offer_eq (run : Offering s) : run.offer =
    s.draft run.written.2.version (s.offerAttrs run.offer.sections) run.offer.sections := by
  obtain ⟨ssrcs, e, hdecorate⟩ :=
    decorateAll_eq run.start (run.placed.map fun q ↦ (q, offerSetup q))
  have hoffer : run.offer = (run.start.decorateAll
      (run.placed.map fun q ↦ (q, offerSetup q))).2.draft run.written.2.version
        ((run.start.decorateAll (run.placed.map fun q ↦ (q, offerSetup q))).2.sessionAttrs ++
          if (run.start.decorateAll (run.placed.map fun q ↦ (q, offerSetup q))).2.bundles then
            groupAttrs (acceptedMids run.offer.sections) else []) run.offer.sections := rfl
  have hgroup : (if s.bundles then groupAttrs (acceptedMids run.offer.sections) else []) =
      groupAttrs (s.offerGroup run.offer.sections) := by
    rw [offerGroup]
    split <;> rfl
  rw [hdecorate] at hoffer
  rw [offerAttrs, ← hgroup]
  exact hoffer

theorem writesPart_offer (run : Offering s) :
    s.WritesPart (s.offerGroup run.offer.sections) run.offer.session :=
  congrArg (fun d : Description ↦ d.session.attrs) run.offer_eq

end Offering

/-! ## Answered sections -/

namespace Answering

open Session

variable {s : Session} {remote : Description} {run : Answering s remote} {i : Nat}
  {q r : Planned} {o a : Section} {n : NegotiatedMedia}

/-- The setup that is written in an answered section. -/
def setupFor (run : Answering s remote) (i : Nat) (a : Section) : Option Setup :=
  if isSecure a.proto then some (run.start.answerSetup (midAt remote i) (remote.setup? i)) else none

theorem Row.body (hrow : run.Row i q r o a n) : s.PlansAnswer o r.handler r.body := by
  have hplan := plansAnswer_planAnswer hrow.planned
  cases hrow.fate with
  | rejected _ => exact hplan
  | refused _ => exact plansAnswer_rejected s o _
  | @carried e hrej _ _ =>
    obtain ⟨hoffered, h, hh, hanswers⟩ := hplan.answers hrej
    refine ⟨(Placement.kind_writePorts e q.body).trans hplan.kind_eq,
      (Placement.proto_writePorts e q.body).trans hplan.proto_eq,
      Placement.tidy_writePorts hplan.tidy e, fun _ ↦ ⟨hoffered, h, hh, ?_⟩⟩
    refine hanswers.congr (Placement.kind_writePorts e q.body) (Placement.proto_writePorts e q.body)
      (Placement.formats_writePorts e q.body)
      fun key hkey ↦ Placement.attrsOf_writePorts ?_ e q.body
    rintro rfl
    exact absurd hkey (by decide)

/-- **What an answered section says**: if it is accepted, what a handler answers, and who does. -/
theorem Row.answers (hrow : run.Row i q r o a n) : s.PlansAnswer o r.handler a ∧
    s.Writes (midAt remote i) (run.setupFor i a) a := by
  have hbody := hrow.body
  have hmid : r.mid = midAt remote i := hrow.mid_eq
  obtain ⟨ssrcs, e, hwritten⟩ := hrow.written
  rw [setupAt, hmid] at hwritten
  have hkeys : ∀ key ∈ MediaHandler.usableKeys, key ∉ sessionKeys := by decide
  have hproto : a.proto = r.body.proto := by
    rw [hwritten, proto_decorate]
  have hkind : a.kind = r.body.kind := by
    rw [hwritten, kind_decorate]
  refine ⟨⟨hkind.trans hbody.kind_eq, hproto.trans hbody.proto_eq, ?_, fun hrej ↦ ?_⟩, ?_⟩
  · rw [hwritten]
    exact tidy_decorate hbody.tidy _ _ _
  · rw [hwritten, Section.isRejected, port_decorate] at hrej
    obtain ⟨hoffered, h, hh, hanswers⟩ := hbody.answers hrej
    refine ⟨hoffered, h, hh, hanswers.congr hkind hproto ?_ fun key hkey ↦ ?_⟩
    · rw [hwritten, formats_decorate]
    · rw [hwritten, attrsOf_decorate (hkeys key hkey)]
  · rw [setupFor, hproto, hwritten]
    exact (writes_decorate hbody.tidy (run.start.withSources ssrcs e) (midAt remote i) _).congr
      rfl rfl

theorem answer_eq (run : Answering s remote) : run.answer = s.draft run.written.2.version
    (s.sessionAttrs ++ groupAttrs (acceptedGroup (remote.session.bundle?.getD [])
      run.answer.sections)) run.answer.sections := by
  obtain ⟨ssrcs, e, hdecorate⟩ := decorateAll_eq run.start run.decorated
  have hanswer : run.answer = (run.start.decorateAll run.decorated).2.draft run.written.2.version
      ((run.start.decorateAll run.decorated).2.sessionAttrs ++
        groupAttrs (acceptedGroup (remote.session.bundle?.getD []) run.answer.sections))
      run.answer.sections := rfl
  rw [hdecorate] at hanswer
  exact hanswer

theorem writesPart_answer (run : Answering s remote) :
    s.WritesPart (acceptedGroup (remote.session.bundle?.getD []) run.answer.sections)
      run.answer.session :=
  congrArg (fun d : Description ↦ d.session.attrs) run.answer_eq

/-- An answer repeats the group of the offer without the sections that it rejects, and so it is
read. -/
theorem bundle?_answer (run : Answering s remote) : run.answer.session.bundle?.getD [] =
    acceptedGroup (remote.session.bundle?.getD []) run.answer.sections := by
  refine run.writesPart_answer.bundle?_eq fun m hm ↦ ?_
  have hmem := (List.mem_filter.mp hm).1
  cases hbundle : remote.session.bundle? with
  | none =>
    rw [hbundle] at hmem
    exact absurd hmem List.not_mem_nil
  | some group =>
    rw [hbundle] at hmem
    exact SessionPart.named_of_bundle? hbundle m hmem

end Answering

end OfferAnswer
