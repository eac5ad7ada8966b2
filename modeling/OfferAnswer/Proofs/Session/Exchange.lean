import OfferAnswer.Proofs.Session.Invariant
import OfferAnswer.Proofs.Session.Written

/-!
# A first exchange

Two new sessions negotiate: one offers, the other answers, and the first applies the answer. Each
side has many ways to reject a section or to refuse the other's description, and they agree only if
no way is taken by one side alone.

What ties the sides together is what their descriptions say. `Offering.Row` follows a section
through the offer and `Answering.Row` through the answer; `Exchange.Leg` joins the two, and says
what either side finds when it reads what the other wrote. From a leg on, nothing is left to chance:
the section is rejected on both sides, or its handlers settle on one codec and its endpoints on
opposite roles.
-/

namespace OfferAnswer

/-! ## Agreement -/

/-- Outcomes of one section on its two sides that say the same. -/
structure NegotiatedMedia.Mirrors (n n' : NegotiatedMedia) : Prop where
  /-- The identifiers agree. -/
  mid_eq : n.mid = n'.mid
  /-- The kinds agree. -/
  kind_eq : n.kind = n'.kind
  /-- The protocols agree. -/
  proto_eq : n.proto = n'.proto
  /-- One side rejects it exactly when the other does. -/
  rejected_eq : n.rejected = n'.rejected
  /-- What one side sends, the other receives. -/
  direction_eq : n.direction = n'.direction.invert
  /-- The codecs agree. -/
  codec_eq : n.codec = n'.codec

theorem NegotiatedMedia.mirrors_refused (mid : Mid) (o : Section) :
    (refused mid o).Mirrors (refused mid o) :=
  ⟨rfl, rfl, rfl, rfl, rfl, rfl⟩

/-! ## Checks -/

namespace Session

variable {s : Session}

theorem checkPairs_ok {i : Nat} {pairs : List (Section × Section)}
    (h : ∀ p ∈ pairs, p.1.kind = p.2.kind ∧ p.1.mid? = p.2.mid?) : checkPairs i pairs = .ok () := by
  induction pairs generalizing i with
  | nil => rfl
  | cons p pairs ih =>
    obtain ⟨hkind, hmid⟩ := h p List.mem_cons_self
    have hrest := fun i ↦ ih (i := i) fun p' hp' ↦ h p' (List.mem_cons_of_mem p hp')
    rw [checkPairs, if_neg (not_not.mpr hkind), hmid]
    split
    · rename_i mid hsome
      rw [if_pos hsome]
      exact hrest (i + 1)
    · exact hrest (i + 1)

theorem checkConsistent_ok {d : Description} (h : ∀ m ∈ d.sections, m.fault? = none) :
    checkConsistent d = .ok () := by
  rw [checkConsistent, Description.inconsistency?_eq_none.mpr h]

theorem checkAnswer_ok {offer answer : Description}
    (hlen : answer.sections.length = offer.sections.length)
    (hfaults : ∀ a ∈ answer.sections, a.fault? = none)
    (hpairs : ∀ p ∈ offer.sections.zip answer.sections, p.1.kind = p.2.kind ∧ p.1.mid? = p.2.mid?)
    (hlite : s.checkIceLite answer = .ok ()) : s.checkAnswer offer answer = .ok () := by
  rw [checkAnswer, checkConsistent_ok hfaults]
  change (if _ then _ else _) = _
  rw [if_neg (not_not.mpr hlen)]
  change (do checkPairs 0 _; s.checkIceLite answer) = _
  rw [checkPairs_ok hpairs]
  exact hlite

/-- A section that is accepted stays in the group that it was offered in. -/
theorem isUnbundled_acceptedGroup {group : List Mid} {sections : List Section} {a : Section}
    {mid : Mid} (ha : a ∈ sections) (hrej : a.isRejected = false) (hmid : a.mid? = some mid) :
    isUnbundled group (acceptedGroup group sections) mid = false := by
  rw [isUnbundled]
  cases hoffered : group.contains mid with
  | false => rfl
  | true =>
    have hmem : mid ∈ acceptedGroup group sections := by
      refine List.mem_filter.mpr ⟨List.contains_iff_mem.mp hoffered, List.any_eq_true.mpr
        ⟨a, ha, ?_⟩⟩
      rw [hrej, hmid]
      exact beq_self_eq_true _
    rw [List.contains_iff_mem.mpr hmem]
    rfl

theorem mem_of_handler? {position : Option Nat} {h : MediaHandler}
    (hh : s.handler? position = some h) : h ∈ s.handlers := by
  obtain ⟨i, -, hi⟩ := Option.bind_eq_some_iff.mp hh
  exact List.mem_of_getElem? hi

end Session

/-! ## The offer is in order -/

namespace Offering

open Session

variable {ours theirs : Session}

/-- **An offer of new sections can be answered** by a new session that the offerer suits. -/
theorem can_be_answered (run : Offering ours) (hplans : ∀ q ∈ run.plan, ∃ h, ours.PlansOffer q h)
    (htrusts : theirs.Trusts ours)
    (hfull : ¬(ours.config.iceLite = true ∧ theirs.config.iceLite = true))
    (hnew : theirs.negotiated = []) :
    theirs.checkOffer run.offer = .ok () ∧
      ∃ plan, theirs.planAnswers run.offer 0 run.offer.sections = .ok plan := by
  -- all that the answerer reads of a section
  have hrows : ∀ (i : Nat) o, run.offer.sections[i]? = some o →
      ∃ (mid : Mid) (h : MediaHandler), h.Offers o ∧ o.Keyed ∧
        ours.Writes mid (if isSecure o.proto then some .actPass else none) o := by
    intro i o ho
    obtain ⟨q, r, hrow⟩ := run.exists_row ho
    obtain ⟨h, hq⟩ := hplans q (List.mem_of_getElem? hrow.planned)
    obtain ⟨hoffers, hkeyed, hwrites, -⟩ := hrow.offers hq
    exact ⟨q.mid, h, hoffers, hkeyed, hwrites⟩
  have hconsistent : checkConsistent run.offer = .ok () := by
    have hfaults : ∀ o ∈ run.offer.sections, o.fault? = none := by
      intro o ho
      obtain ⟨i, hi⟩ := List.mem_iff_getElem?.mp ho
      obtain ⟨-, h, hoffers, -⟩ := hrows i o hi
      exact Description.fault?_eq_none hoffers.proto_ne (Or.inr hoffers.formats_ne)
    exact checkConsistent_ok hfaults
  have hlite : theirs.checkIceLite run.offer = .ok () :=
    run.writesPart_offer.checkIceLite_ok fun h ↦ hfull h.symm
  refine ⟨checkOffer_eq_ok.mpr ⟨hconsistent, hlite, ?_, ?_⟩, planAnswers_ok fun i o ho ↦ ?_⟩
  · rw [hnew]
    exact Nat.zero_le _
  · rw [hnew]
    rfl
  · obtain ⟨mid, h, -, hkeyed, hwrites⟩ := hrows i o ho
    rw [Nat.zero_add]
    exact planAnswer_ok hkeyed fun hrej ↦ hwrites.checkRemoteParams_ok htrusts ho hrej
      (fun hsecure ↦ ⟨_, if_pos hsecure⟩) _

end Offering

/-! ## Both sides of an exchange -/

/-- An exchange up to its answer: all sections of the offer are new, the answerer has no endpoint
yet, and the sessions suit each other. -/
structure Exchange (ours theirs : Session) where
  /-- How the offer was made. -/
  offering : Offering ours
  /-- How it was answered. -/
  answering : Answering theirs offering.offer
  /-- All sections are new. -/
  plans : ∀ q ∈ offering.plan, ∃ h, ours.PlansOffer q h
  /-- The handlers of the offerer are in order. -/
  ours_made : ∀ h ∈ ours.handlers, h.IsMade
  /-- So are those of the answerer. -/
  theirs_made : ∀ h ∈ theirs.handlers, h.IsMade
  /-- The names of offered codecs can be told from what follows them. -/
  names : ∀ h ∈ ours.handlers, ∀ c ∈ h.codecs, '/' ∉ c.name.toList
  /-- The offerer can read the certificate of the answerer. -/
  trusts : ours.Trusts theirs
  /-- They are not both ICE lite. -/
  full : ¬(ours.config.iceLite = true ∧ theirs.config.iceLite = true)
  /-- The answerer leaves no role open. -/
  settles : theirs.config.answerSetup ≠ .actPass
  /-- It has no endpoint yet. -/
  idle : theirs.transport = {}

namespace Exchange

open Session

variable {ours theirs : Session} (x : Exchange ours theirs)

/-- The offer. -/
abbrev offer : Description := x.offering.offer

/-- The answer. -/
abbrev answer : Description := x.answering.answer

/-- The offer while the offerer awaits the answer. -/
def pending : PendingOffer := ⟨x.offer, x.offering.placed.map (·.handler)⟩

/-- The offerer when it applies the answer. -/
def waiting : Session := x.offering.written.2.accepting

theorem transport_waiting : x.waiting.transport = x.offering.place.transport := by
  obtain ⟨_, _, _, h⟩ := x.offering.written_eq
  rw [waiting, h]
  rfl

theorem config_waiting : x.waiting.config = ours.config := by
  obtain ⟨_, _, _, h⟩ := x.offering.written_eq
  rw [waiting, h]
  rfl

theorem handlers_waiting : x.waiting.handlers = ours.handlers := by
  obtain ⟨_, _, _, h⟩ := x.offering.written_eq
  rw [waiting, h]
  rfl

theorem exclusive_waiting : x.waiting.transport.Exclusive := by
  rw [x.transport_waiting]
  exact x.offering.ready.exclusive

/-- While the answer is written, no endpoint of the answerer has a role to keep. -/
theorem answerSetup_eq (mid : Mid) :
    x.answering.start.answerSetup mid (some .actPass) = theirs.config.answerSetup := by
  have hkept : (((x.answering.start.transport.carrier? mid).bind
      x.answering.start.transport.endpoint?).bind fun e ↦
        e.encrypt.map fun side ↦ side.role.setup) = none := by
    rw [Option.bind_eq_none_iff]
    intro e he
    obtain ⟨id, -, hid⟩ := Option.bind_eq_some_iff.mp he
    -- its endpoints are as new as the session
    rcases x.answering.sides e (TransportBinding.mem_of_endpoint? hid) with
      ⟨e₀, he₀, -⟩ | ⟨hnone, -⟩
    · rw [x.idle] at he₀
      exact absurd he₀ List.not_mem_nil
    · rw [hnone]
      rfl
  rw [answerSetup, hkept]
  rfl

/-! ### Legs -/

/-- One section on its way through an exchange: offered in one row, answered in another. -/
structure Leg (i : Nat) where
  /-- What was planned for the offer. -/
  planned : Planned
  /-- The handler that offers it. -/
  handler : MediaHandler
  /-- What became of the plan. -/
  placed : Planned
  /-- The offered section. -/
  offered : Section
  /-- What was planned for the answer. -/
  replyPlanned : Planned
  /-- What became of that plan. -/
  replyPlaced : Planned
  /-- The answered section. -/
  answered : Section
  /-- What came of it for the answerer. -/
  outcome : NegotiatedMedia
  /-- The handler has planned the section. -/
  plan : ours.PlansOffer planned handler
  /-- The row of the offer. -/
  offerRow : x.offering.Row i planned placed offered
  /-- The row of the answer. -/
  answerRow : x.answering.Row i replyPlanned replyPlaced offered answered outcome
  /-- Where the offered section stands. -/
  offered_eq : x.offer.sections[i]? = some offered
  /-- Where the answered section stands. -/
  answered_eq : x.answer.sections[i]? = some answered
  /-- Where the outcome stands. -/
  outcome_eq : x.answering.outcomes.1[i]? = some outcome

theorem exists_leg {i : Nat} {o : Section} (ho : x.offer.sections[i]? = some o) :
    ∃ l : x.Leg i, l.offered = o := by
  obtain ⟨q, r, hrow⟩ := x.offering.exists_row ho
  obtain ⟨h, hq⟩ := x.plans q (List.mem_of_getElem? hrow.planned)
  obtain ⟨q', r', a, n, ha, hn, hrow'⟩ := x.answering.exists_row_of_offered ho
  exact ⟨⟨q, h, r, o, q', r', a, n, hq, hrow, hrow', ho, ha, hn⟩, rfl⟩

namespace Leg

variable {x} {i : Nat} (l : x.Leg i)

def mid : Mid := l.planned.mid

theorem mid_offered : l.offered.mid? = some l.mid := by
  rw [(l.offerRow.offers l.plan).2.2.1.mid_eq, l.plan.named.ofText_text]
  rfl

theorem midAt_eq : midAt x.offer i = l.mid := by
  rw [midAt, Description.midOf?_of_mid? l.offered_eq l.mid_offered]
  rfl

theorem mid_answered : l.answered.mid? = some l.mid := by
  rw [l.answerRow.answers.2.mid_eq, l.midAt_eq, mid, l.plan.named.ofText_text]

theorem offeredMid_eq : offeredMid i l.offered = l.mid := by
  rw [offeredMid, l.mid_offered]
  rfl

theorem kind_eq : l.answered.kind = l.offered.kind := l.answerRow.answers.1.kind_eq

theorem proto_eq : l.answered.proto = l.offered.proto := l.answerRow.answers.1.proto_eq

theorem offered_of_answered (hrej : l.answered.isRejected = false) :
    l.offered.isRejected = false :=
  (l.answerRow.answers.1.answers hrej).1

/-- The offer of a secured section leaves its role open, and the answerer takes the one that it is
configured to take. -/
theorem setupFor_eq (hrej : l.answered.isRejected = false)
    (hsecure : isSecure l.offered.proto = true) :
    x.answering.setupFor i l.answered = some theirs.config.answerSetup := by
  have hwrites := (l.offerRow.offers l.plan).2.2.1
  rw [if_pos hsecure] at hwrites
  have hoffered := hwrites.setup_eq (l.offered_of_answered hrej) _ rfl
  rw [Answering.setupFor, l.proto_eq, if_pos hsecure,
    Description.setup?_of_attr? l.offered_eq hoffered, x.answerSetup_eq]

theorem setupAt_eq : x.answering.setupAt i l.replyPlaced = x.answering.setupFor i l.answered := by
  rw [Answering.setupAt, Answering.setupFor, l.answerRow.mid_eq, l.answerRow.body.proto_eq,
    l.proto_eq]

theorem isUnbundled_eq (hrej : l.answered.isRejected = false) :
    isUnbundled (x.offer.session.bundle?.getD []) (x.answer.session.bundle?.getD []) l.mid =
      false := by
  rw [x.answering.bundle?_answer]
  exact isUnbundled_acceptedGroup (List.mem_of_getElem? l.answered_eq) hrej l.mid_answered

theorem checkRemoteParams_ok (hrej : l.answered.isRejected = false) (mid : Mid) :
    x.waiting.checkRemoteParams x.answer i mid = .ok () := by
  have htrusts : x.waiting.Trusts theirs := by
    rw [Trusts, x.config_waiting]
    exact x.trusts
  refine l.answerRow.answers.2.checkRemoteParams_ok htrusts l.answered_eq hrej
    (fun hsecure ↦ ?_) mid
  rw [l.proto_eq] at hsecure
  exact ⟨_, l.setupFor_eq hrej hsecure⟩

theorem securedSetup_eq (hrej : l.answered.isRejected = false) :
    x.waiting.securedSetup x.answer i l.mid l.answered =
      .ok (if isSecure l.offered.proto ∧ ours.config.certificate.isSome then
        some theirs.config.answerSetup.invert else none) := by
  rw [securedSetup, l.proto_eq]
  cases hsecure : isSecure l.offered.proto with
  | false =>
    exact congrArg Except.ok (if_neg fun h ↦ Bool.false_ne_true h.1).symm
  | true =>
    -- the setup that the answerer wrote is settled, so it can be resolved
    rw [l.checkRemoteParams_ok hrej]
    change x.waiting.settledSetup x.answer i l.mid = _
    have hread : x.answer.setup? i = some theirs.config.answerSetup :=
      Description.setup?_of_attr? l.answered_eq
        (l.answerRow.answers.2.setup_eq hrej _ (l.setupFor_eq hrej hsecure))
    rw [settledSetup, x.config_waiting, hread]
    cases ours.config.certificate with
    | none => rfl
    | some c =>
      have hsettles := x.settles
      cases hsetup : theirs.config.answerSetup with
      | actPass => exact absurd hsetup hsettles
      | active => rfl
      | passive => rfl

theorem settleSection_of_rejected (hrej : l.answered.isRejected = true) :
    x.waiting.settleSection x.pending x.answer i l.offered l.answered =
      .ok (.refused l.mid l.offered, none) ∧ l.outcome = .refused l.mid l.offered := by
  constructor
  · rw [Session.settleSection_of_rejected hrej, l.offeredMid_eq]
  · have hsettled := l.answerRow.settled
    rw [Session.outcome, hrej, l.midAt_eq] at hsettled
    exact hsettled

theorem handler?_eq : x.waiting.handler? (x.pending.handlers[i]?).join = some l.handler := by
  have hposition : x.pending.handlers[i]? = some l.planned.handler := by
    rw [pending, List.getElem?_map, l.offerRow.placed, Option.map_some, l.offerRow.fate.handler_eq]
  rw [hposition, Option.join_some, handler?, x.handlers_waiting]
  exact l.plan.handler_eq

theorem exists_carriers (hrej : l.answered.isRejected = false) : ∃ id id',
    x.waiting.transport.carrier? l.mid = some id ∧
      x.answering.place.transport.carrier? l.mid = some id' := by
  obtain ⟨-, -, -, hcarried⟩ := l.offerRow.offers l.plan
  obtain ⟨id, hid⟩ := hcarried (l.offered_of_answered hrej)
  rcases x.answering.row_cases l.answerRow with ⟨hrej', -⟩ | ⟨e, he, hmids, -⟩
  · rw [hrej] at hrej'
    cases hrej'
  · rw [l.midAt_eq] at hmids
    refine ⟨id, e.id, ?_, x.answering.ready.exclusive.carrier?_eq_some.mpr ⟨e, he, rfl, hmids⟩⟩
    rw [x.transport_waiting]
    exact hid

/-- The handlers of both sides settle an accepted section on one codec. -/
theorem exists_codec (hrej : l.answered.isRejected = false) : ∃ h' codec,
    theirs.handler? l.replyPlaced.handler = some h' ∧
      l.handler.processAnswer l.offered l.answered = .ok codec ∧
      h'.processAnswer l.offered l.answered = .ok codec := by
  obtain ⟨-, h', hh', hanswers⟩ := l.answerRow.answers.1.answers hrej
  have hours : l.handler ∈ ours.handlers := mem_of_handler? l.plan.handler_eq
  obtain ⟨codec, hcodec, hcodec'⟩ := MediaHandler.agree (x.ours_made _ hours)
    (x.theirs_made h' (mem_of_handler? hh')) (l.offerRow.offers l.plan).1 hanswers hrej
    (x.names _ hours)
  exact ⟨h', codec, hh', hcodec, hcodec'⟩

theorem settleSection_of_codec (hrej : l.answered.isRejected = false) {id id' : EndpointId}
    (hid : x.waiting.transport.carrier? l.mid = some id)
    (hid' : x.answering.place.transport.carrier? l.mid = some id') {h' : MediaHandler}
    {codec : Option Codec} (hh' : theirs.handler? l.replyPlaced.handler = some h')
    (hcodec : l.handler.processAnswer l.offered l.answered = .ok codec)
    (hcodec' : h'.processAnswer l.offered l.answered = .ok codec) :
    x.waiting.settleSection x.pending x.answer i l.offered l.answered =
      .ok (⟨l.mid, l.offered.kind, l.answered.direction.invert, codec, l.offered.proto, some id,
        false⟩, (if isSecure l.offered.proto ∧ ours.config.certificate.isSome then
          some theirs.config.answerSetup.invert else none).map fun setup ↦ (id, setup)) ∧
    l.outcome = ⟨l.mid, l.answered.kind, l.answered.direction, codec, l.answered.proto, some id',
      false⟩ := by
  constructor
  · -- the offerer has handler and endpoint, and no reason to refuse
    exact Session.settleSection_of_accepted l.offeredMid_eq l.handler?_eq hid
      (l.offered_of_answered hrej) hrej (l.isUnbundled_eq hrej) hcodec (l.securedSetup_eq hrej)
  · -- the answerer reads its own answer
    have hsettled := l.answerRow.settled
    have hreply : x.answering.written.2.handler? l.replyPlaced.handler = some h' := by
      rw [handler?, x.answering.handlers_written]
      exact hh'
    rw [Session.outcome, hrej, if_neg Bool.false_ne_true, l.midAt_eq, hreply, Option.bind_some,
      hcodec', x.answering.transport_written, hid'] at hsettled
    exact hsettled

theorem settleSection_of_accepted (hrej : l.answered.isRejected = false) : ∃ id id' codec,
    x.waiting.settleSection x.pending x.answer i l.offered l.answered =
      .ok (⟨l.mid, l.offered.kind, l.answered.direction.invert, codec, l.offered.proto, some id,
        false⟩, (if isSecure l.offered.proto ∧ ours.config.certificate.isSome then
          some theirs.config.answerSetup.invert else none).map fun setup ↦ (id, setup)) ∧
    x.answering.place.transport.carrier? l.mid = some id' ∧
    l.outcome = ⟨l.mid, l.answered.kind, l.answered.direction, codec, l.answered.proto, some id',
      false⟩ := by
  obtain ⟨id, id', hid, hid'⟩ := l.exists_carriers hrej
  obtain ⟨h', codec, hh', hcodec, hcodec'⟩ := l.exists_codec hrej
  obtain ⟨hsettle, houtcome⟩ := l.settleSection_of_codec hrej hid hid' hh' hcodec hcodec'
  exact ⟨id, id', codec, hsettle, hid', houtcome⟩

/-- What the two sides make of a section: the offerer has the outcome `n` and asks for the endpoint
and setup of `asked`. -/
structure Ends (l : x.Leg i) (n : NegotiatedMedia) (asked : Option (EndpointId × Setup)) :
    Prop where
  /-- The outcomes say the same. -/
  mirrors : n.Mirrors l.outcome
  /-- They give the identifier that the offerer chose. -/
  mid_eq : n.mid = l.mid
  /-- They give the protocol that was offered. -/
  proto_eq : n.proto = l.offered.proto
  /-- The offerer takes the role that the answerer left. -/
  setup_eq : ∀ y, asked = some y → y.2 = theirs.config.answerSetup.invert
  /-- An accepted section has endpoints on both sides. With a certificate, those of secured sections
  are asked for. -/
  endpoints : n.rejected = false → l.answered.isRejected = false ∧
    ∃ id id', n.endpoint = some id ∧ l.outcome.endpoint = some id' ∧
      x.answering.place.transport.carrier? l.mid = some id' ∧
      (isSecure n.proto = true → ours.config.certificate.isSome = true →
        asked = some (id, theirs.config.answerSetup.invert))

/-- **Both sides come to the same end**, and the offerer finds nothing to object to. -/
theorem settleSection_ok : ∃ n asked,
    x.waiting.settleSection x.pending x.answer i l.offered l.answered = .ok (n, asked) ∧
      l.Ends n asked := by
  cases hrej : l.answered.isRejected with
  | true =>
    obtain ⟨hsettle, houtcome⟩ := l.settleSection_of_rejected hrej
    refine ⟨_, _, hsettle, ?_, rfl, rfl, nofun, fun h ↦ nomatch (show true = false from h)⟩
    rw [houtcome]
    exact NegotiatedMedia.mirrors_refused l.mid l.offered
  | false =>
    obtain ⟨id, id', codec, hsettle, hid', houtcome⟩ := l.settleSection_of_accepted hrej
    refine ⟨_, _, hsettle, ?_, rfl, rfl, fun y hy ↦ ?_, fun _ ↦ ⟨hrej, id, id', rfl, ?_, hid', ?_⟩⟩
    · rw [houtcome]
      exact ⟨rfl, l.kind_eq.symm, l.proto_eq.symm, rfl, rfl, rfl⟩
    · obtain ⟨setup, hsetup, rfl⟩ := Option.map_eq_some_iff.mp hy
      split at hsetup
      · exact (Option.some.inj hsetup).symm
      · cases hsetup
    · rw [houtcome]
    · intro hsecure hcert
      rw [if_pos ⟨hsecure, hcert⟩]
      rfl

end Leg

/-! ### The answer is in order -/

theorem exists_leg_of_answered {i : Nat} {a : Section} (ha : x.answer.sections[i]? = some a) :
    ∃ l : x.Leg i, l.answered = a := by
  have hi := (List.getElem?_eq_some_iff.mp ha).1
  rw [x.answering.length_sections] at hi
  obtain ⟨l, -⟩ := x.exists_leg (List.getElem?_eq_getElem hi)
  exact ⟨l, Option.some.inj (l.answered_eq.symm.trans ha)⟩

theorem fault?_answered {a : Section} (ha : a ∈ x.answer.sections) : a.fault? = none := by
  obtain ⟨i, hi⟩ := List.mem_iff_getElem?.mp ha
  obtain ⟨l, rfl⟩ := x.exists_leg_of_answered hi
  refine Description.fault?_eq_none ?_ ?_
  · rw [l.proto_eq]
    exact (l.offerRow.offers l.plan).1.proto_ne
  · cases hrej : l.answered.isRejected with
    | true => exact Or.inl rfl
    | false =>
      obtain ⟨-, h, -, hanswers⟩ := l.answerRow.answers.1.answers hrej
      exact Or.inr hanswers.formats_ne

theorem exists_leg_of_pair {i : Nat} {p : Section × Section}
    (hp : (x.offer.sections.zip x.answer.sections)[i]? = some p) :
    ∃ l : x.Leg i, p = (l.offered, l.answered) := by
  obtain ⟨ho, ha⟩ := List.getElem?_zip_eq_some.mp hp
  obtain ⟨l, hl⟩ := x.exists_leg_of_answered ha
  exact ⟨l, Prod.ext (Option.some.inj (ho.symm.trans l.offered_eq)) hl.symm⟩

theorem checkAnswer_ok : x.waiting.checkAnswer x.offer x.answer = .ok () := by
  have hfull : ¬(x.waiting.config.iceLite = true ∧ theirs.config.iceLite = true) := by
    rw [x.config_waiting]
    exact x.full
  apply Session.checkAnswer_ok x.answering.length_sections fun a ha ↦ x.fault?_answered ha
  · intro p hp
    obtain ⟨i, hi⟩ := List.mem_iff_getElem?.mp hp
    obtain ⟨l, rfl⟩ := x.exists_leg_of_pair hi
    exact ⟨l.kind_eq.symm, l.mid_offered.trans l.mid_answered.symm⟩
  · exact x.answering.writesPart_answer.checkIceLite_ok hfull

/-- **The answer can be applied.** -/
theorem exists_accepting : Nonempty (Accepting x.waiting x.pending x.answer) := by
  have hsettled : ∃ outcomes, x.waiting.settleSections x.pending x.answer 0
      (x.offer.sections.zip x.answer.sections) = .ok outcomes := by
    refine settleSections_ok fun i p hp ↦ ?_
    obtain ⟨l, rfl⟩ := x.exists_leg_of_pair hp
    obtain ⟨n, asked, hsettle, -⟩ := l.settleSection_ok
    rw [Nat.zero_add]
    exact ⟨_, hsettle⟩
  obtain ⟨outcomes, houtcomes⟩ := hsettled
  exact ⟨⟨outcomes, x.checkAnswer_ok, houtcomes⟩⟩

end Exchange

end OfferAnswer
