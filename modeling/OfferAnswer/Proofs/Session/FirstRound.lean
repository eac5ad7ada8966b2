import OfferAnswer.Proofs.Session.Agreement
import OfferAnswer.Proofs.Session.Holding
import OfferAnswer.Proofs.Session.Renegotiation

/-!
# A first exchange leaves sessions in step

When a first exchange is over, both sides can do it again: they hold what they have written, and
every section has come to an outcome to which the same descriptions lead once more. This is where
distinct identifiers are needed. A rejected section takes endpoint and source from every section
that shares its identifier, and then nothing is as it was.
-/

namespace OfferAnswer

open Session

/-! ## What sections declare -/

theorem Offering.Row.declared {s : Session} {run : Offering s} {i : Nat} {q r : Planned}
    {o : Section}
    {h : MediaHandler} (hrow : run.Row i q r o) (hq : s.PlansOffer q h) :
    o.attr? "mid" = some q.mid.text := by
  obtain ⟨-, htidy, -, -⟩ := hrow.body hq
  obtain ⟨ssrcs, e, rfl⟩ := hrow.written
  rw [← hrow.fate.mid_eq]
  exact attr?_mid_decorate htidy _ _ _

theorem Answering.Row.attrsOf_mid {s : Session} {remote : Description} {run : Answering s remote}
    {i : Nat} {q r : Planned} {o a : Section} {n : NegotiatedMedia} (hrow : run.Row i q r o a n) :
    a.attrsOf "mid" = [midAttr (midAt remote i)] := by
  have htidy := hrow.body.tidy
  have hmid := hrow.mid_eq
  obtain ⟨ssrcs, e, rfl⟩ := hrow.written
  rw [← hmid]
  exact attrsOf_mid_decorate htidy _ _ _

theorem Answering.Row.declared {s : Session} {remote : Description} {run : Answering s remote}
    {i : Nat} {q r : Planned} {o a : Section} {n : NegotiatedMedia} (hrow : run.Row i q r o a n) :
    a.attr? "mid" = some (midAt remote i).text :=
  Section.attr?_of_attrsOf (a := midAttr (midAt remote i)) hrow.attrsOf_mid

namespace Exchange

variable {ours theirs : Session} {x : Exchange ours theirs}
  {run : Accepting x.waiting x.pending x.answer} {i : Nat} {n : NegotiatedMedia}
  {asked : Option (EndpointId × Setup)}

/-- Every outcome of the offerer is settled on a leg. -/
theorem exists_leg_settles (run : Accepting x.waiting x.pending x.answer)
    (hn : run.outcomes.1[i]? = some n) : ∃ (l : x.Leg i) (asked : _),
      x.waiting.settleSection x.pending x.answer i l.offered l.answered = .ok (n, asked) := by
  obtain ⟨-, hget, -⟩ := settleSections_spec run.settle_eq
  obtain ⟨p, asked, hp, hsettle⟩ := hget i n hn
  obtain ⟨l, rfl⟩ := x.exists_leg_of_pair hp
  rw [Nat.zero_add] at hsettle
  exact ⟨l, asked, hsettle⟩

/-! ## Both sides of a leg -/

namespace Leg

variable (l : x.Leg i)

theorem declared : l.offered.attr? "mid" = some l.mid.text := l.offerRow.declared l.plan

theorem declared_answered : l.answered.attr? "mid" = some l.mid.text := by
  rw [l.answerRow.declared, l.midAt_eq]

theorem of_rejected
    (hsettle : x.waiting.settleSection x.pending x.answer i l.offered l.answered = .ok (n, asked))
    (hrej : l.answered.isRejected = true) :
    l.answered = .rejected l.offered ∧ n = .refused l.mid l.offered ∧
      l.outcome = .refused l.mid l.offered := by
  obtain ⟨hsettle', houtcome⟩ := l.settleSection_of_rejected hrej
  have hdeclared : l.offered.attr? "mid" = some (midAt x.offer i).text := by
    rw [l.midAt_eq]
    exact l.declared
  rw [hsettle, Except.ok.injEq, Prod.mk.injEq] at hsettle'
  exact ⟨l.answerRow.answered_of_rejected hdeclared hrej, hsettle'.1, houtcome⟩

theorem of_accepted
    (hsettle : x.waiting.settleSection x.pending x.answer i l.offered l.answered = .ok (n, asked))
    (hrej : l.answered.isRejected = false) : ∃ id id' h' codec,
      x.waiting.transport.carrier? l.mid = some id ∧
      x.answering.place.transport.carrier? l.mid = some id' ∧
      theirs.handler? l.replyPlaced.handler = some h' ∧
      l.handler.processAnswer l.offered l.answered = .ok codec ∧
      h'.processAnswer l.offered l.answered = .ok codec ∧
      n = ⟨l.mid, l.offered.kind, l.answered.direction.invert, codec, l.offered.proto, some id,
        false⟩ ∧
      l.outcome = ⟨l.mid, l.answered.kind, l.answered.direction, codec, l.answered.proto, some id',
        false⟩ := by
  obtain ⟨id, id', hid, hid'⟩ := l.exists_carriers hrej
  obtain ⟨h', codec, hh', hcodec, hcodec'⟩ := l.exists_codec hrej
  obtain ⟨hsettle', houtcome⟩ := l.settleSection_of_codec hrej hid hid' hh' hcodec hcodec'
  rw [hsettle, Except.ok.injEq, Prod.mk.injEq] at hsettle'
  exact ⟨id, id', h', codec, hid, hid', hh', hcodec, hcodec', hsettle'.1, houtcome⟩

theorem ends_of_settled
    (hsettle : x.waiting.settleSection x.pending x.answer i l.offered l.answered = .ok (n, asked)) :
    l.Ends n asked := by
  obtain ⟨n', asked', hsettle', hends⟩ := l.settleSection_ok
  rw [hsettle, Except.ok.injEq, Prod.mk.injEq] at hsettle'
  rw [hsettle'.1, hsettle'.2]
  exact hends

end Leg

/-! ## The offerer in the end -/

theorem same_offerer (run : Accepting x.waiting x.pending x.answer) (ports : PortAllocator) :
    (run.concluded ports).1.id = ours.id ∧ (run.concluded ports).1.config = ours.config ∧
      (run.concluded ports).1.credentials = ours.credentials ∧
        (run.concluded ports).1.handlers = ours.handlers := by
  obtain ⟨hid, hconfig, hcredentials, hhandlers⟩ := run.same_concluded x.exclusive_waiting ports
  obtain ⟨_, _, _, hwritten⟩ := x.offering.written_eq
  rw [hid, hconfig, hcredentials, hhandlers, waiting, hwritten]
  exact ⟨rfl, rfl, rfl, rfl⟩

theorem distinct_settled (run : Accepting x.waiting x.pending x.answer)
    (hdistinct : (x.offering.plan.map (·.mid)).Nodup) : (run.outcomes.1.map (·.mid)).Nodup := by
  rw [x.mids_settled run]
  exact hdistinct

namespace Leg

variable (l : x.Leg i)

theorem positionAt_concluded (run : Accepting x.waiting x.pending x.answer)
    (ports : PortAllocator) :
    (run.concluded ports).1.positionAt i = l.planned.handler := by
  obtain ⟨-, -, hpositions, -⟩ := run.record_concluded x.exclusive_waiting ports
  rw [positionAt, hpositions, pending, List.getElem?_map, l.offerRow.placed, Option.map_some,
    Option.join_some, l.offerRow.fate.handler_eq]

theorem handler?_concluded (run : Accepting x.waiting x.pending x.answer) (ports : PortAllocator) :
    (run.concluded ports).1.handler? l.planned.handler = some l.handler := by
  rw [handler?, (same_offerer run ports).2.2.2]
  exact l.plan.handler_eq

theorem holds_offered (run : Accepting x.waiting x.pending x.answer) (ports : PortAllocator)
    (hrej : l.offered.isRejected = false) (hkept : ¬Released run.outcomes.1 l.mid) :
    (run.concluded ports).1.Holds l.mid (offerSetup l.planned) l.planned.body l.offered := by
  have hholds := l.offerRow.holds l.offered_eq hrej
  have hwaiting : x.waiting.Holds l.mid (offerSetup l.planned) l.planned.body l.offered := by
    have hwrites : WritesAs x.offering.written.2 x.waiting l.mid :=
      ⟨rfl, rfl, rfl, rfl, fun _ hv ↦ hv⟩
    exact hholds.mono hwrites (.refl (fun _ ↦ True) _) trivial
  exact run.holds_concluded x.exclusive_waiting hwaiting hkept ports

theorem reoffers (run : Accepting x.waiting x.pending x.answer) (ports : PortAllocator)
    (hnew : ours.negotiated = []) (hunplaced : ours.sectionHandlers = [])
    (hdistinct : (x.offering.plan.map (·.mid)).Nodup) (hn : run.outcomes.1[i]? = some n)
    (hsettle : x.waiting.settleSection x.pending x.answer i l.offered l.answered = .ok (n, asked)) :
    (run.concluded ports).1.Reoffers ((run.concluded ports).1.positionAt i) n l.offered := by
  have hmid := (l.ends_of_settled hsettle).mid_eq
  constructor
  · rw [hmid]
    exact l.declared
  · intro hrej
    have harej : l.answered.isRejected = false := by
      cases harej : l.answered.isRejected with
      | false => rfl
      | true =>
        obtain ⟨-, hrefused, -⟩ := l.of_rejected hsettle harej
        rw [hrefused] at hrej
        cases hrej
    obtain ⟨id, -, -, codec, -, -, -, -, -, hout, -⟩ := l.of_accepted hsettle harej
    have hkept : ¬Released run.outcomes.1 l.mid := by
      rw [← hmid]
      apply not_released_of_nodup (distinct_settled run hdistinct) (List.mem_of_getElem? hn)
      rw [hout]
      exact nofun
    have hholds := l.holds_offered run ports (l.offered_of_answered harej) hkept
    -- what was planned is what the handler offers by itself
    obtain ⟨q₀, h, hq, hh, hbase⟩ :=
      (planOffer_new x.offering.plan_eq hnew hunplaced).1 _
        (List.mem_of_getElem? l.offerRow.planned)
    have hposition : q₀.handler = l.planned.handler := by rw [hq, handler_offerMux]
    obtain rfl : h = l.handler := by
      rw [hposition, l.plan.handler_eq, Option.some_inj] at hh
      exact hh.symm
    have hmux : (run.concluded ports).1.offerMux
        ⟨n.mid, (run.concluded ports).1.positionAt i, q₀.body⟩ = l.planned := by
      rw [l.positionAt_concluded, ← hposition, hmid, mid, hq, mid_offerMux, offerMux, offerMux,
        (same_offerer run ports).2.1]
    refine ⟨l.handler, q₀.body, ?_, ?_, hbase, ?_⟩
    · rw [l.positionAt_concluded]
      exact l.handler?_concluded run ports
    · rw [hout]
      exact (l.offerRow.offers l.plan).1.kind_eq.symm
    · rw [hmux, hmid]
      exact hholds

/-- The offerer would apply the answer to an accepted section again. -/
theorem applied (run : Accepting x.waiting x.pending x.answer) (ports : PortAllocator)
    (hcarries : (run.concluded ports).1.Carries) (hn : run.outcomes.1[i]? = some n)
    (hsettle : x.waiting.settleSection x.pending x.answer i l.offered l.answered = .ok (n, asked))
    (hrej : l.answered.isRejected = false) : (run.concluded ports).1.Applied x.answer i
      ((run.concluded ports).1.positionAt i) n l.offered l.answered := by
  have hmid := (l.ends_of_settled hsettle).mid_eq
  obtain ⟨id, -, -, codec, -, -, -, hcodec, -, hout, -⟩ := l.of_accepted hsettle hrej
  have hconfig := (run.same_concluded x.exclusive_waiting ports).2.1
  have hasked := l.securedSetup_eq hrej
  rw [← securedSetup_congr hconfig, ← hmid] at hasked
  refine ⟨l.handler, codec, _, id, ?_, hcodec, hasked, ?_, ?_⟩
  · rw [l.positionAt_concluded]
    exact l.handler?_concluded run ports
  · have hmem : n ∈ (run.concluded ports).1.negotiated := by
      rw [run.negotiated_concluded x.exclusive_waiting]
      exact List.mem_of_getElem? hn
    apply hcarries n hmem
    rw [hout]
  · rw [hmid]
    exact hout

/-- The answerer would answer an accepted section again. -/
theorem answered_concluded (hcarries : x.answering.concluded.1.Carries)
    (hkept : ¬Released x.answering.outcomes.1 l.mid)
    (hsettle : x.waiting.settleSection x.pending x.answer i l.offered l.answered = .ok (n, asked))
    (hrej : l.answered.isRejected = false) :
    x.answering.concluded.1.Answered l.outcome l.offered l.answered := by
  obtain ⟨-, id', h', codec, -, hid', hh', -, hcodec, -, hout⟩ := l.of_accepted hsettle hrej
  obtain ⟨p, h, body, hp, horej, hposition, hh, hbody, hproto, hholds⟩ :=
    l.answerRow.holds l.answered_eq hrej
  obtain rfl : h' = h := by
    rw [hp, hh, Option.some_inj] at hh'
    exact hh'.symm
  obtain ⟨-, hconfig, -, hhandlers⟩ := x.answering.same_concluded
  have hmid : l.outcome.mid = l.mid := by rw [hout]
  -- the answerer has written the setup that it is configured to write
  have hsetup : x.answering.setupAt i l.replyPlaced = x.answering.concluded.1.ownSetup body := by
    rw [l.setupAt_eq, ownSetup, hconfig, ← hproto, l.answerRow.body.proto_eq]
    cases hsecure : isSecure l.offered.proto with
    | true => exact l.setupFor_eq hrej hsecure
    | false =>
      rw [Answering.setupFor, l.proto_eq, hsecure]
      rfl
  rw [l.midAt_eq, hsetup] at hholds
  refine ⟨horej, p, h', body, codec, id', ?_, ?_, hbody, ?_, hcodec, ?_, ?_⟩
  · rw [handlerFor?, hhandlers]
    exact hposition
  · rw [handler?, hhandlers]
    exact hh
  · rw [hmid]
    exact x.answering.holds_concluded hholds hkept
  · have hmem : l.outcome ∈ x.answering.concluded.1.negotiated := by
      rw [x.answering.negotiated_concluded]
      exact List.mem_of_getElem? l.outcome_eq
    apply hcarries _ hmem
    rw [hout]
  · rw [hmid]
    exact hout

end Leg

/-! ## Offer and answer, side by side -/

theorem matches_sections : List.Forall₂ Matches x.offer.sections x.answer.sections := by
  refine forall₂_of_getElem? x.answering.length_sections.symm fun i o a ho ha ↦ ?_
  obtain ⟨l, rfl⟩ := x.exists_leg_of_answered ha
  obtain rfl : l.offered = o := Option.some.inj (l.offered_eq.symm.trans ho)
  exact ⟨l.mid_offered.trans l.mid_answered.symm, l.offered_of_answered⟩

theorem mids_answered : x.answer.sections.map Section.mid? = x.offering.plan.map (some ·.mid) := by
  have hlen : x.answer.sections.length = x.offering.plan.length :=
    x.answering.length_sections.trans x.offering.length_sections
  apply List.ext_getElem (by simpa using hlen)
  intro i ha hi
  rw [List.length_map] at ha hi
  obtain ⟨l, hl⟩ := x.exists_leg_of_answered (List.getElem?_eq_getElem ha)
  have hplanned := l.offerRow.planned
  rw [List.getElem?_eq_getElem hi, Option.some_inj] at hplanned
  rw [List.getElem_map, List.getElem_map, hplanned, ← hl]
  exact l.mid_answered

/-! ## In step -/

/-- An exchange of new sessions that can go on: no identifier is given twice, and the answerer can
read the certificate of the offerer, too. -/
structure Opens (x : Exchange ours theirs) : Prop where
  /-- The offerer has no outcome yet, -/
  new : ours.negotiated = []
  /-- and no section. -/
  unplaced : ours.sectionHandlers = []
  /-- Its identifiers are distinct. -/
  distinct : (x.offering.plan.map (·.mid)).Nodup
  /-- The answerer can read its certificate. -/
  trusted : theirs.Trusts ours

theorem distinct_outcomes (hopens : x.Opens) (run : Accepting x.waiting x.pending x.answer) :
    (x.answering.outcomes.1.map (·.mid)).Nodup := by
  have hmids := (x.agrees run {}).mids_eq
  rw [run.negotiated_concluded x.exclusive_waiting, x.answering.negotiated_concluded] at hmids
  rw [← hmids]
  exact distinct_settled run hopens.distinct

/-- The answer has the group of the offer without the sections that it rejects. -/
theorem acceptedGroup_answer (hopens : x.Opens) :
    acceptedGroup (x.offer.session.bundle?.getD []) x.answer.sections =
      ours.offerGroup x.answer.sections := by
  have hnamed : ∀ m ∈ x.offer.sections, ∀ mid, m.mid? = some mid → mid.Named := by
    intro m hm mid hmid
    obtain ⟨i, ho⟩ := List.mem_iff_getElem?.mp hm
    obtain ⟨l, rfl⟩ := x.exists_leg ho
    obtain rfl := Option.some.inj (l.mid_offered.symm.trans hmid)
    exact l.plan.named
  have hdistinct : (x.answer.sections.map Section.mid?).Nodup := by
    have hmids := hopens.distinct.map fun _ _ ↦ Option.some.inj
    rw [List.map_map] at hmids
    rw [mids_answered]
    exact hmids
  rw [x.offering.writesPart_offer.bundle?_eq (named_of_mem_offerGroup hnamed)]
  exact acceptedGroup_offerGroup matches_sections hdistinct ours

theorem hasOffered (hopens : x.Opens) (run : Accepting x.waiting x.pending x.answer)
    (ports : PortAllocator)
    (hpairs : ∀ (i : Nat) n o, run.outcomes.1[i]? = some n → x.offer.sections[i]? = some o →
      (run.concluded ports).1.Reoffers ((run.concluded ports).1.positionAt i) n o) :
    (run.concluded ports).1.HasOffered x.offer := by
  obtain ⟨hid, hconfig, -, hhandlers⟩ := same_offerer run ports
  obtain ⟨hours, hversion, hpositions, hstate⟩ := run.record_concluded x.exclusive_waiting ports
  have hnegotiated := run.negotiated_concluded x.exclusive_waiting ports
  have hplaced : x.pending.handlers = x.offering.plan.map (·.handler) := x.offering.handlers_placed
  have hwaiting : x.waiting.ours = some x.offer ∧
      x.waiting.version = x.offering.written.2.version := by
    obtain ⟨_, _, _, hwritten⟩ := x.offering.written_eq
    rw [waiting, hwritten]
    exact ⟨rfl, rfl⟩
  have hlen : run.outcomes.1.length = x.offer.sections.length := x.length_settled run
  refine ⟨hours.trans hwaiting.1, ?_, ?_, ?_, ?_, ?_, ?_⟩
  · rw [hversion, hwaiting.2, draft, hid, offerAttrs_congr hconfig]
    exact x.offering.offer_eq
  · rcases hstate with hstate | hstate <;> simp [hstate]
  · rw [hnegotiated]
    exact hlen
  · rw [hpositions, hnegotiated, hlen, hplaced, List.length_map, x.offering.length_sections]
  · rw [hhandlers, hpositions, hplaced]
    exact (planOffer_new x.offering.plan_eq hopens.new hopens.unplaced).2
  · rw [hnegotiated]
    exact hpairs

section

variable (hopens : x.Opens) (run : Accepting x.waiting x.pending x.answer) (ports : PortAllocator)
  (hsound : (run.concluded ports).1.Sound) (hsound' : x.answering.concluded.1.Sound)

include hopens hsound hsound'

theorem Leg.paired (l : x.Leg i) (hn : run.outcomes.1[i]? = some n)
    (hsettle : x.waiting.settleSection x.pending x.answer i l.offered l.answered = .ok (n, asked)) :
    Paired (run.concluded ports).1 x.answering.concluded.1 x.answer i l.offered l.answered n
      l.outcome := by
  have hends := l.ends_of_settled hsettle
  have hmid := hends.mid_eq
  obtain ⟨hoffers, -, hwrites, -⟩ := l.offerRow.offers l.plan
  obtain ⟨-, hconfig, hcredentials, -⟩ := same_offerer run ports
  have hcarries := hsound.carries (by
    rw [run.negotiated_concluded x.exclusive_waiting]
    exact distinct_settled run hopens.distinct)
  have hcarries' := hsound'.carries (by
    rw [x.answering.negotiated_concluded]
    exact distinct_outcomes hopens run)
  refine ⟨?_, hends.mirrors.mid_eq.symm, ?_, l.kind_eq, l.proto_eq, ?_, hoffers.proto_ne, ?_, ?_,
    ?_⟩
  · rw [hmid]
    exact l.plan.named
  · rw [hmid]
    exact l.declared_answered
  · exact x.fault?_answered (List.mem_of_getElem? l.answered_eq)
  · exact l.reoffers run ports hopens.new hopens.unplaced hopens.distinct hn hsettle
  · intro hrej
    rw [hmid]
    exact l.of_rejected hsettle hrej
  · intro hrej
    -- names are distinct, so no rejected section takes anything from this one
    have hkept : ¬Released x.answering.outcomes.1 l.mid := by
      obtain ⟨-, id', -, codec, -, -, -, -, -, -, hout⟩ := l.of_accepted hsettle hrej
      have hmid' : l.outcome.mid = l.mid := by rw [hout]
      rw [← hmid']
      apply not_released_of_nodup (distinct_outcomes hopens run)
        (List.mem_of_getElem? l.outcome_eq)
      rw [hout]
      exact nofun
    refine ⟨hoffers.formats_ne, ?_, l.answered_concluded hcarries' hkept hsettle hrej,
      l.applied run ports hcarries hn hsettle hrej⟩
    rw [hmid]
    exact hwrites.congr hcredentials hconfig

/-- **A first exchange leaves its sessions in step.** -/
theorem inStep : InStep (run.concluded ports).1 x.answering.concluded.1 x.offer x.answer := by
  obtain ⟨-, hconfig, -, -⟩ := same_offerer run ports
  obtain ⟨hid', hconfig', -, -⟩ := x.answering.same_concluded
  obtain ⟨hlast', hversion', hstate'⟩ := x.answering.record_concluded
  have hnegotiated := run.negotiated_concluded x.exclusive_waiting ports
  have hnegotiated' := x.answering.negotiated_concluded
  have hlen : run.outcomes.1.length = x.offer.sections.length := x.length_settled run
  have hpairs : ∀ (i : Nat) o a n n', x.offer.sections[i]? = some o →
      x.answer.sections[i]? = some a →
      run.outcomes.1[i]? = some n → x.answering.outcomes.1[i]? = some n' →
        Paired (run.concluded ports).1 x.answering.concluded.1 x.answer i o a n n' := by
    intro i o a n n' ho ha hn hn'
    obtain ⟨l, asked, hsettle⟩ := exists_leg_settles run hn
    obtain rfl := Option.some.inj (l.offered_eq.symm.trans ho)
    obtain rfl := Option.some.inj (l.answered_eq.symm.trans ha)
    obtain rfl := Option.some.inj (l.outcome_eq.symm.trans hn')
    exact l.paired hopens run ports hsound hsound' hn hsettle
  have hoffered : (run.concluded ports).1.HasOffered x.offer := by
    apply hasOffered hopens
    intro i n o hn ho
    obtain ⟨l, asked, hsettle⟩ := exists_leg_settles run hn
    obtain rfl := Option.some.inj (l.offered_eq.symm.trans ho)
    exact l.reoffers run ports hopens.new hopens.unplaced hopens.distinct hn hsettle
  have hgroup : (run.concluded ports).1.offerGroup x.answer.sections =
      ours.offerGroup x.answer.sections := by
    rw [offerGroup, offerGroup, bundles, bundles, hconfig]
  have hrole : x.answering.concluded.1.KeepsRole := by
    apply x.answering.keepsRole_concluded
    · -- a new session has no endpoint
      intro e he
      rw [x.idle] at he
      cases he
    · intro y hy
      exact x.setup_of_secured hy
  have hsuited : Suited (run.concluded ports).1 x.answering.concluded.1 := by
    have hnew : Suited ours theirs := ⟨x.trusts, hopens.trusted, x.full⟩
    exact hnew.congr hconfig hconfig'
  refine ⟨hsound, hsound', run.cleared_concluded x.exclusive_waiting ports,
    x.answering.cleared_concluded, hsuited, hoffered, ?_, hlast', ?_, hrole, ?_, ?_, ?_, ?_⟩
  · rcases hstate' with hstate' | hstate' <;> rw [hstate'] <;> rfl
  · rw [hgroup, ← acceptedGroup_answer hopens, hversion', draft, hid', sessionAttrs, hconfig']
    exact x.answering.answer_eq
  · rw [hnegotiated, hlen]
    exact x.answering.length_sections
  · rw [hnegotiated, hnegotiated', hlen]
    exact x.answering.length_negotiated
  · rw [hnegotiated]
    exact distinct_settled run hopens.distinct
  · rw [hnegotiated, hnegotiated']
    exact hpairs

end

end Exchange

end OfferAnswer
