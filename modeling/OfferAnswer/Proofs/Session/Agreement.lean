import OfferAnswer.Proofs.Session.Exchange

/-!
# Agreement

When a first exchange is over, both sides have the same outcome, section by section, and their
endpoints have opposite roles. The answerer takes the role that it is configured to take for every
section, since the offer leaves all roles open and no endpoint of a new session has one to keep. So
endpoints that are shared by several sections get one role, whichever section secures them last, and
the offerer inverts it.

`first_exchange_agrees` puts the exchange together. It asks of the configurations what sessions
cannot find out before they talk, `SessionConfig.Suits`, and nothing of ports and random values.

## Identifiers that outgrow their numerals

Endpoints are given up by identifier, so an accepted section keeps its endpoint if no rejected one
shares its identifier. Up to `Mid.indexBound` sections the offerer gives no identifier twice. Beyond
that, with more handlers than a machine can hold, it falls back on random ones, which may collide.
That endpoints are there is stated up to that bound; everything else, without it.
-/

namespace OfferAnswer

open TransportBinding (SidesFrom)

namespace Session

/-- Whether both sides of a secure channel have a role, as far as the endpoint is there. -/
def Plays (s : Session) (id : EndpointId) (role : DtlsRole) : Prop :=
  ∀ e, s.transport.endpoint? id = some e →
    ∃ side, e.encrypt = some side ∧ e.decrypt = some side ∧ side.role = role

/-- Two sessions whose outcomes agree, section by section. -/
structure Agrees (s s' : Session) : Prop where
  /-- There are as many sections. -/
  length_eq : s.negotiated.length = s'.negotiated.length
  /-- The outcomes of each say the same. -/
  mirrors : ∀ (i : Nat) n n', s.negotiated[i]? = some n → s'.negotiated[i]? = some n' →
    n.Mirrors n'
  /-- With certificates, the endpoints of a secured section take different roles. -/
  roles : s.config.certificate.isSome = true → ∀ (i : Nat) n n', s.negotiated[i]? = some n →
    s'.negotiated[i]? = some n' → n.rejected = false → isSecure n.proto = true →
      ∃ id id' role role', n.endpoint = some id ∧ n'.endpoint = some id' ∧
        s.Plays id role ∧ s'.Plays id' role' ∧ role ≠ role'

end Session

/-! ## Roles -/

namespace Setup

/-- Who inverts a settled setup takes the other role. -/
theorem exists_roles {setup : Setup} (h : setup ≠ .actPass) : ∃ role role',
    setup.invert.role? = some role ∧ setup.role? = some role' ∧ role ≠ role' := by
  cases setup with
  | actPass => exact absurd rfl h
  | active => exact ⟨.server, .client, rfl, rfl, nofun⟩
  | passive => exact ⟨.client, .server, rfl, rfl, nofun⟩

end Setup

namespace Session

variable {s s' : Session} {asked : List (EndpointId × Setup)} {setup : Setup} {role : DtlsRole}
  {cert : DtlsCertificate}

theorem channelFor?_eq (hcert : s.config.certificate = some cert) (hrole : setup.role? = some role)
    (id : EndpointId) :
    s.channelFor? (id, setup) = some ⟨id, ⟨role, cert.pem, s.channelId id⟩⟩ := by
  rw [channelFor?, hcert, Option.bind_some, hrole]
  rfl

theorem plays_of_secured (hcert : s.config.certificate = some cert)
    (hrole : setup.role? = some role) (hall : ∀ x ∈ asked, x.2 = setup) {id : EndpointId}
    (hid : (id, setup) ∈ asked)
    (hsides : SidesFrom (setChannels s.transport (asked.filterMap s.channelFor?)) s'.transport) :
    s'.Plays id role := by
  intro e he
  obtain ⟨e₀, he₀, hid₀, hencrypt, hdecrypt⟩ := hsides e (TransportBinding.mem_of_endpoint? he)
  rw [TransportBinding.id_of_endpoint? he] at hid₀
  rcases mem_setChannels he₀ with ⟨c, hc, -, hencrypt₀, hdecrypt₀⟩ | ⟨hothers, -⟩
  · refine ⟨c.side, hencrypt.symm.trans hencrypt₀, hdecrypt.symm.trans hdecrypt₀, ?_⟩
    obtain ⟨⟨id', setup'⟩, hx, hchannel⟩ := List.mem_filterMap.mp hc
    obtain rfl : setup' = setup := hall _ hx
    rw [channelFor?_eq hcert hrole, Option.some_inj] at hchannel
    rw [← hchannel]
  · have hchannel := List.mem_filterMap.mpr ⟨_, hid, channelFor?_eq hcert hrole id⟩
    exact absurd hid₀.symm (hothers _ hchannel)

end Session

/-! ## The outcome -/

namespace Exchange

open Session

variable {ours theirs : Session} (x : Exchange ours theirs)

/-- Every outcome of the offerer is the end of a leg, and what it asks for is secured. -/
theorem exists_leg_of_settled (run : Accepting x.waiting x.pending x.answer) {i : Nat}
    {n : NegotiatedMedia} (hn : run.outcomes.1[i]? = some n) :
    ∃ (l : x.Leg i) (asked : _), l.Ends n asked ∧ ∀ y, asked = some y → y ∈ run.outcomes.2 := by
  obtain ⟨-, hget, hmem⟩ := settleSections_spec run.settle_eq
  obtain ⟨p, asked, hp, hsettle⟩ := hget i n hn
  obtain ⟨l, rfl⟩ := x.exists_leg_of_pair hp
  obtain ⟨n', asked', hsettle', hends⟩ := l.settleSection_ok
  rw [Nat.zero_add] at hsettle
  obtain ⟨rfl, rfl⟩ := Prod.mk.inj (Except.ok.inj (hsettle'.symm.trans hsettle))
  refine ⟨l, asked', hends, fun y hy ↦ (hmem y).mpr ⟨i, _, n', hp, ?_⟩⟩
  rw [Nat.zero_add, hsettle', hy]

theorem length_settled (run : Accepting x.waiting x.pending x.answer) :
    run.outcomes.1.length = x.offer.sections.length := by
  refine (settleSections_spec run.settle_eq).1.trans ?_
  change (x.offer.sections.zip x.answer.sections).length = _
  rw [List.length_zip, x.answering.length_sections, Nat.min_self]

/-! ### Roles -/

theorem setup_of_asked (run : Accepting x.waiting x.pending x.answer) {y : EndpointId × Setup}
    (hy : y ∈ run.outcomes.2) : y.2 = theirs.config.answerSetup.invert := by
  obtain ⟨i, p, n, hp, hsettle⟩ := ((settleSections_spec run.settle_eq).2.2 y).mp hy
  obtain ⟨l, rfl⟩ := x.exists_leg_of_pair hp
  obtain ⟨n', asked, hsettle', hends⟩ := l.settleSection_ok
  rw [Nat.zero_add, hsettle', Except.ok.injEq, Prod.mk.injEq] at hsettle
  exact hends.setup_eq y hsettle.2

/-- The answerer secures its endpoints with the role that it is configured to take. -/
theorem setup_of_secured {y : EndpointId × Setup} (hy : y ∈ x.answering.outcomes.2) :
    y.2 = theirs.config.answerSetup := by
  obtain ⟨i, q, r, o, a, n, -, ha, hrow, hrej, -, hsetup⟩ := x.answering.mem_secured.mp hy
  obtain ⟨l, rfl⟩ := x.exists_leg_of_answered ha
  obtain rfl : l.replyPlaced = r := Option.some.inj (l.answerRow.placed.symm.trans hrow.placed)
  rw [l.setupAt_eq] at hsetup
  cases hsecure : isSecure l.offered.proto with
  | true =>
    rw [l.setupFor_eq hrej hsecure] at hsetup
    exact (Option.some.inj hsetup).symm
  | false =>
    rw [Answering.setupFor, l.proto_eq, hsecure] at hsetup
    cases hsetup

variable {x} in
theorem Leg.mem_secured {i : Nat} (l : x.Leg i) (hrej : l.answered.isRejected = false)
    (hsecure : isSecure l.offered.proto = true) {id : EndpointId}
    (hid : x.answering.place.transport.carrier? l.mid = some id) :
    (id, theirs.config.answerSetup) ∈ x.answering.outcomes.2 := by
  rw [← l.midAt_eq] at hid
  exact x.answering.mem_secured.mpr ⟨i, _, _, _, _, _, l.offered_eq, l.answered_eq, l.answerRow,
    hrej, hid, l.setupAt_eq.trans (l.setupFor_eq hrej hsecure)⟩

/-! ### Agreement -/

theorem agrees (run : Accepting x.waiting x.pending x.answer) (ports : PortAllocator) :
    (run.concluded ports).1.Agrees x.answering.concluded.1 := by
  have hours := run.negotiated_concluded x.exclusive_waiting ports
  have htheirs := x.answering.negotiated_concluded
  obtain ⟨s, state, hcommit, -, hs⟩ := run.concluded_spec x.exclusive_waiting ports
  obtain ⟨s', state', hcommit', -, hs'⟩ := x.answering.concluded_spec
  have hconfig : (run.concluded ports).1.config = ours.config := by
    rw [hs]
    exact hcommit.config_eq.trans x.config_waiting
  refine ⟨?_, fun i n n' hn hn' ↦ ?_, fun hcert i n n' hn hn' hrej hsecure ↦ ?_⟩
  · -- as many as were offered
    rw [hours, htheirs, x.length_settled run, x.answering.length_negotiated]
  · rw [hours] at hn
    rw [htheirs] at hn'
    obtain ⟨l, asked, hends, -⟩ := x.exists_leg_of_settled run hn
    obtain rfl : l.outcome = n' := Option.some.inj (l.outcome_eq.symm.trans hn')
    exact hends.mirrors
  · rw [hours] at hn
    rw [htheirs] at hn'
    rw [hconfig] at hcert
    obtain ⟨l, asked, hends, hasked⟩ := x.exists_leg_of_settled run hn
    obtain rfl : l.outcome = n' := Option.some.inj (l.outcome_eq.symm.trans hn')
    obtain ⟨hrej', id, id', hid, hid', hcarrier, hsecured⟩ := hends.endpoints hrej
    obtain ⟨role, role', hrole, hrole', hne⟩ := Setup.exists_roles x.settles
    refine ⟨id, id', role, role', hid, hid', ?_, ?_, hne⟩
    · -- the commit gives endpoints up, and the others keep the sides they were given before
      obtain ⟨cert, hcert'⟩ := Option.isSome_iff_exists.mp hcert
      rw [← x.config_waiting] at hcert'
      rw [hs]
      exact plays_of_secured hcert' hrole (fun y hy ↦ x.setup_of_asked run hy)
        (hasked _ (hsecured hsecure hcert)) hcommit.sides
    · -- the offerer has a certificate, so the answerer has one
      obtain ⟨cert', hcert', -⟩ := x.trusts hcert
      rw [← x.answering.config_written] at hcert'
      rw [hends.proto_eq] at hsecure
      rw [hs']
      exact plays_of_secured hcert' hrole' (fun y hy ↦ x.setup_of_secured hy)
        (l.mem_secured hrej' hsecure hcarrier) hcommit'.sides

theorem mids_settled (run : Accepting x.waiting x.pending x.answer) :
    run.outcomes.1.map (·.mid) = x.offering.plan.map (·.mid) := by
  refine List.ext_getElem? fun i ↦ ?_
  rw [List.getElem?_map, List.getElem?_map]
  cases hn : run.outcomes.1[i]? with
  | none =>
    rw [List.getElem?_eq_none_iff, x.length_settled run, x.offering.length_sections] at hn
    rw [List.getElem?_eq_none_iff.mpr hn]
    rfl
  | some n =>
    obtain ⟨l, asked, hends, -⟩ := x.exists_leg_of_settled run hn
    rw [l.offerRow.planned, Option.map_some, Option.map_some, hends.mid_eq, Leg.mid]

end Exchange

namespace Session

variable {s s' : Session}

theorem Agrees.mids_eq (h : s.Agrees s') :
    s.negotiated.map (·.mid) = s'.negotiated.map (·.mid) := by
  refine List.ext_getElem? fun i ↦ ?_
  rw [List.getElem?_map, List.getElem?_map]
  cases hn : s.negotiated[i]? with
  | none =>
    rw [List.getElem?_eq_none_iff, h.length_eq] at hn
    rw [List.getElem?_eq_none_iff.mpr hn]
  | some n =>
    have hi := (List.getElem?_eq_some_iff.mp hn).1
    rw [h.length_eq] at hi
    rw [List.getElem?_eq_getElem hi, Option.map_some, Option.map_some,
      (h.mirrors i n _ hn (List.getElem?_eq_getElem hi)).mid_eq]

/-- Whether every section that has an endpoint is carried by it. -/
def Carries (s : Session) : Prop :=
  ∀ n ∈ s.negotiated, ∀ id, n.endpoint = some id → s.transport.carrier? n.mid = some id

/-- If no identifier is given twice, none is given up for another section. -/
theorem Sound.carries (h : s.Sound) (hnodup : (s.negotiated.map (·.mid)).Nodup) : s.Carries := by
  intro n hn id hid
  apply h.carried n hn id hid
  apply not_released_of_nodup hnodup hn
  rw [hid]
  exact nofun

end Session

/-! ## The exchange -/

/-- Configurations whose sessions can talk to each other. -/
structure SessionConfig.Suits (c c' : SessionConfig) : Prop where
  /-- Both have a certificate, or neither has one. -/
  certificates : c.certificate.isSome = c'.certificate.isSome
  /-- The fingerprint of a certificate can be read. -/
  readable : ∀ cert, c.certificate = some cert ∨ c'.certificate = some cert →
    (Fingerprint.ofText? cert.fingerprint.text).isSome = true
  /-- They are not both ICE lite. -/
  full : ¬(c.iceLite = true ∧ c'.iceLite = true)
  /-- No name of an offered codec has a slash in it. -/
  names : ∀ h ∈ c.handlers, ∀ codec ∈ h.codecs, '/' ∉ codec.name.toList

namespace Session

variable {c c' : SessionConfig} {e e' : Entropy} {ours theirs : Session}

theorem trusts_of_suits (hsuits : c.Suits c') (hours : ours.config = c)
    (htheirs : theirs.config = c') : ours.Trusts theirs ∧ theirs.Trusts ours := by
  subst hours htheirs
  constructor
  · intro hcert
    rw [hsuits.certificates] at hcert
    obtain ⟨cert, hcert⟩ := Option.isSome_iff_exists.mp hcert
    exact ⟨cert, hcert, hsuits.readable cert (Or.inr hcert)⟩
  · intro hcert
    rw [← hsuits.certificates] at hcert
    obtain ⟨cert, hcert⟩ := Option.isSome_iff_exists.mp hcert
    exact ⟨cert, hcert, hsuits.readable cert (Or.inl hcert)⟩

theorem exists_exchange (hours : build c e = .ok ours) (htheirs : build c' e' = .ok theirs)
    (hsuits : c.Suits c') (ports ports' : PortAllocator) :
    ∃ x : Exchange ours theirs.receiving,
      ours.generateOffer ports = ⟨.ok x.offer, x.offering.written.2, x.offering.place.ports⟩ ∧
      theirs.processOffer ports' x.offer =
        ⟨.ok x.answer, x.answering.concluded.1, x.answering.concluded.2⟩ ∧
      x.offering.plan.length = c.handlers.length ∧
      (c.handlers.length ≤ Mid.indexBound → (x.offering.plan.map (·.mid)).Nodup) := by
  have hsound := sound_build hours
  have hsound' := sound_build htheirs
  obtain ⟨handlers, hcheck, rfl⟩ := build_eq hours
  obtain ⟨handlers', hcheck', rfl⟩ := build_eq htheirs
  obtain ⟨hlen, hmade⟩ := SessionConfig.handlers_spec hcheck
  obtain ⟨-, hmade'⟩ := SessionConfig.handlers_spec hcheck'
  obtain ⟨htrusts, htrusts'⟩ := trusts_of_suits hsuits
    (show (create c handlers e).config = c from rfl)
    (show (create c' handlers' e').receiving.config = c' from rfl)
  -- the offer
  obtain ⟨plan, hplan, hplanned, hplans, hnodup⟩ := planOffer_ok (s := create c handlers e)
    (fun h hh ↦ (hmade h hh).1) rfl rfl
  obtain ⟨offering, rfl, hoffer, -⟩ := generateOffer_ok hsound.exclusive
    (fun hstate ↦ nomatch (show NegotiationState.new = .closed ∨ _ from hstate)) ports hplan
  -- the answer
  obtain ⟨hchecked, plan', hplan'⟩ := offering.can_be_answered hplans htrusts' hsuits.full rfl
  obtain ⟨answering, hanswer⟩ := answerOffer_ok (s := (create c' handlers' e').receiving)
    hsound'.exclusive hsound'.hasPem hsound'.answerSetup_ne ports' hchecked hplan'
  have hnames : ∀ h ∈ handlers, ∀ codec ∈ h.codecs, '/' ∉ codec.name.toList := by
    intro h hh codec hcodec
    obtain ⟨-, hc, hhc, hcodecs⟩ := hmade h hh
    exact hsuits.names hc hhc codec (hcodecs ▸ hcodec)
  let x : Exchange (create c handlers e) (create c' handlers' e').receiving :=
    { offering := offering
      answering := answering
      plans := hplans
      ours_made := fun h hh ↦ (hmade h hh).1
      theirs_made := fun h hh ↦ (hmade' h hh).1
      names := hnames
      trusts := htrusts
      full := hsuits.full
      settles := hsound'.answerSetup_ne
      idle := rfl }
  refine ⟨x, hoffer, ?_, hplanned.trans hlen,
    fun hbound ↦ hnodup (Nat.le_trans (Nat.le_of_eq hlen) hbound)⟩
  rw [processOffer_eq (show takesOffer .new = true from rfl)]
  change restoring _ ((create c' handlers' e').receiving.answerOffer ports' offering.offer) = _
  rw [hanswer]
  rfl

theorem processAnswer_ok (hsound : ours.Sound) (x : Exchange ours theirs) (ports : PortAllocator) :
    ∃ run : Accepting x.waiting x.pending x.answer,
      x.offering.written.2.processAnswer ports x.answer =
        ⟨.ok (), (run.concluded ports).1, (run.concluded ports).2⟩ := by
  obtain ⟨run⟩ := x.exists_accepting
  obtain ⟨_, _, _, hwritten⟩ := x.offering.written_eq
  have hpem : x.waiting.HasPem := by
    rw [HasPem, x.config_waiting]
    exact hsound.hasPem
  have hstate : x.offering.written.2.state = .offerGenerated := by rw [hwritten]
  have hpending : x.offering.written.2.pending = some x.pending := by
    rw [hwritten]
    rfl
  refine ⟨run, ?_⟩
  rw [processAnswer_eq hstate hpending]
  change repending x.pending (x.waiting.applyAnswer ports x.pending x.answer) = _
  rw [applyAnswer_ok hpem ports run]
  rfl

/-- **A first exchange succeeds, and both sides agree.**

A new session offers, another new one answers, and the first applies the answer, whatever their
configurations, as long as these suit each other, and whatever ports are left and random values are
drawn. All three calls succeed. There is an outcome for every handler of the offerer, and the two
sides say the same, section by section: a section is rejected on both sides or on neither, its
directions are inverse and its codecs equal. With certificates, one side of every accepted secured
section opens the handshake and the other waits for it. And unless there are more sections than
identifiers, all endpoints are there. -/
theorem first_exchange_agrees (hours : build c e = .ok ours) (htheirs : build c' e' = .ok theirs)
    (hsuits : c.Suits c') (ports ports' ports'' : PortAllocator) : ∃ offer answer,
      (ours.generateOffer ports).result = .ok offer ∧
      (theirs.processOffer ports' offer).result = .ok answer ∧
      ((ours.generateOffer ports).session.processAnswer ports'' answer).result = .ok () ∧
      let s := ((ours.generateOffer ports).session.processAnswer ports'' answer).session
      let s' := (theirs.processOffer ports' offer).session
      s.negotiated.length = c.handlers.length ∧ s.Agrees s' ∧
        (c.handlers.length ≤ Mid.indexBound → s.Carries ∧ s'.Carries) := by
  obtain ⟨x, hoffer, hanswer, hplanned, hnodup⟩ := exists_exchange hours htheirs hsuits ports ports'
  have hsound := sound_build hours
  obtain ⟨run, happlied⟩ := processAnswer_ok hsound x ports''
  have hsent := hsound.generateOffer ports
  have hanswered := (sound_build htheirs).processOffer ports' x.offer
  refine ⟨x.offer, x.answer, ?_, ?_, ?_⟩
  · rw [hoffer]
  · rw [hanswer]
  have hdone := hsent.processAnswer ports'' x.answer
  rw [hoffer] at hdone ⊢
  rw [hanswer] at hanswered ⊢
  dsimp only at hdone hanswered ⊢
  rw [happlied] at hdone ⊢
  have hagrees := x.agrees run ports''
  have houtcome := run.negotiated_concluded x.exclusive_waiting ports''
  refine ⟨rfl, ?_, hagrees, fun hbound ↦ ?_⟩
  · rw [houtcome, x.length_settled run, x.offering.length_sections, hplanned]
  -- with distinct names no section takes the endpoint of another
  have hmids : ((run.concluded ports'').1.negotiated.map (·.mid)).Nodup := by
    rw [houtcome, x.mids_settled run]
    exact hnodup hbound
  exact ⟨hdone.carries hmids, hanswered.carries (hagrees.mids_eq ▸ hmids)⟩

/-- A configuration for audio and data channels, with a certificate. -/
def talker (setup : Setup) : SessionConfig where
  certificate := some ⟨"-----BEGIN CERTIFICATE-----", ⟨"sha-256", [1, 171]⟩⟩
  answerSetup := setup
  handlers := [.defaultAudio, .defaultSctp]

theorem suits_talker (setup setup' : Setup) : (talker setup).Suits (talker setup') where
  certificates := rfl
  readable := by
    have hreads : (Fingerprint.ofText? (Fingerprint.text ⟨"sha-256", [1, 171]⟩)).isSome = true := by
      decide +kernel
    rintro cert (h | h) <;> cases h <;> exact hreads
  full := fun h ↦ nomatch (show false = true from h.1)
  names := (show ∀ h ∈ [HandlerConfig.defaultAudio, .defaultSctp], ∀ codec ∈ h.codecs,
    '/' ∉ codec.name.toList by decide +kernel)

theorem talkers_agree : ∃ (ours theirs : Session) (offer answer : Description),
    build (talker .active) ⟨fun i ↦ i, 0⟩ = .ok ours ∧
      build (talker .passive) ⟨fun i ↦ i + 7, 0⟩ = .ok theirs ∧
      (ours.generateOffer {}).result = .ok offer ∧
      (theirs.processOffer {} offer).result = .ok answer ∧
      let r := (ours.generateOffer {}).session.processAnswer {} answer
      let s' := (theirs.processOffer {} offer).session
      r.result = .ok () ∧ r.session.negotiated.length = 2 ∧ r.session.Agrees s' ∧
        r.session.Carries ∧ s'.Carries := by
  have hours : (build (talker .active) ⟨fun i ↦ i, 0⟩).isOk = true := by decide +kernel
  have htheirs : (build (talker .passive) ⟨fun i ↦ i + 7, 0⟩).isOk = true := by decide +kernel
  cases h : build (talker .active) ⟨fun i ↦ i, 0⟩ with
  | error e =>
    rw [h] at hours
    cases hours
  | ok ours =>
    cases h' : build (talker .passive) ⟨fun i ↦ i + 7, 0⟩ with
    | error e =>
      rw [h'] at htheirs
      cases htheirs
    | ok theirs =>
      obtain ⟨offer, answer, hoffer, hanswer, happlied, hlen, hagrees, hcarries⟩ :=
        first_exchange_agrees h h' (suits_talker _ _) {} {} {}
      have hfew : (talker .active).handlers.length ≤ Mid.indexBound := by decide +kernel
      exact ⟨ours, theirs, offer, answer, rfl, rfl, hoffer, hanswer, happlied, hlen, hagrees,
        hcarries hfew⟩

end Session

end OfferAnswer
