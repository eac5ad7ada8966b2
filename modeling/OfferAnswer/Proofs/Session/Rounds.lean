import OfferAnswer.Proofs.Session.FirstRound

/-!
# Renegotiation settles

Two sessions negotiate again and again, the same one offering each time, and nothing else is done to
them. The first round decides everything. The second repeats its answer, its outcome and its
endpoints, and differs in one thing at most: sections that were refused are no longer offered but
passed on as rejections, in a description of the next version. From then on every round is the one
before, to the letter.

The shared ports are those of the world. Others may take and give back ports between any two calls,
so each call of each round is given ports of its own.

## Distinct identifiers

All this is for offers of sections with distinct identifiers, and a session makes no other, up to
`Mid.indexBound` handlers. A machine cannot hold as many. Beyond that number identifiers are random
and may collide, and when one of two sections of an identifier is rejected, the other loses its
endpoint, so that the next round has to find a new one.
-/

namespace OfferAnswer

/-- The shared ports at the calls of a round. -/
structure RoundPorts where
  /-- When the offer is made. -/
  offering : PortAllocator := {}
  /-- When it is answered. -/
  answering : PortAllocator := {}
  /-- When the answer is applied. -/
  applying : PortAllocator := {}

/-- What comes of a round. -/
structure Round where
  /-- The offer. -/
  offer : Description
  /-- The answer. -/
  answer : Description
  /-- The offerer in the end. -/
  ours : Session
  /-- The answerer in the end. -/
  theirs : Session
  /-- The shared ports as the calls have left them. -/
  ports : RoundPorts

namespace Session

/-- A round: a session offers, another one answers, and the first applies the answer. -/
def round (ours theirs : Session) (ports : RoundPorts) : Except NegotiationError Round :=
  match ours.generateOffer ports.offering with
  | ⟨.error e, _, _⟩ => .error e
  | ⟨.ok offer, ours, offering⟩ =>
    match theirs.processOffer ports.answering offer with
    | ⟨.error e, _, _⟩ => .error e
    | ⟨.ok answer, theirs, answering⟩ =>
      match ours.processAnswer ports.applying answer with
      | ⟨.error e, _, _⟩ => .error e
      | ⟨.ok (), ours, applying⟩ =>
        .ok ⟨offer, answer, ours, theirs, ⟨offering, answering, applying⟩⟩

/-- What comes of a round after others, which are counted from 0. -/
def rounds (ours theirs : Session) (ports : Nat → RoundPorts) : Nat → Except NegotiationError Round
  | 0 => round ours theirs (ports 0)
  | n + 1 =>
    match rounds ours theirs ports n with
    | .error e => .error e
    | .ok r => round r.ours r.theirs (ports (n + 1))

end Session

/-- A round that repeats another: the same offer and the same answer, versions included, the same
outcomes, and the same endpoints with the same ports. -/
structure Round.Repeats (r' r : Round) : Prop where
  /-- The offer is the same. -/
  offer_eq : r'.offer = r.offer
  /-- So is the answer. -/
  answer_eq : r'.answer = r.answer
  /-- The offerer has the same outcome, -/
  outcome_eq : r'.ours.negotiated = r.ours.negotiated
  /-- and so has the answerer. -/
  outcome_eq' : r'.theirs.negotiated = r.theirs.negotiated
  /-- The endpoints of the offerer are where they were, -/
  outline_eq : r'.ours.transport.outline = r.ours.transport.outline
  /-- and so are those of the answerer. -/
  outline_eq' : r'.theirs.transport.outline = r.theirs.transport.outline

namespace Session

variable {ours theirs ours' theirs' : Session} {offer answer : Description} {r r' : Round}

theorem round_eq {ports left : RoundPorts} {sent : Session}
    (hoffer : ours.generateOffer ports.offering = ⟨.ok offer, sent, left.offering⟩)
    (hanswer : theirs.processOffer ports.answering offer = ⟨.ok answer, theirs', left.answering⟩)
    (happlied : sent.processAnswer ports.applying answer = ⟨.ok (), ours', left.applying⟩) :
    round ours theirs ports = .ok ⟨offer, answer, ours', theirs', left⟩ := by
  rw [round, hoffer]
  dsimp only
  rw [hanswer]
  dsimp only
  rw [happlied]

/-! ## The next round -/

/-- What a round leaves when its sessions are in step in the end. -/
def Stands (r : Round) : Prop := InStep r.ours r.theirs r.offer r.answer

/-- One round after another, both in step: the offer restates the last one, and nothing else
changes. -/
structure Follows (r' r : Round) : Prop where
  /-- The sessions stay in step. -/
  stands : Stands r'
  /-- The offer restates the last one. -/
  offer_eq : r'.offer = r.ours.reoffer r.offer
  /-- The answer is the same. -/
  answer_eq : r'.answer = r.answer
  /-- The offerer is what it was, -/
  persists : Persists r.ours r'.ours
  /-- and so is the answerer. -/
  persists' : Persists r.theirs r'.theirs

/-- Sessions in step do the next round, and neither take nor give back ports. -/
theorem Stands.next (h : Stands r) (ports : RoundPorts) :
    ∃ r', round r.ours r.theirs ports = .ok r' ∧ r'.ports = ports ∧ Follows r' r := by
  obtain ⟨ours', theirs', hoffer, hanswer, happlied, hours, htheirs, hstep⟩ :=
    InStep.next_round h ports.offering ports.answering ports.applying
  exact ⟨_, round_eq hoffer hanswer happlied, rfl, hstep, rfl, rfl, hours, htheirs⟩

/-- A round repeats the one before, if restating its offer changes nothing. -/
theorem Follows.repeats (h : Follows r' r) (hstands : Stands r)
    (hsame : restate r.ours.negotiated r.offer.sections = r.offer.sections) : r'.Repeats r where
  offer_eq := h.offer_eq.trans (hstands.offered.reoffer_eq_self hsame)
  answer_eq := h.answer_eq
  outcome_eq := h.persists.negotiated_eq
  outcome_eq' := h.persists'.negotiated_eq
  outline_eq := h.persists.outline_eq
  outline_eq' := h.persists'.outline_eq

/-- After a round that followed another, restating changes nothing. -/
theorem Follows.restate_eq_self (h : Follows r' r) :
    restate r'.ours.negotiated r'.offer.sections = r'.offer.sections := by
  rw [h.offer_eq, sections_reoffer, h.persists.negotiated_eq]
  exact restate_restate _ _

theorem Stands.restate_eq_self (h : Stands r)
    (hall : ∀ a ∈ r.answer.sections, a.isRejected = false) :
    restate r.ours.negotiated r.offer.sections = r.offer.sections := by
  apply Session.restate_eq_self h.offered.length_eq
  intro n hn
  obtain ⟨i, hn⟩ := List.mem_iff_getElem?.mp hn
  obtain ⟨o, a, n', n'', -, ha, hn', -, hpair, -⟩ :=
    InStep.exists_pair h (List.getElem?_eq_some_iff.mp hn).1
  obtain rfl := Option.some.inj (hn'.symm.trans hn)
  rw [hpair.rejected_eq]
  exact hall a (List.mem_of_getElem? ha)

/-! ## All rounds -/

variable {c c' : SessionConfig} {e e' : Entropy}

theorem exists_first_round (hours : build c e = .ok ours) (htheirs : build c' e' = .ok theirs)
    (hsuits : c.Suits c') (hbound : c.handlers.length ≤ Mid.indexBound) (ports : RoundPorts) :
    ∃ r, round ours theirs ports = .ok r ∧ Stands r := by
  obtain ⟨x, hoffer, hanswer, -, hnodup⟩ :=
    exists_exchange hours htheirs hsuits ports.offering ports.answering
  have hsound := sound_build hours
  obtain ⟨run, happlied⟩ := processAnswer_ok hsound x ports.applying
  have hdone := (hsound.generateOffer ports.offering).processAnswer ports.applying x.answer
  have hanswered := (sound_build htheirs).processOffer ports.answering x.offer
  rw [hoffer, happlied] at hdone
  rw [hanswer] at hanswered
  have hopens : x.Opens := by
    obtain ⟨handlers, -, rfl⟩ := build_eq hours
    obtain ⟨handlers', -, rfl⟩ := build_eq htheirs
    exact ⟨rfl, rfl, hnodup hbound, (trusts_of_suits hsuits rfl rfl).2⟩
  let left : RoundPorts :=
    ⟨x.offering.place.ports, x.answering.concluded.2, (run.concluded ports.applying).2⟩
  have hround : round ours theirs ports = .ok ⟨x.offer, x.answer, (run.concluded ports.applying).1,
      x.answering.concluded.1, left⟩ := round_eq hoffer hanswer happlied
  exact ⟨_, hround, Exchange.inStep hopens run ports.applying hdone hanswered⟩

theorem exists_rounds (hours : build c e = .ok ours) (htheirs : build c' e' = .ok theirs)
    (hsuits : c.Suits c') (hbound : c.handlers.length ≤ Mid.indexBound) (ports : Nat → RoundPorts)
    (n : Nat) : ∃ r, rounds ours theirs ports n = .ok r ∧ Stands r := by
  induction n with
  | zero => exact exists_first_round hours htheirs hsuits hbound (ports 0)
  | succ n ih =>
    obtain ⟨r, hr, hstands⟩ := ih
    obtain ⟨r', hr', -, hfollows⟩ := hstands.next (ports (n + 1))
    refine ⟨r', ?_, hfollows.stands⟩
    rw [rounds, hr]
    exact hr'

/-- **Renegotiation reaches a fixpoint.** Two new sessions negotiate over and over, one of them
offering in every round, whatever their configurations, as long as these suit each other, and
whatever happens to the shared ports in between. Every call of every round succeeds. From the third
round on, a round repeats the one before: its offer and its answer are the same to the letter,
versions included, and so are the outcomes, the endpoints and their ports. If the first answer
rejects nothing, so does the second round. No round after the first takes or gives back a port. -/
theorem renegotiation_settles (hours : build c e = .ok ours) (htheirs : build c' e' = .ok theirs)
    (hsuits : c.Suits c') (hbound : c.handlers.length ≤ Mid.indexBound) (ports : Nat → RoundPorts) :
    ∃ r : Nat → Round, (∀ n, rounds ours theirs ports n = .ok (r n)) ∧
      (∀ n, (r (n + 2)).Repeats (r (n + 1))) ∧
      ((∀ a ∈ (r 0).answer.sections, a.isRejected = false) → (r 1).Repeats (r 0)) ∧
      ∀ n, (r (n + 1)).ports = ports (n + 1) := by
  choose r hr hstands using exists_rounds hours htheirs hsuits hbound ports
  have hnext : ∀ n, (r (n + 1)).ports = ports (n + 1) ∧ Follows (r (n + 1)) (r n) := by
    intro n
    obtain ⟨r', hr', hports, hfollows⟩ := (hstands n).next (ports (n + 1))
    have hround := hr (n + 1)
    rw [rounds, hr n] at hround
    obtain rfl := Except.ok.inj (hr'.symm.trans hround)
    exact ⟨hports, hfollows⟩
  refine ⟨r, hr, ?_, ?_, fun n ↦ (hnext n).1⟩
  · intro n
    exact (hnext (n + 1)).2.repeats (hstands (n + 1)) (hnext n).2.restate_eq_self
  · intro hall
    exact (hnext 0).2.repeats (hstands 0) ((hstands 0).restate_eq_self hall)

/-- The second offer may be a new one: here the peer has no data channels, and the rejected section
is passed on in a second version. -/
example : ((build { handlers := [.sctp {}] } ⟨fun i ↦ i, 0⟩).toOption.bind fun ours ↦
    (build { handlers := [.defaultAudio] } ⟨fun i ↦ i + 7, 0⟩).toOption.map fun theirs ↦
      [0, 1].map fun n ↦ (rounds ours theirs (fun _ ↦ {}) n).toOption.map fun r ↦
        (r.offer.session.version, r.answer.session.version)) =
          some [some (1, 1), some (2, 1)] := by
  decide +kernel

/-- Two sessions for audio and data channels reject nothing: every round repeats the one before. -/
theorem talkers_settle : ∃ (ours theirs : Session) (r : Nat → Round),
    build (talker .active) ⟨fun i ↦ i, 0⟩ = .ok ours ∧
      build (talker .passive) ⟨fun i ↦ i + 7, 0⟩ = .ok theirs ∧
      (∀ n, rounds ours theirs (fun _ ↦ {}) n = .ok (r n)) ∧ ∀ n, (r (n + 1)).Repeats (r n) := by
  have hanswered : ((build (talker .active) ⟨fun i ↦ i, 0⟩).toOption.bind fun ours ↦
      (build (talker .passive) ⟨fun i ↦ i + 7, 0⟩).toOption.bind fun theirs ↦
        (rounds ours theirs (fun _ ↦ {}) 0).toOption.map fun r ↦
          r.answer.sections.map Section.isRejected) = some [false, false] := by
    decide +kernel
  obtain ⟨ours, hours, hanswered⟩ := Option.bind_eq_some_iff.mp hanswered
  obtain ⟨theirs, htheirs, hanswered⟩ := Option.bind_eq_some_iff.mp hanswered
  have hok {x : Except NegotiationError Session} {s : Session} (h : x.toOption = some s) :
      x = .ok s := by
    cases x with
    | error e => cases h
    | ok s' => exact congrArg Except.ok (Option.some.inj h)
  have hfew : (talker .active).handlers.length ≤ Mid.indexBound := by decide +kernel
  obtain ⟨r, hr, hlater, hsecond, -⟩ :=
    renegotiation_settles (hok hours) (hok htheirs) (suits_talker _ _) hfew fun _ ↦ {}
  refine ⟨ours, theirs, r, hok hours, hok htheirs, hr, ?_⟩
  intro n
  cases n with
  | succ n => exact hlater n
  | zero =>
    apply hsecond
    intro a ha
    rw [hr 0] at hanswered
    have hrejections : (r 0).answer.sections.map Section.isRejected = [false, false] :=
      Option.some.inj hanswered
    have hmem := List.mem_map_of_mem (f := Section.isRejected) ha
    rw [hrejections] at hmem
    simpa using hmem

end Session

end OfferAnswer
