import OfferAnswer.Proofs.Session.Listening

/-!
# What becomes of the offered direction

An offerer settles on the direction of the answer, seen from its own side, and on nothing less. So
it does no more than it has offered if the answer keeps to the rule of answers,
`Direction.answerTo`, and only then: nothing checks the answer against the direction that was
offered, as formats are checked.
-/

namespace OfferAnswer

/-! ## Directions -/

namespace Direction

/-- Whether a direction sends only if another one does, and receives only if the other one does. -/
def Within (d offered : Direction) : Prop :=
  (d.isSending = true → offered.isSending = true) ∧
    (d.isReceiving = true → offered.isReceiving = true)

instance (d offered : Direction) : Decidable (d.Within offered) :=
  inferInstanceAs (Decidable (_ ∧ _))

/-- What the rule allows in an answer is what stays within the offer: any such direction is the one
that its answerer is prepared for. -/
theorem within_invert_iff (offered answered : Direction) :
    answered.invert.Within offered ↔ ∃ prepared, answered = answerTo offered prepared := by
  constructor
  · intro h
    refine ⟨answered, ?_⟩
    revert h
    cases offered <;> cases answered <;> decide
  · rintro ⟨prepared, rfl⟩
    cases offered <;> cases prepared <;> decide

end Direction

/-! ## Settled sections -/

namespace Accepting

open Session

variable {s : Session} {pending : PendingOffer} {answer : Description}

theorem direction_eq (run : Accepting s pending answer) {i : Nat} {n : NegotiatedMedia}
    (hn : run.outcomes.1[i]? = some n) (hrej : n.rejected = false) :
    ∃ o a, pending.offer.sections[i]? = some o ∧ answer.sections[i]? = some a ∧
      n.direction = a.direction.invert := by
  obtain ⟨⟨o, a⟩, x, hpair, hsettle⟩ := (settleSections_spec run.settle_eq).2.1 i n hn
  obtain ⟨ho, ha⟩ := List.getElem?_zip_eq_some.mp hpair
  refine ⟨o, a, ho, ha, ?_⟩
  rcases settleSection_cases hsettle with ⟨rfl, -⟩ | ⟨id, codec, setup, -, -, rfl, -⟩
  · cases hrej
  · rfl

end Accepting

/-! ## The operation -/

namespace Session

/-- **An accepted section stays within the offered direction if and only if its answer keeps to the
rule.**

The direction is that of the answer in any case. -/
theorem settled_within_offer_iff {s : Session} (hs : s.Reachable) (ports : PortAllocator)
    {pending : PendingOffer} (hpending : s.pending = some pending) {answer : Description}
    (hok : (s.processAnswer ports answer).result = .ok ()) {i : Nat} {n : NegotiatedMedia}
    (hn : (s.processAnswer ports answer).session.negotiated[i]? = some n)
    (hrej : n.rejected = false) :
    ∃ o a, pending.offer.sections[i]? = some o ∧ answer.sections[i]? = some a ∧
      n.direction = a.direction.invert ∧
        (n.direction.Within o.direction ↔
          ∃ prepared, a.direction = Direction.answerTo o.direction prepared) := by
  rcases processAnswer_cases hs.sound.hasPem ports answer with ⟨e, hr⟩ | ⟨-, p, hp, run, hr⟩
  · rw [hr] at hok
    cases hok
  · obtain rfl : pending = p := Option.some_inj.mp (hpending.symm.trans hp)
    rw [hr] at hn
    rw [run.negotiated_concluded hs.sound.exclusive] at hn
    obtain ⟨o, a, ho, ha, hdirection⟩ := run.direction_eq hn hrej
    refine ⟨o, a, ho, ha, hdirection, ?_⟩
    rw [hdirection]
    exact Direction.within_invert_iff o.direction a.direction

/-- Audio in the clear, which is only received. -/
def listenOnly : SessionConfig where
  handlers := [.audio { profile := .avp, codecs := Codec.defaultAudio, direction := .recvOnly }]

/-- A session that has offered to listen. -/
def listening : Session :=
  ((create listenOnly [.rtp ⟨.audio, .avp, Codec.defaultAudio, .recvOnly⟩] ⟨fun i ↦ i, 0⟩).call {}
    .offer).session

theorem reachable_listening : listening.Reachable :=
  .call {} .offer (.build (show build listenOnly ⟨fun i ↦ i, 0⟩ = .ok _ from rfl))

/-- An answer of one audio section that declares a direction. -/
def audioAnswer (d : Direction) : Description where
  session := { id := 1, version := 1 }
  sections := [audioSection "0" ["0"] [.flag d.key]]

theorem listener_hears : ∃ pending o n, listening.pending = some pending ∧
    pending.offer.sections[0]? = some o ∧ o.direction = .recvOnly ∧
    (listening.processAnswer {} (audioAnswer .sendOnly)).result = .ok () ∧
    (listening.processAnswer {} (audioAnswer .sendOnly)).session.negotiated[0]? = some n ∧
    n.rejected = false ∧ n.direction = .recvOnly ∧ n.direction.Within o.direction := by
  have hoffered : listening.pending.map (fun p ↦ p.offer.sections.map (·.direction)) =
      some [.recvOnly] := by
    decide +kernel
  have hok : (listening.processAnswer {} (audioAnswer .sendOnly)).result = .ok () := by
    decide +kernel
  have hsettled : (listening.processAnswer {} (audioAnswer .sendOnly)).session.negotiated[0]?.map
      (fun n ↦ (n.rejected, n.direction)) = some (false, .recvOnly) := by
    decide +kernel
  obtain ⟨pending, hpending, hsections⟩ := Option.map_eq_some_iff.mp hoffered
  obtain ⟨n, hn, hboth⟩ := Option.map_eq_some_iff.mp hsettled
  obtain ⟨hrej, hdirection⟩ := Prod.mk.inj hboth
  obtain ⟨o, a, ho, ha, -, hwithin⟩ :=
    settled_within_offer_iff reachable_listening {} hpending hok hn hrej
  have hoffer : o.direction = .recvOnly := by
    have hget := congrArg (·[0]?) hsections
    rw [List.getElem?_map, ho] at hget
    exact Option.some_inj.mp hget
  have hanswer : a.direction = .sendOnly := by
    obtain rfl : _ = a := Option.some_inj.mp ha
    decide
  refine ⟨pending, o, n, hpending, ho, hoffer, hok, hn, hrej, hdirection, hwithin.mpr ?_⟩
  rw [hoffer, hanswer]
  exact ⟨.sendRecv, rfl⟩

/-- A peer that answers a listener with both directions makes it send. -/
theorem listener_made_to_send :
    ¬∀ (s : Session) (ports : PortAllocator) (pending : PendingOffer) (answer : Description),
      s.Reachable → s.pending = some pending → (s.processAnswer ports answer).result = .ok () →
        ∀ (i : Nat) n o, (s.processAnswer ports answer).session.negotiated[i]? = some n →
          n.kind.isMedia = true → n.rejected = false → pending.offer.sections[i]? = some o →
            n.direction.Within o.direction := by
  intro hnarrowed
  have hoffered : listening.pending.map (fun p ↦ p.offer.sections.map (·.direction)) =
      some [.recvOnly] := by
    decide +kernel
  have hok : (listening.processAnswer {} (audioAnswer .sendRecv)).result = .ok () := by
    decide +kernel
  have hsettled : (listening.processAnswer {} (audioAnswer .sendRecv)).session.negotiated[0]?.map
      (fun n ↦ (n.kind.isMedia, n.rejected, n.direction)) = some (true, false, .sendRecv) := by
    decide +kernel
  obtain ⟨pending, hpending, hsections⟩ := Option.map_eq_some_iff.mp hoffered
  obtain ⟨n, hn, hall⟩ := Option.map_eq_some_iff.mp hsettled
  obtain ⟨hmedia, hrest⟩ := Prod.mk.inj hall
  obtain ⟨hrej, hdirection⟩ := Prod.mk.inj hrest
  obtain ⟨o, ho, hoffer⟩ : ∃ o, pending.offer.sections[0]? = some o ∧ o.direction = .recvOnly := by
    have hget := congrArg (·[0]?) hsections
    rw [List.getElem?_map] at hget
    exact Option.map_eq_some_iff.mp hget
  have hwithin := hnarrowed listening {} pending (audioAnswer .sendRecv) reachable_listening
    hpending hok 0 n o hn hmedia hrej ho
  rw [hdirection, hoffer] at hwithin
  exact absurd hwithin (by decide)

end Session

end OfferAnswer
