import OfferAnswer.Proofs.Session.Channels
import OfferAnswer.Proofs.Session.Commit
import OfferAnswer.Session.Accept

/-!
# Applying an answer, stage by stage

The answer is checked, every section is settled, endpoints are secured, and the outcome is
committed. Checking and settling can fail, and they take nothing. `Accepting` holds what settling
produced.
-/

namespace OfferAnswer

namespace Session

variable {s : Session} {pending : PendingOffer} {answer : Description}

/-! ## Settling a section -/

theorem securedSetup_ne_actPass {i : Nat} {mid : Mid} {a : Section} {setup : Setup}
    (h : s.securedSetup answer i mid a = .ok (some setup)) : setup ≠ .actPass := by
  rw [securedSetup] at h
  split at h
  · cases h
  · cases hparams : s.checkRemoteParams answer i mid with
    | error e =>
      rw [hparams] at h
      cases h
    | ok _ =>
      rw [hparams] at h
      change s.settledSetup answer i mid = _ at h
      rw [settledSetup] at h
      split at h
      · cases h
      · dsimp only at h
        split at h
        · rename_i hresolve
          cases h
          exact Setup.ne_actPass_of_resolve hresolve
        · cases h

/-- The identifier of a section of our offer. -/
def offeredMid (i : Nat) (o : Section) : Mid := o.mid?.getD (Mid.ofIndex i)

/-- All that accepting a section can do: refuse it, or take the codec of its handler and the settled
setup. -/
theorem acceptSection_cases {handler : MediaHandler} {id : EndpointId} {i : Nat} {mid : Mid}
    {o a : Section} {n : NegotiatedMedia} {x : Option (EndpointId × Setup)}
    (h : s.acceptSection handler id answer i mid o a = .ok (n, x)) :
    (n = .refused mid o ∧ x = none) ∨
      ∃ codec setup, s.securedSetup answer i mid a = .ok setup ∧
        n = ⟨mid, o.kind, a.direction.invert, codec, o.proto, some id, false⟩ ∧
        x = setup.map fun setup ↦ (id, setup) := by
  rw [acceptSection] at h
  split at h
  · split at h
    · cases h
      exact Or.inl ⟨rfl, rfl⟩
    · cases h
  · rename_i codec _
    cases hsetup : s.securedSetup answer i mid a with
    | error e =>
      rw [hsetup] at h
      cases h
    | ok setup =>
      rw [hsetup] at h
      cases h
      exact Or.inr ⟨codec, setup, rfl, rfl, rfl⟩

theorem settleSection_of_rejected {i : Nat} {o a : Section} (hrej : a.isRejected = true) :
    s.settleSection pending answer i o a = .ok (.refused (offeredMid i o) o, none) := by
  rw [settleSection, hrej, Bool.or_true]
  dsimp only [offeredMid]
  split <;> rfl

theorem settleSection_of_accepted {i : Nat} {o a : Section} {mid : Mid} {handler : MediaHandler}
    {id : EndpointId} {codec : Option Codec} {asked : Option Setup} (hmid : offeredMid i o = mid)
    (hhandler : s.handler? (pending.handlers[i]?).join = some handler)
    (hid : s.transport.carrier? mid = some id) (horej : o.isRejected = false)
    (hrej : a.isRejected = false) (hbundled : isUnbundled (pending.offer.session.bundle?.getD [])
      (answer.session.bundle?.getD []) mid = false)
    (hcodec : handler.processAnswer o a = .ok codec)
    (hasked : s.securedSetup answer i mid a = .ok asked) :
    s.settleSection pending answer i o a =
      .ok (⟨mid, o.kind, a.direction.invert, codec, o.proto, some id, false⟩,
        asked.map fun setup ↦ (id, setup)) := by
  rw [offeredMid] at hmid
  rw [settleSection, hmid, hhandler, hid, horej, hrej]
  dsimp only
  rw [Bool.or_self, if_neg Bool.false_ne_true, hbundled, if_neg Bool.false_ne_true, acceptSection,
    hcodec]
  dsimp only
  rw [hasked]
  rfl

/-- All that settling a section can do: refuse it, or accept it on the endpoint that carries it. -/
theorem settleSection_cases {i : Nat} {o a : Section} {n : NegotiatedMedia}
    {x : Option (EndpointId × Setup)} (h : s.settleSection pending answer i o a = .ok (n, x)) :
    (n = .refused (offeredMid i o) o ∧ x = none) ∨
      ∃ id codec setup, s.transport.carrier? (offeredMid i o) = some id ∧
        s.securedSetup answer i (offeredMid i o) a = .ok setup ∧
        n = ⟨offeredMid i o, o.kind, a.direction.invert, codec, o.proto, some id, false⟩ ∧
        x = setup.map fun setup ↦ (id, setup) := by
  unfold settleSection at h
  dsimp only at h
  split at h
  · rename_i handler id _ hcarrier
    split at h
    · cases h
      exact Or.inl ⟨rfl, rfl⟩
    · split at h
      · cases h
        exact Or.inl ⟨rfl, rfl⟩
      · rcases acceptSection_cases h with hrefused | ⟨codec, setup, hsetup, hn, hx⟩
        · exact Or.inl hrefused
        · exact Or.inr ⟨id, codec, setup, hcarrier, hsetup, hn, hx⟩
  · cases h
    exact Or.inl ⟨rfl, rfl⟩

/-- Settled sections, one by one: each has its outcome, and what is to be secured are the endpoints
that they ask for. -/
theorem settleSections_spec {i : Nat} {pairs : List (Section × Section)}
    {outcomes : List NegotiatedMedia × List (EndpointId × Setup)}
    (h : s.settleSections pending answer i pairs = .ok outcomes) :
    outcomes.1.length = pairs.length ∧
      (∀ (j : Nat) n, outcomes.1[j]? = some n → ∃ p x, pairs[j]? = some p ∧
        s.settleSection pending answer (i + j) p.1 p.2 = .ok (n, x)) ∧
      ∀ x, x ∈ outcomes.2 ↔ ∃ (j : Nat) (p : Section × Section) (n : NegotiatedMedia),
        pairs[j]? = some p ∧ s.settleSection pending answer (i + j) p.1 p.2 = .ok (n, some x) := by
  induction pairs generalizing i outcomes with
  | nil =>
    cases h
    exact ⟨rfl, fun _ _ hn ↦ absurd hn (by simp),
      fun _ ↦ ⟨fun hx ↦ absurd hx List.not_mem_nil, fun ⟨_, _, _, hp, _⟩ ↦ absurd hp (by simp)⟩⟩
  | cons p pairs ih =>
    rw [settleSections] at h
    cases hone : s.settleSection pending answer i p.1 p.2 with
    | error e =>
      rw [hone] at h
      cases h
    | ok one =>
      cases hrest : s.settleSections pending answer (i + 1) pairs with
      | error e =>
        rw [hone] at h
        dsimp only at h
        rw [hrest] at h
        cases h
      | ok rest =>
        rw [hone] at h
        dsimp only at h
        rw [hrest] at h
        cases h
        obtain ⟨hlen, hget, hmem⟩ := ih hrest
        refine ⟨congrArg (· + 1) hlen, fun j n hn ↦ ?_, fun x ↦ ?_⟩
        · cases j with
          | zero =>
            cases hn
            exact ⟨p, one.2, rfl, hone⟩
          | succ j =>
            obtain ⟨p', x, hp', hsettle⟩ := hget j n hn
            exact ⟨p', x, hp', by rwa [Nat.add_right_comm] at hsettle⟩
        · rw [List.mem_append, Option.mem_toList, hmem]
          constructor
          · rintro (hx | ⟨j, p', n, hp', hsettle⟩)
            · exact ⟨0, p, one.1, rfl, hx ▸ hone⟩
            · exact ⟨j + 1, p', n, hp', by rwa [Nat.add_right_comm] at hsettle⟩
          · rintro ⟨j, p', n, hp', hsettle⟩
            -- the first section asks for itself, the others by induction
            cases j with
            | zero =>
              cases hp'
              rw [Nat.add_zero, hone] at hsettle
              exact Or.inl (congrArg Prod.snd (Except.ok.inj hsettle))
            | succ j => exact Or.inr ⟨j, p', n, hp', by rwa [Nat.add_right_comm]⟩

theorem settleSections_ok {i : Nat} {pairs : List (Section × Section)}
    (h : ∀ (j : Nat) p, pairs[j]? = some p →
      ∃ outcome, s.settleSection pending answer (i + j) p.1 p.2 = .ok outcome) :
    ∃ outcomes, s.settleSections pending answer i pairs = .ok outcomes := by
  induction pairs generalizing i with
  | nil => exact ⟨_, rfl⟩
  | cons p pairs ih =>
    obtain ⟨one, hone⟩ := h 0 p rfl
    obtain ⟨rest, hrest⟩ := ih (i := i + 1) fun j p' hp' ↦ by
      rw [Nat.add_right_comm]
      exact h (j + 1) p' hp'
    refine ⟨(one.1 :: rest.1, one.2.toList ++ rest.2), ?_⟩
    rw [Nat.add_zero] at hone
    rw [settleSections, hone]
    dsimp only
    rw [hrest]
    rfl

end Session

/-! ## The stages -/

/-- What settling produces, once the answer as a whole is found to be in order. -/
structure Accepting (s : Session) (pending : PendingOffer) (answer : Description) where
  /-- The outcome, and the endpoints to secure. -/
  outcomes : List NegotiatedMedia × List (EndpointId × Setup)
  /-- The answer as a whole is in order. -/
  checked : s.checkAnswer pending.offer answer = .ok ()
  /-- Every section was settled. -/
  settle_eq : s.settleSections pending answer 0
    (pending.offer.sections.zip answer.sections) = .ok outcomes

namespace Accepting

open Session

variable {s : Session} {pending : PendingOffer} {answer : Description}
  (run : Accepting s pending answer)

def channels : List Channel := run.outcomes.2.filterMap s.channelFor?

def secured : Session := { s with transport := setChannels s.transport run.channels }

/-- The session in the end, and the ports. -/
def concluded (ports : PortAllocator) : Session × PortAllocator :=
  run.secured.concludeAccept ports pending answer run.outcomes.1

theorem secured_settled :
    ∀ x ∈ run.outcomes.2, s.transport.isAlive x.1 = true ∧ x.2 ≠ .actPass := by
  intro x hx
  obtain ⟨j, p, n, -, h⟩ := ((settleSections_spec run.settle_eq).2.2 x).mp hx
  rcases settleSection_cases h with ⟨-, h⟩ | ⟨id, codec, setup, hcarrier, hsetup, -, h⟩
  · cases h
  · cases setup with
    | none => cases h
    | some setup =>
      cases h
      exact ⟨TransportBinding.isAlive_of_carrier? hcarrier, securedSetup_ne_actPass hsetup⟩

theorem outline_secured : run.secured.transport.outline = s.transport.outline :=
  outline_setChannels s.transport run.channels

/-- The session in the end is one whose outcome was committed, with the answer stored. -/
theorem concluded_spec (hexcl : s.transport.Exclusive) (ports : PortAllocator) : ∃ s₁ state,
    Committed run.secured s₁ answer run.outcomes.1 pending.handlers ∧
      (state = .answerProcessed ∨ state = .established) ∧
      (run.concluded ports).1 =
        { s₁ with theirs := some answer, settled := .answerProcessed, state := state } := by
  have hcommit := committed_commit (hexcl.congr run.outline_secured) ports answer answer
    run.outcomes.1 pending.handlers
  rw [concluded, concludeAccept]
  generalize run.secured.commit _ _ _ _ _ = result at hcommit ⊢
  obtain ⟨state, hstate, hsettle⟩ := Session.settle_eq
    { result.1 with
      theirs := some answer
      settled := .answerProcessed
      state := .answerProcessed }
  exact ⟨result.1, state, hcommit, hstate.imp_right And.right, hsettle⟩

theorem negotiated_concluded (hexcl : s.transport.Exclusive) (ports : PortAllocator) :
    (run.concluded ports).1.negotiated = run.outcomes.1 := by
  obtain ⟨s₁, state, hcommit, -, hs⟩ := run.concluded_spec hexcl ports
  rw [hs]
  exact hcommit.negotiated_eq

end Accepting

/-! ## The operation -/

namespace Session

variable {s : Session} {pending : PendingOffer} {answer : Description}

/-- The session while it applies the answer to its offer. -/
def accepting (s : Session) : Session := { s with pending := none }

theorem applyAnswer_ok (hpem : s.HasPem) (ports : PortAllocator)
    (run : Accepting s pending answer) : s.applyAnswer ports pending answer =
      ⟨.ok (), (run.concluded ports).1, (run.concluded ports).2⟩ := by
  obtain ⟨hprepare, happly⟩ := channels_ok hpem run.secured_settled
  rw [applyAnswer, run.checked]
  dsimp only
  rw [run.settle_eq]
  dsimp only
  rw [hprepare]
  dsimp only
  rw [happly]
  rfl

/-- The reply to an answer, once the offer is put back after an error. -/
def repending (pending : PendingOffer) : Reply Unit → Reply Unit
  | ⟨.error e, after, ports⟩ => ⟨.error e, { after with pending := some pending }, ports⟩
  | reply => reply

theorem processAnswer_eq (hstate : s.state = .offerGenerated) (hpending : s.pending = some pending)
    (ports : PortAllocator) (answer : Description) : s.processAnswer ports answer =
      repending pending (s.accepting.applyAnswer ports pending answer) := by
  rw [processAnswer]
  split
  · rename_i pending' _ hpending'
    rw [hpending, Option.some_inj] at hpending'
    subst hpending'
    rfl
  · rename_i hnone
    exact absurd hpending (hnone pending hstate)

/-- **All that processing an answer can do**: refuse it and leave everything as it was, or apply
it. -/
theorem processAnswer_cases (hpem : s.HasPem) (ports : PortAllocator) (answer : Description) :
    (∃ e, s.processAnswer ports answer = s.unchanged ports (.error e)) ∨
      s.state = .offerGenerated ∧ ∃ pending, s.pending = some pending ∧
        ∃ run : Accepting s.accepting pending answer, s.processAnswer ports answer =
          ⟨.ok (), (run.concluded ports).1, (run.concluded ports).2⟩ := by
  by_cases hplace : s.state = .offerGenerated ∧ ∃ pending, s.pending = some pending
  · obtain ⟨hstate, pending, hpending⟩ := hplace
    -- the session in between, with its offer put back, is the session before
    have hback : { s.accepting with pending := some pending } = s := by
      rw [← hpending]
      rfl
    rw [processAnswer_eq hstate hpending]
    cases hcheck : s.accepting.checkAnswer pending.offer answer with
    | error e =>
      refine Or.inl ⟨e, ?_⟩
      rw [applyAnswer, hcheck]
      exact congrArg (Reply.mk _ · ports) hback
    | ok _ =>
      cases hsettle : s.accepting.settleSections pending answer 0
        (pending.offer.sections.zip answer.sections) with
      | error e =>
        refine Or.inl ⟨e, ?_⟩
        rw [applyAnswer, hcheck]
        dsimp only
        rw [hsettle]
        exact congrArg (Reply.mk _ · ports) hback
      | ok outcomes =>
        let run : Accepting s.accepting pending answer := ⟨outcomes, hcheck, hsettle⟩
        refine Or.inr ⟨hstate, pending, hpending, run, ?_⟩
        rw [applyAnswer_ok (s := s.accepting) hpem ports run]
        rfl
  · refine Or.inl ⟨s.wrongState "process_answer", ?_⟩
    rw [processAnswer]
    split
    · rename_i pending hstate hpending
      exact absurd ⟨hstate, pending, hpending⟩ hplace
    · rfl

end Session

end OfferAnswer
