import OfferAnswer.Proofs.Session.Carriage
import OfferAnswer.Proofs.Session.Exchange
import OfferAnswer.Proofs.Session.Positional
import OfferAnswer.Proofs.Session.Renegotiation

/-!
# When an offer is refused

An error of `processOffer` refuses the offer as a whole, and every section of it. That is due only
to an offer that breaks the rules of the exchange; what a session merely cannot do costs a section
its port and no more. `OfferFault` and `SectionFault` list what breaks the rules, in terms of the
offer, the configuration and the last outcome.

Nothing else is on the list. The other errors that answering could return, for an endpoint that is
gone or a setup that is open, do not occur in a session that was built and operated, and the shared
ports do not matter at all.
-/

namespace OfferAnswer

namespace Session

variable {s : Session} {remote : Description} {i : Nat} {m : Section}

/-! ## Faults -/

/-- The first handler that takes the protocol and the kind of a section. -/
def taker? (s : Session) (m : Section) : Option MediaHandler := s.handlers.find? (·.takes m)

/-- What is wrong with an offered section, beside a session part. All of it is about sections that
some handler takes. -/
inductive SectionFault (s : Session) (part : SessionPart) (m : Section) : Prop where
  /-- The handler cannot answer, for a reason that concerns more than the section. -/
  | unanswerable {h : MediaHandler} {e : NegotiationError} :
    s.taker? m = some h → h.createAnswer m = .error e → e.isSectionLocal = false →
      SectionFault s part m
  /-- The section is to be secured, and a part of its ICE credentials is declared nowhere. -/
  | noCredentials {h : MediaHandler} {answer : Section} {key : String} :
    s.taker? m = some h → h.createAnswer m = .ok answer → isSecure m.proto = true →
      key ∈ ["ice-ufrag", "ice-pwd"] → m.attr? key = none → part.attr? key = none →
        SectionFault s part m
  /-- The section is to be secured with our certificate, and has no fingerprint that can be read. -/
  | noFingerprint {h : MediaHandler} {answer : Section} :
    s.taker? m = some h → h.createAnswer m = .ok answer → isSecure m.proto = true →
      s.config.certificate.isSome = true →
        ((m.attr? "fingerprint").or (part.attr? "fingerprint")).bind Fingerprint.ofText? = none →
          SectionFault s part m

/-- What is wrong with an offer. -/
inductive OfferFault (s : Session) (remote : Description) : Prop where
  /-- A section has a port but no formats. -/
  | noFormats {m : Section} :
    m ∈ remote.sections → m.isRejected = false → m.formats = [] → OfferFault s remote
  /-- A section has no protocol. -/
  | noProtocol {m : Section} : m ∈ remote.sections → m.proto = "" → OfferFault s remote
  /-- Both sides are ICE lite agents. -/
  | bothLite : s.config.iceLite = true → remote.session.iceLite = true → OfferFault s remote
  /-- Sections that were negotiated are missing. -/
  | tooShort : remote.sections.length < s.negotiated.length → OfferFault s remote
  /-- A section that was negotiated has another identifier. -/
  | renamed {i : Nat} {m : Section} {n : NegotiatedMedia} :
    remote.sections[i]? = some m → s.negotiated[i]? = some n → m.mid?.getD (.ofIndex i) ≠ n.mid →
      OfferFault s remote
  /-- Something is wrong with a section that is not rejected. -/
  | section {m : Section} :
    m ∈ remote.sections → m.isRejected = false → s.SectionFault remote.session m →
      OfferFault s remote

/-- Why a section is not accepted although nothing is wrong with it. -/
inductive SectionObstacle (s : Session) (m : Section) : Prop where
  /-- No handler takes its protocol and kind. -/
  | noHandler : s.taker? m = none → SectionObstacle s m
  /-- None of its formats means a codec of its handler. -/
  | noCodec {h : RtpHandler} :
    s.taker? m = some (.rtp h) → (∀ f ∈ m.formats, h.match? m f = none) → SectionObstacle s m
  /-- It names no SCTP port. -/
  | noPort {h : SctpHandler} :
    s.taker? m = some (.sctp h) → SctpHandler.remotePort? m = none → SectionObstacle s m

end Session

/-! ## Handlers -/

/-- Without a common codec, no attribute is copied. -/
theorem RtpHandler.createAnswer_of_unmatched {h : RtpHandler} {m : Section}
    (hnone : ∀ f ∈ m.formats, h.match? m f = none) :
    ∃ e, h.createAnswer m = .error e ∧ e.isSectionLocal = true := by
  rw [createAnswer]
  split
  · rename_i e hcheck
    exact ⟨e, rfl, Handler.isSectionLocal_of_checkOffer hcheck⟩
  · have hformats : h.commonFormats m m.formats = [] :=
      List.filter_eq_nil_iff.mpr fun f hf ↦ by
        rw [hnone f hf]
        exact Bool.false_ne_true
    rw [answerFormats_eq, hformats]
    exact ⟨_, rfl, rfl⟩

/-- Without a port, no attribute is copied. -/
theorem SctpHandler.createAnswer_of_portless (h : SctpHandler) {m : Section}
    (hnone : remotePort? m = none) :
    ∃ e, h.createAnswer m = .error e ∧ e.isSectionLocal = true := by
  rw [createAnswer]
  split
  · rename_i e hcheck
    exact ⟨e, rfl, Handler.isSectionLocal_of_checkOffer hcheck⟩
  · rw [hnone]
    exact ⟨_, rfl, rfl⟩

namespace Session

variable {s : Session} {remote : Description} {i : Nat} {m : Section}

/-! ## The offer as a whole -/

theorem fault?_eq_none_iff :
    m.fault? = none ↔ (m.isRejected = false → m.formats ≠ []) ∧ m.proto ≠ "" := by
  rw [Section.fault?]
  cases hrej : m.isRejected <;> by_cases hformats : m.formats = [] <;>
    by_cases hproto : m.proto = "" <;> simp [hformats, hproto]

theorem checkConsistent_eq_ok :
    checkConsistent remote = .ok () ↔ ∀ m ∈ remote.sections, m.fault? = none := by
  refine ⟨fun h ↦ ?_, checkConsistent_ok⟩
  rw [← Description.inconsistency?_eq_none]
  rw [checkConsistent] at h
  cases hfault : remote.inconsistency? with
  | none => rfl
  | some e =>
    rw [hfault] at h
    cases h

theorem checkIceLite_eq_ok : s.checkIceLite remote = .ok () ↔
    ¬(s.config.iceLite = true ∧ remote.session.iceLite = true) := by
  rw [checkIceLite, ← Bool.and_eq_true]
  split
  · rename_i hlite
    exact ⟨fun h ↦ (by cases h), fun h ↦ absurd hlite h⟩
  · rename_i hlite
    exact ⟨fun _ ↦ hlite, fun _ ↦ rfl⟩

theorem checkMids_eq_ok : checkMids remote 0 s.negotiated = .ok () ↔
    ∀ (i : Nat) n, s.negotiated[i]? = some n → midAt remote i = n.mid := by
  constructor
  · intro h i n hn
    rw [← midAt_of_checkMids h hn, Nat.zero_add]
  · intro h
    refine checkMids_ok fun i n hn ↦ ?_
    rw [Nat.zero_add]
    exact h i n hn

/-! ## Sections -/

theorem taker?_eq (s : Session) (m : Section) :
    s.taker? m = (s.handlerFor? m).bind fun position ↦ s.handler? (some position) :=
  List.find?_eq_bind_findIdx?_getElem?

theorem checkRemoteParams_eq_ok (hm : remote.sections[i]? = some m) (mid : Mid) :
    s.checkRemoteParams remote i mid = .ok () ↔ (isSecure m.proto = true →
      remote.iceCredentials? i ≠ none ∧
        (s.config.certificate.isSome = true → remote.fingerprint? i ≠ none)) := by
  rw [checkRemoteParams, hm, Option.any_some]
  cases isSecure m.proto <;> cases remote.iceCredentials? i <;>
    cases s.config.certificate.isSome <;> cases remote.fingerprint? i <;> simp

theorem iceCredentials?_eq_none (hm : remote.sections[i]? = some m) :
    remote.iceCredentials? i = none ↔
      ∃ key ∈ ["ice-ufrag", "ice-pwd"], m.attr? key = none ∧ remote.session.attr? key = none := by
  simp only [Description.iceCredentials?, Description.inherited?, hm, Option.bind_some,
    Option.bind_eq_none_iff, Option.map_eq_none_iff, List.mem_cons, List.not_mem_nil, or_false,
    exists_eq_or_imp, exists_eq_left, ← Option.or_eq_none_iff]
  cases (m.attr? "ice-ufrag").or (remote.session.attr? "ice-ufrag") <;> simp

/-! ## Planning -/

theorem not_sectionFault_of_untaken {part : SessionPart} (ht : s.taker? m = none) :
    ¬s.SectionFault part m := by
  rintro (⟨ht', -, -⟩ | ⟨ht', -, -, -, -, -⟩ | ⟨ht', -, -, -, -⟩) <;>
    exact Option.some_ne_none _ (ht'.symm.trans ht)

/-- With a section that its handler cannot answer, the reason decides. -/
theorem sectionFault_of_error {part : SessionPart} {h : MediaHandler} {e : NegotiationError}
    (ht : s.taker? m = some h) (ha : h.createAnswer m = .error e) :
    s.SectionFault part m ↔ e.isSectionLocal = false := by
  constructor
  · rintro (⟨ht', ha', hlocal⟩ | ⟨ht', ha', -, -, -, -⟩ | ⟨ht', ha', -, -, -⟩)
    all_goals
      obtain rfl := Option.some.inj (ht'.symm.trans ht)
      rw [ha] at ha'
      cases ha'
    exact hlocal
  · exact .unanswerable ht ha

/-- With a section that its handler answers, the checks decide. -/
theorem sectionFault_of_ok {h : MediaHandler} {answer : Section}
    (hm : remote.sections[i]? = some m) (ht : s.taker? m = some h)
    (ha : h.createAnswer m = .ok answer) (mid : Mid) :
    s.SectionFault remote.session m ↔ s.checkRemoteParams remote i mid ≠ .ok () := by
  have hfingerprint : remote.fingerprint? i =
      ((m.attr? "fingerprint").or (remote.session.attr? "fingerprint")).bind
        Fingerprint.ofText? := by
    rw [Description.fingerprint?, Description.inherited?, hm]
    rfl
  rw [Ne, checkRemoteParams_eq_ok hm]
  constructor
  · rintro (⟨ht', ha', -⟩ | ⟨-, -, hsecure, hkey, hown, hpart⟩ | ⟨-, -, hsecure, hcert, hnone⟩)
      hparams
    · obtain rfl := Option.some.inj (ht'.symm.trans ht)
      rw [ha] at ha'
      cases ha'
    · exact (hparams hsecure).1 ((iceCredentials?_eq_none hm).mpr ⟨_, hkey, hown, hpart⟩)
    · exact (hparams hsecure).2 hcert (hfingerprint.trans hnone)
  · intro hparams
    simp only [Classical.not_imp, not_and_or, not_not] at hparams
    obtain ⟨hsecure, hice | ⟨hcert, hnone⟩⟩ := hparams
    · obtain ⟨key, hkey, hown, hpart⟩ := (iceCredentials?_eq_none hm).mp hice
      exact .noCredentials ht ha hsecure hkey hown hpart
    · exact .noFingerprint ht ha hsecure hcert (hfingerprint.symm.trans hnone)

theorem planAnswer_of_untaken (remote : Description) (i : Nat) (ht : s.taker? m = none) :
    s.planAnswer remote i m = .ok ⟨midAt remote i, none, .rejected m⟩ := by
  rw [taker?_eq] at ht
  unfold planAnswer
  split
  · rfl
  · split
    · rfl
    · rename_i position hposition
      rw [hposition, Option.bind_some] at ht
      simp only [ht]

theorem planAnswer_of_taken (remote : Description) (i : Nat) (hrej : m.isRejected = false)
    {h : MediaHandler} (ht : s.taker? m = some h) :
    ∃ position, s.planAnswer remote i m =
      match h.createAnswer m with
      | .ok answer => (s.checkRemoteParams remote i (midAt remote i)).map fun () ↦
          ⟨midAt remote i, position, answer⟩
      | .error e =>
        if e.isSectionLocal then .ok ⟨midAt remote i, position, .rejected m⟩ else .error e := by
  rw [taker?_eq] at ht
  obtain ⟨position, hposition, hhandler⟩ := Option.bind_eq_some_iff.mp ht
  refine ⟨position, ?_⟩
  cases ha : h.createAnswer m <;>
    simp only [planAnswer, hrej, Bool.false_eq_true, if_false, hposition, hhandler, ha]

theorem planAnswer_ok_iff (hm : remote.sections[i]? = some m) :
    (∃ q, s.planAnswer remote i m = .ok q) ↔
      (m.isRejected = false → ¬s.SectionFault remote.session m) := by
  cases hrej : m.isRejected with
  | true =>
    rw [planAnswer, hrej]
    exact ⟨fun _ h ↦ Bool.noConfusion h, fun _ ↦ ⟨_, rfl⟩⟩
  | false =>
    cases ht : s.taker? m with
    | none =>
      rw [planAnswer_of_untaken remote i ht]
      exact ⟨fun _ _ ↦ not_sectionFault_of_untaken ht, fun _ ↦ ⟨_, rfl⟩⟩
    | some h =>
      obtain ⟨position, hplan⟩ := planAnswer_of_taken remote i hrej ht
      rw [hplan]
      cases ha : h.createAnswer m with
      | error e =>
        rw [sectionFault_of_error ht ha]
        -- an error that concerns the section alone only rejects it
        cases hlocal : e.isSectionLocal with
        | true => exact ⟨fun _ _ ↦ Bool.noConfusion, fun _ ↦ ⟨_, if_pos hlocal⟩⟩
        | false =>
          constructor
          · rintro ⟨q, hq⟩
            dsimp only at hq
            rw [hlocal] at hq
            cases hq
          · intro h
            exact absurd rfl (h rfl)
      | ok answer =>
        rw [sectionFault_of_ok hm ht ha (midAt remote i)]
        cases s.checkRemoteParams remote i (midAt remote i) <;> simp [Except.map]

theorem planAnswers_ok_iff : (∃ plan, s.planAnswers remote 0 remote.sections = .ok plan) ↔
    ∀ (i : Nat) m, remote.sections[i]? = some m → ∃ q, s.planAnswer remote i m = .ok q := by
  constructor
  · rintro ⟨plan, hplan⟩ i m hm
    obtain ⟨hlen, hget⟩ := planAnswers_forall₂ hplan
    have hi : i < plan.length := by
      rw [hlen]
      exact (List.getElem?_eq_some_iff.mp hm).1
    obtain ⟨m', hm', hq⟩ := hget i _ (List.getElem?_eq_getElem hi)
    rw [hm, Option.some_inj] at hm'
    rw [Nat.zero_add, ← hm'] at hq
    exact ⟨_, hq⟩
  · intro h
    refine planAnswers_ok fun i m hm ↦ ?_
    rw [Nat.zero_add]
    exact h i m hm

/-! ## The operation -/

/-- Nothing is wrong with an offer if it passes the checks and every section can be planned. -/
theorem not_offerFault_iff : ¬s.OfferFault remote ↔ s.checkOffer remote = .ok () ∧
    ∃ plan, s.planAnswers remote 0 remote.sections = .ok plan := by
  rw [checkOffer_eq_ok, checkConsistent_eq_ok, checkIceLite_eq_ok, checkMids_eq_ok,
    planAnswers_ok_iff]
  constructor
  · intro h
    refine ⟨⟨?_, ?_, ?_, ?_⟩, ?_⟩
    · intro m hm
      exact fault?_eq_none_iff.mpr
        ⟨fun hrej hformats ↦ h (.noFormats hm hrej hformats),
          fun hproto ↦ h (.noProtocol hm hproto)⟩
    · exact fun hlite ↦ h (.bothLite hlite.1 hlite.2)
    · exact Nat.not_lt.mp fun hlen ↦ h (.tooShort hlen)
    · intro i n hn
      by_contra hne
      -- the section is there, since an offer that is too short has another fault
      have hi : i < remote.sections.length :=
        Nat.lt_of_lt_of_le (List.getElem?_eq_some_iff.mp hn).1
          (Nat.not_lt.mp fun hlen ↦ h (.tooShort hlen))
      have hm := List.getElem?_eq_getElem hi
      exact h (.renamed hm hn (midAt_eq hm ▸ hne))
    · intro i m hm
      exact (planAnswer_ok_iff hm).mpr fun hrej hfault ↦
        h (.section (List.mem_of_getElem? hm) hrej hfault)
  · rintro ⟨⟨hconsistent, hlite, hlen, hmids⟩, hplan⟩ hfault
    rcases hfault with ⟨hm, hrej, hformats⟩ | ⟨hm, hproto⟩ | ⟨hours, htheirs⟩ | ⟨hshort⟩ |
      ⟨hm, hn, hne⟩ | ⟨hm, hrej, hfault⟩
    · exact (fault?_eq_none_iff.mp (hconsistent _ hm)).1 hrej hformats
    · exact (fault?_eq_none_iff.mp (hconsistent _ hm)).2 hproto
    · exact hlite ⟨hours, htheirs⟩
    · exact absurd hlen (Nat.not_le.mpr hshort)
    · exact hne ((midAt_eq hm).symm.trans (hmids _ _ hn))
    · obtain ⟨i, hi⟩ := List.mem_iff_getElem?.mp hm
      exact (planAnswer_ok_iff hi).mp (hplan i _ hi) hrej hfault

theorem planAnswers_receiving (s : Session) (remote : Description) (i : Nat) (ms : List Section) :
    s.receiving.planAnswers remote i ms = s.planAnswers remote i ms := by
  induction ms generalizing i with
  | nil => rfl
  | cons m ms ih =>
    rw [planAnswers, planAnswers, ih]
    rfl

/-- What stands between a section and its acceptance is nothing wrong with it. -/
theorem SectionObstacle.not_sectionFault (h : s.SectionObstacle m) (part : SessionPart) :
    ¬s.SectionFault part m := by
  rcases h with ht | ⟨ht, hnone⟩ | ⟨ht, hnone⟩
  · exact not_sectionFault_of_untaken ht
  · obtain ⟨e, he, hlocal⟩ := RtpHandler.createAnswer_of_unmatched hnone
    rw [sectionFault_of_error ht he, hlocal]
    exact Bool.noConfusion
  · rename_i h
    obtain ⟨e, he, hlocal⟩ := h.createAnswer_of_portless hnone
    rw [sectionFault_of_error ht he, hlocal]
    exact Bool.noConfusion

/-- **An offer is refused for its faults** and for nothing else.

Whatever a session that was built has been through, in a state in which it takes an offer: it
refuses the offer if and only if one of `OfferFault` is wrong with it, whichever of the shared ports
are in use. A section without a handler, without a common codec or without an SCTP port has no
fault. -/
theorem offer_refused_iff (hs : s.Reachable)
    (hstate : s.state ∈ [.new, .answerProcessed, .answerGenerated, .established])
    (remote : Description) :
    (∀ ports, (∃ e, (s.processOffer ports remote).result = .error e) ↔ s.OfferFault remote) ∧
      ∀ m, s.SectionObstacle m → ¬s.SectionFault remote.session m := by
  have hsound := hs.sound
  have htakes : takesOffer s.state = true := by
    simp only [List.mem_cons, List.not_mem_nil, or_false] at hstate
    rcases hstate with h | h | h | h <;> rw [h] <;> rfl
  refine ⟨fun ports ↦ ?_, fun m h ↦ h.not_sectionFault _⟩
  -- the state aside, the session that answers is the one before
  have hfault : s.receiving.OfferFault remote ↔ s.OfferFault remote := by
    rw [← not_iff_not, not_offerFault_iff, not_offerFault_iff, planAnswers_receiving]
    rfl
  rw [← hfault, ← not_iff_not, not_offerFault_iff, processOffer_eq htakes]
  constructor
  · intro hgood
    cases hcheck : s.receiving.checkOffer remote with
    | error e =>
      refine absurd ⟨e, ?_⟩ hgood
      rw [answerOffer, hcheck]
      rfl
    | ok _ =>
      refine ⟨rfl, ?_⟩
      cases hplan : s.receiving.planAnswers remote 0 remote.sections with
      | error e =>
        refine absurd ⟨e, ?_⟩ hgood
        rw [answerOffer, hcheck]
        dsimp only
        rw [hplan]
        rfl
      | ok plan => exact ⟨plan, rfl⟩
  · rintro ⟨hcheck, plan, hplan⟩ ⟨e, he⟩
    obtain ⟨run, hrun⟩ := answerOffer_ok (s := s.receiving) hsound.exclusive hsound.hasPem
      hsound.answerSetup_ne ports hcheck hplan
    rw [hrun] at he
    cases he

/-- An offer of a data channel without ICE credentials. -/
def bareOffer : Description where
  session := { id := 1, version := 1 }
  sections :=
    [{ kind := .application, port := 9, proto := "UDP/DTLS/SCTP", formats := ["webrtc-datachannel"],
       attrs := [.of "setup" "actpass", .of "sctp-port" "5000"] }]

/-- Without ICE credentials it is refused whichever ports are in use. An offer with a section that
has no handler and one that is switched off is not. -/
theorem bareOffer_refused :
    let s := ofChannels ⟨fun i ↦ i, 0⟩
    ∀ ports, (∃ e, (s.processOffer ports bareOffer).result = .error e) ∧
      ¬∃ e, (s.processOffer ports mixedOffer).result = .error e := by
  intro s ports
  have hrefused := fun remote ↦ (offer_refused_iff (reachable_ofChannels ⟨fun i ↦ i, 0⟩)
    List.mem_cons_self remote).1 ports
  constructor
  · refine (hrefused bareOffer).mpr ?_
    by_contra hfault
    obtain ⟨-, plan, hplan⟩ := not_offerFault_iff.mp hfault
    have hnone : (s.planAnswers bareOffer 0 bareOffer.sections).isOk = false := by decide +kernel
    rw [hplan] at hnone
    cases hnone
  · rw [hrefused mixedOffer, not_offerFault_iff]
    have hchecked : (s.checkOffer mixedOffer).isOk = true := by decide +kernel
    have hplanned : (s.planAnswers mixedOffer 0 mixedOffer.sections).isOk = true := by
      decide +kernel
    constructor
    · cases hcheck : s.checkOffer mixedOffer with
      | ok _ => rfl
      | error e =>
        rw [hcheck] at hchecked
        cases hchecked
    · cases hplan : s.planAnswers mixedOffer 0 mixedOffer.sections with
      | ok plan => exact ⟨plan, rfl⟩
      | error e =>
        rw [hplan] at hplanned
        cases hplanned

end Session

end OfferAnswer
