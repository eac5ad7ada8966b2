import OfferAnswer.Proofs.Session.Standing
import OfferAnswer.Proofs.Session.Written

/-!
# Answering again

An answerer has even less to copy than an offerer: it answers every section anew. When the section
is the one it was, its handler answers it as before, and the rest is a matter of what the session
has by now. The endpoint and the source are those of the last answer. The setup is the subtle part:
the first answer took it from the configuration, and later ones take it from the secure channel,
which must have been given the same role then.

`Reanswers` is what has to hold of one section, and `CanReanswer` of them all. The answer is then
the last one, to the letter.
-/

namespace OfferAnswer

open Placement (Seated)

theorem Setup.setup_of_role? {setup : Setup} {role : DtlsRole} (h : setup.role? = some role) :
    role.setup = setup := by
  cases setup <;> cases h <;> rfl

namespace Session

variable {s : Session} {remote : Description} {i : Nat} {o a : Section} {n : NegotiatedMedia}

/-! ## Roles -/

/-- Whether every secure channel has the role that the configuration gives to an answerer. -/
def KeepsRole (s : Session) : Prop := ∀ e ∈ s.transport.endpoints, ∀ side, e.encrypt = some side →
  side.role.setup = s.config.answerSetup

theorem KeepsRole.answerSetup_eq (h : s.KeepsRole) (mid : Mid) :
    s.answerSetup mid (some .actPass) = s.config.answerSetup := by
  rw [answerSetup]
  cases hkept : ((s.transport.carrier? mid).bind s.transport.endpoint?).bind fun e ↦
      e.encrypt.map fun side ↦ side.role.setup with
  | none => rfl
  | some setup =>
    obtain ⟨e, he, hside⟩ := Option.bind_eq_some_iff.mp hkept
    obtain ⟨id, -, hid⟩ := Option.bind_eq_some_iff.mp he
    obtain ⟨side, hencrypt, rfl⟩ := Option.map_eq_some_iff.mp hside
    exact h e (TransportBinding.mem_of_endpoint? hid) side hencrypt

/-! ## One section -/

/-- The setup of an answered section, when the offer leaves it open. -/
def ownSetup (s : Session) (m : Section) : Option Setup :=
  if isSecure m.proto then some s.config.answerSetup else none

/-- An accepted section that a session has answered with `a` and the outcome `n`, and would answer
so again. -/
structure Answered (s : Session) (n : NegotiatedMedia) (o a : Section) : Prop where
  /-- It was offered with a port. -/
  offered : o.isRejected = false
  /-- A handler takes it, the answer was written for what it answers and is held, and the outcome is
  what the handler and the endpoint of the section say. -/
  taken : ∃ p h body codec id, s.handlerFor? o = some p ∧ s.handler? (some p) = some h ∧
    h.createAnswer o = .ok body ∧ s.Holds n.mid (s.ownSetup body) body a ∧
      h.processAnswer o a = .ok codec ∧ s.transport.carrier? n.mid = some id ∧
        n = ⟨n.mid, a.kind, a.direction, codec, a.proto, some id, false⟩

/-- How an offered section stands with the session that has answered it. -/
structure Reanswers (s : Session) (remote : Description) (i : Nat) (o a : Section)
    (n : NegotiatedMedia) : Prop where
  /-- It has the identifier of its outcome. -/
  midAt_eq : midAt remote i = n.mid
  /-- The offer leaves the setup open. -/
  setup_eq : a.isRejected = false → isSecure a.proto = true → remote.setup? i = some .actPass
  /-- If it was rejected, it is offered as a rejection. -/
  rejected : a.isRejected = true → o.isRejected = true ∧ a = .rejected o ∧
    o.attr? "mid" = some n.mid.text ∧ n = .refused n.mid o
  /-- If it was accepted, it passes the checks and is answered as it was. -/
  accepted : a.isRejected = false → s.checkRemoteParams remote i n.mid = .ok () ∧ s.Answered n o a

/-- The setup that is written in the answer to a section. -/
def setupOf (s : Session) (remote : Description) (i : Nat) (r : Planned) : Option Setup :=
  if isSecure r.body.proto then some (s.answerSetup r.mid (remote.setup? i)) else none

theorem Reanswers.again (h : s.Reanswers remote i o a n) (hrole : s.KeepsRole) : ∃ q r,
    s.planAnswer remote i o = .ok q ∧ Seated s.transport q r ∧
      s.decorate r.mid (s.setupOf remote i r) r.body = (a, s) ∧
      (s.outcome (midAt remote i) r.handler (s.setupOf remote i r) o a).1 = n := by
  cases hrej : a.isRejected with
  | true =>
    obtain ⟨horej, rfl, hmid, hn⟩ := h.rejected hrej
    let q : Planned := ⟨midAt remote i, none, .rejected o⟩
    refine ⟨q, q, ?_, .rejected rfl, ?_, ?_⟩
    · rw [planAnswer]
      exact if_pos horej
    · rw [decorate_of_rejected s _ _ rfl]
      have hadd := Section.add_mid_rejected hmid
      rw [← h.midAt_eq] at hadd
      exact congrArg (·, s) hadd
    · rw [outcome, if_pos hrej, h.midAt_eq]
      exact hn.symm
  | false =>
    obtain ⟨hparams, horej, p, handler, body, codec, id, hp, hhandler, hbody, hholds, hcodec, hid,
      hn⟩ := h.accepted hrej
    obtain ⟨e, he, hcarries, hwritten⟩ := hholds.written
    let q : Planned := ⟨midAt remote i, some p, body⟩
    let r : Planned := { q with body := Placement.writePorts e body }
    have hproto : a.proto = r.body.proto := by
      have hkept := proto_decorate s n.mid (s.ownSetup body) (Placement.writePorts e body)
      rw [hwritten] at hkept
      exact hkept
    -- the secure channel remembers the setup
    have hsetup : s.setupOf remote i r = s.ownSetup body := by
      rw [setupOf, ownSetup, ← Placement.proto_writePorts e body]
      split
      · rename_i hsecure
        rw [h.setup_eq hrej (hproto ▸ hsecure), hrole.answerSetup_eq]
      · rfl
    have hmid : midAt remote i ∈ e.mids := by
      rw [h.midAt_eq]
      exact hcarries
    refine ⟨q, r, ?_, .carried hholds.accepted he hmid, ?_, ?_⟩
    · simp only [planAnswer, horej, hp, hhandler, hbody, h.midAt_eq, hparams, Bool.false_eq_true,
        if_false]
      exact congrArg (fun mid ↦ Except.ok (⟨mid, some p, body⟩ : Planned)) h.midAt_eq.symm
    · rw [hsetup]
      change s.decorate (midAt remote i) _ _ = _
      rw [h.midAt_eq]
      exact hwritten
    · rw [outcome, hrej, if_neg Bool.false_ne_true, h.midAt_eq, hid]
      change NegotiatedMedia.mk _ _ _ ((s.handler? (some p)).bind _) _ _ _ = n
      rw [hhandler, Option.bind_some, hcodec]
      exact hn.symm

/-! ## All sections -/

theorem planAnswers_cons (s : Session) (remote : Description) (i : Nat) (m : Section)
    (ms : List Section) : s.planAnswers remote i (m :: ms) = match s.planAnswer remote i m with
      | .error e => .error e
      | .ok q => (s.planAnswers remote (i + 1) ms).map (q :: ·) := rfl

/-- The sections of an offer are planned, placed, written and settled as before. -/
theorem planAnswers_again (hrole : s.KeepsRole) {os as : List Section} {ns : List NegotiatedMedia}
    (has : as.length = os.length) (hns : ns.length = os.length)
    (h : ∀ (j : Nat) o a n, os[j]? = some o → as[j]? = some a → ns[j]? = some n →
      s.Reanswers remote (i + j) o a n) :
    ∃ plan placed, s.planAnswers remote i os = .ok plan ∧ plan.length = os.length ∧
      List.Forall₂ (Seated s.transport) plan placed ∧
      List.Forall₂ (fun x m ↦ s.decorate x.1.mid x.2 x.1.body = (m, s))
        (placed.zip (s.answerSetups remote i placed)) as ∧
      (s.outcomes remote i (placed.zip (s.answerSetups remote i placed)) os as).1 = ns := by
  induction os generalizing i as ns with
  | nil =>
    obtain rfl := List.length_eq_zero_iff.mp has
    obtain rfl := List.length_eq_zero_iff.mp hns
    exact ⟨[], [], rfl, rfl, .nil, .nil, rfl⟩
  | cons o os ih =>
    match as, ns, has, hns with
    | a :: as, n :: ns, has, hns =>
      obtain ⟨q, r, hq, hseated, hdecorate, houtcome⟩ := (h 0 o a n rfl rfl rfl).again hrole
      have hnext (j : Nat) : i + 1 + j = i + (j + 1) := by omega
      have hlater : ∀ (j : Nat) o a n, os[j]? = some o → as[j]? = some a → ns[j]? = some n →
          s.Reanswers remote (i + 1 + j) o a n := fun j o a n ho ha hn ↦
        hnext j ▸ h (j + 1) o a n ho ha hn
      obtain ⟨plan, placed, hplan, hlen, hplaced, hwritten, hsettled⟩ :=
        ih (Nat.succ.inj has) (Nat.succ.inj hns) hlater
      refine ⟨q :: plan, r :: placed, ?_, congrArg (· + 1) hlen, .cons hseated hplaced,
        .cons hdecorate hwritten, ?_⟩
      · change s.planAnswer remote i o = _ at hq
        rw [planAnswers_cons, hq]
        dsimp only
        rw [hplan]
        rfl
      · exact congrArg₂ List.cons houtcome hsettled

/-! ## The answer -/

/-- An offer that a session can answer as it has answered before. -/
structure CanReanswer (s : Session) (remote last : Description) : Prop where
  /-- The offer as a whole is in order. -/
  checked : s.checkOffer remote = .ok ()
  /-- The answer was its last description, -/
  ours_eq : s.ours = some last
  /-- and with the group of this offer it would be written as it was. -/
  written : last = s.draft s.version (s.sessionAttrs ++ groupAttrs
    (acceptedGroup (remote.session.bundle?.getD []) last.sections)) last.sections
  /-- No secure channel has another role. -/
  keepsRole : s.KeepsRole
  /-- Every section was answered, -/
  sections_length : last.sections.length = remote.sections.length
  /-- and has an outcome. -/
  negotiated_length : s.negotiated.length = remote.sections.length
  /-- The sections are as they were written. -/
  reanswers : ∀ (j : Nat) o a n, remote.sections[j]? = some o → last.sections[j]? = some a →
    s.negotiated[j]? = some n → s.Reanswers remote j o a n

theorem forall₂_zip_left {α β γ : Type} {R : α → γ → Prop} {xs : List α} {ys : List β} {zs : List γ}
    (h : List.Forall₂ R xs zs) (hlen : xs.length = ys.length) :
    List.Forall₂ (fun x z ↦ R x.1 z) (xs.zip ys) zs := by
  induction h generalizing ys with
  | nil => exact .nil
  | cons hone _ ih =>
    cases ys with
    | nil => cases hlen
    | cons y ys => exact .cons hone (ih (Nat.succ.inj hlen))

/-- **The answer is the last one**, and takes neither endpoint nor port. -/
theorem CanReanswer.answerOffer {last : Description} (h : s.CanReanswer remote last)
    (hexcl : s.transport.Exclusive) (hpem : s.HasPem) (hsetup : s.config.answerSetup ≠ .actPass)
    (ports : PortAllocator) : ∃ run : Answering s remote,
      s.answerOffer ports remote = ⟨.ok last, run.concluded.1, run.concluded.2⟩ ∧
        run.written = (last, s) ∧ run.outcomes.1 = s.negotiated ∧
          run.place.transport = s.transport ∧ run.place.ports = ports := by
  obtain ⟨plan, placed, hplan, hlen, hseated, hwritten, hsettled⟩ := planAnswers_again (i := 0)
    h.keepsRole h.sections_length h.negotiated_length
    fun j o a n ho ha hn ↦ (Nat.zero_add j).symm ▸ h.reanswers j o a n ho ha hn
  have hoffered : List.Forall₂ (fun x r ↦ Seated s.transport x.1 r)
      (plan.zip (remote.sections.map fun m ↦ fun (_ : Section) ↦ Section.rejected m)) placed :=
    forall₂_zip_left hseated (by rw [List.length_map, hlen])
  obtain ⟨place, hplace, htransport, hports⟩ := Placement.placeAll_of_seated hexcl
    (p := { transport := s.transport, ports := ports }) rfl hoffered s.config.portRange
    (remote.session.bundle?.getD []).contains
  obtain ⟨run, rfl, rfl, hanswer⟩ := answerOffer_of_place hexcl hpem hsetup h.checked hplan hplace
  have hstart : run.start = s := by rw [Answering.start, htransport]
  have hdecorated : run.start.decorateAll run.decorated = (last.sections, s) := by
    rw [Answering.decorated, hstart]
    exact decorateAll_eq_self hwritten
  have hwhole : run.written = (last, s) := by
    rw [Answering.written, writeAnswer, hdecorated]
    exact compose_of_ours h.ours_eq h.written
  have houtcomes : run.outcomes.1 = s.negotiated := by
    rw [Answering.outcomes, Answering.answer, hwhole, Answering.decorated, hstart]
    exact hsettled
  have hlast : run.answer = last := by rw [Answering.answer, hwhole]
  refine ⟨run, ?_, hwhole, houtcomes, htransport, hports⟩
  rw [hanswer, hlast]

theorem CanReanswer.setup_of_secured {last : Description} (h : s.CanReanswer remote last)
    (run : Answering s remote) (hanswer : run.answer = last)
    (hplace : run.place.transport = s.transport) {x : EndpointId × Setup}
    (hx : x ∈ run.outcomes.2) : x.2 = s.config.answerSetup := by
  obtain ⟨i, q, r, o, a, n, ho, ha, hrow, hrej, -, hsetup⟩ := run.mem_secured.mp hx
  rw [hanswer] at ha
  have hi : i < s.negotiated.length := by
    rw [h.negotiated_length]
    exact (List.getElem?_eq_some_iff.mp ho).1
  have hsection := h.reanswers i o a _ ho ha (List.getElem?_eq_getElem hi)
  have hproto : a.proto = r.body.proto := hrow.answers.1.proto_eq.trans hrow.body.proto_eq.symm
  have hstart : run.start = s := by rw [Answering.start, hplace]
  rw [Answering.setupAt, hstart] at hsetup
  split at hsetup
  · rename_i hsecure
    rw [hsection.setup_eq hrej (hproto ▸ hsecure), h.keepsRole.answerSetup_eq] at hsetup
    exact (Option.some.inj hsetup).symm
  · cases hsetup

end Session

/-! ## Roles in the end -/

namespace Answering

open Session

variable {s : Session} {remote : Description} (run : Answering s remote)

/-- If all sections are secured with the setup of the configuration, every secure channel has that
role. -/
theorem keepsRole_concluded (hrole : s.KeepsRole)
    (hasked : ∀ x ∈ run.outcomes.2, x.2 = s.config.answerSetup) : run.concluded.1.KeepsRole := by
  obtain ⟨s₁, state, hcommit, -, hs₁⟩ := run.concluded_spec
  have hconfig := run.same_concluded.2.1
  intro e he side hside
  rw [hconfig]
  rw [hs₁] at he
  obtain ⟨e₁, he₁, -, hencrypt, -⟩ := hcommit.sides e he
  rw [← hencrypt] at hside
  rcases mem_setChannels he₁ with ⟨c, hc, -, hencrypt₁, -⟩ | ⟨-, e₂, he₂, -, hencrypt₂, -⟩
  · -- the channel was made for a setup that was asked for
    obtain ⟨x, hx, hchannel⟩ := List.mem_filterMap.mp hc
    obtain ⟨cert, -, hmade⟩ := Option.bind_eq_some_iff.mp hchannel
    obtain ⟨role, hrole', rfl⟩ := Option.map_eq_some_iff.mp hmade
    rw [hencrypt₁, Option.some_inj] at hside
    rw [← hside, ← hasked x hx]
    exact Setup.setup_of_role? hrole'
  · -- the endpoint had it before, since a new one has none
    rw [run.transport_written] at he₂
    rw [← hencrypt₂] at hside
    rcases run.sides e₂ he₂ with ⟨e₃, he₃, -, hencrypt₃, -⟩ | ⟨hnone, -⟩
    · exact hrole e₃ he₃ side (hencrypt₃.trans hside)
    · rw [hnone] at hside
      cases hside

end Answering

end OfferAnswer
