import OfferAnswer.Proofs.Config.Check
import OfferAnswer.Proofs.Session.Channels
import OfferAnswer.Proofs.Session.Commit
import OfferAnswer.Proofs.Session.Describe
import OfferAnswer.Proofs.Session.Placement

/-!
# An answer, stage by stage

Answering goes through stages: planning, placing, writing, working out the outcome, securing,
committing. Only planning can fail. `Answering` holds what the stages produced, and
`processOffer_cases` says that there is nothing else: an offer is refused and nothing changes, or
there is an `Answering` and the reply is read off it.

A section goes through the stages in its own row. `Answering.Row` is that row: what was planned,
what became of it, what was written and what came of that. Whatever is said about one section of an
exchange is said about a row.
-/

namespace OfferAnswer

open TransportBinding (Keeps SidesKept)

/-! ## Setups -/

namespace Session

variable {s : Session} {remote : Description}

theorem answerSetup_ne_actPass (hs : s.config.answerSetup ≠ .actPass) (mid : Mid)
    (offered : Option Setup) : s.answerSetup mid offered ≠ .actPass := by
  unfold answerSetup
  dsimp only
  split
  · cases h : ((s.transport.carrier? mid).bind s.transport.endpoint?).bind fun e ↦
      e.encrypt.map fun side ↦ side.role.setup with
    | none => exact hs
    | some setup =>
      obtain ⟨e, -, hside⟩ := Option.bind_eq_some_iff.mp h
      obtain ⟨side, -, rfl⟩ := Option.map_eq_some_iff.mp hside
      exact Setup.setup_ne_actPass side.role
  · rename_i hne
    exact Setup.invert_ne_actPass hne
  · exact Setup.noConfusion

theorem getElem?_answerSetups (s : Session) (remote : Description) (i : Nat) (qs : List Planned)
    (j : Nat) : (s.answerSetups remote i qs)[j]? = (qs[j]?).map fun q ↦
      if isSecure q.body.proto then some (s.answerSetup q.mid (remote.setup? (i + j)))
      else none := by
  induction qs generalizing i j with
  | nil => rfl
  | cons q qs ih =>
    cases j with
    | zero => rfl
    | succ j =>
      rw [answerSetups, List.getElem?_cons_succ, List.getElem?_cons_succ, ih, Nat.add_right_comm]
      rfl

theorem length_answerSetups (s : Session) (remote : Description) (i : Nat) (qs : List Planned) :
    (s.answerSetups remote i qs).length = qs.length := by
  induction qs generalizing i with
  | nil => rfl
  | cons q qs ih => exact congrArg (· + 1) (ih (i + 1))

theorem mem_answerSetups {i : Nat} {qs : List Planned} {setup : Setup}
    (h : some setup ∈ s.answerSetups remote i qs) :
    ∃ mid offered, setup = s.answerSetup mid offered := by
  obtain ⟨j, hj⟩ := List.mem_iff_getElem?.mp h
  rw [getElem?_answerSetups] at hj
  obtain ⟨q, -, hq⟩ := Option.map_eq_some_iff.mp hj
  split at hq
  · exact ⟨q.mid, _, (Option.some.inj hq).symm⟩
  · cases hq

/-! ## Checks -/

theorem checkOffer_eq_ok : s.checkOffer remote = .ok () ↔
    checkConsistent remote = .ok () ∧ s.checkIceLite remote = .ok () ∧
      s.negotiated.length ≤ remote.sections.length ∧
        checkMids remote 0 s.negotiated = .ok () := by
  rw [checkOffer]
  cases checkConsistent remote with
  | error e => exact ⟨nofun, fun h ↦ nomatch h.1⟩
  | ok _ =>
    cases s.checkIceLite remote with
    | error e => exact ⟨nofun, fun h ↦ nomatch h.2.1⟩
    | ok _ =>
      by_cases hlen : remote.sections.length < s.negotiated.length
      · refine ⟨fun h ↦ ?_, fun h ↦ absurd hlen (Nat.not_lt.mpr h.2.2.1)⟩
        change (if _ then _ else _) = _ at h
        rw [if_pos hlen] at h
        cases h
      · change (if _ then _ else _) = _ ↔ _
        rw [if_neg hlen]
        exact ⟨fun h ↦ ⟨rfl, rfl, Nat.not_lt.mp hlen, h⟩, fun h ↦ h.2.2.2⟩

/-! ## Plans -/

/-- All that planning a section can do: reject it in its place, or take what its handler made. -/
theorem planAnswer_cases {i : Nat} {m : Section} {q : Planned}
    (h : s.planAnswer remote i m = .ok q) :
    (∃ position, q = ⟨midAt remote i, position, .rejected m⟩) ∨
      ∃ position handler answer, m.isRejected = false ∧ s.handlerFor? m = some position ∧
        s.handler? position = some handler ∧ handler.createAnswer m = .ok answer ∧
          q = ⟨midAt remote i, position, answer⟩ := by
  -- switched off, without a handler, refused by its handler, or answered and checked
  unfold planAnswer at h
  split at h
  · cases h
    exact Or.inl ⟨_, rfl⟩
  · rename_i hrej
    split at h
    · cases h
      exact Or.inl ⟨_, rfl⟩
    · rename_i position hposition
      split at h
      · cases h
        exact Or.inl ⟨_, rfl⟩
      · rename_i handler hhandler
        split at h
        · rename_i answer hanswer
          dsimp only at h
          cases hparams : s.checkRemoteParams remote i (midAt remote i) with
          | error e =>
            rw [hparams] at h
            cases h
          | ok _ =>
            rw [hparams] at h
            cases h
            exact Or.inr ⟨position, handler, answer, Bool.eq_false_iff.mpr hrej, hposition,
              hhandler, hanswer, rfl⟩
        · split at h
          · cases h
            exact Or.inl ⟨_, rfl⟩
          · cases h

theorem mid_planAnswer {i : Nat} {m : Section} {q : Planned}
    (h : s.planAnswer remote i m = .ok q) : q.mid = midAt remote i := by
  rcases planAnswer_cases h with ⟨_, rfl⟩ | ⟨_, _, _, -, -, -, -, rfl⟩ <;> rfl

theorem planAnswers_forall₂ {i : Nat} {ms : List Section} {plan : List Planned}
    (h : s.planAnswers remote i ms = .ok plan) : plan.length = ms.length ∧
      ∀ (j : Nat) q, plan[j]? = some q →
        ∃ m, ms[j]? = some m ∧ s.planAnswer remote (i + j) m = .ok q := by
  induction ms generalizing i plan with
  | nil =>
    cases h
    exact ⟨rfl, fun _ _ hq ↦ nomatch hq⟩
  | cons m ms ih =>
    rw [planAnswers] at h
    cases hone : s.planAnswer remote i m with
    | error e =>
      rw [hone] at h
      cases h
    | ok q =>
      rw [hone] at h
      dsimp only at h
      cases hrest : s.planAnswers remote (i + 1) ms with
      | error e =>
        rw [hrest] at h
        cases h
      | ok rest =>
        rw [hrest] at h
        cases h
        obtain ⟨hlen, hget⟩ := ih hrest
        refine ⟨congrArg (· + 1) hlen, fun j r hr ↦ ?_⟩
        cases j with
        | zero =>
          cases hr
          exact ⟨m, rfl, hone⟩
        | succ j =>
          obtain ⟨m', hm', hplan⟩ := hget j r hr
          exact ⟨m', hm', by rwa [Nat.add_right_comm] at hplan⟩

/-! ## Outcomes -/

theorem outcomes_spec (s : Session) (remote : Description) (i : Nat)
    (qs : List (Planned × Option Setup)) (os as : List Section) (hos : os.length = qs.length)
    (has : as.length = qs.length) :
    (s.outcomes remote i qs os as).1.length = qs.length ∧
      ∀ (j : Nat) n, (s.outcomes remote i qs os as).1[j]? = some n → ∃ q o a, qs[j]? = some q ∧
        os[j]? = some o ∧ as[j]? = some a ∧
          n = (s.outcome (midAt remote (i + j)) q.1.handler q.2 o a).1 := by
  induction qs generalizing i os as with
  | nil =>
    rw [outcomes]
    · exact ⟨rfl, fun _ _ h ↦ nomatch h⟩
    · exact fun _ _ _ _ _ _ _ h ↦ nomatch h
  | cons q qs ih =>
    cases os with
    | nil => cases hos
    | cons o os =>
      cases as with
      | nil => cases has
      | cons a as =>
        obtain ⟨hlen, hget⟩ := ih (i + 1) os as (Nat.succ.inj hos) (Nat.succ.inj has)
        rw [outcomes]
        refine ⟨congrArg (· + 1) hlen, fun j n hn ↦ ?_⟩
        cases j with
        | zero =>
          cases hn
          exact ⟨q, o, a, rfl, rfl, rfl, rfl⟩
        | succ j =>
          obtain ⟨q', o', a', hq', ho', ha', hn'⟩ := hget j n hn
          exact ⟨q', o', a', hq', ho', ha', by rwa [Nat.add_right_comm] at hn'⟩

theorem mem_secured_outcomes {i : Nat} {qs : List (Planned × Option Setup)} {os as : List Section}
    {x : EndpointId × Setup} : x ∈ (s.outcomes remote i qs os as).2 ↔
      ∃ (j : Nat) (q : Planned × Option Setup) (o a : Section), qs[j]? = some q ∧
        os[j]? = some o ∧ as[j]? = some a ∧
          (s.outcome (midAt remote (i + j)) q.1.handler q.2 o a).2 = some x := by
  induction qs generalizing i os as with
  | nil =>
    rw [outcomes]
    · exact ⟨nofun, fun ⟨_, _, _, _, hq, _⟩ ↦ nomatch hq⟩
    · exact fun _ _ _ _ _ _ _ h ↦ nomatch h
  | cons q qs ih =>
    match os, as with
    | [], _ => exact ⟨nofun, fun ⟨_, _, _, _, _, ho, _⟩ ↦ nomatch ho⟩
    | _ :: _, [] => exact ⟨nofun, fun ⟨_, _, _, _, _, _, ha, _⟩ ↦ nomatch ha⟩
    | o :: os, a :: as =>
      rw [outcomes, List.mem_append, Option.mem_toList, ih]
      constructor
      · rintro (hx | ⟨j, q', o', a', hq', ho', ha', hx⟩)
        · exact ⟨0, q, o, a, rfl, rfl, rfl, hx⟩
        · exact ⟨j + 1, q', o', a', hq', ho', ha', by rwa [Nat.add_right_comm] at hx⟩
      · rintro ⟨j, q', o', a', hq', ho', ha', hx⟩
        cases j with
        | zero =>
          cases hq'
          cases ho'
          cases ha'
          exact Or.inl hx
        | succ j => exact Or.inr ⟨j, q', o', a', hq', ho', ha', by rwa [Nat.add_right_comm]⟩

/-- An accepted section asks for the endpoint that carries it, with its setup. -/
theorem outcome_secured {mid : Mid} {position : Option Nat} {setup : Option Setup}
    {o a : Section} {x : EndpointId × Setup} :
    (s.outcome mid position setup o a).2 = some x ↔ a.isRejected = false ∧
      s.transport.carrier? mid = some x.1 ∧ setup = some x.2 := by
  rw [outcome]
  split
  · rename_i hrej
    rw [hrej]
    exact ⟨nofun, fun h ↦ nomatch h.1⟩
  · rename_i hrej
    rw [Bool.not_eq_true] at hrej
    dsimp only
    rw [Option.bind_eq_some_iff]
    constructor
    · rintro ⟨id, hid, hsetup⟩
      obtain ⟨v, hv, rfl⟩ := Option.map_eq_some_iff.mp hsetup
      exact ⟨hrej, hid, hv⟩
    · rintro ⟨-, hid, rfl⟩
      exact ⟨x.1, hid, rfl⟩

end Session

/-! ## The stages -/

/-- What the stages of an answer produce, once the offer as a whole is found to be in order. -/
structure Answering (s : Session) (remote : Description) where
  /-- The answers to the sections, before they have ports. -/
  plan : List Planned
  /-- The answers once they are placed. -/
  placed : List Planned
  /-- The endpoints and ports once they are placed. -/
  place : Placement
  /-- Every section was planned. -/
  plan_eq : s.planAnswers remote 0 remote.sections = .ok plan
  /-- Lookups are reliable. -/
  ready : place.Ready
  /-- What was carried stays where it was. -/
  keeps : Keeps (fun _ ↦ True) s.transport place.transport
  /-- Secure channels were left alone. -/
  sides : SidesKept s.transport place.transport
  /-- What became of every planned section. -/
  fates : List.Forall₂ (fun x r ↦ Placement.Fate place.transport x.1 x.2 r)
    (plan.zip (remote.sections.map fun m ↦ fun _ ↦ Section.rejected m)) placed

namespace Answering

open Session
open Placement (Fate)

variable {s : Session} {remote : Description} (run : Answering s remote)

/-- The session with its sections placed. -/
def start : Session := { s with transport := run.place.transport }

/-- The placed sections with the setups to write in them. -/
def decorated : List (Planned × Option Setup) :=
  run.placed.zip (run.start.answerSetups remote 0 run.placed)

/-- The answer, and the session that wrote it. -/
def written : Description × Session :=
  run.start.writeAnswer (remote.session.bundle?.getD []) run.decorated

def answer : Description := run.written.1

/-- The outcome, and the endpoints to secure. -/
def outcomes : List NegotiatedMedia × List (EndpointId × Setup) :=
  run.written.2.outcomes remote 0 run.decorated remote.sections run.answer.sections

def channels : List Channel := run.outcomes.2.filterMap run.written.2.channelFor?

def secured : Session :=
  { run.written.2 with transport := setChannels run.written.2.transport run.channels }

/-- The session in the end, and the ports. -/
def concluded : Session × PortAllocator :=
  run.secured.concludeAnswer run.place.ports remote run.answer run.outcomes.1
    (run.placed.map Planned.handler)

/-! ### What writing left alone -/

theorem written_eq : ∃ ssrcs e version, run.written.2 =
    { s with
      transport := run.place.transport
      ssrcs := ssrcs
      entropy := e
      version := version } :=
  writeAnswer_eq run.start _ run.decorated

theorem transport_written : run.written.2.transport = run.place.transport := by
  obtain ⟨_, _, _, h⟩ := run.written_eq
  rw [h]

theorem config_written : run.written.2.config = s.config := by
  obtain ⟨_, _, _, h⟩ := run.written_eq
  rw [h]

theorem handlers_written : run.written.2.handlers = s.handlers := by
  obtain ⟨_, _, _, h⟩ := run.written_eq
  rw [h]

theorem connection_written : run.written.2.connection = s.connection := by
  obtain ⟨_, _, _, h⟩ := run.written_eq
  rw [h]

/-! ### No stage after planning fails -/

theorem secured_settled (hs : s.config.answerSetup ≠ .actPass) :
    ∀ x ∈ run.outcomes.2, run.written.2.transport.isAlive x.1 = true ∧ x.2 ≠ .actPass := by
  intro x hx
  obtain ⟨j, q, o, a, hq, -, -, hasked⟩ := mem_secured_outcomes.mp hx
  obtain ⟨-, hmid, hsetup⟩ := outcome_secured.mp hasked
  refine ⟨TransportBinding.isAlive_of_carrier? hmid, ?_⟩
  have hmem : some x.2 ∈ run.start.answerSetups remote 0 run.placed :=
    hsetup ▸ (List.of_mem_zip (List.mem_of_getElem? hq)).2
  obtain ⟨mid', offered, h⟩ := mem_answerSetups hmem
  rw [h]
  exact answerSetup_ne_actPass (s := run.start) hs mid' offered

/-- The reply of an answer is read off its stages. -/
theorem finishAnswer_eq (hpem : s.HasPem) (hs : s.config.answerSetup ≠ .actPass) :
    run.start.finishAnswer run.place remote run.placed =
      ⟨.ok run.answer, run.concluded.1, run.concluded.2⟩ := by
  have hpem' : run.written.2.HasPem := by
    rw [HasPem, run.config_written]
    exact hpem
  obtain ⟨hprepare, happly⟩ := channels_ok hpem' (run.secured_settled hs)
  dsimp only [written, outcomes, channels, answer, decorated] at hprepare happly
  dsimp only [finishAnswer]
  rw [hprepare]
  dsimp only
  rw [happly]
  rfl

/-! ### Rows -/

/-- The setup to write in a placed section. -/
def setupAt (i : Nat) (r : Planned) : Option Setup :=
  if isSecure r.body.proto then some (run.start.answerSetup r.mid (remote.setup? i)) else none

/-- One section on its way through an answer: planned, placed, written and settled. -/
structure Row (i : Nat) (q r : Planned) (offered answered : Section) (n : NegotiatedMedia) :
    Prop where
  /-- How it was planned. -/
  planned : s.planAnswer remote i offered = .ok q
  /-- Where it stands among those that were placed. -/
  placed : run.placed[i]? = some r
  /-- What became of it. -/
  fate : Fate run.place.transport q (fun _ ↦ .rejected offered) r
  /-- How it was written. -/
  written : ∃ ssrcs e, answered =
    ((run.start.withSources ssrcs e).decorate r.mid (run.setupAt i r) r.body).1
  /-- What came of it. -/
  settled : n = (run.written.2.outcome (midAt remote i) r.handler (run.setupAt i r) offered
    answered).1

theorem Row.mid_eq {run : Answering s remote} {i : Nat} {q r : Planned} {o a : Section}
    {n : NegotiatedMedia} (hrow : run.Row i q r o a n) : r.mid = midAt remote i :=
  hrow.fate.mid_eq.trans (mid_planAnswer hrow.planned)

theorem length_plan : run.plan.length = remote.sections.length :=
  (planAnswers_forall₂ run.plan_eq).1

theorem length_placed : run.placed.length = remote.sections.length := by
  rw [← run.fates.length_eq, List.length_zip, List.length_map, run.length_plan, Nat.min_self]

theorem length_decorated : run.decorated.length = remote.sections.length := by
  rw [decorated, List.length_zip, length_answerSetups, run.length_placed, Nat.min_self]

theorem length_sections : run.answer.sections.length = remote.sections.length := by
  rw [← run.length_decorated]
  exact (decorateAll_sections run.start run.decorated).length_eq.symm

theorem length_negotiated : run.outcomes.1.length = remote.sections.length := by
  rw [← run.length_decorated]
  exact (outcomes_spec _ remote 0 run.decorated remote.sections run.answer.sections
    run.length_decorated.symm (run.length_sections.trans run.length_decorated.symm)).1

theorem exists_row {i : Nat} {n : NegotiatedMedia} (hn : run.outcomes.1[i]? = some n) :
    ∃ q r offered answered, remote.sections[i]? = some offered ∧
      run.answer.sections[i]? = some answered ∧ run.Row i q r offered answered n := by
  obtain ⟨⟨r, setup⟩, offered, answered, hr, ho, ha, hsettled⟩ := (outcomes_spec _ remote 0
    run.decorated remote.sections run.answer.sections run.length_decorated.symm
    (run.length_sections.trans run.length_decorated.symm)).2 i n hn
  rw [Nat.zero_add] at hsettled
  obtain ⟨hplaced, hsetup⟩ := List.getElem?_zip_eq_some.mp hr
  -- setup, plan and section at one index belong to one row
  rw [getElem?_answerSetups, hplaced, Option.map_some, Option.some_inj, Nat.zero_add] at hsetup
  replace hsetup : run.setupAt i r = setup := hsetup
  subst hsetup
  obtain ⟨⟨q, refuse⟩, hq, hfate⟩ := exists_getElem?_of_forall₂ run.fates hplaced
  obtain ⟨hplan, hrefuse⟩ := List.getElem?_zip_eq_some.mp hq
  rw [List.getElem?_map, ho, Option.map_some, Option.some_inj] at hrefuse
  obtain ⟨m, hm, hplanned⟩ := (planAnswers_forall₂ run.plan_eq).2 i q hplan
  rw [ho, Option.some_inj] at hm
  rw [Nat.zero_add] at hplanned
  obtain ⟨x, hx, hwritten⟩ :=
    exists_getElem?_of_forall₂ (decorateAll_sections run.start run.decorated) ha
  rw [hr, Option.some_inj] at hx
  subst hx hm hrefuse
  exact ⟨q, r, offered, answered, ho, ha, hplanned, hplaced, hfate, hwritten, hsettled⟩

/-- Every offered section starts a row. -/
theorem exists_row_of_offered {i : Nat} {o : Section} (ho : remote.sections[i]? = some o) :
    ∃ q r a n, run.answer.sections[i]? = some a ∧ run.outcomes.1[i]? = some n ∧
      run.Row i q r o a n := by
  have hi : i < run.outcomes.1.length := by
    rw [run.length_negotiated]
    exact (List.getElem?_eq_some_iff.mp ho).1
  obtain ⟨q, r, o', a, ho', ha, hrow⟩ := run.exists_row (List.getElem?_eq_getElem hi)
  rw [ho, Option.some_inj] at ho'
  subst ho'
  exact ⟨q, r, a, _, ha, List.getElem?_eq_getElem hi, hrow⟩

theorem mem_secured {x : EndpointId × Setup} : x ∈ run.outcomes.2 ↔
    ∃ i q r o a n, remote.sections[i]? = some o ∧ run.answer.sections[i]? = some a ∧
      run.Row i q r o a n ∧ a.isRejected = false ∧
        run.place.transport.carrier? (midAt remote i) = some x.1 ∧ run.setupAt i r = some x.2 := by
  rw [← run.transport_written]
  constructor
  · intro hx
    obtain ⟨i, ⟨r', setup⟩, o, a, hr, ho, ha, hasked⟩ := mem_secured_outcomes.mp hx
    obtain ⟨hrej, hid, rfl⟩ := outcome_secured.mp hasked
    rw [Nat.zero_add] at hid
    obtain ⟨q, r, a', n, ha', -, hrow⟩ := run.exists_row_of_offered ho
    rw [ha, Option.some_inj] at ha'
    subst ha'
    obtain ⟨hplaced, hsetup⟩ := List.getElem?_zip_eq_some.mp hr
    rw [hrow.placed, Option.some_inj] at hplaced
    subst hplaced
    rw [getElem?_answerSetups, hrow.placed, Option.map_some, Option.some_inj,
      Nat.zero_add] at hsetup
    exact ⟨i, q, r, o, a, n, ho, ha, hrow, hrej, hid, hsetup⟩
  · rintro ⟨i, q, r, o, a, n, ho, ha, hrow, hrej, hid, hsetup⟩
    refine mem_secured_outcomes.mpr ⟨i, (r, run.setupAt i r), o, a, ?_, ho, ha, ?_⟩
    · refine List.getElem?_zip_eq_some.mpr ⟨hrow.placed, ?_⟩
      rw [getElem?_answerSetups, hrow.placed, Option.map_some, Nat.zero_add]
      rfl
    · rw [Nat.zero_add]
      exact outcome_secured.mpr ⟨hrej, hid, hsetup⟩

/-! ### The end -/

theorem outline_secured : run.secured.transport.outline = run.place.transport.outline := by
  rw [secured, outline_setChannels, run.transport_written]

/-- The session in the end is one whose outcome was committed, with the descriptions stored. -/
theorem concluded_spec : ∃ s₁ state,
    Committed run.secured s₁ remote run.outcomes.1 (run.placed.map Planned.handler) ∧
      (state = .answerGenerated ∨ state = .established) ∧
      run.concluded.1 =
        { s₁ with
          ours := some run.answer
          theirs := some remote
          settled := .answerGenerated
          state := state } := by
  have hexcl := run.ready.exclusive.congr run.outline_secured
  have hcommit := committed_commit hexcl run.place.ports remote run.answer run.outcomes.1
    (run.placed.map Planned.handler)
  rw [concluded, concludeAnswer]
  generalize run.secured.commit _ _ _ _ _ = result at hcommit ⊢
  obtain ⟨state, hstate, hsettle⟩ := settle_eq
    { result.1 with
      ours := some run.answer
      theirs := some remote
      settled := .answerGenerated
      state := .answerGenerated }
  exact ⟨result.1, state, hcommit, hstate.imp_right And.right, hsettle⟩

theorem negotiated_concluded : run.concluded.1.negotiated = run.outcomes.1 := by
  obtain ⟨s₁, state, hcommit, -, hs⟩ := run.concluded_spec
  rw [hs]
  exact hcommit.negotiated_eq

end Answering

/-! ## The operation -/

namespace Session

variable {s : Session} {remote : Description}

/-- The session while it answers. -/
def receiving (s : Session) : Session := { s with state := .offerReceived }

/-- The reply to an offer, once the state is put back after an error. -/
def restoring (s : Session) : Reply Description → Reply Description
  | ⟨.error e, after, ports⟩ => ⟨.error e, { after with state := s.state }, ports⟩
  | reply => reply

theorem processOffer_eq (h : takesOffer s.state = true) (ports : PortAllocator)
    (remote : Description) :
    s.processOffer ports remote = restoring s (s.receiving.answerOffer ports remote) := by
  rw [processOffer, h]
  rfl

theorem answerOffer_of_place (hexcl : s.transport.Exclusive) (hpem : s.HasPem)
    (hsetup : s.config.answerSetup ≠ .actPass) {ports : PortAllocator}
    (hcheck : s.checkOffer remote = .ok ()) {plan placed : List Planned} {place : Placement}
    (hplan : s.planAnswers remote 0 remote.sections = .ok plan)
    (hplace : Placement.placeAll s.config.portRange (remote.session.bundle?.getD []).contains
      (plan.zip (remote.sections.map fun m ↦ fun _ ↦ Section.rejected m))
      { transport := s.transport, ports := ports } = (.ok placed, place)) :
    ∃ run : Answering s remote, run.placed = placed ∧ run.place = place ∧
      s.answerOffer ports remote = ⟨.ok run.answer, run.concluded.1, run.concluded.2⟩ := by
  obtain ⟨hready, hkeeps, hfates⟩ := (Placement.ready_start hexcl ports).of_placeAll hplace
  have hsides := Placement.sidesKept_placeAll s.config.portRange
    (remote.session.bundle?.getD []).contains
    (plan.zip (remote.sections.map fun m ↦ fun _ ↦ Section.rejected m))
    { transport := s.transport, ports := ports }
  rw [hplace] at hsides
  let run : Answering s remote := ⟨plan, placed, place, hplan, hready, hkeeps, hsides, hfates⟩
  refine ⟨run, rfl, rfl, ?_⟩
  rw [answerOffer, hcheck]
  dsimp only
  rw [hplan]
  dsimp only
  rw [hplace]
  exact run.finishAnswer_eq hpem hsetup

theorem answerOffer_ok (hexcl : s.transport.Exclusive) (hpem : s.HasPem)
    (hsetup : s.config.answerSetup ≠ .actPass) (ports : PortAllocator)
    (hcheck : s.checkOffer remote = .ok ()) {plan : List Planned}
    (hplan : s.planAnswers remote 0 remote.sections = .ok plan) :
    ∃ run : Answering s remote, s.answerOffer ports remote =
      ⟨.ok run.answer, run.concluded.1, run.concluded.2⟩ := by
  obtain ⟨placed, place, hplace, -⟩ := Placement.placeAll_ok
    (Placement.ready_start hexcl ports) s.config.portRange
    (remote.session.bundle?.getD []).contains
    (plan.zip (remote.sections.map fun m ↦ fun _ ↦ Section.rejected m))
  obtain ⟨run, -, -, hanswer⟩ := answerOffer_of_place hexcl hpem hsetup hcheck hplan hplace
  exact ⟨run, hanswer⟩

/-- **All that processing an offer can do**: refuse it and leave everything as it was, or answer
it. -/
theorem processOffer_cases (hexcl : s.transport.Exclusive) (hpem : s.HasPem)
    (hsetup : s.config.answerSetup ≠ .actPass) (ports : PortAllocator) (remote : Description) :
    (∃ e, s.processOffer ports remote = s.unchanged ports (.error e)) ∨
      takesOffer s.state = true ∧ s.receiving.checkOffer remote = .ok () ∧
        ∃ run : Answering s.receiving remote, s.processOffer ports remote =
          ⟨.ok run.answer, run.concluded.1, run.concluded.2⟩ := by
  cases htakes : takesOffer s.state with
  | false =>
    refine Or.inl ⟨s.wrongState "process_offer", ?_⟩
    rw [processOffer, htakes]
    rfl
  | true =>
    rw [processOffer_eq htakes]
    cases hcheck : s.receiving.checkOffer remote with
    | error e =>
      refine Or.inl ⟨e, ?_⟩
      rw [answerOffer, hcheck]
      rfl
    | ok _ =>
      cases hplan : s.receiving.planAnswers remote 0 remote.sections with
      | error e =>
        refine Or.inl ⟨e, ?_⟩
        rw [answerOffer, hcheck]
        dsimp only
        rw [hplan]
        rfl
      | ok plan =>
        -- behind the plan nothing can fail
        obtain ⟨run, hrun⟩ := answerOffer_ok (s := s.receiving) hexcl hpem hsetup ports hcheck hplan
        refine Or.inr ⟨rfl, rfl, run, ?_⟩
        rw [hrun]
        rfl

end Session

end OfferAnswer
