import Mathlib.Data.List.Chain
import OfferAnswer.Proofs.Session.LateEvents
import OfferAnswer.Proofs.Session.Upkeep

/-!
# Versions count changes

Every description of ours has a version, and the peer may take two descriptions of one version for
the same. The counter stands in the session, the comparison is with the last description, and offers
and answers each store both in a place of their own. `Numbered` says that the two agree: the counter
is the version of the last description, and one before there is any.

## The two kinds of steps

An operation of a session either emits a description (`Emits`) or leaves descriptions and counter
alone (`SameDescriptions`); a call that fails is of the second kind, and so is one between
exchanges. The descriptions of a whole run then form a chain in which each follows the one before
it.
-/

namespace OfferAnswer

namespace Description

/-- The same description in another version. -/
def atVersion (d : Description) (version : UInt64) : Description :=
  { d with session := { d.session with version := version } }

/-- What may follow a description of ours: the same again, or something else in the next version. -/
structure Follows (last next : Description) : Prop where
  /-- What is the same but for the version has the same version, too. -/
  repeated : next.atVersion last.session.version = last →
    next.session.version = last.session.version
  /-- What is not has the next version, as long as there is one. -/
  counted : next.atVersion last.session.version ≠ last →
    last.session.version.toNat < 2 ^ 64 - 1 →
      next.session.version.toNat = last.session.version.toNat + 1

end Description

namespace Session

variable {s s' : Session} {ports : PortAllocator} {d : Description}

/-! ## Writing a description -/

/-- The version of what is composed follows that of the last description, if the counter stands at
it. -/
theorem follows_compose (s : Session) (attrs : List Attribute) (sections : List Section)
    {last : Description} (hours : s.ours = some last)
    (hversion : last.session.version = s.version) :
    last.Follows (s.compose attrs sections).1 := by
  have hnext : (s.compose attrs sections).1.session.version =
      if s.draft last.session.version attrs sections = last then s.version
      else last.session.version + 1 := by
    change s.nextVersion attrs sections = _
    rw [nextVersion, hours]
  constructor
  · intro hsame
    change s.draft last.session.version attrs sections = last at hsame
    rw [hnext, if_pos hsame, hversion]
  · intro hother hlt
    change s.draft last.session.version attrs sections ≠ last at hother
    rw [hnext, if_neg hother, UInt64.toNat_add, UInt64.toNat_one]
    exact Nat.mod_eq_of_lt (Nat.add_lt_of_lt_sub hlt)

theorem version_compose (s : Session) (attrs : List Attribute) (sections : List Section)
    (hours : s.ours = none) : (s.compose attrs sections).1.session.version = s.version := by
  change s.nextVersion attrs sections = _
  rw [nextVersion, hours]

/-- A step that emits a description of ours, and remembers it. -/
structure Emits (s : Session) (d : Description) (s' : Session) : Prop where
  /-- It is the last description from then on. -/
  ours_eq : s'.ours = some d
  /-- The counter stands at its version. -/
  version_eq : s'.version = d.session.version
  /-- The session stays who it is. -/
  id_eq : s'.id = s.id
  /-- The description says so. -/
  signed : d.session.id = s.id
  /-- The first description has the version that the counter was made with. -/
  first : s.ours = none → d.session.version = s.version
  /-- A later one follows the one before it, if the counter stands at that. -/
  next : ∀ last, s.ours = some last → last.session.version = s.version → last.Follows d

/-- A step that emits nothing. -/
structure SameDescriptions (s s' : Session) : Prop where
  /-- The last description stays the last. -/
  ours_eq : s'.ours = s.ours
  /-- The counter stays. -/
  version_eq : s'.version = s.version
  /-- The session stays who it is. -/
  id_eq : s'.id = s.id

theorem SameDescriptions.refl (s : Session) : SameDescriptions s s := ⟨rfl, rfl, rfl⟩

/-- Writing the sections of a description draws sources, and nothing else. -/
theorem sameDescriptions_decorateAll (s : Session) (qs : List (Planned × Option Setup)) :
    SameDescriptions s (s.decorateAll qs).2 := by
  obtain ⟨ssrcs, e, hwriter⟩ := decorateAll_eq s qs
  rw [hwriter]
  exact ⟨rfl, rfl, rfl⟩

/-- What is composed is emitted once it is stored. -/
theorem emits_compose {writer : Session} (hwriter : SameDescriptions s writer)
    (attrs : List Attribute) (sections : List Section)
    (hours : s'.ours = some (writer.compose attrs sections).1)
    (hversion : s'.version = (writer.compose attrs sections).2.version) (hid : s'.id = s.id) :
    Emits s (writer.compose attrs sections).1 s' := by
  refine ⟨hours, hversion, hid, hwriter.id_eq, fun hnone ↦ ?_, fun last hlast hcounter ↦ ?_⟩
  · rw [← hwriter.ours_eq] at hnone
    rw [version_compose writer attrs sections hnone, hwriter.version_eq]
  · rw [← hwriter.ours_eq] at hlast
    rw [← hwriter.version_eq] at hcounter
    exact follows_compose writer attrs sections hlast hcounter

/-! ## Operations -/

/-- What an operation emits, if it emits anything, and the session that it leaves. -/
inductive Describes (s : Session) : Option Description → Session → Prop where
  /-- It emits a description. -/
  | emitted {d : Description} {s' : Session} : Emits s d s' → Describes s (some d) s'
  /-- It emits nothing. -/
  | silent {s' : Session} : SameDescriptions s s' → Describes s none s'

theorem describes_generateOffer (hexcl : s.transport.Exclusive) (ports : PortAllocator) :
    Describes s (s.generateOffer ports).result.toOption (s.generateOffer ports).session := by
  rcases generateOffer_cases hexcl ports with ⟨e, hr⟩ | ⟨-, run, hr⟩
  · rw [hr]
    exact .silent (.refl s)
  · rw [hr]
    have hwriter := sameDescriptions_decorateAll run.start
      (run.placed.map fun q ↦ (q, offerSetup q))
    have hsame : SameDescriptions s
        (run.start.decorateAll (run.placed.map fun q ↦ (q, offerSetup q))).2 :=
      ⟨hwriter.ours_eq, hwriter.version_eq, hwriter.id_eq⟩
    exact .emitted (emits_compose hsame _ _ rfl rfl hwriter.id_eq)

theorem describes_processOffer (hs : s.Sound) (ports : PortAllocator) (remote : Description) :
    Describes s (s.processOffer ports remote).result.toOption
      (s.processOffer ports remote).session := by
  rcases processOffer_cases hs.exclusive hs.hasPem hs.answerSetup_ne ports remote with
    ⟨e, hr⟩ | ⟨-, -, run, hr⟩
  · rw [hr]
    exact .silent (.refl s)
  · rw [hr]
    obtain ⟨hours, hversion, -⟩ := run.record_concluded
    have hwriter := sameDescriptions_decorateAll run.start run.decorated
    have hsame : SameDescriptions s (run.start.decorateAll run.decorated).2 :=
      ⟨hwriter.ours_eq, hwriter.version_eq, hwriter.id_eq⟩
    exact .emitted (emits_compose hsame _ _ hours hversion run.same_concluded.1)

theorem sameDescriptions_processAnswer (hs : s.Sound) (ports : PortAllocator)
    (answer : Description) : SameDescriptions s (s.processAnswer ports answer).session := by
  rcases processAnswer_cases hs.hasPem ports answer with ⟨e, hr⟩ | ⟨-, pending, -, run, hr⟩
  · rw [hr]
    exact .refl s
  · rw [hr]
    obtain ⟨hours, hversion, -⟩ := run.record_concluded hs.exclusive ports
    exact ⟨hours, hversion, (run.same_concluded hs.exclusive ports).1⟩

theorem sameDescriptions_close (s : Session) (ports : PortAllocator) :
    SameDescriptions s (s.close ports).session := by
  rw [close]
  split
  · exact .refl s
  · exact ⟨rfl, rfl, rfl⟩

theorem sameDescriptions_call (hs : s.Sound) (ports : PortAllocator) {c : SessionCall}
    (hoffer : c ≠ .offer) (hanswer : ∀ remote, c ≠ .answer remote) :
    SameDescriptions s (s.call ports c).session := by
  by_cases hbetween : c.isBetween = true
  · obtain ⟨_, _, _, _, _, _, _, hadjusted, -⟩ := adjusted_call s ports hbetween
    rw [hadjusted]
    exact ⟨rfl, rfl, rfl⟩
  · cases c with
    | offer => exact absurd rfl hoffer
    | answer remote => exact absurd rfl (hanswer remote)
    | accept answer => exact sameDescriptions_processAnswer hs ports answer
    | close => exact sameDescriptions_close s ports
    | _ => exact absurd rfl hbetween

/-- The description that is emitted with an output. -/
def emitted? : Output → Option Description
  | .returned (.ok (.description d)) => some d
  | _ => none

theorem emitted?_description (r : Except NegotiationError Description) :
    emitted? (.returned (r.map .description)) = r.toOption := by cases r <;> rfl

theorem emitted?_map {α : Type} {f : α → SessionResult} (hf : ∀ a d, f a ≠ .description d)
    (r : Except NegotiationError α) : emitted? (.returned (r.map f)) = none := by
  cases r with
  | error e => rfl
  | ok a =>
    rw [Except.map]
    cases h : f a with
    | description d => exact absurd h (hf a d)
    | _ => rfl

theorem emitted?_call (s : Session) (ports : PortAllocator) {c : SessionCall}
    (hoffer : c ≠ .offer) (hanswer : ∀ remote, c ≠ .answer remote) :
    emitted? (.returned (s.call ports c).result) = none := by
  cases c with
  | offer => exact absurd rfl hoffer
  | answer remote => exact absurd rfl (hanswer remote)
  | _ => exact emitted?_map nofun _

/-- **One step of a run**: it emits the description that is returned, or nothing. -/
theorem describes_advance {x : Session × PortAllocator} (hs : x.1.Sound) (i : Input) :
    Describes x.1 (emitted? (advance x i).1) (advance x i).2.1 := by
  obtain ⟨s, ports⟩ := x
  cases i with
  | rtcp buffer => exact .silent ⟨rfl, rfl, rfl⟩
  | others ports => exact .silent (.refl s)
  | call c =>
    by_cases hoffer : c = .offer
    · subst hoffer
      exact emitted?_description _ ▸ describes_generateOffer hs.exclusive ports
    by_cases hanswer : ∃ remote, c = .answer remote
    · obtain ⟨remote, rfl⟩ := hanswer
      exact emitted?_description _ ▸ describes_processOffer hs ports remote
    · have hquiet : ∀ remote, c ≠ .answer remote := fun remote h ↦ hanswer ⟨remote, h⟩
      dsimp only [advance]
      rw [emitted?_call s ports hoffer hquiet]
      exact .silent (sameDescriptions_call hs ports hoffer hquiet)

/-! ## Runs -/

/-- A session whose counter stands at its last description. -/
structure Numbered (s : Session) : Prop where
  /-- The first description will have version 1. -/
  fresh : s.ours = none → s.version = 1
  /-- The counter is the version of the last one. -/
  version_eq : ∀ d, s.ours = some d → d.session.version = s.version

theorem Numbered.step {d? : Option Description} (h : s.Numbered) (hstep : Describes s d? s') :
    s'.Numbered := by
  rcases hstep with ⟨hemits⟩ | ⟨hsame⟩
  · refine ⟨fun hnone ↦ ?_, fun d hd ↦ ?_⟩
    · rw [hemits.ours_eq] at hnone
      cases hnone
    · rw [hemits.ours_eq, Option.some_inj] at hd
      rw [hemits.version_eq, hd]
  · refine ⟨fun hnone ↦ ?_, fun d hd ↦ ?_⟩
    · rw [hsame.version_eq]
      exact h.fresh (hsame.ours_eq ▸ hnone)
    · rw [hsame.version_eq]
      exact h.version_eq d (hsame.ours_eq ▸ hd)

/-- The descriptions that a run emits, in order. -/
def emissions (x : Session × PortAllocator) (is : List Input) : List Description :=
  (Moment.trace advance x is).filterMap fun m ↦ emitted? m.answer

theorem emissions_cons (x : Session × PortAllocator) (i : Input) (is : List Input) :
    emissions x (i :: is) =
      (emitted? (advance x i).1).toList ++ emissions (advance x i).2 is := by
  rw [emissions, Moment.trace, List.filterMap_cons]
  cases emitted? (advance x i).1 <;> rfl

/-- What a run emits after the last description: each follows the one before it, each is the
session's, and the first of all has version 1. -/
theorem chain_emissions {x : Session × PortAllocator} (hs : x.1.Reachable) (hx : x.1.Numbered)
    (is : List Input) :
    (x.1.ours.toList ++ emissions x is).IsChain Description.Follows ∧
      (∀ d ∈ emissions x is, d.session.id = x.1.id) ∧
        (x.1.ours = none → ∀ d ∈ (emissions x is).head?, d.session.version = 1) := by
  induction is generalizing x with
  | nil =>
    refine ⟨?_, nofun, fun _ ↦ nofun⟩
    cases x.1.ours with
    | none => exact .nil
    | some d => exact .singleton d
  | cons i is ih =>
    have hstep := describes_advance hs.sound i
    obtain ⟨hchain, hids, hfirst⟩ := ih (reachable_advance hs i) (hx.step hstep)
    rw [emissions_cons]
    generalize emitted? (advance x i).1 = d? at hstep ⊢
    generalize (advance x i).2 = y at hstep hchain hids hfirst ⊢
    rcases hstep with ⟨hemits⟩ | ⟨hsame⟩
    · rename_i d
      rw [hemits.ours_eq] at hchain
      refine ⟨?_, fun d' hd' ↦ ?_, fun hnone d' hd' ↦ ?_⟩
      · -- the description stands between the last one and those that come later
        cases hours : x.1.ours with
        | none => exact hchain
        | some last =>
          exact List.isChain_cons_cons.mpr ⟨hemits.next last hours (hx.version_eq last hours),
            hchain⟩
      · rcases List.mem_cons.mp hd' with rfl | hd'
        · exact hemits.signed
        · exact (hids d' hd').trans hemits.id_eq
      · cases hd'
        rw [hemits.first hnone, hx.fresh hnone]
    · rw [hsame.ours_eq] at hchain hfirst
      exact ⟨hchain, fun d hd ↦ (hids d hd).trans hsame.id_eq, hfirst⟩

/-- **Versions count changes.** The descriptions that a session emits in any run, whatever fails and
whatever happens in between, are all its own; the first has version 1; and each that follows has the
version of the one before it if it says the same, and the next version if it says something else, as
long as there is a next version. -/
theorem versions_count_changes {config : SessionConfig} {e : Entropy}
    (h : build config e = .ok s) (ports : PortAllocator) (is : List Input) :
    (∀ d ∈ emissions (s, ports) is, d.session.id = s.id) ∧
      (∀ d ∈ (emissions (s, ports) is).head?, d.session.version = 1) ∧
        (emissions (s, ports) is).IsChain Description.Follows := by
  obtain ⟨handlers, -, rfl⟩ := build_eq h
  have hnew : (create config handlers e).Numbered := ⟨fun _ ↦ rfl, nofun⟩
  obtain ⟨hchain, hids, hfirst⟩ := chain_emissions (x := (_, ports)) (.build h) hnew is
  exact ⟨hids, hfirst rfl, hchain⟩

/-- An answer, an answer that is out of place, a restart, and the same offer twice. -/
def alternating : List Input :=
  [.call (.answer mixedOffer), .call (.accept mixedOffer), .call .restartIce, .call .offer,
    .call .offer]

theorem versions_count_changes_alternating :
    let s := ofChannels ⟨fun i ↦ i, 0⟩
    build { handlers := [.sctp {}] } ⟨fun i ↦ i, 0⟩ = .ok s ∧
      ((∀ d ∈ emissions (s, {}) alternating, d.session.id = s.id) ∧
        (∀ d ∈ (emissions (s, {}) alternating).head?, d.session.version = 1) ∧
          (emissions (s, {}) alternating).IsChain Description.Follows) ∧
        (emissions (s, {}) alternating).map (·.session.version) = [1, 2, 2] := by
  intro s
  have hbuild : build { handlers := [.sctp {}] } ⟨fun i ↦ i, 0⟩ = .ok s := rfl
  exact ⟨hbuild, versions_count_changes hbuild {} alternating, by decide +kernel⟩

end Session

end OfferAnswer
