import OfferAnswer.Proofs.Session.Plans
import OfferAnswer.Proofs.Session.Standing
import OfferAnswer.Proofs.Session.Written

/-!
# Offering again

A session that offers again does not copy its last offer. It plans every section anew, from the
outcome of the last negotiation, from its handlers and from what it offered before, and writes it
with the endpoint and the source it has by now. That the result is the last offer all the same takes
every part of the session: the handler must offer the same formats in the same order, the endpoint
must be there with the same ports, and so must the source.

`Reoffers` is what has to hold of one section, and `HasOffered` of them all. The next offer then
repeats every accepted section and has a rejection in the place of every other: `restated`. To
restate a section twice is to restate it once.
-/

namespace OfferAnswer

namespace Session

variable {s : Session} {position : Option Nat} {n : NegotiatedMedia} {o : Section}

/-! ## One section -/

/-- How the next offer has a section: as it was, or rejected. -/
def restated (n : NegotiatedMedia) (o : Section) : Section := if n.rejected then .rejected o else o

@[simp] theorem restated_restated (n : NegotiatedMedia) (o : Section) :
    restated n (restated n o) = restated n o := by
  rw [restated, restated]
  split
  · exact o.rejected_rejected
  · rfl

/-- How a section stands with the session that has offered it. -/
structure Reoffers (s : Session) (position : Option Nat) (n : NegotiatedMedia) (o : Section) :
    Prop where
  /-- It declares the identifier of its outcome. -/
  declared : o.attr? "mid" = some n.mid.text
  /-- If it is accepted, it was written for what its handler offers by itself, and is held. -/
  accepted : n.rejected = false → ∃ h base, s.handler? position = some h ∧ h.kind = n.kind ∧
    h.offer h.kind none = .ok base ∧
      let q := s.offerMux ⟨n.mid, position, base⟩
      s.Holds n.mid (offerSetup q) q.body o

theorem formats_offerMux (s : Session) (q : Planned) :
    (s.offerMux q).body.formats = q.body.formats := by
  rw [offerMux]
  split <;> rfl

theorem repeated_of_rejected (h : n.rejected = true) (s : Session) (position : Option Nat)
    (o : Section) : s.repeated n position (some o) = .ok (.rejected o) := by
  simp [repeated, h]

theorem repeated_of_accepted {h : MediaHandler} (hrej : n.rejected = false)
    (hh : s.handler? position = some h) (previous : Option Section) :
    s.repeated n position previous = h.offer n.kind previous := by
  simp [repeated, hrej, hh]

theorem Reoffers.again (h : s.Reoffers position n o) : ∃ m r,
    s.repeated n position (some o) = .ok m ∧
      Placement.Seated s.transport (s.offerMux ⟨n.mid, position, m⟩) r ∧
      r.handler = position ∧
      s.decorate r.mid (offerSetup r) r.body = (restated n o, s) := by
  rw [restated]
  cases hrej : n.rejected with
  | true =>
    let q : Planned := ⟨n.mid, position, .rejected o⟩
    have hmux : s.offerMux q = q := by
      rw [offerMux]
      exact if_neg (by simp [q, Section.isRejected, Section.rejected])
    refine ⟨.rejected o, q, repeated_of_rejected hrej s position o, ?_, rfl, ?_⟩
    · change Placement.Seated s.transport (s.offerMux q) q
      rw [hmux]
      exact .rejected rfl
    · rw [decorate_of_rejected s _ _ rfl]
      exact congrArg (·, s) (Section.add_mid_rejected h.declared)
  | false =>
    obtain ⟨handler, base, hhandler, hkind, hbase, hholds⟩ := h.accepted hrej
    obtain ⟨e, he, hcarries, hwritten⟩ := hholds.written
    let q : Planned := s.offerMux ⟨n.mid, position, base⟩
    have hmid : q.mid = n.mid := mid_offerMux s _
    -- nothing that was done to the section after the handler had offered it touched its formats
    have hformats : o.formats = base.formats := by
      have hkept := formats_decorate s n.mid (offerSetup q) (Placement.writePorts e q.body)
      rw [hwritten, Placement.formats_writePorts, formats_offerMux] at hkept
      exact hkept
    have hagain := MediaHandler.offer_again hbase hformats
    refine ⟨base, { q with body := Placement.writePorts e q.body }, ?_, ?_, ?_, ?_⟩
    · rw [repeated_of_accepted hrej hhandler, ← hkind]
      exact hagain
    · refine .carried hholds.accepted he ?_
      rw [mid_offerMux]
      exact hcarries
    · exact handler_offerMux s _
    · have hsetup : offerSetup { q with body := Placement.writePorts e q.body } = offerSetup q := by
        rw [offerSetup, offerSetup, Placement.proto_writePorts]
      rw [hsetup]
      dsimp only
      rw [hmid]
      exact hwritten

/-! ## All sections -/

/-- The sections of the next offer. -/
def restate (ns : List NegotiatedMedia) (os : List Section) : List Section :=
  List.zipWith restated ns os

theorem getElem?_restate {ns : List NegotiatedMedia} {os : List Section} {i : Nat}
    (hn : ns[i]? = some n)
    (ho : os[i]? = some o) : (restate ns os)[i]? = some (restated n o) := by
  rw [restate, List.getElem?_zipWith, hn, ho]

@[simp] theorem restate_restate (ns : List NegotiatedMedia) (os : List Section) :
    restate ns (restate ns os) = restate ns os := by
  induction ns generalizing os with
  | nil => rfl
  | cons n ns ih =>
    cases os with
    | nil => rfl
    | cons o os => exact congrArg₂ List.cons (restated_restated n o) (ih os)

theorem restate_eq_self {ns : List NegotiatedMedia} {os : List Section}
    (hlen : ns.length = os.length)
    (h : ∀ n ∈ ns, n.rejected = false) : restate ns os = os := by
  induction ns generalizing os with
  | nil =>
    cases os with
    | nil => rfl
    | cons o os => cases hlen
  | cons n ns ih =>
    cases os with
    | nil => cases hlen
    | cons o os =>
      have hone : restated n o = o := by simp [restated, h n List.mem_cons_self]
      have hrest := ih (Nat.succ.inj hlen) fun n' hn' ↦ h n' (List.mem_cons_of_mem n hn')
      exact congrArg₂ List.cons hone hrest

/-- The sections of the last offer are planned and placed again, each as it is restated. -/
theorem planRepeated_again {i : Nat} {ns : List NegotiatedMedia} {os : List Section}
    (hlen : ns.length = os.length)
    (hlast : ∀ (j : Nat) o, os[j]? = some o → s.lastAt (i + j) = some o)
    (h : ∀ (j : Nat) n o, ns[j]? = some n → os[j]? = some o →
      s.Reoffers (s.positionAt (i + j)) n o) :
    ∃ plan placed, s.planRepeated i ns = .ok plan ∧
      List.Forall₂ (fun q r ↦ Placement.Seated s.transport (s.offerMux q) r) plan placed ∧
      List.Forall₂ (fun r m ↦ s.decorate r.mid (offerSetup r) r.body = (m, s)) placed
        (restate ns os) ∧
      ∀ (j : Nat) r, placed[j]? = some r → r.handler = s.positionAt (i + j) := by
  induction ns generalizing i os with
  | nil => exact ⟨[], [], rfl, .nil, .nil, fun _ _ hr ↦ nomatch hr⟩
  | cons n ns ih =>
    cases os with
    | nil => cases hlen
    | cons o os =>
      obtain ⟨m, r, hrepeated, hseated, hposition, hdecorate⟩ := (h 0 n o rfl rfl).again
      -- the sections behind the first stand one index further on
      have hnext (j : Nat) : i + 1 + j = i + (j + 1) := by omega
      have hlater : ∀ (j : Nat) n o, ns[j]? = some n → os[j]? = some o →
          s.Reoffers (s.positionAt (i + 1 + j)) n o := fun j n o hn ho ↦
        hnext j ▸ h (j + 1) n o hn ho
      obtain ⟨plan, placed, hplan, hplaced, hwritten, hpositions⟩ :=
        ih (Nat.succ.inj hlen) (fun j o ho ↦ hnext j ▸ hlast (j + 1) o ho) hlater
      refine ⟨⟨n.mid, s.positionAt i, m⟩ :: plan, r :: placed, ?_, .cons hseated hplaced,
        .cons hdecorate hwritten, ?_⟩
      · have hprevious : s.lastAt i = some o := hlast 0 o rfl
        exact planRepeated_cons_eq_ok.mpr ⟨m, plan, hprevious ▸ hrepeated, hplan, rfl⟩
      · intro j r' hr'
        cases j with
        | zero =>
          cases hr'
          exact hposition
        | succ j =>
          rw [← hnext]
          exact hpositions j r' hr'

/-! ## The offer -/

/-- An offer that moves no endpoint, takes no port and draws nothing is put together from what its
stages give. -/
theorem generateOffer_of_stages {plan placed : List Planned} {place : Placement}
    {sections : List Section} {ports : PortAllocator}
    (hmay : ¬(s.state = .closed ∨ s.state = .offerReceived)) (hplan : s.planOffer = .ok plan)
    (hplace : Placement.placeAll s.config.portRange (fun _ ↦ s.bundles)
      (plan.map fun q ↦ (q, withoutPort)) { transport := s.transport, ports := ports } =
        (.ok placed, place))
    (htransport : place.transport = s.transport) (hports : place.ports = ports)
    (hwritten : List.Forall₂ (fun r m ↦ s.decorate r.mid (offerSetup r) r.body = (m, s)) placed
      sections) :
    let d := (s.compose (s.offerAttrs sections) sections).1
    s.generateOffer ports =
      ⟨.ok d,
        { s with
          version := d.session.version
          ours := some d
          pending := some ⟨d, placed.map (·.handler)⟩
          state := .offerGenerated },
        ports⟩ := by
  have hdecorated : s.decorateAll (placed.map fun q ↦ (q, offerSetup q)) = (sections, s) := by
    apply decorateAll_eq_self
    rw [List.forall₂_map_left_iff]
    exact hwritten
  have hstart : { s with transport := place.transport } = s := by rw [htransport]
  have hgroup : s.sessionAttrs ++ (if s.bundles then groupAttrs (acceptedMids sections) else []) =
      s.offerAttrs sections := by
    rw [offerAttrs, offerGroup]
    split <;> rfl
  -- the operation, stage by stage
  unfold withoutPort at hplace
  rw [generateOffer, if_neg hmay, hplan]
  dsimp only
  rw [hplace]
  dsimp only
  rw [hstart, hports, writeOffer, hdecorated]
  dsimp only
  rw [hgroup]
  rfl

/-- A session that has made an offer and heard of its outcome, and can make it again. -/
structure HasOffered (s : Session) (last : Description) : Prop where
  /-- The offer was its last description, -/
  ours_eq : s.ours = some last
  /-- and was written by it. -/
  written : last = s.draft s.version (s.offerAttrs last.sections) last.sections
  /-- It may offer. -/
  may_offer : ¬(s.state = .closed ∨ s.state = .offerReceived)
  /-- Every section has an outcome, -/
  length_eq : s.negotiated.length = last.sections.length
  /-- and a handler. -/
  positions_length : s.sectionHandlers.length = s.negotiated.length
  /-- No handler is without a section. -/
  placed : ∀ i < s.handlers.length, some i ∈ s.sectionHandlers
  /-- The sections are as they were written. -/
  reoffers : ∀ (i : Nat) n o, s.negotiated[i]? = some n → last.sections[i]? = some o →
    s.Reoffers (s.positionAt i) n o

def reoffer (s : Session) (last : Description) : Description :=
  let sections := restate s.negotiated last.sections
  (s.compose (s.offerAttrs sections) sections).1

/-- The session that has made the next offer. -/
def reoffered (s : Session) (last : Description) : Session :=
  { s with
    version := (s.reoffer last).session.version
    ours := some (s.reoffer last)
    pending := some ⟨s.reoffer last, s.sectionHandlers⟩
    state := .offerGenerated }

/-- **The next offer restates the last one**, and takes neither endpoint nor port. -/
theorem HasOffered.generateOffer {last : Description} (h : s.HasOffered last)
    (hexcl : s.transport.Exclusive) (ports : PortAllocator) :
    s.generateOffer ports = ⟨.ok (s.reoffer last), s.reoffered last, ports⟩ := by
  have hlast : ∀ (j : Nat) o, last.sections[j]? = some o → s.lastAt (0 + j) = some o := by
    intro j o ho
    rw [lastAt, h.ours_eq, Option.bind_some, Nat.zero_add]
    exact ho
  obtain ⟨plan, placed, hplan, hseated, hwritten, hpositions⟩ :=
    planRepeated_again (i := 0) h.length_eq
    hlast fun j n o hn ho ↦ (Nat.zero_add j).symm ▸ h.reoffers j n o hn ho
  -- every handler has its section, so no new one is planned
  have hall : ∀ x ∈ s.handlers.zipIdx, some x.2 ∈ s.sectionHandlers := by
    intro x hx
    have hget := List.mem_zipIdx_iff_getElem?.mp hx
    exact h.placed x.2 (List.getElem?_eq_some_iff.mp hget).1
  have hwhole : s.planOffer = .ok (plan.map s.offerMux) := by
    rw [planOffer, hplan]
    dsimp only
    rw [planNew_eq_self hall]
    rfl
  have hplaced : List.Forall₂ (fun x r ↦ Placement.Seated s.transport x.1 r)
      ((plan.map s.offerMux).map fun q ↦ (q, withoutPort)) placed := by
    rw [List.map_map, List.forall₂_map_left_iff]
    exact hseated
  obtain ⟨place, hplace, htransport, hports⟩ := Placement.placeAll_of_seated hexcl
    (p := { transport := s.transport, ports := ports }) rfl hplaced s.config.portRange
    (fun _ ↦ s.bundles)
  have hlen : placed.length = s.sectionHandlers.length := by
    have hrestated := hwritten.length_eq
    rw [restate, List.length_zipWith, ← h.length_eq, Nat.min_self] at hrestated
    rw [hrestated, h.positions_length]
  -- the handlers on record are read off the placed sections
  have hhandlers : placed.map (·.handler) = s.sectionHandlers := by
    apply List.ext_getElem (by rw [List.length_map, hlen])
    intro i hi hi'
    rw [List.length_map] at hi
    have hposition := hpositions i placed[i] (List.getElem?_eq_getElem hi)
    rw [List.getElem_map, hposition, Nat.zero_add, positionAt, List.getElem?_eq_getElem hi',
      Option.join_some]
  rw [generateOffer_of_stages h.may_offer hwhole hplace htransport hports hwritten, hhandlers]
  rfl

theorem sections_reoffer (s : Session) (last : Description) :
    (s.reoffer last).sections = restate s.negotiated last.sections := rfl

/-- **The last offer is repeated to the letter**, version included, if its sections are. -/
theorem HasOffered.reoffer_eq_self {last : Description} (h : s.HasOffered last)
    (hsame : restate s.negotiated last.sections = last.sections) : s.reoffer last = last := by
  rw [reoffer, hsame, compose_of_ours h.ours_eq h.written]

end Session

end OfferAnswer
