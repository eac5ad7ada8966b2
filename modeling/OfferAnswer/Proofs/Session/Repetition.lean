import OfferAnswer.Proofs.Session.Bundling
import OfferAnswer.Proofs.Session.Exhaustion
import OfferAnswer.Proofs.Session.Holding
import OfferAnswer.Proofs.Session.Listening
import OfferAnswer.Proofs.Session.Naming

/-!
# Offering twice

The second of two offers is planned from the first one, and placed with the endpoints that the first
one took. It comes out the same, and takes nothing, if every stage does again what it did before:
handlers offer the same formats, names are the least that are free, a section that was placed is
carried, and one that found no port finds none.

The last one is where it can fail. Endpoints are found by identifier, and the identifiers of a peer
need not be distinct. A section that finds no port may have the identifier of a later one that finds
some. Then the first offer withholds a port from it that the second one gives it:
`Session.Withholds`. That is the only exception, and it is one: `Session.offer_repeated_iff`.
-/

namespace OfferAnswer

open TransportBinding (Keeps)

/-! ## Placing again -/

namespace Placement

variable {p p' p₁ last : Placement} {range : PortRange} {isBundled : Mid → Bool}
  {refuse : Section → Section} {q q' r : Planned}

theorem Gathers.shared_eq_none_iff {first : Option Mid} (h : Gathers isBundled p p' first) :
    p'.shared = none ↔ p.shared = none ∧ first = none := by
  cases hshared : p.shared with
  | some id => simp [h.kept id hshared]
  | none =>
    rw [h.shared_eq hshared]
    cases first with
    | none => simp
    | some mid =>
      obtain ⟨-, id, hid⟩ := h.first_spec mid rfl
      simp [hid]

/-- How a section may be planned a second time: in the same way, or as another rejection if it is
rejected. -/
structure Alike (q q' : Planned) : Prop where
  /-- It is rejected if it was before. -/
  isRejected_eq : q'.body.isRejected = q.body.isRejected
  /-- Otherwise it is the same. -/
  eq_of_accepted : q.body.isRejected = false → q' = q

/-- A section that was placed as `r`, once it is planned again. -/
def replaced (q' r : Planned) : Planned := if q'.body.isRejected then q' else r

/-- A placement that starts where another one ended, and has come as far as that one had at `p`. -/
structure Follows (p last p' : Placement) : Prop where
  /-- It can go on. -/
  ready : p'.Ready
  /-- It moves no endpoint. -/
  transport_eq : p'.transport = last.transport
  /-- It takes no port. -/
  ports_eq : p'.ports = last.ports
  /-- A section of the bundle was placed if one was placed before. -/
  shared_iff : p'.shared = none ↔ p.shared = none

theorem follows_start {b : TransportBinding} {ports : PortAllocator} (hlast : last.Ready) :
    Follows { transport := b, ports := ports } last
      { transport := last.transport, ports := last.ports } :=
  ⟨ready_start hlast.exclusive last.ports, rfl, rfl, Iff.rfl⟩

theorem first_replaced (hp : p.Ready) (hlike : Alike q q')
    (hone : placeOne range isBundled refuse q p = (.ok r, p₁)) :
    (if (replaced q' r).body.isRejected then none else firstOf isBundled (replaced q' r).mid) =
      if r.body.isRejected then none else firstOf isBundled r.mid := by
  rw [replaced]
  split
  · rename_i hq'
    have hq : q.body.isRejected = true := hlike.isRejected_eq ▸ hq'
    obtain rfl : r = q := (hp.of_placeOne hone).2.2.eq_of_rejected hq
    rw [if_pos hq]
  · rfl

theorem seated_replaced (hp : p.Ready) (hrefuse : ∀ m, (refuse m).isRejected = true)
    (hlike : Alike q q') (hone : placeOne range isBundled refuse q p = (.ok r, p₁))
    (hkeeps : Keeps (fun _ ↦ True) p₁.transport last.transport)
    (hplaced : q.body.isRejected = false → r.body.isRejected = false) :
    Seated last.transport q' (replaced q' r) := by
  rw [replaced]
  split
  · exact .rejected ‹_›
  · rename_i hq'
    have hq : q.body.isRejected = false := by
      rw [← hlike.isRejected_eq]
      exact Bool.eq_false_iff.mpr hq'
    obtain rfl : q' = q := hlike.eq_of_accepted hq
    cases (hp.of_placeOne hone).2.2.mono hkeeps with
    | rejected hrej => exact .rejected hrej
    | carried hrej he hmid => exact .carried hrej he hmid
    | refused _ => exact absurd ((hrefuse _).symm.trans (hplaced hq)) Bool.noConfusion

/-- **A section is placed as before**, if it is not carried now that found no port. -/
theorem Follows.placeOne_again (hf : Follows p last p') (hp : p.Ready)
    (hrefuse : ∀ m, (refuse m).isRejected = true) (hlike : Alike q q')
    (hone : placeOne range isBundled refuse q p = (.ok r, p₁))
    (hkeeps : Keeps (fun _ ↦ True) p₁.transport last.transport)
    (hused : p₁.ports.used ⊆ last.ports.used)
    (hfound : q.body.isRejected = false → r.body.isRejected = true →
      last.transport.carrier? q.mid = none) :
    ∃ p₁', placeOne range isBundled refuse q' p' = (.ok (replaced q' r), p₁') ∧
      Follows p₁ last p₁' := by
  have hagain : ∃ p₁', placeOne range isBundled refuse q' p' = (.ok (replaced q' r), p₁') ∧
      p₁'.transport = last.transport ∧ p₁'.ports = p'.ports := by
    by_cases hlost : q.body.isRejected = false ∧ r.body.isRejected = true
    · -- what found no port has nowhere to go now
      obtain ⟨hq, hr⟩ := hlost
      obtain rfl : q' = q := hlike.eq_of_accepted hq
      obtain ⟨hstranded, rfl, rfl⟩ := stranded_of_placeOne hp hone hq hr
      have hagain : Stranded range (isBundled q'.mid) q'.mid q'.body p' :=
        ⟨hf.transport_eq ▸ hfound hq hr,
          fun hbundled ↦ hf.shared_iff.mpr (hstranded.unshared hbundled),
          hf.ports_eq ▸ hstranded.short.mono hused⟩
      refine ⟨p', ?_, hf.transport_eq, rfl⟩
      rw [placeOne, hq, if_neg Bool.false_ne_true, place_eq_noPorts_iff.mpr hagain, replaced, hq,
        if_neg Bool.false_ne_true]
    · -- what is rejected or carried needs nothing
      have hplaced : q.body.isRejected = false → r.body.isRejected = false := fun hq ↦
        Bool.eq_false_iff.mpr fun hr ↦ hlost ⟨hq, hr⟩
      exact placeOne_of_seated (hf.transport_eq ▸ hf.ready.exclusive) hf.transport_eq
        (seated_replaced hp hrefuse hlike hone hkeeps hplaced) range isBundled refuse
  obtain ⟨p₁', hone', htransport, hports⟩ := hagain
  refine ⟨p₁', hone', (hf.ready.of_placeOne hone').1, htransport, hports.trans hf.ports_eq, ?_⟩
  rw [(gathers_placeOne hf.ready range hrefuse hone').shared_eq_none_iff,
    (gathers_placeOne hp range hrefuse hone).shared_eq_none_iff, hf.shared_iff,
    first_replaced hp hlike hone]

/-- **All sections are placed as before**, if none is carried now that found no port. -/
theorem Follows.placeAll_again {plan plan' placed : List Planned} (hf : Follows p last p')
    (hp : p.Ready) (hrefuse : ∀ m, (refuse m).isRejected = true)
    (hlike : List.Forall₂ Alike plan plan')
    (hall : placeAll range isBundled (plan.map fun q ↦ (q, refuse)) p = (.ok placed, last))
    (hfound : List.Forall₂ (fun q r ↦ q.body.isRejected = false → r.body.isRejected = true →
      last.transport.carrier? q.mid = none) plan placed) :
    ∃ p'', placeAll range isBundled (plan'.map fun q ↦ (q, refuse)) p' =
      (.ok (List.zipWith replaced plan' placed), p'') ∧ Follows last last p'' := by
  induction hlike generalizing p p' placed with
  | nil =>
    cases hall
    exact ⟨p', rfl, hf⟩
  | @cons q q' plan plan' hone hrest ih =>
    obtain ⟨r, p₁, rest, hplace, hplaces, rfl⟩ := placeAll_cons_eq_ok hall
    obtain ⟨hp₁, -, -⟩ := hp.of_placeOne hplace
    have hkeeps := (hp₁.of_placeAll hplaces).2.1
    have hused := used_subset_placeAll range isBundled (plan.map fun q ↦ (q, refuse)) p₁
    rw [hplaces] at hused
    cases hfound with
    | cons hfound₁ hfounds =>
      obtain ⟨p₁', hplace', hf₁⟩ := hf.placeOne_again hp hrefuse hone hplace hkeeps hused hfound₁
      obtain ⟨p'', hplaces', hlast⟩ := ih hf₁ hp₁ hplaces hfounds
      refine ⟨p'', ?_, hlast⟩
      rw [List.map_cons, placeAll, hplace']
      dsimp only
      rw [hplaces']
      rfl

/-! ## Sections without a port -/

/-- What is carried before anything is placed has a port in the end. -/
theorem accepted_of_carried (hp : p.Ready) {plan : List (Planned × (Section → Section))}
    {placed : List Planned} (h : placeAll range isBundled plan p = (.ok placed, p')) :
    List.Forall₂ (fun x r ↦ x.1.body.isRejected = false → p.transport.Carried x.1.mid →
      r.body.isRejected = false) plan placed := by
  induction plan generalizing p placed with
  | nil =>
    cases h
    exact .nil
  | cons x plan ih =>
    obtain ⟨r, p₁, rest, hone, hall, rfl⟩ := placeAll_cons_eq_ok h
    obtain ⟨hp₁, hkeeps, -⟩ := hp.of_placeOne hone
    refine .cons (fun hq hcarried ↦ ?_) ((ih hp₁ hall).imp fun _ _ hx hq hcarried ↦ hx hq ?_)
    · by_contra hr
      obtain ⟨hstranded, -⟩ := stranded_of_placeOne hp hone hq (Bool.not_eq_false _ ▸ hr)
      exact TransportBinding.carried_iff.mp hcarried hstranded.uncarried
    · obtain ⟨e, he, hmid⟩ := hcarried
      obtain ⟨e', he', -, -, -, hmid'⟩ := hkeeps e he _ hmid trivial
      exact ⟨e', he', hmid'⟩

/-- A section that found no port is carried in the end only on account of another one. -/
theorem exists_accepted_of_carried (hp : p.Ready) {plan : List (Planned × (Section → Section))}
    {placed : List Planned} (h : placeAll range isBundled plan p = (.ok placed, p')) :
    List.Forall₂ (fun x r ↦ x.1.body.isRejected = false → r.body.isRejected = true →
      p'.transport.Carried x.1.mid →
        ∃ r' ∈ placed, r'.mid = x.1.mid ∧ r'.body.isRejected = false) plan placed := by
  refine (accepted_of_carried hp h).imp fun x r haccepted hq hr hcarried ↦ ?_
  refine (carried_placeAll hp h hcarried).resolve_left fun hbefore ↦ ?_
  exact Bool.noConfusion (hr.symm.trans (haccepted hq hbefore))

end Placement

/-! ## Planning again -/

namespace Session

variable {s s' : Session}

/-- How a section is planned for the next offer, once it was offered. -/
def replanned (q : Planned) (o : Section) : Planned :=
  if q.body.isRejected then { q with body := .rejected o } else q

theorem alike_replanned (q : Planned) (o : Section) : Placement.Alike q (replanned q o) := by
  rw [replanned]
  split
  · rename_i hq
    exact ⟨hq.symm, fun haccepted ↦ absurd (haccepted.symm.trans hq) Bool.noConfusion⟩
  · exact ⟨rfl, fun _ ↦ rfl⟩

theorem replanned_offerMux (s : Session) (q : Planned) (o : Section) :
    replanned (s.offerMux q) o = s.offerMux (replanned q o) := by
  rw [replanned, isRejected_offerMux, replanned]
  split
  · rename_i hq
    rw [offerMux_of_rejected s hq, offerMux_of_rejected s rfl]
  · rfl

theorem repeated_again {n : NegotiatedMedia} {position : Option Nat} {previous : Option Section}
    {m o : Section} (h : s.repeated n position previous = .ok m)
    (hhandlers : s'.handlers = s.handlers)
    (ho : o.formats = m.formats) :
    s'.repeated n position (some o) = .ok (if m.isRejected then .rejected o else m) := by
  have hhandler : s'.handler? position = s.handler? position := by
    rw [handler?, handler?, hhandlers]
  unfold repeated at h ⊢
  dsimp only at h ⊢
  rw [hhandler]
  split at h
  · rename_i handler hoffered
    rw [hoffered, MediaHandler.isRejected_of_offer h, if_neg Bool.false_ne_true]
    exact MediaHandler.offer_again h ho
  · rename_i hnone
    cases h
    rw [hnone]
    rfl
  · rename_i hnone
    cases h
    rw [hnone]
    rfl

theorem rejection_of_planOffer {plan : List Planned} (h : s.planOffer = .ok plan) {q : Planned}
    (hq : q ∈ plan) (hrej : q.body.isRejected = true) : ∃ m, q.body = .rejected m := by
  obtain ⟨i, hi⟩ := List.mem_iff_getElem?.mp hq
  obtain ⟨q₀, hdraft, rfl⟩ := drafted_of_planOffer h hi
  rw [isRejected_offerMux] at hrej
  rw [offerMux_of_rejected s hrej]
  cases hdraft with
  | repeated _ hm =>
    unfold repeated at hm
    dsimp only at hm hrej
    split at hm
    · exact absurd ((MediaHandler.isRejected_of_offer hm).symm.trans hrej) Bool.noConfusion
    · cases hm
      exact ⟨_, rfl⟩
    · cases hm
      -- what was never described is the rejection of itself
      exact ⟨{ kind := _, port := 0, proto := _ }, rfl⟩
  | added _ _ _ hm =>
    exact absurd ((MediaHandler.isRejected_of_offer hm).symm.trans hrej) Bool.noConfusion

theorem planRepeated_twice {i : Nat} {ns : List NegotiatedMedia} {plan : List Planned}
    {os : List Section} (h : s.planRepeated i ns = .ok plan) (hhandlers : s'.handlers = s.handlers)
    (hpositions : s'.sectionHandlers = s.sectionHandlers)
    (hos : ∀ (j : Nat) q, plan[j]? = some q → ∃ o, os[j]? = some o ∧ o.formats = q.body.formats)
    (hlast : ∀ (j : Nat) o, os[j]? = some o → s'.lastAt (i + j) = some o) :
    s'.planRepeated i ns = .ok (List.zipWith replanned plan os) := by
  induction ns generalizing i plan os with
  | nil =>
    cases h
    rfl
  | cons n ns ih =>
    obtain ⟨m, rest, hone, hrest, rfl⟩ := planRepeated_cons_eq_ok.mp h
    obtain ⟨o, ho, hformats⟩ := hos 0 _ rfl
    cases os with
    | nil => cases ho
    | cons o' os =>
      cases ho
      have hposition : s'.positionAt i = s.positionAt i := by
        rw [positionAt, positionAt, hpositions]
      have hlater := ih hrest (fun j q hq ↦ hos (j + 1) q hq) fun j o ho ↦ by
        rw [Nat.add_right_comm]
        exact hlast (j + 1) o ho
      have hagain := repeated_again hone hhandlers hformats
      rw [← hposition, ← hlast 0 o rfl] at hagain
      refine planRepeated_cons_eq_ok.mpr ⟨_, _, hagain, hlater, ?_⟩
      rw [hposition, List.zipWith_cons_cons, replanned]
      dsimp only
      split <;> rfl

theorem planNew_twice {xs : List (MediaHandler × Nat)} {plan plan' added : List Planned}
    (h : s.planNew xs plan = .ok (plan ++ added))
    (hpositions : s'.sectionHandlers = s.sectionHandlers)
    (hmids : plan'.map (·.mid) = plan.map (·.mid))
    (hfew : plan.length + xs.length ≤ Mid.indexBound) :
    s'.planNew xs plan' = .ok (plan' ++ added) := by
  induction xs generalizing plan plan' added with
  | nil =>
    obtain rfl : added = [] := by simpa [planNew] using h
    rw [List.append_nil]
    rfl
  | cons x xs ih =>
    rw [List.length_cons] at hfew
    rw [planNew] at h
    rw [planNew, hpositions]
    split at h
    · rename_i htaken
      rw [if_pos htaken]
      exact ih h hmids (by omega)
    · rename_i htaken
      rw [if_neg htaken]
      split at h
      · cases h
      · rename_i m _
        -- the same names are taken, so the same one is free
        have hname : s'.freeMid (plan'.map (·.mid)) = s.freeMid (plan.map (·.mid)) := by
          rw [hmids, freeMid_eq_newMid s', freeMid_eq_newMid s] <;> rw [List.length_map] <;> omega
        -- the section is the first of those that were added
        obtain ⟨added', hadded, -⟩ := planNew_spec h
        rw [List.append_assoc] at hadded
        obtain rfl := List.append_cancel_left hadded
        rw [← List.append_assoc] at h
        let q : Planned := ⟨s.freeMid (plan.map (·.mid)), some x.2, m⟩
        have hnext : s'.planNew xs (plan' ++ [q]) = .ok (plan' ++ [q] ++ added') :=
          ih h (by simp [hmids, q])
            (by simp only [List.length_append, List.length_singleton]; omega)
        rw [hname]
        rw [List.append_assoc] at hnext
        exact hnext

theorem zipWith_replanned_append {repeats added : List Planned} {os : List Section}
    (hlen : os.length = repeats.length + added.length)
    (hadded : ∀ q ∈ added, q.body.isRejected = false) :
    List.zipWith replanned (repeats ++ added) os = List.zipWith replanned repeats os ++ added := by
  induction repeats generalizing os with
  | nil =>
    rw [List.length_nil, Nat.zero_add] at hlen
    rw [List.nil_append, List.zipWith_nil_left, List.nil_append]
    refine List.ext_getElem (by simp [hlen]) fun i _ hi ↦ ?_
    rw [List.getElem_zipWith, replanned, hadded _ (List.getElem_mem hi), if_neg Bool.false_ne_true]
  | cons q repeats ih =>
    cases os with
    | nil => exact absurd hlen (by simp; omega)
    | cons o os =>
      rw [List.length_cons, List.length_cons, Nat.add_right_comm] at hlen
      rw [List.cons_append, List.zipWith_cons_cons, List.zipWith_cons_cons, ih (Nat.succ.inj hlen)]
      rfl

theorem offerMux_congr (h : s'.config = s.config) : s'.offerMux = s.offerMux := by
  funext q
  rw [offerMux, offerMux, h]

end Session

namespace Offering

open Session

variable {s : Session} {run : Offering s} {i : Nat} {q r : Planned} {o : Section}

theorem planRepeated_again (run : Offering s) {repeats added : List Planned}
    (hrepeats : s.planRepeated 0 s.negotiated = .ok repeats)
    (hplan : run.plan = (repeats ++ added).map s.offerMux) :
    run.written.2.planRepeated 0 s.negotiated =
      .ok (List.zipWith replanned repeats run.offer.sections) := by
  obtain ⟨ssrcs, e, version, hwritten⟩ := run.written_eq
  refine planRepeated_twice hrepeats (by rw [hwritten]) (by rw [hwritten]) (fun j q hq ↦ ?_)
    fun j o ho ↦ ?_
  · have hplanned : run.plan[j]? = some (s.offerMux q) := by
      rw [hplan, List.getElem?_map,
        List.getElem?_append_left (List.getElem?_eq_some_iff.mp hq).1, hq]
      rfl
    have hj : j < run.offer.sections.length :=
      run.length_sections ▸ (List.getElem?_eq_some_iff.mp hplanned).1
    obtain ⟨q', r, hrow⟩ := run.exists_row (List.getElem?_eq_getElem hj)
    obtain rfl := Option.some.inj (hrow.planned.symm.trans hplanned)
    exact ⟨_, List.getElem?_eq_getElem hj, hrow.formats_eq.trans (formats_offerMux s q)⟩
  · rw [lastAt, hwritten, Nat.zero_add]
    exact ho

/-- **What was planned is planned again.** -/
theorem planOffer_again (run : Offering s) (hfew : s.NamesSuffice) :
    run.written.2.planOffer = .ok (List.zipWith replanned run.plan run.offer.sections) := by
  obtain ⟨repeats, added, hrepeats, hnew, hplan⟩ := planOffer_spec run.plan_eq
  have hlength := (planRepeated_spec hrepeats).1
  have hsections : run.offer.sections.length = repeats.length + added.length := by
    rw [run.length_sections, hplan, List.length_map, List.length_append]
  have hadded : ∀ q ∈ added, q.body.isRejected = false := by
    obtain ⟨added', heq, hoffered, -⟩ := planNew_spec hnew
    obtain rfl := List.append_cancel_left heq
    intro q hq
    obtain ⟨x, -, mids, m, hm, rfl⟩ := hoffered q hq
    exact MediaHandler.isRejected_of_offer hm
  obtain ⟨ssrcs, e, version, hwritten⟩ := run.written_eq
  have hagain := run.planRepeated_again hrepeats hplan
  have hpositions : run.written.2.sectionHandlers = s.sectionHandlers := by rw [hwritten]
  have hnew' := planNew_twice hnew hpositions
    ((planRepeated_mids hagain).trans (planRepeated_mids hrepeats).symm)
    (by rw [List.length_zipIdx, hlength]; exact hfew)
  have hmux : run.written.2.offerMux = s.offerMux := offerMux_congr (by rw [hwritten])
  rw [planOffer, hmux, show run.written.2.negotiated = s.negotiated by rw [hwritten],
    show run.written.2.handlers = s.handlers by rw [hwritten], hagain]
  dsimp only
  rw [hnew', ← zipWith_replanned_append hsections hadded, hplan, List.zipWith_map_left]
  simp only [replanned_offerMux]
  rw [Except.map, List.map_zipWith]

/-! ## Writing again -/

/-- What is placed for the second offer. -/
def placedAgain (run : Offering s) : List Planned :=
  List.zipWith Placement.replaced (List.zipWith replanned run.plan run.offer.sections) run.placed

theorem length_placedAgain (run : Offering s) :
    run.placedAgain.length = run.offer.sections.length := by
  rw [placedAgain, List.length_zipWith, List.length_zipWith, run.length_placed, run.length_sections,
    Nat.min_self, Nat.min_self]

theorem Row.placedAgain (hrow : run.Row i q r o) (ho : run.offer.sections[i]? = some o) :
    run.placedAgain[i]? = some (Placement.replaced (replanned q o) r) := by
  rw [Offering.placedAgain, List.getElem?_zipWith, List.getElem?_zipWith, hrow.planned, ho,
    hrow.placed]

theorem Row.decorate_again (hrow : run.Row i q r o) (ho : run.offer.sections[i]? = some o) :
    let r' := Placement.replaced (replanned q o) r
    run.written.2.decorate r'.mid (offerSetup r') r'.body = (o, run.written.2) ∧
      r'.handler = r.handler := by
  cases hq : q.body.isRejected with
  | false =>
    rw [replanned, hq, if_neg Bool.false_ne_true, Placement.replaced, hq,
      if_neg Bool.false_ne_true]
    exact ⟨hrow.written_again ho, rfl⟩
  | true =>
    have hmem := List.mem_of_getElem? hrow.planned
    have htidy := (unsigned_planOffer run.plan_eq q hmem).tidy
    obtain ⟨m, hm⟩ := rejection_of_planOffer run.plan_eq hmem hq
    obtain rfl : r = q := hrow.fate.eq_of_rejected hq
    obtain ⟨ssrcs, e, hwritten⟩ := hrow.written
    have hdeclared : o.attr? "mid" = some r.mid.text := by
      rw [hwritten, attr?_mid_decorate htidy]
    rw [decorate_rejected _ _ _ hq, hm] at hwritten
    -- a rejection under a name is the rejection of itself, under that name
    have hsame : o = .rejected o := by
      rw [hwritten]
      exact (Section.rejected_add_mid m r.mid.text).symm
    have hreplaced : Placement.replaced (replanned r o) r = { r with body := .rejected o } := by
      rw [replanned, if_pos hq]
      exact if_pos rfl
    rw [hreplaced]
    refine ⟨?_, rfl⟩
    rw [decorate_of_rejected _ _ _ rfl, midAttr, Section.add_mid_rejected hdeclared, ← hsame]

/-- **What was written is written again**, and its handlers are as before. -/
theorem decorateAll_placedAgain (run : Offering s) :
    List.Forall₂ (fun r m ↦ run.written.2.decorate r.mid (offerSetup r) r.body = (m, run.written.2))
      run.placedAgain run.offer.sections ∧
      run.placedAgain.map (·.handler) = run.placed.map (·.handler) := by
  constructor
  · refine forall₂_of_getElem? run.length_placedAgain fun i r' o hr' ho ↦ ?_
    obtain ⟨q, r, hrow⟩ := run.exists_row ho
    obtain rfl := Option.some.inj ((hrow.placedAgain ho).symm.trans hr')
    exact (hrow.decorate_again ho).1
  · have hlength : run.placedAgain.length = run.placed.length :=
      run.length_placedAgain.trans (run.length_sections.trans run.length_placed.symm)
    refine List.ext_getElem (by simp [hlength]) fun i hi hi' ↦ ?_
    rw [List.length_map] at hi
    obtain ⟨o, ho⟩ : ∃ o, run.offer.sections[i]? = some o :=
      ⟨_, List.getElem?_eq_getElem (run.length_placedAgain ▸ hi)⟩
    obtain ⟨q, r, hrow⟩ := run.exists_row ho
    have hagain := (List.getElem?_eq_getElem hi).symm.trans (hrow.placedAgain ho)
    have hplaced := (List.getElem?_eq_getElem (hlength ▸ hi)).symm.trans hrow.placed
    rw [List.getElem_map, List.getElem_map, Option.some.inj hagain, Option.some.inj hplaced]
    exact (hrow.decorate_again ho).2

/-! ## The second offer -/

theorem written_again (run : Offering s) :
    { run.written.2 with
      version := run.offer.session.version
      ours := some run.offer
      pending := some ⟨run.offer, run.placed.map (·.handler)⟩
      state := .offerGenerated } = run.written.2 := by
  have hversion : run.offer.session.version = run.written.2.version :=
    congrArg (·.session.version) run.offer_eq
  obtain ⟨ssrcs, e, version, hwritten⟩ := run.written_eq
  rw [hversion, hwritten]

theorem compose_again (run : Offering s) :
    run.written.2.compose (run.written.2.offerAttrs run.offer.sections) run.offer.sections =
      (run.offer, run.written.2) := by
  obtain ⟨ssrcs, e, version, hwritten⟩ := run.written_eq
  have hconfig : run.written.2.config = s.config := by rw [hwritten]
  have hid : run.written.2.id = s.id := by rw [hwritten]
  refine compose_of_ours (by rw [hwritten]) ?_
  rw [draft, hid, offerAttrs_congr hconfig]
  exact run.offer_eq

/-- **The second offer is the first one**, and takes nothing, if no section is carried that found no
port. -/
theorem generateOffer_again (run : Offering s) {ports : PortAllocator}
    (hexcl : s.transport.Exclusive) (hfew : s.NamesSuffice)
    (hplace : Placement.placeAll s.config.portRange (fun _ ↦ s.bundles)
      (run.plan.map fun q ↦ (q, withoutPort)) { transport := s.transport, ports := ports } =
        (.ok run.placed, run.place))
    (hfound : List.Forall₂ (fun q r ↦ q.body.isRejected = false → r.body.isRejected = true →
      run.place.transport.carrier? q.mid = none) run.plan run.placed) :
    run.written.2.generateOffer run.place.ports =
      ⟨.ok run.offer, run.written.2, run.place.ports⟩ := by
  have hlike : List.Forall₂ Placement.Alike run.plan
      (List.zipWith replanned run.plan run.offer.sections) := by
    refine forall₂_of_getElem? (by simp [run.length_sections]) fun i q q' hq hq' ↦ ?_
    rw [List.getElem?_zipWith, hq] at hq'
    cases ho : run.offer.sections[i]? with
    | none => simp [ho] at hq'
    | some o =>
      obtain rfl : replanned q o = q' := by simpa [ho] using hq'
      exact alike_replanned q o
  -- every section is placed where it is, which takes nothing
  obtain ⟨place, hplaces, hlast⟩ := (Placement.follows_start run.ready).placeAll_again
    (Placement.ready_start hexcl ports) (fun _ ↦ rfl) hlike hplace hfound
  obtain ⟨ssrcs, e, version, hwritten⟩ := run.written_eq
  have htransport : run.written.2.transport = run.place.transport := by rw [hwritten]
  have hconfig : run.written.2.config = s.config := by rw [hwritten]
  have hbundles : run.written.2.bundles = s.bundles := by rw [bundles, bundles, hconfig]
  have hmay : ¬(run.written.2.state = .closed ∨ run.written.2.state = .offerReceived) := by
    have hstate : run.written.2.state = .offerGenerated := by rw [hwritten]
    rw [hstate]
    decide
  obtain ⟨hdecorated, hhandlers⟩ := run.decorateAll_placedAgain
  rw [← htransport, ← hconfig, ← hbundles] at hplaces
  change _ = (Except.ok run.placedAgain, place) at hplaces
  rw [generateOffer_of_stages hmay (run.planOffer_again hfew) hplaces
    (hlast.transport_eq.trans htransport.symm) hlast.ports_eq hdecorated, run.compose_again,
    hhandlers]
  exact congrArg (Reply.mk (.ok run.offer) · run.place.ports) run.written_again

end Offering

/-! ## The operation -/

namespace Session

variable {s : Session} {ports : PortAllocator} {offer : Description}

/-- Whether an offer withholds a port: a section of it has none although it was not rejected, and
another one of the same name has one. -/
def Withholds (s : Session) (offer : Description) : Prop :=
  ∃ (i j : Nat) (o o' : Section), offer.sections[i]? = some o ∧ offer.sections[j]? = some o' ∧
    o.mid? = o'.mid? ∧ o.isRejected = true ∧ o'.isRejected = false ∧
      ∀ n, s.negotiated[i]? = some n → n.rejected = false

theorem not_withholds_of_nodup (h : (offer.sections.map Section.mid?).Nodup) :
    ¬s.Withholds offer := by
  rintro ⟨i, j, o, o', ho, ho', hmid, hrejected, haccepted, -⟩
  have hi : i < (offer.sections.map Section.mid?).length := by
    rw [List.length_map]
    exact (List.getElem?_eq_some_iff.mp ho).1
  obtain rfl : i = j := (List.getElem?_inj hi h).mp (by
    rw [List.getElem?_map, List.getElem?_map, ho, ho', Option.map_some, Option.map_some, hmid])
  obtain rfl : o = o' := Option.some.inj (ho.symm.trans ho')
  exact Bool.noConfusion (hrejected.symm.trans haccepted)

/-- A section that found no port is not carried in the end, if the offer withholds none. -/
theorem uncarried_of_not_withholds (hs : s.Reachable) (run : Offering s)
    (hplace : Placement.placeAll s.config.portRange (fun _ ↦ s.bundles)
      (run.plan.map fun q ↦ (q, withoutPort)) { transport := s.transport, ports := ports } =
        (.ok run.placed, run.place))
    (hnone : ¬s.Withholds run.offer) :
    List.Forall₂ (fun q r ↦ q.body.isRejected = false → r.body.isRejected = true →
      run.place.transport.carrier? q.mid = none) run.plan run.placed := by
  have hlegible := hs.mentioned.legible
  have hothers := Placement.exists_accepted_of_carried
    (Placement.ready_start hs.sound.exclusive ports) hplace
  refine forall₂_of_getElem? run.length_placed.symm fun i q r hq hr haccepted hrejected ↦ ?_
  by_contra hcarried
  obtain ⟨q₀, o, ho, hrow⟩ := run.exists_row_of_placed hr
  obtain rfl : q₀ = q := Option.some.inj (hrow.planned.symm.trans hq)
  obtain ⟨r', hr', hmid, haccepted'⟩ :=
    hrow.of_placed hothers haccepted hrejected (TransportBinding.carried_iff.mpr hcarried)
  obtain ⟨j, hj⟩ := List.mem_iff_getElem?.mp hr'
  obtain ⟨q', o', ho', hrow'⟩ := run.exists_row_of_placed hj
  refine hnone ⟨i, j, o, o', ho, ho', ?_, ?_, ?_, fun n hn ↦ ?_⟩
  · rw [hrow.mid?_eq hlegible, hrow'.mid?_eq hlegible, ← hmid, hrow'.fate.mid_eq]
  · exact hrow.isRejected_eq.trans hrejected
  · exact hrow'.isRejected_eq.trans haccepted'
  · by_contra hrej
    have hplanned := (hs.staffed.isRejected_of_planOffer hs.sound run.plan_eq hrow.planned).mpr
      ⟨n, hn, Bool.not_eq_false _ ▸ hrej⟩
    exact Bool.noConfusion (haccepted.symm.trans hplanned)

/-- A section whose name is carried before an offer gets a port, unless it was rejected. -/
theorem accepted_of_named (hs : s.Reachable) (run : Offering s)
    (hplace : Placement.placeAll s.config.portRange (fun _ ↦ s.bundles)
      (run.plan.map fun q ↦ (q, withoutPort)) { transport := s.transport, ports := ports } =
        (.ok run.placed, run.place)) {i : Nat} {o : Section} {mid : Mid}
    (ho : run.offer.sections[i]? = some o) (hmid : o.mid? = some mid)
    (hcarried : s.transport.Carried mid)
    (hplanned : ∀ n, s.negotiated[i]? = some n → n.rejected = false) : o.isRejected = false := by
  obtain ⟨q, r, hrow⟩ := run.exists_row ho
  obtain rfl : q.mid = mid :=
    Option.some.inj ((hrow.mid?_eq hs.mentioned.legible).symm.trans hmid)
  have hq : q.body.isRejected = false := by
    rw [Bool.eq_false_iff]
    intro hrej
    obtain ⟨n, hn, hn'⟩ :=
      (hs.staffed.isRejected_of_planOffer hs.sound run.plan_eq hrow.planned).mp hrej
    exact Bool.noConfusion ((hplanned n hn).symm.trans hn')
  have haccepted := hrow.of_placed (Placement.accepted_of_carried
    (Placement.ready_start hs.sound.exclusive ports) hplace)
  exact hrow.isRejected_eq.trans (haccepted hq hcarried)

/-- **Offering twice is offering once, if and only if the first offer withholds no port.**

The second offer is then the same description, with its version and its sources, and leaves session
and ports as the first one did, also where ports ran out. An offer that withholds a port is followed
by one that gives it. -/
theorem offer_repeated_iff (hs : s.Reachable) (hfew : s.NamesSuffice)
    (h : (s.generateOffer ports).result = .ok offer) :
    (s.generateOffer ports).session.generateOffer (s.generateOffer ports).ports =
      s.generateOffer ports ↔ ¬s.Withholds offer := by
  have hexcl := hs.sound.exclusive
  have hs' : (s.generateOffer ports).session.Reachable := .call ports .offer hs
  obtain ⟨run, hr, hplace⟩ := generateOffer_placed hexcl h
  rw [hr] at h hs' ⊢
  obtain rfl : run.offer = offer := Except.ok.inj h
  obtain ⟨ssrcs, e, version, hwritten⟩ := run.written_eq
  constructor
  · rintro hsame ⟨i, j, o, o', ho, ho', hmid, hrejected, haccepted, hplanned⟩
    -- the first offer carries the name, so the second one cannot leave the section without a port
    obtain ⟨q, r, hrow⟩ := run.exists_row ho'
    obtain ⟨e', he', hcarries, -⟩ := hrow.carried haccepted
    obtain ⟨again, hr', hplace'⟩ :=
      generateOffer_placed hs'.sound.exclusive (congrArg Reply.result hsame)
    have hoffer : again.offer = run.offer :=
      Except.ok.inj (congrArg Reply.result (hr'.symm.trans hsame))
    have hport := accepted_of_named hs' again hplace' (hoffer ▸ ho)
      (hmid.trans (hrow.mid?_eq hs.mentioned.legible))
      (by rw [hwritten]; exact ⟨e', he', hcarries⟩) (by rw [hwritten]; exact hplanned)
    exact Bool.noConfusion (hport.symm.trans hrejected)
  · intro hnone
    exact run.generateOffer_again hexcl hfew hplace (uncarried_of_not_withholds hs run hplace hnone)

/-- Audio that finds no port finds none the second time, and the channel keeps the one it has. -/
theorem narrow_offered_twice :
    let s := ofNarrow ⟨fun i ↦ i, 0⟩
    let r := s.generateOffer { used := [10000] }
    s.Reachable ∧ s.NamesSuffice ∧ (∃ offer, r.result = .ok offer ∧
      offer.sections.map (·.port) = [0, 10001] ∧ ¬s.Withholds offer) ∧
        r.session.generateOffer r.ports = r := by
  intro s r
  have hs : s.Reachable := reachable_ofNarrow _
  have hfew : s.NamesSuffice := by
    rw [NamesSuffice]
    decide +kernel
  have hshape : r.result.toOption.map (fun d ↦ d.sections.map fun o ↦ (o.port, o.mid?)) =
      some [(0, some (.ofIndex 0)), (10001, some (.ofIndex 1))] := by
    decide +kernel
  cases h : r.result with
  | error e =>
    rw [h] at hshape
    cases hshape
  | ok offer =>
    rw [h] at hshape
    replace hshape : offer.sections.map (fun o ↦ (o.port, o.mid?)) =
      [(0, some (.ofIndex 0)), (10001, some (.ofIndex 1))] := Option.some_inj.mp hshape
    have hports : offer.sections.map (·.port) = [0, 10001] := by
      simpa [Function.comp_def] using congrArg (List.map Prod.fst) hshape
    have hmids : offer.sections.map Section.mid? = [some (.ofIndex 0), some (.ofIndex 1)] := by
      simpa [Function.comp_def] using congrArg (List.map Prod.snd) hshape
    have hnone : ¬s.Withholds offer := not_withholds_of_nodup (by rw [hmids]; decide +kernel)
    exact ⟨hs, hfew, ⟨offer, rfl, hports, hnone⟩, (offer_repeated_iff hs hfew h).mpr hnone⟩

/-- An offer of audio, of a data channel and of audio that is switched off, all of one name. -/
def namesakes : Description where
  session := { id := 1, version := 1 }
  sections := [audioSection "a" ["0"] [.flag "rtcp-mux"],
    { kind := .application, port := 9, proto := "UDP/DTLS/SCTP", formats := ["webrtc-datachannel"],
      attrs := [.of "mid" "a", .of "ice-ufrag" "u", .of "ice-pwd" "p", .of "setup" "actpass",
        .of "sctp-port" "5000"] },
    { audioSection "a" ["0"] [] with port := 0 }]

/-- What a session makes of it that has one port for both. -/
def ofNamesakes : Reply SessionResult :=
  (ofNarrow ⟨fun i ↦ i, 0⟩).call { used := [10000] } (.answer namesakes)

/-- The first offer after that gives the one port to the channel. The second one finds the name of
the channel carried, and gives the port to the audio, too. -/
theorem namesakes_offered_twice :
    ¬∀ (s : Session) (ports : PortAllocator), s.Reachable →
      (s.generateOffer ports).result.isOk = true →
        (s.generateOffer ports).session.generateOffer (s.generateOffer ports).ports =
          s.generateOffer ports := by
  intro hrepeats
  have hs : ofNamesakes.session.Reachable := .call _ _ (reachable_ofNarrow _)
  have hfirst : (ofNamesakes.session.generateOffer ofNamesakes.ports).result.toOption.map
      (fun d ↦ d.sections.map (·.port)) = some [0, 10001, 0] := by
    decide +kernel
  have hsecond : ((ofNamesakes.session.generateOffer ofNamesakes.ports).session.generateOffer
      (ofNamesakes.session.generateOffer ofNamesakes.ports).ports).result.toOption.map
        (fun d ↦ d.sections.map (·.port)) = some [10001, 10001, 0] := by
    decide +kernel
  have hok : (ofNamesakes.session.generateOffer ofNamesakes.ports).result.isOk = true := by
    cases h : (ofNamesakes.session.generateOffer ofNamesakes.ports).result with
    | error e =>
      rw [h] at hfirst
      cases hfirst
    | ok offer => rfl
  rw [hrepeats _ _ hs hok, hfirst] at hsecond
  exact absurd hsecond (by decide)

end Session

end OfferAnswer
