import OfferAnswer.Proofs.Session.Books

/-!
# Gathering a bundle

While sections are placed, the endpoint of the first section of the bundle is remembered, and later
sections of the bundle join it. Only those join that nothing carries yet: a section that has an
endpoint from an earlier exchange stays there.

So where a section of the bundle ends up is known before anything is placed. It is the endpoint that
carries it, or else that of the first section of the bundle, or else one that is still to be made:
`TransportBinding.destination`. Two sections end up on one endpoint exactly if their destinations
are the same (`Placement.Gathers.together_iff`). Nothing else about the placement matters, and
neither the order of the other sections nor the ports do.
-/

namespace OfferAnswer

open TransportBinding (Keeps)

namespace TransportBinding

variable {b b' : TransportBinding} {first : Option Mid} {mid mid' : Mid} {id id' : EndpointId}

/-- Where a section of a bundle goes: to the endpoint that carries it, or else to that of the first
section of the bundle; without either, to an endpoint that is still to be made. -/
def destination (b : TransportBinding) (first : Option Mid) (mid : Mid) : Option EndpointId :=
  (b.carrier? mid).or (first.bind b.carrier?)

theorem WellFormed.destination_lt (hb : b.WellFormed) (h : b.destination first mid = some id) :
    id < b.nextId := by
  have halive : b.isAlive id = true := by
    rcases Option.or_eq_some_iff.mp h with hc | ⟨-, hc⟩
    · exact isAlive_of_carrier? hc
    · obtain ⟨mid₁, -, hc⟩ := Option.bind_eq_some_iff.mp hc
      exact isAlive_of_carrier? hc
  obtain ⟨e, he, rfl⟩ := isAlive_iff.mp halive
  exact hb.id_lt e he

/-- An allocation moves nothing but the section it is for. -/
theorem Exclusive.origin_of_allocate (hb : b.Exclusive) {ports ports' : PortAllocator} {m : Section}
    {range : PortRange} {joins : Option EndpointId} (hc : b.carrier? mid = none)
    (h : b.allocate ports mid m range joins = (.ok id, b', ports'))
    (hid : b'.carrier? mid' = some id') : b.carrier? mid' = some id' ∨ mid' = mid := by
  obtain ⟨hexcl, hkeeps, -⟩ := hb.allocate hc h
  have hsome : b'.Carried mid' := carried_iff.mpr (Option.ne_none_iff_exists'.mpr ⟨id', hid⟩)
  rw [← show (b.allocate ports mid m range joins).2.1 = b' by rw [h]] at hsome
  refine (carried_allocate hsome).imp_left fun hbefore ↦ ?_
  obtain ⟨id₀, hid₀⟩ := Option.ne_none_iff_exists'.mp (carried_iff.mp hbefore)
  rw [hid₀, ← hkeeps.carrier? hexcl trivial hid₀, hid]

end TransportBinding

namespace Placement

variable {p p' p'' : Placement} {isBundled : Mid → Bool} {first next : Option Mid} {mid mid' : Mid}
  {id id' : EndpointId}

/-- What placing sections does about the bundle, of which `first` is the first section that was
placed. -/
structure Gathers (isBundled : Mid → Bool) (p p' : Placement) (first : Option Mid) : Prop where
  /-- The first section is one of the bundle, and carried in the end. -/
  first_spec : ∀ mid, first = some mid →
    isBundled mid = true ∧ ∃ id, p'.transport.carrier? mid = some id
  /-- What is carried stays where it is. -/
  stays : ∀ mid id, p.transport.carrier? mid = some id → p'.transport.carrier? mid = some id
  /-- The endpoint of the bundle is settled once. -/
  kept : ∀ id, p.shared = some id → p'.shared = some id
  /-- A section of the bundle stays where it is, or joins the bundle. -/
  joins : ∀ mid, isBundled mid = true → ∀ id, p'.transport.carrier? mid = some id →
    p.transport.carrier? mid = some id ∨ p'.shared = some id
  /-- The endpoint of the bundle is that of its first section. -/
  shared_eq : p.shared = none → p'.shared = first.bind p'.transport.carrier?
  /-- It was that before, or is new. -/
  origin : p.shared = none → ∀ id, p'.shared = some id →
    first.bind p.transport.carrier? = some id ∨ p.transport.nextId ≤ id
  /-- Identifiers are handed out in order. -/
  nextId_le : p.transport.nextId ≤ p'.transport.nextId

theorem Gathers.refl (isBundled : Mid → Bool) (p : Placement) : Gathers isBundled p p none where
  first_spec _ h := nomatch h
  stays _ _ h := h
  kept _ h := h
  joins _ _ _ h := .inl h
  shared_eq h := h
  origin hnone _ h := nomatch hnone.symm.trans h
  nextId_le := Nat.le_refl _

theorem Gathers.trans (h : Gathers isBundled p p' first) (h' : Gathers isBundled p' p'' next) :
    Gathers isBundled p p'' (first.or next) where
  first_spec mid hmid := by
    rcases Option.or_eq_some_iff.mp hmid with hfirst | ⟨-, hnext⟩
    · obtain ⟨hbundled, id, hid⟩ := h.first_spec mid hfirst
      exact ⟨hbundled, id, h'.stays mid id hid⟩
    · exact h'.first_spec mid hnext
  stays mid id hid := h'.stays mid id (h.stays mid id hid)
  kept id hid := h'.kept id (h.kept id hid)
  joins mid hbundled id hid := by
    rcases h'.joins mid hbundled id hid with hid' | hshared
    · exact (h.joins mid hbundled id hid').imp_right (h'.kept id)
    · exact .inr hshared
  shared_eq hnone := by
    have hshared := h.shared_eq hnone
    cases first with
    | none => exact h'.shared_eq hshared
    | some mid =>
      obtain ⟨-, id, hid⟩ := h.first_spec mid rfl
      exact (h'.kept id (hshared.trans hid)).trans (h'.stays mid id hid).symm
  origin hnone id hid := by
    have hshared := h.shared_eq hnone
    cases first with
    | some mid =>
      obtain ⟨-, id', hid'⟩ := h.first_spec mid rfl
      obtain rfl : id' = id :=
        Option.some.inj ((h'.kept id' (hshared.trans hid')).symm.trans hid)
      exact h.origin hnone id' (hshared.trans hid')
    | none =>
      rcases h'.origin hshared id hid with hnext | hle
      · -- nothing of the bundle was placed before, so its first section was there
        obtain ⟨mid, hmid, hcarrier⟩ := Option.bind_eq_some_iff.mp hnext
        rcases h.joins mid (h'.first_spec mid hmid).1 id hcarrier with hbefore | hjoined
        · exact .inl (Option.bind_eq_some_iff.mpr ⟨mid, hmid, hbefore⟩)
        · exact absurd (hshared.symm.trans hjoined) (Option.some_ne_none id).symm
      · exact .inr (Nat.le_trans h.nextId_le hle)
  nextId_le := Nat.le_trans h.nextId_le h'.nextId_le

/-! ## One section -/

theorem shared_settle_of_some (h : p.shared = some id) (bundled : Bool) (id' : EndpointId) :
    (p.settle bundled id').shared = some id := by
  rw [settle, h, Option.isNone_some, Bool.and_false, if_neg Bool.false_ne_true, h]

theorem shared_settle_of_none (h : p.shared = none) (bundled : Bool) (id : EndpointId) :
    (p.settle bundled id).shared = if bundled then some id else none := by
  rw [settle, h, Option.isNone_none, Bool.and_true]
  split
  · rfl
  · exact h

/-- The first section of the bundle, if it is the one at hand. -/
def firstOf (isBundled : Mid → Bool) (mid : Mid) : Option Mid :=
  if isBundled mid then some mid else none

theorem Gathers.settle {p₀ : Placement} (hshared : p₀.shared = p.shared)
    (hid : p₀.transport.carrier? mid = some id)
    (hstays : ∀ mid id, p.transport.carrier? mid = some id → p₀.transport.carrier? mid = some id)
    (hnew : ∀ mid' id', p₀.transport.carrier? mid' = some id' →
      p.transport.carrier? mid' = some id' ∨ mid' = mid)
    (hjoined : isBundled mid = true → p.transport.carrier? mid = some id ∨
      p.shared = some id ∨ (p.shared = none ∧ p.transport.nextId ≤ id))
    (hnext : p.transport.nextId ≤ p₀.transport.nextId) :
    Gathers isBundled p (p₀.settle (isBundled mid) id) (firstOf isBundled mid) where
  first_spec mid' h := by
    rw [firstOf] at h
    split at h
    · rename_i hbundled
      cases h
      rw [transport_settle]
      exact ⟨hbundled, id, hid⟩
    · cases h
  stays mid' id' h := by
    rw [transport_settle]
    exact hstays mid' id' h
  kept id' h := shared_settle_of_some (hshared.trans h) _ _
  joins mid' hbundled id' h := by
    rw [transport_settle] at h
    rcases hnew mid' id' h with hbefore | rfl
    · exact .inl hbefore
    · obtain rfl : id = id' := Option.some.inj (hid.symm.trans h)
      -- the section is where it was, or joins the bundle, or is the first of it
      rcases hjoined hbundled with hbefore | hjoins | ⟨hnone, -⟩
      · exact .inl hbefore
      · exact .inr (shared_settle_of_some (hshared.trans hjoins) _ _)
      · rw [shared_settle_of_none (hshared.trans hnone), hbundled]
        exact .inr rfl
  shared_eq hnone := by
    rw [shared_settle_of_none (hshared.trans hnone), transport_settle, firstOf]
    split
    · exact hid.symm
    · rfl
  origin hnone id' h := by
    rw [shared_settle_of_none (hshared.trans hnone)] at h
    split at h
    · rename_i hbundled
      cases h
      rw [firstOf, if_pos hbundled]
      rcases hjoined hbundled with hbefore | hjoins | ⟨-, hle⟩
      · exact .inl hbefore
      · exact absurd (hnone.symm.trans hjoins) (Option.some_ne_none id).symm
      · exact .inr hle
    · cases h
  nextId_le := by
    rw [transport_settle]
    exact hnext

theorem gathers_place (hp : p.Ready) (range : PortRange) {m m' : Section}
    (h : place range (isBundled mid) mid m p = (.ok m', p')) :
    Gathers isBundled p p' (firstOf isBundled mid) := by
  rw [place] at h
  cases hc : p.transport.carrier? mid with
  | some id =>
    rw [hc] at h
    cases h
    exact .settle rfl hc (fun _ _ h ↦ h) (fun _ _ h ↦ .inl h) (fun _ ↦ .inl hc) (Nat.le_refl _)
  | none =>
    rw [hc] at h
    dsimp only at h
    have hstep := hp.exclusive.toWellFormed.step_allocate p.ports mid m range
      (if isBundled mid then p.shared else none)
    rcases hr : p.transport.allocate p.ports mid m range
      (if isBundled mid then p.shared else none) with ⟨e | id, transport, ports⟩
    · rw [hr] at h
      cases h
    · rw [hr] at h hstep
      cases h
      obtain ⟨hexcl, hkeeps, hid⟩ := hp.exclusive.allocate hc hr
      refine .settle rfl hid (fun _ _ ↦ hkeeps.carrier? hexcl trivial)
        (fun _ _ ↦ hp.exclusive.origin_of_allocate hc hr) (fun hbundled ↦ .inr ?_)
        hstep.succeeds.nextId_le
      rw [if_pos hbundled] at hr
      rcases TransportBinding.allocate_ok hr with ⟨hjoins, -⟩ | ⟨hnone, rfl, -⟩
      · exact .inl hjoins
      · exact .inr ⟨hnone, Nat.le_refl _⟩

/-! ## All sections -/

/-- The first section of the bundle among those that are placed. -/
def firstBundled (isBundled : Mid → Bool) (placed : List Planned) : Option Mid :=
  ((placed.filter fun r ↦ !r.body.isRejected).map (·.mid)).find? isBundled

theorem firstBundled_cons (isBundled : Mid → Bool) (r : Planned) (placed : List Planned) :
    firstBundled isBundled (r :: placed) =
      (if r.body.isRejected then none else firstOf isBundled r.mid).or
        (firstBundled isBundled placed) := by
  rw [firstBundled, firstBundled, List.filter_cons]
  cases r.body.isRejected with
  | true => rfl
  | false =>
    rw [Bool.not_false, if_pos rfl, if_neg Bool.false_ne_true, List.map_cons, List.find?_cons,
      firstOf]
    cases isBundled r.mid <;> rfl

theorem gathers_placeOne (hp : p.Ready) (range : PortRange) {refuse : Section → Section}
    (hrefuse : ∀ m, (refuse m).isRejected = true) {q r : Planned}
    (h : placeOne range isBundled refuse q p = (.ok r, p')) :
    Gathers isBundled p p' (if r.body.isRejected then none else firstOf isBundled r.mid) := by
  rw [placeOne] at h
  split at h
  · rename_i hrej
    cases h
    rw [if_pos hrej]
    exact .refl isBundled p
  · rcases place_cases hp range (isBundled q.mid) q.mid q.body with
      ⟨e, p₁, hok, hready, -, he, -⟩ | hfail
    · rw [hok] at h
      cases h
      have hrej : (writePorts e q.body).isRejected = false := by
        rw [Section.isRejected, port_writePorts]
        exact beq_eq_false_iff_ne.mpr (hready.exclusive.rtpPort_ne_zero e he)
      rw [hrej, if_neg Bool.false_ne_true]
      exact gathers_place hp range hok
    · rw [hfail] at h
      cases h
      rw [if_pos (hrefuse q.body)]
      exact .refl isBundled p

theorem gathers_placeAll (hp : p.Ready) (range : PortRange)
    {plan : List (Planned × (Section → Section))}
    (hrefuse : ∀ x ∈ plan, ∀ m, (x.2 m).isRejected = true) {placed : List Planned}
    (h : placeAll range isBundled plan p = (.ok placed, p')) :
    Gathers isBundled p p' (firstBundled isBundled placed) := by
  induction plan generalizing p placed with
  | nil =>
    cases h
    exact .refl isBundled _
  | cons x plan ih =>
    obtain ⟨r, p₁, rest, hone, hall, rfl⟩ := placeAll_cons_eq_ok h
    rw [firstBundled_cons]
    exact (gathers_placeOne hp range (hrefuse x List.mem_cons_self) hone).trans
      (ih (hp.of_placeOne hone).1 (fun y hy ↦ hrefuse y (List.mem_cons_of_mem x hy)) hall)

/-! ## Together -/

variable {b : TransportBinding} {ports : PortAllocator}

/-- A section of the bundle ends up at its destination. Where that is still to be made, it ends up
at the endpoint of the bundle, which is new. -/
theorem Gathers.lands (h : Gathers isBundled { transport := b, ports := ports } p' first)
    (hbundled : isBundled mid = true) (hid : p'.transport.carrier? mid = some id) :
    (∀ i, b.destination first mid = some i → i = id) ∧
      (b.destination first mid = none → p'.shared = some id ∧ b.nextId ≤ id) := by
  rw [TransportBinding.destination]
  cases hc : b.carrier? mid with
  | some i =>
    rw [Option.some_or]
    refine ⟨fun j hj ↦ ?_, nofun⟩
    cases hj
    exact Option.some.inj ((h.stays mid i hc).symm.trans hid)
  | none =>
    rw [Option.none_or]
    have hshared : p'.shared = some id := by
      rcases h.joins mid hbundled id hid with hbefore | hjoined
      · exact nomatch hc.symm.trans hbefore
      · exact hjoined
    refine ⟨fun i hi ↦ ?_, fun hnone ↦ ⟨hshared, ?_⟩⟩
    · obtain ⟨mid₁, hmid₁, hi₁⟩ := Option.bind_eq_some_iff.mp hi
      have hsame := h.shared_eq rfl
      rw [hshared, hmid₁] at hsame
      exact Option.some.inj ((h.stays mid₁ i hi₁).symm.trans hsame.symm)
    · exact (h.origin rfl id hshared).resolve_left fun hsome ↦ nomatch hnone.symm.trans hsome

/-- **Two sections of the bundle end up on one endpoint exactly if they have one destination.** -/
theorem Gathers.together_iff (h : Gathers isBundled { transport := b, ports := ports } p' first)
    (hb : b.WellFormed) (hbundled : isBundled mid = true) (hbundled' : isBundled mid' = true)
    (hid : p'.transport.carrier? mid = some id) (hid' : p'.transport.carrier? mid' = some id') :
    id = id' ↔ b.destination first mid = b.destination first mid' := by
  obtain ⟨hsome, hnone⟩ := h.lands hbundled hid
  obtain ⟨hsome', hnone'⟩ := h.lands hbundled' hid'
  cases hd : b.destination first mid with
  | some i =>
    obtain rfl := hsome i hd
    cases hd' : b.destination first mid' with
    | some i' => rw [hsome' i' hd', Option.some_inj]
    | none =>
      have hle : b.nextId ≤ id' := (hnone' hd').2
      exact ⟨fun heq ↦ absurd (hb.destination_lt hd) (Nat.not_lt.mpr (heq ▸ hle)), nofun⟩
  | none =>
    obtain ⟨hshared, hle⟩ := hnone hd
    cases hd' : b.destination first mid' with
    | some i' =>
      obtain rfl := hsome' i' hd'
      exact ⟨fun heq ↦ absurd (hb.destination_lt hd') (Nat.not_lt.mpr (heq ▸ hle)), nofun⟩
    | none =>
      exact ⟨fun _ ↦ rfl, fun _ ↦ Option.some.inj (hshared.symm.trans (hnone' hd').1)⟩

end Placement

end OfferAnswer
