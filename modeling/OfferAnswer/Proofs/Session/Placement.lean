import Mathlib.Data.List.Forall2
import OfferAnswer.Proofs.Transport.Carriers
import OfferAnswer.Session.Describe

/-!
# Placing sections

Finding endpoints for the sections of a description, and why it cannot fail: the only endpoint that
is looked for by identifier is that of the bundle, and it stays live because everything placed
stays where it is. What is left to go wrong is the lack of ports, and a section that has no port is
refused instead.

`Fate` is the account of one section. It speaks of the endpoints at the end of the placement, not of
those at the time the section was placed; nothing moves in between.
-/

namespace OfferAnswer

theorem exists_getElem?_of_forall₂ {α β : Type} {R : α → β → Prop} {xs : List α} {ys : List β}
    (h : List.Forall₂ R xs ys) {i : Nat} {y : β} (hy : ys[i]? = some y) :
    ∃ x, xs[i]? = some x ∧ R x y := by
  induction h generalizing i with
  | nil => cases hy
  | cons hxy _ ih =>
    cases i with
    | zero =>
      cases hy
      exact ⟨_, rfl, hxy⟩
    | succ i => exact ih hy

theorem forall₂_of_getElem? {α β : Type} {R : α → β → Prop} {xs : List α} {ys : List β}
    (hlen : xs.length = ys.length)
    (h : ∀ (i : Nat) x y, xs[i]? = some x → ys[i]? = some y → R x y) : List.Forall₂ R xs ys :=
  List.forall₂_iff_get.mpr ⟨hlen, fun i hi hi' ↦
    h i _ _ (List.getElem?_eq_getElem hi) (List.getElem?_eq_getElem hi')⟩

namespace Placement

open TransportBinding (Keeps SidesKept)

variable {p : Placement} {b b' : TransportBinding} {q r : Planned} {refuse : Section → Section}

/-! ## Ports in sections -/

/-- The ports that are written are all that a section takes from its endpoint. -/
theorem writePorts_congr {e e' : Endpoint} (hrtp : e'.rtpPort = e.rtpPort)
    (hrtcp : e'.rtcpPort = e.rtcpPort) (m : Section) : writePorts e' m = writePorts e m := by
  rw [writePorts, writePorts, hrtp, hrtcp]

@[simp] theorem port_writePorts (e : Endpoint) (m : Section) :
    (writePorts e m).port = e.rtpPort := by
  rw [writePorts]
  split <;> rfl

theorem applyPorts_of_endpoint? {id : EndpointId} {e : Endpoint} (h : b.endpoint? id = some e)
    (m : Section) : applyPorts b id m = writePorts e m := by
  rw [applyPorts, h]

/-! ## What a placement keeps -/

/-- A placement that can go on: lookups are reliable, and the endpoint of the bundle is live. -/
structure Ready (p : Placement) : Prop where
  /-- A section has one carrier at most. -/
  exclusive : p.transport.Exclusive
  /-- The bundle can be joined. -/
  shared_isAlive : ∀ id, p.shared = some id → p.transport.isAlive id = true

theorem ready_start (hb : b.Exclusive) (ports : PortAllocator) :
    Ready { transport := b, ports := ports } := ⟨hb, fun _ h ↦ nomatch h⟩

theorem transport_settle (p : Placement) (bundled : Bool) (id : EndpointId) :
    (p.settle bundled id).transport = p.transport := by
  rw [settle]
  split <;> rfl

theorem shared_settle {bundled : Bool} {id i : EndpointId}
    (h : (p.settle bundled id).shared = some i) : i = id ∨ p.shared = some i := by
  rw [settle] at h
  split at h
  · exact Or.inl (Option.some.inj h).symm
  · exact Or.inr h

theorem Ready.settle {id : EndpointId} (hb : p.transport.Exclusive) (bundled : Bool)
    (halive : p.transport.isAlive id = true)
    (hshared : ∀ id, p.shared = some id → p.transport.isAlive id = true) :
    (p.settle bundled id).Ready := by
  refine ⟨transport_settle p bundled id ▸ hb, fun i hi ↦ ?_⟩
  rw [transport_settle]
  rcases shared_settle hi with rfl | hi
  · exact halive
  · exact hshared i hi

/-! ## One section -/

/-- All that placing a section can do: write the ports of its carrier, or fail for lack of ports and
change nothing. -/
theorem place_cases (hp : p.Ready) (range : PortRange) (bundled : Bool) (mid : Mid) (m : Section) :
    (∃ e p', place range bundled mid m p = (.ok (writePorts e m), p') ∧ p'.Ready ∧
      Keeps (fun _ ↦ True) p.transport p'.transport ∧ e ∈ p'.transport.endpoints ∧
        mid ∈ e.mids) ∨
      place range bundled mid m p = (.error (.noPorts range.min range.max), p) := by
  rw [place]
  cases hc : p.transport.carrier? mid with
  | some id =>
    -- the section is carried already, and allocates nothing
    obtain ⟨e, he, hmid⟩ := hp.exclusive.endpoint_of_carrier? hc
    refine Or.inl ⟨e, p.settle bundled id, ?_, ?_, ?_, ?_, hmid⟩
    · dsimp only
      rw [applyPorts_of_endpoint? he]
    · exact .settle hp.exclusive bundled (TransportBinding.isAlive_of_carrier? hc)
        hp.shared_isAlive
    · rw [transport_settle]
      exact .refl _ _
    · rw [transport_settle]
      exact TransportBinding.mem_of_endpoint? he
  | none =>
    dsimp only
    rcases hr : p.transport.allocate p.ports mid m range (if bundled then p.shared else none) with
      ⟨result, transport, ports⟩
    cases result with
    | error err =>
      obtain ⟨rfl, rfl, ⟨id, hid, hgone⟩ | rfl⟩ := TransportBinding.allocate_error hr
      · -- the bundle is not gone
        have hshared : p.shared = some id := by
          split at hid
          · exact hid
          · cases hid
        rw [hp.shared_isAlive id hshared] at hgone
        cases hgone
      · exact Or.inr rfl
    | ok id =>
      -- it has an endpoint of its own or has joined the bundle, and nothing else moved
      obtain ⟨hexcl, hkeeps, hcarrier⟩ := hp.exclusive.allocate hc hr
      obtain ⟨e, he, hmid⟩ := hexcl.endpoint_of_carrier? hcarrier
      let next : Placement :=
        { p with transport := transport, ports := ports, fresh := p.fresh ++ [mid] }
      have hready : (next.settle bundled id).Ready :=
        .settle hexcl bundled (TransportBinding.isAlive_of_carrier? hcarrier) fun i hi ↦
          hkeeps.isAlive hp.exclusive.toWellFormed (hp.shared_isAlive i hi)
      refine Or.inl ⟨e, next.settle bundled id, ?_, hready, ?_, ?_, hmid⟩
      · dsimp only
        rw [applyPorts_of_endpoint? he]
      · rw [transport_settle]
        exact hkeeps
      · rw [transport_settle]
        exact TransportBinding.mem_of_endpoint? he

/-- What becomes of a planned section, given the endpoints in the end. -/
inductive Fate (b : TransportBinding) (q : Planned) (refuse : Section → Section) :
    Planned → Prop where
  /-- It was rejected before, and stays as it is. -/
  | rejected : q.body.isRejected = true → Fate b q refuse q
  /-- It is carried, and says where. -/
  | carried {e : Endpoint} : q.body.isRejected = false → e ∈ b.endpoints → q.mid ∈ e.mids →
    Fate b q refuse { q with body := writePorts e q.body }
  /-- There was no port for it. -/
  | refused : q.body.isRejected = false → Fate b q refuse { q with body := refuse q.body }

theorem Fate.mid_eq (h : Fate b q refuse r) : r.mid = q.mid := by cases h <;> rfl

theorem Fate.handler_eq (h : Fate b q refuse r) : r.handler = q.handler := by cases h <;> rfl

theorem Fate.eq_of_rejected (h : Fate b q refuse r) (hq : q.body.isRejected = true) : r = q := by
  cases h with
  | rejected _ => rfl
  | carried hrej _ _ => exact absurd (hrej.symm.trans hq) Bool.noConfusion
  | refused hrej => exact absurd (hrej.symm.trans hq) Bool.noConfusion

theorem Fate.mono (h : Fate b q refuse r) (hkeeps : Keeps (fun _ ↦ True) b b') :
    Fate b' q refuse r := by
  cases h with
  | rejected hrej => exact .rejected hrej
  | refused hrej => exact .refused hrej
  | carried hrej he hmid =>
    obtain ⟨e', he', -, hrtp, hrtcp, hmid'⟩ := hkeeps _ he _ hmid trivial
    rw [← writePorts_congr hrtp hrtcp]
    exact .carried hrej he' hmid'

theorem placeOne_ok (hp : p.Ready) (range : PortRange) (isBundled : Mid → Bool)
    (refuse : Section → Section) (q : Planned) :
    ∃ r p', placeOne range isBundled refuse q p = (.ok r, p') ∧ p'.Ready ∧
      Keeps (fun _ ↦ True) p.transport p'.transport ∧ Fate p'.transport q refuse r := by
  rw [placeOne]
  cases hrej : q.body.isRejected with
  | true => exact ⟨q, p, rfl, hp, .refl _ _, .rejected hrej⟩
  | false =>
    rw [if_neg Bool.false_ne_true]
    rcases place_cases hp range (isBundled q.mid) q.mid q.body with
      ⟨e, p', hplace, hp', hkeeps, he, hmid⟩ | hplace
    · rw [hplace]
      exact ⟨_, p', rfl, hp', hkeeps, .carried hrej he hmid⟩
    · rw [hplace]
      exact ⟨_, p, rfl, hp, .refl _ _, .refused hrej⟩

/-! ## All sections -/

/-- **Placing cannot fail.** Every planned section gets an answer, and every section that was
carried stays where it is. -/
theorem placeAll_ok (hp : p.Ready) (range : PortRange) (isBundled : Mid → Bool)
    (plan : List (Planned × (Section → Section))) :
    ∃ placed p', placeAll range isBundled plan p = (.ok placed, p') ∧ p'.Ready ∧
      Keeps (fun _ ↦ True) p.transport p'.transport ∧
      List.Forall₂ (fun x r ↦ Fate p'.transport x.1 x.2 r) plan placed := by
  induction plan generalizing p with
  | nil => exact ⟨[], p, rfl, hp, .refl _ _, .nil⟩
  | cons x plan ih =>
    obtain ⟨r, p₁, hone, hp₁, hkeeps₁, hfate⟩ := placeOne_ok hp range isBundled x.2 x.1
    obtain ⟨placed, p₂, hall, hp₂, hkeeps₂, hfates⟩ := ih hp₁
    refine ⟨r :: placed, p₂, ?_, hp₂, hkeeps₁.trans hkeeps₂, .cons (hfate.mono hkeeps₂) hfates⟩
    rw [placeAll, hone]
    dsimp only
    rw [hall]

variable {range : PortRange} {isBundled : Mid → Bool}

/-- What is placed first is placed before the rest. -/
theorem placeAll_cons_eq_ok {x : Planned × (Section → Section)}
    {plan : List (Planned × (Section → Section))} {placed : List Planned} {p' : Placement}
    (h : placeAll range isBundled (x :: plan) p = (.ok placed, p')) : ∃ r p₁ rest,
      placeOne range isBundled x.2 x.1 p = (.ok r, p₁) ∧
        placeAll range isBundled plan p₁ = (.ok rest, p') ∧ placed = r :: rest := by
  rw [placeAll] at h
  split at h
  · cases h
  · rename_i r p₁ hone
    split at h
    · cases h
    · rename_i rest p₂ hall
      cases h
      exact ⟨r, p₁, rest, hone, hall, rfl⟩

theorem Ready.of_placeOne (hp : p.Ready) {p' : Placement}
    (h : placeOne range isBundled refuse q p = (.ok r, p')) :
    p'.Ready ∧ Keeps (fun _ ↦ True) p.transport p'.transport ∧ Fate p'.transport q refuse r := by
  obtain ⟨r₀, p₀, hone, hresult⟩ := placeOne_ok hp range isBundled refuse q
  rw [h] at hone
  cases hone
  exact hresult

theorem Ready.of_placeAll (hp : p.Ready) {plan : List (Planned × (Section → Section))}
    {placed : List Planned} {p' : Placement}
    (h : placeAll range isBundled plan p = (.ok placed, p')) :
    p'.Ready ∧ Keeps (fun _ ↦ True) p.transport p'.transport ∧
      List.Forall₂ (fun x r ↦ Fate p'.transport x.1 x.2 r) plan placed := by
  obtain ⟨placed₀, p₀, hall, hresult⟩ := placeAll_ok hp range isBundled plan
  rw [h] at hall
  cases hall
  exact hresult

/-! ## Secure channels -/

theorem sidesKept_place (range : PortRange) (bundled : Bool) (mid : Mid) (m : Section)
    (p : Placement) : SidesKept p.transport (place range bundled mid m p).2.transport := by
  have hrefl := (TransportBinding.SidesFrom.refl p.transport).sidesKept
  rw [place]
  split
  · rw [transport_settle]
    exact hrefl
  · have hallocate := TransportBinding.sidesKept_allocate p.transport p.ports mid m range
      (if bundled then p.shared else none)
    split
    · rename_i hr
      rw [hr] at hallocate
      exact hallocate
    · rename_i hr
      rw [hr] at hallocate
      rw [transport_settle]
      exact hallocate

/-- Placing leaves secure channels alone, and gives none. -/
theorem sidesKept_placeAll (range : PortRange) (isBundled : Mid → Bool)
    (plan : List (Planned × (Section → Section))) (p : Placement) :
    SidesKept p.transport (placeAll range isBundled plan p).2.transport := by
  induction plan generalizing p with
  | nil => exact (TransportBinding.SidesFrom.refl p.transport).sidesKept
  | cons x plan ih =>
    have hone : SidesKept p.transport
        (placeOne range isBundled x.2 x.1 p).2.transport := by
      rw [placeOne]
      split
      · exact (TransportBinding.SidesFrom.refl p.transport).sidesKept
      · have hplace := sidesKept_place range (isBundled x.1.mid) x.1.mid x.1.body p
        split <;> rename_i hr <;> rw [hr] at hplace <;> exact hplace
    rw [placeAll]
    split
    · rename_i hr
      rw [hr] at hone
      exact hone
    · rename_i p₁ hr
      rw [hr] at hone
      have hall := ih p₁
      split <;> rename_i hr <;> rw [hr] at hall <;> exact hone.trans hall

end Placement

end OfferAnswer
