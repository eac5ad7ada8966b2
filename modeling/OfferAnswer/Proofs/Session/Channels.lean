import OfferAnswer.Proofs.Transport.Carriers
import OfferAnswer.Session.Commit

/-!
# Secure channels cannot fail

Channels are prepared and applied after ports were taken and sources drawn, when it is too late to
turn back. That is safe because nothing can go wrong by then: a configuration that was checked has a
certificate in PEM form, the setups are settled, and the endpoints are live. Under these conditions
`channelFor?` is the outcome, and giving an endpoint its channel moves no section.
-/

namespace OfferAnswer

namespace Setup

theorem role?_ne_none {setup : Setup} (h : setup ≠ .actPass) : setup.role? ≠ none := by
  cases setup with
  | actPass => exact absurd rfl h
  | active => exact Option.some_ne_none _
  | passive => exact Option.some_ne_none _

theorem setup_ne_actPass (role : DtlsRole) : role.setup ≠ .actPass := by
  cases role <;> exact Setup.noConfusion

theorem invert_ne_actPass {setup : Setup} (h : setup ≠ .actPass) : setup.invert ≠ .actPass := by
  cases setup with
  | actPass => exact absurd rfl h
  | active => exact Setup.noConfusion
  | passive => exact Setup.noConfusion

theorem ne_actPass_of_resolve {ours theirs setup : Setup} (h : ours.resolve theirs = some setup) :
    setup ≠ .actPass := by
  cases ours <;> cases theirs <;> cases h <;> exact Setup.noConfusion

end Setup

namespace Session

open TransportBinding (SidesFrom)

variable {s : Session} {b : TransportBinding}

/-- Whether the certificate, if there is one, is in PEM form. -/
def HasPem (s : Session) : Prop :=
  ∀ c, s.config.certificate = some c → TransportBinding.isPem c.pem = true

/-- The channel for an endpoint with a settled setup. -/
def channelFor? (s : Session) (x : EndpointId × Setup) : Option Channel :=
  s.config.certificate.bind fun c ↦ x.2.role?.map fun role ↦
    ⟨x.1, ⟨role, c.pem, s.channelId x.1⟩⟩

/-! ## Preparing -/

theorem isEmpty_channelId (s : Session) (id : EndpointId) : (s.channelId id).isEmpty = false := by
  rw [channelId, String.isEmpty_eq_false_iff]
  intro h
  rw [String.append_eq_empty_iff, String.append_eq_empty_iff] at h
  exact absurd h.1.2 (by decide)

theorem checkSecure_ok {id : EndpointId} {pem channel : String}
    (hpem : TransportBinding.isPem pem = true) (hchannel : channel.isEmpty = false)
    (halive : b.isAlive id = true) : b.checkSecure id pem channel = .ok () := by
  rw [TransportBinding.checkSecure, hpem, hchannel, halive]
  rfl

theorem prepareChannel_eq (hpem : s.HasPem) {id : EndpointId} {setup : Setup}
    (hsetup : setup ≠ .actPass) (halive : s.transport.isAlive id = true) :
    s.prepareChannel id setup = .ok (s.channelFor? (id, setup)) := by
  rw [prepareChannel, channelFor?]
  cases hc : s.config.certificate with
  | none => rfl
  | some c =>
    cases hrole : setup.role? with
    | none => exact absurd hrole (Setup.role?_ne_none hsetup)
    | some role =>
      dsimp only
      rw [checkSecure_ok (hpem c hc) (isEmpty_channelId s id) halive, Option.bind_some]
      rfl

theorem prepareChannels_eq (hpem : s.HasPem) {secured : List (EndpointId × Setup)}
    (hsecured : ∀ x ∈ secured, s.transport.isAlive x.1 = true ∧ x.2 ≠ .actPass) :
    s.prepareChannels secured = .ok (secured.filterMap s.channelFor?) := by
  induction secured with
  | nil => rfl
  | cons x secured ih =>
    obtain ⟨halive, hsetup⟩ := hsecured x List.mem_cons_self
    rw [prepareChannels, prepareChannel_eq hpem hsetup halive]
    dsimp only
    rw [ih fun y hy ↦ hsecured y (List.mem_cons_of_mem x hy), List.filterMap_cons]
    cases s.channelFor? x <;> rfl

/-! ## Applying -/

/-- Gives endpoints their channels, which are known to be possible. -/
def setChannels (b : TransportBinding) (cs : List Channel) : TransportBinding :=
  cs.foldl (fun b c ↦ b.setSecure c.endpoint c.side) b

theorem outline_setSecure (b : TransportBinding) (id : EndpointId) (side : SecureSide) :
    (b.setSecure id side).outline = b.outline :=
  TransportBinding.outline_update fun _ ↦ rfl

theorem outline_setChannels (b : TransportBinding) (cs : List Channel) :
    (setChannels b cs).outline = b.outline := by
  induction cs generalizing b with
  | nil => rfl
  | cons c cs ih => exact (ih _).trans (outline_setSecure b c.endpoint c.side)

/-- An endpoint has the last of the channels that are for it, or none of them is. -/
theorem mem_setChannels {cs : List Channel} {e : Endpoint} (he : e ∈ (setChannels b cs).endpoints) :
    (∃ c ∈ cs, c.endpoint = e.id ∧ e.encrypt = some c.side ∧ e.decrypt = some c.side) ∨
      ((∀ c ∈ cs, c.endpoint ≠ e.id) ∧
        ∃ e₀ ∈ b.endpoints, e₀.id = e.id ∧ e₀.encrypt = e.encrypt ∧ e₀.decrypt = e.decrypt) := by
  induction cs generalizing b with
  | nil => exact Or.inr ⟨fun _ hc ↦ absurd hc List.not_mem_nil, e, he, rfl, rfl, rfl⟩
  | cons c cs ih =>
    rcases ih he with ⟨c', hc', h⟩ | ⟨hothers, e₁, he₁, hid, henc, hdec⟩
    · exact Or.inl ⟨c', List.mem_cons_of_mem c hc', h⟩
    · -- no later channel is for this endpoint, so the first one counts
      obtain ⟨e₀, he₀, rfl⟩ := TransportBinding.mem_update.mp he₁
      by_cases hc : e₀.id = c.endpoint
      · rw [if_pos hc] at hid henc hdec
        exact Or.inl ⟨c, List.mem_cons_self, hc.symm.trans hid, henc.symm, hdec.symm⟩
      · rw [if_neg hc] at hid henc hdec
        refine Or.inr ⟨fun c' hc' ↦ ?_, e₀, he₀, hid, henc, hdec⟩
        rcases List.mem_cons.mp hc' with rfl | hc'
        · exact fun heq ↦ hc (hid.trans heq.symm)
        · exact hothers c' hc'

/-- Channels that are possible are applied, all of them. -/
theorem applyChannels_eq {cs : List Channel}
    (hcs : ∀ c ∈ cs, b.checkSecure c.endpoint c.side.pem c.side.channel = .ok ()) :
    applyChannels b cs = (.ok (), setChannels b cs) := by
  induction cs generalizing b with
  | nil => rfl
  | cons c cs ih =>
    rw [applyChannels, TransportBinding.secure, hcs c List.mem_cons_self]
    refine ih fun c' hc' ↦ ?_
    have h := hcs c' (List.mem_cons_of_mem c hc')
    rw [TransportBinding.checkSecure] at h ⊢
    rwa [TransportBinding.isAlive_congr (outline_setSecure b c.endpoint c.side)]

/-- **Secure channels cannot fail.** With a certificate in PEM form, settled setups and live
endpoints, all are prepared and applied. -/
theorem channels_ok (hpem : s.HasPem) {secured : List (EndpointId × Setup)}
    (hsecured : ∀ x ∈ secured, s.transport.isAlive x.1 = true ∧ x.2 ≠ .actPass) :
    s.prepareChannels secured = .ok (secured.filterMap s.channelFor?) ∧
      applyChannels s.transport (secured.filterMap s.channelFor?) =
        (.ok (), setChannels s.transport (secured.filterMap s.channelFor?)) := by
  refine ⟨prepareChannels_eq hpem hsecured, applyChannels_eq fun c hc ↦ ?_⟩
  obtain ⟨x, hx, hchannel⟩ := List.mem_filterMap.mp hc
  obtain ⟨cert, hcert, hrole⟩ := Option.bind_eq_some_iff.mp hchannel
  obtain ⟨role, -, rfl⟩ := Option.map_eq_some_iff.mp hrole
  exact checkSecure_ok (hpem cert hcert) (isEmpty_channelId s x.1) (hsecured x hx).1

end Session

end OfferAnswer
