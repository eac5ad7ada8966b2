import OfferAnswer.Proofs.Transport.Endpoints

/-!
# Which endpoint carries which section

A section is found by its identifier, and two sections may have the same one. What makes the lookup
reliable all the same is that at most one endpoint carries an identifier: `Exclusive`. From it,
`carrier?` is membership, and the first endpoint found is the only one there is.

## What later steps may rely on

Two relations say what a change leaves alone. `Keeps` is about some sections: each stays on an
endpoint of the same identifier and ports. Taking endpoints keeps every section, and giving a
section up keeps the others. Equality of `outline` is about all of them: candidates, channels and
demultiplexing change, and nothing that places a section does.
-/

namespace OfferAnswer

/-! ## The outline -/

/-- What of an endpoint places sections: its identifier, its ports and the sections themselves. -/
def Endpoint.outline (e : Endpoint) : Endpoint where
  id := e.id
  rtpPort := e.rtpPort
  rtcpPort := e.rtcpPort
  mids := e.mids

theorem Endpoint.outline_eq_iff {e e' : Endpoint} : e'.outline = e.outline ↔
    e'.id = e.id ∧ e'.rtpPort = e.rtpPort ∧ e'.rtcpPort = e.rtcpPort ∧ e'.mids = e.mids := by
  simp only [outline, Endpoint.mk.injEq, true_and, and_true]

namespace TransportBinding

/-- What of a binding places sections. -/
def outline (b : TransportBinding) : TransportBinding :=
  { b with endpoints := b.endpoints.map Endpoint.outline }

variable {b b' b'' : TransportBinding} {id : EndpointId} {mid : Mid} {e : Endpoint}
  {f : Endpoint → Endpoint} {a a' : PortAllocator} {kept : Mid → Prop}

theorem carrier?_outline (b : TransportBinding) (mid : Mid) :
    b.outline.carrier? mid = b.carrier? mid := by
  rw [carrier?, carrier?, outline, List.find?_map, Option.map_map]
  rfl

theorem endpoint?_outline (b : TransportBinding) (id : EndpointId) :
    b.outline.endpoint? id = (b.endpoint? id).map Endpoint.outline := by
  rw [endpoint?, endpoint?, outline, List.find?_map]
  rfl

theorem isAlive_outline (b : TransportBinding) (id : EndpointId) :
    b.outline.isAlive id = b.isAlive id := by
  rw [isAlive, isAlive, endpoint?_outline, Option.isSome_map]

theorem outline_update (hf : ∀ e, (f e).outline = e.outline) :
    (b.update id f).outline = b.outline := by
  rw [outline, outline, update, List.map_map]
  congr 1
  refine List.map_congr_left fun e _ ↦ ?_
  dsimp only [Function.comp]
  split
  · exact hf e
  · rfl

theorem carrier?_congr (h : b'.outline = b.outline) (mid : Mid) :
    b'.carrier? mid = b.carrier? mid := by
  rw [← carrier?_outline, h, carrier?_outline]

theorem isAlive_congr (h : b'.outline = b.outline) (id : EndpointId) :
    b'.isAlive id = b.isAlive id := by
  rw [← isAlive_outline, h, isAlive_outline]

theorem exists_of_outline (h : b'.outline = b.outline) (he : e ∈ b.endpoints) :
    ∃ e' ∈ b'.endpoints, e'.id = e.id ∧ e'.rtpPort = e.rtpPort ∧ e'.rtcpPort = e.rtcpPort ∧
      e'.mids = e.mids := by
  have hmem : e.outline ∈ b'.outline.endpoints := by
    rw [h]
    exact List.mem_map_of_mem he
  obtain ⟨e', he', hout⟩ := List.mem_map.mp hmem
  exact ⟨e', he', Endpoint.outline_eq_iff.mp hout⟩

theorem ids_congr (h : b'.outline = b.outline) :
    b'.endpoints.map (·.id) = b.endpoints.map (·.id) := by
  have hids : ∀ b : TransportBinding, b.outline.endpoints.map (·.id) = b.endpoints.map (·.id) :=
    fun b ↦ List.map_map
  rw [← hids, h, hids]

theorem nextId_congr (h : b'.outline = b.outline) : b'.nextId = b.nextId := by
  rw [show b'.nextId = b'.outline.nextId from rfl, h]
  rfl

/-! ## One carrier -/

/-- A binding whose lookups by section are reliable: a section has one carrier at most. Its ports
are real ones. -/
structure Exclusive (b : TransportBinding) : Prop extends WellFormed b where
  /-- A port of RTP is a port. -/
  rtpPort_ne_zero : ∀ e ∈ b.endpoints, e.rtpPort ≠ 0
  /-- No section is carried twice. -/
  carrier_unique : ∀ e ∈ b.endpoints, ∀ e' ∈ b.endpoints, ∀ mid, mid ∈ e.mids → mid ∈ e'.mids →
    e.id = e'.id

theorem exclusive_empty : Exclusive {} where
  toWellFormed := wellFormed_empty
  rtpPort_ne_zero := by simp
  carrier_unique := by simp

theorem Exclusive.carrier?_eq_some (hb : b.Exclusive) :
    b.carrier? mid = some id ↔ ∃ e ∈ b.endpoints, e.id = id ∧ mid ∈ e.mids := by
  refine ⟨exists_of_carrier?, fun ⟨e, he, hid, hmid⟩ ↦ ?_⟩
  cases hc : b.carrier? mid with
  | none => exact absurd hmid (carrier?_eq_none_iff.mp hc e he)
  | some id' =>
    obtain ⟨e', he', hid', hmid'⟩ := exists_of_carrier? hc
    rw [← hid', ← hid, hb.carrier_unique e' he' e he mid hmid' hmid]

theorem Exclusive.endpoint_of_carrier? (hb : b.Exclusive) (h : b.carrier? mid = some id) :
    ∃ e, b.endpoint? id = some e ∧ mid ∈ e.mids := by
  obtain ⟨e, he, hid, hmid⟩ := exists_of_carrier? h
  exact ⟨e, hb.endpoint?_eq_some.mpr ⟨he, hid⟩, hmid⟩

/-- Whether lookups are reliable does not depend on more than the outline. -/
theorem Exclusive.congr (hb : b.Exclusive) (h : b'.outline = b.outline) : b'.Exclusive where
  ids_nodup := by
    rw [ids_congr h]
    exact hb.ids_nodup
  id_lt := by
    intro e he
    obtain ⟨e₀, he₀, hid, -⟩ := exists_of_outline h.symm he
    rw [nextId_congr h, ← hid]
    exact hb.id_lt e₀ he₀
  mids_ne_nil := by
    intro e he
    obtain ⟨e₀, he₀, -, -, -, hmids⟩ := exists_of_outline h.symm he
    rw [← hmids]
    exact hb.mids_ne_nil e₀ he₀
  mids_nodup := by
    intro e he
    obtain ⟨e₀, he₀, -, -, -, hmids⟩ := exists_of_outline h.symm he
    rw [← hmids]
    exact hb.mids_nodup e₀ he₀
  rtpPort_ne_zero := by
    intro e he
    obtain ⟨e₀, he₀, -, hport, -⟩ := exists_of_outline h.symm he
    rw [← hport]
    exact hb.rtpPort_ne_zero e₀ he₀
  carrier_unique := by
    intro e he e' he' mid hmid hmid'
    obtain ⟨e₀, he₀, hid, -, -, hmids⟩ := exists_of_outline h.symm he
    obtain ⟨e₀', he₀', hid', -, -, hmids'⟩ := exists_of_outline h.symm he'
    rw [← hmids] at hmid
    rw [← hmids'] at hmid'
    rw [← hid, ← hid', hb.carrier_unique e₀ he₀ e₀' he₀' mid hmid hmid']

/-- An endpoint may give sections up, and take those that nothing carries. -/
theorem Exclusive.update (hb : b.Exclusive) (hf : Endpoint.Retains f)
    (hmids : ∀ e ∈ b.endpoints, e.id = id → (f e).mids ≠ [] ∧ (f e).mids.Nodup)
    (hnew : ∀ e ∈ b.endpoints, e.id = id → ∀ m ∈ (f e).mids, m ∈ e.mids ∨ b.carrier? m = none) :
    (b.update id f).Exclusive := by
  -- a section of a changed endpoint was its own before, or nobody's
  have hback : ∀ e ∈ (b.update id f).endpoints, ∃ e₀ ∈ b.endpoints, e.id = e₀.id ∧
      e.rtpPort = e₀.rtpPort ∧ ∀ m ∈ e.mids, m ∈ e₀.mids ∨ (b.carrier? m = none ∧ e₀.id = id) := by
    intro e he
    obtain ⟨e₀, he₀, rfl⟩ := mem_update.mp he
    refine ⟨e₀, he₀, ?_⟩
    split
    · rename_i hid
      exact ⟨hf.id_eq e₀, hf.rtpPort_eq e₀, fun m hm ↦
        (hnew e₀ he₀ hid m hm).imp_right fun hnone ↦ ⟨hnone, hid⟩⟩
    · exact ⟨rfl, rfl, fun m hm ↦ Or.inl hm⟩
  refine ⟨hb.toWellFormed.update hf hmids, ?_, ?_⟩
  · intro e he
    obtain ⟨e₀, he₀, -, hport, -⟩ := hback e he
    rw [hport]
    exact hb.rtpPort_ne_zero e₀ he₀
  · intro e he e' he' mid hmid hmid'
    obtain ⟨e₀, he₀, hid, -, hsub⟩ := hback e he
    obtain ⟨e₀', he₀', hid', -, hsub'⟩ := hback e' he'
    rw [hid, hid']
    rcases hsub mid hmid with hmid | ⟨hnone, hid⟩
    · rcases hsub' mid hmid' with hmid' | ⟨hnone', -⟩
      · exact hb.carrier_unique e₀ he₀ e₀' he₀' mid hmid hmid'
      · exact absurd hmid (carrier?_eq_none_iff.mp hnone' e₀ he₀)
    · rcases hsub' mid hmid' with hmid' | ⟨-, hid'⟩
      · exact absurd hmid' (carrier?_eq_none_iff.mp hnone e₀' he₀')
      · exact hid.trans hid'.symm

theorem Exclusive.create (hb : b.Exclusive) {rtp : UInt16} (rtcp : Option UInt16)
    (hnone : b.carrier? mid = none) (hrtp : rtp ≠ 0) : (b.create mid rtp rtcp).Exclusive := by
  have hold := carrier?_eq_none_iff.mp hnone
  refine ⟨hb.toWellFormed.create mid rtp rtcp, ?_, ?_⟩
  · intro e he
    rcases List.mem_append.mp he with he | he
    · exact hb.rtpPort_ne_zero e he
    · rw [List.mem_singleton.mp he]
      exact hrtp
  · intro e he e' he' m hm hm'
    rcases List.mem_append.mp he with he | he <;> rcases List.mem_append.mp he' with he' | he'
    · exact hb.carrier_unique e he e' he' m hm hm'
    · rw [List.mem_singleton.mp he', List.mem_singleton] at hm'
      exact absurd (hm' ▸ hm) (hold e he)
    · rw [List.mem_singleton.mp he, List.mem_singleton] at hm
      exact absurd (hm ▸ hm') (hold e' he')
    · rw [List.mem_singleton.mp he, List.mem_singleton.mp he']

theorem Exclusive.without (hb : b.Exclusive) (id : EndpointId) : (b.without id).Exclusive where
  toWellFormed := hb.toWellFormed.without id
  rtpPort_ne_zero := fun e he ↦ hb.rtpPort_ne_zero e (mem_without.mp he).1
  carrier_unique := fun e he e' he' ↦
    hb.carrier_unique e (mem_without.mp he).1 e' (mem_without.mp he').1

theorem Exclusive.teardownAll (b : TransportBinding) (a : PortAllocator) :
    (b.teardownAll a).1.Exclusive := by
  rw [TransportBinding.teardownAll]
  constructor
  · constructor <;> simp
  · simp
  · simp

/-! ## What a change keeps -/

/-- Certain sections stay where they are: on an endpoint of the same identifier and ports. -/
def Keeps (kept : Mid → Prop) (b b' : TransportBinding) : Prop :=
  ∀ e ∈ b.endpoints, ∀ mid ∈ e.mids, kept mid →
    ∃ e' ∈ b'.endpoints, e'.id = e.id ∧ e'.rtpPort = e.rtpPort ∧ e'.rtcpPort = e.rtcpPort ∧
      mid ∈ e'.mids

theorem Keeps.refl (kept : Mid → Prop) (b : TransportBinding) : Keeps kept b b :=
  fun e he _ hmid _ ↦ ⟨e, he, rfl, rfl, rfl, hmid⟩

theorem Keeps.trans (h : Keeps kept b b') (h' : Keeps kept b' b'') : Keeps kept b b'' := by
  intro e he mid hmid hkept
  obtain ⟨e', he', hid, hrtp, hrtcp, hmid'⟩ := h e he mid hmid hkept
  obtain ⟨e'', he'', hid', hrtp', hrtcp', hmid''⟩ := h' e' he' mid hmid' hkept
  exact ⟨e'', he'', hid'.trans hid, hrtp'.trans hrtp, hrtcp'.trans hrtcp, hmid''⟩

theorem Keeps.mono {fewer : Mid → Prop} (h : Keeps kept b b') (hsub : ∀ mid, fewer mid → kept mid) :
    Keeps fewer b b' :=
  fun e he mid hmid hfewer ↦ h e he mid hmid (hsub mid hfewer)

theorem Keeps.of_outline (h : b'.outline = b.outline) : Keeps kept b b' := by
  intro e he mid hmid _
  obtain ⟨e', he', hid, hrtp, hrtcp, hmids⟩ := exists_of_outline h he
  exact ⟨e', he', hid, hrtp, hrtcp, hmids ▸ hmid⟩

theorem Keeps.carrier? (h : Keeps kept b b') (hb' : b'.Exclusive) (hkept : kept mid)
    (hc : b.carrier? mid = some id) : b'.carrier? mid = some id := by
  obtain ⟨e, he, hid, hmid⟩ := exists_of_carrier? hc
  obtain ⟨e', he', hid', -, -, hmid'⟩ := h e he mid hmid hkept
  exact hb'.carrier?_eq_some.mpr ⟨e', he', hid'.trans hid, hmid'⟩

/-- Where every section stays, every endpoint lives on. -/
theorem Keeps.isAlive (h : Keeps (fun _ ↦ True) b b') (hb : b.WellFormed)
    (halive : b.isAlive id = true) : b'.isAlive id = true := by
  obtain ⟨e, he, rfl⟩ := isAlive_iff.mp halive
  obtain ⟨mid, hmid⟩ := List.exists_mem_of_ne_nil _ (hb.mids_ne_nil e he)
  obtain ⟨e', he', hid, -⟩ := h e he mid hmid trivial
  exact isAlive_iff.mpr ⟨e', he', hid⟩

theorem keeps_update (hf : Endpoint.Retains f)
    (hmids : ∀ e ∈ b.endpoints, e.id = id → ∀ mid ∈ e.mids, kept mid → mid ∈ (f e).mids) :
    Keeps kept b (b.update id f) := by
  intro e he mid hmid hkept
  refine ⟨_, mem_update.mpr ⟨e, he, rfl⟩, ?_⟩
  split
  · rename_i hid
    exact ⟨hf.id_eq e, hf.rtpPort_eq e, hf.rtcpPort_eq e, hmids e he hid mid hmid hkept⟩
  · exact ⟨rfl, rfl, rfl, hmid⟩

theorem keeps_create (mid : Mid) (rtp : UInt16) (rtcp : Option UInt16) :
    Keeps kept b (b.create mid rtp rtcp) :=
  fun e he _ hmid _ ↦ ⟨e, List.mem_append_left _ he, rfl, rfl, rfl, hmid⟩

theorem keeps_without (hgone : ∀ e ∈ b.endpoints, e.id = id → ∀ mid ∈ e.mids, ¬kept mid) :
    Keeps kept b (b.without id) := by
  intro e he mid hmid hkept
  exact ⟨e, mem_without.mpr ⟨he, fun hid ↦ hgone e he hid mid hmid hkept⟩, rfl, rfl, rfl, hmid⟩

/-! ## Taking an endpoint -/

/-- An endpoint found for a section that nothing carries is its carrier, and no other section
moves. -/
theorem Exclusive.allocate (hb : b.Exclusive) {m : Section} {r : PortRange}
    {joins : Option EndpointId} (hnone : b.carrier? mid = none)
    (h : b.allocate a mid m r joins = (.ok id, b', a')) :
    b'.Exclusive ∧ Keeps (fun _ ↦ True) b b' ∧ b'.carrier? mid = some id := by
  rcases allocate_ok h with ⟨-, halive, rfl, -⟩ | ⟨-, rfl, rtp, rtcp, hports, rfl⟩
  · have hcarry : (b.update id (·.carry mid)).Exclusive := by
      refine hb.update (Endpoint.retains_carry mid) (fun e he _ ↦ ⟨?_, ?_⟩) fun e he _ m hm ↦ ?_
      · exact List.ne_nil_of_mem (Endpoint.mem_carry.mpr (Or.inr rfl))
      · exact Endpoint.nodup_carry mid (hb.mids_nodup e he)
      · exact (Endpoint.mem_carry.mp hm).imp_right fun hm ↦ by rw [hm, hnone]
    refine ⟨hcarry, keeps_update (Endpoint.retains_carry mid) fun e _ _ m hm _ ↦
      Endpoint.mem_carry.mpr (Or.inl hm), ?_⟩
    obtain ⟨e, he, rfl⟩ := isAlive_iff.mp halive
    refine hcarry.carrier?_eq_some.mpr ⟨_, mem_update.mpr ⟨e, he, rfl⟩, ?_⟩
    rw [if_pos rfl]
    exact ⟨(Endpoint.retains_carry mid).id_eq e, Endpoint.mem_carry.mpr (Or.inr rfl)⟩
  · have hcreate := hb.create rtcp hnone (takePorts_ne_zero hports)
    exact ⟨hcreate, keeps_create mid rtp rtcp, hcreate.carrier?_eq_some.mpr
      ⟨_, List.mem_append_right _ (List.mem_singleton_self _), rfl, List.mem_singleton_self mid⟩⟩

/-! ## Giving a section up -/

/-- What is left of a binding that gave a section up: an endpoint carries no more than one did
before, and not that section. -/
theorem Exclusive.mem_releaseMid (hb : b.Exclusive) (a : PortAllocator) (mid : Mid)
    (he : e ∈ (b.releaseMid a mid).1.endpoints) :
    ∃ e₀ ∈ b.endpoints, ∀ m ∈ e.mids, m ∈ e₀.mids ∧ m ≠ mid := by
  rcases releaseMid_cases hb.toWellFormed a mid with
    ⟨hnone, h⟩ | ⟨e₁, he₁, -, hmid, ⟨-, h⟩ | ⟨-, h⟩⟩
  all_goals rw [h] at he
  · exact ⟨e, he, fun m hm ↦ ⟨hm, fun hmid ↦ carrier?_eq_none_iff.mp hnone e he (hmid ▸ hm)⟩⟩
  · obtain ⟨e₀, he₀, rfl⟩ := mem_update.mp he
    refine ⟨e₀, he₀, fun m hm ↦ ?_⟩
    split at hm
    · exact Endpoint.mem_drop.mp hm
    · rename_i hid
      exact ⟨hm, fun hm' ↦ hid (hb.carrier_unique e₀ he₀ e₁ he₁ mid (hm' ▸ hm) hmid)⟩
  · obtain ⟨he, hid⟩ := mem_without.mp he
    exact ⟨e, he, fun m hm ↦
      ⟨hm, fun hm' ↦ hid (hb.carrier_unique e he e₁ he₁ mid (hm' ▸ hm) hmid)⟩⟩

/-- A section given up is carried no more, and none comes back. -/
theorem Exclusive.carrier?_releaseMid (hb : b.Exclusive) (a : PortAllocator) {m : Mid}
    (hm : m = mid ∨ b.carrier? m = none) : (b.releaseMid a mid).1.carrier? m = none := by
  refine carrier?_eq_none_iff.mpr fun e he hmem ↦ ?_
  obtain ⟨e₀, he₀, hsub⟩ := hb.mem_releaseMid a mid he
  rcases hm with rfl | hnone
  · exact (hsub m hmem).2 rfl
  · exact carrier?_eq_none_iff.mp hnone e₀ he₀ (hsub m hmem).1

/-- Giving a section up leaves the others where they are. -/
theorem Exclusive.releaseMid (hb : b.Exclusive) (a : PortAllocator) (mid : Mid) :
    (b.releaseMid a mid).1.Exclusive ∧ Keeps (· ≠ mid) b (b.releaseMid a mid).1 := by
  rcases releaseMid_cases hb.toWellFormed a mid with
    ⟨-, h⟩ | ⟨e, he, -, -, ⟨hne, h⟩ | ⟨hnil, h⟩⟩
  all_goals rw [h]
  · exact ⟨hb, .refl _ b⟩
  · have hdrop := Endpoint.retains_drop mid
    refine ⟨hb.update hdrop (fun e' he' hid ↦ ?_) fun e' _ _ m hm ↦
      Or.inl (Endpoint.mem_drop.mp hm).1, keeps_update hdrop fun e' _ _ m hm hne ↦
        Endpoint.mem_drop.mpr ⟨hm, hne⟩⟩
    rw [hb.eq_of_id he' he hid]
    exact ⟨hne, (hb.mids_nodup e he).filter _⟩
  · refine ⟨hb.without e.id, keeps_without fun e' he' hid m hm hne ↦ ?_⟩
    -- its carrier carried nothing else
    rw [hb.eq_of_id he' he hid] at hm
    exact List.ne_nil_of_mem (Endpoint.mem_drop.mpr ⟨hm, hne⟩) hnil

/-! ## Candidates and channels -/

theorem outline_addRemoteCandidate (b : TransportBinding) (id : EndpointId) (c : Candidate) :
    (b.addRemoteCandidate id c).2.outline = b.outline := by
  rw [addRemoteCandidate]
  split
  · rfl
  · split
    · rfl
    · exact outline_update fun _ ↦ rfl

/-- Every endpoint has the secure channel of one that was there before, under its identifier. -/
def SidesFrom (b b' : TransportBinding) : Prop :=
  ∀ e' ∈ b'.endpoints, ∃ e ∈ b.endpoints,
    e.id = e'.id ∧ e.encrypt = e'.encrypt ∧ e.decrypt = e'.decrypt

theorem SidesFrom.refl (b : TransportBinding) : SidesFrom b b :=
  fun e he ↦ ⟨e, he, rfl, rfl, rfl⟩

theorem SidesFrom.trans (h : SidesFrom b b') (h' : SidesFrom b' b'') : SidesFrom b b'' := by
  intro e'' he''
  obtain ⟨e', he', hid', henc', hdec'⟩ := h' e'' he''
  obtain ⟨e, he, hid, henc, hdec⟩ := h e' he'
  exact ⟨e, he, hid.trans hid', henc.trans henc', hdec.trans hdec'⟩

theorem sidesFrom_update (hf : Endpoint.Retains f)
    (hsides : ∀ e, (f e).encrypt = e.encrypt ∧ (f e).decrypt = e.decrypt) :
    SidesFrom b (b.update id f) := by
  intro e he
  obtain ⟨e₀, he₀, rfl⟩ := mem_update.mp he
  refine ⟨e₀, he₀, ?_⟩
  split
  · exact ⟨(hf.id_eq e₀).symm, (hsides e₀).1.symm, (hsides e₀).2.symm⟩
  · exact ⟨rfl, rfl, rfl⟩

theorem sidesFrom_without (b : TransportBinding) (id : EndpointId) : SidesFrom b (b.without id) :=
  fun e he ↦ ⟨e, (mem_without.mp he).1, rfl, rfl, rfl⟩

theorem sidesFrom_addRemoteCandidate (b : TransportBinding) (id : EndpointId) (c : Candidate) :
    SidesFrom b (b.addRemoteCandidate id c).2 := by
  rw [addRemoteCandidate]
  split
  · exact .refl b
  · split
    · exact .refl b
    · exact sidesFrom_update (Endpoint.retains_takeCandidate c) fun _ ↦ ⟨rfl, rfl⟩

theorem WellFormed.sidesFrom_releaseMid (hb : b.WellFormed) (a : PortAllocator) (mid : Mid) :
    SidesFrom b (b.releaseMid a mid).1 := by
  rcases releaseMid_cases hb a mid with ⟨-, h⟩ | ⟨e, -, -, -, ⟨-, h⟩ | ⟨-, h⟩⟩
  all_goals rw [h]
  · exact .refl b
  · exact sidesFrom_update (Endpoint.retains_drop mid) fun _ ↦ ⟨rfl, rfl⟩
  · exact sidesFrom_without b e.id

/-- Every secure channel is that of the same endpoint before; an endpoint that is new has none. -/
def SidesKept (b b' : TransportBinding) : Prop :=
  ∀ e' ∈ b'.endpoints, (∃ e ∈ b.endpoints, e.id = e'.id ∧ e.encrypt = e'.encrypt ∧
    e.decrypt = e'.decrypt) ∨ e'.encrypt = none ∧ e'.decrypt = none

theorem SidesFrom.sidesKept (h : SidesFrom b b') : SidesKept b b' := fun e' he' ↦ Or.inl (h e' he')

theorem SidesKept.trans (h : SidesKept b b') (h' : SidesKept b' b'') : SidesKept b b'' := by
  intro e'' he''
  rcases h' e'' he'' with ⟨e', he', hid', henc', hdec'⟩ | hnone
  · rw [← hid', ← henc', ← hdec']
    exact h e' he'
  · exact Or.inr hnone

theorem sidesKept_allocate (b : TransportBinding) (a : PortAllocator) (mid : Mid) (m : Section)
    (r : PortRange) (joins : Option EndpointId) :
    SidesKept b (b.allocate a mid m r joins).2.1 := by
  rcases h : b.allocate a mid m r joins with ⟨result, b', a'⟩
  cases result with
  | error e =>
    obtain ⟨rfl, -⟩ := allocate_error h
    exact (SidesFrom.refl b').sidesKept
  | ok id =>
    rcases allocate_ok h with ⟨-, -, rfl, -⟩ | ⟨-, rfl, rtp, rtcp, -, rfl⟩
    · refine (sidesFrom_update (Endpoint.retains_carry mid) fun e ↦ ?_).sidesKept
      rw [Endpoint.carry]
      split <;> exact ⟨rfl, rfl⟩
    · intro e he
      rcases List.mem_append.mp he with he | he
      · exact (SidesFrom.refl b).sidesKept e he
      · rw [List.mem_singleton.mp he]
        exact Or.inr ⟨rfl, rfl⟩

end TransportBinding

end OfferAnswer
