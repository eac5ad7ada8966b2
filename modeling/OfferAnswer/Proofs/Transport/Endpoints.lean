import OfferAnswer.Proofs.Lookup
import OfferAnswer.Proofs.Transport.Ports

/-!
# The endpoints of one binding

Looking endpoints up, changing them and tearing them down, said once for each operation, and what a
binding keeps through all of them: `TransportBinding.WellFormed`.

Every change of a live endpoint leaves its identifier and its ports alone (`Endpoint.Retains`).
That is the only thing the lookups need to know about a change, so one lemma on
`TransportBinding.update` serves for candidates, channels, remote addresses and sections alike.
-/

namespace OfferAnswer

/-! ## Changes of an endpoint -/

namespace Endpoint

/-- A change that leaves the identifier and the ports of an endpoint alone. -/
structure Retains (f : Endpoint → Endpoint) : Prop where
  /-- The identifier stays. -/
  id_eq : ∀ e, (f e).id = e.id
  /-- The port of RTP stays. -/
  rtpPort_eq : ∀ e, (f e).rtpPort = e.rtpPort
  /-- The port of RTCP stays. -/
  rtcpPort_eq : ∀ e, (f e).rtcpPort = e.rtcpPort

theorem Retains.ports_eq {f : Endpoint → Endpoint} (hf : Retains f) (e : Endpoint) :
    (f e).ports = e.ports := by
  rw [ports, ports, hf.rtpPort_eq, hf.rtcpPort_eq]

theorem retains_carry (mid : Mid) : Retains (·.carry mid) := by
  constructor <;> intro e <;> dsimp only [carry] <;> split <;> rfl

theorem retains_drop (mid : Mid) : Retains (·.drop mid) := ⟨fun _ ↦ rfl, fun _ ↦ rfl, fun _ ↦ rfl⟩

theorem retains_takeCandidate (c : Candidate) : Retains (·.takeCandidate c) :=
  ⟨fun _ ↦ rfl, fun _ ↦ rfl, fun _ ↦ rfl⟩

theorem retains_secured (side : SecureSide) :
    Retains fun e ↦ { e with encrypt := some side, decrypt := some side } :=
  ⟨fun _ ↦ rfl, fun _ ↦ rfl, fun _ ↦ rfl⟩

theorem retains_remote (address : SocketAddress) :
    Retains fun e ↦ { e with remote := some address } :=
  ⟨fun _ ↦ rfl, fun _ ↦ rfl, fun _ ↦ rfl⟩

theorem mem_carry {e : Endpoint} {mid m : Mid} : m ∈ (e.carry mid).mids ↔ m ∈ e.mids ∨ m = mid := by
  rw [carry]
  split
  · rename_i h
    refine ⟨Or.inl, ?_⟩
    rintro (hm | rfl)
    · exact hm
    · exact List.contains_iff_mem.mp h
  · rw [List.mem_append, List.mem_singleton]

theorem nodup_carry {e : Endpoint} (mid : Mid) (h : e.mids.Nodup) : (e.carry mid).mids.Nodup := by
  rw [carry]
  split
  · exact h
  · rename_i hmid
    rw [List.contains_iff_mem] at hmid
    exact List.nodup_append.mpr ⟨h, List.nodup_singleton mid, fun a ha b hb hab ↦
      hmid (List.mem_singleton.mp hb ▸ hab ▸ ha)⟩

theorem mem_drop {e : Endpoint} {mid m : Mid} : m ∈ (e.drop mid).mids ↔ m ∈ e.mids ∧ m ≠ mid := by
  rw [drop, List.mem_filter, bne_iff_ne]

end Endpoint

namespace TransportBinding

open PortAllocator

variable {b : TransportBinding} {id i : EndpointId} {mid : Mid} {e : Endpoint}
  {f : Endpoint → Endpoint} {a : PortAllocator}

/-! ## Looking up -/

theorem mem_of_endpoint? (h : b.endpoint? id = some e) : e ∈ b.endpoints :=
  List.mem_of_find?_eq_some h

theorem id_of_endpoint? (h : b.endpoint? id = some e) : e.id = id := by
  simpa using List.find?_some h

theorem isAlive_iff : b.isAlive id = true ↔ ∃ e ∈ b.endpoints, e.id = id := by
  rw [isAlive, endpoint?, List.find?_isSome]
  simp only [beq_iff_eq]

theorem isAlive_iff_endpoint? : b.isAlive id = true ↔ ∃ e, b.endpoint? id = some e := by
  rw [isAlive, Option.isSome_iff_exists]

theorem exists_of_carrier? (h : b.carrier? mid = some id) :
    ∃ e ∈ b.endpoints, e.id = id ∧ mid ∈ e.mids := by
  obtain ⟨e, he, hid⟩ := Option.map_eq_some_iff.mp h
  exact ⟨e, List.mem_of_find?_eq_some he, hid, by simpa using List.find?_some he⟩

theorem carrier?_eq_none_iff : b.carrier? mid = none ↔ ∀ e ∈ b.endpoints, mid ∉ e.mids := by
  rw [carrier?, Option.map_eq_none_iff, List.find?_eq_none]
  simp only [List.contains_iff_mem]

theorem isAlive_of_carrier? (h : b.carrier? mid = some id) : b.isAlive id = true := by
  obtain ⟨e, he, hid, -⟩ := exists_of_carrier? h
  exact isAlive_iff.mpr ⟨e, he, hid⟩

/-! ## What a binding keeps -/

/-- What every operation keeps: identifiers are unique and have all been handed out, and an endpoint
carries at least one section and none twice. -/
structure WellFormed (b : TransportBinding) : Prop where
  /-- No two endpoints share an identifier. -/
  ids_nodup : (b.endpoints.map (·.id)).Nodup
  /-- Identifiers not handed out yet belong to no endpoint. -/
  id_lt : ∀ e ∈ b.endpoints, e.id < b.nextId
  /-- An endpoint lives as long as it carries a section. -/
  mids_ne_nil : ∀ e ∈ b.endpoints, e.mids ≠ []
  /-- A section is carried once. -/
  mids_nodup : ∀ e ∈ b.endpoints, e.mids.Nodup

theorem wellFormed_empty : WellFormed {} := by
  constructor <;> simp

theorem WellFormed.eq_of_id (hb : b.WellFormed) {e e' : Endpoint} (he : e ∈ b.endpoints)
    (he' : e' ∈ b.endpoints) (h : e.id = e'.id) : e = e' :=
  List.inj_on_of_nodup_map hb.ids_nodup he he' h

theorem WellFormed.endpoint?_eq_some (hb : b.WellFormed) :
    b.endpoint? id = some e ↔ e ∈ b.endpoints ∧ e.id = id :=
  find?_key_eq_some_iff hb.ids_nodup

/-! ## Changing an endpoint -/

theorem mem_update : e ∈ (b.update id f).endpoints ↔
    ∃ e₀ ∈ b.endpoints, (if e₀.id = id then f e₀ else e₀) = e := by
  rw [update, List.mem_map]

theorem ids_update (hf : Endpoint.Retains f) :
    (b.update id f).endpoints.map (·.id) = b.endpoints.map (·.id) := by
  rw [update, List.map_map]
  refine List.map_congr_left fun e _ ↦ ?_
  dsimp only [Function.comp]
  split
  · exact hf.id_eq e
  · rfl

theorem endpoint?_update (hf : Endpoint.Retains f) :
    (b.update id f).endpoint? i = (b.endpoint? i).map fun e ↦ if i = id then f e else e := by
  rw [endpoint?, endpoint?, update, List.find?_map]
  have hid : ∀ e : Endpoint, (if e.id = id then f e else e).id = e.id := fun e ↦ by
    split
    · exact hf.id_eq e
    · rfl
  simp only [Function.comp_def, hid]
  cases h : b.endpoints.find? (·.id == i) with
  | none => rfl
  | some e =>
    have hi : e.id = i := by simpa using List.find?_some h
    rw [Option.map_some, Option.map_some, hi]

theorem isAlive_update (hf : Endpoint.Retains f) : (b.update id f).isAlive i = b.isAlive i := by
  rw [isAlive, isAlive, endpoint?_update hf, Option.isSome_map]

theorem WellFormed.update (hb : b.WellFormed) (hf : Endpoint.Retains f)
    (hmids : ∀ e ∈ b.endpoints, e.id = id → (f e).mids ≠ [] ∧ (f e).mids.Nodup) :
    (b.update id f).WellFormed where
  ids_nodup := by
    rw [ids_update hf]
    exact hb.ids_nodup
  id_lt := by
    intro e he
    obtain ⟨e₀, he₀, rfl⟩ := mem_update.mp he
    split
    · rw [hf.id_eq]
      exact hb.id_lt e₀ he₀
    · exact hb.id_lt e₀ he₀
  mids_ne_nil := by
    intro e he
    obtain ⟨e₀, he₀, rfl⟩ := mem_update.mp he
    split
    · rename_i hid
      exact (hmids e₀ he₀ hid).1
    · exact hb.mids_ne_nil e₀ he₀
  mids_nodup := by
    intro e he
    obtain ⟨e₀, he₀, rfl⟩ := mem_update.mp he
    split
    · rename_i hid
      exact (hmids e₀ he₀ hid).2
    · exact hb.mids_nodup e₀ he₀

theorem WellFormed.create (hb : b.WellFormed) (mid : Mid) (rtp : UInt16) (rtcp : Option UInt16) :
    (b.create mid rtp rtcp).WellFormed where
  ids_nodup := by
    rw [TransportBinding.create, List.map_append, List.nodup_append]
    refine ⟨hb.ids_nodup, List.nodup_singleton _, fun i hi j hj ↦ ?_⟩
    obtain ⟨e, he, rfl⟩ := List.mem_map.mp hi
    rw [List.map_singleton, List.mem_singleton] at hj
    rw [hj]
    exact Nat.ne_of_lt (hb.id_lt e he)
  id_lt := by
    intro e he
    rcases List.mem_append.mp he with he | he
    · exact Nat.lt_succ_of_lt (hb.id_lt e he)
    · rw [List.mem_singleton.mp he]
      exact Nat.lt_succ_self _
  mids_ne_nil := by
    intro e he
    rcases List.mem_append.mp he with he | he
    · exact hb.mids_ne_nil e he
    · rw [List.mem_singleton.mp he]
      exact List.cons_ne_nil _ _
  mids_nodup := by
    intro e he
    rcases List.mem_append.mp he with he | he
    · exact hb.mids_nodup e he
    · rw [List.mem_singleton.mp he]
      exact List.nodup_singleton mid

/-! ## Tearing an endpoint down -/

/-- The binding without an endpoint. -/
def without (b : TransportBinding) (id : EndpointId) : TransportBinding :=
  { b with endpoints := b.endpoints.filter (·.id != id) }

theorem mem_without : e ∈ (b.without id).endpoints ↔ e ∈ b.endpoints ∧ e.id ≠ id := by
  rw [without, List.mem_filter, bne_iff_ne]

theorem WellFormed.without (hb : b.WellFormed) (id : EndpointId) : (b.without id).WellFormed where
  ids_nodup := hb.ids_nodup.sublist (List.filter_sublist.map _)
  id_lt := fun e he ↦ hb.id_lt e (mem_without.mp he).1
  mids_ne_nil := fun e he ↦ hb.mids_ne_nil e (mem_without.mp he).1
  mids_nodup := fun e he ↦ hb.mids_nodup e (mem_without.mp he).1

/-- With unique identifiers, an endpoint and what is left without it make up the binding. -/
theorem perm_cons_without (hids : (b.endpoints.map (·.id)).Nodup) (he : e ∈ b.endpoints) :
    b.endpoints.Perm (e :: (b.without e.id).endpoints) := by
  change b.endpoints.Perm (e :: b.endpoints.filter (·.id != e.id))
  generalize b.endpoints = es at hids he
  induction es with
  | nil => cases he
  | cons e₀ es ih =>
    rw [List.map_cons, List.nodup_cons] at hids
    rcases List.mem_cons.mp he with rfl | he
    · have keep : es.filter (·.id != e.id) = es := List.filter_eq_self.mpr fun e' he' ↦
        bne_iff_ne.mpr fun h ↦ hids.1 (h ▸ List.mem_map_of_mem he')
      rw [List.filter_cons_of_neg (by simp), keep]
    · have hne : e₀.id ≠ e.id := fun h ↦ hids.1 (h ▸ List.mem_map_of_mem he)
      rw [List.filter_cons, if_pos (bne_iff_ne.mpr hne)]
      exact ((ih hids.2 he).cons e₀).trans (List.Perm.swap _ _ _)

theorem teardown_cases (b : TransportBinding) (a : PortAllocator) (id : EndpointId) :
    (b.endpoint? id = none ∧ b.teardown a id = (false, b, a)) ∨
      ∃ e, b.endpoint? id = some e ∧ b.teardown a id = (true, b.without id, releasePorts a e) := by
  rw [teardown]
  cases h : b.endpoint? id with
  | none => exact Or.inl ⟨rfl, rfl⟩
  | some e => exact Or.inr ⟨e, rfl, rfl⟩

/-! ## Giving a section up -/

theorem update_without (hf : Endpoint.Retains f) : (b.update id f).without id = b.without id := by
  rw [without, without, update, List.filter_map]
  congr 1
  have hne : ∀ e : Endpoint, ((·.id != id) ∘ fun e ↦ if e.id = id then f e else e) e
      = (e.id != id) := fun e ↦ by
    dsimp only [Function.comp]
    split
    · rw [hf.id_eq]
    · rfl
  rw [List.filter_congr fun e _ ↦ hne e]
  refine (List.map_congr_left fun e he ↦ ?_).trans (List.map_id _)
  exact if_neg (bne_iff_ne.mp (List.mem_filter.mp he).2)

/-- All that giving a section up can do: nothing if nothing carries it, else its carrier loses it,
and goes if that was its last one. -/
theorem releaseMid_cases (hb : b.WellFormed) (a : PortAllocator) (mid : Mid) :
    (b.carrier? mid = none ∧ b.releaseMid a mid = (b, a)) ∨
      ∃ e ∈ b.endpoints, b.carrier? mid = some e.id ∧ mid ∈ e.mids ∧
        (((e.drop mid).mids ≠ [] ∧ b.releaseMid a mid = (b.update e.id (·.drop mid), a)) ∨
          ((e.drop mid).mids = [] ∧
            b.releaseMid a mid = (b.without e.id, releasePorts a e))) := by
  rw [releaseMid]
  cases hc : b.carrier? mid with
  | none => exact Or.inl ⟨rfl, rfl⟩
  | some id =>
    obtain ⟨e, he, rfl, hmid⟩ := exists_of_carrier? hc
    refine Or.inr ⟨e, he, rfl, hmid, ?_⟩
    have hdrop : (b.update e.id (·.drop mid)).endpoint? e.id = some (e.drop mid) := by
      rw [endpoint?_update (Endpoint.retains_drop mid), hb.endpoint?_eq_some.mpr ⟨he, rfl⟩,
        Option.map_some, if_pos rfl]
    dsimp only
    rw [hdrop, Option.any_some]
    by_cases hnil : (e.drop mid).mids = []
    · refine Or.inr ⟨hnil, ?_⟩
      rw [if_pos (List.isEmpty_iff.mpr hnil), teardown, hdrop]
      exact Prod.ext (update_without (Endpoint.retains_drop mid)) rfl
    · refine Or.inl ⟨hnil, ?_⟩
      rw [if_neg fun h ↦ hnil (List.isEmpty_iff.mp h)]

/-! ## Finding an endpoint for a section -/

/-- All that a successful allocation can do: join a live endpoint, or create one. -/
theorem allocate_ok {b b' : TransportBinding} {a a' : PortAllocator} {m : Section} {r : PortRange}
    {joins : Option EndpointId} (h : b.allocate a mid m r joins = (.ok id, b', a')) :
    (joins = some id ∧ b.isAlive id = true ∧ b' = b.update id (·.carry mid) ∧ a' = a) ∨
      (joins = none ∧ id = b.nextId ∧ ∃ rtp rtcp,
        takePorts a r (needsRtcpPort m) = (.ok (rtp, rtcp), a') ∧ b' = b.create mid rtp rtcp) := by
  unfold allocate at h
  split at h
  · split at h
    · rename_i halive
      cases h
      exact Or.inl ⟨rfl, halive, rfl, rfl⟩
    · cases h
  · split at h
    · cases h
    · rename_i hports
      cases h
      exact Or.inr ⟨rfl, rfl, _, _, hports, rfl⟩

/-- A failed allocation changes nothing, and unless an endpoint to join is gone, it is for lack of
ports. -/
theorem allocate_error {b b' : TransportBinding} {a a' : PortAllocator} {m : Section}
    {r : PortRange} {joins : Option EndpointId} {err : NegotiationError}
    (h : b.allocate a mid m r joins = (.error err, b', a')) :
    b' = b ∧ a' = a ∧
      ((∃ id, joins = some id ∧ b.isAlive id = false) ∨ err = .noPorts r.min r.max) := by
  unfold allocate at h
  split at h
  · split at h
    · cases h
    · rename_i hgone
      cases h
      exact ⟨rfl, rfl, Or.inl ⟨_, rfl, Bool.eq_false_iff.mpr hgone⟩⟩
  · split at h
    · rename_i hports
      cases h
      obtain ⟨rfl, herr⟩ := takePorts_error hports
      exact ⟨rfl, rfl, Or.inr herr⟩
    · cases h

/-! ## Steps

Every operation on a binding is one of six moves, seen together with the ports. What holds of a
binding through any operation is shown for the moves, once. -/

/-- The moves of a binding and its allocator. A binding that is dropped is there no more. -/
inductive Step (b : TransportBinding) (a : PortAllocator) :
    Option TransportBinding → PortAllocator → Prop where
  /-- Nothing happens. -/
  | stay : Step b a (some b) a
  /-- A live endpoint changes, and still carries sections, each once. -/
  | change {id : EndpointId} {f : Endpoint → Endpoint} : Endpoint.Retains f →
    (∀ e ∈ b.endpoints, e.id = id → (f e).mids ≠ [] ∧ (f e).mids.Nodup) →
    Step b a (some (b.update id f)) a
  /-- An endpoint is created with ports just taken. -/
  | create {mid : Mid} {range : PortRange} {both : Bool} {rtp : UInt16} {rtcp : Option UInt16}
    {a' : PortAllocator} : takePorts a range both = (.ok (rtp, rtcp), a') →
    Step b a (some (b.create mid rtp rtcp)) a'
  /-- An endpoint goes and gives its ports back. -/
  | remove {e : Endpoint} : e ∈ b.endpoints → Step b a (some (b.without e.id)) (releasePorts a e)
  /-- Every endpoint goes. -/
  | clear : Step b a (some (b.teardownAll a).1) (b.teardownAll a).2
  /-- Every endpoint goes, and the binding with them. -/
  | drop : Step b a none (b.teardownAll a).2

theorem WellFormed.step {b b' : TransportBinding} {a a' : PortAllocator} (hb : b.WellFormed)
    (h : Step b a (some b') a') : b'.WellFormed := by
  cases h with
  | stay => exact hb
  | change hf hmids => exact hb.update hf hmids
  | create _ => exact hb.create _ _ _
  | remove _ => exact hb.without _
  | clear => constructor <;> simp [teardownAll]

/-- A change that leaves the sections of the endpoint alone. -/
theorem WellFormed.step_change (hb : b.WellFormed) (a : PortAllocator) (id : EndpointId)
    (hf : Endpoint.Retains f) (hmids : ∀ e, (f e).mids = e.mids) :
    Step b a (some (b.update id f)) a :=
  .change hf fun e he _ ↦ by
    rw [hmids]
    exact ⟨hb.mids_ne_nil e he, hb.mids_nodup e he⟩

theorem WellFormed.step_allocate (hb : b.WellFormed) (a : PortAllocator) (mid : Mid) (m : Section)
    (range : PortRange) (joins : Option EndpointId) :
    Step b a (some (b.allocate a mid m range joins).2.1) (b.allocate a mid m range joins).2.2 := by
  rcases hr : b.allocate a mid m range joins with ⟨err | id, b', a'⟩
  · obtain ⟨rfl, rfl, -⟩ := allocate_error hr
    exact .stay
  · rcases allocate_ok hr with ⟨-, -, rfl, rfl⟩ | ⟨-, -, rtp, rtcp, hports, rfl⟩
    · exact .change (Endpoint.retains_carry mid) fun e he _ ↦
        ⟨List.ne_nil_of_mem (Endpoint.mem_carry.mpr (Or.inr rfl)),
          Endpoint.nodup_carry mid (hb.mids_nodup e he)⟩
    · exact .create hports

theorem WellFormed.step_releaseMid (hb : b.WellFormed) (a : PortAllocator) (mid : Mid) :
    Step b a (some (b.releaseMid a mid).1) (b.releaseMid a mid).2 := by
  rcases releaseMid_cases hb a mid with ⟨-, h⟩ | ⟨e, he, -, -, ⟨hne, h⟩ | ⟨-, h⟩⟩ <;> rw [h]
  · exact .stay
  · -- the endpoint carries something else, and stays
    refine .change (Endpoint.retains_drop mid) fun e' he' hid ↦ ?_
    rw [hb.eq_of_id he' he hid]
    exact ⟨hne, (hb.mids_nodup e he).filter _⟩
  · exact .remove he

theorem WellFormed.step_teardown (hb : b.WellFormed) (a : PortAllocator) (id : EndpointId) :
    Step b a (some (b.teardown a id).2.1) (b.teardown a id).2.2 := by
  rcases teardown_cases b a id with ⟨-, ht⟩ | ⟨e, he, ht⟩ <;> rw [ht]
  · exact .stay
  · obtain ⟨hmem, rfl⟩ := hb.endpoint?_eq_some.mp he
    exact .remove hmem

theorem WellFormed.step_secure (hb : b.WellFormed) (a : PortAllocator) (id : EndpointId)
    (side : SecureSide) : Step b a (some (b.secure id side).2) a := by
  rw [secure]
  split
  · exact .stay
  · exact hb.step_change a id (Endpoint.retains_secured side) fun _ ↦ rfl

theorem WellFormed.step_addRemoteCandidate (hb : b.WellFormed) (a : PortAllocator)
    (id : EndpointId) (c : Candidate) : Step b a (some (b.addRemoteCandidate id c).2) a := by
  rw [addRemoteCandidate]
  split
  · exact .stay
  · split
    · exact .stay
    · exact hb.step_change a id (Endpoint.retains_takeCandidate c) fun _ ↦ rfl

end TransportBinding

end OfferAnswer
