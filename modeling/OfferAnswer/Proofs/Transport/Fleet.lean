import OfferAnswer.Proofs.Transport.Endpoints

/-!
# Several bindings on one allocator

A `Fleet` is any number of bindings that share the ports of one allocator; a binding that was
dropped leaves an empty slot. Whatever operations are performed on its bindings, in whatever order,
the ports in use are those of the live endpoints (`Fleet.Sound`): nothing leaks, nothing is handed
out twice, and nothing is given back that somebody still holds.

## What an operation has to show

For its own binding, that it stays well formed; for the ports, that the allocator stays in step
when the rest of the fleet holds *some* other ports. The second statement is about one binding and
an arbitrary list `rest`, so no operation ever looks at another slot.

Identifiers are handed out in order and never again. `TransportBinding.Succeeds` says so between
two states of one binding, and composes along a run.
-/

namespace OfferAnswer

open PortAllocator

/-- An operation on a binding. -/
inductive TransportCall where
  /-- Find an endpoint for a section, joining one or creating one. -/
  | allocate (mid : Mid) (m : Section) (range : PortRange) (bundleWith : Option EndpointId)
  /-- Give an endpoint a secure channel. -/
  | secure (id : EndpointId) (side : SecureSide)
  | setRemote (id : EndpointId) (address : SocketAddress)
  /-- Add a remote candidate to an endpoint. -/
  | candidate (id : EndpointId) (c : Candidate)
  /-- Give a section up. -/
  | releaseMid (mid : Mid)
  | teardown (id : EndpointId)
  | teardownAll
  | drop

namespace TransportBinding

/-- Performs an operation. A binding that is dropped tears every endpoint down and is gone. -/
def call (b : TransportBinding) (a : PortAllocator) :
    TransportCall → Option TransportBinding × PortAllocator
  | .allocate mid m range bundleWith =>
    (some (b.allocate a mid m range bundleWith).2.1, (b.allocate a mid m range bundleWith).2.2)
  | .secure id side => (some (b.secure id side).2, a)
  | .setRemote id address => (some (b.setRemote id address), a)
  | .candidate id c => (some (b.addRemoteCandidate id c).2, a)
  | .releaseMid mid => (some (b.releaseMid a mid).1, (b.releaseMid a mid).2)
  | .teardown id => (some (b.teardown a id).2.1, (b.teardown a id).2.2)
  | .teardownAll => (some (b.teardownAll a).1, (b.teardownAll a).2)
  | .drop => (none, (b.teardownAll a).2)

/-- The ports of the live endpoints. -/
def heldPorts (b : TransportBinding) : List UInt16 := b.endpoints.flatMap Endpoint.ports

variable {b b' b'' : TransportBinding} {a a' : PortAllocator} {rest : List UInt16} {e : Endpoint}
  {id : EndpointId} {f : Endpoint → Endpoint}

/-! ## The ports a binding holds -/

theorem heldPorts_update (hf : Endpoint.Retains f) : (b.update id f).heldPorts = b.heldPorts := by
  rw [heldPorts, heldPorts, update, List.flatMap_map]
  refine List.flatMap_congr fun e _ ↦ ?_
  split
  · exact hf.ports_eq e
  · rfl

theorem heldPorts_create (mid : Mid) (rtp : UInt16) (rtcp : Option UInt16) :
    (b.create mid rtp rtcp).heldPorts = b.heldPorts ++ (rtp :: rtcp.toList) := by
  rw [heldPorts, create, List.flatMap_append, List.flatMap_singleton]
  rfl

theorem WellFormed.heldPorts_perm (hb : b.WellFormed) (he : e ∈ b.endpoints) :
    b.heldPorts.Perm (e.ports ++ (b.without e.id).heldPorts) :=
  (perm_cons_without hb.ids_nodup he).flatMap_right Endpoint.ports

theorem accounts_without (hb : b.WellFormed) (he : e ∈ b.endpoints)
    (h : Accounts a (b.heldPorts ++ rest)) :
    Accounts (releasePorts a e) ((b.without e.id).heldPorts ++ rest) := by
  have hheld : Accounts a (e.ports ++ ((b.without e.id).heldPorts ++ rest)) := by
    refine h.of_perm ?_
    rw [← List.append_assoc]
    exact (hb.heldPorts_perm he).append_right rest
  exact hheld.releaseAll

theorem accounts_teardownAll (h : Accounts a (b.heldPorts ++ rest)) :
    Accounts (b.teardownAll a).2 rest := by
  rw [teardownAll]
  rw [heldPorts] at h
  generalize b.endpoints = es at h ⊢
  induction es generalizing a with
  | nil => exact h
  | cons e es ih =>
    rw [List.flatMap_cons, List.append_assoc] at h
    exact ih h.releaseAll

/-- **The books of one operation.** Whatever others hold, the allocator stays in step with the
binding. -/
theorem accounts_step {slot : Option TransportBinding} (hb : b.WellFormed) (hs : Step b a slot a')
    (h : Accounts a (b.heldPorts ++ rest)) : Accounts a' (slot.elim [] heldPorts ++ rest) := by
  cases hs with
  | stay => exact h
  | change hf _ =>
    rw [Option.elim_some, heldPorts_update hf]
    exact h
  | create hports =>
    rw [Option.elim_some, heldPorts_create]
    refine (takePorts_accounts hports h).of_perm ?_
    rw [← List.append_assoc]
    exact List.perm_append_comm.append_right rest
  | remove he => exact accounts_without hb he h
  | clear => exact accounts_teardownAll h
  | drop => exact accounts_teardownAll h

theorem step_call (hb : b.WellFormed) (a : PortAllocator) (c : TransportCall) :
    Step b a (b.call a c).1 (b.call a c).2 := by
  cases c with
  | allocate mid m range bundleWith => exact hb.step_allocate a mid m range bundleWith
  | secure id side => exact hb.step_secure a id side
  | setRemote id address => exact hb.step_change a id (Endpoint.retains_remote address) fun _ ↦ rfl
  | candidate id c => exact hb.step_addRemoteCandidate a id c
  | releaseMid mid => exact hb.step_releaseMid a mid
  | teardown id => exact hb.step_teardown a id
  | teardownAll => exact .clear
  | drop => exact .drop

/-! ## Identifiers over time -/

/-- Between two states of one binding: identifiers are handed out in order, and an endpoint that is
live later was live before or is new. -/
structure Succeeds (b b' : TransportBinding) : Prop where
  /-- The next identifier only grows. -/
  nextId_le : b.nextId ≤ b'.nextId
  /-- What is live was live, or has an identifier that was not handed out yet. -/
  isAlive_or : ∀ id, b'.isAlive id = true → b.isAlive id = true ∨ b.nextId ≤ id

theorem Succeeds.refl (b : TransportBinding) : b.Succeeds b :=
  ⟨Nat.le_refl _, fun _ ↦ Or.inl⟩

theorem Succeeds.trans (h : b.Succeeds b') (h' : b'.Succeeds b'') : b.Succeeds b'' := by
  refine ⟨Nat.le_trans h.nextId_le h'.nextId_le, fun id hid ↦ ?_⟩
  rcases h'.isAlive_or id hid with hid | hid
  · exact h.isAlive_or id hid
  · exact Or.inr (Nat.le_trans h.nextId_le hid)

theorem Step.succeeds (hs : Step b a (some b') a') : b.Succeeds b' := by
  cases hs with
  | stay => exact .refl b
  | change hf _ => exact ⟨Nat.le_refl _, fun _ h ↦ Or.inl (isAlive_update hf ▸ h)⟩
  | create _ =>
    refine ⟨Nat.le_succ _, fun i hi ↦ ?_⟩
    obtain ⟨e, he, rfl⟩ := isAlive_iff.mp hi
    rcases List.mem_append.mp he with he | he
    · exact Or.inl (isAlive_iff.mpr ⟨e, he, rfl⟩)
    · rw [List.mem_singleton.mp he]
      exact Or.inr (Nat.le_refl _)
  | remove _ =>
    refine ⟨Nat.le_refl _, fun i hi ↦ Or.inl ?_⟩
    obtain ⟨e, he, hid⟩ := isAlive_iff.mp hi
    exact isAlive_iff.mpr ⟨e, (mem_without.mp he).1, hid⟩
  | clear =>
    refine ⟨Nat.le_refl _, fun i hi ↦ ?_⟩
    obtain ⟨e, he, -⟩ := isAlive_iff.mp hi
    exact absurd he List.not_mem_nil

/-- An endpoint that went does not come back. -/
theorem Succeeds.not_isAlive (h : b.Succeeds b') (hlt : id < b.nextId)
    (hdead : ¬b.isAlive id = true) : ¬b'.isAlive id = true := fun hid ↦
  (h.isAlive_or id hid).elim hdead fun hle ↦ Nat.not_le_of_lt hlt hle

end TransportBinding

/-! ## The fleet -/

/-- Bindings that share an allocator. A binding that was dropped leaves an empty slot. -/
structure Fleet where
  /-- The bindings. -/
  slots : List (Option TransportBinding)
  /-- The shared ports. -/
  ports : PortAllocator := {}

namespace Fleet

/-- A number of new bindings on an allocator that has no port in use. -/
def initial (n : Nat) : Fleet where
  slots := List.replicate n (some {})

/-- The binding of a slot, if it is there and was not dropped. -/
def binding? (f : Fleet) (i : Nat) : Option TransportBinding := (f.slots[i]?).join

/-- Performs an operation on the binding of a slot. -/
def step (f : Fleet) (call : Nat × TransportCall) : Fleet :=
  match f.binding? call.1 with
  | some b =>
    { slots := f.slots.set call.1 (b.call f.ports call.2).1, ports := (b.call f.ports call.2).2 }
  | none => f

/-- Performs operations in order. -/
def run (f : Fleet) (calls : List (Nat × TransportCall)) : Fleet := calls.foldl step f

/-- The RTP and RTCP ports of all live endpoints. -/
def heldPorts (f : Fleet) : List UInt16 :=
  f.slots.flatMap fun slot ↦ slot.elim [] TransportBinding.heldPorts

/-- Whether an endpoint of a binding is live. -/
def IsLive (f : Fleet) (i : Nat) (id : EndpointId) : Prop :=
  ∃ b, f.binding? i = some b ∧ b.isAlive id = true

variable {f : Fleet} {i : Nat} {id : EndpointId} {b : TransportBinding}

theorem run_append (f : Fleet) (calls more : List (Nat × TransportCall)) :
    f.run (calls ++ more) = (f.run calls).run more := List.foldl_append

theorem slot_of_binding? (h : f.binding? i = some b) : f.slots[i]? = some (some b) := by
  rw [binding?] at h
  exact Option.join_eq_some_iff.mp h

theorem heldPorts_eq_nil (h : ∀ slot ∈ f.slots, slot.elim [] TransportBinding.heldPorts = []) :
    f.heldPorts = [] := by
  rw [heldPorts]
  exact List.flatMap_eq_nil_iff.mpr h

/-! ## The invariant -/

/-- Every binding is well formed, and the ports in use are those of the live endpoints. -/
structure Sound (f : Fleet) : Prop where
  /-- No binding breaks its own rules. -/
  wellFormed : ∀ i b, f.binding? i = some b → b.WellFormed
  /-- The allocator is in step with the bindings. -/
  accounts : Accounts f.ports f.heldPorts

theorem sound_initial (n : Nat) : (initial n).Sound where
  wellFormed := by
    intro i b h
    have hmem := List.mem_of_getElem? (slot_of_binding? h)
    rw [initial, List.mem_replicate] at hmem
    cases hmem.2
    exact TransportBinding.wellFormed_empty
  accounts := by
    have hnil : (initial n).heldPorts = [] := heldPorts_eq_nil fun slot hslot ↦ by
      rw [(List.mem_replicate.mp hslot).2]
      rfl
    rw [hnil]
    exact Accounts.initial

theorem heldPorts_set (h : f.binding? i = some b) : ∃ rest, f.heldPorts.Perm (b.heldPorts ++ rest) ∧
    ∀ slot ports, (Fleet.heldPorts ⟨f.slots.set i slot, ports⟩).Perm
      (slot.elim [] TransportBinding.heldPorts ++ rest) := by
  obtain ⟨hi, hb⟩ := List.getElem?_eq_some_iff.mp (slot_of_binding? h)
  have hsplit : f.slots = f.slots.take i ++ some b :: f.slots.drop (i + 1) := by
    rw [← hb, ← List.drop_eq_getElem_cons hi, List.take_append_drop]
  refine ⟨(f.slots.take i ++ f.slots.drop (i + 1)).flatMap
    fun slot ↦ slot.elim [] TransportBinding.heldPorts, ?_, fun slot ports ↦ ?_⟩
  · rw [heldPorts]
    conv_lhs => rw [hsplit]
    exact List.perm_middle.flatMap_right _
  · rw [heldPorts, List.set_eq_take_append_cons_drop, if_pos hi]
    exact List.perm_middle.flatMap_right _

theorem Sound.step (h : f.Sound) (call : Nat × TransportCall) : (f.step call).Sound := by
  rw [Fleet.step]
  split
  · rename_i b hb
    have hstep := TransportBinding.step_call (h.wellFormed _ b hb) f.ports call.2
    refine ⟨fun i b' hb' ↦ ?_, ?_⟩
    · have hslot := slot_of_binding? hb'
      rw [List.getElem?_set] at hslot
      split at hslot
      · split at hslot
        · rw [Option.some_inj] at hslot
          rw [hslot] at hstep
          exact (h.wellFormed _ b hb).step hstep
        · cases hslot
      · exact h.wellFormed i b' (Option.join_eq_some_iff.mpr hslot)
    · obtain ⟨rest, hbefore, hafter⟩ := heldPorts_set hb
      have hacc := TransportBinding.accounts_step (h.wellFormed _ b hb) hstep
        (h.accounts.of_perm hbefore)
      exact hacc.of_perm (hafter _ _).symm
  · exact h

theorem Sound.run (h : f.Sound) (calls : List (Nat × TransportCall)) : (f.run calls).Sound := by
  induction calls generalizing f with
  | nil => exact h
  | cons call calls ih => exact ih (h.step call)

/-! ## Endpoints over a run -/

theorem succeeds_step (h : f.Sound) (call : Nat × TransportCall) {i : Nat} {b' : TransportBinding}
    (hb' : (f.step call).binding? i = some b') : ∃ b, f.binding? i = some b ∧ b.Succeeds b' := by
  rw [Fleet.step] at hb'
  split at hb'
  · rename_i b hb
    have hslot := slot_of_binding? hb'
    rw [List.getElem?_set] at hslot
    split at hslot
    · rename_i hi
      split at hslot
      · rw [Option.some_inj] at hslot
        have hstep := TransportBinding.step_call (h.wellFormed _ b hb) f.ports call.2
        rw [hslot] at hstep
        exact ⟨b, hi ▸ hb, hstep.succeeds⟩
      · cases hslot
    · exact ⟨b', Option.join_eq_some_iff.mpr hslot, .refl b'⟩
  · exact ⟨b', hb', .refl b'⟩

theorem succeeds_run (h : f.Sound) (calls : List (Nat × TransportCall)) {i : Nat}
    {b' : TransportBinding} (hb' : (f.run calls).binding? i = some b') :
    ∃ b, f.binding? i = some b ∧ b.Succeeds b' := by
  induction calls generalizing f with
  | nil => exact ⟨b', hb', .refl b'⟩
  | cons call calls ih =>
    obtain ⟨b₁, hb₁, h₁⟩ := ih (h.step call) hb'
    obtain ⟨b, hb, h₀⟩ := succeeds_step h call hb₁
    exact ⟨b, hb, h₀.trans h₁⟩

/-- A torn down endpoint stays so: its identifier was handed out, and only new ones come to life. -/
theorem not_isLive_run (h : f.Sound) (calls more : List (Nat × TransportCall))
    (hlive : f.IsLive i id) (hdead : ¬(f.run calls).IsLive i id) :
    ¬((f.run calls).run more).IsLive i id := by
  rintro ⟨b₂, hb₂, halive⟩
  obtain ⟨b₁, hb₁, h₁₂⟩ := succeeds_run (h.run calls) more hb₂
  obtain ⟨b₀, hb₀, h₀₁⟩ := succeeds_run h calls hb₁
  obtain ⟨b, hb, hid⟩ := hlive
  rw [hb, Option.some_inj] at hb₀
  subst hb₀
  obtain ⟨e, he, rfl⟩ := TransportBinding.isAlive_iff.mp hid
  have hlt : e.id < b₁.nextId :=
    Nat.lt_of_lt_of_le ((h.wellFormed i b hb).id_lt e he) h₀₁.nextId_le
  exact h₁₂.not_isAlive hlt (fun h ↦ hdead ⟨b₁, hb₁, h⟩) halive

/-! ## The books of a fleet -/

/-- **Ports are accounted for.** After any operations on any number of bindings that share an
allocator with nothing in use: the ports in use are exactly those of the live endpoints; none is 0
and no two of them are equal; an allocation that fails changes nothing; a live endpoint carries at
least one section, each once; an endpoint that was torn down is never live again; and when every
binding is dropped, no port is in use.

Identifiers have no bound here. They are handed out one after the other, so at a fixed width the
same holds until that many have been. -/
theorem ports_accounted_for (n : Nat) (calls : List (Nat × TransportCall)) :
    let f := (initial n).run calls
    (∀ p, p ∈ f.ports.used ↔ p ∈ f.heldPorts) ∧
    0 ∉ f.heldPorts ∧
    f.heldPorts.Nodup ∧
    (∀ i b mid m range bundleWith e, f.binding? i = some b →
      (b.allocate f.ports mid m range bundleWith).1 = .error e →
        (b.allocate f.ports mid m range bundleWith).2 = (b, f.ports)) ∧
    (∀ i b, f.binding? i = some b → ∀ e ∈ b.endpoints, e.mids ≠ [] ∧ e.mids.Nodup) ∧
    (∀ later more i id, f.IsLive i id → ¬(f.run later).IsLive i id →
      ¬(f.run (later ++ more)).IsLive i id) ∧
    ((∀ slot ∈ f.slots, slot = none) → f.ports.used = []) := by
  intro f
  have h : f.Sound := (sound_initial n).run calls
  refine ⟨fun p ↦ h.accounts.mem_used_iff, h.accounts.zero_notMem, h.accounts.nodup, ?_, ?_, ?_, ?_⟩
  · intro i b mid m range bundleWith e _ herr
    obtain ⟨hb, ha, -⟩ := TransportBinding.allocate_error (Prod.ext herr rfl)
    exact Prod.ext hb ha
  · intro i b hb e he
    exact ⟨(h.wellFormed i b hb).mids_ne_nil e he, (h.wellFormed i b hb).mids_nodup e he⟩
  · -- identifiers are given out once, so no run brings an endpoint back
    intro later more i id hlive hdead
    rw [run_append]
    exact not_isLive_run h later more hlive hdead
  · intro hnone
    have hperm := h.accounts.used_perm
    rw [heldPorts_eq_nil fun slot hslot ↦ by rw [hnone slot hslot]; rfl] at hperm
    exact hperm.eq_nil

end Fleet

end OfferAnswer
