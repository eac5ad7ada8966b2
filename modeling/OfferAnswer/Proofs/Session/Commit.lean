import OfferAnswer.Proofs.Connection.Tracking
import OfferAnswer.Proofs.Transport.Carriers
import OfferAnswer.Session.Commit

/-!
# What committing an outcome does

Committing works on the machines and on our sources, and leaves the record alone: `SameRecord`. To
the endpoints it does one thing. Sections without an endpoint give up the one that carries their
identifier, and nothing else moves. It is by identifier, so a section with an endpoint loses it when
another of the same identifier has none.

`Committed` puts this together: all that the rest of the theory knows of a commit.
-/

namespace OfferAnswer.Session

open TransportBinding (Keeps SidesFrom)

variable {s s' s'' : Session} {ports : PortAllocator} {mid : Mid}

/-! ## The record -/

/-- Two moments between which only machines and sources worked: who the session is, what was
exchanged and where the exchange stands are the same. -/
def SameRecord (s s' : Session) : Prop :=
  ∃ transport ssrcs entropy correlation connection, s' =
    { s with
      transport := transport
      ssrcs := ssrcs
      entropy := entropy
      correlation := correlation
      connection := connection }

theorem SameRecord.refl (s : Session) : SameRecord s s := ⟨_, _, _, _, _, rfl⟩

theorem SameRecord.trans (h : SameRecord s s') (h' : SameRecord s' s'') : SameRecord s s'' := by
  obtain ⟨_, _, _, _, _, rfl⟩ := h
  obtain ⟨_, _, _, _, _, rfl⟩ := h'
  exact ⟨_, _, _, _, _, rfl⟩

theorem sameRecord_dropSsrc (s : Session) (mid : Mid) : SameRecord s (s.dropSsrc mid) := by
  rw [dropSsrc]
  split
  · exact ⟨_, _, _, _, _, rfl⟩
  · exact .refl s

theorem transport_dropSsrc (s : Session) (mid : Mid) :
    (s.dropSsrc mid).transport = s.transport := by
  rw [dropSsrc]
  split <;> rfl

theorem connection_dropSsrc (s : Session) (mid : Mid) :
    (s.dropSsrc mid).connection = s.connection := by
  rw [dropSsrc]
  split <;> rfl

/-- Settling moves a session on that is not closed, and does nothing else. -/
theorem settle_eq (s : Session) :
    ∃ state, (state = s.state ∨ s.state ≠ .closed ∧ state = .established) ∧
      s.settle = { s with state := state } := by
  rw [settle]
  split
  · rename_i h
    refine ⟨.established, Or.inr ⟨fun hc ↦ ?_, rfl⟩, rfl⟩
    rw [hc] at h
    rcases h.1 with h | h <;> cases h
  · exact ⟨s.state, Or.inl rfl, rfl⟩

/-! ## Sections without an endpoint -/

/-- Whether some section of an identifier has no endpoint. -/
def Released (ns : List NegotiatedMedia) (mid : Mid) : Prop :=
  ∃ n ∈ ns, n.endpoint = none ∧ n.mid = mid

/-- If no identifier is given twice, that of a section with an endpoint is given up by no other. -/
theorem not_released_of_nodup {ns : List NegotiatedMedia} {n : NegotiatedMedia}
    (hdistinct : (ns.map (·.mid)).Nodup)
    (hn : n ∈ ns) (hend : n.endpoint ≠ none) : ¬Released ns n.mid := by
  rintro ⟨r, hr, hnone, hmid⟩
  obtain rfl : r = n := List.inj_on_of_nodup_map hdistinct hr hn hmid
  exact hend hnone

theorem sameRecord_releaseRejected (s : Session) (ports : PortAllocator)
    (ns : List NegotiatedMedia) : SameRecord s (s.releaseRejected ports ns).1 := by
  induction ns generalizing s ports with
  | nil => exact .refl s
  | cons n ns ih =>
    rw [releaseRejected]
    split
    · refine SameRecord.trans ?_ (ih _ _)
      exact SameRecord.trans ⟨_, _, _, _, _, rfl⟩ (sameRecord_dropSsrc _ n.mid)
    · exact ih s ports

theorem connection_releaseRejected (s : Session) (ports : PortAllocator)
    (ns : List NegotiatedMedia) : (s.releaseRejected ports ns).1.connection = s.connection := by
  induction ns generalizing s ports with
  | nil => rfl
  | cons n ns ih =>
    rw [releaseRejected]
    split
    · exact (ih _ _).trans (connection_dropSsrc _ n.mid)
    · exact ih s ports

/-- Sections without an endpoint give up what carries their identifier, and the others stay. -/
theorem transport_releaseRejected (hs : s.transport.Exclusive) (ports : PortAllocator)
    (ns : List NegotiatedMedia) :
    (s.releaseRejected ports ns).1.transport.Exclusive ∧
      Keeps (fun mid ↦ ¬Released ns mid) s.transport (s.releaseRejected ports ns).1.transport ∧
      SidesFrom s.transport (s.releaseRejected ports ns).1.transport ∧
      ∀ mid, Released ns mid ∨ s.transport.carrier? mid = none →
        (s.releaseRejected ports ns).1.transport.carrier? mid = none := by
  induction ns generalizing s ports with
  | nil =>
    exact ⟨hs, .refl _ _, .refl _, fun mid h ↦ h.elim (fun ⟨_, hn, _⟩ ↦ nomatch hn) fun h ↦ h⟩
  | cons n ns ih =>
    rw [releaseRejected]
    split
    · rename_i hnone
      rw [Option.isNone_iff_eq_none] at hnone
      have hone := hs.releaseMid ports n.mid
      have hsides := hs.toWellFormed.sidesFrom_releaseMid ports n.mid
      have hgone := fun m (hm : m = n.mid ∨ _) ↦ hs.carrier?_releaseMid ports hm
      rcases hr : s.transport.releaseMid ports n.mid with ⟨transport, ports'⟩
      rw [hr] at hone hsides hgone
      -- dropping the source leaves the endpoints alone, so the others start from this transport
      let next : Session := { s with transport := transport }
      have hnext : (next.dropSsrc n.mid).transport = transport := transport_dropSsrc _ n.mid
      have hrest : (next.dropSsrc n.mid).transport.Exclusive := hnext.symm ▸ hone.1
      obtain ⟨hexcl, hkeeps, hsides', hnone'⟩ := ih hrest ports'
      rw [hnext] at hkeeps hsides' hnone'
      refine ⟨hexcl, (hone.2.mono fun mid h hmid ↦ ?_).trans (hkeeps.mono fun mid h ⟨n', hn', h'⟩ ↦
        h ⟨n', List.mem_cons_of_mem n hn', h'⟩), hsides.trans hsides', fun mid h ↦ hnone' mid ?_⟩
      · exact h ⟨n, List.mem_cons_self, hnone, hmid.symm⟩
      · rcases h with ⟨n', hn', hn'none, rfl⟩ | h
        · rcases List.mem_cons.mp hn' with rfl | hn'
          · exact Or.inr (hgone _ (Or.inl rfl))
          · exact Or.inl ⟨n', hn', hn'none, rfl⟩
        · exact Or.inr (hgone mid (Or.inr h))
    · rename_i hsome
      obtain ⟨hexcl, hkeeps, hsides, hnone⟩ := ih hs ports
      refine ⟨hexcl, hkeeps.mono fun mid h ⟨n', hn', h'⟩ ↦ h ⟨n', List.mem_cons_of_mem n hn', h'⟩,
        hsides, fun mid h ↦ hnone mid ?_⟩
      rcases h with ⟨n', hn', hn'none, rfl⟩ | h
      · rcases List.mem_cons.mp hn' with rfl | hn'
        · exact absurd (Option.isNone_iff_eq_none.mpr hn'none) hsome
        · exact Or.inl ⟨n', hn', hn'none, rfl⟩
      · exact Or.inr h

/-! ## Accepted sections -/

/-- What following endpoints and registering sections leaves alone: the record, the places of all
sections and their secure channels, and whatever is followed. -/
structure Registers (s s' : Session) : Prop where
  /-- The record stays. -/
  record : SameRecord s s'
  /-- No section moves. -/
  outline_eq : s'.transport.outline = s.transport.outline
  /-- Secure channels stay. -/
  sides : SidesFrom s.transport s'.transport
  /-- The connection is neither closed nor reopened. -/
  closed_iff : s'.connection.state = .closed ↔ s.connection.state = .closed
  /-- What is followed is followed on. -/
  follows : ∀ id, s.connection.hasEndpoint id = true → s'.connection.hasEndpoint id = true

theorem Registers.refl (s : Session) : Registers s s :=
  ⟨.refl s, rfl, .refl _, Iff.rfl, fun _ h ↦ h⟩

theorem Registers.trans (h : Registers s s') (h' : Registers s' s'') : Registers s s'' where
  record := h.record.trans h'.record
  outline_eq := h'.outline_eq.trans h.outline_eq
  sides := h.sides.trans h'.sides
  closed_iff := h'.closed_iff.trans h.closed_iff
  follows := fun id hid ↦ h'.follows id (h.follows id hid)

theorem registers_candidates (s : Session) (id : EndpointId) (cs : List Candidate) :
    Registers s { s with transport := addCandidates s.transport id cs } where
  record := ⟨_, _, _, _, _, rfl⟩
  outline_eq := by
    dsimp only [addCandidates]
    generalize s.transport = b
    induction cs generalizing b with
    | nil => rfl
    | cons c cs ih => exact (ih _).trans (b.outline_addRemoteCandidate id c)
  sides := by
    dsimp only [addCandidates]
    generalize s.transport = b
    induction cs generalizing b with
    | nil => exact .refl b
    | cons c cs ih => exact (b.sidesFrom_addRemoteCandidate id c).trans (ih _)
  closed_iff := Iff.rfl
  follows := fun _ h ↦ h

theorem registers_registerMedia (s : Session) (mid : Mid) (endpoint : EndpointId)
    (remote : Section) (formats : List String) :
    Registers s (s.registerMedia mid endpoint remote formats) := by
  obtain ⟨transport, ssrcs, entropy, hsource⟩ : ∃ transport ssrcs entropy,
      s.ensureSsrc mid = (transport, { s with ssrcs := ssrcs, entropy := entropy }) := by
    rw [ensureSsrc]
    split
    · exact ⟨_, _, _, rfl⟩
    · exact ⟨_, _, _, rfl⟩
  rw [registerMedia, hsource]
  exact ⟨⟨_, _, _, _, _, rfl⟩, TransportBinding.outline_update fun _ ↦ rfl,
    TransportBinding.sidesFrom_update ⟨fun _ ↦ rfl, fun _ ↦ rfl, fun _ ↦ rfl⟩ fun _ ↦ ⟨rfl, rfl⟩,
    Iff.rfl, fun _ h ↦ h⟩

theorem registers_followEndpoint (s : Session) (id : EndpointId) :
    Registers s (s.followEndpoint id) := by
  rw [followEndpoint]
  split
  · exact .refl s
  · exact ⟨⟨_, _, _, _, _, rfl⟩, rfl, .refl _,
      s.connection.state_addEndpoint_eq_closed id _,
      fun _ h ↦ ConnectionMachine.hasEndpoint_addEndpoint_of h _⟩

theorem hasEndpoint_followEndpoint (hs : s.connection.state ≠ .closed) (id : EndpointId) :
    (s.followEndpoint id).connection.hasEndpoint id = true := by
  rw [followEndpoint]
  split
  · assumption
  · exact ConnectionMachine.hasEndpoint_addEndpoint hs id _

/-- Registering a section and following its endpoint, in two parts: the second is the last. -/
theorem register_eq (s : Session) (n : NegotiatedMedia) (endpoint : EndpointId) (remote : Section)
    (formats : List String) :
    ∃ s', Registers s s' ∧ s.register n endpoint remote formats = s'.followEndpoint endpoint := by
  rw [register]
  have hcandidates := registers_candidates s endpoint remote.candidates
  split
  · exact ⟨_, hcandidates.trans (registers_registerMedia _ n.mid endpoint remote formats), rfl⟩
  · exact ⟨_, hcandidates, rfl⟩

theorem registers_registerAll (s : Session) (remote answer : Description) (i : Nat)
    (ns : List NegotiatedMedia) : Registers s (s.registerAll remote answer i ns) := by
  induction ns generalizing s i with
  | nil => exact .refl s
  | cons n ns ih =>
    rw [registerAll]
    refine .trans ?_ (ih _ (i + 1))
    split
    · obtain ⟨s', hs', h⟩ := register_eq s n _ _ ((answer.sections[i]?.map Section.formats).getD [])
      rw [h]
      exact hs'.trans (registers_followEndpoint s' _)
    · exact .refl s

theorem hasEndpoint_registerAll (hs : s.connection.state ≠ .closed) (remote answer : Description)
    (i : Nat) {ns : List NegotiatedMedia} {j : Nat} {n : NegotiatedMedia} {id : EndpointId}
    {m : Section} (hn : ns[j]? = some n) (hid : n.endpoint = some id)
    (hm : remote.sections[i + j]? = some m) :
    (s.registerAll remote answer i ns).connection.hasEndpoint id = true := by
  induction ns generalizing s i j with
  | nil => cases hn
  | cons n₀ ns ih =>
    rw [registerAll]
    cases j with
    | zero =>
      cases hn
      refine (registers_registerAll _ remote answer (i + 1) ns).follows id ?_
      rw [Nat.add_zero] at hm
      rw [hid, hm]
      obtain ⟨s', hs', h⟩ :=
        register_eq s n id m ((answer.sections[i]?.map Section.formats).getD [])
      dsimp only
      rw [h]
      exact hasEndpoint_followEndpoint (fun hc ↦ hs (hs'.closed_iff.mp hc)) id
    | succ j =>
      refine ih ?_ (i + 1) hn (by rwa [Nat.add_right_comm])
      split
      · obtain ⟨s', hs', h⟩ :=
          register_eq s n₀ _ _ ((answer.sections[i]?.map Section.formats).getD [])
        rw [h]
        exact fun hc ↦ hs ((hs'.trans (registers_followEndpoint s' _)).closed_iff.mp hc)
      · exact hs

/-! ## The commit -/

/-- What is known after an outcome is made current. -/
structure Committed (s s' : Session) (remote : Description) (negotiated : List NegotiatedMedia)
    (positions : List (Option Nat)) : Prop where
  /-- Of the record, only the outcome changes. -/
  record : SameRecord
    { s with restartPending := false, negotiated := negotiated, sectionHandlers := positions } s'
  /-- Lookups stay reliable. -/
  exclusive : s'.transport.Exclusive
  /-- An identifier is kept by its endpoint unless a section of it has none. -/
  keeps : Keeps (fun mid ↦ ¬Released negotiated mid) s.transport s'.transport
  /-- An identifier of a section without an endpoint is carried no more. -/
  released : ∀ mid, Released negotiated mid → s'.transport.carrier? mid = none
  /-- Secure channels stay. -/
  sides : SidesFrom s.transport s'.transport
  /-- The connection is neither closed nor reopened. -/
  closed_iff : s'.connection.state = .closed ↔ s.connection.state = .closed
  /-- Every endpoint of a section of the remote description is followed. -/
  follows : s.connection.state ≠ .closed → ∀ (i : Nat) n id, negotiated[i]? = some n →
    n.endpoint = some id → i < remote.sections.length → s'.connection.hasEndpoint id = true

theorem Committed.negotiated_eq {remote : Description} {ns : List NegotiatedMedia}
    {positions : List (Option Nat)} (h : Committed s s' remote ns positions) :
    s'.negotiated = ns := by
  obtain ⟨_, _, _, _, _, rfl⟩ := h.record
  rfl

theorem Committed.config_eq {remote : Description} {ns : List NegotiatedMedia}
    {positions : List (Option Nat)} (h : Committed s s' remote ns positions) :
    s'.config = s.config := by
  obtain ⟨_, _, _, _, _, rfl⟩ := h.record
  rfl

/-- Between giving sections up and registering others, only the connection is worked on. -/
theorem detectRestart_forgetGone_eq (s : Session) (before : List EndpointId)
    (remote : Description) :
    ∃ connection, (s.forgetGone before).detectRestart remote = { s with connection := connection } ∧
      (connection.state = .closed ↔ s.connection.state = .closed) := by
  have hforget : (s.forgetGone before).connection.state = .closed ↔ s.connection.state = .closed :=
    ConnectionMachine.state_foldl_removeEndpoint _ _
  rw [detectRestart]
  split
  · exact ⟨_, rfl, (ConnectionMachine.state_restart_eq_closed _).trans hforget⟩
  · exact ⟨_, rfl, hforget⟩

theorem committed_commit (hs : s.transport.Exclusive) (ports : PortAllocator)
    (remote answer : Description) (negotiated : List NegotiatedMedia)
    (positions : List (Option Nat)) :
    Committed s (s.commit ports remote answer negotiated positions).1 remote negotiated
      positions := by
  obtain ⟨hexcl, hkeeps, hsides, hnone⟩ := transport_releaseRejected hs ports negotiated
  have hconn := connection_releaseRejected s ports negotiated
  have hrecord := sameRecord_releaseRejected s ports negotiated
  rw [commit]
  rcases hr : s.releaseRejected ports negotiated with ⟨s₁, ports₁⟩
  rw [hr] at hexcl hkeeps hsides hnone hconn hrecord
  dsimp only at hexcl hkeeps hsides hnone hconn hrecord ⊢
  obtain ⟨connection, hdetect, hclosed⟩ :=
    detectRestart_forgetGone_eq s₁ (s.transport.endpoints.map (·.id)) remote
  rw [hconn] at hclosed
  rw [hdetect]
  have hreg := registers_registerAll { s₁ with connection := connection } remote answer 0 negotiated
  refine ⟨?_, hexcl.congr hreg.outline_eq, hkeeps.trans (.of_outline hreg.outline_eq),
    fun mid h ↦ ?_, hsides.trans hreg.sides, hreg.closed_iff.trans hclosed,
    fun hopen i n id hn hid hi ↦ ?_⟩
  · obtain ⟨_, _, _, _, _, h⟩ := (hrecord.trans ⟨_, _, _, _, _, rfl⟩).trans hreg.record
    rw [h]
    exact ⟨_, _, _, _, _, rfl⟩
  · exact (TransportBinding.carrier?_congr hreg.outline_eq mid).trans (hnone mid (Or.inl h))
  · -- outcomes and sections stand at the same indices
    have hm : remote.sections[0 + i]? = some remote.sections[i] := by
      rw [Nat.zero_add]
      exact List.getElem?_eq_getElem hi
    exact hasEndpoint_registerAll (fun hc ↦ hopen (hclosed.mp hc)) remote answer 0 hn hid hm

end OfferAnswer.Session
