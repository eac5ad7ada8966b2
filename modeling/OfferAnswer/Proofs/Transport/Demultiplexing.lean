import OfferAnswer.Proofs.Lookup
import OfferAnswer.Proofs.Transport.Carriers

/-!
# Where packets go by payload type

A demultiplexer finds the section of a payload type in a list. To give a type to a section is to
append, and a type that is taken stays where it is; so lookups see the first section that asked. A
section that is given up loses what it has. That nothing comes to light behind what it loses is
because a type has one section at most: `Demux.TypesKeyed`.

Every endpoint has a demultiplexer of its own. `TransportBinding.demuxOf` is the one under an
identifier, empty if there is no such endpoint, so that placing a section leaves them all alone, new
endpoints included.
-/

namespace OfferAnswer

namespace Demux

variable {d : Demux} {pt t : PayloadType} {mid : Mid} {ssrc : Ssrc}

/-! ## Payload types -/

/-- No payload type has two sections. -/
def TypesKeyed (d : Demux) : Prop := (d.byType.map (·.1)).Nodup

theorem typesKeyed_empty : TypesKeyed {} := List.nodup_nil

theorem TypesKeyed.ofType?_eq_some_iff (h : d.TypesKeyed) :
    d.ofType? t = some mid ↔ (t, mid) ∈ d.byType := lookup_eq_some_iff h

/-- A type that is given to a section is found there, unless a section has it. -/
theorem ofType?_addType (d : Demux) (pt t : PayloadType) (mid : Mid) :
    (d.addType pt mid).ofType? t = (d.ofType? t).or (if t = pt then some mid else none) := by
  rw [addType]
  by_cases htaken : (d.ofType? pt).isSome = true
  · rw [if_pos htaken]
    obtain ⟨m, hm⟩ := Option.isSome_iff_exists.mp htaken
    by_cases ht : t = pt
    · rw [ht, hm, Option.some_or]
    · rw [if_neg ht, Option.or_none]
  · rw [if_neg htaken, ofType?, ofType?, List.find?_append]
    cases hfound : d.byType.find? (·.1 == t) with
    | some x => rfl
    | none =>
      by_cases ht : t = pt
      · simp [ht]
      · simp [ht, Ne.symm ht]

theorem TypesKeyed.addType (h : d.TypesKeyed) (pt : PayloadType) (mid : Mid) :
    (d.addType pt mid).TypesKeyed := by
  rw [Demux.addType]
  by_cases htaken : (d.ofType? pt).isSome = true
  · rwa [if_pos htaken]
  · have hfree : pt ∉ d.byType.map (·.1) := by
      simpa [ofType?, List.find?_eq_none] using htaken
    rw [if_neg htaken, TypesKeyed, List.map_append]
    refine List.nodup_append.mpr ⟨h, List.nodup_singleton _, fun t ht t' ht' ↦ ?_⟩
    obtain rfl := List.mem_singleton.mp ht'
    rintro rfl
    exact hfree ht

theorem ofType?_addTypes (d : Demux) (types : List PayloadType) (t : PayloadType) (mid : Mid) :
    (types.foldl (fun d pt ↦ d.addType pt mid) d).ofType? t =
      (d.ofType? t).or (if t ∈ types then some mid else none) := by
  induction types generalizing d with
  | nil => exact (Option.or_none).symm
  | cons pt types ih =>
    rw [List.foldl_cons, ih, ofType?_addType, Option.or_assoc]
    congr 1
    by_cases ht : t = pt
    · simp [ht]
    · simp [ht]

theorem TypesKeyed.addTypes (h : d.TypesKeyed) (types : List PayloadType) (mid : Mid) :
    (types.foldl (fun d pt ↦ d.addType pt mid) d).TypesKeyed := by
  induction types generalizing d with
  | nil => exact h
  | cons pt types ih => exact ih (h.addType pt mid)

/-! ## Sources do not count -/

theorem byType_removeSsrcs (d : Demux) (ssrcs : List Ssrc) (mid : Mid) :
    (ssrcs.foldl (fun d r ↦ d.removeSsrc r mid) d).byType = d.byType := by
  induction ssrcs generalizing d with
  | nil => rfl
  | cons r ssrcs ih =>
    rw [List.foldl_cons, ih, removeSsrc]
    split <;> rfl

theorem byType_addSsrcs (d : Demux) (ssrcs : List Ssrc) (mid : Mid) :
    (ssrcs.foldl (fun d r ↦ d.addSsrc r mid) d).byType = d.byType := by
  induction ssrcs generalizing d with
  | nil => rfl
  | cons r ssrcs ih => exact ih (d.addSsrc r mid)

/-! ## Sections that are given up -/

theorem TypesKeyed.removeMid (h : d.TypesKeyed) (mid : Mid) : (d.removeMid mid).TypesKeyed :=
  h.sublist (List.filter_sublist.map _)

/-- A section that is given up loses its types, and nothing else is found instead. -/
theorem TypesKeyed.ofType?_removeMid (h : d.TypesKeyed) (mid : Mid) (t : PayloadType) :
    (d.removeMid mid).ofType? t = (d.ofType? t).filter (· != mid) := by
  refine Option.ext fun m ↦ ?_
  rw [(h.removeMid mid).ofType?_eq_some_iff, Option.filter_eq_some_iff, h.ofType?_eq_some_iff]
  exact List.mem_filter

end Demux

namespace TransportBinding

variable {b : TransportBinding} {id i : EndpointId} {mid : Mid} {f : Endpoint → Endpoint}
  {a : PortAllocator}

/-! ## The demultiplexer of an endpoint -/

/-- The demultiplexer of an endpoint; an empty one, if there is no such endpoint. -/
def demuxOf (b : TransportBinding) (id : EndpointId) : Demux :=
  ((b.endpoint? id).map (·.demux)).getD {}

theorem demuxOf_of_endpoint? {e : Endpoint} (h : b.endpoint? id = some e) :
    b.demuxOf id = e.demux := by rw [demuxOf, h]; rfl

theorem demuxOf_of_not_isAlive (h : b.isAlive id = false) : b.demuxOf id = {} := by
  rw [isAlive, Option.isSome_eq_false_iff, Option.isNone_iff_eq_none] at h
  rw [demuxOf, h]
  rfl

/-- An endpoint that is changed has another demultiplexer, if it is live, and no other has. -/
theorem demuxOf_update (hf : Endpoint.Retains f) {g : Demux → Demux}
    (hg : ∀ e, (f e).demux = g e.demux) :
    (b.update id f).demuxOf i =
      if i = id ∧ b.isAlive id = true then g (b.demuxOf i) else b.demuxOf i := by
  rw [demuxOf, demuxOf, endpoint?_update hf, isAlive]
  cases h : b.endpoint? i with
  | none =>
    have hno : ¬(i = id ∧ (b.endpoint? id).isSome = true) := by
      rintro ⟨rfl, halive⟩
      rw [h] at halive
      cases halive
    rw [if_neg hno]
    rfl
  | some e =>
    by_cases hi : i = id
    · subst hi
      rw [h, if_pos ⟨rfl, rfl⟩, Option.map_some, if_pos rfl]
      exact hg e
    · rw [if_neg fun hc ↦ hi hc.1, Option.map_some, if_neg hi]

theorem demuxOf_update_of_same (hf : Endpoint.Retains f) (hsame : ∀ e, (f e).demux = e.demux) :
    (b.update id f).demuxOf i = b.demuxOf i := by
  rw [demuxOf_update hf (g := fun d ↦ d) hsame, ite_self]

/-- A new endpoint has an empty demultiplexer, as if it had been there. -/
theorem demuxOf_create (b : TransportBinding) (mid : Mid) (rtp : UInt16) (rtcp : Option UInt16) :
    (b.create mid rtp rtcp).demuxOf id = b.demuxOf id := by
  rw [demuxOf, demuxOf, endpoint?, endpoint?, create, List.find?_append]
  cases h : b.endpoints.find? (·.id == id) with
  | some e => rfl
  | none =>
    rw [Option.none_or, List.find?_singleton]
    split <;> rfl

theorem demuxOf_allocate (b : TransportBinding) (a : PortAllocator) (mid : Mid) (m : Section)
    (r : PortRange) (joins : Option EndpointId) (id : EndpointId) :
    (b.allocate a mid m r joins).2.1.demuxOf id = b.demuxOf id := by
  rcases h : b.allocate a mid m r joins with ⟨result, b', a'⟩
  cases result with
  | error e =>
    obtain ⟨rfl, -⟩ := allocate_error h
    rfl
  | ok i =>
    rcases allocate_ok h with ⟨-, -, rfl, -⟩ | ⟨-, rfl, rtp, rtcp, -, rfl⟩
    · refine demuxOf_update_of_same (Endpoint.retains_carry mid) fun e ↦ ?_
      rw [Endpoint.carry]
      split <;> rfl
    · exact demuxOf_create b mid rtp rtcp

theorem demuxOf_addRemoteCandidate (b : TransportBinding) (i : EndpointId) (c : Candidate) :
    (b.addRemoteCandidate i c).2.demuxOf id = b.demuxOf id := by
  rw [addRemoteCandidate]
  split
  · rfl
  · split
    · rfl
    · exact demuxOf_update_of_same (Endpoint.retains_takeCandidate c) fun _ ↦ rfl

theorem demuxOf_setSecure (b : TransportBinding) (i : EndpointId) (side : SecureSide) :
    (b.setSecure i side).demuxOf id = b.demuxOf id :=
  demuxOf_update_of_same (Endpoint.retains_secured side) fun _ ↦ rfl

/-- **Giving a section up** takes it from the demultiplexer of the endpoint that carried it. -/
theorem demuxOf_releaseMid (hb : b.WellFormed) (a : PortAllocator) (mid : Mid)
    (halive : (b.releaseMid a mid).1.isAlive id = true) :
    (b.releaseMid a mid).1.demuxOf id =
      if b.carrier? mid = some id then (b.demuxOf id).removeMid mid else b.demuxOf id := by
  rcases releaseMid_cases hb a mid with
    ⟨hnone, h⟩ | ⟨e, he, hcarrier, -, ⟨-, h⟩ | ⟨-, h⟩⟩
  all_goals rw [h] at halive ⊢
  · rw [if_neg (by rw [hnone]; exact nofun)]
  · have hlive : b.isAlive e.id = true := isAlive_of_carrier? hcarrier
    rw [demuxOf_update (Endpoint.retains_drop mid) (g := (·.removeMid mid)) fun _ ↦ rfl]
    simp only [hcarrier, Option.some_inj, hlive, and_true, eq_comm]
  · -- the carrier is gone, so it is another endpoint that is live
    have hne : id ≠ e.id := by
      rintro rfl
      obtain ⟨e', he', hid⟩ := isAlive_iff.mp halive
      exact (mem_without.mp he').2 hid
    have hother : b.carrier? mid ≠ some id := by
      rw [hcarrier]
      exact fun hc ↦ hne (Option.some_inj.mp hc).symm
    have hsame : (b.without e.id).endpoint? id = b.endpoint? id := by
      rw [endpoint?, endpoint?, without, List.find?_filter]
      congr 1
      funext x
      by_cases hx : x.id = id
      · simp [hx, hne]
      · simp [hx]
    rw [if_neg hother, demuxOf, demuxOf, hsame]

end TransportBinding

end OfferAnswer
