import OfferAnswer.Proofs.Session.Staffing

/-!
# Offering never fails

Making an offer calls handlers and takes ports, and both can fail. Handlers do not: `Staffed` gives
every section that is repeated a handler of its kind, and a handler that could be made offers
whatever it is given to repeat. So there is always a plan, and it does not depend on the ports.

Ports can run out. That fails no offer, and it does no more than take a section of the plan its
port: `Session.OfferedAs` says what an offer makes of one planned section. Ports are only taken
while sections are placed, so a section that went without still does when the last one is placed.
Hence the shortage can be stated of the ports that are left in the end, and not of those at the
time.
-/

namespace OfferAnswer

/-! ## Shortage -/

namespace Placement

variable {p p' : Placement} {range : PortRange} {isBundled : Mid → Bool}

/-- How many ports a section needs for an endpoint of its own. -/
def portsNeeded (m : Section) : Nat := if TransportBinding.needsRtcpPort m then 2 else 1

/-- Whether a section cannot have an endpoint of its own. -/
def Short (ports : PortAllocator) (range : PortRange) (m : Section) : Prop :=
  (ports.freePorts range).length < portsNeeded m

theorem Short.mono {a b : PortAllocator} {m : Section} (h : Short a range m)
    (hused : a.used ⊆ b.used) : Short b range m :=
  Nat.lt_of_le_of_lt (PortAllocator.freePorts_sublist hused range).length_le h

theorem used_subset_place (range : PortRange) (bundled : Bool) (mid : Mid) (m : Section)
    (p : Placement) : p.ports.used ⊆ (place range bundled mid m p).2.ports.used := by
  rw [place]
  split
  · rw [ports_settle]
    exact List.Subset.refl _
  · have hallocate : p.ports.used ⊆ (p.transport.allocate p.ports mid m range
        (if bundled then p.shared else none)).2.2.used := by
      rw [TransportBinding.allocate.eq_def]
      split
      · split <;> exact List.Subset.refl _
      · have htake := TransportBinding.used_subset_takePorts p.ports range
          (TransportBinding.needsRtcpPort m)
        split
        all_goals
          rename_i h
          rw [h] at htake
          exact htake
    split
    all_goals
      rename_i h
      rw [h] at hallocate
    · exact hallocate
    · rw [ports_settle]
      exact hallocate

theorem used_subset_placeOne (range : PortRange) (isBundled : Mid → Bool)
    (refuse : Section → Section) (q : Planned) (p : Placement) :
    p.ports.used ⊆ (placeOne range isBundled refuse q p).2.ports.used := by
  have hplace := used_subset_place range (isBundled q.mid) q.mid q.body p
  rw [placeOne]
  split
  · exact List.Subset.refl _
  · split
    all_goals
      rename_i h
      rw [h] at hplace
      exact hplace

theorem used_subset_placeAll (range : PortRange) (isBundled : Mid → Bool)
    (plan : List (Planned × (Section → Section))) (p : Placement) :
    p.ports.used ⊆ (placeAll range isBundled plan p).2.ports.used := by
  induction plan generalizing p with
  | nil => exact List.Subset.refl _
  | cons x plan ih =>
    have hone := used_subset_placeOne range isBundled x.2 x.1 p
    rw [placeAll]
    split
    · rename_i h
      rw [h] at hone
      exact hone
    · rename_i p₁ h
      rw [h] at hone
      have hall := List.Subset.trans hone (ih p₁)
      split
      all_goals
        rename_i h'
        rw [h'] at hall
        exact hall

/-- Whether a section has nowhere to go: nothing carries it, there is no bundle for it to join, and
it cannot have an endpoint of its own. -/
structure Stranded (range : PortRange) (bundled : Bool) (mid : Mid) (m : Section) (p : Placement) :
    Prop where
  /-- Nothing carries it. -/
  uncarried : p.transport.carrier? mid = none
  /-- There is no bundle to join. -/
  unshared : bundled = true → p.shared = none
  /-- There are not enough ports. -/
  short : Short p.ports range m

/-- **A section fails to be placed exactly if it has nowhere to go**, and that changes nothing. -/
theorem place_eq_noPorts_iff {bundled : Bool} {mid : Mid} {m : Section} :
    place range bundled mid m p = (.error (.noPorts range.min range.max), p) ↔
      Stranded range bundled mid m p := by
  constructor
  · intro h
    rw [place] at h
    split at h
    · cases h
    · rename_i hcarrier
      rcases hr : p.transport.allocate p.ports mid m range (if bundled then p.shared else none) with
        ⟨err | id, transport, ports⟩
      · rw [hr] at h
        obtain rfl := Except.error.inj (congrArg Prod.fst h)
        -- an allocation fails if there is no endpoint to join and ports are short
        rw [TransportBinding.allocate.eq_def] at hr
        split at hr
        · split at hr <;> cases hr
        · rename_i hjoins
          split at hr
          · rename_i htake
            refine ⟨hcarrier, fun hbundled ↦ ?_, TransportBinding.length_freePorts_lt htake⟩
            rwa [if_pos hbundled] at hjoins
          · cases hr
      · rw [hr] at h
        cases h
  · intro h
    have hjoins : (if bundled then p.shared else none) = none := by
      split
      · exact h.unshared ‹_›
      · rfl
    rw [place, h.uncarried]
    dsimp only
    rw [hjoins, TransportBinding.allocate, TransportBinding.takePorts_of_lt h.short]

theorem stranded_of_placeOne (hp : p.Ready) {refuse : Section → Section} {q r : Planned}
    (h : placeOne range isBundled refuse q p = (.ok r, p')) (hq : q.body.isRejected = false)
    (hr : r.body.isRejected = true) :
    Stranded range (isBundled q.mid) q.mid q.body p ∧ r = { q with body := refuse q.body } ∧
      p' = p := by
  rw [placeOne, hq, if_neg Bool.false_ne_true] at h
  rcases place_cases hp range (isBundled q.mid) q.mid q.body with
    ⟨e, p₁, hplace, hp₁, -, he, -⟩ | hplace
  · -- the port of an endpoint is a port
    rw [hplace] at h
    cases h
    rw [Section.isRejected, port_writePorts, beq_iff_eq] at hr
    exact absurd hr (hp₁.exclusive.rtpPort_ne_zero e he)
  · rw [hplace] at h
    cases h
    exact ⟨place_eq_noPorts_iff.mp hplace, rfl, rfl⟩

theorem short_of_placeAll (hp : p.Ready) {plan : List (Planned × (Section → Section))}
    {placed : List Planned} (h : placeAll range isBundled plan p = (.ok placed, p')) :
    List.Forall₂ (fun x r ↦ x.1.body.isRejected = false → r.body.isRejected = true →
      Short p'.ports range x.1.body) plan placed := by
  induction plan generalizing p placed with
  | nil =>
    cases h
    exact .nil
  | cons x plan ih =>
    obtain ⟨r, p₁, rest, hone, hall, rfl⟩ := placeAll_cons_eq_ok h
    have hused := used_subset_placeAll range isBundled plan p₁
    rw [hall] at hused
    refine .cons (fun hq hr ↦ ?_) (ih (hp.of_placeOne hone).1 hall)
    obtain ⟨hstranded, -, rfl⟩ := stranded_of_placeOne hp hone hq hr
    exact hstranded.short.mono hused

end Placement

/-! ## Planning -/

namespace Session

variable {s : Session}

theorem planRepeated_ok {i : Nat} {ns : List NegotiatedMedia} (h : ∀ (j : Nat) n, ns[j]? = some n →
    ∃ m, s.repeated n (s.positionAt (i + j)) (s.lastAt (i + j)) = .ok m) :
    ∃ plan, s.planRepeated i ns = .ok plan := by
  induction ns generalizing i with
  | nil => exact ⟨[], rfl⟩
  | cons n ns ih =>
    obtain ⟨m, hm⟩ := h 0 n rfl
    obtain ⟨plan, hplan⟩ := ih (i := i + 1) fun j n' hn' ↦ by
      rw [Nat.add_right_comm]
      exact h (j + 1) n' hn'
    rw [Nat.add_zero] at hm
    exact ⟨_, planRepeated_cons_eq_ok.mpr ⟨m, plan, hm, hplan, rfl⟩⟩

theorem exists_planNew {hs : List (MediaHandler × Nat)} (hmade : ∀ x ∈ hs, x.1.IsMade)
    (plan : List Planned) : ∃ plan', s.planNew hs plan = .ok plan' := by
  induction hs generalizing plan with
  | nil => exact ⟨plan, rfl⟩
  | cons x hs ih =>
    have hrest := ih fun y hy ↦ hmade y (List.mem_cons_of_mem x hy)
    rw [planNew]
    split
    · exact hrest plan
    · obtain ⟨o, ho, -⟩ := MediaHandler.offer_ok (hmade x List.mem_cons_self) none
      rw [ho]
      exact hrest _

theorem Sound.isMade (h : s.Sound) {handler : MediaHandler} (hh : handler ∈ s.handlers) :
    handler.IsMade :=
  ((SessionConfig.handlers_spec h.configured).2 handler hh).1

/-- A section that was rejected is repeated with port 0. Any other is repeated by its handler, and
not rejected. -/
theorem Staffed.repeated_ok (h : s.Staffed) (hs : s.Sound) {i : Nat} {n : NegotiatedMedia}
    (hn : s.negotiated[i]? = some n) : ∃ m, s.repeated n (s.positionAt i) (s.lastAt i) = .ok m ∧
      m.isRejected = n.rejected := by
  unfold repeated
  dsimp only
  cases hrej : n.rejected with
  | true =>
    rw [if_pos rfl]
    cases s.lastAt i with
    | some last => exact ⟨.rejected last, rfl, rfl⟩
    | none => exact ⟨_, rfl, rfl⟩
  | false =>
    obtain ⟨handler, hhandler, hkind⟩ := h.accepted i n hn hrej
    have hmem : handler ∈ s.handlers := by
      obtain ⟨j, -, hj⟩ := Option.bind_eq_some_iff.mp hhandler
      exact List.mem_of_getElem? hj
    obtain ⟨m, hm, -, -, -, hmrej⟩ := MediaHandler.offer_ok (hs.isMade hmem) (s.lastAt i)
    refine ⟨m, ?_, hmrej⟩
    rw [if_neg Bool.false_ne_true, hhandler, ← hkind]
    exact hm

/-- **There is always a plan.** -/
theorem Staffed.planOffer_ok (h : s.Staffed) (hs : s.Sound) : ∃ plan, s.planOffer = .ok plan := by
  obtain ⟨repeats, hrepeats⟩ : ∃ repeats, s.planRepeated 0 s.negotiated = .ok repeats := by
    refine planRepeated_ok fun j n hn ↦ ?_
    obtain ⟨m, hm, -⟩ := h.repeated_ok hs hn
    exact ⟨m, by rwa [Nat.zero_add]⟩
  have hmade : ∀ x ∈ s.handlers.zipIdx, x.1.IsMade := fun x hx ↦
    hs.isMade (List.mem_of_getElem? (List.mem_zipIdx_iff_getElem?.mp hx))
  obtain ⟨plan, hplan⟩ := exists_planNew hmade repeats
  refine ⟨plan.map s.offerMux, ?_⟩
  rw [planOffer, hrepeats]
  dsimp only
  rw [hplan]
  rfl

/-- What was rejected is planned with port 0, and nothing else is. -/
theorem Staffed.isRejected_of_planOffer (h : s.Staffed) (hs : s.Sound) {plan : List Planned}
    (hplan : s.planOffer = .ok plan) {i : Nat} {q : Planned} (hq : plan[i]? = some q) :
    q.body.isRejected = true ↔ ∃ n, s.negotiated[i]? = some n ∧ n.rejected = true := by
  obtain ⟨q₀, hdraft, rfl⟩ := drafted_of_planOffer hplan hq
  rw [isRejected_offerMux]
  cases hdraft with
  | @repeated n m hn hm =>
    obtain ⟨m', hm', hmrej⟩ := h.repeated_ok hs hn
    obtain rfl : m' = m := Except.ok.inj (hm'.symm.trans hm)
    simp [hn, hmrej]
  | added _ hi _ hm =>
    simp [List.getElem?_eq_none hi, MediaHandler.isRejected_of_offer hm]

/-! ## What becomes of a plan -/

/-- What the session `s'` and the ports that an offer leaves make of a section that was planned at
an index. -/
structure OfferedAs (s s' : Session) (ports : PortAllocator) (i : Nat) (q : Planned) (o : Section) :
    Prop where
  /-- It says its identifier. -/
  mid_eq : o.mid? = some q.mid
  /-- It is of the kind that was planned. -/
  kind_eq : o.kind = q.body.kind
  /-- It has the protocol that was planned. -/
  proto_eq : o.proto = q.body.proto
  /-- It has the formats that were planned. -/
  formats_eq : o.formats = q.body.formats
  /-- With a port, it is carried: the port is that of a live endpoint, and so is the port of RTCP,
  which it declares if there is one. -/
  carried : o.port ≠ 0 → ∃ id e, s'.transport.carrier? q.mid = some id ∧
    s'.transport.endpoint? id = some e ∧ q.mid ∈ e.mids ∧ o.port = e.rtpPort ∧
    o.attrsOf "rtcp" = (e.rtcpPort.map fun p ↦ .of "rtcp" (Numeral.decimal p.toNat)).toList
  /-- Without, it is what was planned, and that has no port because it was rejected before, or
  because there are not enough of them. -/
  refused : o.port = 0 → o = (withoutPort q.body).add (midAttr q.mid) ∧
    ((∃ n, s.negotiated[i]? = some n ∧ n.rejected = true) ∨
      Placement.Short ports s.config.portRange q.body)

end Session

namespace Placement

theorem attrsOf_rtcp_writePorts {m : Section} (hm : m.Tidy) (e : Endpoint) :
    (writePorts e m).attrsOf "rtcp" =
      (e.rtcpPort.map fun p ↦ .of "rtcp" (Numeral.decimal p.toNat)).toList := by
  have hport : Section.Tidy { m with port := e.rtpPort } := hm
  rw [writePorts]
  cases e.rtcpPort with
  | some p =>
    exact Section.attrsOf_add (a := .of "rtcp" (Numeral.decimal p.toNat)) hport
      (show "rtcp" ∈ Attribute.singleKeys by decide)
  | none =>
    refine List.filter_eq_nil_iff.mpr fun a ha ↦ ?_
    simpa using (List.mem_filter.mp ha).2

end Placement

namespace Offering

open Session

variable {s : Session} {run : Offering s} {i : Nat} {q r : Planned} {o : Section}

theorem Row.offeredAs (hrow : run.Row i q r o) (hs : s.Sound) (hstaffed : s.Staffed)
    (hlegible : ∀ n ∈ s.negotiated, n.mid.Legible)
    (hshort : q.body.isRejected = false → r.body.isRejected = true →
      Placement.Short run.place.ports s.config.portRange q.body) :
    s.OfferedAs run.written.2 run.place.ports i q o := by
  have htransport : run.written.2.transport = run.place.transport := by
    obtain ⟨_, _, _, hwritten⟩ := run.written_eq
    rw [hwritten]
  have htidy := (unsigned_planOffer run.plan_eq q (List.mem_of_getElem? hrow.planned)).tidy
  obtain ⟨ssrcs, e, hwritten⟩ := hrow.written
  have hport : o.port = r.body.port := hwritten ▸ port_decorate _ _ _ _
  -- what is written without a port is a rejection and its name
  have hbare : r.body = withoutPort q.body → o.port = 0 →
      o = (withoutPort q.body).add (midAttr q.mid) := by
    intro hr hzero
    have hrej : r.body.isRejected = true := by
      rw [Section.isRejected, ← hport, hzero, beq_self_eq_true]
    rw [hwritten, decorate_rejected _ _ _ hrej, hr, hrow.fate.mid_eq]
  refine ⟨hrow.mid?_eq hlegible, hrow.kind_eq, hrow.proto_eq, hrow.formats_eq, fun hne ↦ ?_,
    fun hzero ↦ ?_⟩
  · rw [htransport]
    cases hrow.fate with
    | rejected hrej => exact absurd (hport.trans (beq_iff_eq.mp hrej)) hne
    | refused _ => exact absurd hport hne
    | @carried e _ he hmid =>
      refine ⟨e.id, e, run.ready.exclusive.carrier?_eq_some.mpr ⟨e, he, rfl, hmid⟩,
        run.ready.exclusive.toWellFormed.endpoint?_eq_some.mpr ⟨he, rfl⟩, hmid, ?_, ?_⟩
      · rw [hport, Placement.port_writePorts]
      · rw [hwritten, attrsOf_decorate (by decide), Placement.attrsOf_rtcp_writePorts htidy]
  · cases hrow.fate with
    | rejected hrej =>
      have hsame : q.body = withoutPort q.body := by rw [withoutPort, ← beq_iff_eq.mp hrej]
      exact ⟨hbare hsame hzero,
        .inl ((hstaffed.isRejected_of_planOffer hs run.plan_eq hrow.planned).mp hrej)⟩
    | refused hq => exact ⟨hbare rfl hzero, .inr (hshort hq rfl)⟩
    | @carried e _ he _ =>
      rw [hport, Placement.port_writePorts] at hzero
      exact absurd hzero (run.ready.exclusive.rtpPort_ne_zero e he)

end Offering

/-! ## Every offer -/

namespace Session

variable {s : Session}

/-- **Offering never fails.** Whatever a session has been through and whichever ports are in use, an
offer is refused only if the session is closed. An open session has a plan for its next offer that
does not depend on the ports, and offers every section of it in its place. A section with a port is
carried by a live endpoint: its port is that of the endpoint, and it declares a port of RTCP exactly
if the endpoint has one. A section without a port is the planned one with port 0. It was rejected
before, or fewer ports are free than it needs. -/
theorem offering_never_fails (hs : s.Reachable) :
    (s.state = .closed → ∀ ports, s.generateOffer ports =
      s.unchanged ports (.error (s.wrongState "generate_offer"))) ∧
    (s.state ≠ .closed → ∃ plan, s.planOffer = .ok plan ∧ ∀ ports, ∃ offer,
      (s.generateOffer ports).result = .ok offer ∧ offer.sections.length = plan.length ∧
        ∀ (i : Nat) q o, plan[i]? = some q → offer.sections[i]? = some o →
          s.OfferedAs (s.generateOffer ports).session (s.generateOffer ports).ports i q o) := by
  refine ⟨fun hclosed ports ↦ by rw [generateOffer, if_pos (.inl hclosed)], fun hopen ↦ ?_⟩
  have hexcl := hs.sound.exclusive
  obtain ⟨plan, hplan⟩ := hs.staffed.planOffer_ok hs.sound
  refine ⟨plan, hplan, fun ports ↦ ?_⟩
  have hstate : ¬(s.state = .closed ∨ s.state = .offerReceived) :=
    not_or.mpr ⟨hopen, hs.ordered.not_received⟩
  obtain ⟨run, rfl, hr, hplace⟩ := generateOffer_ok hexcl hstate ports hplan
  have hshort := Placement.short_of_placeAll (Placement.ready_start hexcl ports) hplace
  rw [hr]
  refine ⟨run.offer, rfl, run.length_sections, fun i q o hq ho ↦ ?_⟩
  obtain ⟨q', r, hrow⟩ := run.exists_row ho
  obtain rfl : q' = q := Option.some_inj.mp (hrow.planned.symm.trans hq)
  exact hrow.offeredAs hs.sound hs.staffed hs.mentioned.legible (hrow.of_placed hshort)

/-- Audio that does not share its port with RTCP, data channels, and two ports for both. -/
def narrow : SessionConfig where
  portRange := ⟨10000, 10001⟩
  rtcpMux := false
  handlers := [.audio { profile := .avp, codecs := Codec.defaultAudio }, .sctp {}]

/-- A session with three ports to take and two to be had. -/
def ofNarrow (e : Entropy) : Session :=
  create narrow [.rtp ⟨.audio, .avp, Codec.defaultAudio, .sendRecv⟩, .sctp {}] e

theorem reachable_ofNarrow (e : Entropy) : (ofNarrow e).Reachable :=
  .build (show build narrow e = .ok (ofNarrow e) from rfl)

/-- With one of two ports taken by others, audio goes without, and the channel gets the other. -/
theorem offering_never_fails_narrow :
    let s := ofNarrow ⟨fun i ↦ i, 0⟩
    let r := s.generateOffer { used := [10000] }
    s.Reachable ∧ ∃ (offer : Description) (audio channel : Section), r.result = .ok offer ∧
      offer.sections = [audio, channel] ∧ audio.port = 0 ∧ channel.port ≠ 0 ∧
        (∃ q : Planned, q.body.kind = .audio ∧ Placement.Short r.ports narrow.portRange q.body) ∧
          ∃ e ∈ r.session.transport.endpoints, e.rtpPort = channel.port := by
  intro s r
  have hs : s.Reachable := reachable_ofNarrow _
  obtain ⟨plan, -, hoffers⟩ := (offering_never_fails hs).2 (by decide +kernel)
  obtain ⟨offer, hr, hlen, hsections⟩ := hoffers { used := [10000] }
  have hshape : r.result.toOption.map (fun d ↦ d.sections.map fun o ↦ (o.kind, o.port)) =
      some [(.audio, 0), (.application, 10001)] := by decide +kernel
  rw [show r.result = .ok offer from hr] at hshape
  replace hshape : offer.sections.map (fun o ↦ (o.kind, o.port)) =
    [(.audio, 0), (.application, 10001)] := Option.some_inj.mp hshape
  obtain ⟨audio, channel, hboth⟩ : ∃ audio channel, offer.sections = [audio, channel] :=
    List.length_eq_two.mp (by simpa using congrArg List.length hshape)
  rw [hboth] at hshape hlen hsections
  obtain ⟨⟨hkind, hzero⟩, -, hport⟩ : (audio.kind = .audio ∧ audio.port = 0) ∧
      channel.kind = .application ∧ channel.port = 10001 := by simpa using hshape
  have hne : channel.port ≠ 0 := hport ▸ (by decide)
  obtain ⟨q, q', rfl⟩ := List.length_eq_two.mp hlen.symm
  have haudio := hsections 0 q audio rfl rfl
  obtain ⟨id, e, -, he, -, hcarrier, -⟩ := (hsections 1 q' channel rfl rfl).carried hne
  refine ⟨hs, offer, audio, channel, hr, hboth, hzero, hne, ⟨q, haudio.kind_eq ▸ hkind, ?_⟩,
    e, TransportBinding.mem_of_endpoint? he, hcarrier.symm⟩
  rcases (haudio.refused hzero).2 with ⟨n, hn, -⟩ | hshort
  · cases hn
  · exact hshort

end Session

end OfferAnswer
