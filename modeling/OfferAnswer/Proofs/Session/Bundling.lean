import OfferAnswer.Proofs.Session.Gathering
import OfferAnswer.Proofs.Session.Leakage

/-!
# One transport for a bundle

The sections that a description lists in its group are to share a transport. Whether they do is
decided before the description is made. A section that has an endpoint from an earlier exchange
keeps it, and the group is written from what is accepted, not from what was joined. So a group can
list sections that an earlier exchange has put on different endpoints, and it can list an identifier
that a rejected section has too.

These are the only two things that can go wrong, and `Description.IsGathered` says that neither did,
in terms of the endpoints before the call. The theorem of this file is that the sections share a
transport if and only if it holds.
-/

namespace OfferAnswer

open Placement (Gathers firstBundled)
open Session (acceptedMids Released)

/-! ## The two properties -/

namespace Description

/-- The identifiers that a description lists in its group. -/
def listed (d : Description) : List Mid := d.session.bundle?.getD []

/-- Whether the listed sections share a transport: one endpoint carries them, and they are written
with one port. -/
def SharesTransport (d : Description) (b : TransportBinding) : Prop :=
  ∃ id port, ∀ m ∈ d.sections, ∀ mid, m.mid? = some mid → mid ∈ d.listed →
    b.carrier? mid = some id ∧ m.port = port

/-- Whether nothing keeps the listed sections apart, given the endpoints before they were placed. -/
structure IsGathered (d : Description) (b : TransportBinding) (isBundled : Mid → Bool) : Prop where
  /-- None of them is rejected. -/
  accepted : ∀ m ∈ d.sections, ∀ mid, m.mid? = some mid → mid ∈ d.listed → m.isRejected = false
  /-- They have one destination. -/
  together : ∀ mid ∈ d.listed, ∀ mid' ∈ d.listed,
    b.destination ((acceptedMids d.sections).find? isBundled) mid =
      b.destination ((acceptedMids d.sections).find? isBundled) mid'

end Description

theorem TransportBinding.destination_of_empty {b : TransportBinding} (h : b.endpoints = [])
    (first : Option Mid) (mid : Mid) : b.destination first mid = none := by
  have hnone : ∀ mid, b.carrier? mid = none := fun mid ↦ by
    rw [carrier?_eq_none_iff, h]
    exact fun _ he ↦ absurd he List.not_mem_nil
  rw [destination, hnone, Option.none_or, Option.bind_eq_none_iff]
  exact fun mid _ ↦ hnone mid

/-! ## Descriptions of what was placed -/

/-- A description of sections as they were placed. -/
structure Description.Describes (d : Description) (p : Placement) (isBundled : Mid → Bool)
    (placed : List Planned) : Prop where
  /-- Accepted sections are those that were placed. -/
  accepted : acceptedMids d.sections = (placed.filter fun r ↦ !r.body.isRejected).map (·.mid)
  /-- They are carried, and have the port of their endpoint. -/
  carried : ∀ m ∈ d.sections, m.isRejected = false → ∃ e ∈ p.transport.endpoints, ∃ mid ∈ e.mids,
    m.mid? = some mid ∧ m.port = e.rtpPort
  /-- What is listed is bundled and accepted. -/
  of_listed : ∀ mid ∈ d.listed, isBundled mid = true ∧ mid ∈ acceptedMids d.sections

namespace Description

variable {d : Description} {b t : TransportBinding} {ports : PortAllocator} {p : Placement}
  {isBundled : Mid → Bool} {placed : List Planned}

/-- An accepted section is carried by its name, and has the port of the endpoint. -/
theorem Describes.endpoint_of_accepted (h : d.Describes p isBundled placed)
    (hp : p.transport.Exclusive) {m : Section} (hm : m ∈ d.sections) (hrej : m.isRejected = false)
    {mid : Mid} (hname : m.mid? = some mid) : ∃ e ∈ p.transport.endpoints,
      p.transport.carrier? mid = some e.id ∧ m.port = e.rtpPort := by
  obtain ⟨e, he, mid', hcarries, hname', hport⟩ := h.carried m hm hrej
  obtain rfl : mid = mid' := Option.some.inj (hname.symm.trans hname')
  exact ⟨e, he, hp.carrier?_eq_some.mpr ⟨e, he, rfl, hcarries⟩, hport⟩

theorem Describes.endpoint (h : d.Describes p isBundled placed) (hp : p.transport.Exclusive)
    {mid : Mid} (hmid : mid ∈ d.listed) : ∃ m ∈ d.sections, m.mid? = some mid ∧
      ∃ e ∈ p.transport.endpoints, p.transport.carrier? mid = some e.id ∧ m.port = e.rtpPort := by
  obtain ⟨m, hm, hrej, hname⟩ := Session.mem_acceptedMids.mp (h.of_listed mid hmid).2
  exact ⟨m, hm, hname, h.endpoint_of_accepted hp hm hrej hname⟩

/-- Where the listed sections share a transport, none of them is rejected: each has the port of an
accepted one. -/
theorem Describes.accepted_of_sharesTransport (h : d.Describes p isBundled placed)
    (hp : p.transport.Exclusive) (hshares : d.SharesTransport t) :
    ∀ m ∈ d.sections, ∀ mid, m.mid? = some mid → mid ∈ d.listed → m.isRejected = false := by
  intro m hm mid hname hmid
  obtain ⟨id, port, hall⟩ := hshares
  obtain ⟨m₁, hm₁, hname₁, e, he, -, hport⟩ := h.endpoint hp hmid
  have hsame : m.port = e.rtpPort :=
    (hall m hm mid hname hmid).2.trans ((hall m₁ hm₁ mid hname₁ hmid).2.symm.trans hport)
  rw [Section.isRejected, hsame]
  exact beq_eq_false_iff_ne.mpr (hp.rtpPort_ne_zero e he)

/-- **The listed sections share a transport exactly if nothing keeps them apart.** The endpoints `t`
are those after the call; between the placement and them, only what is rejected may be given up. -/
theorem Describes.sharesTransport_iff (h : d.Describes p isBundled placed)
    (hgathers : Gathers isBundled { transport := b, ports := ports } p
      (firstBundled isBundled placed))
    (hb : b.WellFormed) (hp : p.transport.Exclusive)
    (hkept : (∀ m ∈ d.sections, ∀ mid, m.mid? = some mid → mid ∈ d.listed → m.isRejected = false) →
      ∀ mid ∈ d.listed, ∀ id, p.transport.carrier? mid = some id → t.carrier? mid = some id) :
    d.SharesTransport t ↔ d.IsGathered b isBundled := by
  rw [firstBundled, ← h.accepted] at hgathers
  have htogether {mid mid' : Mid} {id id' : EndpointId} (hmid : mid ∈ d.listed)
      (hmid' : mid' ∈ d.listed) (hid : p.transport.carrier? mid = some id)
      (hid' : p.transport.carrier? mid' = some id') :=
    hgathers.together_iff hb (h.of_listed mid hmid).1 (h.of_listed mid' hmid').1 hid hid'
  constructor
  · intro hshares
    have haccepted := h.accepted_of_sharesTransport hp hshares
    obtain ⟨id, port, hall⟩ := hshares
    -- what shares an endpoint in the end was placed on it
    have hid : ∀ mid ∈ d.listed, p.transport.carrier? mid = some id := by
      intro mid hmid
      obtain ⟨m₁, hm₁, hname₁, e, -, hcarrier, -⟩ := h.endpoint hp hmid
      have hafter := hkept haccepted mid hmid e.id hcarrier
      rw [hcarrier, ← hafter]
      exact (hall m₁ hm₁ mid hname₁ hmid).1
    exact ⟨haccepted, fun mid hmid mid' hmid' ↦
      (htogether hmid hmid' (hid mid hmid) (hid mid' hmid')).mp rfl⟩
  · rintro ⟨haccepted, hsame⟩
    cases hlisted : d.listed with
    | nil =>
      refine ⟨0, 0, fun m hm mid hname hmid ↦ ?_⟩
      rw [hlisted] at hmid
      exact absurd hmid List.not_mem_nil
    | cons mid₀ mids =>
      have hmid₀ : mid₀ ∈ d.listed := hlisted ▸ List.mem_cons_self
      obtain ⟨-, -, -, e₀, he₀, hcarrier₀, -⟩ := h.endpoint hp hmid₀
      -- all are where the first of them is
      refine ⟨e₀.id, e₀.rtpPort, fun m hm mid hname hmid ↦ ?_⟩
      obtain ⟨e, he, hcarrier, hport⟩ :=
        h.endpoint_of_accepted hp hm (haccepted m hm mid hname hmid) hname
      have hid : e.id = e₀.id :=
        (htogether hmid hmid₀ hcarrier hcarrier₀).mpr (hsame mid hmid mid₀ hmid₀)
      obtain rfl := hp.toWellFormed.eq_of_id he he₀ hid
      exact ⟨hkept haccepted mid hmid e.id hcarrier, hport⟩

end Description

/-! ## Offers and answers -/

theorem Session.acceptedMids_of_forall₂ {placed : List Planned} {sections : List Section}
    (h : List.Forall₂ (fun r m ↦ m.isRejected = r.body.isRejected ∧ m.mid? = some r.mid) placed
      sections) :
    acceptedMids sections = (placed.filter fun r ↦ !r.body.isRejected).map (·.mid) := by
  induction h with
  | nil => rfl
  | cons hone _ ih =>
    obtain ⟨hrej, hmid⟩ := hone
    rw [acceptedMids] at ih ⊢
    rw [List.filter_cons, List.filter_cons, hrej]
    split
    · rw [List.filterMap_cons, hmid, List.map_cons, ih]
    · exact ih

namespace Offering

open Session

variable {s : Session} (run : Offering s) {i : Nat} {q r : Planned} {o : Section}

theorem Row.isRejected_eq {run : Offering s} (hrow : run.Row i q r o) :
    o.isRejected = r.body.isRejected := by
  obtain ⟨ssrcs, e, rfl⟩ := hrow.written
  rw [Section.isRejected, port_decorate, Section.isRejected]

theorem Row.carried {run : Offering s} (hrow : run.Row i q r o) (hrej : o.isRejected = false) :
    ∃ e ∈ run.place.transport.endpoints, q.mid ∈ e.mids ∧ o.port = e.rtpPort := by
  rw [hrow.isRejected_eq] at hrej
  have hport : o.port = r.body.port := by
    obtain ⟨ssrcs, e, rfl⟩ := hrow.written
    rw [port_decorate]
  cases hrow.fate with
  | rejected h => exact absurd (h.symm.trans hrej) Bool.noConfusion
  | @carried e _ he hmid => exact ⟨e, he, hmid, hport.trans (Placement.port_writePorts e q.body)⟩
  | refused _ => exact absurd hrej Bool.noConfusion

theorem describes (hlegible : ∀ n ∈ s.negotiated, n.mid.Legible) :
    run.offer.Describes run.place (fun _ ↦ s.bundles) run.placed where
  accepted := by
    refine acceptedMids_of_forall₂ (forall₂_of_getElem?
      (run.length_placed.trans run.length_sections.symm) fun i r o hr ho ↦ ?_)
    obtain ⟨q, r', hrow⟩ := run.exists_row ho
    obtain rfl : r = r' := Option.some.inj (hr.symm.trans hrow.placed)
    exact ⟨hrow.isRejected_eq, (hrow.mid?_eq hlegible).trans (congrArg some hrow.fate.mid_eq.symm)⟩
  carried m hm hrej := by
    obtain ⟨i, hi⟩ := List.mem_iff_getElem?.mp hm
    obtain ⟨q, r, hrow⟩ := run.exists_row hi
    obtain ⟨e, he, hmid, hport⟩ := hrow.carried hrej
    exact ⟨e, he, q.mid, hmid, hrow.mid?_eq hlegible, hport⟩
  of_listed mid hmid := by
    have hgroup : ∀ mid ∈ s.offerGroup run.offer.sections,
        s.bundles = true ∧ mid ∈ acceptedMids run.offer.sections := by
      intro mid hmid
      rw [offerGroup] at hmid
      split at hmid
      · exact ⟨‹_›, hmid⟩
      · cases hmid
    -- what is accepted says its name, and a name that was read can be read again
    have hnames : ∀ mid ∈ s.offerGroup run.offer.sections, mid.Legible := by
      intro mid hmid
      obtain ⟨m, -, -, hname⟩ := mem_acceptedMids.mp (hgroup mid hmid).2
      obtain ⟨text, -, rfl⟩ := Option.map_eq_some_iff.mp hname
      exact Mid.legible_ofText text
    rw [Description.listed, run.writesPart_offer.bundle?_of_legible hnames] at hmid
    exact hgroup mid (List.mem_filter.mp hmid).1

end Offering

namespace Answering

open Session

variable {s : Session} {remote : Description} (run : Answering s remote) {i : Nat} {q r : Planned}
  {o a : Section} {n : NegotiatedMedia}

theorem Row.mid?_eq {run : Answering s remote} (hrow : run.Row i q r o a n) :
    a.mid? = some (midAt remote i) := by
  rw [hrow.answers.2.mid_eq, legible_midAt]

theorem Row.isRejected_eq {run : Answering s remote} (hrow : run.Row i q r o a n) :
    a.isRejected = r.body.isRejected := by
  obtain ⟨ssrcs, e, hwritten⟩ := hrow.written
  rw [hwritten, Section.isRejected, port_decorate, Section.isRejected]

theorem exists_row_of_answered {a : Section} (ha : run.answer.sections[i]? = some a) :
    ∃ q r o n, run.outcomes.1[i]? = some n ∧ run.Row i q r o a n := by
  have hi : i < run.outcomes.1.length := by
    rw [run.length_negotiated, ← run.length_sections]
    exact (List.getElem?_eq_some_iff.mp ha).1
  obtain ⟨q, r, o, a', -, ha', hrow⟩ := run.exists_row (List.getElem?_eq_getElem hi)
  obtain rfl : a = a' := Option.some.inj (ha.symm.trans ha')
  exact ⟨q, r, o, _, List.getElem?_eq_getElem hi, hrow⟩

theorem describes : run.answer.Describes run.place (remote.session.bundle?.getD []).contains
    run.placed where
  accepted := by
    refine acceptedMids_of_forall₂ (forall₂_of_getElem?
      (run.length_placed.trans run.length_sections.symm) fun i r a hr ha ↦ ?_)
    obtain ⟨q, r', o, n, -, hrow⟩ := run.exists_row_of_answered ha
    obtain rfl : r = r' := Option.some.inj (hr.symm.trans hrow.placed)
    exact ⟨hrow.isRejected_eq, hrow.mid?_eq.trans (congrArg some hrow.mid_eq.symm)⟩
  carried m hm hrej := by
    obtain ⟨i, hi⟩ := List.mem_iff_getElem?.mp hm
    obtain ⟨q, r, o, n, -, hrow⟩ := run.exists_row_of_answered hi
    rcases run.row_cases hrow with ⟨hrej', -⟩ | ⟨e, he, hmid, -, hport, -⟩
    · exact absurd (hrej'.symm.trans hrej) Bool.noConfusion
    · exact ⟨e, he, midAt remote i, hmid, hrow.mid?_eq, hport⟩
  of_listed mid hmid := by
    rw [Description.listed, run.bundle?_answer] at hmid
    obtain ⟨hgroup, hany⟩ := List.mem_filter.mp hmid
    refine ⟨List.contains_iff_mem.mpr hgroup, mem_acceptedMids.mpr ?_⟩
    obtain ⟨m, hm, hboth⟩ := List.any_eq_true.mp hany
    rw [Bool.and_eq_true, Bool.not_eq_true', beq_iff_eq] at hboth
    exact ⟨m, hm, hboth⟩

/-- A commit keeps what is listed, unless a section of its identifier is rejected. -/
theorem not_released_of_listed {mid : Mid}
    (haccepted : ∀ m ∈ run.answer.sections, m.mid? = some mid → m.isRejected = false) :
    ¬Released run.outcomes.1 mid := by
  rintro ⟨n, hn, hnone, rfl⟩
  obtain ⟨i, hi⟩ := List.mem_iff_getElem?.mp hn
  obtain ⟨q, r, o, a, -, ha, hrow⟩ := run.exists_row hi
  rcases run.row_cases hrow with ⟨hrej, rfl⟩ | ⟨e, -, -, -, -, -, hend, -⟩
  · have haccept := haccepted a (List.mem_of_getElem? ha) hrow.mid?_eq
    exact absurd (hrej.symm.trans haccept) Bool.noConfusion
  · exact nomatch hnone.symm.trans hend

end Answering

/-! ## The theorem -/

namespace Session

variable {s : Session}

/-- **One transport for a bundle, if nothing keeps it apart.** Whatever a session that was built has
been through: when it makes an offer or answers one, the sections listed in the group of what it
writes are carried by one endpoint and written with one port, if and only if none of them is
rejected and they have one destination given the endpoints before the call. -/
theorem listed_share_transport_iff (hs : s.Reachable) (ports : PortAllocator) :
    (∀ offer, (s.generateOffer ports).result = .ok offer →
      (offer.SharesTransport (s.generateOffer ports).session.transport ↔
        offer.IsGathered s.transport fun _ ↦ s.bundles)) ∧
    ∀ remote answer, (s.processOffer ports remote).result = .ok answer →
      (answer.SharesTransport (s.processOffer ports remote).session.transport ↔
        answer.IsGathered s.transport (remote.session.bundle?.getD []).contains) := by
  have hsound := hs.sound
  have hwell := hsound.exclusive.toWellFormed
  constructor
  · intro offer h
    obtain ⟨run, hr, hplace⟩ := generateOffer_placed hsound.exclusive h
    obtain ⟨_, _, _, hwritten⟩ := run.written_eq
    rw [hr] at h ⊢
    cases h
    have hgathers := Placement.gathers_placeAll (Placement.ready_start hsound.exclusive ports) _
      (fun x hx m ↦ ?_) hplace
    · -- an offer commits nothing: what was placed is there in the end
      refine (run.describes hs.mentioned.legible).sharesTransport_iff hgathers hwell
        run.ready.exclusive fun _ mid _ id hid ↦ ?_
      rw [hwritten]
      exact hid
    · obtain ⟨q, -, rfl⟩ := List.mem_map.mp hx
      rfl
  · intro remote answer h
    obtain ⟨-, -, run, hr, hplace⟩ := processOffer_placed hsound h
    rw [hr] at h ⊢
    cases h
    have hgathers := Placement.gathers_placeAll (Placement.ready_start hsound.exclusive ports) _
      (fun x hx m ↦ ?_) hplace
    · refine run.describes.sharesTransport_iff hgathers hwell run.ready.exclusive
        fun haccepted mid hmid id hid ↦ ?_
      -- the commit gives up what is rejected, and nothing that is listed
      obtain ⟨s₁, state, hcommit, -, hconcluded⟩ := run.concluded_spec
      have hkept := run.not_released_of_listed fun m hm hname ↦ haccepted m hm mid hname hmid
      rw [← TransportBinding.carrier?_congr run.outline_secured] at hid
      have hafter := hcommit.keeps.carrier? hcommit.exclusive hkept hid
      dsimp only
      rw [hconcluded]
      exact hafter
    · obtain ⟨m', -, hrefuse⟩ := List.mem_map.mp (List.of_mem_zip hx).2
      rw [← hrefuse]
      rfl

/-- An offer of two data channels, with given attributes in its session part. -/
def twoChannels (attrs : List Attribute) : Description where
  session := { id := 1, version := 1, attrs := attrs }
  sections := ["a", "b"].map fun mid ↦
    { kind := .application, port := 9, proto := "UDP/DTLS/SCTP", formats := ["webrtc-datachannel"],
      attrs := [.of "mid" mid, .of "ice-ufrag" "u", .of "ice-pwd" "p", .of "setup" "actpass",
        .of "sctp-port" "5000"] }

/-- The offer that bundles them. -/
def bundledChannels : Description := twoChannels [.of "group" "BUNDLE a b"]

/-- Two data channels that are bundled from the beginning share a transport. -/
theorem bundled_channels_share :
    let r := (ofChannels ⟨fun i ↦ i, 0⟩).processOffer {} bundledChannels
    ∃ answer, r.result = .ok answer ∧ answer.listed = [.ofText "a", .ofText "b"] ∧
      answer.SharesTransport r.session.transport := by
  intro r
  have hrun : r.result.toOption.map (fun answer ↦
      (answer.listed, answer.sections.all fun m ↦ !m.isRejected)) =
        some ([.ofText "a", .ofText "b"], true) := by
    decide +kernel
  cases h : r.result with
  | error e =>
    rw [h] at hrun
    cases hrun
  | ok answer =>
    rw [h] at hrun
    obtain ⟨hlisted, haccepted⟩ := Prod.ext_iff.mp (Option.some.inj hrun)
    refine ⟨answer, rfl, hlisted,
      ((listed_share_transport_iff (reachable_ofChannels _) {}).2 bundledChannels answer h).mpr
        ⟨fun m hm _ _ _ ↦ ?_, fun mid _ mid' _ ↦ ?_⟩⟩
    · have hall := List.all_eq_true.mp haccepted m hm
      rwa [Bool.not_eq_true'] at hall
    · have hnone : (ofChannels ⟨fun i ↦ i, 0⟩).transport.endpoints = [] := rfl
      rw [TransportBinding.destination_of_empty hnone, TransportBinding.destination_of_empty hnone]

/-- Two data channels that are bundled after they were answered alone do not. -/
theorem later_bundle_split :
    ¬∀ (s : Session) (ports : PortAllocator) (remote answer : Description), s.Reachable →
      (s.processOffer ports remote).result = .ok answer →
        answer.SharesTransport (s.processOffer ports remote).session.transport := by
  intro hshare
  let first := (ofChannels ⟨fun i ↦ i, 0⟩).call {} (.answer (twoChannels []))
  have hrun := fun answer ↦ hshare first.session first.ports bundledChannels answer
    (.call {} (.answer (twoChannels [])) (reachable_ofChannels _))
  -- both are listed in the second answer, with different ports
  have hsplit : ((first.session.processOffer first.ports bundledChannels).result.toOption.any
      fun answer ↦ answer.sections.any fun m ↦ answer.sections.any fun m' ↦
        m.mid?.any answer.listed.contains && m'.mid?.any answer.listed.contains &&
          m.port != m'.port) = true := by
    decide +kernel
  generalize first.session.processOffer first.ports bundledChannels = r at hrun hsplit
  cases h : r.result with
  | error e =>
    rw [h] at hsplit
    cases hsplit
  | ok answer =>
    rw [h] at hsplit
    obtain ⟨m, hm, hsplit⟩ := List.any_eq_true.mp hsplit
    obtain ⟨m', hm', hsplit⟩ := List.any_eq_true.mp hsplit
    rw [Bool.and_eq_true, Bool.and_eq_true, bne_iff_ne] at hsplit
    obtain ⟨⟨hlisted, hlisted'⟩, hports⟩ := hsplit
    obtain ⟨mid, hmid, hin⟩ := (Option.any_eq_true _ _).mp hlisted
    obtain ⟨mid', hmid', hin'⟩ := (Option.any_eq_true _ _).mp hlisted'
    obtain ⟨id, port, hall⟩ := hrun answer h
    refine hports ((hall m hm mid hmid (List.contains_iff_mem.mp hin)).2.trans ?_)
    exact (hall m' hm' mid' hmid' (List.contains_iff_mem.mp hin')).2.symm

end Session

end OfferAnswer
