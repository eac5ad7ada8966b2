import OfferAnswer.Proofs.Session.Listening

/-!
# Where packets go after an exchange

A packet from an unknown source goes by its payload type. It should go to a section that lists the
type in the answer, or nowhere; and if a single section at the endpoint lists it, then there. A type
that nobody has goes to the first section that lists it, so this holds at every new endpoint. But a
type that a section has stays with it, whether it is listed there any longer or not, until the
section is rejected. So packets are misrouted exactly by what earlier exchanges have left behind:
`Outdated` entries.
-/

namespace OfferAnswer.Session

variable {s s' base : Session} {remote answer : Description} {id : EndpointId} {t : PayloadType}
  {mid : Mid} {d : Demux} {buffer : Bytes}

/-- Outcomes with the formats of their sections in the answer. -/
def listings (s : Session) (answer : Description) : List (NegotiatedMedia × List String) :=
  s.negotiated.zip (answer.sections.map Section.formats)

/-- Whether a section is the right one for a payload type at an endpoint: a section of its
identifier lists the type, and if a single accepted audio or video section at the endpoint does, it
is that. -/
def IsRightFor (s : Session) (answer : Description) (id : EndpointId) (t : PayloadType)
    (mid : Mid) : Prop :=
  (∃ x ∈ s.listings answer, x.1.mid = mid ∧ t ∈ payloadTypes x.2) ∧
    ∀ x, (s.listings answer).filter (lists id t) = [x] → x.1.mid = mid

/-- Whether a packet goes to the right section of an endpoint, or to none if no single one lists its
payload type. -/
def RoutesRight (s : Session) (answer : Description) (id : EndpointId) (d : Demux)
    (buffer : Bytes) : Prop :=
  (∀ mid, d.route buffer = some mid →
    ∃ x ∈ s.listings answer, x.1.mid = mid ∧ Demux.typeOf buffer ∈ payloadTypes x.2) ∧
  ∀ x, (s.listings answer).filter (lists id (Demux.typeOf buffer)) = [x] →
    d.route buffer = some x.1.mid

/-- Whether a section is given up at an endpoint: a section of its identifier is rejected, and the
endpoint carried it, or carries another section of that identifier now. -/
def GivenUp (s s' : Session) (id : EndpointId) (mid : Mid) : Prop :=
  (∃ n ∈ s'.negotiated, n.mid = mid ∧ n.rejected = true) ∧
    (s.transport.carrier? mid = some id ∨
      ∃ n ∈ s'.negotiated, n.mid = mid ∧ n.endpoint = some id)

/-- Whether an endpoint has had a payload type at a section that is not the right one any longer,
and is not given up. -/
def Outdated (s s' : Session) (answer : Description) (id : EndpointId) (t : PayloadType) : Prop :=
  ∃ mid, (s.transport.demuxOf id).ofType? t = some mid ∧ ¬GivenUp s s' id mid ∧
    ¬s'.IsRightFor answer id t mid

/-- A section alone is the right one for what it lists. -/
theorem isRightFor_of_single {x : NegotiatedMedia × List String} (hx : s.listings answer = [x])
    (hmid : x.1.mid = mid) (ht : t ∈ payloadTypes x.2) : s.IsRightFor answer id t mid := by
  rw [IsRightFor, hx]
  refine ⟨⟨x, List.mem_singleton_self x, hmid, ht⟩, fun y hy ↦ ?_⟩
  have hmem : y ∈ [x].filter (lists id t) := hy ▸ List.mem_singleton_self y
  rwa [List.mem_singleton.mp (List.mem_of_mem_filter hmem)]

theorem route_of_unknown (hrtp : Demux.isRtp buffer = true)
    (hunknown : d.ofSsrc? (Demux.ssrcOf buffer) = none) :
    d.route buffer = d.ofType? (Demux.typeOf buffer) := by
  rw [Demux.route, if_pos hrtp, hunknown, Option.none_or]

theorem Concludes.givenUp_iff (h : Concludes s base s' remote answer) :
    GivenUp s s' id mid ↔
      Released s'.negotiated mid ∧ base.transport.carrier? mid = some id := by
  have hreleased : (∃ n ∈ s'.negotiated, n.mid = mid ∧ n.rejected = true) ↔
      Released s'.negotiated mid := by
    refine exists_congr fun n ↦ and_congr_right fun hn ↦ ?_
    rw [← h.endpoint_iff n hn, and_comm]
  rw [GivenUp, hreleased]
  refine and_congr_right fun _ ↦ ⟨?_, h.origin mid id⟩
  rintro (hbefore | ⟨n, hn, rfl, hid⟩)
  · exact h.keeps.carrier? h.exclusive trivial hbefore
  · exact h.carried n hn id hid

/-- A packet goes right exactly if what was kept for its type is right. -/
theorem routesRight_iff {kept : Option Mid} (hrtp : Demux.isRtp buffer = true)
    (hunknown : d.ofSsrc? (Demux.ssrcOf buffer) = none)
    (hfirst : d.ofType? (Demux.typeOf buffer) = kept.or
      (((s.listings answer).find? (lists id (Demux.typeOf buffer))).map (·.1.mid))) :
    s.RoutesRight answer id d buffer ↔
      ∀ mid, kept = some mid → s.IsRightFor answer id (Demux.typeOf buffer) mid := by
  rw [RoutesRight, route_of_unknown hrtp hunknown, hfirst]
  cases kept with
  | some mid =>
    rw [Option.some_or]
    constructor
    · rintro ⟨hlisted, honly⟩ mid' hmid
      obtain rfl := Option.some_inj.mp hmid
      exact ⟨hlisted mid rfl, fun x hx ↦ (Option.some_inj.mp (honly x hx)).symm⟩
    · intro hright
      obtain ⟨hlisted, honly⟩ := hright mid rfl
      refine ⟨fun _ hmid ↦ ?_, fun x hx ↦ congrArg some (honly x hx).symm⟩
      rwa [← Option.some_inj.mp hmid]
  | none =>
    rw [Option.none_or]
    refine iff_of_true ⟨fun mid hmid ↦ ?_, fun x hx ↦ ?_⟩ nofun
    · -- the first section that lists the type does list it
      obtain ⟨x, hx, rfl⟩ := Option.map_eq_some_iff.mp hmid
      have hlists := List.find?_some hx
      rw [lists, Bool.and_eq_true, List.contains_iff_mem] at hlists
      exact ⟨x, List.mem_of_find?_eq_some hx, rfl, hlists.2⟩
    · rw [← List.head?_filter, hx]
      rfl

/-- Whether packets from unknown sources go right after an exchange, at every endpoint that is live:
all but those whose payload type is outdated there. -/
def RoutesByAnswer (s s' : Session) (answer : Description) : Prop :=
  ∀ id e, s'.transport.endpoint? id = some e → ∀ buffer, Demux.isRtp buffer = true →
    e.demux.ofSsrc? (Demux.ssrcOf buffer) = none →
      (s'.RoutesRight answer id e.demux buffer ↔
        ¬Outdated s s' answer id (Demux.typeOf buffer))

theorem Concludes.routesByAnswer (h : Concludes s base s' remote answer) (hs : s.StreamsKeyed) :
    RoutesByAnswer s s' answer := by
  intro id e he buffer hrtp hunknown
  have halive : s'.transport.isAlive id = true :=
    TransportBinding.isAlive_iff_endpoint?.mpr ⟨e, he⟩
  obtain ⟨-, htypes⟩ := h.types halive (hs.types id)
  obtain ⟨kept, hkept, hfirst⟩ := htypes (Demux.typeOf buffer)
  rw [TransportBinding.demuxOf_of_endpoint? he] at hfirst
  rw [routesRight_iff hrtp hunknown hfirst, Outdated]
  constructor
  · rintro hright ⟨mid, hold, hstays, hwrong⟩
    rw [h.givenUp_iff] at hstays
    exact hwrong (hright mid ((hkept mid).mpr ⟨hold, hstays⟩))
  · intro hcurrent mid hmid
    obtain ⟨hold, hstays⟩ := (hkept mid).mp hmid
    rw [← h.givenUp_iff] at hstays
    by_contra hwrong
    exact hcurrent ⟨mid, hold, hstays, hwrong⟩

/-- **Packets follow the answer, but for outdated payload types.** Whatever a session that was built
has been through: when it answers an offer or applies an answer, a packet from an unknown source
goes to the right section of an endpoint, exactly if no earlier exchange has left its payload type
there with a section that is not. -/
theorem packets_follow_answer (hs : s.Reachable) (ports : PortAllocator) :
    (∀ remote answer, (s.processOffer ports remote).result = .ok answer →
      RoutesByAnswer s (s.processOffer ports remote).session answer) ∧
    ∀ answer, (s.processAnswer ports answer).result = .ok () →
      RoutesByAnswer s (s.processAnswer ports answer).session answer := by
  constructor
  · intro remote answer h
    obtain ⟨base, hconcludes⟩ := concludes_processOffer hs.sound h
    exact hconcludes.routesByAnswer hs.streamsKeyed
  · intro answer h
    obtain ⟨base, hconcludes⟩ := concludes_processAnswer hs.sound h
    exact hconcludes.routesByAnswer hs.streamsKeyed

/-- An offer of one audio section with given formats. -/
def audioIn (formats : List String) : Description where
  session := { id := 1, version := 1 }
  sections := [audioSection "a" formats []]

/-- A packet of payload type 0. -/
def typeZero : Bytes := [0x80, 0, 0, 1, 0, 0, 0, 0, 0, 0, 0, 7]

/-- A payload type that is offered again goes where it went. -/
theorem offered_again_routes_right :
    let first := (ofAudio ⟨fun i ↦ i, 0⟩).call {} (.answer (audioIn ["0"]))
    let second := first.session.processOffer first.ports (audioIn ["0", "8"])
    ∃ answer e, second.result = .ok answer ∧ second.session.transport.endpoint? 1 = some e ∧
      second.session.RoutesRight answer 1 e.demux typeZero := by
  intro first second
  have hs : first.session.Reachable := .call {} (.answer (audioIn ["0"])) (reachable_ofAudio _)
  have hendpoint : (second.session.transport.endpoint? 1).any
      (fun e ↦ (e.demux.ofSsrc? (Demux.ssrcOf typeZero)).isNone) = true := by
    decide +kernel
  obtain ⟨e, he, hunknown⟩ := (Option.any_eq_true _ _).mp hendpoint
  have hrun : second.result.toOption.map (fun answer ↦
      (second.session.listings answer).map fun x ↦ (x.1.mid, payloadTypes x.2)) =
        some [(.ofText "a", [0, 8])] := by
    decide +kernel
  have hold : (first.session.transport.demuxOf 1).ofType? 0 = some (.ofText "a") := by
    decide +kernel
  cases h : second.result with
  | error e =>
    rw [h] at hrun
    cases hrun
  | ok answer =>
    rw [h] at hrun
    obtain ⟨x, hlistings, hx⟩ := List.map_eq_singleton_iff.mp (Option.some.inj hrun)
    obtain ⟨hmid, htypes⟩ := Prod.ext_iff.mp hx
    have hroutes : RoutesByAnswer first.session second.session answer :=
      (packets_follow_answer hs first.ports).1 (audioIn ["0", "8"]) answer h
    refine ⟨answer, e, rfl, he, (hroutes 1 e he typeZero (by decide)
      (Option.isNone_iff_eq_none.mp hunknown)).mpr ?_⟩
    rintro ⟨mid, hkept, -, hwrong⟩
    obtain rfl := Option.some_inj.mp (hold.symm.trans hkept)
    refine hwrong (isRightFor_of_single hlistings hmid ?_)
    rw [show payloadTypes x.2 = [0, 8] from htypes]
    exact List.mem_cons_self

/-- A payload type that is dropped goes where it went, too. -/
theorem dropped_type_misrouted :
    ¬∀ (s : Session) (ports : PortAllocator) (remote answer : Description), s.Reachable →
      (s.processOffer ports remote).result = .ok answer →
        let s' := (s.processOffer ports remote).session
        ∀ id e, s'.transport.endpoint? id = some e → ∀ buffer, Demux.isRtp buffer = true →
          e.demux.ofSsrc? (Demux.ssrcOf buffer) = none →
            s'.RoutesRight answer id e.demux buffer := by
  intro hright
  let first := (ofAudio ⟨fun i ↦ i, 0⟩).call {} (.answer (audioIn ["0", "8"]))
  have hrun := fun answer ↦ hright first.session first.ports (audioIn ["8"]) answer
    (.call {} (.answer (audioIn ["0", "8"])) (reachable_ofAudio _))
  have hstale : (((first.session.processOffer first.ports
      (audioIn ["8"])).session.transport.endpoint? 1).any fun e ↦
        (e.demux.ofSsrc? (Demux.ssrcOf typeZero)).isNone &&
          e.demux.route typeZero == some (.ofText "a")) = true := by
    decide +kernel
  have hlists : (first.session.processOffer first.ports (audioIn ["8"])).result.toOption.map
      (fun answer ↦ answer.sections.map fun m ↦ payloadTypes m.formats) = some [[8]] := by
    decide +kernel
  generalize first.session.processOffer first.ports (audioIn ["8"]) = r at hrun hstale hlists
  obtain ⟨e, he, hstale⟩ := (Option.any_eq_true _ _).mp hstale
  rw [Bool.and_eq_true, Option.isNone_iff_eq_none, beq_iff_eq] at hstale
  cases h : r.result with
  | error e =>
    rw [h] at hlists
    cases hlists
  | ok answer =>
    rw [h] at hlists
    -- no section of the answer lists the type
    have htypes : ∀ m ∈ answer.sections, payloadTypes m.formats = [8] := fun m hm ↦
      List.mem_singleton.mp (Option.some.inj hlists ▸ List.mem_map_of_mem hm)
    obtain ⟨x, hx, -, hlisted⟩ := (hrun answer h 1 e he typeZero (by decide) hstale.1).1 _ hstale.2
    obtain ⟨m, hm, hformats⟩ := List.mem_map.mp (List.of_mem_zip hx).2
    rw [← hformats, htypes m hm] at hlisted
    exact absurd hlisted (by decide)

end OfferAnswer.Session
