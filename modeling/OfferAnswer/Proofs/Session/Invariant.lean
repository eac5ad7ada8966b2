import OfferAnswer.Proofs.Session.Accepting
import OfferAnswer.Proofs.Session.Answering
import OfferAnswer.Proofs.Session.Offering
import OfferAnswer.Session.Run

/-!
# What every reachable session keeps

`Session.Sound` is the invariant of a session. Two of its clauses are about the machines: lookups by
section are reliable, and the connection closes with the session. The others tie the outcome of the
last negotiation to the endpoints: an accepted section is carried by the endpoint it names.

## Sections that share an identifier

The last clause has an exception. Endpoints are given up by identifier, so an accepted section loses
its endpoint when another section of the same identifier is rejected. `Released` is that condition,
and the clause holds of every section that it leaves alone.
-/

namespace OfferAnswer

open Placement (Fate)

/-! ## Rows of an answer -/

namespace Answering

open Session

variable {s : Session} {remote : Description} (run : Answering s remote)

/-- A row ends in one of two ways. A rejected section has the outcome of one. An accepted section is
carried, names its carrier, and says its port. -/
theorem row_cases {i : Nat} {q r : Planned} {offered answered : Section} {n : NegotiatedMedia}
    (hrow : run.Row i q r offered answered n) :
    (answered.isRejected = true ∧ n = .refused (midAt remote i) offered) ∨
      ∃ e ∈ run.place.transport.endpoints, midAt remote i ∈ e.mids ∧
        answered.isRejected = false ∧ answered.port = e.rtpPort ∧
        n.mid = midAt remote i ∧ n.endpoint = some e.id ∧ n.rejected = false := by
  have hport : answered.port = r.body.port := by
    obtain ⟨ssrcs, e, h⟩ := hrow.written
    rw [h, port_decorate]
  have hsettled := hrow.settled
  rw [outcome] at hsettled
  cases hrej : answered.isRejected with
  | true =>
    rw [hrej] at hsettled
    exact Or.inl ⟨rfl, hsettled⟩
  | false =>
    rw [hrej, if_neg Bool.false_ne_true] at hsettled
    have hmid := mid_planAnswer hrow.planned
    -- a section has a port if it was placed, and then something carries it
    rw [Section.isRejected, hport] at hrej
    cases hrow.fate with
    | rejected h =>
      rw [Section.isRejected] at h
      exact Bool.noConfusion (hrej.symm.trans h)
    | refused _ => exact Bool.noConfusion hrej
    | @carried e _ he hcarries =>
      rw [hmid] at hcarries
      have hcarrier : run.written.2.transport.carrier? (midAt remote i) = some e.id := by
        rw [run.transport_written]
        exact run.ready.exclusive.carrier?_eq_some.mpr ⟨e, he, rfl, hcarries⟩
      refine Or.inr ⟨e, he, hcarries, rfl, hport.trans (Placement.port_writePorts e q.body), ?_⟩
      rw [hsettled]
      exact ⟨rfl, hcarrier, rfl⟩

theorem endpoint_eq_none_iff {n : NegotiatedMedia} (hn : n ∈ run.outcomes.1) :
    n.endpoint = none ↔ n.rejected = true := by
  obtain ⟨i, hi⟩ := List.mem_iff_getElem?.mp hn
  obtain ⟨q, r, offered, answered, -, -, hrow⟩ := run.exists_row hi
  rcases run.row_cases hrow with ⟨-, rfl⟩ | ⟨e, -, -, -, -, -, hend, hrej⟩
  · exact ⟨fun _ ↦ rfl, fun _ ↦ rfl⟩
  · rw [hend, hrej]
    exact ⟨nofun, nofun⟩

theorem carrier?_of_endpoint {n : NegotiatedMedia} (hn : n ∈ run.outcomes.1) {id : EndpointId}
    (hid : n.endpoint = some id) : run.place.transport.carrier? n.mid = some id := by
  obtain ⟨i, hi⟩ := List.mem_iff_getElem?.mp hn
  obtain ⟨q, r, offered, answered, -, -, hrow⟩ := run.exists_row hi
  rcases run.row_cases hrow with ⟨-, rfl⟩ | ⟨e, he, hcarries, -, -, hmid, hend, -⟩
  · cases hid
  · rw [hend, Option.some_inj] at hid
    rw [hmid, ← hid]
    exact run.ready.exclusive.carrier?_eq_some.mpr ⟨e, he, rfl, hcarries⟩

end Answering

namespace Accepting

open Session

variable {s : Session} {pending : PendingOffer} {answer : Description}
  (run : Accepting s pending answer)

theorem outcome_cases {n : NegotiatedMedia} (hn : n ∈ run.outcomes.1) :
    (n.endpoint = none ∧ n.rejected = true) ∨
      ∃ id, n.endpoint = some id ∧ n.rejected = false ∧
        s.transport.carrier? n.mid = some id := by
  obtain ⟨j, hj⟩ := List.mem_iff_getElem?.mp hn
  obtain ⟨p, x, -, hsettle⟩ := (settleSections_spec run.settle_eq).2.1 j n hj
  rcases settleSection_cases hsettle with ⟨rfl, -⟩ | ⟨id, codec, setup, hcarrier, -, rfl, -⟩
  · exact Or.inl ⟨rfl, rfl⟩
  · exact Or.inr ⟨id, rfl, rfl, hcarrier⟩

end Accepting

/-! ## The invariant -/

namespace Session

variable {s s' : Session} {ports : PortAllocator}

/-- What every operation keeps. -/
structure Sound (s : Session) : Prop where
  /-- The session was built from a configuration that is in order. -/
  configured : s.config.check = .ok s.handlers
  /-- Lookups by section are reliable. -/
  exclusive : s.transport.Exclusive
  /-- The connection is closed only with the session. -/
  connection_open : s.state ≠ .closed → s.connection.state ≠ .closed
  /-- Until then, exactly the accepted sections have an endpoint. -/
  endpoint_iff : s.state ≠ .closed → ∀ n ∈ s.negotiated, n.endpoint = none ↔ n.rejected = true
  /-- The endpoint of a section carries it, unless one of the same identifier has none. -/
  carried : ∀ n ∈ s.negotiated, ∀ id, n.endpoint = some id → ¬Released s.negotiated n.mid →
    s.transport.carrier? n.mid = some id

theorem Sound.hasPem (h : s.Sound) : s.HasPem :=
  fun _ hcert ↦ SessionConfig.isPem_of_certificate h.configured hcert

theorem Sound.answerSetup_ne (h : s.Sound) : s.config.answerSetup ≠ .actPass :=
  SessionConfig.answerSetup_ne_actPass h.configured

/-- A change that leaves configuration, outcome and endpoints alone keeps the invariant. -/
theorem Sound.frame (h : s.Sound) (hconfig : s'.config = s.config)
    (hhandlers : s'.handlers = s.handlers) (hnegotiated : s'.negotiated = s.negotiated)
    (houtline : s'.transport.outline = s.transport.outline)
    (hstate : s'.state ≠ .closed → s.state ≠ .closed)
    (hconn : s'.connection.state = .closed → s.connection.state = .closed) : s'.Sound where
  configured := by
    rw [hconfig, hhandlers]
    exact h.configured
  exclusive := h.exclusive.congr houtline
  connection_open := fun hopen hc ↦ h.connection_open (hstate hopen) (hconn hc)
  endpoint_iff := fun hopen ↦ by
    rw [hnegotiated]
    exact h.endpoint_iff (hstate hopen)
  carried := by
    rw [hnegotiated]
    intro n hn id hid hkept
    rw [TransportBinding.carrier?_congr houtline]
    exact h.carried n hn id hid hkept

/-- Committing an outcome whose endpoints carry their sections establishes the invariant. -/
theorem Committed.sound {remote : Description} {ns : List NegotiatedMedia}
    {positions : List (Option Nat)} (h : Committed s s' remote ns positions)
    (hconfig : s.config.check = .ok s.handlers) (hopen : s.connection.state ≠ .closed)
    (hends : ∀ n ∈ ns, n.endpoint = none ↔ n.rejected = true)
    (hcarried : ∀ n ∈ ns, ∀ id, n.endpoint = some id → s.transport.carrier? n.mid = some id) :
    s'.Sound := by
  have hexcl := h.exclusive
  have hkeeps := h.keeps
  have hclosed := h.closed_iff
  obtain ⟨_, _, _, _, _, rfl⟩ := h.record
  exact ⟨hconfig, hexcl, fun _ hc ↦ hopen (hclosed.mp hc), fun _ ↦ hends,
    fun n hn id hid hkept ↦ hkeeps.carrier? hexcl hkept (hcarried n hn id hid)⟩

/-! ## Operations -/

/-- A session is built from a configuration that is in order, and nothing else can be built. -/
theorem build_eq {config : SessionConfig} {e : Entropy} (h : build config e = .ok s) :
    ∃ handlers, config.check = .ok handlers ∧ s = create config handlers e := by
  rw [build] at h
  cases hcheck : config.check with
  | error err =>
    rw [hcheck] at h
    cases h
  | ok handlers =>
    rw [hcheck] at h
    cases h
    exact ⟨handlers, rfl, rfl⟩

theorem sound_build {config : SessionConfig} {e : Entropy} (h : build config e = .ok s) :
    s.Sound := by
  obtain ⟨handlers, hcheck, rfl⟩ := build_eq h
  exact ⟨hcheck, TransportBinding.exclusive_empty, fun _ ↦ ConnectionState.noConfusion,
    fun _ _ hn ↦ absurd hn List.not_mem_nil, fun _ hn ↦ absurd hn List.not_mem_nil⟩

theorem Sound.generateOffer (h : s.Sound) (ports : PortAllocator) :
    (s.generateOffer ports).session.Sound := by
  rcases generateOffer_cases h.exclusive ports with ⟨e, hr⟩ | ⟨hopen, run, hr⟩
  · rw [hr]
    exact h
  · rw [hr]
    obtain ⟨_, _, _, hw⟩ := run.written_eq
    rw [hw]
    exact ⟨h.configured, run.ready.exclusive, fun _ ↦ h.connection_open hopen,
      fun _ ↦ h.endpoint_iff hopen, fun n hn id hid hkept ↦
        run.keeps.carrier? run.ready.exclusive trivial (h.carried n hn id hid hkept)⟩

theorem takesOffer_ne_closed (h : takesOffer s.state = true) : s.state ≠ .closed := by
  intro hc
  rw [hc] at h
  cases h

/-- The session that an answer leaves, before the descriptions are stored, is sound. -/
theorem Sound.answering {remote : Description} (h : s.Sound)
    (hopen : s.state ≠ .closed) (run : Answering s.receiving remote)
    (hcommit : Committed run.secured s' remote run.outcomes.1
      (run.placed.map Planned.handler)) : s'.Sound := by
  refine hcommit.sound ?_ ?_ (fun n hn ↦ run.endpoint_eq_none_iff hn) fun n hn id hid ↦ ?_
  · change run.written.2.config.check = .ok run.written.2.handlers
    rw [run.config_written, run.handlers_written]
    exact h.configured
  · change run.written.2.connection.state ≠ .closed
    rw [run.connection_written]
    exact h.connection_open hopen
  · rw [TransportBinding.carrier?_congr run.outline_secured]
    exact run.carrier?_of_endpoint hn hid

theorem Sound.processOffer (h : s.Sound) (ports : PortAllocator) (remote : Description) :
    (s.processOffer ports remote).session.Sound := by
  rcases processOffer_cases h.exclusive h.hasPem h.answerSetup_ne ports remote with
    ⟨e, hr⟩ | ⟨htakes, -, run, hr⟩
  · rw [hr]
    exact h
  · rw [hr]
    obtain ⟨s₁, state, hcommit, -, hs⟩ := run.concluded_spec
    have hopen := takesOffer_ne_closed htakes
    have h₁ := h.answering hopen run hcommit
    have hstate : s₁.state = .offerReceived := by
      obtain ⟨_, _, _, _, _, hrec⟩ := hcommit.record
      obtain ⟨_, _, _, hw⟩ := run.written_eq
      rw [hrec]
      change run.written.2.state = _
      rw [hw]
      rfl
    rw [hs]
    exact h₁.frame rfl rfl rfl rfl (fun _ ↦ hstate ▸ NegotiationState.noConfusion) fun hc ↦ hc

theorem Sound.processAnswer (h : s.Sound) (ports : PortAllocator) (answer : Description) :
    (s.processAnswer ports answer).session.Sound := by
  rcases processAnswer_cases h.hasPem ports answer with ⟨e, hr⟩ | ⟨hstate, pending, -, run, hr⟩
  · rw [hr]
    exact h
  · rw [hr]
    obtain ⟨s₁, state, hcommit, -, hs⟩ := run.concluded_spec h.exclusive ports
    have hopen : s.state ≠ .closed := hstate ▸ NegotiationState.noConfusion
    have h₁ : s₁.Sound := by
      refine hcommit.sound h.configured (h.connection_open hopen) (fun n hn ↦ ?_)
        fun n hn id hid ↦ ?_
      · rcases run.outcome_cases hn with ⟨hnone, hrej⟩ | ⟨id, hid, hrej, -⟩
        · rw [hnone, hrej]
          exact ⟨fun _ ↦ rfl, fun _ ↦ rfl⟩
        · rw [hid, hrej]
          exact ⟨nofun, nofun⟩
      · rw [TransportBinding.carrier?_congr run.outline_secured]
        rcases run.outcome_cases hn with ⟨hnone, -⟩ | ⟨id', hid', -, hcarrier⟩
        · rw [hnone] at hid
          cases hid
        · rw [← hid, hid']
          exact hcarrier
    have hstate₁ : s₁.state ≠ .closed := by
      obtain ⟨_, _, _, _, _, hrec⟩ := hcommit.record
      rw [hrec]
      exact hopen
    rw [hs]
    exact h₁.frame rfl rfl rfl rfl (fun _ ↦ hstate₁) fun hc ↦ hc

theorem Sound.addLocalCandidate (h : s.Sound) (ports : PortAllocator) (c : Candidate) :
    (s.addLocalCandidate ports c).session.Sound := by
  rw [Session.addLocalCandidate]
  split
  · exact h
  · split
    · exact h
    · exact h.frame rfl rfl rfl rfl (fun hs ↦ hs) fun hc ↦ hc

theorem Sound.addCandidateAt (h : s.Sound) (ports : PortAllocator) (remote : Description)
    (c : Candidate) (i : Nat) (n : NegotiatedMedia) :
    (s.addCandidateAt ports remote c i n).session.Sound := by
  rw [Session.addCandidateAt]
  split
  · exact h
  · split
    · exact h
    · exact h.frame rfl rfl rfl (s.transport.outline_addRemoteCandidate _ c) (fun hs ↦ hs)
        fun hc ↦ hc

theorem Sound.addRemoteCandidate (h : s.Sound) (ports : PortAllocator) (mid : Option Mid)
    (index : Option Nat) (line : String) :
    (s.addRemoteCandidate ports mid index line).session.Sound := by
  rw [Session.addRemoteCandidate]
  split
  · exact h
  · exact h
  · split
    · exact h
    · exact h
    · split
      · exact h
      · split
        · exact h
        · exact h.addCandidateAt ports _ _ _ _

/-- Restarting moves an established session back to the state it was settled in, and that was not
closed. -/
theorem Sound.restartIce (h : s.Sound) (ports : PortAllocator) :
    (s.restartIce ports).session.Sound := by
  rw [Session.restartIce]
  split
  · exact h
  · rename_i hmay
    refine h.frame rfl rfl rfl rfl (fun _ hc ↦ ?_) s.connection.state_restart_eq_closed.mp
    rw [hc] at hmay
    exact hmay rfl

theorem Sound.settle (h : s.Sound) : s.settle.Sound := by
  obtain ⟨state, hstate, hs⟩ := settle_eq s
  rw [hs]
  refine h.frame rfl rfl rfl rfl (fun hopen ↦ ?_) fun hc ↦ hc
  rcases hstate with rfl | ⟨hopen, -⟩
  · exact hopen
  · exact hopen

theorem Sound.handleIce (h : s.Sound) (ports : PortAllocator) (endpoint : EndpointId)
    (component : IceComponent) (state : IceState) (generation : Nat) :
    (s.handleIce ports endpoint component state generation).session.Sound := by
  rw [Session.handleIce]
  split
  · exact h
  · split
    · exact h
    · exact Sound.settle (h.frame rfl rfl rfl rfl (fun hs ↦ hs)
        (s.connection.state_handleIce_eq_closed endpoint component state generation).mp)

theorem Sound.handleDtls (h : s.Sound) (ports : PortAllocator) (endpoint : EndpointId)
    (generation : Nat) : (s.handleDtls ports endpoint generation).session.Sound := by
  rw [Session.handleDtls]
  split
  · exact h
  · split
    · exact h
    · exact Sound.settle (h.frame rfl rfl rfl rfl (fun hs ↦ hs)
        (s.connection.state_handleDtls_eq_closed endpoint generation).mp)

theorem Sound.close (h : s.Sound) (ports : PortAllocator) : (s.close ports).session.Sound := by
  rw [Session.close]
  split
  · exact h
  · refine ⟨h.configured, TransportBinding.Exclusive.teardownAll s.transport ports,
      fun hopen ↦ absurd rfl hopen, fun hopen ↦ absurd rfl hopen, fun n hn id hid ↦ ?_⟩
    obtain ⟨n', -, rfl⟩ := List.mem_map.mp hn
    cases hid

/-- A new session for data channels. -/
def ofChannels (e : Entropy) : Session :=
  create { handlers := [.sctp {}] } [.sctp {}] e

theorem reachable_ofChannels (e : Entropy) : (ofChannels e).Reachable :=
  .build (show build { handlers := [.sctp {}] } e = .ok (ofChannels e) from rfl)

/-- **Every operation keeps the invariant**, whatever it returns. -/
theorem Sound.call (h : s.Sound) (ports : PortAllocator) (c : SessionCall) :
    (s.call ports c).session.Sound := by
  cases c with
  | offer => exact h.generateOffer ports
  | answer offer => exact h.processOffer ports offer
  | accept answer => exact h.processAnswer ports answer
  | localCandidate c => exact h.addLocalCandidate ports c
  | remoteCandidate mid index line => exact h.addRemoteCandidate ports mid index line
  | restartIce => exact h.restartIce ports
  | ice endpoint component state generation =>
    exact h.handleIce ports endpoint component state generation
  | dtls endpoint generation => exact h.handleDtls ports endpoint generation
  | close => exact h.close ports

theorem Reachable.sound (h : s.Reachable) : s.Sound := by
  induction h with
  | build hbuild => exact sound_build hbuild
  | call ports c _ ih => exact ih.call ports c
  | rtcp buffer _ ih => exact ih.frame rfl rfl rfl rfl (fun hs ↦ hs) fun hc ↦ hc

end Session

end OfferAnswer
