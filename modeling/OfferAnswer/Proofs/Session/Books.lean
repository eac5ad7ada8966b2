import OfferAnswer.Proofs.Session.Invariant
import OfferAnswer.Proofs.Session.Standing
import OfferAnswer.Proofs.Transport.Fleet

/-!
# The books of a session

A session takes ports when it places sections, and gives them back when it releases rejected
sections or closes. Between these it takes and gives nothing. So whatever others hold, the allocator
stays in step with the endpoints of the session through every call (`accounts_call`).

What is placed is summed up in `Placement.Grows`: besides the books, nothing is carried that was
neither carried before nor placed, and new endpoints have new identifiers. The stages of an exchange
are shown here together with the placement that they started from; the accounts of single sections
in `Offering` and `Answering` do not need it.
-/

namespace OfferAnswer

open PortAllocator (Accounts)

/-! ## Carried identifiers -/

namespace TransportBinding

variable {b b' : TransportBinding} {mid : Mid} {a : PortAllocator}

/-- Whether something carries a section. -/
def Carried (b : TransportBinding) (mid : Mid) : Prop := ∃ e ∈ b.endpoints, mid ∈ e.mids

theorem carried_iff : b.Carried mid ↔ b.carrier? mid ≠ none := by
  rw [Ne, carrier?_eq_none_iff, Carried]
  simp only [not_forall, not_not, exists_prop]

theorem carried_congr (h : b'.outline = b.outline) : b'.Carried mid ↔ b.Carried mid := by
  rw [carried_iff, carried_iff, carrier?_congr h]

theorem heldPorts_outline (b : TransportBinding) : b.outline.heldPorts = b.heldPorts := by
  rw [heldPorts, heldPorts, outline, List.flatMap_map]
  rfl

theorem heldPorts_congr (h : b'.outline = b.outline) : b'.heldPorts = b.heldPorts := by
  rw [← heldPorts_outline, h, heldPorts_outline]

/-- What an allocation leaves carried was carried before, or is what it was for. -/
theorem carried_allocate {m : Section} {range : PortRange} {joins : Option EndpointId}
    {carried : Mid} (h : (b.allocate a mid m range joins).2.1.Carried carried) :
    b.Carried carried ∨ carried = mid := by
  rcases hr : b.allocate a mid m range joins with ⟨err | id, b', a'⟩
  · rw [hr] at h
    obtain ⟨rfl, -⟩ := allocate_error hr
    exact .inl h
  · rw [hr] at h
    obtain ⟨e, he, hmem⟩ := h
    rcases allocate_ok hr with ⟨-, -, rfl, -⟩ | ⟨-, -, rtp, rtcp, -, rfl⟩
    · obtain ⟨e₀, he₀, rfl⟩ := mem_update.mp he
      split at hmem
      · exact (Endpoint.mem_carry.mp hmem).imp_left fun hm ↦ ⟨e₀, he₀, hm⟩
      · exact .inl ⟨e₀, he₀, hmem⟩
    · rcases List.mem_append.mp he with he | he
      · exact .inl ⟨e, he, hmem⟩
      · rw [List.mem_singleton.mp he, List.mem_singleton] at hmem
        exact .inr hmem

end TransportBinding

/-! ## Placing -/

namespace Placement

variable {p p' p'' : Placement} {mids mids' : List Mid}

/-- What placing sections does to endpoints and ports. -/
structure Grows (p p' : Placement) (mids : List Mid) : Prop where
  /-- The allocator stays in step, whatever others hold. -/
  accounts : ∀ others, Accounts p.ports (p.transport.heldPorts ++ others) →
    Accounts p'.ports (p'.transport.heldPorts ++ others)
  /-- What is carried was carried before, or was placed. -/
  carried : ∀ mid, p'.transport.Carried mid → p.transport.Carried mid ∨ mid ∈ mids

theorem Grows.refl (p : Placement) (mids : List Mid) : Grows p p mids :=
  ⟨fun _ h ↦ h, fun _ ↦ .inl⟩

theorem Grows.trans (h : Grows p p' mids) (h' : Grows p' p'' mids') :
    Grows p p'' (mids ++ mids') where
  accounts others hacc := h'.accounts others (h.accounts others hacc)
  carried mid hmid := by
    rw [List.mem_append]
    rcases h'.carried mid hmid with hbefore | hplaced
    · exact (h.carried mid hbefore).imp_right .inl
    · exact .inr (.inr hplaced)

theorem ports_settle (p : Placement) (bundled : Bool) (id : EndpointId) :
    (p.settle bundled id).ports = p.ports := by
  rw [settle]
  split <;> rfl

/-- To remember an endpoint is neither to take nor to carry. -/
theorem Grows.settle (h : Grows p p' mids) (bundled : Bool) (id : EndpointId) :
    Grows p (p'.settle bundled id) mids where
  accounts := by
    rw [transport_settle, ports_settle]
    exact h.accounts
  carried := by
    rw [transport_settle]
    exact h.carried

theorem grows_place (hp : p.Ready) (range : PortRange) (bundled : Bool) (mid : Mid)
    (m : Section) : Grows p (place range bundled mid m p).2 [mid] := by
  rw [place]
  cases p.transport.carrier? mid with
  | some id => exact (Grows.refl p [mid]).settle bundled id
  | none =>
    dsimp only
    have hwell := hp.exclusive.toWellFormed
    have hstep := hwell.step_allocate p.ports mid m range (if bundled then p.shared else none)
    have hcarried {other : Mid} (h : (p.transport.allocate p.ports mid m range
        (if bundled then p.shared else none)).2.1.Carried other) :
        p.transport.Carried other ∨ other = mid := TransportBinding.carried_allocate h
    rcases hr : p.transport.allocate p.ports mid m range (if bundled then p.shared else none) with
      ⟨result, transport, ports⟩
    rw [hr] at hstep hcarried
    have hgrows (fresh : List Mid) : Grows p
        { p with transport := transport, ports := ports, fresh := fresh } [mid] :=
      ⟨fun _ hacc ↦ TransportBinding.accounts_step hwell hstep hacc,
        fun _ h ↦ (hcarried h).imp_right List.mem_singleton.mpr⟩
    cases result with
    | error e => exact hgrows p.fresh
    | ok id => exact (hgrows (p.fresh ++ [mid])).settle bundled id

theorem grows_placeOne (hp : p.Ready) (range : PortRange) (isBundled : Mid → Bool)
    (refuse : Section → Section) (q : Planned) :
    Grows p (placeOne range isBundled refuse q p).2 [q.mid] := by
  rw [placeOne]
  split
  · exact .refl p _
  · have hplace := grows_place hp range (isBundled q.mid) q.mid q.body
    split <;> rename_i hr <;> rw [hr] at hplace <;> exact hplace

theorem grows_placeAll (hp : p.Ready) (range : PortRange) (isBundled : Mid → Bool)
    (plan : List (Planned × (Section → Section))) :
    Grows p (placeAll range isBundled plan p).2 (plan.map (·.1.mid)) := by
  induction plan generalizing p with
  | nil => exact .refl p _
  | cons x plan ih =>
    have hone := grows_placeOne hp range isBundled x.2 x.1
    obtain ⟨r, p₁, hr, hp₁, -⟩ := placeOne_ok hp range isBundled x.2 x.1
    obtain ⟨placed, p₂, hall, -⟩ := placeAll_ok hp₁ range isBundled plan
    have hrest := ih hp₁
    rw [hr] at hone
    rw [hall] at hrest
    rw [placeAll, hr]
    dsimp only
    rw [hall]
    exact hone.trans hrest

theorem grows_of_placeAll {b : TransportBinding} {ports : PortAllocator} (hb : b.Exclusive)
    {range : PortRange} {isBundled : Mid → Bool} {plan : List (Planned × (Section → Section))}
    {placed : List Planned} (h : placeAll range isBundled plan
      { transport := b, ports := ports } = (.ok placed, p')) :
    Grows { transport := b, ports := ports } p' (plan.map (·.1.mid)) := by
  have hall := grows_placeAll (ready_start hb ports) range isBundled plan
  rw [h] at hall
  exact hall

end Placement

/-! ## Committing -/

namespace Session

open TransportBinding (Keeps)

variable {s s' : Session} {ports : PortAllocator} {mid : Mid}

/-- Rejected sections give back what nobody else has. -/
theorem accounts_releaseRejected (hs : s.transport.Exclusive) (ns : List NegotiatedMedia)
    {others : List UInt16} (h : Accounts ports (s.transport.heldPorts ++ others)) :
    Accounts (s.releaseRejected ports ns).2
      ((s.releaseRejected ports ns).1.transport.heldPorts ++ others) := by
  induction ns generalizing s ports with
  | nil => exact h
  | cons n ns ih =>
    rw [releaseRejected]
    split
    · have hwell := hs.toWellFormed
      have hone := TransportBinding.accounts_step hwell (hwell.step_releaseMid ports n.mid) h
      have hexcl := (hs.releaseMid ports n.mid).1
      rcases hr : s.transport.releaseMid ports n.mid with ⟨transport, ports'⟩
      rw [hr] at hone hexcl
      let next : Session := { s with transport := transport }
      have hnext : (next.dropSsrc n.mid).transport = transport := transport_dropSsrc _ n.mid
      refine ih (s := next.dropSsrc n.mid) (hnext.symm ▸ hexcl) ?_
      rw [hnext]
      exact hone
    · exact ih hs h

/-- A commit only gives up: it keeps the books, and carries nothing that was not carried. -/
theorem accounts_commit (hs : s.transport.Exclusive) (ports : PortAllocator)
    (remote answer : Description) (ns : List NegotiatedMedia) (positions : List (Option Nat)) :
    (∀ others, Accounts ports (s.transport.heldPorts ++ others) →
      Accounts (s.commit ports remote answer ns positions).2
        ((s.commit ports remote answer ns positions).1.transport.heldPorts ++ others)) ∧
    ∀ mid, (s.commit ports remote answer ns positions).1.transport.Carried mid →
      s.transport.Carried mid := by
  have haccounts {others : List UInt16} (h : Accounts ports (s.transport.heldPorts ++ others)) :
      Accounts (s.releaseRejected ports ns).2
        ((s.releaseRejected ports ns).1.transport.heldPorts ++ others) :=
    accounts_releaseRejected hs ns h
  obtain ⟨-, -, -, hnone⟩ := transport_releaseRejected hs ports ns
  rw [commit]
  rcases hr : s.releaseRejected ports ns with ⟨s₁, ports₁⟩
  rw [hr] at haccounts hnone
  dsimp only at haccounts hnone ⊢
  obtain ⟨connection, hdetect, -⟩ :=
    detectRestart_forgetGone_eq s₁ (s.transport.endpoints.map (·.id)) remote
  rw [hdetect]
  have houtline := (registers_registerAll { s₁ with connection := connection } remote answer 0
    ns).outline_eq
  refine ⟨fun others h ↦ ?_, fun mid h ↦ ?_⟩
  · rw [TransportBinding.heldPorts_congr houtline]
    exact haccounts h
  · rw [TransportBinding.carried_congr houtline, TransportBinding.carried_iff] at h
    rw [TransportBinding.carried_iff]
    exact fun hc ↦ h (hnone mid (.inr hc))

end Session

/-- What is committed of an answer gives up only: it keeps the books of the placement, and carries
nothing else. -/
theorem Answering.committed_books {s : Session} {remote : Description} (run : Answering s remote) :
    (∀ others, Accounts run.place.ports (run.place.transport.heldPorts ++ others) →
      Accounts run.concluded.2 (run.concluded.1.transport.heldPorts ++ others)) ∧
    ∀ mid, run.concluded.1.transport.Carried mid → run.place.transport.Carried mid := by
  have hexcl := run.ready.exclusive.congr run.outline_secured
  obtain ⟨haccounts, hcarried⟩ := Session.accounts_commit hexcl run.place.ports remote
    run.answer run.outcomes.1 (run.placed.map Planned.handler)
  rw [concluded, Session.concludeAnswer]
  dsimp only
  rw [Session.transport_settle]
  refine ⟨fun others h ↦ haccounts others ?_, fun mid h ↦ ?_⟩
  · rw [TransportBinding.heldPorts_congr run.outline_secured]
    exact h
  · exact (TransportBinding.carried_congr run.outline_secured).mp (hcarried mid h)

theorem Accepting.committed_books {s : Session} {pending : PendingOffer} {answer : Description}
    (run : Accepting s pending answer) (hexcl : s.transport.Exclusive) (ports : PortAllocator) :
    (∀ others, Accounts ports (s.transport.heldPorts ++ others) →
      Accounts (run.concluded ports).2 ((run.concluded ports).1.transport.heldPorts ++ others)) ∧
    ∀ mid, (run.concluded ports).1.transport.Carried mid → s.transport.Carried mid := by
  obtain ⟨haccounts, hcarried⟩ := Session.accounts_commit
    (hexcl.congr run.outline_secured) ports answer answer run.outcomes.1 pending.handlers
  rw [concluded, Session.concludeAccept]
  dsimp only
  rw [Session.transport_settle]
  refine ⟨fun others h ↦ haccounts others ?_, fun mid h ↦ ?_⟩
  · rw [TransportBinding.heldPorts_congr run.outline_secured]
    exact h
  · exact (TransportBinding.carried_congr run.outline_secured).mp (hcarried mid h)

/-! ## Exchanges -/

namespace Session

variable {s s' : Session} {ports : PortAllocator}

theorem processOffer_placed (hs : s.Sound) {remote answer : Description}
    (h : (s.processOffer ports remote).result = .ok answer) :
    takesOffer s.state = true ∧ s.receiving.checkOffer remote = .ok () ∧
      ∃ run : Answering s.receiving remote,
        s.processOffer ports remote = ⟨.ok run.answer, run.concluded.1, run.concluded.2⟩ ∧
        Placement.placeAll s.config.portRange (remote.session.bundle?.getD []).contains
          (run.plan.zip (remote.sections.map fun m ↦ fun _ ↦ Section.rejected m))
          { transport := s.transport, ports := ports } = (.ok run.placed, run.place) := by
  rcases processOffer_cases hs.exclusive hs.hasPem hs.answerSetup_ne ports remote with
    ⟨e, hr⟩ | ⟨htakes, hcheck, planned, -⟩
  · rw [hr] at h
    cases h
  · obtain ⟨placed, place, hplace, -⟩ := Placement.placeAll_ok
      (Placement.ready_start hs.exclusive ports) s.config.portRange
      (remote.session.bundle?.getD []).contains
      (planned.plan.zip (remote.sections.map fun m ↦ fun _ ↦ Section.rejected m))
    obtain ⟨run, hplaced, hrunplace, hanswer⟩ := answerOffer_of_place (s := s.receiving)
      hs.exclusive hs.hasPem hs.answerSetup_ne hcheck planned.plan_eq hplace
    have hplan : planned.plan = run.plan := Except.ok.inj (planned.plan_eq.symm.trans run.plan_eq)
    refine ⟨htakes, hcheck, run, ?_, ?_⟩
    · rw [processOffer_eq htakes, hanswer]
      rfl
    · rw [← hplan, hplaced, hrunplace]
      exact hplace

/-! ## Calls between exchanges -/

/-- What calls between exchanges leave alone: the exchange, and the places of all sections. -/
structure SameExchange (s s' : Session) : Prop where
  /-- The handlers stay. -/
  handlers_eq : s'.handlers = s.handlers
  /-- The pending offer stays. -/
  pending_eq : s'.pending = s.pending
  /-- The outcome stays. -/
  negotiated_eq : s'.negotiated = s.negotiated
  /-- The handler of every negotiated section stays. -/
  sectionHandlers_eq : s'.sectionHandlers = s.sectionHandlers
  /-- No section moves. -/
  outline_eq : s'.transport.outline = s.transport.outline

theorem SameExchange.refl (s : Session) : SameExchange s s :=
  ⟨rfl, rfl, rfl, rfl, rfl⟩

theorem sameExchange_settle (s : Session) (connection : ConnectionMachine) :
    SameExchange s (settle { s with connection := connection }) := by
  rw [Session.settle]
  split
  · exact ⟨rfl, rfl, rfl, rfl, rfl⟩
  · exact ⟨rfl, rfl, rfl, rfl, rfl⟩

theorem sameExchange_addRemoteCandidate (s : Session) (ports : PortAllocator) (mid : Option Mid)
    (index : Option Nat) (line : String) :
    SameExchange s (s.addRemoteCandidate ports mid index line).session ∧
      (s.addRemoteCandidate ports mid index line).ports = ports := by
  rw [Session.addRemoteCandidate]
  split
  · exact ⟨.refl s, rfl⟩
  · exact ⟨.refl s, rfl⟩
  · split
    · exact ⟨.refl s, rfl⟩
    · exact ⟨.refl s, rfl⟩
    · split
      · exact ⟨.refl s, rfl⟩
      · split
        · exact ⟨.refl s, rfl⟩
        · rw [Session.addCandidateAt]
          split
          · exact ⟨.refl s, rfl⟩
          · split
            · exact ⟨.refl s, rfl⟩
            · exact ⟨⟨rfl, rfl, rfl, rfl, s.transport.outline_addRemoteCandidate _ _⟩, rfl⟩

end Session

/-- Whether a call comes between exchanges: it neither offers nor answers, and does not close. -/
def SessionCall.isBetween : SessionCall → Bool
  | .offer | .answer _ | .accept _ | .close => false
  | _ => true

namespace Session

variable {s : Session} {ports : PortAllocator} {others : List UInt16}

theorem sameExchange_call (s : Session) (ports : PortAllocator) {c : SessionCall}
    (hc : c.isBetween = true) :
    SameExchange s (s.call ports c).session ∧ (s.call ports c).ports = ports := by
  cases c with
  | localCandidate c =>
    rw [Session.call, Reply.map, Session.addLocalCandidate]
    split
    · exact ⟨.refl s, rfl⟩
    · split
      · exact ⟨.refl s, rfl⟩
      · exact ⟨⟨rfl, rfl, rfl, rfl, rfl⟩, rfl⟩
  | remoteCandidate mid index line => exact sameExchange_addRemoteCandidate s ports mid index line
  | restartIce =>
    rw [Session.call, Reply.map, Session.restartIce]
    split
    · exact ⟨.refl s, rfl⟩
    · exact ⟨⟨rfl, rfl, rfl, rfl, rfl⟩, rfl⟩
  | ice endpoint component state generation =>
    rw [Session.call, Reply.map, Session.handleIce]
    split
    · exact ⟨.refl s, rfl⟩
    · split
      · exact ⟨.refl s, rfl⟩
      · exact ⟨sameExchange_settle s _, rfl⟩
  | dtls endpoint generation =>
    rw [Session.call, Reply.map, Session.handleDtls]
    split
    · exact ⟨.refl s, rfl⟩
    · split
      · exact ⟨.refl s, rfl⟩
      · exact ⟨sameExchange_settle s _, rfl⟩
  | _ => exact Bool.noConfusion hc

/-! ## The books -/

/-- **The books of one call.** Whatever others hold, the ports in use are those of the endpoints of
the session and those of the others, after every call as before it. -/
theorem accounts_call (hs : s.Sound) (h : Accounts ports (s.transport.heldPorts ++ others))
    (c : SessionCall) :
    Accounts (s.call ports c).ports ((s.call ports c).session.transport.heldPorts ++ others) := by
  -- between exchanges no port moves
  by_cases hbetween : c.isBetween = true
  · obtain ⟨hsame, hports⟩ := sameExchange_call s ports hbetween
    rw [hports, TransportBinding.heldPorts_congr hsame.outline_eq]
    exact h
  cases c with
  | offer =>
    change Accounts (s.generateOffer ports).ports
      ((s.generateOffer ports).session.transport.heldPorts ++ others)
    rcases generateOffer_cases hs.exclusive ports with ⟨e, hr⟩ | ⟨-, made, hmade⟩
    · rw [hr]
      exact h
    · obtain ⟨run, hr, hplace⟩ := generateOffer_placed hs.exclusive (congrArg Reply.result hmade)
      obtain ⟨_, _, _, hwritten⟩ := run.written_eq
      rw [hr, hwritten]
      exact (Placement.grows_of_placeAll hs.exclusive hplace).accounts others h
  | answer remote =>
    change Accounts (s.processOffer ports remote).ports
      ((s.processOffer ports remote).session.transport.heldPorts ++ others)
    rcases processOffer_cases hs.exclusive hs.hasPem hs.answerSetup_ne ports remote with
      ⟨e, hr⟩ | ⟨-, -, made, hmade⟩
    · rw [hr]
      exact h
    · obtain ⟨-, -, run, hr, hplace⟩ := processOffer_placed hs (congrArg Reply.result hmade)
      rw [hr]
      -- placing takes ports, and committing gives some of them back
      have hgrows := Placement.grows_of_placeAll hs.exclusive hplace
      exact run.committed_books.1 others (hgrows.accounts others h)
  | accept answer =>
    change Accounts (s.processAnswer ports answer).ports
      ((s.processAnswer ports answer).session.transport.heldPorts ++ others)
    rcases processAnswer_cases hs.hasPem ports answer with ⟨e, hr⟩ | ⟨-, pending, -, run, hr⟩
    · rw [hr]
      exact h
    · rw [hr]
      exact (run.committed_books hs.exclusive ports).1 others h
  | close =>
    change Accounts (s.close ports).ports ((s.close ports).session.transport.heldPorts ++ others)
    rw [Session.close]
    split
    · exact h
    · exact TransportBinding.accounts_teardownAll h
  | _ => exact absurd rfl hbetween

end Session

end OfferAnswer
