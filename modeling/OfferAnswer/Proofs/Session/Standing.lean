import OfferAnswer.Proofs.Session.Accepting
import OfferAnswer.Proofs.Session.Answering
import OfferAnswer.Proofs.Session.Rewriting

/-!
# Commits that give up nothing

A commit works on sources and endpoints by identifier. A section keeps its source unless one of its
identifier has no endpoint, and if nothing carries the sections without an endpoint, all endpoints
and ports stay. So when an outcome is committed a second time, the session can write everything that
it has written before.
-/

namespace OfferAnswer

namespace Session

variable {s : Session} {mid : Mid} {ns : List NegotiatedMedia}

/-! ## Sources -/

theorem ssrc?_dropSsrc_of_ne {mid' : Mid} (h : mid' ≠ mid) (s : Session) :
    (s.dropSsrc mid').ssrc? mid = s.ssrc? mid := by
  rw [dropSsrc]
  split
  · rw [ssrc?, ssrc?, List.find?_filter]
    congr 2
    funext x
    by_cases hx : x.1 = mid
    · simp [hx, h.symm]
    · simp [hx]
  · rfl

/-- A section keeps its source unless one of its identifier has no endpoint. -/
theorem ssrc?_releaseRejected (h : ¬Released ns mid) (s : Session) (ports : PortAllocator) :
    (s.releaseRejected ports ns).1.ssrc? mid = s.ssrc? mid := by
  induction ns generalizing s ports with
  | nil => rfl
  | cons n ns ih =>
    have hrest : ¬Released ns mid := fun ⟨n', hn', hnone⟩ ↦
      h ⟨n', List.mem_cons_of_mem n hn', hnone⟩
    rw [releaseRejected]
    split
    · rename_i hnone
      have hne : n.mid ≠ mid := fun heq ↦
        h ⟨n, List.mem_cons_self, Option.isNone_iff_eq_none.mp hnone, heq⟩
      exact (ih hrest _ _).trans (ssrc?_dropSsrc_of_ne hne _)
    · exact ih hrest s ports

theorem ssrc?_registerMedia {v : Ssrc} (h : s.ssrc? mid = some v) (mid' : Mid)
    (endpoint : EndpointId) (remote : Section) (formats : List String) :
    (s.registerMedia mid' endpoint remote formats).ssrc? mid = some v :=
  (writesAs_ensureSsrc s mid' mid).ssrc?_eq v h

theorem ssrc?_register {v : Ssrc} (h : s.ssrc? mid = some v) (n : NegotiatedMedia)
    (endpoint : EndpointId) (remote : Section) (formats : List String) :
    (s.register n endpoint remote formats).ssrc? mid = some v := by
  have hfollow (s : Session) : (s.followEndpoint endpoint).ssrc? mid = s.ssrc? mid := by
    rw [followEndpoint]
    split <;> rfl
  have hcandidates : Session.ssrc?
      { s with transport := addCandidates s.transport endpoint remote.candidates } mid = some v := h
  rw [register, hfollow]
  split
  · exact ssrc?_registerMedia hcandidates n.mid endpoint remote formats
  · exact hcandidates

theorem ssrc?_registerAll {v : Ssrc} (h : s.ssrc? mid = some v) (remote answer : Description)
    (i : Nat) (ns : List NegotiatedMedia) :
    (s.registerAll remote answer i ns).ssrc? mid = some v := by
  induction ns generalizing s i with
  | nil => exact h
  | cons n ns ih =>
    rw [registerAll]
    apply ih
    split
    · exact ssrc?_register h n _ _ _
    · exact h

/-- **After a commit, a session writes as before** in every section that gave up nothing. -/
theorem writesAs_commit (hexcl : s.transport.Exclusive) (h : ¬Released ns mid)
    (ports : PortAllocator) (remote answer : Description) (positions : List (Option Nat)) :
    WritesAs s (s.commit ports remote answer ns positions).1 mid := by
  have hrecord := (committed_commit hexcl ports remote answer ns positions).record
  have hssrc : ∀ v, s.ssrc? mid = some v →
      (s.commit ports remote answer ns positions).1.ssrc? mid = some v := by
    intro v hv
    rw [← ssrc?_releaseRejected h s ports] at hv
    rw [commit]
    obtain ⟨connection, hdetect, -⟩ := detectRestart_forgetGone_eq
      (s.releaseRejected ports ns).1 (s.transport.endpoints.map (·.id)) remote
    dsimp only
    rw [hdetect]
    exact ssrc?_registerAll (s := { (s.releaseRejected ports ns).1 with connection := connection })
      hv remote answer 0 ns
  obtain ⟨_, _, _, _, _, hrec⟩ := hrecord
  rw [hrec] at hssrc ⊢
  exact ⟨rfl, rfl, rfl, rfl, hssrc⟩

/-! ## Endpoints and ports -/

/-- Sections that nothing carries have nothing to give up but their sources. -/
theorem releaseRejected_of_uncarried (ports : PortAllocator)
    (h : ∀ n ∈ ns, n.endpoint = none → s.transport.carrier? n.mid = none) :
    (s.releaseRejected ports ns).1.transport = s.transport ∧
      (s.releaseRejected ports ns).2 = ports := by
  induction ns generalizing s with
  | nil => exact ⟨rfl, rfl⟩
  | cons n ns ih =>
    have hrest : ∀ n ∈ ns, n.endpoint = none → s.transport.carrier? n.mid = none :=
      fun n' hn' ↦ h n' (List.mem_cons_of_mem n hn')
    rw [releaseRejected]
    split
    · rename_i hnone
      have huncarried := h n List.mem_cons_self (Option.isNone_iff_eq_none.mp hnone)
      have hrelease : s.transport.releaseMid ports n.mid = (s.transport, ports) := by
        rw [TransportBinding.releaseMid, huncarried]
      have hsame := transport_dropSsrc s n.mid
      rw [hrelease]
      dsimp only
      obtain ⟨htransport, hports⟩ := ih (s := s.dropSsrc n.mid) (by rwa [hsame])
      exact ⟨htransport.trans hsame, hports⟩
    · exact ih hrest

/-- **A commit leaves endpoints and ports where they are** if nothing carries what is rejected. -/
theorem commit_of_uncarried (ports : PortAllocator) (remote answer : Description)
    (positions : List (Option Nat))
    (h : ∀ n ∈ ns, n.endpoint = none → s.transport.carrier? n.mid = none) :
    (s.commit ports remote answer ns positions).1.transport.outline = s.transport.outline ∧
      (s.commit ports remote answer ns positions).2 = ports := by
  obtain ⟨htransport, hports⟩ := releaseRejected_of_uncarried ports h
  rw [commit]
  obtain ⟨connection, hdetect, -⟩ := detectRestart_forgetGone_eq
    (s.releaseRejected ports ns).1 (s.transport.endpoints.map (·.id)) remote
  dsimp only
  rw [hdetect]
  have hregisters := registers_registerAll
    { (s.releaseRejected ports ns).1 with connection := connection } remote answer 0 ns
  refine ⟨hregisters.outline_eq.trans ?_, hports⟩
  rw [← htransport]

theorem writesAs_settle (s : Session) (mid : Mid) : WritesAs s s.settle mid := by
  obtain ⟨state, -, hs⟩ := settle_eq s
  rw [hs]
  exact ⟨rfl, rfl, rfl, rfl, fun _ h ↦ h⟩

theorem transport_settle (s : Session) : s.settle.transport = s.transport := by
  obtain ⟨state, -, hs⟩ := settle_eq s
  rw [hs]

end Session

/-! ## Exchanges -/

namespace Answering

open Session

variable {s : Session} {remote : Description} (run : Answering s remote) {mid : Mid}

theorem same_concluded : run.concluded.1.id = s.id ∧ run.concluded.1.config = s.config ∧
    run.concluded.1.credentials = s.credentials ∧ run.concluded.1.handlers = s.handlers := by
  obtain ⟨s₁, state, hcommit, -, hs⟩ := run.concluded_spec
  obtain ⟨_, _, _, _, _, hrecord⟩ := hcommit.record
  obtain ⟨_, _, _, hwritten⟩ := run.written_eq
  rw [hs, hrecord, secured, hwritten]
  exact ⟨rfl, rfl, rfl, rfl⟩

theorem record_concluded : run.concluded.1.ours = some run.answer ∧
    run.concluded.1.version = run.written.2.version ∧
      (run.concluded.1.state = .answerGenerated ∨ run.concluded.1.state = .established) := by
  obtain ⟨s₁, state, hcommit, hstate, hs⟩ := run.concluded_spec
  obtain ⟨_, _, _, _, _, hrecord⟩ := hcommit.record
  rw [hs, hrecord]
  exact ⟨rfl, rfl, hstate⟩

/-- An answerer writes on as it has written the answer. -/
theorem writesAs_concluded (h : ¬Released run.outcomes.1 mid) :
    WritesAs run.written.2 run.concluded.1 mid := by
  have hexcl := run.ready.exclusive.congr run.outline_secured
  have hcommit := writesAs_commit hexcl h run.place.ports remote run.answer
    (run.placed.map Planned.handler)
  have hsecured : WritesAs run.written.2 run.secured mid := ⟨rfl, rfl, rfl, rfl, fun _ hv ↦ hv⟩
  have hstored (s : Session) : WritesAs s { s with
      ours := some run.answer
      theirs := some remote
      settled := .answerGenerated
      state := .answerGenerated } mid := ⟨rfl, rfl, rfl, rfl, fun _ hv ↦ hv⟩
  exact (hsecured.trans hcommit).trans ((hstored _).trans (writesAs_settle _ mid))

/-- If nothing carries what is rejected, the endpoints stay as they were placed. -/
theorem concluded_of_uncarried
    (h : ∀ n ∈ run.outcomes.1, n.endpoint = none → run.place.transport.carrier? n.mid = none) :
    run.concluded.1.transport.outline = run.place.transport.outline ∧
      run.concluded.2 = run.place.ports := by
  have huncarried : ∀ n ∈ run.outcomes.1, n.endpoint = none →
      run.secured.transport.carrier? n.mid = none := by
    intro n hn hnone
    rw [TransportBinding.carrier?_congr run.outline_secured]
    exact h n hn hnone
  obtain ⟨houtline, hports⟩ := commit_of_uncarried run.place.ports remote run.answer
    (run.placed.map Planned.handler) huncarried
  refine ⟨?_, hports⟩
  rw [concluded, concludeAnswer]
  dsimp only
  rw [transport_settle]
  exact houtline.trans run.outline_secured

end Answering

namespace Accepting

open Session

variable {s : Session} {pending : PendingOffer} {answer : Description}
  (run : Accepting s pending answer) {mid : Mid}

theorem same_concluded (hexcl : s.transport.Exclusive) (ports : PortAllocator) :
    (run.concluded ports).1.id = s.id ∧ (run.concluded ports).1.config = s.config ∧
      (run.concluded ports).1.credentials = s.credentials ∧
        (run.concluded ports).1.handlers = s.handlers := by
  obtain ⟨s₁, state, hcommit, -, hs⟩ := run.concluded_spec hexcl ports
  obtain ⟨_, _, _, _, _, hrecord⟩ := hcommit.record
  rw [hs, hrecord]
  exact ⟨rfl, rfl, rfl, rfl⟩

theorem record_concluded (hexcl : s.transport.Exclusive) (ports : PortAllocator) :
    (run.concluded ports).1.ours = s.ours ∧ (run.concluded ports).1.version = s.version ∧
      (run.concluded ports).1.sectionHandlers = pending.handlers ∧
        ((run.concluded ports).1.state = .answerProcessed ∨
          (run.concluded ports).1.state = .established) := by
  obtain ⟨s₁, state, hcommit, hstate, hs⟩ := run.concluded_spec hexcl ports
  obtain ⟨_, _, _, _, _, hrecord⟩ := hcommit.record
  rw [hs, hrecord]
  exact ⟨rfl, rfl, rfl, hstate⟩

theorem writesAs_concluded (hexcl : s.transport.Exclusive) (h : ¬Released run.outcomes.1 mid)
    (ports : PortAllocator) : WritesAs s (run.concluded ports).1 mid := by
  have hcommit := writesAs_commit (hexcl.congr run.outline_secured) h ports answer answer
    pending.handlers
  have hsecured : WritesAs s run.secured mid := ⟨rfl, rfl, rfl, rfl, fun _ hv ↦ hv⟩
  have hstored (s : Session) : WritesAs s { s with
      theirs := some answer
      settled := .answerProcessed
      state := .answerProcessed } mid := ⟨rfl, rfl, rfl, rfl, fun _ hv ↦ hv⟩
  exact (hsecured.trans hcommit).trans ((hstored _).trans (writesAs_settle _ mid))

theorem concluded_of_uncarried (ports : PortAllocator)
    (h : ∀ n ∈ run.outcomes.1, n.endpoint = none → s.transport.carrier? n.mid = none) :
    (run.concluded ports).1.transport.outline = s.transport.outline ∧
      (run.concluded ports).2 = ports := by
  have huncarried : ∀ n ∈ run.outcomes.1, n.endpoint = none →
      run.secured.transport.carrier? n.mid = none := by
    intro n hn hnone
    rw [TransportBinding.carrier?_congr run.outline_secured]
    exact h n hn hnone
  obtain ⟨houtline, hports⟩ := commit_of_uncarried ports answer answer pending.handlers huncarried
  refine ⟨?_, hports⟩
  rw [concluded, concludeAccept]
  dsimp only
  rw [transport_settle]
  exact houtline.trans run.outline_secured

end Accepting

end OfferAnswer
