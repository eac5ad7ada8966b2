import OfferAnswer.Proofs.Session.Invariant

/-!
# Accepted sections are carried

After a remote offer was answered, an accepted section names an endpoint that the connection
follows. Whether that endpoint is there and carries the section depends on the other sections of its
identifier. An answer is written before the commit, and the commit gives endpoints up by identifier:
when one section of an identifier is rejected, the endpoint of an accepted one goes with it,
although the answer has already promised its port.

Identifiers come from the peer, and nothing in an offer keeps two sections from having the same one.
So the condition is part of the theorem, and it is exact.
-/

namespace OfferAnswer

namespace Session

variable {s : Session} {remote : Description}

/-! ## Identifiers across negotiations -/

theorem midAt_of_checkMids {i : Nat} {ns : List NegotiatedMedia}
    (h : checkMids remote i ns = .ok ()) {j : Nat} {n : NegotiatedMedia} (hn : ns[j]? = some n) :
    midAt remote (i + j) = n.mid := by
  induction ns generalizing i j with
  | nil => cases hn
  | cons n₀ ns ih =>
    rw [checkMids] at h
    split at h
    · rename_i hmid
      cases j with
      | zero =>
        cases hn
        exact hmid
      | succ j =>
        rw [← ih h hn, Nat.add_right_comm]
        rfl
    · cases h

theorem midAt_of_checkOffer (h : s.checkOffer remote = .ok ()) {i : Nat} {n : NegotiatedMedia}
    (hn : s.negotiated[i]? = some n) : midAt remote i = n.mid := by
  have hmid := midAt_of_checkMids (checkOffer_eq_ok.mp h).2.2.2 hn
  rwa [Nat.zero_add] at hmid

end Session

/-! ## Sections in the end -/

namespace Answering

open Session

variable {s s' : Session} {remote : Description} (run : Answering s remote)

theorem released_iff {mid : Mid} :
    Released run.outcomes.1 mid ↔ ∃ r ∈ run.outcomes.1, r.rejected = true ∧ r.mid = mid := by
  refine exists_congr fun r ↦ and_congr_right fun hr ↦ ?_
  rw [run.endpoint_eq_none_iff hr]

/-- After the commit, the endpoint of an accepted section carries it and has the port that the
answer gives, if and only if no section of its identifier is rejected. -/
theorem carried_iff {positions : List (Option Nat)}
    (hcommit : Committed run.secured s' remote run.outcomes.1 positions) {i : Nat} {q r : Planned}
    {offered answered : Section} {n : NegotiatedMedia}
    (hrow : run.Row i q r offered answered n) (hrej : n.rejected = false) :
    ∃ id, n.endpoint = some id ∧
      ((∃ e, s'.transport.endpoint? id = some e ∧ n.mid ∈ e.mids ∧ e.rtpPort = answered.port) ↔
        ¬∃ r ∈ run.outcomes.1, r.rejected = true ∧ r.mid = n.mid) := by
  rcases run.row_cases hrow with ⟨-, rfl⟩ | ⟨e, he, hcarries, -, hport, hmid, hend, -⟩
  · cases hrej
  refine ⟨e.id, hend, ?_⟩
  rw [← run.released_iff, hport]
  constructor
  · rintro ⟨e', he', hmem, -⟩ hreleased
    have hnone := hcommit.released n.mid hreleased
    exact TransportBinding.carrier?_eq_none_iff.mp hnone e'
      (TransportBinding.mem_of_endpoint? he') hmem
  · intro hkept
    -- securing moved nothing, and the commit kept this identifier
    obtain ⟨e₁, he₁, hid₁, hrtp₁, -, hmids₁⟩ :=
      TransportBinding.exists_of_outline run.outline_secured he
    have hmem₁ : n.mid ∈ e₁.mids := by
      rw [hmids₁, hmid]
      exact hcarries
    obtain ⟨e₂, he₂, hid₂, hrtp₂, -, hmem₂⟩ := hcommit.keeps e₁ he₁ n.mid hmem₁ hkept
    exact ⟨e₂, hcommit.exclusive.endpoint?_eq_some.mpr ⟨he₂, hid₂.trans hid₁⟩, hmem₂,
      hrtp₂.trans hrtp₁⟩

theorem endpoint_eq_of_carrier? {i : Nat} {q r : Planned} {offered answered : Section}
    {n : NegotiatedMedia} (hrow : run.Row i q r offered answered n) (hrej : n.rejected = false)
    {id : EndpointId} (hcarrier : s.transport.carrier? (midAt remote i) = some id) :
    n.endpoint = some id := by
  rcases run.row_cases hrow with ⟨-, rfl⟩ | ⟨e, he, hcarries, -, -, -, hend, -⟩
  · cases hrej
  have hbefore := run.keeps.carrier? run.ready.exclusive trivial hcarrier
  have hnow := run.ready.exclusive.carrier?_eq_some.mpr ⟨e, he, rfl, hcarries⟩
  rw [hend, ← hnow, hbefore]

end Answering

namespace Session

variable {s : Session} {remote answer : Description}

/-- A section that was accepted before and still is keeps its endpoint, provided that no section of
its identifier was rejected before. -/
theorem Sound.endpoint_kept (h : s.Sound) (hopen : s.state ≠ .closed)
    (hcheck : s.receiving.checkOffer remote = .ok ()) {run : Answering s.receiving remote} {i : Nat}
    {n n' : NegotiatedMedia} (hn : s.negotiated[i]? = some n) (hn' : run.outcomes.1[i]? = some n')
    (hrej : n.rejected = false) (hrej' : n'.rejected = false)
    (hkept : ¬∃ r ∈ s.negotiated, r.rejected = true ∧ r.mid = n.mid) :
    n'.endpoint = n.endpoint := by
  obtain ⟨q, r, offered, answered, -, -, hrow⟩ := run.exists_row hn'
  have hmem := List.mem_of_getElem? hn
  obtain ⟨id, hid⟩ : ∃ id, n.endpoint = some id := by
    cases hend : n.endpoint with
    | some id => exact ⟨id, rfl⟩
    | none =>
      rw [(h.endpoint_iff hopen n hmem).mp hend] at hrej
      cases hrej
  have hreleased : ¬Released s.negotiated n.mid := fun ⟨r, hr, hnone, hmid⟩ ↦
    hkept ⟨r, hr, (h.endpoint_iff hopen r hr).mp hnone, hmid⟩
  rw [hid]
  refine run.endpoint_eq_of_carrier? hrow hrej' ?_
  -- the offer repeats the identifier, and that was carried before
  rw [midAt_of_checkOffer (s := s.receiving) hcheck hn]
  exact h.carried n hmem id hid hreleased

/-- **Accepted sections are carried**, and keep their endpoints.

After a remote offer was answered: every accepted section names an endpoint that the connection
follows. That endpoint is live, carries the section and has the port that the answer gives, if and
only if no section of the same identifier is rejected. And a section that was accepted before and
still is keeps its endpoint, provided that no section of its identifier was rejected before. -/
theorem accepted_sections_carried (hs : s.Reachable) (ports : PortAllocator)
    (h : (s.processOffer ports remote).result = .ok answer) :
    let s' := (s.processOffer ports remote).session
    (∀ (i : Nat) n, s'.negotiated[i]? = some n → n.rejected = false →
      ∃ id a, n.endpoint = some id ∧ answer.sections[i]? = some a ∧
        s'.connection.hasEndpoint id = true ∧
        ((∃ e, s'.transport.endpoint? id = some e ∧ n.mid ∈ e.mids ∧ e.rtpPort = a.port) ↔
          ¬∃ r ∈ s'.negotiated, r.rejected = true ∧ r.mid = n.mid)) ∧
    ∀ (i : Nat) n n', s.negotiated[i]? = some n → s'.negotiated[i]? = some n' →
      n.rejected = false → n'.rejected = false →
      (¬∃ r ∈ s.negotiated, r.rejected = true ∧ r.mid = n.mid) → n'.endpoint = n.endpoint := by
  have hsound := hs.sound
  rcases processOffer_cases hsound.exclusive hsound.hasPem hsound.answerSetup_ne ports remote with
    ⟨e, hr⟩ | ⟨htakes, hcheck, run, hr⟩
  · rw [hr] at h
    cases h
  rw [hr] at h ⊢
  cases h
  obtain ⟨s₁, state, hcommit, -, hs₁⟩ := run.concluded_spec
  have hopen := takesOffer_ne_closed htakes
  have htransport : run.concluded.1.transport = s₁.transport := by rw [hs₁]
  have hconnection : run.concluded.1.connection = s₁.connection := by rw [hs₁]
  dsimp only
  rw [run.negotiated_concluded, htransport, hconnection]
  constructor
  · intro i n hn hrej
    obtain ⟨q, r, offered, answered, ho, ha, hrow⟩ := run.exists_row hn
    obtain ⟨id, hid, hiff⟩ := run.carried_iff hcommit hrow hrej
    -- the commit follows the endpoints of all sections, those that it tears down too
    have hfollows : s₁.connection.hasEndpoint id = true := by
      refine hcommit.follows ?_ i n id hn hid (List.getElem?_eq_some_iff.mp ho).1
      change run.written.2.connection.state ≠ .closed
      rw [run.connection_written]
      exact hsound.connection_open hopen
    exact ⟨id, answered, hid, ha, hfollows, hiff⟩
  · intro i n n' hn hn' hrej hrej' hkept
    exact hsound.endpoint_kept hopen hcheck hn hn' hrej hrej' hkept

/-- An offer of a data channel and of audio that a session for data channels rejects. -/
def channelOffer (audio : String) : Description where
  session := { id := 1, version := 1 }
  sections :=
    [{ kind := .application, port := 9, proto := "UDP/DTLS/SCTP", formats := ["webrtc-datachannel"],
       attrs := [.of "mid" "a", .of "ice-ufrag" "u", .of "ice-pwd" "p", .of "setup" "actpass",
        .of "sctp-port" "5000"] },
      { kind := .audio, port := 9, proto := "RTP/AVP", formats := ["0"],
        attrs := [.of "mid" audio] }]

theorem data_channel_carried :
    let r := (ofChannels ⟨fun i ↦ i, 0⟩).processOffer {} (channelOffer "b")
    r.result.isOk = true ∧ ∃ n ∈ r.session.negotiated, n.rejected = false ∧
      ∃ id e, n.endpoint = some id ∧ r.session.transport.endpoint? id = some e ∧
        n.mid ∈ e.mids := by
  intro r
  have hok : r.result.isOk = true := by decide +kernel
  cases h : r.result with
  | error e =>
    rw [h] at hok
    cases hok
  | ok answer =>
    have hfirst : (r.session.negotiated[0]?).any (!·.rejected) = true := by decide +kernel
    obtain ⟨n, hn, hrej⟩ := (Option.any_eq_true _ _).mp hfirst
    rw [Bool.not_eq_true'] at hrej
    obtain ⟨id, a, hid, -, -, hiff⟩ :=
      (accepted_sections_carried (reachable_ofChannels _) {} h).1 0 n hn hrej
    have halone : (r.session.negotiated[0]?).all (fun n ↦
        r.session.negotiated.all fun x ↦ !x.rejected || x.mid != n.mid) = true := by decide +kernel
    rw [hn, Option.all_some, List.all_eq_true] at halone
    obtain ⟨e, he, hmid, -⟩ := hiff.mpr fun ⟨x, hx, hxrej, hxmid⟩ ↦ by
      have hx := halone x hx
      rw [hxrej, hxmid, bne_self_eq_false] at hx
      cases hx
    exact ⟨rfl, n, List.mem_of_getElem? hn, hrej, id, e, hid, he, hmid⟩

/-- With one identifier for both, the data channel is accepted and its endpoint is gone. -/
theorem data_channel_not_carried :
    ¬∀ (s : Session) (ports : PortAllocator) (remote answer : Description), s.Reachable →
      (s.processOffer ports remote).result = .ok answer →
        ∀ n ∈ (s.processOffer ports remote).session.negotiated, n.rejected = false →
          ∃ id, n.endpoint = some id ∧
            (s.processOffer ports remote).session.transport.isAlive id = true := by
  intro hcarried
  have hrun := fun answer ↦
    hcarried _ {} (channelOffer "a") answer (reachable_ofChannels ⟨fun i ↦ i, 0⟩)
  have hok : ((ofChannels ⟨fun i ↦ i, 0⟩).processOffer {} (channelOffer "a")).result.isOk = true :=
    by decide +kernel
  have hgone : ((ofChannels ⟨fun i ↦ i, 0⟩).processOffer {}
      (channelOffer "a")).session.transport.endpoints = [] := by decide +kernel
  have hfirst : (((ofChannels ⟨fun i ↦ i, 0⟩).processOffer {}
      (channelOffer "a")).session.negotiated[0]?).any (!·.rejected) = true := by decide +kernel
  generalize (ofChannels ⟨fun i ↦ i, 0⟩).processOffer {} (channelOffer "a") = r
    at hrun hok hgone hfirst
  cases h : r.result with
  | error e =>
    rw [h] at hok
    cases hok
  | ok answer =>
    obtain ⟨n, hn, hrej⟩ := (Option.any_eq_true _ _).mp hfirst
    rw [Bool.not_eq_true'] at hrej
    obtain ⟨id, -, halive⟩ := hrun answer h n (List.mem_of_getElem? hn) hrej
    obtain ⟨e, he, -⟩ := TransportBinding.isAlive_iff.mp halive
    rw [hgone] at he
    cases he

end Session

end OfferAnswer
