import OfferAnswer.Proofs.Session.Reanswering
import OfferAnswer.Proofs.Session.Reoffering

/-!
# Sessions that stay as they are

A round of negotiation that changes nothing still works on a session: remote candidates are added
again, sources are bound again, the state goes back and forth. `Persists` is what such a round
keeps. It is enough for every section to be offered, answered and applied as before, and a commit of
an outcome that the session has already establishes it.
-/

namespace OfferAnswer

open TransportBinding (Keeps)

namespace Session

variable {s s' s'' : Session} {answer : Description} {i : Nat} {o a : Section} {n : NegotiatedMedia}
  {mid : Mid} {position : Option Nat}

/-- Two moments of a session with the same outcome, between which no endpoint and no port moved, and
no section lost its source but those that have no endpoint. -/
structure Persists (s s' : Session) : Prop where
  /-- It is the same session, -/
  id_eq : s'.id = s.id
  /-- with the same configuration, -/
  config_eq : s'.config = s.config
  /-- credentials, -/
  credentials_eq : s'.credentials = s.credentials
  /-- and handlers. -/
  handlers_eq : s'.handlers = s.handlers
  /-- The outcome is the same. -/
  negotiated_eq : s'.negotiated = s.negotiated
  /-- Endpoints and ports are where they were. -/
  outline_eq : s'.transport.outline = s.transport.outline
  /-- Sections that are kept are written as they were. -/
  writes : ∀ mid, ¬Released s.negotiated mid → WritesAs s s' mid

theorem Persists.refl (s : Session) : Persists s s :=
  ⟨rfl, rfl, rfl, rfl, rfl, rfl, fun mid _ ↦ .refl s mid⟩

theorem Persists.trans (h : Persists s s') (h' : Persists s' s'') : Persists s s'' where
  id_eq := h'.id_eq.trans h.id_eq
  config_eq := h'.config_eq.trans h.config_eq
  credentials_eq := h'.credentials_eq.trans h.credentials_eq
  handlers_eq := h'.handlers_eq.trans h.handlers_eq
  negotiated_eq := h'.negotiated_eq.trans h.negotiated_eq
  outline_eq := h'.outline_eq.trans h.outline_eq
  writes := by
    intro mid hkept
    have hkept' : ¬Released s'.negotiated mid := by rwa [h.negotiated_eq]
    exact (h.writes mid hkept).trans (h'.writes mid hkept')

/-- Neither receiving an offer nor making the next one counts. -/
theorem persists_receiving (s : Session) : Persists s s.receiving :=
  ⟨rfl, rfl, rfl, rfl, rfl, rfl, fun _ _ ↦ ⟨rfl, rfl, rfl, rfl, fun _ hv ↦ hv⟩⟩

theorem persists_accepting (s : Session) (last : Description) :
    Persists s (s.reoffered last).accepting :=
  ⟨rfl, rfl, rfl, rfl, rfl, rfl, fun _ _ ↦ ⟨rfl, rfl, rfl, rfl, fun _ hv ↦ hv⟩⟩

/-- Whether nothing carries the sections that have no endpoint. -/
def Cleared (s : Session) : Prop :=
  ∀ n ∈ s.negotiated, n.endpoint = none → s.transport.carrier? n.mid = none

theorem Cleared.persist (h : s.Cleared) (hsame : Persists s s') : s'.Cleared := by
  intro n hn hnone
  rw [hsame.negotiated_eq] at hn
  rw [TransportBinding.carrier?_congr hsame.outline_eq]
  exact h n hn hnone

/-! ## Sections -/

theorem Holds.persist {setup : Option Setup} {body written : Section}
    (h : s.Holds mid setup body written) (hsame : Persists s s')
    (hkept : ¬Released s.negotiated mid) : s'.Holds mid setup body written := by
  have hkeeps : Keeps (fun _ ↦ True) s.transport s'.transport := .of_outline hsame.outline_eq
  exact h.mono (hsame.writes mid hkept) hkeeps trivial

theorem Reoffers.persist (h : s.Reoffers position n o)
    (hsame : Persists s s') (hkept : n.rejected = false → ¬Released s.negotiated n.mid) :
    s'.Reoffers position n o := by
  refine ⟨h.declared, ?_⟩
  intro hrej
  obtain ⟨handler, base, hhandler, hkind, hbase, hholds⟩ := h.accepted hrej
  have hmux (q : Planned) : s'.offerMux q = s.offerMux q := by
    rw [offerMux, offerMux, hsame.config_eq]
  refine ⟨handler, base, ?_, hkind, hbase, ?_⟩
  · rw [handler?, hsame.handlers_eq]
    exact hhandler
  · rw [hmux]
    exact hholds.persist hsame (hkept hrej)

theorem Answered.persist (h : s.Answered n o a) (hsame : Persists s s')
    (hkept : ¬Released s.negotiated n.mid) : s'.Answered n o a := by
  obtain ⟨hoffered, p, handler, body, codec, id, hp, hhandler, hbody, hholds, hcodec, hid, hn⟩ := h
  refine ⟨hoffered, p, handler, body, codec, id, ?_, ?_, hbody, ?_, hcodec, ?_, hn⟩
  · rw [handlerFor?, hsame.handlers_eq]
    exact hp
  · rw [handler?, hsame.handlers_eq]
    exact hhandler
  · rw [ownSetup, hsame.config_eq]
    exact hholds.persist hsame hkept
  · rw [TransportBinding.carrier?_congr hsame.outline_eq]
    exact hid

/-- An accepted section to which a session has applied the answer `a` with the outcome `n`, and
would do so again. -/
def Applied (s : Session) (answer : Description) (i : Nat) (position : Option Nat)
    (n : NegotiatedMedia) (o a : Section) : Prop :=
  ∃ h codec asked id, s.handler? position = some h ∧ h.processAnswer o a = .ok codec ∧
    s.securedSetup answer i n.mid a = .ok asked ∧ s.transport.carrier? n.mid = some id ∧
      n = ⟨n.mid, o.kind, a.direction.invert, codec, o.proto, some id, false⟩

theorem Applied.endpoint_ne (h : s.Applied answer i position n o a) : n.endpoint ≠ none := by
  obtain ⟨_, _, _, _, _, _, _, _, hn⟩ := h
  rw [hn]
  exact nofun

theorem Answered.endpoint_ne (h : s.Answered n o a) : n.endpoint ≠ none := by
  obtain ⟨-, _, _, _, _, _, _, _, _, _, _, _, hn⟩ := h
  rw [hn]
  exact nofun

theorem securedSetup_congr (h : s'.config = s.config) (answer : Description) (i : Nat) (mid : Mid)
    (a : Section) : s'.securedSetup answer i mid a = s.securedSetup answer i mid a := by
  rw [securedSetup, securedSetup, checkRemoteParams, checkRemoteParams, settledSetup,
    settledSetup, h]

theorem Applied.persist (h : s.Applied answer i position n o a)
    (hsame : Persists s s') : s'.Applied answer i position n o a := by
  obtain ⟨handler, codec, asked, id, hhandler, hcodec, hasked, hid, hn⟩ := h
  refine ⟨handler, codec, asked, id, ?_, hcodec, ?_, ?_, hn⟩
  · rw [handler?, hsame.handlers_eq]
    exact hhandler
  · rw [securedSetup_congr hsame.config_eq]
    exact hasked
  · rw [TransportBinding.carrier?_congr hsame.outline_eq]
    exact hid

end Session

/-! ## Exchanges -/

namespace Answering

open Session

variable {s : Session} {remote : Description} (run : Answering s remote)

/-- An answerer that has written nothing new and comes to the outcome it had is what it was. -/
theorem persists (hcleared : s.Cleared) (hwritten : run.written.2 = s)
    (houtcomes : run.outcomes.1 = s.negotiated) (hplace : run.place.transport = s.transport) :
    Persists s run.concluded.1 := by
  have huncarried : ∀ n ∈ run.outcomes.1, n.endpoint = none →
      run.place.transport.carrier? n.mid = none := by
    rw [houtcomes, hplace]
    exact hcleared
  have houtline := (run.concluded_of_uncarried huncarried).1
  have hwrites : ∀ mid, ¬Released s.negotiated mid → WritesAs s run.concluded.1 mid := by
    intro mid hkept
    rw [← houtcomes] at hkept
    have hwrites := run.writesAs_concluded hkept
    rwa [hwritten] at hwrites
  obtain ⟨s₁, state, hcommit, -, hs⟩ := run.concluded_spec
  obtain ⟨_, _, _, _, _, hrecord⟩ := hcommit.record
  rw [hplace] at houtline
  rw [hs, hrecord] at houtline hwrites ⊢
  rw [secured, hwritten] at houtline hwrites ⊢
  exact ⟨rfl, rfl, rfl, rfl, houtcomes, houtline, hwrites⟩

end Answering

namespace Accepting

open Session

variable {s : Session} {pending : PendingOffer} {answer : Description}
  (run : Accepting s pending answer)

theorem persists (hexcl : s.transport.Exclusive) (hcleared : s.Cleared)
    (houtcomes : run.outcomes.1 = s.negotiated) (ports : PortAllocator) :
    Persists s (run.concluded ports).1 := by
  have huncarried : ∀ n ∈ run.outcomes.1, n.endpoint = none →
      s.transport.carrier? n.mid = none := by
    rw [houtcomes]
    exact hcleared
  have houtline := (run.concluded_of_uncarried ports huncarried).1
  have hwrites : ∀ mid, ¬Released s.negotiated mid → WritesAs s (run.concluded ports).1 mid := by
    intro mid hkept
    rw [← houtcomes] at hkept
    exact run.writesAs_concluded hexcl hkept ports
  obtain ⟨s₁, state, hcommit, -, hs⟩ := run.concluded_spec hexcl ports
  obtain ⟨_, _, _, _, _, hrecord⟩ := hcommit.record
  rw [hs, hrecord] at houtline hwrites ⊢
  exact ⟨rfl, rfl, rfl, rfl, houtcomes, houtline, hwrites⟩

end Accepting

end OfferAnswer
