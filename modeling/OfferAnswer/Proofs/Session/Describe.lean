import Mathlib.Data.List.Forall2
import OfferAnswer.Session.Answer
import OfferAnswer.Session.Offer

/-!
# What writing a description leaves alone

A session has many fields and writing works on few of them: it draws sources and settles the
version. `withSources` is the session in between, and every stage ends in one, so a field of the
session after a description is written is read without opening the stages.

A written section is one decorated by such a session. Decorating leaves its port alone, and so
whether it is rejected.
-/

namespace OfferAnswer.Session

/-! ## Sources -/

/-- The session with other sources. -/
def withSources (s : Session) (ssrcs : List (Mid × Ssrc)) (e : Entropy) : Session :=
  { s with ssrcs := ssrcs, entropy := e }

theorem ensureSsrc_eq (s : Session) (mid : Mid) :
    ∃ ssrcs e, (s.ensureSsrc mid).2 = s.withSources ssrcs e := by
  rw [ensureSsrc]
  split
  · exact ⟨s.ssrcs, s.entropy, rfl⟩
  · exact ⟨_, _, rfl⟩

theorem addSource_eq (s : Session) (mid : Mid) (m : Section) :
    ∃ ssrcs e, (s.addSource mid m).2 = s.withSources ssrcs e := by
  rw [addSource]
  split
  · exact ensureSsrc_eq s mid
  · exact ⟨s.ssrcs, s.entropy, rfl⟩

theorem decorate_eq (s : Session) (mid : Mid) (setup : Option Setup) (m : Section) :
    ∃ ssrcs e, (s.decorate mid setup m).2 = s.withSources ssrcs e := by
  rw [decorate]
  split
  · exact ⟨s.ssrcs, s.entropy, rfl⟩
  · exact addSource_eq s mid _

theorem decorateAll_eq (s : Session) (qs : List (Planned × Option Setup)) :
    ∃ ssrcs e, (s.decorateAll qs).2 = s.withSources ssrcs e := by
  induction qs generalizing s with
  | nil => exact ⟨s.ssrcs, s.entropy, rfl⟩
  | cons q qs ih =>
    obtain ⟨ssrcs, e, h⟩ := decorate_eq s q.1.mid q.2 q.1.body
    obtain ⟨ssrcs', e', h'⟩ := ih (s.withSources ssrcs e)
    refine ⟨ssrcs', e', ?_⟩
    rw [decorateAll]
    dsimp only
    rw [h, h']
    rfl

/-- Every section is decorated by the session, with the sources it has by then. -/
theorem decorateAll_sections (s : Session) (qs : List (Planned × Option Setup)) :
    List.Forall₂ (fun x m ↦ ∃ ssrcs e,
      m = ((s.withSources ssrcs e).decorate x.1.mid x.2 x.1.body).1) qs (s.decorateAll qs).1 := by
  induction qs generalizing s with
  | nil => exact .nil
  | cons q qs ih =>
    obtain ⟨ssrcs, e, h⟩ := decorate_eq s q.1.mid q.2 q.1.body
    have htail := ih (s.withSources ssrcs e)
    rw [decorateAll]
    dsimp only
    rw [h]
    exact .cons ⟨s.ssrcs, s.entropy, rfl⟩ htail

/-! ## Ports -/

theorem port_addSource (s : Session) (mid : Mid) (m : Section) :
    (s.addSource mid m).1.port = m.port := by
  rw [addSource]
  split
  · dsimp only
    split <;> rfl
  · rfl

/-- Decorating a section leaves its port alone, and with it whether it is rejected. -/
theorem port_decorate (s : Session) (mid : Mid) (setup : Option Setup) (m : Section) :
    (s.decorate mid setup m).1.port = m.port := by
  rw [decorate]
  split
  · rfl
  · exact port_addSource s mid _

/-! ## Descriptions -/

theorem writeAnswer_eq (s : Session) (group : List Mid) (placed : List (Planned × Option Setup)) :
    ∃ ssrcs e version,
      (s.writeAnswer group placed).2 = { s.withSources ssrcs e with version := version } := by
  obtain ⟨ssrcs, e, h⟩ := decorateAll_eq s placed
  refine ⟨ssrcs, e, (s.writeAnswer group placed).2.version, ?_⟩
  dsimp only [writeAnswer, compose]
  rw [h]

theorem writeOffer_eq (s : Session) (placed : List Planned) :
    ∃ ssrcs e version, (s.writeOffer placed).2 =
      { s.withSources ssrcs e with
        version := version
        ours := some (s.writeOffer placed).1
        pending := some ⟨(s.writeOffer placed).1, placed.map (·.handler)⟩
        state := .offerGenerated } := by
  obtain ⟨ssrcs, e, h⟩ := decorateAll_eq s (placed.map fun q ↦ (q, offerSetup q))
  refine ⟨ssrcs, e, (s.writeOffer placed).2.version, ?_⟩
  dsimp only [writeOffer, compose]
  rw [h]

end OfferAnswer.Session
