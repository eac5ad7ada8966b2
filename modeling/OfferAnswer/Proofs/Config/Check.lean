import OfferAnswer.Config.Basic
import OfferAnswer.Proofs.Handler.Offers

/-!
# What a checked configuration promises

Checking a configuration refuses what could fail later. The negotiation relies on it after the point
of no return: the setup of answers is settled, and a certificate is in PEM form. And every handler
is made from its settings, so that it has something to offer.
-/

namespace OfferAnswer

/-! ## Handlers -/

namespace HandlerConfig

def codecs : HandlerConfig → List Codec
  | audio c => c.codecs
  | video c => c.codecs
  | sctp _ => []

theorem make_ok {kind : MediaKind} {profile : RtpProfile} {codecs : List Codec}
    {direction : Direction} {h : MediaHandler}
    (hmake : (RtpHandler.make kind profile codecs direction).map .rtp = .ok h) :
    h.IsMade ∧ h.codecs = codecs := by
  rw [RtpHandler.make] at hmake
  split at hmake
  · cases hmake
  · rename_i hkind
    split at hmake
    · cases hmake
    · rename_i hcodecs
      cases hmake
      exact ⟨⟨by simpa using hkind, by simpa using hcodecs⟩, rfl⟩

/-- A handler that is made of settings has their codecs. -/
theorem handler_ok {c : HandlerConfig} {h : MediaHandler} (hc : c.handler = .ok h) :
    h.IsMade ∧ h.codecs = c.codecs := by
  cases c with
  | audio c => exact make_ok hc
  | video c => exact make_ok hc
  | sctp c =>
    rw [handler] at hc
    split at hc
    · cases hc
    · cases hc
      exact ⟨trivial, rfl⟩

end HandlerConfig

namespace SessionConfig

variable {c : SessionConfig} {handlers : List MediaHandler}

theorem handlersOf_spec {cs : List HandlerConfig} (h : handlersOf cs = .ok handlers) :
    handlers.length = cs.length ∧ ∀ h ∈ handlers, ∃ c ∈ cs, c.handler = .ok h := by
  induction cs generalizing handlers with
  | nil =>
    cases h
    exact ⟨rfl, fun _ hh ↦ absurd hh List.not_mem_nil⟩
  | cons c cs ih =>
    rw [handlersOf] at h
    cases hone : c.handler with
    | error e =>
      rw [hone] at h
      cases h
    | ok h₀ =>
      rw [hone] at h
      dsimp only at h
      cases hrest : handlersOf cs with
      | error e =>
        rw [hrest] at h
        cases h
      | ok rest =>
        rw [hrest] at h
        cases h
        obtain ⟨hlen, hmem⟩ := ih hrest
        refine ⟨congrArg (· + 1) hlen, fun h hh ↦ ?_⟩
        rcases List.mem_cons.mp hh with rfl | hh
        · exact ⟨c, List.mem_cons_self, hone⟩
        · obtain ⟨c', hc', hh⟩ := hmem h hh
          exact ⟨c', List.mem_cons_of_mem c hc', hh⟩

/-! ## What is checked -/

theorem fault?_eq_none (h : c.check = .ok handlers) : c.fault? = none := by
  rw [check] at h
  cases hf : c.fault? with
  | none => rfl
  | some fault =>
    rw [hf] at h
    cases h

theorem handlersOf_eq (h : c.check = .ok handlers) : handlersOf c.handlers = .ok handlers := by
  rw [check, fault?_eq_none h] at h
  exact h

/-- Every handler of a session comes from the settings of one. -/
theorem handlers_spec (h : c.check = .ok handlers) : handlers.length = c.handlers.length ∧
    ∀ h ∈ handlers, h.IsMade ∧ ∃ hc ∈ c.handlers, h.codecs = hc.codecs := by
  obtain ⟨hlen, hmem⟩ := handlersOf_spec (handlersOf_eq h)
  refine ⟨hlen, fun h hh ↦ ?_⟩
  obtain ⟨hc, hhc, hmade⟩ := hmem h hh
  obtain ⟨hmade, hcodecs⟩ := HandlerConfig.handler_ok hmade
  exact ⟨hmade, hc, hhc, hcodecs⟩

theorem answerSetup_ne_actPass (h : c.check = .ok handlers) : c.answerSetup ≠ .actPass := by
  intro hopen
  have hf := fault?_eq_none h
  rw [fault?, hopen] at hf
  split at hf
  · cases hf
  · rw [if_pos rfl] at hf
    cases hf

theorem isPem_of_certificate (h : c.check = .ok handlers) {cert : DtlsCertificate}
    (hcert : c.certificate = some cert) : TransportBinding.isPem cert.pem = true := by
  have hf := fault?_eq_none h
  rw [fault?, hcert, Option.any_some] at hf
  cases hpem : TransportBinding.isPem cert.pem with
  | true => rfl
  | false =>
    rw [hpem] at hf
    split at hf
    · cases hf
    · split at hf
      · cases hf
      · cases hf

end SessionConfig

end OfferAnswer
