import OfferAnswer.Proofs.Handler.Answers

/-!
# What handlers leave to the session

Who a session is and how to reach it is for the session to say: its credentials, its fingerprint,
its candidates and its sources. A handler says nothing of this, in an offer or in an answer,
although an answer copies most of what the offer says. So what stands under these keys in the end,
the session has added.

`Section.Unsigned` holds of what comes from a handler. It also says that nothing stands twice that
may stand once. For directions this is a matter of its own: there are four keys for them, and only
setting one removes the others.
-/

namespace OfferAnswer

namespace Section

variable {m : Section} {a : Attribute} {as : List Attribute}

/-- The keys of what only the session itself can say of itself. -/
def identityKeys : List String := ["ice-ufrag", "ice-pwd", "fingerprint", "candidate", "ssrc"]

/-- Whether a key is neither one of identity nor a direction. -/
def IsNeutral (key : String) : Prop := key ∉ identityKeys ∧ Direction.ofKey? key = none

instance (key : String) : Decidable (IsNeutral key) := inferInstanceAs (Decidable (_ ∧ _))

/-- A section that no session has signed. -/
structure Unsigned (m : Section) : Prop where
  /-- No single-valued key stands twice in it. -/
  tidy : m.Tidy
  /-- Nor does it declare two directions. -/
  directions_le : m.directions.length ≤ 1
  /-- It does not say whose it is. -/
  silent : ∀ key ∈ identityKeys, m.attrsOf key = []

theorem unsigned_of_nil (h : m.attrs = []) : m.Unsigned where
  tidy := tidy_of_nil h
  directions_le := by
    rw [directions, h]
    exact Nat.zero_le 1
  silent key _ := by
    rw [attrsOf, h]
    rfl

theorem Unsigned.addAll (hm : m.Unsigned) (has : ∀ a ∈ as, IsNeutral a.key) :
    (m.addAll as).Unsigned where
  tidy := hm.tidy.addAll as
  directions_le := by
    rw [directions_addAll fun a ha ↦ (has a ha).2]
    exact hm.directions_le
  silent key hkey := by
    rw [attrsOf_addAll_of_ne fun a ha heq ↦ (has a ha).1 (heq ▸ hkey)]
    exact hm.silent key hkey

theorem Unsigned.add (hm : m.Unsigned) (ha : IsNeutral a.key) : (m.add a).Unsigned :=
  hm.addAll fun _ hb ↦ List.mem_singleton.mp hb ▸ ha

theorem Unsigned.remove (hm : m.Unsigned) (gone : String) : (m.remove gone).Unsigned where
  tidy := hm.tidy.remove gone
  directions_le := Nat.le_trans (length_directions_remove m gone) hm.directions_le
  silent key hkey := by
    rw [Section.remove, attrsOf_filter, hm.silent key hkey]
    rfl

theorem Unsigned.setDirection (hm : m.Unsigned) (d : Direction) : (m.setDirection d).Unsigned where
  tidy := hm.tidy.setDirection d
  directions_le := by
    rw [directions_setDirection]
    exact Nat.le_refl 1
  silent key hkey := by
    have hnone : ∀ key ∈ identityKeys, Direction.ofKey? key = none := by decide
    rw [attrsOf_setDirection (hnone key hkey)]
    exact hm.silent key hkey

/-- A rejection keeps the identifier of what it rejects, and nothing else. -/
theorem unsigned_rejected (m : Section) : (rejected m).Unsigned := by
  let bare : Section :=
    { kind := m.kind, port := 0, proto := m.proto, connection := m.connection }
  have hbare : bare.Unsigned := unsigned_of_nil rfl
  cases hmid : m.attr? "mid" with
  | none =>
    have hrejected : rejected m = bare := by
      rw [rejected, hmid]
      rfl
    rw [hrejected]
    exact hbare
  | some mid =>
    have hrejected : rejected m = bare.add (.of "mid" mid) := by
      rw [rejected, hmid]
      rfl
    rw [hrejected]
    exact hbare.add (show IsNeutral "mid" by decide)

end Section

open Section (IsNeutral)

/-! ## Copying -/

/-- What an answer may copy says nothing of the offerer. -/
theorem Handler.IsCommon.isNeutral {derived : List String} {a : Attribute}
    (h : IsCommon derived a) : IsNeutral a.key := by
  have hown := h.2
  rw [isOwn, Bool.or_eq_false_iff, Bool.or_eq_false_iff] at hown
  obtain ⟨⟨hdirection, hice⟩, hkeys⟩ := hown
  refine ⟨fun hmem ↦ ?_, Option.isNone_iff_eq_none.mp (Option.isSome_eq_false_iff.mp hdirection)⟩
  have hall : ∀ key ∈ Section.identityKeys,
      (Text.startsWith key "ice-" || ownKeys.contains key) = true := by
    decide
  have hidentity := hall a.key hmem
  rw [hice, hkeys] at hidentity
  cases hidentity

/-! ## Audio and video -/

namespace RtpHandler

variable {h : RtpHandler} {a : Attribute}

theorem isNeutral_of_mem_formatKeys {key : String} (hkey : key ∈ formatKeys) : IsNeutral key := by
  have hall : ∀ key ∈ formatKeys, IsNeutral key := by decide
  exact hall key hkey

theorem key_of_mem_commonLines {offer : Section} {formats : List String}
    (ha : a ∈ h.commonLines offer formats) : a.key ∈ formatKeys := by
  obtain ⟨f, -, ha⟩ := List.mem_flatMap.mp ha
  cases hc : h.match? offer f with
  | none =>
    rw [hc] at ha
    cases ha
  | some c =>
    rw [hc, Option.map_some, Option.getD_some, answerLines, List.append_assoc] at ha
    rcases List.mem_append.mp ha with ha | ha
    · rw [(Section.of_attrFor? (Option.mem_toList.mp ha)).1]
      decide
    · rcases key_of_mem_otherLines ha with hkey | hkey
      · rw [hkey]
        decide
      · rw [hkey]
        decide

end RtpHandler

/-! ## Handlers -/

namespace MediaHandler

variable {h : MediaHandler} {o a : Section}

theorem unsigned_answer_rtp {h : RtpHandler} (ha : h.createAnswer o = .ok a) : a.Unsigned := by
  rw [RtpHandler.createAnswer] at ha
  split at ha
  · cases ha
  · rw [RtpHandler.answerFormats_eq] at ha
    dsimp only at ha
    split at ha
    · cases ha
    · obtain ⟨copied, rfl, hcopied⟩ := Handler.insertAll_spec
        (fun _ _ hmay ↦ Handler.isCommon_of_canInsertExcept hmay) ha
      let common : Section :=
        { kind := o.kind, port := 1, proto := o.proto
          formats := [] ++ h.commonFormats o o.formats }
      obtain ⟨mux, hmux, hkeys⟩ := addMux_eq o.rtcpMux (common.addAll (h.commonLines o o.formats))
      have hcommon : common.Unsigned := Section.unsigned_of_nil rfl
      have hlines : (common.addAll (h.commonLines o o.formats)).Unsigned :=
        hcommon.addAll fun b hb ↦
          RtpHandler.isNeutral_of_mem_formatKeys (RtpHandler.key_of_mem_commonLines hb)
      rw [hmux]
      refine Section.Unsigned.addAll ?_ fun b hb ↦ (hcopied b hb).isNeutral
      refine Section.Unsigned.setDirection (hlines.addAll fun b hb ↦ ?_) _
      rw [hkeys b hb]
      decide

theorem unsigned_answer_sctp {h : SctpHandler} (ha : h.createAnswer o = .ok a) : a.Unsigned := by
  have hderived : ∀ key ∈ SctpHandler.derivedKeys, IsNeutral key := by decide
  have hlines : ∀ b ∈ h.answerLines o, b.key ∈ SctpHandler.derivedKeys := by
    intro b hb
    rw [SctpHandler.answerLines] at hb
    split at hb
    · rw [List.mem_singleton.mp hb]
      exact (by decide : "sctpmap" ∈ SctpHandler.derivedKeys)
    · rcases List.mem_cons.mp hb with rfl | hb
      · exact (by decide : "sctp-port" ∈ SctpHandler.derivedKeys)
      · rw [List.mem_singleton.mp hb]
        exact (by decide : "max-message-size" ∈ SctpHandler.derivedKeys)
  rw [SctpHandler.createAnswer] at ha
  split at ha
  · cases ha
  · split at ha
    · cases ha
    · obtain ⟨copied, rfl, hcopied⟩ := Handler.insertAll_spec
        (fun _ _ hmay ↦ Handler.isCommon_of_canInsertExcept hmay) ha
      refine Section.Unsigned.addAll ?_ fun b hb ↦ (hcopied b hb).isNeutral
      exact (Section.unsigned_of_nil rfl).addAll fun b hb ↦ hderived _ (hlines b hb)

/-- **An answer does not sign for the session**, and above all it does not repeat what the offerer
has signed. -/
theorem unsigned_createAnswer (ha : h.createAnswer o = .ok a) : a.Unsigned := by
  cases h with
  | rtp h => exact unsigned_answer_rtp ha
  | sctp h => exact unsigned_answer_sctp ha

theorem unsigned_offer {kind : MediaKind} {previous : Option Section}
    (ho : h.offer kind previous = .ok o) : o.Unsigned := by
  obtain ⟨-, rfl⟩ := offer_eq_ok_iff.mp ho
  have hsetup : IsNeutral "setup" := by decide
  cases h with
  | rtp h =>
    have hunlined : (h.unlined previous).Unsigned :=
      ((Section.unsigned_of_nil rfl).add hsetup).setDirection h.direction
    exact hunlined.addAll fun b hb ↦
      RtpHandler.isNeutral_of_mem_formatKeys (RtpHandler.key_of_mem_offerLines hb)
  | sctp h =>
    have hport : IsNeutral "sctp-port" := by decide
    have hsize : IsNeutral "max-message-size" := by decide
    have hunported : SctpHandler.unported.Unsigned := (Section.unsigned_of_nil rfl).add hsetup
    exact (hunported.add hport).add hsize

end MediaHandler

end OfferAnswer
