import OfferAnswer.Proofs.Mid
import OfferAnswer.Sdp.Description

/-!
# What a description says of a section

A section may leave to the session part what is the same for all; `Description.inherited?` looks in
both places, and a section that says something itself is heard. A description is consistent if each
of its sections is. And a bundle group that was written is read as the same group, because
identifiers survive in their texts and have no spaces.
-/

namespace OfferAnswer

namespace Description

variable {d : Description} {i : Nat} {m : Section} {key value : String}

/-! ## Sections that speak for themselves -/

theorem inherited?_of_attr? (hm : d.sections[i]? = some m) (h : m.attr? key = some value) :
    d.inherited? i key = some value := by
  rw [inherited?, hm, Option.bind_some, h, Option.some_or]

theorem iceCredentials?_of_attr? {ufrag password : String} (hm : d.sections[i]? = some m)
    (hufrag : m.attr? "ice-ufrag" = some ufrag) (hpwd : m.attr? "ice-pwd" = some password) :
    d.iceCredentials? i = some ⟨ufrag, password⟩ := by
  rw [iceCredentials?, inherited?_of_attr? hm hufrag, inherited?_of_attr? hm hpwd]
  rfl

theorem fingerprint?_of_attr? (hm : d.sections[i]? = some m)
    (h : m.attr? "fingerprint" = some value) : d.fingerprint? i = Fingerprint.ofText? value := by
  rw [fingerprint?, inherited?_of_attr? hm h, Option.bind_some]

theorem ofText?_text (setup : Setup) : Setup.ofText? setup.text = some setup := by
  cases setup <;> decide

theorem setup?_of_attr? {setup : Setup} (hm : d.sections[i]? = some m)
    (h : m.attr? "setup" = some setup.text) : d.setup? i = some setup := by
  rw [setup?, inherited?_of_attr? hm h, Option.bind_some, ofText?_text]

theorem midOf?_of_mid? {mid : Mid} (hm : d.sections[i]? = some m) (h : m.mid? = some mid) :
    d.midOf? i = some mid := by
  rw [midOf?, hm, Option.map_some, h, Option.getD_some]

/-! ## Consistency -/

theorem inconsistencyFrom_eq_none {ms : List Section} :
    inconsistencyFrom i ms = none ↔ ∀ m ∈ ms, m.fault? = none := by
  induction ms generalizing i with
  | nil => exact ⟨fun _ _ hm ↦ absurd hm List.not_mem_nil, fun _ ↦ rfl⟩
  | cons m ms ih =>
    rw [inconsistencyFrom, List.forall_mem_cons]
    cases hm : m.fault? with
    | none => exact ih.trans (and_iff_right rfl).symm
    | some fault => exact ⟨nofun, fun h ↦ nomatch h.1⟩

/-- A section is consistent if it has a protocol and, unless it is rejected, formats. -/
theorem fault?_eq_none (hproto : m.proto.isEmpty = false)
    (hformats : m.isRejected = true ∨ m.formats ≠ []) : m.fault? = none := by
  have hempty : (!m.isRejected && m.formats.isEmpty) = false := by
    rcases hformats with hrej | hne
    · rw [hrej]
      rfl
    · rw [List.isEmpty_eq_false_iff.mpr hne, Bool.and_false]
  rw [Section.fault?, hempty, hproto, if_neg Bool.false_ne_true, if_neg Bool.false_ne_true]

theorem inconsistency?_eq_none : d.inconsistency? = none ↔ ∀ m ∈ d.sections, m.fault? = none :=
  inconsistencyFrom_eq_none

end Description

/-! ## Groups -/

namespace SessionPart

variable {mids : List Mid} {value : String}

/-- The identifiers of a group are made from names. -/
theorem named_of_bundleOf? (h : bundleOf? value = some mids) : ∀ m ∈ mids, m.Named := by
  rw [bundleOf?] at h
  split at h
  · split at h
    · cases h
      intro m hm
      obtain ⟨w, hw, rfl⟩ := List.mem_map.mp hm
      refine ⟨String.ofList w, fun hempty ↦ ?_, rfl⟩
      have hne := of_decide_eq_true (List.mem_filter.mp hw).2
      rw [← String.toList_eq_nil_iff, String.toList_ofList] at hempty
      exact hne hempty
    · cases h
  · cases h

theorem named_of_bundle? {s : SessionPart} (h : s.bundle? = some mids) : ∀ m ∈ mids, m.Named := by
  obtain ⟨a, -, ha⟩ := List.exists_of_findSome?_eq_some h
  split at ha
  · obtain ⟨value, -, hvalue⟩ := Option.bind_eq_some_iff.mp ha
    exact named_of_bundleOf? hvalue
  · cases ha

/-- A group that was written is read without its empty names. -/
theorem bundleOf?_of_legible (hne : mids ≠ []) (h : ∀ m ∈ mids, m.Legible) :
    bundleOf? ("BUNDLE " ++ Text.join " " (mids.map Mid.text)) =
      some (mids.filter fun m ↦ m.text.toList ≠ []) := by
  have hwords : (mids.map Mid.text).map String.toList ≠ [] := by simpa using hne
  have hcut : Text.splitAt ' ' ("BUNDLE " ++ Text.join " " (mids.map Mid.text)).toList =
      "BUNDLE".toList :: (mids.map Mid.text).map String.toList := by
    have hjoin : (Text.join " " (mids.map Mid.text)).toList =
        Text.joinWith [' '] ((mids.map Mid.text).map String.toList) := String.toList_ofList
    rw [String.toList_append, hjoin]
    refine (Text.splitAt_append (w := "BUNDLE".toList) (by decide) _).trans (congrArg _ ?_)
    refine Text.splitAt_joinWith hwords fun w hw ↦ ?_
    obtain ⟨t, ht, rfl⟩ := List.mem_map.mp hw
    obtain ⟨m, hm, rfl⟩ := List.mem_map.mp ht
    exact (h m hm).space_notMem
  rw [bundleOf?, hcut]
  dsimp only
  rw [if_pos rfl, Option.some_inj, List.map_map, List.filter_map, List.map_map]
  refine (List.map_congr_left fun m hm ↦ ?_).trans (List.map_id _)
  exact (congrArg Mid.ofText String.ofList_toList).trans (h m (List.mem_filter.mp hm).1)

end SessionPart

end OfferAnswer
