import Mathlib.Data.List.Nodup
import OfferAnswer.Proofs.Sdp.Attributes

/-!
# Sections that are edited

A section begins without attributes and is edited: attributes are added one by one, those with a key
are removed, the direction is set. Adding puts the new attribute into one place of the list
(`Attribute.exists_place`). At most one attribute stood in that place before, the very same or the
one that it replaces, and all others stay where they are.

Two things are true of the empty list and of every list that edits make of it: no attribute stands
there twice, and no key that may stand only once. The second is what makes an added value the one
that is found. Adding stops early when the attribute is there already, and in a list with such a key
twice another could stand in front of it.

Directions are another matter. To add one does not replace those with other keys; to set one does.
-/

namespace OfferAnswer

/-! ## The place of an attribute -/

namespace Attribute

variable {a : Attribute} {attrs : List Attribute}

theorem exists_replaceFirst (h : hasKey a.key attrs = true) :
    ∃ front b back, attrs = front ++ b :: back ∧ b.key = a.key ∧
      replaceFirst a attrs = front ++ a :: back := by
  induction attrs with
  | nil => cases h
  | cons c attrs ih =>
    rw [replaceFirst]
    by_cases hc : c.key = a.key
    · rw [if_pos hc]
      exact ⟨[], c, attrs, rfl, hc, rfl⟩
    · rw [hasKey, List.any_cons, beq_false_of_ne hc, Bool.false_or] at h
      obtain ⟨front, b, back, rfl, hb, hreplace⟩ := ih h
      rw [if_neg hc, hreplace]
      exact ⟨c :: front, b, back, rfl, hb, rfl⟩

/-- An attribute that is added takes one place. It was there, or it takes the place of the one that
it replaces, or the place is the end. -/
theorem exists_place (a : Attribute) (attrs : List Attribute) :
    ∃ front gone back, attrs = front ++ gone ++ back ∧ addOnce a attrs = front ++ a :: back ∧
      gone.length ≤ 1 ∧ (gone = [] → back = []) ∧
      ∀ b ∈ gone, b.key = a.key ∧ (b ≠ a → a.isSingle = true) := by
  by_cases ha : a ∈ attrs
  · obtain ⟨front, back, hattrs⟩ := List.append_of_mem ha
    refine ⟨front, [a], back, by simpa using hattrs, (addOnce_of_mem ha).trans hattrs,
      Nat.le_refl 1, fun hgone ↦ absurd hgone (List.cons_ne_nil a []), ?_⟩
    intro b hb
    obtain rfl := List.mem_singleton.mp hb
    exact ⟨rfl, fun hne ↦ absurd rfl hne⟩
  · rw [addOnce, if_neg ha]
    split
    · rename_i hreplace
      obtain ⟨hsingle, hhas⟩ := Bool.and_eq_true_iff.mp hreplace
      obtain ⟨front, b, back, hattrs, hb, hplace⟩ := exists_replaceFirst hhas
      refine ⟨front, [b], back, by simpa using hattrs, hplace, Nat.le_refl 1,
        fun hgone ↦ absurd hgone (List.cons_ne_nil b []), ?_⟩
      intro c hc
      obtain rfl := List.mem_singleton.mp hc
      exact ⟨hb, fun _ ↦ hsingle⟩
    · exact ⟨attrs, [], [], by simp, rfl, Nat.zero_le 1, fun _ ↦ rfl,
        fun b hb ↦ absurd hb List.not_mem_nil⟩

theorem nodup_addOnce (h : attrs.Nodup) (a : Attribute) : (addOnce a attrs).Nodup := by
  by_cases ha : a ∈ attrs
  · rwa [addOnce_of_mem ha]
  · obtain ⟨front, gone, back, hattrs, hplace, -⟩ := exists_place a attrs
    have hothers : (front ++ back).Sublist attrs := by
      rw [hattrs]
      exact (List.sublist_append_left front gone).append (List.Sublist.refl back)
    rw [hplace, List.nodup_middle, List.nodup_cons]
    exact ⟨fun hmem ↦ ha (hothers.subset hmem), hothers.nodup h⟩

end Attribute

namespace Section

variable {m : Section}

/-! ## Edits -/

/-- A change to the attributes of a section. -/
inductive Edit where
  /-- An attribute is added. -/
  | add (a : Attribute)
  /-- The attributes with a key are removed. -/
  | remove (key : String)
  /-- The direction is set. -/
  | setDirection (d : Direction)
deriving DecidableEq, Repr

/-- The section after an edit. -/
def edit (m : Section) : Edit → Section
  | .add a => m.add a
  | .remove key => m.remove key
  | .setDirection d => m.setDirection d

/-- The section that edits make of one without attributes. -/
def built (kind : MediaKind) (port : UInt16) (proto : String) (edits : List Edit) : Section :=
  edits.foldl edit { kind := kind, port := port, proto := proto }

/-- Whether no attribute stands twice, and no key that may stand only once. -/
structure Orderly (m : Section) : Prop where
  /-- No attribute stands twice. -/
  nodup : m.attrs.Nodup
  /-- No key stands twice that may stand only once. -/
  tidy : m.Tidy

theorem nodup_setDirection (h : m.attrs.Nodup) (d : Direction) :
    (m.setDirection d).attrs.Nodup := by
  rw [setDirection, ← List.concat_eq_append]
  refine (h.filter _).concat fun hmem ↦ ?_
  have hnone := (List.mem_filter.mp hmem).2
  rw [Attribute.direction?, Attribute.flag, ofKey?_key] at hnone
  cases hnone

theorem Orderly.edit (hm : m.Orderly) (e : Edit) : (m.edit e).Orderly := by
  cases e with
  | add a => exact ⟨Attribute.nodup_addOnce hm.nodup a, hm.tidy.add a⟩
  | remove key => exact ⟨hm.nodup.filter _, hm.tidy.remove key⟩
  | setDirection d => exact ⟨nodup_setDirection hm.nodup d, hm.tidy.setDirection d⟩

theorem orderly_built (kind : MediaKind) (port : UInt16) (proto : String) (edits : List Edit) :
    (built kind port proto edits).Orderly := by
  induction edits using List.reverseRecOn with
  | nil => exact ⟨List.nodup_nil, tidy_of_nil rfl⟩
  | append_singleton edits e ih =>
    rw [built, List.foldl_append]
    exact ih.edit e

/-- **Whatever edits made a section, its attributes are in order.** None stands twice, and no key
that may stand only once. An attribute with such a key is what is found under it right after it was
added. A direction that was set is the only one. And an attribute that is added takes one place,
where at most one of the same key stood, or else the end, while the others stay as they are. -/
theorem edited_in_order (kind : MediaKind) (port : UInt16) (proto : String) (edits : List Edit) :
    let m := built kind port proto edits
    m.attrs.Nodup ∧ (∀ key ∈ Attribute.singleKeys, (m.attrsOf key).length ≤ 1) ∧
      (∀ a : Attribute, a.key ∈ Attribute.singleKeys → (m.add a).attr? a.key = some a.content) ∧
      (∀ d, (m.setDirection d).directions = [.flag d.key] ∧ (m.setDirection d).direction = d) ∧
      ∀ a, ∃ front gone back, m.attrs = front ++ gone ++ back ∧
        (m.add a).attrs = front ++ a :: back ∧ gone.length ≤ 1 ∧ (gone = [] → back = []) ∧
        ∀ b ∈ gone, b.key = a.key ∧ (b ≠ a → a.isSingle = true) := by
  intro m
  have hm : m.Orderly := orderly_built kind port proto edits
  refine ⟨hm.nodup, hm.tidy, fun a ha ↦ attr?_of_attrsOf (attrsOf_add hm.tidy ha), fun d ↦ ?_,
    fun a ↦ Attribute.exists_place a m.attrs⟩
  exact ⟨directions_setDirection m d, direction_of_directions (directions_setDirection m d)⟩

/-- Edits in which an identifier is given, taken back and given again, and a direction changes. -/
def busyEdits : List Edit :=
  [.add (.of "mid" "0"), .add (.of "rtpmap" "0 PCMU/8000"), .add (.flag "sendonly"),
    .add (.of "mid" "1"), .add (.of "rtpmap" "8 PCMA/8000"), .setDirection .recvOnly,
    .add (.of "mid" "0"), .remove "fmtp", .add (.flag "rtcp-mux")]

theorem busyEdits_in_order :
    let m := built .audio 9 "RTP/AVP" busyEdits
    "mid" ∈ Attribute.singleKeys ∧ (m.attrsOf "mid").length ≤ 1 ∧
      (m.add (.of "mid" "2")).attr? "mid" = some "2" ∧ m.attrs =
        [.of "mid" "0", .of "rtpmap" "0 PCMU/8000", .of "rtpmap" "8 PCMA/8000", .flag "recvonly",
          .flag "rtcp-mux"] := by
  intro m
  have hmid : "mid" ∈ Attribute.singleKeys := by decide
  obtain ⟨-, honce, hfound, -, -⟩ := edited_in_order .audio 9 "RTP/AVP" busyEdits
  exact ⟨hmid, honce "mid" hmid, hfound (.of "mid" "2") hmid, by decide +kernel⟩

/-- Directions that are added stand side by side, and the first counts. -/
example : (built .audio 9 "RTP/AVP" [.add (.flag "sendonly"), .add (.flag "recvonly")]).directions =
    [.flag "sendonly", .flag "recvonly"] := by decide +kernel

end Section

end OfferAnswer
