import Mathlib.Data.List.Nodup

/-!
# Looking up by a key

Tables are lists in which no key stands twice, and what is under a key is the first item that has
it. With distinct keys there is no other, so to look up is to be in the list.
-/

namespace OfferAnswer

variable {α β κ : Type} [BEq κ] [LawfulBEq κ] {k : κ}

/-- Where no key stands twice, an item is found under its own key, and nothing else is. -/
theorem find?_key_eq_some_iff {key : α → κ} {xs : List α} (h : (xs.map key).Nodup) {x : α} :
    xs.find? (fun y ↦ key y == k) = some x ↔ x ∈ xs ∧ key x = k := by
  constructor
  · exact fun hx ↦ ⟨List.mem_of_find?_eq_some hx, by simpa using List.find?_some hx⟩
  · rintro ⟨hmem, rfl⟩
    cases hfound : xs.find? (fun y ↦ key y == key x) with
    | none => exact absurd (beq_self_eq_true (key x)) (List.find?_eq_none.mp hfound x hmem)
    | some y =>
      have hkey : key y = key x := by simpa using List.find?_some hfound
      rw [List.inj_on_of_nodup_map h (List.mem_of_find?_eq_some hfound) hmem hkey]

theorem lookup_eq_some_iff {xs : List (κ × β)} (h : (xs.map (·.1)).Nodup) {v : β} :
    (xs.find? (·.1 == k)).map (·.2) = some v ↔ (k, v) ∈ xs := by
  rw [Option.map_eq_some_iff]
  constructor
  · rintro ⟨x, hx, rfl⟩
    obtain ⟨hmem, rfl⟩ := (find?_key_eq_some_iff h).mp hx
    exact hmem
  · exact fun hmem ↦ ⟨_, (find?_key_eq_some_iff h).mpr ⟨hmem, rfl⟩, rfl⟩

end OfferAnswer
