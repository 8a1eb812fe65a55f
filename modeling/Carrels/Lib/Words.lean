/-
Words given by classes of letters, and their lower case.
-/
import Mathlib

namespace Words

open scoped Computability

variable {α : Type*}

/-- The words of one letter of a class. -/
def letter (p : Set α) : Language α := (fun a => [a]) '' p

theorem mem_letter_mul {p : Set α} {l : Language α} {w : List α} :
    w ∈ letter p * l ↔ ∃ a ∈ p, ∃ v ∈ l, w = a :: v := by
  rw [Language.mem_mul]
  constructor
  · rintro ⟨_, ⟨a, ha, rfl⟩, v, hv, rfl⟩
    exact ⟨a, ha, v, hv, rfl⟩
  · rintro ⟨a, ha, v, hv, rfl⟩
    exact ⟨[a], ⟨a, ha, rfl⟩, v, hv, rfl⟩

theorem mem_kstar_letter {p : Set α} {w : List α} : w ∈ (letter p)∗ ↔ ∀ a ∈ w, a ∈ p := by
  rw [Language.mem_kstar]
  constructor
  · rintro ⟨words, rfl, hwords⟩ a ha
    obtain ⟨word, hword, ha⟩ := List.mem_flatten.mp ha
    obtain ⟨b, hb, rfl⟩ := hwords word hword
    rwa [List.mem_singleton.mp ha]
  · intro h
    refine ⟨w.map fun a => [a], by rw [← List.flatMap_def, List.flatMap_singleton'], ?_⟩
    intro word hword
    obtain ⟨a, ha, rfl⟩ := List.mem_map.mp hword
    exact ⟨a, h a ha, rfl⟩

theorem map_toUpper_map_toLower {w : List Char} (h : ∀ c ∈ w, ¬ c.isLower = true) :
    (w.map Char.toLower).map Char.toUpper = w := by
  rw [List.map_map]
  refine (List.map_congr_left fun c hc => ?_).trans (List.map_id w)
  show c.toLower.toUpper = c
  rw [Char.toUpper_toLower_eq_toUpper, Char.toUpper_eq_of_not_isLower (h c hc)]

theorem toLower_injOn :
    Set.InjOn String.toLower {s | ∀ c ∈ s.toList, ¬ c.isLower = true} := by
  intro s hs t ht heq
  have hlist : s.toList.map Char.toLower = t.toList.map Char.toLower := by
    rw [← String.toList_map, ← String.toList_map]
    exact congrArg String.toList heq
  have hupper := congrArg (List.map Char.toUpper) hlist
  rw [map_toUpper_map_toLower hs, map_toUpper_map_toLower ht] at hupper
  exact String.toList_inj.mp hupper

end Words
