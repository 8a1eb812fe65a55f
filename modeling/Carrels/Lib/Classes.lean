/-
Choosing from the classes of a list.

A key divides the elements of a list into classes.  A choice is a class and a place in it;
different choices pick different elements of the list, so what is picked is a part of the
list, counted with repetitions.
-/
import Mathlib.Data.List.Nodup
import Mathlib.Data.List.Perm.Subperm
import Mathlib.Data.List.Dedup

namespace Classes

variable {α κ : Type*} [DecidableEq κ] (key : α → κ)

/-- The class of `k`, in the order of the list. -/
def members (l : List α) (k : κ) : List α := l.filter fun a => key a = k

theorem members_filter_ne (l : List α) {k k' : κ} (h : k' ≠ k) :
    members key (l.filter fun a => ¬ key a = k) k' = members key l k' := by
  rw [members, List.filter_filter, members]
  refine List.filter_congr fun a _ => ?_
  by_cases ha : key a = k'
  · simp [ha, h]
  · simp [ha]

/-- Different classes have no element in common. -/
theorem flatMap_members_subperm {ks : List κ} (hks : ks.Nodup) (l : List α) :
    (ks.flatMap (members key l)).Subperm l := by
  induction ks generalizing l with
  | nil => exact List.nil_subperm
  | cons k ks ih =>
    obtain ⟨hk, hks⟩ := List.nodup_cons.mp hks
    have hrest : ks.flatMap (members key l) =
        ks.flatMap (members key (l.filter fun a => ¬ key a = k)) := by
      refine List.flatMap_congr fun k' hk' => ?_
      refine (members_filter_ne key l fun heq => hk ?_).symm
      exact heq ▸ hk'
    rw [List.flatMap_cons, hrest]
    refine ((List.Subperm.refl _).append (ih hks _)).trans ?_
    have hperm := List.filter_append_perm (fun a => decide (key a = k)) l
    simpa [members] using hperm.subperm

theorem filterMap_places (l : List α) : (List.range l.length).filterMap (fun i => l[i]?) = l := by
  induction l with
  | nil => rfl
  | cons a l ih =>
    rw [List.length_cons, List.range_succ_eq_map, List.filterMap_cons, List.filterMap_map]
    exact congrArg (a :: ·) ih

/-- What different choices pick is a part of the list. -/
theorem picked_subperm {l : List α} {choices : List (κ × Nat)} (h : choices.Nodup) :
    (choices.filterMap fun c => (members key l c.1)[c.2]?).Subperm l := by
  let ks := (choices.map Prod.fst).dedup
  let pick : κ × Nat → Option α := fun c => (members key l c.1)[c.2]?
  let places := ks.flatMap fun k => (List.range (members key l k).length).map (Prod.mk k)
  have hall : places.filterMap pick = ks.flatMap (members key l) := by
    rw [List.filterMap_flatMap]
    refine List.flatMap_congr fun k _ => ?_
    rw [List.filterMap_map]
    exact filterMap_places (members key l k)
  -- A choice without an element picks nothing.
  have hsome : (choices.filter fun c => (pick c).isSome).filterMap pick =
      choices.filterMap pick := by
    rw [List.filterMap_filter]
    refine List.filterMap_congr fun c _ => ?_
    cases pick c <;> rfl
  have hsub : (choices.filter fun c => (pick c).isSome).Subperm places := by
    refine List.subperm_of_subset (h.filter _) fun c hc => ?_
    obtain ⟨hmem, hpick⟩ := List.mem_filter.mp hc
    obtain ⟨hlt, -⟩ := List.getElem?_eq_some_iff.mp (Option.some_get hpick).symm
    refine List.mem_flatMap.mpr ⟨c.1, ?_, List.mem_map.mpr ⟨c.2, List.mem_range.mpr hlt, rfl⟩⟩
    exact List.mem_dedup.mpr (List.mem_map_of_mem hmem)
  obtain ⟨l', hperm, hsublist⟩ := hsub
  have hpicked : (choices.filterMap pick).Subperm (places.filterMap pick) :=
    hsome ▸ ⟨l'.filterMap pick, hperm.filterMap pick, hsublist.filterMap pick⟩
  exact hpicked.trans (hall ▸ flatMap_members_subperm key (List.nodup_dedup _) l)

end Classes
