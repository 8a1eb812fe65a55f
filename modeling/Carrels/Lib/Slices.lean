/-
Half-open ranges cut into slices of one size.

`slice base size c` is the slice number `c` from `base` on, and `span base size n` the
range of the first `n` of them.  Two families of slices are apart slice by slice exactly
when their spans are apart.  A check of neighbours is enough for ranges in a list: where every
range ends before the next one starts, all of them are in order.  After a sort by their starts,
ranges that are not empty pass this check exactly when any two of them are apart.
-/
import Mathlib.Algebra.Order.Ring.Defs
import Mathlib.Data.List.Pairwise
import Mathlib.Data.List.Sort
import Mathlib.Data.Nat.Cast.Order.Ring
import Mathlib.Order.CompletePartialOrder
import Mathlib.Order.Interval.Set.Disjoint
import Mathlib.Tactic.Ring
import Mathlib.Tactic.Linarith

namespace Slices

section Order

variable {α : Type*} [LinearOrder α]

/-- Ranges that are not empty are apart when one ends before the other starts. -/
theorem ico_disjoint_iff {a b a' b' : α} (h : a < b) (h' : a' < b') :
    Disjoint (Set.Ico a b) (Set.Ico a' b') ↔ b ≤ a' ∨ b' ≤ a := by
  rw [Set.Ico_disjoint_Ico, min_le_iff, le_max_iff, le_max_iff]
  constructor
  · rintro ((hle | hle) | (hle | hle))
    · exact absurd h (not_lt_of_ge hle)
    · exact .inl hle
    · exact .inr hle
    · exact absurd h' (not_lt_of_ge hle)
  · rintro (hle | hle)
    · exact .inl (.inr hle)
    · exact .inr (.inl hle)

/-- Neighbours in order are enough for all of them to be. -/
theorem pairwise_of_isChain {ι : Type*} {start stop : ι → α} :
    ∀ {l : List ι}, (∀ i ∈ l, start i ≤ stop i) →
      l.IsChain (fun i j => stop i ≤ start j) → l.Pairwise fun i j => stop i ≤ start j
  | [], _, _ => .nil
  | [i], _, _ => List.pairwise_singleton _ i
  | i :: j :: l, hle, hchain => by
    rw [List.isChain_cons_cons] at hchain
    have hrest := pairwise_of_isChain (fun k hk => hle k (List.mem_cons_of_mem _ hk)) hchain.2
    refine List.pairwise_cons.mpr ⟨fun k hk => ?_, hrest⟩
    rcases List.mem_cons.mp hk with rfl | hk
    · exact hchain.1
    · have hj : start j ≤ stop j := hle j (by simp)
      exact hchain.1.trans (hj.trans (List.rel_of_pairwise_cons hrest hk))

/-- Ranges in the order of their starts, some of which may be equal. -/
theorem isChain_iff_disjoint {ι : Type*} {start stop : ι → α} {l : List ι}
    (hlt : ∀ i ∈ l, start i < stop i) (hsorted : l.Pairwise fun i j => start i ≤ start j) :
    l.IsChain (fun i j => stop i ≤ start j) ↔
      l.Pairwise fun i j => Disjoint (Set.Ico (start i) (stop i)) (Set.Ico (start j) (stop j)) := by
  constructor
  · intro hchain
    have hpairs := pairwise_of_isChain (fun i hi => (hlt i hi).le) hchain
    refine hpairs.imp_of_mem fun {i j} hi hj hle => ?_
    exact (ico_disjoint_iff (hlt i hi) (hlt j hj)).mpr (.inl hle)
  · intro hdisjoint
    refine List.Pairwise.isChain ((hdisjoint.and hsorted).imp_of_mem fun {i j} hi hj h => ?_)
    rcases (ico_disjoint_iff (hlt i hi) (hlt j hj)).mp h.1 with hle | hle
    · exact hle
    -- The later range would be empty.
    · exact absurd ((hlt j hj).trans_le hle) (not_lt_of_ge h.2)

theorem isChain_insertionSort_iff {ι : Type*} (start stop : ι → α) {l : List ι}
    (hlt : ∀ i ∈ l, start i < stop i) :
    (l.insertionSort fun i j => start i ≤ start j).IsChain (fun i j => stop i ≤ start j) ↔
      l.Pairwise fun i j => Disjoint (Set.Ico (start i) (stop i)) (Set.Ico (start j) (stop j)) := by
  have : Std.Total fun i j => start i ≤ start j := ⟨fun i j => le_total (start i) (start j)⟩
  have : IsTrans ι fun i j => start i ≤ start j := ⟨fun _ _ _ => le_trans⟩
  have hperm := l.perm_insertionSort fun i j => start i ≤ start j
  rw [isChain_iff_disjoint (fun i hi => hlt i (hperm.mem_iff.mp hi))
    (l.pairwise_insertionSort fun i j => start i ≤ start j)]
  exact hperm.pairwise_iff fun h => h.symm

end Order

variable {α : Type*} [CommRing α] [LinearOrder α] [IsStrictOrderedRing α]

def slice (base size : α) (c : Nat) : Set α :=
  Set.Ico (base + c * size) (base + (c + 1 : Nat) * size)

def span (base size : α) (n : Nat) : Set α := Set.Ico base (base + n * size)

theorem start_le_start {base size : α} (hsize : 0 < size) {c c' : Nat} (h : c ≤ c') :
    base + c * size ≤ base + c' * size := by
  have hcast : (c : α) ≤ c' := Nat.cast_le.mpr h
  have hmul := mul_le_mul_of_nonneg_right hcast hsize.le
  linarith only [hmul]

theorem slice_subset_span {base size : α} (hsize : 0 < size) {c n : Nat} (hc : c < n) :
    slice base size c ⊆ span base size n := by
  refine Set.Ico_subset_Ico ?_ (start_le_start hsize hc)
  have hstart : base + (0 : Nat) * size ≤ base + c * size := start_le_start hsize (Nat.zero_le c)
  simpa using hstart

omit [IsStrictOrderedRing α] in
theorem exists_mem_slice {base size x : α} {n : Nat} (hx : x ∈ span base size n) :
    ∃ c < n, x ∈ slice base size c := by
  induction n with
  | zero =>
    have hempty : ¬ x < base + (0 : Nat) * size := by simpa using hx.1
    exact absurd hx.2 hempty
  | succ n ih =>
    by_cases hlt : x < base + n * size
    · obtain ⟨c, hc, hmem⟩ := ih ⟨hx.1, hlt⟩
      exact ⟨c, by omega, hmem⟩
    · exact ⟨n, by omega, le_of_not_gt hlt, hx.2⟩

theorem disjoint_of_ne {base size : α} (hsize : 0 < size) {c c' : Nat} (h : c ≠ c') :
    Disjoint (slice base size c) (slice base size c') := by
  rw [slice, slice, Set.Ico_disjoint_Ico]
  rcases Nat.lt_or_gt_of_ne h with hlt | hgt
  · exact (min_le_left _ _).trans ((start_le_start hsize hlt).trans (le_max_right _ _))
  · exact (min_le_right _ _).trans ((start_le_start hsize hgt).trans (le_max_left _ _))

/-- Two families: slice by slice, or span against span. -/
theorem disjoint_iff_span {b s b' s' : α} (hs : 0 < s) (hs' : 0 < s') (n n' : Nat) :
    (∀ c < n, ∀ c' < n', Disjoint (slice b s c) (slice b' s' c')) ↔
      Disjoint (span b s n) (span b' s' n') := by
  constructor
  · intro h
    rw [Set.disjoint_left]
    intro x hx hx'
    obtain ⟨c, hc, hmem⟩ := exists_mem_slice hx
    obtain ⟨c', hc', hmem'⟩ := exists_mem_slice hx'
    exact Set.disjoint_left.mp (h c hc c' hc') hmem hmem'
  · intro h c hc c' hc'
    exact h.mono (slice_subset_span hs hc) (slice_subset_span hs' hc')

end Slices
