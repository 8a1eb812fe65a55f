/-
Bit masks as sets of small numbers.

`1#w <<< i` is the mask of one member.  The lemmas turn the three idioms of C code
on masks (test, set and clear of one bit) into membership.
-/
import Mathlib.Data.Nat.Init

namespace BitMask

variable {w : Nat}

/-- `i` is a member of the mask. -/
abbrev Has (m : BitVec w) (i : Nat) : Prop := m.getLsbD i = true

theorem getLsbD_bit (i j : Nat) :
    (1#w <<< i).getLsbD j = (decide (i < w) && decide (i = j)) :=
  BitVec.getLsbD_twoPow i j

/-- The test `m & (1 << i)`; a shift beyond the width leaves no bit to find. -/
theorem and_bit_eq_zero_iff (m : BitVec w) (i : Nat) : m &&& 1#w <<< i = 0#w ↔ ¬ Has m i := by
  constructor
  · intro h hm
    have hi : i < w := BitVec.lt_of_getLsbD hm
    have hbit : (m &&& 1#w <<< i).getLsbD i = true := by
      rw [BitVec.getLsbD_and, getLsbD_bit, hm]
      simp [hi]
    rw [h] at hbit
    simp at hbit
  · intro h
    refine BitVec.eq_of_getLsbD_eq fun j _ => ?_
    rw [BitVec.getLsbD_and, getLsbD_bit, BitVec.getLsbD_zero]
    by_cases hij : i = j
    · subst hij
      have hno : m.getLsbD i = false := Bool.eq_false_iff.mpr h
      rw [hno, Bool.false_and]
    · simp [hij]

theorem eq_of_has {m m' : BitVec w} (h : ∀ i, Has m i ↔ Has m' i) : m = m' :=
  BitVec.eq_of_getLsbD_eq fun i _ => Bool.eq_iff_iff.mpr (h i)

theorem has_or {m m' : BitVec w} {i : Nat} : Has (m ||| m') i ↔ Has m i ∨ Has m' i := by
  rw [Has, BitVec.getLsbD_or, Bool.or_eq_true]

theorem has_and {m m' : BitVec w} {i : Nat} : Has (m &&& m') i ↔ Has m i ∧ Has m' i := by
  rw [Has, BitVec.getLsbD_and, Bool.and_eq_true]

theorem has_or_bit {m : BitVec w} {i j : Nat} (hi : i < w) :
    Has (m ||| 1#w <<< i) j ↔ Has m j ∨ i = j := by
  rw [Has, BitVec.getLsbD_or, getLsbD_bit]
  simp [hi]

/-- Members added one after the other, in any order and any number of times. -/
theorem has_foldl_or_bit {m : BitVec w} {is : List Nat} {j : Nat} (h : ∀ i ∈ is, i < w) :
    Has (is.foldl (fun m i => m ||| 1#w <<< i) m) j ↔ Has m j ∨ j ∈ is := by
  induction is generalizing m with
  | nil => simp
  | cons i is ih =>
    obtain ⟨hi, h⟩ := List.forall_mem_cons.mp h
    rw [List.foldl_cons, ih h, has_or_bit hi, List.mem_cons, or_assoc, eq_comm]

theorem has_and_not_bit {m : BitVec w} {i j : Nat} (hi : i < w) :
    Has (m &&& ~~~(1#w <<< i)) j ↔ Has m j ∧ i ≠ j := by
  rw [Has, BitVec.getLsbD_and, BitVec.getLsbD_not, getLsbD_bit]
  by_cases hj : j < w
  · simp [hi, hj]
  · have : m.getLsbD j = false := BitVec.getLsbD_of_ge m j (Nat.le_of_not_lt hj)
    simp [Has, this]

/-- A member that was not there is added and removed again. -/
theorem or_bit_and_not_bit {m : BitVec w} {i : Nat} (hi : i < w) (h : ¬ Has m i) :
    (m ||| 1#w <<< i) &&& ~~~(1#w <<< i) = m := by
  refine BitVec.eq_of_getLsbD_eq fun j _ => Bool.eq_iff_iff.mpr ?_
  change Has _ j ↔ Has m j
  rw [has_and_not_bit hi, has_or_bit hi]
  constructor
  · rintro ⟨hm | hij, hne⟩
    · exact hm
    · exact absurd hij hne
  · exact fun hm => ⟨Or.inl hm, fun hij => h (hij ▸ hm)⟩

theorem not_has_zero (i : Nat) : ¬ Has (0#w) i := by simp

end BitMask
