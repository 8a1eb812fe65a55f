/-
Circular buffers.

A buffer of `n` bytes is used as a ring: position `a + i` is the byte `(a + i) % n`.  `Ring`
says that the ring holds a string from a position on.  A string that is stored in two parts,
up to the end of the buffer and from its start on, is stored in the ring.
-/
import Carrels.Lib.Bytes

namespace Circular

open ByteMemory

variable {n a b : Nat} {m : Mem} {xs ys : List UInt8}

/-- From position `a` on the ring holds `xs`. -/
def Ring (n : Nat) (m : Mem) (a : Nat) (xs : List UInt8) : Prop :=
  ∀ i < xs.length, m ((a + i) % n) = xs.getD i 0

theorem Ring.mod (h : Ring n m a xs) : Ring n m (a % n) xs := by
  intro i hi
  rw [Nat.mod_add_mod]
  exact h i hi

theorem ring_mod_iff : Ring n m (a % n) xs ↔ Ring n m a xs := by
  refine ⟨fun h i hi => ?_, Ring.mod⟩
  rw [← Nat.mod_add_mod]
  exact h i hi

theorem ring_append : Ring n m a (xs ++ ys) ↔ Ring n m a xs ∧ Ring n m (a + xs.length) ys := by
  constructor
  · intro h
    refine ⟨fun i hi => ?_, fun i hi => ?_⟩
    · rw [h i (by rw [List.length_append]; omega), List.getD_append _ _ _ _ hi]
    · have hbyte := h (xs.length + i) (by rw [List.length_append]; omega)
      rwa [List.getD_append_right _ _ _ _ (Nat.le_add_right _ _), Nat.add_sub_cancel_left,
        ← Nat.add_assoc] at hbyte
  · rintro ⟨hx, hy⟩ i hi
    rw [List.length_append] at hi
    rcases Nat.lt_or_ge i xs.length with hlt | hge
    · rw [hx i hlt, List.getD_append _ _ _ _ hlt]
    · have hbyte := hy (i - xs.length) (by omega)
      rw [List.getD_append_right _ _ _ _ hge, ← hbyte]
      congr 2
      omega

theorem ring_cons {x : UInt8} : Ring n m a (x :: xs) ↔ m (a % n) = x ∧ Ring n m (a + 1) xs := by
  have hsingle : Ring n m a [x] ↔ m (a % n) = x := by
    constructor
    · intro h
      exact h 0 (Nat.succ_pos 0)
    · intro h i hi
      obtain rfl : i = 0 := by simpa using hi
      exact h
  rw [← List.singleton_append, ring_append, hsingle]
  rfl

theorem ring_singleton {x : UInt8} : Ring n m a [x] ↔ m (a % n) = x := by
  rw [ring_cons]
  exact and_iff_left fun i hi => absurd hi (Nat.not_lt_zero i)

/-- A string that does not reach the end of the buffer. -/
theorem Ring.holds (h : Ring n m a xs) (hfits : a + xs.length ≤ n) : Holds m a xs xs.length := by
  intro i hi
  rw [← h i hi, Nat.mod_eq_of_lt (by omega)]

/-- Store a string in the ring: up to the end of the buffer, then from its start on. -/
def store (n : Nat) (m : Mem) (a : Nat) (xs : List UInt8) : Mem :=
  write (write m a (xs.take (n - a))) 0 (xs.drop (n - a))

theorem store_singleton (ha : a < n) (x : UInt8) : store n m a [x] = write m a [x] := by
  have hpos : 1 ≤ n - a := Nat.sub_pos_of_lt ha
  rw [store, List.take_of_length_le hpos, List.drop_eq_nil_of_le hpos, write_nil]

/-- The byte at the position `a + i` after a store. -/
theorem store_apply (ha : a ≤ n) (hlen : xs.length ≤ n) {i : Nat} (hi : i < n) :
    store n m a xs ((a + i) % n) = if i < xs.length then xs.getD i 0 else m ((a + i) % n) := by
  rw [store]
  rcases Nat.lt_or_ge (a + i) n with hlow | hhigh
  · rw [Nat.mod_eq_of_lt hlow]
    have htake : (xs.take (n - a)).length = min (n - a) xs.length := List.length_take
    rw [write_of_outside (.inr (by rw [List.length_drop]; omega))]
    split
    case isTrue hin =>
      rw [write_of_mem (by omega) (by omega), Nat.add_sub_cancel_left,
        List.getD_eq_getElem?_getD, List.getElem?_take_of_lt (by omega),
        List.getD_eq_getElem?_getD]
    case isFalse hout => exact write_of_outside (.inr (by omega))
  · have hmod : (a + i) % n = a + i - n := by
      rw [Nat.mod_eq_sub_mod hhigh, Nat.mod_eq_of_lt (by omega)]
    rw [hmod]
    split
    case isTrue hin =>
      rw [write_of_mem (Nat.zero_le _) (by rw [List.length_drop]; omega), Nat.sub_zero,
        List.getD_eq_getElem?_getD, List.getElem?_drop, List.getD_eq_getElem?_getD]
      congr 2
      omega
    case isFalse hout =>
      rw [write_of_outside (.inr (by rw [List.length_drop]; omega)),
        write_of_outside (.inl (by omega))]

theorem ring_store (ha : a ≤ n) (hlen : xs.length ≤ n) : Ring n (store n m a xs) a xs := by
  intro i hi
  rw [store_apply ha hlen (by omega), if_pos hi]

/-- A store leaves the strings between its end and its start. -/
theorem Ring.store (h : Ring n m b ys) (ha : a ≤ n)
    (hfits : ys.length + xs.length ≤ n) (hplace : (b + ys.length) % n = a % n) :
    Ring n (store n m a xs) b ys := by
  intro i hi
  -- The position `b + i` lies `n - ys.length + i` behind `a`.
  have hpos : (b + i) % n = (a + (n - ys.length + i)) % n := by
    rw [← Nat.mod_add_mod a, ← hplace, Nat.mod_add_mod,
      show b + ys.length + (n - ys.length + i) = b + i + n from by omega, Nat.add_mod_right]
  rw [hpos, store_apply ha (by omega) (by omega), if_neg (by omega), ← hpos]
  exact h i hi

end Circular
