/-
Byte-addressed memory.

A memory is a function from addresses to bytes.  Stores are given in closed form,
one conditional for the range they cover, so a load from the result of any number
of stores is a decision about one address at a time.
-/
import Mathlib.Algebra.GroupWithZero.Nat
import Mathlib.Data.List.GetD

namespace ByteMemory

abbrev Mem := Nat → UInt8

/-- The bytes of a string. -/
def bytes (s : String) : List UInt8 := s.toList.map fun c => UInt8.ofNat c.toNat

/-- Store the bytes `bs` from address `a` on. -/
def write (m : Mem) (a : Nat) (bs : List UInt8) : Mem := fun x =>
  if a ≤ x ∧ x < a + bs.length then bs.getD (x - a) 0 else m x

/-- Store `n` copies of `v` from address `a` on. -/
def fill (m : Mem) (a n : Nat) (v : UInt8) : Mem := fun x =>
  if a ≤ x ∧ x < a + n then v else m x

/-- Copy `n` bytes from `src` to `dst`. -/
def copy (m : Mem) (dst src n : Nat) : Mem := fun x =>
  if dst ≤ x ∧ x < dst + n then m (src + (x - dst)) else m x

/-- Replace the `n` bytes from address `a` on by `f 0`, `f 1`, ... -/
def overlay (m : Mem) (a n : Nat) (f : Nat → UInt8) : Mem := fun x =>
  if a ≤ x ∧ x < a + n then f (x - a) else m x

/-- The little-endian value of the `n` bytes from address `a` on. -/
def readLE (m : Mem) (a : Nat) : Nat → Nat
  | 0 => 0
  | n + 1 => (m a).toNat + 256 * readLE m (a + 1) n

def read16 (m : Mem) (a : Nat) : BitVec 16 := BitVec.ofNat 16 (readLE m a 2)

def read32 (m : Mem) (a : Nat) : BitVec 32 := BitVec.ofNat 32 (readLE m a 4)

def read64 (m : Mem) (a : Nat) : BitVec 64 := BitVec.ofNat 64 (readLE m a 8)

/-- The `n` low bytes of `v`, the lowest first. -/
def toLE (v : Nat) : Nat → List UInt8
  | 0 => []
  | n + 1 => UInt8.ofNat v :: toLE (v / 256) n

/-- A sequence of stores, the first one first. -/
def writes (m : Mem) : List (Nat × List UInt8) → Mem
  | [] => m
  | (a, bs) :: rest => writes (write m a bs) rest

theorem writes_append (m : Mem) (ws ws' : List (Nat × List UInt8)) :
    writes m (ws ++ ws') = writes (writes m ws) ws' := by
  induction ws generalizing m with
  | nil => rfl
  | cons w ws ih => exact ih (write m w.1 w.2)

/-! ## Ranges

Two memories that agree on a range still agree on it after the same stores, and a
store outside the range changes nothing in it. -/

/-- The memories hold the same bytes from `a` up to `a + n`. -/
def AgreeOn (a n : Nat) (m m' : Mem) : Prop := ∀ x, a ≤ x → x < a + n → m x = m' x

theorem AgreeOn.refl (a n : Nat) (m : Mem) : AgreeOn a n m m := fun _ _ _ => rfl

theorem AgreeOn.trans {a n : Nat} {m₁ m₂ m₃ : Mem}
    (h₁ : AgreeOn a n m₁ m₂) (h₂ : AgreeOn a n m₂ m₃) : AgreeOn a n m₁ m₃ :=
  fun x hl hr => (h₁ x hl hr).trans (h₂ x hl hr)

theorem AgreeOn.write {a n : Nat} {m m' : Mem} (h : AgreeOn a n m m') (b : Nat)
    (bs : List UInt8) : AgreeOn a n (write m b bs) (write m' b bs) := by
  intro x hl hr
  unfold ByteMemory.write
  split
  · rfl
  · exact h x hl hr

theorem AgreeOn.writes {a n : Nat} {m m' : Mem} (h : AgreeOn a n m m')
    (ws : List (Nat × List UInt8)) : AgreeOn a n (writes m ws) (writes m' ws) := by
  induction ws generalizing m m' with
  | nil => exact h
  | cons w ws ih => exact ih (h.write w.1 w.2)

theorem agreeOn_fill {a n b k : Nat} (h : b + k ≤ a ∨ a + n ≤ b) (m : Mem) (v : UInt8) :
    AgreeOn a n (fill m b k v) m := by
  intro x hl hr
  unfold fill
  rw [if_neg (by omega)]

theorem agreeOn_overlay {a n b k : Nat} (h : b + k ≤ a ∨ a + n ≤ b) (m : Mem)
    (f : Nat → UInt8) : AgreeOn a n (overlay m b k f) m := by
  intro x hl hr
  unfold overlay
  rw [if_neg (by omega)]

theorem AgreeOn.part {a n b k : Nat} {m m' : Mem} (h : AgreeOn a n m m') (hl : a ≤ b)
    (hr : b + k ≤ a + n) : AgreeOn b k m m' := fun x hxl hxr => h x (by omega) (by omega)

theorem write_of_mem {m : Mem} {a x : Nat} {bs : List UInt8} (hl : a ≤ x)
    (hr : x < a + bs.length) : write m a bs x = bs.getD (x - a) 0 := by
  unfold write
  rw [if_pos ⟨hl, hr⟩]

theorem write_of_outside {m : Mem} {a x : Nat} {bs : List UInt8}
    (h : x < a ∨ a + bs.length ≤ x) : write m a bs x = m x := by
  unfold write
  rw [if_neg (by omega)]

/-- Stores that do not reach a range leave it. -/
theorem agreeOn_writes {a n : Nat} {ws : List (Nat × List UInt8)}
    (h : ∀ w ∈ ws, w.1 + w.2.length ≤ a ∨ a + n ≤ w.1) (m : Mem) :
    AgreeOn a n (writes m ws) m := by
  induction ws generalizing m with
  | nil => exact .refl a n m
  | cons w ws ih =>
    obtain ⟨hw, hws⟩ := List.forall_mem_cons.mp h
    refine (ih hws (write m w.1 w.2)).trans fun x hl hr => write_of_outside ?_
    omega

/-! ## Strings of bytes -/

/-- From address `a` on, the memory holds the first `n` bytes of `bs`. -/
def Holds (m : Mem) (a : Nat) (bs : List UInt8) (n : Nat) : Prop :=
  ∀ i < n, m (a + i) = bs.getD i 0

theorem holds_zero (m : Mem) (a : Nat) (bs : List UInt8) : Holds m a bs 0 :=
  fun _ hi => absurd hi (Nat.not_lt_zero _)

/-- `memcmp` finds the bytes `bs` at address `a`. -/
def memEq (m : Mem) (a : Nat) (bs : List UInt8) : Bool :=
  (List.range bs.length).all fun i => m (a + i) == bs.getD i 0

theorem memEq_iff {m : Mem} {a : Nat} {bs : List UInt8} :
    memEq m a bs = true ↔ Holds m a bs bs.length := by
  simp [memEq, Holds]

theorem memEq_congr {m m' : Mem} {a : Nat} {bs : List UInt8} (h : AgreeOn a bs.length m m') :
    memEq m a bs = memEq m' a bs := by
  rw [Bool.eq_iff_iff, memEq_iff, memEq_iff]
  refine forall₂_congr fun i hi => ?_
  rw [h (a + i) (Nat.le_add_right a i) (Nat.add_lt_add_left hi a)]

/-- A part of `bs` stored at its own place. -/
theorem write_part (m : Mem) (a : Nat) {bs part : List UInt8} {k i : Nat}
    (h : part <+: bs.drop k) (hl : k ≤ i) (hr : i < k + part.length) :
    write m (a + k) part (a + i) = bs.getD i 0 := by
  obtain ⟨post, hpost⟩ := h
  rw [write_of_mem (by omega) (by omega), show a + i - (a + k) = i - k from by omega]
  have hget : (part ++ post)[i - k]? = part[i - k]? := List.getElem?_append_left (by omega)
  rw [hpost, List.getElem?_drop, show k + (i - k) = i from by omega] at hget
  rw [List.getD_eq_getElem?_getD, List.getD_eq_getElem?_getD, hget]

theorem Holds.write_part {m : Mem} {a n : Nat} {bs part : List UInt8} {k : Nat}
    (h : Holds m a bs n) (hpart : part <+: bs.drop k) :
    Holds (write m (a + k) part) a bs n := by
  intro i hi
  by_cases hin : k ≤ i ∧ i < k + part.length
  · exact ByteMemory.write_part m a hpart hin.1 hin.2
  · rw [write_of_outside (by omega)]
    exact h i hi

theorem Holds.append {m : Mem} {a n : Nat} {bs part : List UInt8} (h : Holds m a bs n)
    (hpart : part <+: bs.drop n) : Holds (write m (a + n) part) a bs (n + part.length) := by
  intro i hi
  by_cases hin : n ≤ i
  · exact ByteMemory.write_part m a hpart hin hi
  · exact h.write_part hpart i (Nat.lt_of_not_le hin)

theorem length_toLE (v n : Nat) : (toLE v n).length = n := by
  induction n generalizing v with
  | zero => rfl
  | succ n ih => rw [toLE, List.length_cons, ih]

theorem ofNat_toNat_mod (n : Nat) (x : BitVec (8 * n)) :
    BitVec.ofNat (8 * n) (x.toNat % 256 ^ n) = x := by
  have hpow : 256 ^ n = 2 ^ (8 * n) := by rw [Nat.pow_mul]
  rw [hpow, Nat.mod_eq_of_lt x.isLt, BitVec.ofNat_toNat, BitVec.setWidth_eq]

/-- Loading a range depends on the bytes of that range only. -/
theorem readLE_congr {m m' : Mem} {a n : Nat} (h : AgreeOn a n m m') :
    readLE m a n = readLE m' a n := by
  induction n generalizing a with
  | zero => rfl
  | succ n ih =>
    rw [readLE, readLE, h a (Nat.le_refl a) (by omega),
      ih (fun x hl hr => h x (by omega) (by omega))]

theorem read16_congr {m m' : Mem} {a : Nat} (h : AgreeOn a 2 m m') : read16 m a = read16 m' a := by
  rw [read16, read16, readLE_congr h]

theorem read32_congr {m m' : Mem} {a : Nat} (h : AgreeOn a 4 m m') : read32 m a = read32 m' a := by
  rw [read32, read32, readLE_congr h]

theorem read64_congr {m m' : Mem} {a : Nat} (h : AgreeOn a 8 m m') : read64 m a = read64 m' a := by
  rw [read64, read64, readLE_congr h]

theorem write_cons (m : Mem) (a : Nat) (b : UInt8) (bs : List UInt8) :
    write m a (b :: bs) = write (write m a [b]) (a + 1) bs := by
  funext x
  simp only [write, List.length_cons, List.length_nil]
  by_cases hx : x = a
  · subst hx
    simp only [Nat.le_refl, Nat.sub_self, List.getD_cons_zero, true_and]
    rw [if_pos (by omega), if_neg (by omega), if_pos (by omega)]
  · by_cases hin : a ≤ x ∧ x < a + (bs.length + 1)
    · have hsub : x - a = (x - (a + 1)) + 1 := by omega
      rw [if_pos hin, if_pos (by omega), hsub, List.getD_cons_succ]
    · rw [if_neg hin, if_neg (by omega), if_neg (by omega)]

theorem write_nil (m : Mem) (a : Nat) : write m a [] = m := by
  funext x
  exact write_of_outside (by simp only [List.length_nil]; omega)

theorem write_append (m : Mem) (a : Nat) (bs cs : List UInt8) :
    write m a (bs ++ cs) = write (write m a bs) (a + bs.length) cs := by
  induction bs generalizing m a with
  | nil => rw [List.nil_append, write_nil, List.length_nil, Nat.add_zero]
  | cons b bs ih =>
      rw [List.cons_append, write_cons, ih, write_cons m a b bs, List.length_cons,
        Nat.add_right_comm, Nat.add_assoc]

theorem readLE_write_toLE (m : Mem) (a v n : Nat) :
    readLE (write m a (toLE v n)) a n = v % 256 ^ n := by
  induction n generalizing m a v with
  | zero => rw [readLE, Nat.pow_zero, Nat.mod_one]
  | succ n ih =>
    rw [toLE, write_cons, readLE, ih, write_of_outside (Or.inl (by omega)),
      write_of_mem (Nat.le_refl a) (by simp), Nat.sub_self, List.getD_cons_zero,
      UInt8.toNat_ofNat', show 2 ^ 8 = 256 from rfl, Nat.pow_succ', Nat.mod_mul]

/-- A little-endian value in the middle of a stored record loads back. -/
theorem readLE_write_field (m : Mem) (a v n : Nat) (pre post : List UInt8) :
    readLE (write m a (pre ++ (toLE v n ++ post))) (a + pre.length) n = v % 256 ^ n := by
  rw [write_append, write_append, length_toLE]
  have hpost : readLE (write (write (write m a pre) (a + pre.length) (toLE v n))
      (a + pre.length + n) post) (a + pre.length) n =
      readLE (write (write m a pre) (a + pre.length) (toLE v n)) (a + pre.length) n :=
    readLE_congr fun x _ hr => write_of_outside (Or.inl hr)
  rw [hpost, readLE_write_toLE]

theorem writes_filter (m : Mem) (ws : List (Nat × List UInt8)) :
    writes m (ws.filter fun w => !w.2.isEmpty) = writes m ws := by
  induction ws generalizing m with
  | nil => rfl
  | cons w ws ih =>
    obtain ⟨a, bs⟩ := w
    cases bs with
    | nil => rw [List.filter_cons_of_neg (by simp), ih, writes, write_nil]
    | cons b bs => rw [List.filter_cons_of_pos (by simp), writes, writes, ih]

/-- The stores together write `bs` from address `a` on, and nothing else. -/
def Stores (ws : List (Nat × List UInt8)) (a : Nat) (bs : List UInt8) : Prop :=
  ∀ m, writes m ws = write m a bs

theorem stores_nil (a : Nat) : Stores [] a [] := fun m => (write_nil m a).symm

theorem Stores.append {ws : List (Nat × List UInt8)} {a : Nat} {bs : List UInt8}
    (h : Stores ws a bs) (cs : List UInt8) :
    Stores (ws ++ [(a + bs.length, cs)]) a (bs ++ cs) := by
  intro m
  rw [writes_append, h m, write_append]
  rfl

/-- The next part of a string that is stored part by part. -/
theorem Stores.take_append {ws : List (Nat × List UInt8)} {a k : Nat} {bs part : List UInt8}
    (h : Stores ws a (bs.take k)) (hk : k ≤ bs.length) (hpart : part <+: bs.drop k) :
    Stores (ws ++ [(a + k, part)]) a (bs.take (k + part.length)) := by
  have happend := h.append part
  rw [List.length_take, Nat.min_eq_left hk] at happend
  rwa [List.take_add, ← List.prefix_iff_eq_take.mp hpart]

/-! ## Records in memory

A memory that holds a concatenation holds its parts at their places. -/

/-- The memory whose first bytes are `bs`. -/
def ofList (bs : List UInt8) : Mem := fun i => bs.getD i 0

theorem holds_ofList (bs : List UInt8) : Holds (ofList bs) 0 bs bs.length := by
  intro i _
  rw [Nat.zero_add, ofList]

theorem Holds.left {m : Mem} {a : Nat} {bs cs : List UInt8}
    (h : Holds m a (bs ++ cs) (bs ++ cs).length) : Holds m a bs bs.length := by
  intro i hi
  rw [h i (by rw [List.length_append]; omega), List.getD_append _ _ _ _ hi]

theorem Holds.right {m : Mem} {a : Nat} {bs cs : List UInt8}
    (h : Holds m a (bs ++ cs) (bs ++ cs).length) : Holds m (a + bs.length) cs cs.length := by
  intro i hi
  have hget := h (bs.length + i) (by rw [List.length_append]; omega)
  rw [List.getD_append_right _ _ _ _ (Nat.le_add_right _ _), Nat.add_sub_cancel_left] at hget
  rw [Nat.add_assoc, hget]

theorem Holds.agreeOn {m m' : Mem} {a n : Nat} {bs : List UInt8} (h : Holds m a bs n)
    (h' : Holds m' a bs n) : AgreeOn a n m m' := by
  intro x hl hr
  obtain ⟨i, rfl⟩ := Nat.exists_eq_add_of_le hl
  rw [h i (by omega), h' i (by omega)]

/-- Bytes that memory holds are at the place a store would put them. -/
theorem Holds.agreeOn_write {m : Mem} {a : Nat} {bs : List UInt8} (h : Holds m a bs bs.length) :
    AgreeOn a bs.length m (write m a bs) := by
  refine h.agreeOn fun i hi => ?_
  rw [write_of_mem (Nat.le_add_right a i) (by omega), Nat.add_sub_cancel_left]

theorem readLE_of_holds {m : Mem} {a v n : Nat} (h : Holds m a (toLE v n) n) :
    readLE m a n = v % 256 ^ n := by
  have hlen := length_toLE v n
  have hfull : Holds m a (toLE v n) (toLE v n).length := by rwa [hlen]
  have hagree := hfull.agreeOn_write
  rw [hlen] at hagree
  rw [readLE_congr hagree, readLE_write_toLE]

/-- A field of a string of bytes loads from wherever the string lies. -/
theorem readLE_ofList {m : Mem} {a k n : Nat} {bs : List UInt8} (h : Holds m a bs bs.length)
    (hfield : k + n ≤ bs.length) : readLE m (a + k) n = readLE (ofList bs) k n := by
  induction n generalizing k with
  | zero => rfl
  | succ n ih =>
    rw [readLE, readLE, h k (by omega), Nat.add_assoc, ih (by omega), ofList]

/-- Records of one size lie one behind the other. -/
theorem Holds.flatten {m : Mem} {a w j : Nat} {records : List (List UInt8)} {bs : List UInt8}
    (h : Holds m a records.flatten records.flatten.length) (hw : ∀ r ∈ records, r.length = w)
    (hj : records[j]? = some bs) : Holds m (a + w * j) bs bs.length := by
  induction records generalizing a j with
  | nil => cases hj
  | cons r records ih =>
    rw [List.flatten_cons] at h
    cases j with
    | zero =>
      obtain rfl : r = bs := by simpa using hj
      exact h.left
    | succ j =>
      have htail := ih h.right (fun z hz => hw z (List.mem_cons_of_mem _ hz))
        ((List.getElem?_cons_succ ..).symm.trans hj)
      rwa [hw r List.mem_cons_self, Nat.add_assoc, Nat.add_comm w, ← Nat.mul_succ] at htail

end ByteMemory
