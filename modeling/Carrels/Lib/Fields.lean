/-
Records of fields with fixed sizes.

A record is the concatenation of its fields, and `split` takes it apart again.  A field is
a little-endian number or a string that ends with its first zero byte.
-/
import Carrels.Lib.Bytes

namespace Carrels
namespace Fields

open ByteMemory

/-! ## Splitting -/

section Split

variable {α : Type}

/-- The first fields of these sizes. -/
def split : List Nat → List α → List (List α)
  | [], _ => []
  | n :: sizes, bs => bs.take n :: split sizes (bs.drop n)

theorem split_flatten (fields : List (List α)) :
    split (fields.map List.length) fields.flatten = fields := by
  induction fields with
  | nil => rfl
  | cons field fields ih =>
    rw [List.map_cons, split, List.flatten_cons, List.take_left, List.drop_left, ih]

theorem split_eq {sizes : List Nat} {fields : List (List α)}
    (h : fields.map List.length = sizes) : split sizes fields.flatten = fields :=
  h ▸ split_flatten fields

/-- Field `i` of a record. -/
def field (fields : List (List α)) (i : Nat) : List α := fields.getD i []

theorem length_flatten_eq {sizes : List Nat} {fields : List (List α)}
    (h : fields.map List.length = sizes) : fields.flatten.length = sizes.sum := by
  rw [List.length_flatten, h]

end Split

/-! ## Numbers -/

/-- The number in a field of four bytes. -/
def u32 (field : List UInt8) : BitVec 32 := read32 (ofList field) 0

/-- The number in a field of eight bytes. -/
def u64 (field : List UInt8) : BitVec 64 := read64 (ofList field) 0

theorem readLE_toLE (v n : Nat) : readLE (ofList (toLE v n)) 0 n = v % 256 ^ n := by
  refine readLE_of_holds ?_
  have h := holds_ofList (toLE v n)
  rwa [length_toLE] at h

theorem u32_toLE (v : BitVec 32) : u32 (toLE v.toNat 4) = v := by
  rw [u32, read32, readLE_toLE]
  exact ofNat_toNat_mod 4 v

theorem u64_toLE (v : BitVec 64) : u64 (toLE v.toNat 8) = v := by
  rw [u64, read64, readLE_toLE]
  exact ofNat_toNat_mod 8 v

/-! ## Strings -/

/-- A field of `n` bytes that begins with these. -/
def pad (n : Nat) (bs : List UInt8) : List UInt8 := (bs ++ List.replicate n 0).take n

/-- The string in a field. -/
def untilZero (field : List UInt8) : List UInt8 := field.takeWhile (· != 0)

theorem length_pad (n : Nat) (bs : List UInt8) : (pad n bs).length = n := by
  rw [pad, List.length_take, List.length_append, List.length_replicate]
  omega

theorem pad_eq {n : Nat} {bs : List UInt8} (h : bs.length ≤ n) :
    pad n bs = bs ++ List.replicate (n - bs.length) 0 := by
  rw [pad, List.take_append, List.take_of_length_le h, List.take_replicate,
    Nat.min_eq_left (Nat.sub_le _ _)]

theorem pad_self {n : Nat} {bs : List UInt8} (h : bs.length = n) : pad n bs = bs := by
  rw [pad_eq (Nat.le_of_eq h), h, Nat.sub_self]
  exact List.append_nil bs

theorem untilZero_append_zero (bs rest : List UInt8) :
    untilZero (bs ++ 0 :: rest) = untilZero bs := by
  induction bs with
  | nil => rfl
  | cons b bs ih =>
    rw [untilZero, untilZero] at ih
    rw [List.cons_append, untilZero, untilZero, List.takeWhile_cons, List.takeWhile_cons, ih]

/-- A string comes back from a longer field up to its first zero. -/
theorem untilZero_pad_of_lt {n : Nat} {bs : List UInt8} (hlen : bs.length < n) :
    untilZero (pad n bs) = untilZero bs := by
  have htail : n - bs.length = n - bs.length - 1 + 1 := by omega
  rw [pad_eq (Nat.le_of_lt hlen), htail, List.replicate_succ, untilZero_append_zero]

theorem untilZero_pad {n : Nat} {bs : List UInt8} (hzero : ∀ b ∈ bs, b ≠ 0)
    (hlen : bs.length ≤ n) : untilZero (pad n bs) = bs := by
  rw [pad_eq hlen, untilZero, List.takeWhile_append_of_pos fun b hb => by simpa using hzero b hb]
  cases n - bs.length with
  | zero => exact List.append_nil bs
  | succ k =>
    rw [List.replicate_succ, List.takeWhile_cons_of_neg (by simp)]
    exact List.append_nil bs

end Fields
end Carrels
