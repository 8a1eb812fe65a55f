/-
Numerals that are read with a bound.

A numeral is a list of digits, the highest first.  `push` appends a digit to the number read so
far, as C code does it that must not overflow: the bound is tested by a division before the
multiplication.  The test is exact at every digit, so a whole numeral is read exactly when its
value is within the bound.  `Decimal` are the decimal numerals in ASCII, `DecimalList` their
lists.  `WordOp` are the operations of the machine that such a loop is made of.
-/
import Mathlib.Data.Nat.Digits.Defs
import Carrels.Lib.Bytes
import Carrels.Lib.Logged

namespace Numerals

open ByteMemory Logged

variable {b max v d w : Nat}

/-! ## Values -/

def value (b : Nat) (digits : List Nat) : Nat := Nat.ofDigits b digits.reverse

theorem value_cons (b d : Nat) (digits : List Nat) :
    value b (d :: digits) = d * b ^ digits.length + value b digits := by
  rw [value, value, List.reverse_cons, Nat.ofDigits_append, Nat.ofDigits_singleton,
    List.length_reverse]
  ring

theorem value_eq_foldl (b : Nat) (digits : List Nat) :
    value b digits = digits.foldl (fun v d => b * v + d) 0 := by
  rw [value, Nat.ofDigits_eq_foldr, List.foldr_reverse]
  congr 1
  funext v d
  exact Nat.add_comm d (b * v)

/-! ## Reading -/

/-- `v * b + d`, unless it exceeds `max`. -/
def push (b max v d : Nat) : Option Nat := if (max - d) / b < v then none else some (v * b + d)

theorem push_eq_some (hb : 0 < b) (hd : d ≤ max) :
    push b max v d = some w ↔ w = v * b + d ∧ w ≤ max := by
  have hfits : (max - d) / b < v ↔ max < v * b + d := by
    rw [Nat.div_lt_iff_lt_mul hb]
    omega
  rw [push]
  split
  case isTrue hlt =>
    have hexceeds := hfits.mp hlt
    simp only [false_iff, reduceCtorEq]
    omega
  case isFalse hle =>
    have hbound := mt hfits.mpr hle
    rw [Option.some.injEq]
    omega

theorem foldlM_push {digits : List Nat} (hb : 0 < b) (hdigits : ∀ d ∈ digits, d ≤ max)
    (hv : v ≤ max) : digits.foldlM (push b max) v = some w ↔
      w = v * b ^ digits.length + value b digits ∧ w ≤ max := by
  induction digits generalizing v with
  | nil =>
    show some v = some w ↔ w = v * 1 + 0 ∧ w ≤ max
    rw [Option.some.injEq]
    omega
  | cons d digits ih =>
    obtain ⟨hd, hdigits⟩ := List.forall_mem_cons.mp hdigits
    have hvalue : v * b ^ (d :: digits).length + value b (d :: digits) =
        (v * b + d) * b ^ digits.length + value b digits := by
      rw [value_cons, List.length_cons]
      ring
    rw [List.foldlM_cons, hvalue]
    show (push b max v d).bind _ = some w ↔ _
    rw [Option.bind_eq_some_iff]
    constructor
    · rintro ⟨v', hpush, hrest⟩
      obtain ⟨rfl, hle⟩ := (push_eq_some hb hd).mp hpush
      exact (ih hdigits hle).mp hrest
    · rintro ⟨hw, hle⟩
      -- The number only grows, so every prefix of the numeral is within the bound.
      have hgrows : v * b + d ≤ w := by
        rw [hw]
        exact (Nat.le_mul_of_pos_right _ (Nat.pow_pos hb)).trans (Nat.le_add_right _ _)
      refine ⟨v * b + d, (push_eq_some hb hd).mpr ⟨rfl, hgrows.trans hle⟩, ?_⟩
      exact (ih hdigits (hgrows.trans hle)).mpr ⟨hw, hle⟩

/-! ## Decimal numerals -/

/-- `c >= '0' && c <= '9'` -/
def IsDigit (c : UInt8) : Prop := 48 ≤ c.toNat ∧ c.toNat ≤ 57

instance (c : UInt8) : Decidable (IsDigit c) := inferInstanceAs (Decidable (_ ∧ _))

/-- `c - '0'` -/
def digitValue (c : UInt8) : Nat := c.toNat - 48

theorem digitValue_le {c : UInt8} (h : IsDigit c) : digitValue c ≤ 9 := by
  rw [IsDigit] at h
  rw [digitValue]
  omega

/-- The text is a decimal numeral of the number, with any number of leading zeros. -/
structure Decimal (text : List UInt8) (n : Nat) : Prop where
  ne_nil : text ≠ []
  digits : ∀ c ∈ text, IsDigit c
  value : Numerals.value 10 (text.map digitValue) = n

theorem decimal_iff {text : List UInt8} {n : Nat} :
    Decimal text n ↔ text ≠ [] ∧ (∀ c ∈ text, IsDigit c) ∧ value 10 (text.map digitValue) = n :=
  ⟨fun h => ⟨h.ne_nil, h.digits, h.value⟩, fun h => ⟨h.1, h.2.1, h.2.2⟩⟩

instance (text : List UInt8) (n : Nat) : Decidable (Decimal text n) :=
  have : Decidable (∀ c ∈ text, IsDigit c) := List.decidableBAll _ text
  decidable_of_iff' _ decimal_iff

theorem Decimal.unique {text : List UInt8} {n m : Nat} (h : Decimal text n)
    (h' : Decimal text m) : n = m := h.value.symm.trans h'.value

/-- A number as it is printed. -/
theorem decimal_toString (n : Nat) : Decimal (bytes (toString n)) n := by
  have htext : (toString n).toList = Nat.toDigits 10 n := Nat.toList_repr
  have hchar : ∀ c ∈ Nat.toDigits 10 n, 48 ≤ c.toNat ∧ c.toNat ≤ 57 := by
    intro c hc
    exact Char.isDigit_iff_toNat.mp (Nat.isDigit_of_mem_toDigits (by decide) (by decide) hc)
  have hbyte : ∀ c ∈ Nat.toDigits 10 n, (UInt8.ofNat c.toNat).toNat = c.toNat := by
    intro c hc
    have hle := (hchar c hc).2
    rw [UInt8.toNat_ofNat']
    omega
  rw [bytes, htext]
  refine ⟨fun hnil => Nat.toDigits_ne_nil (List.map_eq_nil_iff.mp hnil), ?_, ?_⟩
  · intro c hc
    obtain ⟨d, hd, rfl⟩ := List.mem_map.mp hc
    rw [IsDigit, hbyte d hd]
    exact hchar d hd
  · have hmap : (Nat.toDigits 10 n).map (digitValue ∘ fun c => UInt8.ofNat c.toNat) =
        (Nat.toDigits 10 n).map fun c => c.toNat - 48 := by
      apply List.map_congr_left
      intro c hc
      show (UInt8.ofNat c.toNat).toNat - 48 = _
      rw [hbyte c hc]
    rw [List.map_map, hmap, value_eq_foldl, List.foldl_map]
    exact Nat.ofDigitChars_ten_toDigits

/-- Decimal numerals with one separator between each and the next. -/
inductive DecimalList (sep : UInt8) : List UInt8 → List Nat → Prop
  | one {word : List UInt8} {n : Nat} (h : Decimal word n) : DecimalList sep word [n]
  | more {word text : List UInt8} {n : Nat} {ns : List Nat} (h : Decimal word n)
      (rest : DecimalList sep text ns) : DecimalList sep (word ++ sep :: text) (n :: ns)

/-- A list of numerals starts with a digit. -/
theorem DecimalList.exists_cons {sep : UInt8} {text : List UInt8} {ns : List Nat}
    (h : DecimalList sep text ns) : ∃ c rest, text = c :: rest ∧ IsDigit c := by
  have hword : ∀ {word : List UInt8} {n : Nat}, Decimal word n →
      ∃ c rest, word = c :: rest ∧ IsDigit c := by
    intro word n hn
    obtain ⟨c, rest, rfl⟩ := List.exists_cons_of_ne_nil hn.ne_nil
    exact ⟨c, rest, rfl, hn.digits c List.mem_cons_self⟩
  cases h with
  | one hn => exact hword hn
  | @more word text n ns hn _ =>
    obtain ⟨c, rest, rfl, hc⟩ := hword hn
    exact ⟨c, rest ++ sep :: text, rfl, hc⟩

/-! ## Words of the machine -/

inductive WordOp (k : Nat)
  | sub (x y : BitVec k)
  | mul (x y : BitVec k)
  | add (x y : BitVec k)

namespace WordOp

variable {k : Nat}

def value : WordOp k → BitVec k
  | sub x y => x - y
  | mul x y => x * y
  | add x y => x + y

/-- The operation does not wrap. -/
def exact : WordOp k → Bool
  | sub x y => y.toNat ≤ x.toNat
  | mul x y => x.toNat * y.toNat < 2 ^ k
  | add x y => x.toNat + y.toNat < 2 ^ k

def run (op : WordOp k) : Logged (WordOp k) (BitVec k) := note op op.value

end WordOp

end Numerals
