/-
The latest items of a list for which there is room.

Every item has a size.  `recent size cap` is the longest end of a list with sizes of at most
`cap` in all.  A store that gives up its oldest items until a new one fits holds the latest
items of all that it has been given.
-/
import Mathlib.Data.List.Infix

namespace Window

variable {α : Type*} {size : α → Nat} {cap : Nat}

def total (size : α → Nat) : List α → Nat
  | [] => 0
  | a :: items => size a + total size items

theorem total_cons (size : α → Nat) (a : α) (items : List α) :
    total size (a :: items) = size a + total size items := rfl

theorem total_append (size : α → Nat) (items more : List α) :
    total size (items ++ more) = total size items + total size more := by
  induction items with
  | nil => exact (Nat.zero_add _).symm
  | cons a items ih => rw [List.cons_append, total_cons, total_cons, ih, Nat.add_assoc]

theorem total_le_of_suffix {t items : List α} (h : t <:+ items) :
    total size t ≤ total size items := by
  obtain ⟨older, rfl⟩ := h
  rw [total_append]
  exact Nat.le_add_left _ _

def recent (size : α → Nat) (cap : Nat) : List α → List α
  | [] => []
  | a :: items => if total size (a :: items) ≤ cap then a :: items else recent size cap items

theorem recent_of_le {items : List α} (h : total size items ≤ cap) :
    recent size cap items = items := by
  cases items with
  | nil => rfl
  | cons a items => exact if_pos h

theorem recent_suffix (size : α → Nat) (cap : Nat) (items : List α) :
    recent size cap items <:+ items := by
  induction items with
  | nil => exact List.suffix_refl _
  | cons a items ih =>
    rw [recent]
    split
    · exact List.suffix_refl _
    · exact ih.trans (List.suffix_cons a items)

theorem total_recent_le (size : α → Nat) (cap : Nat) (items : List α) :
    total size (recent size cap items) ≤ cap := by
  induction items with
  | nil => exact Nat.zero_le cap
  | cons a items ih =>
    rw [recent]
    split
    case isTrue h => exact h
    case isFalse => exact ih

/-- No longer end has room. -/
theorem suffix_recent {items t : List α} (ht : t <:+ items) (hroom : total size t ≤ cap) :
    t <:+ recent size cap items := by
  induction items with
  | nil => exact ht
  | cons a items ih =>
    rw [recent]
    split
    case isTrue => exact ht
    case isFalse hlong =>
      rcases List.suffix_cons_iff.mp ht with rfl | ht
      · exact absurd hroom hlong
      · exact ih ht

/-- A new item comes behind the latest ones for which it leaves room. -/
theorem recent_append_singleton (items : List α) {a : α} (ha : size a ≤ cap) :
    recent size cap (items ++ [a]) =
      recent size (cap - size a) (recent size cap items) ++ [a] := by
  have hsingle : total size [a] = size a := total_cons size a []
  induction items with
  | nil => exact recent_of_le (hsingle ▸ ha)
  | cons b items ih =>
    have hall := total_append size (b :: items) [a]
    rw [hsingle] at hall
    rw [List.cons_append, recent, recent]
    rw [List.cons_append] at hall
    by_cases hold : total size (b :: items) ≤ cap
    · have hrest : recent size cap items = items := by
        refine recent_of_le (Nat.le_trans ?_ hold)
        rw [total_cons]
        exact Nat.le_add_left _ _
      rw [if_pos hold, recent]
      by_cases hnew : total size (b :: items) ≤ cap - size a
      · rw [if_pos (by omega), if_pos hnew, List.cons_append]
      · rw [if_neg (by omega), if_neg hnew, ih, hrest]
    · rw [if_neg (by omega), if_neg hold, ih]

end Window
