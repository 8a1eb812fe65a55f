/-
A text with a cursor.

The cursor stands between what is before it and what is after it.  Texts are inserted and
removed at the cursor, and `moveTo` moves it without changing the text.
-/
import Mathlib.Data.List.Basic

structure Zipper (α : Type*) where
  before : List α
  after : List α
  deriving DecidableEq, Repr

namespace Zipper

variable {α : Type*}

def empty : Zipper α := ⟨[], []⟩

/-- A text with the cursor behind it. -/
def ofText (text : List α) : Zipper α := ⟨text, []⟩

def text (z : Zipper α) : List α := z.before ++ z.after

def cursor (z : Zipper α) : Nat := z.before.length

def insert (z : Zipper α) (t : List α) : Zipper α := ⟨z.before ++ t, z.after⟩

/-- Remove the last `n` items before the cursor. -/
def backspace (z : Zipper α) (n : Nat) : Zipper α :=
  ⟨z.before.take (z.before.length - n), z.after⟩

/-- Remove the item after the cursor. -/
def delete (z : Zipper α) : Zipper α := ⟨z.before, z.after.tail⟩

/-- Remove everything after the cursor. -/
def killAfter (z : Zipper α) : Zipper α := ⟨z.before, []⟩

def moveTo (z : Zipper α) (i : Nat) : Zipper α := ⟨z.text.take i, z.text.drop i⟩

@[simp]
theorem text_empty : (empty : Zipper α).text = [] := rfl

@[simp]
theorem text_ofText (t : List α) : (ofText t).text = t := List.append_nil t

@[simp]
theorem cursor_ofText (t : List α) : (ofText t).cursor = t.length := rfl

theorem length_text (z : Zipper α) : z.text.length = z.cursor + z.after.length :=
  List.length_append

theorem cursor_le (z : Zipper α) : z.cursor ≤ z.text.length := by
  rw [length_text]
  exact Nat.le_add_right _ _

theorem cursor_eq_length_iff (z : Zipper α) : z.cursor = z.text.length ↔ z.after = [] := by
  rw [length_text, ← List.length_eq_zero_iff]
  omega

@[simp]
theorem text_insert (z : Zipper α) (t : List α) :
    (z.insert t).text = z.before ++ (t ++ z.after) := List.append_assoc _ _ _

@[simp]
theorem cursor_insert (z : Zipper α) (t : List α) :
    (z.insert t).cursor = z.cursor + t.length := List.length_append

@[simp]
theorem cursor_backspace (z : Zipper α) (n : Nat) :
    (z.backspace n).cursor = z.cursor - n := by
  show (z.before.take (z.before.length - n)).length = z.before.length - n
  rw [List.length_take]
  exact Nat.min_eq_left (Nat.sub_le _ _)

@[simp]
theorem cursor_delete (z : Zipper α) : z.delete.cursor = z.cursor := rfl

@[simp]
theorem text_killAfter (z : Zipper α) : z.killAfter.text = z.before := List.append_nil _

@[simp]
theorem cursor_killAfter (z : Zipper α) : z.killAfter.cursor = z.cursor := rfl

@[simp]
theorem text_moveTo (z : Zipper α) (i : Nat) : (z.moveTo i).text = z.text :=
  List.take_append_drop i z.text

@[simp]
theorem cursor_moveTo (z : Zipper α) (i : Nat) :
    (z.moveTo i).cursor = min i z.text.length := List.length_take

theorem backspace_insert (z : Zipper α) (t : List α) : (z.insert t).backspace t.length = z := by
  show Zipper.mk ((z.before ++ t).take ((z.before ++ t).length - t.length)) z.after = z
  rw [List.length_append, Nat.add_sub_cancel, List.take_left]

theorem length_text_backspace {z : Zipper α} {n : Nat} (h : n ≤ z.cursor) :
    (z.backspace n).text.length = z.text.length - n := by
  have hcursor := cursor_backspace z n
  rw [length_text, length_text, hcursor]
  show z.cursor - n + z.after.length = _
  omega

theorem length_text_delete (z : Zipper α) (h : z.after ≠ []) :
    z.delete.text.length = z.text.length - 1 := by
  have hpos := List.length_pos_of_ne_nil h
  rw [length_text, length_text, cursor_delete]
  show z.cursor + z.after.tail.length = _
  rw [List.length_tail]
  omega

end Zipper
