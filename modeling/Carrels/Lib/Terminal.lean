/-
A terminal.

The screen has rows without end, of any width.  A byte is a character that is written at the
cursor, a control character, or part of an escape sequence.  `At` says what stands in the row of
the cursor, and that the rows below it are empty; there is one rule for every kind of text that
is printed.
-/
import Mathlib.Data.Nat.Digits.Lemmas
import Carrels.Lib.Numerals

namespace Terminal

inductive Mode
  | text
  | escape
  | sequence (n : Nat)
  deriving DecidableEq, Repr

structure Screen where
  rows : Nat → List UInt8
  row : Nat
  col : Nat
  mode : Mode

/-- A character in a row: the row is filled up with spaces to its place. -/
def overwrite (cells : List UInt8) (col : Nat) (c : UInt8) : List UInt8 :=
  cells.take col ++ List.replicate (col - cells.length) 32 ++ c :: cells.drop (col + 1)

def Printable (c : UInt8) : Prop := 32 ≤ c ∧ c ≠ 127

instance (c : UInt8) : Decidable (Printable c) := inferInstanceAs (Decidable (_ ∧ _))

theorem printable_of_all {bs : List UInt8} (h : bs.all (fun b => decide (Printable b)) = true) :
    ∀ b ∈ bs, Printable b := fun b hb => of_decide_eq_true (List.all_eq_true.mp h b hb)

namespace Screen

def blank : Screen where
  rows := fun _ => []
  row := 0
  col := 0
  mode := .text

def cells (s : Screen) : List UInt8 := s.rows s.row

def setCells (s : Screen) (cells : List UInt8) : Screen :=
  { s with rows := fun r => if r = s.row then cells else s.rows r }

/-- The last byte of a control sequence with the parameter `n`: cursor forward, cursor back,
cursor home, erase the screen, erase the row behind the cursor. -/
def finish (s : Screen) (n : Nat) (b : UInt8) : Screen :=
  if b = 67 then { s with col := s.col + max 1 n }
  else if b = 68 then { s with col := s.col - max 1 n }
  else if b = 72 then { s with row := 0, col := 0 }
  else if b = 74 ∧ n = 2 then { s with rows := fun _ => [] }
  else if b = 75 then s.setCells (s.cells.take s.col)
  else s

def step (s : Screen) (b : UInt8) : Screen :=
  match s.mode with
  | .text =>
    if b = 27 then { s with mode := .escape }
    else if b = 13 then { s with col := 0 }
    else if b = 10 then { s with row := s.row + 1 }
    else if b = 8 then { s with col := s.col - 1 }
    else if b < 32 ∨ b = 127 then s
    else { s.setCells (overwrite s.cells s.col b) with col := s.col + 1 }
  | .escape => { s with mode := if b = 91 then .sequence 0 else .text }
  | .sequence n =>
    if 48 ≤ b ∧ b ≤ 57 then { s with mode := .sequence (10 * n + (b.toNat - 48)) }
    else { s with mode := .text }.finish n b

def feed (s : Screen) (bs : List UInt8) : Screen := bs.foldl step s

theorem feed_append (s : Screen) (bs cs : List UInt8) :
    s.feed (bs ++ cs) = (s.feed bs).feed cs := List.foldl_append

/-- The row of the cursor, and the cursor in it. -/
structure At (s : Screen) (cells : List UInt8) (col : Nat) : Prop where
  mode : s.mode = .text
  cells : s.cells = cells
  col : s.col = col
  below : ∀ r, s.row < r → s.rows r = []

theorem blank_at : blank.At [] 0 := ⟨rfl, rfl, rfl, fun _ _ => rfl⟩

namespace At

variable {s : Screen} {cells pre old : List UInt8} {col n : Nat} {c : UInt8}

theorem setCells (h : s.At cells col) (cells' : List UInt8) (col' : Nat) :
    ({ s.setCells cells' with col := col' } : Screen).At cells' col' where
  mode := h.mode
  cells := if_pos rfl
  col := rfl
  below r hr := by
    have hne : r ≠ s.row := Nat.ne_of_gt hr
    show (if r = s.row then cells' else s.rows r) = []
    rw [if_neg hne]
    exact h.below r hr

theorem withMode (h : s.At cells col) : ({ s with mode := .text } : Screen).At cells col :=
  ⟨rfl, h.cells, h.col, h.below⟩

theorem char (h : s.At cells col) (hc : Printable c) :
    (s.feed [c]).At (overwrite cells col c) (col + 1) := by
  obtain ⟨hlow, hdel⟩ := hc
  have hstep : s.feed [c] = { s.setCells (overwrite cells col c) with col := col + 1 } := by
    have hne : ∀ b : UInt8, b < 32 → c ≠ b := fun b hb heq =>
      absurd (heq ▸ hlow) (UInt8.not_le.mpr hb)
    show s.step c = _
    rw [step, h.mode]
    simp only
    rw [if_neg (hne 27 (by decide)), if_neg (hne 13 (by decide)), if_neg (hne 10 (by decide)),
      if_neg (hne 8 (by decide)), if_neg (not_or.mpr ⟨UInt8.not_lt.mpr hlow, hdel⟩), h.cells, h.col]
  rw [hstep]
  exact h.setCells _ _

/-- Characters over what stands at the cursor. -/
theorem chars (h : s.At (pre ++ old) pre.length) {bs : List UInt8}
    (hbs : ∀ b ∈ bs, Printable b) :
    (s.feed bs).At (pre ++ bs ++ old.drop bs.length) (pre.length + bs.length) := by
  induction bs generalizing s pre old with
  | nil => rwa [List.append_nil]
  | cons b bs ih =>
    have hchar := h.char (hbs b List.mem_cons_self)
    have hwritten : overwrite (pre ++ old) pre.length b = (pre ++ [b]) ++ old.drop 1 := by
      rw [overwrite, List.take_left, List.length_append,
        Nat.sub_eq_zero_of_le (Nat.le_add_right _ _), List.drop_append]
      simp
    rw [hwritten] at hchar
    have hlen : (pre ++ [b]).length = pre.length + 1 := List.length_append
    rw [← hlen] at hchar
    have hrest := ih hchar fun b' hb' => hbs b' (List.mem_cons_of_mem b hb')
    rw [List.drop_drop, List.append_assoc pre, hlen] at hrest
    have hsum : pre.length + (b :: bs).length = pre.length + 1 + bs.length := by
      rw [List.length_cons]
      omega
    rw [hsum, List.length_cons, Nat.add_comm bs.length]
    exact hrest

theorem carriageReturn (h : s.At cells col) : (s.feed [13]).At cells 0 := by
  have hstep : s.feed [13] = { s with col := 0 } := by
    show s.step 13 = _
    rw [step, h.mode]
    rfl
  rw [hstep]
  exact ⟨h.mode, h.cells, rfl, h.below⟩

theorem lineFeed (h : s.At cells col) : (s.feed [10]).At [] col := by
  have hstep : s.feed [10] = { s with row := s.row + 1 } := by
    show s.step 10 = _
    rw [step, h.mode]
    rfl
  rw [hstep]
  exact ⟨h.mode, h.below _ (Nat.lt_succ_self _), h.col,
    fun r hr => h.below r (Nat.lt_of_succ_lt hr)⟩

theorem newline (h : s.At cells col) : (s.feed [13, 10]).At [] 0 := h.carriageReturn.lineFeed

theorem backspace (h : s.At cells col) : (s.feed [8]).At cells (col - 1) := by
  have hstep : s.feed [8] = { s with col := s.col - 1 } := by
    show s.step 8 = _
    rw [step, h.mode]
    rfl
  rw [hstep]
  exact ⟨h.mode, h.cells, by rw [h.col], h.below⟩

/-- The sequence begins. -/
theorem feed_sequence (h : s.At cells col) (bs : List UInt8) :
    s.feed (27 :: 91 :: bs) = ({ s with mode := .sequence 0 } : Screen).feed bs := by
  have hescape : s.step 27 = { s with mode := .escape } := by
    rw [step, h.mode]
    rfl
  show ((s.step 27).step 91).feed bs = _
  rw [hescape]
  rfl

theorem eraseRow (h : s.At cells col) : (s.feed [27, 91, 75]).At (cells.take col) col := by
  rw [h.feed_sequence]
  have hstep : ({ s with mode := .sequence 0 } : Screen).feed [75] =
      { s with mode := .text }.setCells (s.cells.take s.col) := rfl
  rw [hstep, h.cells]
  have hset := h.withMode.setCells (cells.take col) s.col
  rw [h.col] at hset ⊢
  exact hset

/-- Digits are read as a number. -/
theorem feed_digits {digits : List Nat} (hdigits : ∀ d ∈ digits, d < 10) (s : Screen) (n : Nat) :
    ({ s with mode := .sequence n } : Screen).feed
        (digits.map fun d => UInt8.ofNat (48 + d)) =
      { s with mode := .sequence (digits.foldl (fun v d => 10 * v + d) n) } := by
  induction digits generalizing n with
  | nil => rfl
  | cons d digits ih =>
    have hd := hdigits d List.mem_cons_self
    have hval : (UInt8.ofNat (48 + d)).toNat = 48 + d := by
      rw [UInt8.toNat_ofNat', Nat.mod_eq_of_lt (by omega)]
    have hstep : ({ s with mode := .sequence n } : Screen).step (UInt8.ofNat (48 + d)) =
        { s with mode := .sequence (10 * n + d) } := by
      rw [step]
      have hdigit : 48 ≤ UInt8.ofNat (48 + d) ∧ UInt8.ofNat (48 + d) ≤ 57 := by
        have hlow : (48 : UInt8).toNat = 48 := rfl
        have hhigh : (57 : UInt8).toNat = 57 := rfl
        rw [UInt8.le_iff_toNat_le, UInt8.le_iff_toNat_le, hval]
        omega
      simp only
      rw [if_pos hdigit, hval, Nat.add_sub_cancel_left]
    show (({ s with mode := .sequence n } : Screen).step (UInt8.ofNat (48 + d))).feed _ = _
    rw [hstep]
    exact ih (fun d' hd' => hdigits d' (List.mem_cons_of_mem d hd')) _

/-- A control sequence with a number as its parameter. -/
theorem feed_number (h : s.At cells col) (n : Nat) (b : UInt8)
    (hb : ¬(48 ≤ b ∧ b ≤ 57)) :
    s.feed (27 :: 91 :: (Nat.digits 10 n).reverse.map (fun d => UInt8.ofNat (48 + d)) ++ [b]) =
      { s with mode := .text }.finish n b := by
  have hdigits : ∀ d ∈ (Nat.digits 10 n).reverse, d < 10 := fun d hd =>
    Nat.digits_lt_base (by decide) (List.mem_reverse.mp hd)
  have hvalue : (Nat.digits 10 n).reverse.foldl (fun v d => 10 * v + d) 0 = n := by
    rw [← Numerals.value_eq_foldl, Numerals.value, List.reverse_reverse, Nat.ofDigits_digits]
  rw [List.cons_append, List.cons_append, h.feed_sequence, feed_append, feed_digits hdigits, hvalue]
  show ({ s with mode := .sequence n } : Screen).step b = _
  rw [step]
  exact if_neg hb

theorem forward (h : s.At cells col) {n : Nat} (hn : 0 < n) :
    (s.feed (27 :: 91 :: (Nat.digits 10 n).reverse.map (fun d => UInt8.ofNat (48 + d)) ++
      [67])).At cells (col + n) := by
  rw [h.feed_number n 67 (by decide), finish, if_pos rfl, Nat.max_eq_right hn]
  exact ⟨rfl, h.cells, by rw [← h.col], h.below⟩

theorem back (h : s.At cells col) {n : Nat} (hn : 0 < n) :
    (s.feed (27 :: 91 :: (Nat.digits 10 n).reverse.map (fun d => UInt8.ofNat (48 + d)) ++
      [68])).At cells (col - n) := by
  rw [h.feed_number n 68 (by decide), finish, if_neg (by decide), if_pos rfl, Nat.max_eq_right hn]
  exact ⟨rfl, h.cells, by rw [← h.col], h.below⟩

theorem clear (h : s.At cells col) : (s.feed [27, 91, 50, 74, 27, 91, 72]).At [] 0 := by
  rw [h.feed_sequence]
  exact ⟨rfl, rfl, rfl, fun _ _ => rfl⟩

end At

end Screen

end Terminal
