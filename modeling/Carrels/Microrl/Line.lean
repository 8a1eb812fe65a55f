/-
The command line as a text with a cursor.

`cmdline_str` holds the text and behind it the rest of an older text, up to a zero byte.  Only
`^K` leaves such a rest: it cuts the line by its length alone.  Each function of the buffer is
one operation on the text, and says what becomes of the rest.
-/
import Carrels.Lib.Zipper
import Carrels.Microrl.Input

namespace Carrels
namespace Microrl

open ByteMemory

/-- `cmdline_str` holds the string `s`. -/
structure LineIs (m : Mem) (s : List UInt8) : Prop where
  bytes : Holds m 0 s (s.length + 1)
  fits : s.length ≤ cmdlineLen
  last : m cmdlineLen = 0

/-- The editor with the text `z` in the buffer `m`. -/
def Mrl.withLine (mrl : Mrl) (m : Mem) (z : Zipper UInt8) : Mrl :=
  { mrl with cmdlineStr := m, cmdlen := z.text.length, cursor := z.cursor }

theorem Mrl.withLine_eq {mrl : Mrl} {m m' : Mem} {z z' : Zipper UInt8} {len cursor : Nat}
    (hlen : len = z'.text.length) (hcursor : cursor = z'.cursor) :
    { mrl.withLine m z with cmdlineStr := m', cmdlen := len, cursor := cursor } =
      mrl.withLine m' z' := by
  subst hlen hcursor
  rfl

theorem getD_take {l : List UInt8} {i n : Nat} (h : i < n) : (l.take n).getD i 0 = l.getD i 0 := by
  rw [List.getD_eq_getElem?_getD, List.getD_eq_getElem?_getD, List.getElem?_take_of_lt h]

namespace LineIs

variable {p : Platform} {mrl : Mrl} {m : Mem} {s rest : List UInt8} {z : Zipper UInt8}

/-- A byte of the string, or the zero byte behind it. -/
theorem getD (h : LineIs m s) {i : Nat} (hi : i ≤ s.length) : m i = s.getD i 0 := by
  have hbyte := h.bytes i (Nat.lt_succ_of_le hi)
  rwa [Nat.zero_add] at hbyte

theorem of_getD (hbytes : ∀ i ≤ s.length, m i = s.getD i 0) (hfits : s.length ≤ cmdlineLen)
    (hlast : m cmdlineLen = 0) : LineIs m s where
  bytes i hi := by
    rw [Nat.zero_add]
    exact hbytes i (Nat.le_of_lt_succ hi)
  fits := hfits
  last := hlast

/-- The bytes of the text in front of the rest. -/
theorem load_append (h : LineIs m (s ++ rest)) : load m 0 s.length = s := by
  refine load_eq fun i hi => ?_
  rw [Nat.zero_add, h.getD (by rw [List.length_append]; omega)]
  exact List.getD_append _ _ _ _ hi

/-- The bytes that a `memmove` inside the string copies. -/
theorem cmdlineAt (h : LineIs m s) {i : Nat} (hi : i ≤ s.length) :
    (mrl.withLine m z).cmdlineAt p i = s.getD i 0 := by
  have hfits := h.fits
  rw [Mrl.cmdlineAt, if_pos (by omega)]
  exact h.getD hi

theorem prvCmdlineBufInsertText (h : LineIs m (z.text ++ rest)) {t : List UInt8}
    (hroom : z.text.length + t.length ≤ cmdlineLen) :
    ∃ m', (mrl.withLine m z).prvCmdlineBufInsertText p t =
      some (mrl.withLine m' (z.insert t), .ok) ∧ LineIs m' (z.insert t).text := by
  have hlen := z.length_text
  have hs : (z.insert t).text.length = z.text.length + t.length := by
    rw [Zipper.length_text, Zipper.cursor_insert, hlen]
    exact Nat.add_right_comm _ _ _
  have hcur : (mrl.withLine m z).cursor = z.cursor := rfl
  have hcmd : (mrl.withLine m z).cmdlen = z.text.length := rfl
  have hstr : (mrl.withLine m z).cmdlineStr = m := rfl
  rw [Mrl.prvCmdlineBufInsertText, hcmd, hcur, if_neg (by omega)]
  simp (disch := omega) only [Mrl.memmove, memcpy, memset, stored_of_le, hstr,
    Option.bind_eq_bind, Option.bind_some]
  rw [Mrl.withLine_eq hs.symm (z.cursor_insert t).symm]
  refine ⟨_, rfl, of_getD (fun i hi => ?_) (by omega) ?_⟩
  · rw [hs] at hi
    rw [Zipper.text_insert]
    simp only [fill, write, overlay]
    have hold : ∀ j < z.text.length, (z.text ++ rest).getD j 0 = z.text.getD j 0 := fun j hj =>
      List.getD_append _ _ _ _ hj
    rcases Nat.lt_or_ge i z.cursor with hbefore | hge
    · rw [if_neg (by omega), if_neg (by omega), if_neg (by omega),
        h.getD (by rw [List.length_append]; omega), hold i (by omega), Zipper.text,
        List.getD_append _ _ _ _ hbefore, List.getD_append _ _ _ _ hbefore]
    rw [List.getD_append_right _ _ _ _ hge]
    show _ = (t ++ z.after).getD (i - z.cursor) 0
    rcases Nat.lt_or_ge i (z.cursor + t.length) with hin | hge'
    · rw [if_neg (by omega), if_pos ⟨hge, hin⟩, List.getD_append _ _ _ _ (by omega)]
    rw [List.getD_append_right _ _ _ _ (by omega)]
    rcases Nat.lt_or_ge i (z.text.length + t.length) with hafter | hge''
    · rw [if_neg (by omega), if_neg (by omega), if_pos (by omega),
        h.cmdlineAt (by rw [List.length_append]; omega), hold _ (by omega), Zipper.text,
        List.getD_append_right _ _ _ _ (by show z.cursor ≤ _; omega)]
      congr 1
      show z.cursor + _ - z.cursor = _
      omega
    · rw [List.getD_eq_default z.after _ (by omega)]
      split
      · rfl
      · rw [if_neg (by omega), if_neg (by omega), show i = cmdlineLen from by omega]
        exact h.last
  · simp only [fill, write, overlay]
    rw [if_neg (by omega), if_neg (by omega), if_neg (by omega)]
    exact h.last

theorem prvCmdlineBufInsertText_full {t : List UInt8}
    (hfull : cmdlineLen < z.text.length + t.length) :
    (mrl.withLine m z).prvCmdlineBufInsertText p t = some (mrl.withLine m z, .errClFull) :=
  if_pos hfull

theorem prvCmdlineBufBackspace (h : LineIs m (z.text ++ rest)) {n : Nat} (hn : n ≤ z.cursor) :
    ∃ m', (mrl.withLine m z).prvCmdlineBufBackspace p n =
      some (mrl.withLine m' (z.backspace n)) ∧
        LineIs m' ((z.backspace n).text ++ rest.take n) := by
  have hlen := z.length_text
  have hs := Zipper.length_text_backspace hn
  have hcur : (mrl.withLine m z).cursor = z.cursor := rfl
  have hcmd : (mrl.withLine m z).cmdlen = z.text.length := rfl
  have hstr : (mrl.withLine m z).cmdlineStr = m := rfl
  have hfits := h.fits
  rw [List.length_append] at hfits
  rw [Mrl.prvCmdlineBufBackspace, hcmd, hcur, if_neg (by omega)]
  simp (disch := omega) only [Mrl.memmove, memset, stored_of_le, hstr,
    Option.bind_eq_bind, Option.bind_some]
  rw [Mrl.withLine_eq hs.symm (z.cursor_backspace n).symm]
  have htake : (rest.take n).length = min n rest.length := List.length_take
  refine ⟨_, rfl, of_getD (fun i hi => ?_) (by rw [List.length_append]; omega) ?_⟩
  · rw [List.length_append, hs] at hi
    have hbefore : (z.before.take (z.cursor - n)).length = z.cursor - n := z.cursor_backspace n
    have htext : (z.backspace n).text ++ rest.take n =
        z.before.take (z.cursor - n) ++ (z.after ++ rest.take n) := List.append_assoc _ _ _
    have hassoc : z.text ++ rest = z.before ++ (z.after ++ rest) := List.append_assoc _ _ _
    rw [htext]
    simp only [fill, overlay]
    rcases Nat.lt_or_ge i (z.cursor - n) with hlow | hge
    · rw [if_neg (by omega), if_neg (by omega), h.getD (by rw [List.length_append]; omega),
        hassoc, List.getD_append z.before _ _ _ (by show i < z.cursor; omega),
        List.getD_append (z.before.take _) _ _ _ (by omega), getD_take hlow]
    rw [List.getD_append_right _ _ _ _ (by omega), hbefore]
    rcases Nat.lt_or_ge i z.text.length with hin | htop
    -- What is moved is the text after the cursor and the first `n` bytes behind it.
    · rw [if_neg (by omega), if_pos (by omega), h.cmdlineAt (by rw [List.length_append]; omega),
        hassoc, List.getD_append_right _ _ _ _ (by show z.cursor ≤ _; omega),
        ← List.take_length_add_append, getD_take (by omega)]
      congr 1
      show z.cursor + _ - z.cursor = _
      omega
    · rw [if_pos (by omega), List.getD_eq_default (z.after ++ rest.take n) _
        (by rw [List.length_append]; omega)]
  · simp only [fill, overlay]
    split
    · rfl
    · rw [if_neg (by omega)]
      exact h.last

theorem prvCmdlineBufDelete (h : LineIs m (z.text ++ rest)) (hafter : z.after ≠ []) :
    ∃ m', (mrl.withLine m z).prvCmdlineBufDelete p = some (mrl.withLine m' z.delete) ∧
      LineIs m' (z.delete.text ++ rest.take 1) := by
  have hlen := z.length_text
  have hs := z.length_text_delete hafter
  have hpos := List.length_pos_of_ne_nil hafter
  have hcur : (mrl.withLine m z).cursor = z.cursor := rfl
  have hcmd : (mrl.withLine m z).cmdlen = z.text.length := rfl
  have hstr : (mrl.withLine m z).cmdlineStr = m := rfl
  have hfits := h.fits
  rw [List.length_append] at hfits
  rw [Mrl.prvCmdlineBufDelete, hcmd, hcur, if_neg (by omega)]
  simp (disch := omega) only [Mrl.memmove, memset, stored_of_le, hstr,
    Option.bind_eq_bind, Option.bind_some]
  rw [Mrl.withLine_eq (z := z) hs.symm z.cursor_delete.symm]
  have htake : (rest.take 1).length = min 1 rest.length := List.length_take
  refine ⟨_, rfl, of_getD (fun i hi => ?_) (by rw [List.length_append]; omega) ?_⟩
  · rw [List.length_append, hs] at hi
    have htail : z.after.tail.length = z.after.length - 1 := List.length_tail
    have hassoc : z.text ++ rest = z.before ++ (z.after ++ rest) := List.append_assoc _ _ _
    have htext : z.delete.text ++ rest.take 1 = z.before ++ (z.after.tail ++ rest.take 1) :=
      List.append_assoc _ _ _
    rw [htext]
    simp only [fill, overlay]
    rcases Nat.lt_or_ge i z.cursor with hlow | hge
    · rw [if_neg (by omega), if_neg (by omega), h.getD (by rw [List.length_append]; omega),
        hassoc, List.getD_append z.before _ _ _ hlow, List.getD_append z.before _ _ _ hlow]
    rw [List.getD_append_right z.before _ _ _ hge]
    rcases Nat.lt_or_ge i z.text.length with hin | htop
    · rw [if_neg (by omega), if_pos (by omega), h.cmdlineAt (by rw [List.length_append]; omega),
        hassoc, List.getD_append_right z.before _ _ _ (by show z.cursor ≤ _; omega),
        ← List.take_length_add_append, getD_take (by show i - z.cursor < _; omega)]
      obtain ⟨a, t, ht⟩ := List.exists_cons_of_ne_nil hafter
      have hindex : z.cursor + 1 + (i - z.cursor) - z.before.length = i - z.cursor + 1 := by
        show z.cursor + 1 + (i - z.cursor) - z.cursor = _
        omega
      rw [ht, List.tail_cons, List.cons_append, hindex, List.getD_cons_succ]
      rfl
    · rw [if_pos (by omega), List.getD_eq_default (z.after.tail ++ rest.take 1) _
        (by rw [List.length_append]; show _ ≤ i - z.cursor; omega)]
  · simp only [fill, overlay]
    split
    · rfl
    · rw [if_neg (by omega)]
      exact h.last

end LineIs

end Microrl
end Carrels
