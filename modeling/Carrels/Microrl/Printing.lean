/-
What the line editor prints.

`prv_terminal_print_line` collects characters in a buffer and prints them when the position in
it agrees with the length of the string that the buffer holds.  Without zero bytes in the line
this happens every few characters, and all of them are printed in order.  A zero byte in the
line makes the string in the buffer shorter than the position, so nothing is printed any more
and the buffer fills up.
-/
import Mathlib.Data.Nat.Digits.Lemmas
import Carrels.Microrl.Line

namespace Carrels
namespace Microrl

open ByteMemory Fields Logged

/-- What the outside sees, byte by byte. -/
inductive Item
  | byte (c : UInt8)
  | exec (argv : List (List UInt8))
  | sigint
  deriving DecidableEq, Repr

def Effect.items : Effect → List Item
  | .out str => str.map .byte
  | .exec argv => [.exec argv]
  | .sigint => [.sigint]

/-- Printed bytes. -/
def shown (bs : List UInt8) : List Item := bs.map .byte

theorem shown_append (bs cs : List UInt8) : shown (bs ++ cs) = shown bs ++ shown cs :=
  List.map_append

theorem yields_out (bs : List UInt8) : Yields Effect.items (Mrl.out bs) (shown bs) () :=
  yields_note Effect.items (.out bs) ()

/-! ## The print buffer -/

namespace PrintBuf

/-- The buffer holds the characters that wait to be printed, and behind them what is left of
the ones that have been printed last.  The string in it has `len` bytes. -/
structure Waits (b : PrintBuf) (len : Nat) (waiting : List UInt8) : Prop where
  ptr : b.ptr = waiting.length
  le : waiting.length ≤ len
  bytes : Holds b.str 0 waiting waiting.length
  nonzero : ∀ i < len, b.str i ≠ 0
  zero : ∀ i, len ≤ i → b.str i = 0

variable {b : PrintBuf} {len : Nat} {waiting : List UInt8}

namespace Waits

theorem text_eq (h : b.Waits len waiting) (hlen : len < printBufferLen) :
    b.text = load b.str 0 len := by
  refine stringAt_eq (fun i hi => ?_) (fun hmem => ?_) (by rw [length_load]; omega)
  · rw [length_load] at hi
    rw [Nat.zero_add]
    rcases Nat.lt_or_ge i len with hlt | hge
    · rw [List.getD_eq_getElem _ _ (by rwa [length_load])]
      simp [load]
    · rw [List.getD_eq_default _ _ (by rwa [length_load])]
      exact h.zero i hge
  · obtain ⟨i, hi, hzero⟩ := List.mem_map.mp hmem
    rw [List.mem_range] at hi
    rw [Nat.zero_add] at hzero
    exact h.nonzero i hi hzero

theorem length_text (h : b.Waits len waiting) (hlen : len < printBufferLen) :
    b.text.length = len := by
  rw [h.text_eq hlen, length_load]

/-- The position agrees with the length of the string: everything in the buffer waits. -/
theorem text_full (h : b.Waits len waiting) (hlen : len < printBufferLen)
    (hfull : waiting.length = len) : b.text = waiting := by
  rw [h.text_eq hlen, ← hfull]
  exact load_eq h.bytes

/-- More characters wait. -/
theorem put (h : b.Waits len waiting) {bs : List UInt8} (hbs : 0 ∉ bs)
    (hfits : waiting.length + bs.length ≤ printBufferLen) :
    ∃ b', b.put bs = some b' ∧
      b'.Waits (max len (waiting.length + bs.length)) (waiting ++ bs) := by
  have hptr := h.ptr
  refine ⟨⟨write b.str b.ptr bs, b.ptr + bs.length⟩, ?_, ?_⟩
  · rw [PrintBuf.put, memcpy, stored_of_le (by omega), Option.map_some]
  have hinside : ∀ i, waiting.length ≤ i → i < waiting.length + bs.length →
      write b.str b.ptr bs i = bs.getD (i - waiting.length) 0 := fun i hl hr => by
    rw [write_of_mem (by omega) (by omega), hptr]
  have houtside : ∀ i, i < waiting.length ∨ waiting.length + bs.length ≤ i →
      write b.str b.ptr bs i = b.str i := fun i hi => write_of_outside (by omega)
  refine ⟨by rw [List.length_append, ← hptr], by rw [List.length_append]; omega, fun i hi => ?_,
    fun i hi => ?_, fun i hi => ?_⟩
  · rw [List.length_append] at hi
    rw [Nat.zero_add]
    show write b.str b.ptr bs i = _
    rcases Nat.lt_or_ge i waiting.length with hlt | hge
    · rw [houtside i (.inl hlt), List.getD_append _ _ _ _ hlt]
      have hbyte := h.bytes i hlt
      rwa [Nat.zero_add] at hbyte
    · rw [hinside i hge hi, List.getD_append_right _ _ _ _ hge]
  · show write b.str b.ptr bs i ≠ 0
    by_cases hin : waiting.length ≤ i ∧ i < waiting.length + bs.length
    · rw [hinside i hin.1 hin.2, List.getD_eq_getElem _ _ (by omega)]
      exact fun h0 => hbs (h0 ▸ List.getElem_mem _)
    · rw [houtside i (by omega)]
      exact h.nonzero i (by have := h.le; omega)
  · show write b.str b.ptr bs i = 0
    rw [houtside i (by omega)]
    exact h.zero i (by omega)

/-- The end of the string is marked already. -/
theorem close (h : b.Waits len waiting) (hfull : waiting.length = len)
    (hlen : len < printBufferLen) : b.close = some b := by
  have hptr := h.ptr
  rw [PrintBuf.close, memcpy, stored_of_le (by rw [List.length_singleton]; omega),
    write_same (h.zero b.ptr (by omega))]
  rfl

/-- What waits is the string in the buffer once its end is marked. -/
theorem close_text (h : b.Waits len waiting) (hroom : waiting.length < printBufferLen) :
    ∃ b', b.close = some b' ∧ b'.text = waiting := by
  have hptr := h.ptr
  refine ⟨{ b with str := write b.str b.ptr [0] }, ?_, stringAt_eq (fun i hi => ?_) ?_ (by omega)⟩
  · rw [PrintBuf.close, memcpy, stored_of_le (by rw [List.length_singleton]; omega)]
    rfl
  · rw [Nat.zero_add]
    show write b.str b.ptr [0] i = _
    rcases Nat.lt_or_ge i waiting.length with hlt | hge
    · have hbyte := h.bytes i hlt
      rw [Nat.zero_add] at hbyte
      rw [write_of_outside (.inl (by omega)), hbyte]
    · obtain rfl : i = b.ptr := by omega
      rw [write_of_mem (Nat.le_refl _) (by simp), Nat.sub_self, List.getD_eq_default _ _ hge]
      rfl
  · intro hmem
    obtain ⟨i, hi, hzero⟩ := List.mem_iff_getElem.mp hmem
    have hbyte := h.bytes i hi
    rw [Nat.zero_add, List.getD_eq_getElem _ _ hi, hzero] at hbyte
    exact h.nonzero i (Nat.lt_of_lt_of_le hi h.le) hbyte

/-- Everything in the buffer is printed. -/
theorem flush (h : b.Waits len waiting) (hfull : waiting.length = len)
    (hlen : len < printBufferLen) :
    ∃ b', Yields Effect.items b.flush (shown waiting) b' ∧ b'.Waits len [] := by
  refine ⟨{ b with ptr := 0 }, ?_, rfl, Nat.zero_le _, fun i hi => absurd hi (Nat.not_lt_zero i),
    h.nonzero, h.zero⟩
  rw [PrintBuf.flush, h.close hfull hlen, attempt_some_bind, h.text_full hlen hfull]
  exact yields_note Effect.items _ _

end Waits

end PrintBuf

/-- The characters of a line without zero bytes are printed in order, up to the last few that
still wait. -/
theorem printChars_yields {line : Mem} {n i len : Nat} {b : PrintBuf} {waiting : List UInt8}
    (h : b.Waits len waiting) (hlen : len ≤ 8) (hfull : waiting.length = len → len < 8)
    (hline : ∀ j, i ≤ j → j < i + n → line j ≠ 0) :
    ∃ b' len' printed waiting', Yields Effect.items (printChars line n i b) (shown printed) b' ∧
      b'.Waits len' waiting' ∧ len' ≤ 8 ∧ printed ++ waiting' = waiting ++ load line i n := by
  induction n generalizing i b len waiting with
  | zero => exact ⟨b, len, [], waiting, yields_pure _ _, h, hlen, (List.append_nil _).symm⟩
  | succ n ih =>
    have hle := h.le
    have hc : 0 ∉ [line i] := by
      rw [List.mem_singleton]
      exact fun h0 => hline i (Nat.le_refl i) (by omega) h0.symm
    obtain ⟨b₁, hput, hb₁⟩ := h.put hc (by rw [List.length_singleton, printBufferLen]; omega)
    rw [List.length_singleton] at hb₁
    have hlen₁ : max len (waiting.length + 1) ≤ 8 := by omega
    have htext := hb₁.length_text (by rw [printBufferLen]; omega)
    have hptr := hb₁.ptr
    rw [List.length_append, List.length_singleton] at hptr
    have hrest : ∀ j, i + 1 ≤ j → j < i + 1 + n → line j ≠ 0 := fun j hl hr =>
      hline j (by omega) (by omega)
    rw [printChars, hput, attempt_some_bind, load_succ]
    split
    case isTrue hagree =>
      have hall : (waiting ++ [line i]).length = max len (waiting.length + 1) := by
        rw [List.length_append, List.length_singleton]
        omega
      obtain ⟨b₂, hflush, hb₂⟩ := hb₁.flush hall (by rw [printBufferLen]; omega)
      obtain ⟨b₃, len', printed, waiting', hyields, hb₃, hlen', heq⟩ :=
        ih hb₂ hlen₁ (fun h0 => by simp only [List.length_nil] at h0; omega) hrest
      refine ⟨b₃, len', (waiting ++ [line i]) ++ printed, waiting', ?_, hb₃, hlen', ?_⟩
      · rw [shown_append]
        exact hflush.bind hyields
      · rw [List.append_assoc, heq, List.nil_append, List.append_assoc]
        rfl
    case isFalse hdiffer =>
      obtain ⟨b₃, len', printed, waiting', hyields, hb₃, hlen', heq⟩ :=
        ih hb₁ hlen₁ (fun h0 => by rw [List.length_append, List.length_singleton] at h0; omega)
          hrest
      refine ⟨b₃, len', printed, waiting', hyields, hb₃, hlen', ?_⟩
      rw [heq, List.append_assoc]
      rfl

/-! ## Lines -/

theorem length_prvCursorGenerateMove (offset : Int) :
    (prvCursorGenerateMove offset).length ≤ 6 := by
  rw [prvCursorGenerateMove]
  generalize hclamp : max (-999) (min 999 offset) = k
  have hsmall : k.natAbs < 10 ^ 3 := by omega
  have hdigits := (Nat.digits_length_le_iff (b := 10) (by decide) k.natAbs).mpr hsmall
  split
  case isTrue => exact Nat.zero_le 6
  case isFalse =>
    simp only [List.length_append, List.length_map, List.length_reverse, List.length_cons,
      List.length_nil]
    omega

theorem zero_not_mem_prvCursorGenerateMove (offset : Int) :
    0 ∉ prvCursorGenerateMove offset := by
  rw [prvCursorGenerateMove]
  generalize max (-999) (min 999 offset) = k
  split
  case isTrue => exact List.not_mem_nil
  case isFalse =>
    intro hmem
    rw [List.mem_append, List.mem_append, List.mem_map] at hmem
    rcases hmem with (hmem | ⟨d, hd, h0⟩) | hmem
    · exact absurd hmem (by decide)
    · have hlt := Nat.digits_lt_base (by decide : 1 < 10) (List.mem_reverse.mp hd)
      have hval := congrArg UInt8.toNat h0
      rw [UInt8.toNat_ofNat', Nat.mod_eq_of_lt (by omega)] at hval
      have hzero : (0 : UInt8).toNat = 0 := rfl
      omega
    · rw [List.mem_singleton] at hmem
      split at hmem
      · exact absurd hmem (by decide)
      · exact absurd hmem (by decide)

/-- What is printed for a line from the position `pos` on. -/
def lineText (z : Zipper UInt8) (pos : Nat) (reset : Bool) : List UInt8 :=
  (if reset then 13 :: prvCursorGenerateMove (promptString.length + pos) else []) ++
    z.text.drop pos ++ ([27, 91, 75] ++ prvCursorGenerateMove (z.cursor - z.text.length))

theorem start_waits (pos : Nat) (reset : Bool) :
    ∃ b len waiting, PrintBuf.start pos reset = some b ∧ b.Waits len waiting ∧ len < 8 ∧
      waiting = if reset then 13 :: prvCursorGenerateMove (promptString.length + pos) else [] := by
  have hempty : ({ str := fun _ => 0, ptr := 0 } : PrintBuf).Waits 0 [] :=
    ⟨rfl, Nat.le_refl 0, fun i hi => absurd hi (Nat.not_lt_zero i),
      fun i hi => absurd hi (Nat.not_lt_zero i), fun _ _ => rfl⟩
  cases reset with
  | false => exact ⟨_, 0, [], rfl, hempty, by decide, rfl⟩
  | true =>
    have hlen := length_prvCursorGenerateMove (promptString.length + pos)
    have hzero : 0 ∉ 13 :: prvCursorGenerateMove (promptString.length + pos) := by
      rw [List.mem_cons]
      exact not_or.mpr ⟨by decide, zero_not_mem_prvCursorGenerateMove _⟩
    obtain ⟨b, hput, hb⟩ := hempty.put hzero (by
      simp only [List.length_nil, List.length_cons, printBufferLen]
      omega)
    simp only [List.length_nil, List.length_cons, List.nil_append, Nat.zero_add,
      Nat.max_eq_right (Nat.zero_le _)] at hb
    refine ⟨b, _, _, ?_, hb, by omega, rfl⟩
    rw [PrintBuf.start, if_pos rfl, hput, Option.bind_some]
    exact hb.close (by rw [List.length_cons]) (by rw [printBufferLen]; omega)

/-- A line without zero bytes is printed as it is. -/
theorem prvTerminalPrintLine_yields {mrl : Mrl} {m : Mem} {z : Zipper UInt8}
    {rest : List UInt8} {pos : Nat} (h : LineIs m (z.text ++ rest)) (hzero : 0 ∉ z.text)
    (hpos : pos ≤ z.text.length) (reset : Bool) :
    Yields Effect.items ((mrl.withLine m z).prvTerminalPrintLine pos reset)
      (shown (lineText z pos reset)) () := by
  obtain ⟨b, len, waiting, hstart, hb, hlen, hwaiting⟩ := start_waits pos reset
  have hchars : ∀ j, pos ≤ j → j < pos + (z.text.length - pos) → m j ≠ 0 := by
    intro j hl hr
    rw [h.getD (by rw [List.length_append]; omega), List.getD_append _ _ _ _ (by omega),
      List.getD_eq_getElem _ _ (by omega)]
    exact fun h0 => hzero (h0 ▸ List.getElem_mem _)
  have hload : load m pos (z.text.length - pos) = z.text.drop pos := by
    rw [← List.length_drop]
    refine load_eq fun i hi => ?_
    rw [List.length_drop] at hi
    rw [h.getD (by rw [List.length_append]; omega), List.getD_append _ _ _ _ (by omega),
      List.getD_eq_getElem?_getD, List.getD_eq_getElem?_getD, List.getElem?_drop]
  obtain ⟨b₁, len₁, printed, left, hprint, hb₁, hlen₁, heq⟩ :=
    printChars_yields hb (by omega) (fun _ => hlen) hchars
  have hleft := hb₁.le
  have hmove := length_prvCursorGenerateMove (z.cursor - z.text.length)
  have hend : 0 ∉ [27, 91, 75] ++ prvCursorGenerateMove (z.cursor - z.text.length) := by
    rw [List.mem_append]
    exact not_or.mpr ⟨by decide, zero_not_mem_prvCursorGenerateMove _⟩
  obtain ⟨b₂, hput, hb₂⟩ := hb₁.put hend (by
    rw [List.length_append, printBufferLen]
    simp only [List.length_cons, List.length_nil]
    omega)
  obtain ⟨b₃, hclose, htext⟩ := hb₂.close_text (by
    simp only [List.length_append, List.length_cons, List.length_nil, printBufferLen]
    omega)
  have hfull : b₁.flushIfFull = pure b₁ := by
    rw [PrintBuf.flushIfFull, hb₁.ptr, printBufferLen, if_neg (by omega)]
  have hitems : shown (lineText z pos reset) = shown printed ++
      shown (left ++ ([27, 91, 75] ++ prvCursorGenerateMove (z.cursor - z.text.length))) := by
    rw [← shown_append, ← List.append_assoc, heq, hload, hwaiting]
    rfl
  rw [Mrl.prvTerminalPrintLine, hstart, attempt_some_bind, hitems]
  refine hprint.bind ?_
  rw [hfull, pure_bind]
  refine Yields.attempt_bind hput (Yields.attempt_bind hclose ?_)
  rw [htext]
  exact yields_out _

/-! ## A zero byte in the line

Without `reset` every character is printed by itself, until one is zero.  From there on the
buffer holds the empty string, and all that follows stays in it. -/

theorem printChars_add (line : Mem) (n k i : Nat) (b : PrintBuf) :
    printChars line (n + k) i b = printChars line n i b >>= printChars line k (i + n) := by
  induction n generalizing i b with
  | zero => rw [Nat.zero_add, printChars, pure_bind, Nat.add_zero]
  | succ n ih =>
    rw [Nat.add_right_comm, printChars, printChars, bind_assoc]
    congr 1
    funext b
    split
    · rw [bind_assoc]
      congr 1
      funext b
      rw [ih, Nat.add_assoc, Nat.add_comm 1]
    · rw [ih, Nat.add_assoc, Nat.add_comm 1]

/-- In front of a zero byte nothing waits. -/
theorem printChars_single {line : Mem} {n i len : Nat} {b : PrintBuf} (h : b.Waits len [])
    (hlen : len ≤ 1) (hline : ∀ j, i ≤ j → j < i + n → line j ≠ 0) :
    ∃ b' len', (printChars line n i b).result = some b' ∧ b'.Waits len' [] ∧ len' ≤ 1 := by
  induction n generalizing i b len with
  | zero => exact ⟨b, len, rfl, h, hlen⟩
  | succ n ih =>
    have hc : 0 ∉ [line i] := by
      rw [List.mem_singleton]
      exact fun h0 => hline i (Nat.le_refl i) (by omega) h0.symm
    obtain ⟨b₁, hput, hb₁⟩ := h.put hc (by rw [List.length_singleton]; decide)
    have hone : max len (([] : List UInt8).length + [line i].length) = 1 := by simpa using hlen
    rw [hone, List.nil_append] at hb₁
    obtain ⟨b₂, hflush, hb₂⟩ := hb₁.flush rfl (by decide)
    obtain ⟨b₃, len', hresult, hb₃, hlen'⟩ := ih (i := i + 1) hb₂ (Nat.le_refl 1)
      fun j hl hr => hline j (by omega) (by omega)
    refine ⟨b₃, len', ?_, hb₃, hlen'⟩
    have htext : b₁.text.length = 1 := hb₁.length_text (by decide)
    have hptr : b₁.ptr = 1 := hb₁.ptr
    rw [printChars, hput, attempt_some_bind, if_pos (by rw [hptr, htext]), result_bind,
      hflush.1, Option.bind_some, hresult]

theorem put_none {b : PrintBuf} {bs : List UInt8} (h : printBufferLen < b.ptr + bs.length) :
    b.put bs = none := by
  rw [PrintBuf.put, memcpy, stored, if_neg (Nat.not_le.mpr h)]
  rfl

theorem put_some {b : PrintBuf} {bs : List UInt8} (h : b.ptr + bs.length ≤ printBufferLen) :
    b.put bs = some ⟨write b.str b.ptr bs, b.ptr + bs.length⟩ := by
  rw [PrintBuf.put, memcpy, stored_of_le h, Option.map_some]

theorem text_of_zero {b : PrintBuf} (h : b.str 0 = 0) : b.text = [] := by
  refine stringAt_eq (fun i hi => ?_) List.not_mem_nil (by decide)
  obtain rfl : i = 0 := Nat.lt_one_iff.mp hi
  exact h

/-- While the first byte of the buffer is zero, a character only fills the buffer. -/
theorem printChars_stuck_succ {line : Mem} {n i : Nat} {b : PrintBuf}
    (hzero : write b.str b.ptr [line i] 0 = 0) (hroom : b.ptr + 1 ≤ printBufferLen) :
    ∃ b', b'.str 0 = 0 ∧ b'.ptr = b.ptr + 1 ∧
      printChars line (n + 1) i b = printChars line n (i + 1) b' := by
  have hput := @put_some b [line i] hroom
  have hstuck : b.ptr + 1 ≠
      (PrintBuf.mk (write b.str b.ptr [line i]) (b.ptr + [line i].length)).text.length := by
    rw [text_of_zero hzero]
    exact Nat.succ_ne_zero _
  refine ⟨⟨write b.str b.ptr [line i], b.ptr + 1⟩, hzero, rfl, ?_⟩
  rw [printChars, hput, attempt_some_bind]
  exact if_neg hstuck

theorem write_behind {b : PrintBuf} (hzero : b.str 0 = 0) (hpos : 0 < b.ptr) (c : UInt8) :
    write b.str b.ptr [c] 0 = 0 := by
  rw [write_of_outside (.inl hpos), hzero]

theorem printChars_stuck {line : Mem} {n i : Nat} {b : PrintBuf} (hzero : b.str 0 = 0)
    (hpos : 0 < b.ptr) (hroom : b.ptr + n ≤ printBufferLen) :
    ∃ b', (printChars line n i b).result = some b' ∧ b'.str 0 = 0 ∧ b'.ptr = b.ptr + n := by
  induction n generalizing i b with
  | zero => exact ⟨b, rfl, hzero, rfl⟩
  | succ n ih =>
    obtain ⟨b₁, hzero₁, hptr₁, hstep⟩ :=
      @printChars_stuck_succ line n i b (write_behind hzero hpos _) (by omega)
    obtain ⟨b', hresult, hb', hptr⟩ := ih (i := i + 1) hzero₁ (by omega) (by omega)
    exact ⟨b', by rw [hstep, hresult], hb', by omega⟩

theorem printChars_overflow {line : Mem} {n i : Nat} {b : PrintBuf} (hzero : b.str 0 = 0)
    (hpos : 0 < b.ptr) (hle : b.ptr ≤ printBufferLen) (hroom : printBufferLen < b.ptr + n) :
    (printChars line n i b).result = none := by
  induction n generalizing i b with
  | zero => omega
  | succ n ih =>
    rcases Nat.lt_or_ge b.ptr printBufferLen with hlt | hge
    · obtain ⟨b₁, hzero₁, hptr₁, hstep⟩ :=
        @printChars_stuck_succ line n i b (write_behind hzero hpos _) hlt
      rw [hstep]
      exact ih hzero₁ (by omega) (by omega) (by omega)
    · rw [printChars, put_none (by rw [List.length_singleton]; omega), attempt_none_bind]

theorem close_some {b : PrintBuf} (h : b.ptr < printBufferLen) :
    b.close = some { b with str := write b.str b.ptr [0] } := by
  rw [PrintBuf.close, memcpy, stored_of_le (by rw [List.length_singleton]; omega)]
  rfl

theorem close_none {b : PrintBuf} (h : printBufferLen ≤ b.ptr) : b.close = none := by
  rw [PrintBuf.close, memcpy, stored, if_neg (by rw [List.length_singleton]; omega)]
  rfl

/-- What is printed behind the characters. -/
def endOfLine (mrl : Mrl) (b : PrintBuf) : Logged Effect Unit := do
  let b ← b.flushIfFull
  let b ← attempt (b.put ([27, 91, 75] ++ prvCursorGenerateMove (mrl.cursor - mrl.cmdlen)))
  let b ← attempt b.close
  Mrl.out b.text

/-- The end of a line needs less than the ten bytes for which room is made. -/
theorem endOfLine_result_none_iff (mrl : Mrl) (b : PrintBuf) :
    (endOfLine mrl b).result = none ↔ printBufferLen ≤ b.ptr := by
  have hmove := length_prvCursorGenerateMove (mrl.cursor - mrl.cmdlen)
  have hlen : printBufferLen = 64 := rfl
  have htail : ∀ b : PrintBuf, b.ptr + 10 ≤ printBufferLen → ∃ v,
      (do
        let b ← attempt (b.put ([27, 91, 75] ++ prvCursorGenerateMove (mrl.cursor - mrl.cmdlen)))
        let b ← attempt b.close
        Mrl.out b.text : Logged Effect Unit).result = some v := by
    intro b hb
    have hbytes : ([27, 91, 75] ++ prvCursorGenerateMove (mrl.cursor - mrl.cmdlen)).length ≤ 9 := by
      rw [List.length_append]
      exact Nat.add_le_add_left hmove 3
    rw [put_some (by omega), attempt_some_bind, close_some (by show b.ptr + _ < _; omega),
      attempt_some_bind]
    exact ⟨(), rfl⟩
  rw [endOfLine, PrintBuf.flushIfFull]
  split
  case isTrue hfull =>
    rw [PrintBuf.flush, bind_assoc]
    rcases Nat.lt_or_ge b.ptr printBufferLen with hlt | hge
    · rw [close_some hlt, attempt_some_bind, note_bind]
      obtain ⟨v, hv⟩ := htail { b with str := write b.str b.ptr [0], ptr := 0 }
        (show 0 + 10 ≤ printBufferLen by decide)
      simp only [hv]
      simp only [reduceCtorEq, false_iff]
      omega
    · rw [close_none hge, attempt_none_bind]
      exact iff_of_true rfl hge
  case isFalse hroom =>
    obtain ⟨v, hv⟩ := htail b (by omega)
    rw [pure_bind, hv]
    simp only [reduceCtorEq, false_iff]
    omega

/-- Without `reset` the line is printed inside the buffer as long as fewer than 64 bytes follow
from its first zero byte on. -/
theorem prvTerminalPrintLine_result_none_iff (mrl : Mrl) (pos : Nat) :
    (mrl.prvTerminalPrintLine pos false).result = none ↔
      printBufferLen ≤
        ((load mrl.cmdlineStr pos (mrl.cmdlen - pos)).dropWhile (· != 0)).length := by
  have hwhole : mrl.prvTerminalPrintLine pos false =
      printChars mrl.cmdlineStr (mrl.cmdlen - pos) pos ⟨fun _ => 0, 0⟩ >>= endOfLine mrl := rfl
  have hempty : (PrintBuf.mk (fun _ => 0) 0).Waits 0 [] :=
    ⟨rfl, Nat.le_refl 0, fun i hi => absurd hi (Nat.not_lt_zero i),
      fun i hi => absurd hi (Nat.not_lt_zero i), fun _ _ => rfl⟩
  generalize hline : load mrl.cmdlineStr pos (mrl.cmdlen - pos) = line at *
  have hlen : mrl.cmdlen - pos = line.length := by rw [← hline, length_load]
  have hat : ∀ j < line.length, mrl.cmdlineStr (pos + j) = line.getD j 0 := by
    intro j hj
    rw [← hline, List.getD_eq_getElem _ _ (by rwa [hline])]
    simp [load]
  have hsplit := List.takeWhile_append_dropWhile (p := (· != 0)) (l := line)
  generalize htake : line.takeWhile (· != 0) = text at hsplit
  have htext : 0 ∉ text := fun hmem => by
    rw [← htake] at hmem
    simpa using List.mem_takeWhile_imp hmem
  generalize hdrop : line.dropWhile (· != 0) = stuck at hsplit ⊢
  have hcount : line.length = text.length + stuck.length := by
    rw [← hsplit, List.length_append]
  have hfirst : ∀ j, pos ≤ j → j < pos + text.length → mrl.cmdlineStr j ≠ 0 := by
    intro j hl hr
    obtain ⟨k, rfl⟩ := Nat.exists_eq_add_of_le hl
    rw [hat k (by omega), ← hsplit, List.getD_append _ _ _ _ (by omega),
      List.getD_eq_getElem _ _ (by omega)]
    exact fun h0 => htext (h0 ▸ List.getElem_mem _)
  obtain ⟨b, len, hresult, hb, hle⟩ := printChars_single hempty (Nat.zero_le 1) hfirst
  have hptr : b.ptr = 0 := hb.ptr
  rw [hwhole, hlen, hcount, printChars_add, bind_assoc, result_bind, hresult, Option.bind_some]
  cases stuck with
  | nil =>
    rw [List.length_nil, printChars, pure_bind, endOfLine_result_none_iff, hptr]
  | cons c stuck =>
    have hc : c = 0 := by
      have hhead := List.head?_dropWhile_not (p := (· != 0)) (l := line)
      rw [hdrop] at hhead
      simpa using hhead
    have hzero : mrl.cmdlineStr (pos + text.length) = 0 := by
      rw [hat _ (by rw [hcount, List.length_cons]; omega), ← hsplit,
        List.getD_append_right _ _ _ _ (Nat.le_refl _), Nat.sub_self, List.getD_cons_zero, hc]
    have hzero' : write b.str b.ptr [mrl.cmdlineStr (pos + text.length)] 0 = 0 := by
      rw [hptr, hzero, write_of_mem (Nat.le_refl 0) (by simp), Nat.sub_self]
      rfl
    obtain ⟨b₁, hzero₁, hptr₁, hstep⟩ :=
      @printChars_stuck_succ mrl.cmdlineStr stuck.length _ b hzero' (by rw [hptr]; decide)
    rw [List.length_cons, hstep, result_bind]
    rcases Nat.lt_or_ge printBufferLen (b₁.ptr + stuck.length) with hover | hroom
    · rw [printChars_overflow hzero₁ (by omega) (by rw [hptr₁, hptr]; decide) hover]
      exact iff_of_true rfl (by omega)
    · obtain ⟨b', hresult', -, hptr'⟩ :=
        @printChars_stuck mrl.cmdlineStr _ (pos + text.length + 1) _ hzero₁ (by omega) hroom
      rw [hresult', Option.bind_some, endOfLine_result_none_iff, hptr']
      omega

end Microrl
end Carrels
