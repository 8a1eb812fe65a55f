/-
The line editor of the shell (`microrl.c`), configured by `microrl_user_config.h`.

A call of the editor logs the texts it prints and the commands it hands to `exec_fn`.  It
has a result unless one of its loops runs on for ever or it stores outside of an array: the
functions below check every store against the size of the array it goes to.
-/
import Mathlib.Data.List.TakeWhile
import Carrels.Lib.Bytes
import Carrels.Lib.Fields
import Carrels.Lib.Logged

namespace Carrels
namespace Microrl

open ByteMemory Fields

/-! ## Configuration -/

/-- `MICRORL_CFG_CMDLINE_LEN`; `cmdline_str` has one byte more. -/
def cmdlineLen : Nat := 128

/-- `MICRORL_CFG_CMD_TOKEN_NMB` -/
def cmdTokenNmb : Nat := 8

/-- `MICRORL_CFG_RING_HISTORY_LEN` -/
def ringHistoryLen : Nat := 128

/-- `MICRORL_CFG_PRINT_BUFFER_LEN` -/
def printBufferLen : Nat := 64

/-- `MICRORL_CFG_PROMPT_STRING` -/
def promptString : List UInt8 := bytes "orche@>$ "

/-- `MICRORL_CFG_END_LINE` -/
def endLine : List UInt8 := [13, 10]

/-! ## State -/

/-- `microrlr_t` -/
inductive Status
  | ok
  | errPar
  | errTknNum
  | errClFull
  | errCplt
  deriving DecidableEq, Repr

/-- `microrl_esc_code_t` -/
inductive EscCode
  | bracket
  | home
  | end
  | del
  deriving DecidableEq, Repr

/-- `microrl_hist_dir_t` -/
inductive HistDir
  | none
  | up
  | down
  deriving DecidableEq, Repr

/-- `microrl_hist_rbuf_t` -/
structure HistRbuf where
  ringBuf : Mem
  head : Nat
  tail : Nat
  count : Nat

/-- `microrl_t`, less its callbacks and the prompt. -/
structure Mrl where
  cmdlineStr : Mem
  cmdlen : Nat
  cursor : Nat
  lastEndl : UInt8
  escCode : EscCode
  escape : Bool
  ringHist : HistRbuf

/-- What the editor shows to the outside. -/
inductive Effect
  /-- A text for `out_fn`. -/
  | out (str : List UInt8)
  /-- A call of `exec_fn`. -/
  | exec (argv : List (List UInt8))
  /-- A call of `sigint_fn`. -/
  | sigint
  deriving DecidableEq, Repr

/-- What the source leaves open: whether `char` is signed, the bytes behind `cmdline_str`
that a `memmove` may reach, and what an array on the stack holds before it is stored to.  A
loop that has not ended after `rounds` rounds counts as endless. -/
structure Platform where
  charSigned : Bool
  behind : Mrl → Mem
  garbage : Mem
  rounds : Nat
  rounds_ge : 130 ≤ rounds

/-- Signed `char`s, and zero bytes wherever the source leaves them open. -/
def clearPlatform : Platform where
  charSigned := true
  behind := fun _ _ => 0
  garbage := fun _ => 0
  rounds := 130
  rounds_ge := Nat.le_refl 130

/-- The state after `microrl_init`: `memset` clears the structure. -/
def init : Mrl where
  cmdlineStr := fun _ => 0
  cmdlen := 0
  cursor := 0
  lastEndl := 0
  escCode := .bracket
  escape := false
  ringHist := { ringBuf := fun _ => 0, head := 0, tail := 0, count := 0 }

/-! ## Arrays -/

/-- The array of `size` bytes after a store of `n` bytes from index `a` on. -/
def stored (size a n : Nat) (m : Mem) : Option Mem := if a + n ≤ size then some m else none

theorem stored_of_le {size a n : Nat} (h : a + n ≤ size) (m : Mem) :
    stored size a n m = some m := if_pos h

/-- `memcpy` of a list of bytes. -/
def memcpy (size : Nat) (m : Mem) (a : Nat) (bs : List UInt8) : Option Mem :=
  stored size a bs.length (write m a bs)

def memset (size : Nat) (m : Mem) (a n : Nat) (v : UInt8) : Option Mem :=
  stored size a n (fill m a n v)

theorem write_same {m : Mem} {a : Nat} {v : UInt8} (h : m a = v) : write m a [v] = m := by
  funext x
  by_cases hx : x = a
  · rw [hx, write_of_mem (Nat.le_refl a) (by simp), Nat.sub_self, h]
    rfl
  · exact write_of_outside (by simp only [List.length_singleton]; omega)

/-- The bytes from index `a` up to `a + n`. -/
def load (m : Mem) (a n : Nat) : List UInt8 := (List.range n).map fun i => m (a + i)

/-- The string at index `a` of an array of `size` bytes. -/
def stringAt (size : Nat) (m : Mem) (a : Nat) : List UInt8 := untilZero (load m a (size - a))

theorem length_load (m : Mem) (a n : Nat) : (load m a n).length = n := by
  rw [load, List.length_map, List.length_range]

theorem load_add (m : Mem) (a k n : Nat) : load m a (k + n) = load m a k ++ load m (a + k) n := by
  simp only [load, List.range_add, List.map_append, List.map_map]
  congr 1
  refine List.map_congr_left fun i _ => ?_
  show m (a + (k + i)) = m (a + k + i)
  rw [Nat.add_assoc]

theorem load_succ (m : Mem) (a n : Nat) : load m a (n + 1) = m a :: load m (a + 1) n := by
  rw [Nat.add_comm, load_add]
  rfl

theorem load_eq {m : Mem} {a : Nat} {bs : List UInt8} (h : Holds m a bs bs.length) :
    load m a bs.length = bs := by
  refine List.ext_getElem (length_load m a bs.length) fun i _ hi => ?_
  simp only [load, List.getElem_map, List.getElem_range]
  rw [h i hi, List.getD_eq_getElem _ _ hi]

/-- The string at an index that holds `w` and a zero byte. -/
theorem stringAt_eq {m : Mem} {a size : Nat} {w : List UInt8} (h : Holds m a w (w.length + 1))
    (hzero : 0 ∉ w) (hsize : a + w.length < size) : stringAt size m a = w := by
  have hload : load m a w.length = w := load_eq fun i hi => h i (Nat.lt_succ_of_lt hi)
  have hend : m (a + w.length) = 0 := by
    rw [h w.length (Nat.lt_succ_self _)]
    exact List.getD_eq_default w 0 (Nat.le_refl _)
  have hsplit : size - a = w.length + (size - a - w.length - 1 + 1) := by omega
  rw [stringAt, hsplit, load_add, load_succ, hload, hend, untilZero_append_zero, untilZero]
  refine List.takeWhile_eq_self_iff.mpr fun b hb => ?_
  exact bne_iff_ne.mpr fun h0 => hzero (h0 ▸ hb)

/-! ## The command line -/

namespace Mrl

/-- The bytes of `cmdline_str` and behind it. -/
def cmdlineAt (p : Platform) (mrl : Mrl) : Mem := fun i =>
  if i < cmdlineLen + 1 then mrl.cmdlineStr i else p.behind mrl i

/-- `memmove` inside `cmdline_str`. -/
def memmove (p : Platform) (mrl : Mrl) (dst src n : Nat) : Option Mem :=
  stored (cmdlineLen + 1) dst n (overlay mrl.cmdlineStr dst n fun i => mrl.cmdlineAt p (src + i))

/-- `prv_cmdline_buf_insert_text` -/
def prvCmdlineBufInsertText (p : Platform) (mrl : Mrl) (text : List UInt8) :
    Option (Mrl × Status) :=
  if cmdlineLen < mrl.cmdlen + text.length then some (mrl, .errClFull)
  else do
    let m ← mrl.memmove p (mrl.cursor + text.length) mrl.cursor (mrl.cmdlen - mrl.cursor)
    let m ← memcpy (cmdlineLen + 1) m mrl.cursor text
    let len := mrl.cmdlen + text.length
    let m ← memset (cmdlineLen + 1) m len (cmdlineLen - len) 0
    some ({ mrl with cmdlineStr := m, cursor := mrl.cursor + text.length, cmdlen := len }, .ok)

/-- `prv_cmdline_buf_backspace` -/
def prvCmdlineBufBackspace (p : Platform) (mrl : Mrl) (len : Nat) : Option Mrl :=
  if mrl.cursor < len then some mrl
  else do
    let m ← mrl.memmove p (mrl.cursor - len) mrl.cursor (mrl.cmdlen - mrl.cursor + len)
    let m ← memset (cmdlineLen + 1) m mrl.cmdlen 1 0
    some { mrl with cmdlineStr := m, cursor := mrl.cursor - len, cmdlen := mrl.cmdlen - len }

/-- `prv_cmdline_buf_delete` -/
def prvCmdlineBufDelete (p : Platform) (mrl : Mrl) : Option Mrl :=
  if mrl.cmdlen = 0 ∨ mrl.cursor = mrl.cmdlen then some mrl
  else do
    let m ← mrl.memmove p mrl.cursor (mrl.cursor + 1) (mrl.cmdlen - mrl.cursor + 1)
    let m ← memset (cmdlineLen + 1) m mrl.cmdlen 1 0
    some { mrl with cmdlineStr := m, cmdlen := mrl.cmdlen - 1 }

/-- `prv_cmdline_buf_reset` -/
def prvCmdlineBufReset (mrl : Mrl) : Mrl :=
  { mrl with cmdlineStr := fill mrl.cmdlineStr 0 (cmdlineLen + 1) 0, cmdlen := 0, cursor := 0 }

end Mrl

/-! ## Tokens

`prv_cmdline_buf_split` walks along the line and ends every word with a zero byte.  A word is
a pointer into the line. -/

/-- Where the scan of a word has ended: at the limit, or in front of what follows. -/
inductive WordEnd
  | limit (m : Mem)
  | next (m : Mem) (str : Nat)

def isQuote (c : UInt8) : Bool := c = 34 ∨ c = 39

/-- The loop over a quoted word.  No word is followed behind the end of the array. -/
def quotedWord (limit : Nat) : Nat → Mem → Nat → Option WordEnd
  | 0, _, _ => none
  | rounds + 1, m, str =>
    if cmdlineLen < str then none
    else if m str = 0 then some (.next m str)
    else if ¬str < limit then some (.limit m)
    else if m str = 92 then
      if isQuote (m (str + 1)) then quotedWord limit rounds m (str + 2)
      else quotedWord limit rounds m (str + 1)
    else if isQuote (m str) then some (.next (write m str [0]) (str + 1))
    else quotedWord limit rounds m (str + 1)

/-- The loop over a word without quotes. -/
def plainWord (limit : Nat) : Nat → Mem → Nat → Option WordEnd
  | 0, _, _ => none
  | rounds + 1, m, str =>
    if cmdlineLen < str then none
    else if m str = 32 ∨ m str = 0 then some (.next m str)
    else if ¬str < limit then some (.limit m)
    else plainWord limit rounds (if isQuote (m str) then write m str [0] else m) (str + 1)

/-- What `prv_cmdline_buf_split` leaves: the line, the words and the status. -/
structure Split where
  line : Mem
  words : List Nat
  status : Status

/-- The outer loop of `prv_cmdline_buf_split`. -/
def splitLoop (limit wordRounds : Nat) : Nat → Mem → Nat → List Nat → Option Split
  | 0, _, _, _ => none
  | rounds + 1, m, str, words =>
    if cmdlineLen < str then none
    else if m str = 0 then some ⟨m, words, .ok⟩
    else if cmdTokenNmb ≤ words.length then none
    else if isQuote (m str) then
      match quotedWord limit wordRounds m (str + 1) with
      | none => none
      | some (.limit m) => some ⟨m, words, .ok⟩
      | some (.next m next) =>
        let words := words ++ [str + 1]
        if words.length = cmdTokenNmb ∧ m next ≠ 0 then some ⟨m, words, .errTknNum⟩
        else splitLoop limit wordRounds rounds m next words
    else
      match plainWord limit wordRounds m str with
      | none => none
      | some (.limit m) => some ⟨m, words, .ok⟩
      | some (.next m next) =>
        let words := words ++ [str]
        if m next = 0 then some ⟨m, words, .ok⟩
        else
          let m := write m next [0]
          if words.length = cmdTokenNmb ∧ m (next + 1) ≠ 0 then some ⟨m, words, .errTknNum⟩
          else splitLoop limit wordRounds rounds m (next + 1) words

/-- `prv_cmdline_buf_split` -/
def Mrl.prvCmdlineBufSplit (p : Platform) (mrl : Mrl) (limit : Nat) : Option Split :=
  splitLoop limit p.rounds p.rounds mrl.cmdlineStr 0 []

/-- The words as strings. -/
def Split.argv (s : Split) : List (List UInt8) := s.words.map (stringAt (cmdlineLen + 1) s.line)

end Microrl
end Carrels
