/-
The input of the line editor (`microrl.c`): history, terminal, keys, and the serial events of
the orchestrator that feed it (`orchestrator.c`).
-/
import Mathlib.Data.Nat.Digits.Defs
import Carrels.Microrl.State

namespace Carrels
namespace Microrl

open ByteMemory Logged

/-! ## History -/

namespace HistRbuf

/-- A byte of `ring_buf`.  The loops read the byte at index 128 before they wrap around.  It
is the lowest byte of `head`, which lies behind the array with its eight bytes; no loop comes to
an index behind those. -/
def byteAt (r : HistRbuf) (i : Nat) : UInt8 :=
  if i < ringHistoryLen then r.ringBuf i
  else UInt8.ofNat (r.head / 256 ^ (i - ringHistoryLen))

/-- `prv_hist_next_record` -/
def prvHistNextRecord (r : HistRbuf) : Nat → Nat → Option Nat
  | 0, _ => none
  | rounds + 1, idx =>
    if r.byteAt (idx + 1) = 0 then some (idx + 1)
    else if ringHistoryLen ≤ idx + 1 then
      if r.byteAt (idx + 1 - ringHistoryLen) = 0 then some (idx + 1 - ringHistoryLen)
      else r.prvHistNextRecord rounds (idx + 1 - ringHistoryLen)
    else r.prvHistNextRecord rounds (idx + 1)

/-- `prv_hist_erase_older` -/
def prvHistEraseOlder (p : Platform) (r : HistRbuf) : Option HistRbuf :=
  (r.prvHistNextRecord p.rounds r.head).map fun newPos => { r with head := newPos }

/-- `prv_hist_is_space_for_new` -/
def prvHistIsSpaceForNew (r : HistRbuf) (len : Nat) : Bool :=
  if r.head ≤ r.tail then len < ringHistoryLen - r.tail + r.head - 1
  else len < r.head - r.tail - 1

/-- The first loop of `prv_hist_restore_line`. -/
def countRecords (p : Platform) (r : HistRbuf) : Nat → Nat → Nat → Option Nat
  | 0, _, _ => none
  | rounds + 1, i, cnt =>
    if i = r.tail then some cnt
    else (r.prvHistNextRecord p.rounds i).bind fun i => countRecords p r rounds i (cnt + 1)

/-- The navigation counter after a step, and whether it shows a record. -/
def navigate (r : HistRbuf) (cnt : Nat) : HistDir → HistRbuf × Bool
  | .up =>
    if cnt < r.count then (r, false)
    else if cnt ≠ r.count then ({ r with count := r.count + 1 }, true)
    else (r, true)
  | .down => if r.count = 0 then (r, false) else ({ r with count := r.count - 1 }, r.count ≠ 1)
  | .none => (r, true)

/-- The loop that looks for the record of the navigation counter. -/
def findRecord (p : Platform) (r : HistRbuf) (cnt : Nat) : Nat → Nat → Nat → Option Nat
  | 0, _, _ => none
  | rounds + 1, j, idx =>
    if cnt - j = r.count then some idx
    else (r.prvHistNextRecord p.rounds idx).bind fun idx => findRecord p r cnt rounds (j + 1) idx

/-- The loop that measures the record. -/
def recordLen (r : HistRbuf) : Nat → Nat → Nat → Option Nat
  | 0, _, _ => none
  | rounds + 1, k, len =>
    if r.byteAt k = 0 then some len
    else recordLen r rounds (if ringHistoryLen ≤ k + 1 then k + 1 - ringHistoryLen else k + 1)
      (len + 1)

/-- The last part of `prv_hist_restore_line`: the record behind `idx` is copied to the line. -/
def copyRecord (p : Platform) (r : HistRbuf) (line : Mem) (idx : Nat) : Option (Mem × Nat) := do
  let len ← r.recordLen p.rounds idx 0
  let line ← memset (cmdlineLen + 1) line 0 cmdlineLen 0
  if idx + len < ringHistoryLen then
    let line ← memcpy (cmdlineLen + 1) line 0 (load r.ringBuf idx len)
    some (line, len)
  else
    let part := ringHistoryLen - idx
    let line ← memcpy (cmdlineLen + 1) line 0 (load r.ringBuf idx part)
    let line ← memcpy (cmdlineLen + 1) line part (load r.ringBuf 0 (len - part))
    some (line, len)

/-- `prv_hist_restore_line` -/
def prvHistRestoreLine (p : Platform) (r : HistRbuf) (line : Mem) (dir : HistDir) :
    Option (HistRbuf × Mem × Nat) := do
  let cnt ← r.countRecords p p.rounds r.head 0
  match r.navigate cnt dir with
  | (r, false) => some (r, line, 0)
  | (r, true) => do
    let idx ← r.findRecord p cnt p.rounds 0 r.head
    let (line, len) ← r.copyRecord p line (idx + 1)
    some (r, line, len)

/-- The loop of `prv_hist_save_line` that makes room. -/
def makeRoom (p : Platform) (len : Nat) : Nat → HistRbuf → Option HistRbuf
  | 0, _ => none
  | rounds + 1, r =>
    if r.prvHistIsSpaceForNew len then some r
    else (r.prvHistEraseOlder p).bind (makeRoom p len rounds)

/-- The line is copied to the ring behind the last record, in one part or in two. -/
def copyLine (r : HistRbuf) (line : List UInt8) : Option Mem :=
  if line.length < ringHistoryLen - r.tail - 1 then
    memcpy ringHistoryLen r.ringBuf (r.tail + 1) line
  else do
    let part := ringHistoryLen - r.tail - 1
    let ring ← memcpy ringHistoryLen r.ringBuf (r.tail + 1) (line.take part)
    memcpy ringHistoryLen ring 0 (line.drop part)

/-- The last part of `prv_hist_save_line`. -/
def storeRecord (r : HistRbuf) (line : List UInt8) : Option HistRbuf := do
  let ring ← r.copyLine line
  let tail := r.tail + line.length + 1
  let tail := if ringHistoryLen ≤ tail then tail - ringHistoryLen else tail
  let ring ← memcpy ringHistoryLen ring tail [0]
  some { r with ringBuf := ring, tail, count := 0 }

/-- `prv_hist_save_line` -/
def prvHistSaveLine (p : Platform) (r : HistRbuf) (line : Mem) (len : Nat) : Option HistRbuf :=
  if ringHistoryLen - 1 < len then some r
  else do
    let (r, last, _) ← r.prvHistRestoreLine p p.garbage (if r.count = 1 then .none else .up)
    if stringAt (cmdlineLen + 1) line 0 = stringAt (cmdlineLen + 1) last 0 then
      some { r with count := 0 }
    else do
      let r ← makeRoom p len p.rounds r
      r.storeRecord (load line 0 len)

end HistRbuf

/-! ## Terminal -/

/-- `prv_cursor_generate_move` -/
def prvCursorGenerateMove (offset : Int) : List UInt8 :=
  let offset := max (-999) (min 999 offset)
  if offset = 0 then []
  else
    [27, 91] ++ (Nat.digits 10 offset.natAbs).reverse.map (fun d => UInt8.ofNat (48 + d)) ++
      [if offset < 0 then 68 else 67]

/-- The buffer of `prv_terminal_print_line` with `str_ptr`. -/
structure PrintBuf where
  str : Mem
  ptr : Nat

namespace PrintBuf

/-- Store at `str_ptr` and advance it. -/
def put (b : PrintBuf) (bs : List UInt8) : Option PrintBuf :=
  (memcpy printBufferLen b.str b.ptr bs).map fun str => { str, ptr := b.ptr + bs.length }

/-- End the string at `str_ptr`. -/
def close (b : PrintBuf) : Option PrintBuf :=
  (memcpy printBufferLen b.str b.ptr [0]).map fun str => { b with str }

/-- The text in the buffer. -/
def text (b : PrintBuf) : List UInt8 := stringAt printBufferLen b.str 0

/-- Print what is in the buffer and start again. -/
def flush (b : PrintBuf) : Logged Effect PrintBuf := do
  let b ← attempt b.close
  note (.out b.text) { b with ptr := 0 }

/-- The buffer before the loop: with `reset` it moves the cursor to the position `pos`. -/
def start (pos : Nat) (reset : Bool) : Option PrintBuf :=
  let b : PrintBuf := { str := fun _ => 0, ptr := 0 }
  if reset then
    (b.put (13 :: prvCursorGenerateMove (promptString.length + pos))).bind close
  else some b

/-- Print what is in the buffer if `ESC [ K` and a move do not fit behind it. -/
def flushIfFull (b : PrintBuf) : Logged Effect PrintBuf :=
  if printBufferLen < b.ptr + 3 + 6 + 1 then b.flush else pure b

end PrintBuf

/-- The loop of `prv_terminal_print_line`. -/
def printChars (line : Mem) : Nat → Nat → PrintBuf → Logged Effect PrintBuf
  | 0, _, b => pure b
  | n + 1, i, b => do
    let b ← attempt (b.put [line i])
    if b.ptr = b.text.length then do
      let b ← b.flush
      printChars line n (i + 1) b
    else printChars line n (i + 1) b

namespace Mrl

def out (str : List UInt8) : Logged Effect Unit := note (.out str) ()

/-- `prv_terminal_move_cursor` -/
def prvTerminalMoveCursor (offset : Int) : Logged Effect Unit :=
  if offset = 0 then pure () else out (prvCursorGenerateMove offset)

/-- `prv_terminal_print_line` -/
def prvTerminalPrintLine (mrl : Mrl) (pos : Nat) (reset : Bool) : Logged Effect Unit := do
  let b ← attempt (PrintBuf.start pos reset)
  let b ← printChars mrl.cmdlineStr (mrl.cmdlen - pos) pos b
  let b ← b.flushIfFull
  let b ← attempt (b.put ([27, 91, 75] ++ prvCursorGenerateMove (mrl.cursor - mrl.cmdlen)))
  let b ← attempt b.close
  out b.text

/-- `prv_hist_search` -/
def prvHistSearch (p : Platform) (mrl : Mrl) (dir : HistDir) : Logged Effect Mrl := do
  let (hist, line, len) ← attempt (mrl.ringHist.prvHistRestoreLine p mrl.cmdlineStr dir)
  let line ← attempt (memset (cmdlineLen + 1) line len (cmdlineLen - len) 0)
  let mrl := { mrl with ringHist := hist, cmdlineStr := line, cmdlen := len, cursor := len }
  mrl.prvTerminalPrintLine 0 true
  pure mrl

/-- `microrl_clear_terminal` -/
def microrlClearTerminal (mrl : Mrl) : Logged Effect Unit := do
  out [27, 91, 50, 74]
  out [27, 91, 72]
  out promptString
  mrl.prvTerminalPrintLine 0 false

end Mrl

/-! ## Completion -/

/-- `shell_commands` of `orchestrator.c` -/
def shellCommands : List (List UInt8) :=
  [bytes "start", bytes "lspcs", bytes "flip", bytes "set-acl", bytes "deploy", bytes "stop",
    bytes "suspend", bytes "resume", bytes "help"]

/-- `shell_complete` of `orchestrator.c` -/
def shellComplete (argv : List (List UInt8)) : List (List UInt8) :=
  match argv with
  | [] => shellCommands
  | [pre] => shellCommands.filter pre.isPrefixOf
  | _ => []

/-- The shortest of the words, the first of them. -/
def shortest (first : List UInt8) : List (List UInt8) → List UInt8
  | [] => first
  | word :: words => shortest (if word.length < first.length then word else first) words

/-- `prv_complete_total_len`: the first place at which a word differs from the shortest. -/
def prvCompleteTotalLen (first : List UInt8) (words : List (List UInt8)) : Nat :=
  let short := shortest first words
  ((List.range short.length).find? fun i =>
    (first :: words).any fun word => short[i]? != word[i]?).getD short.length

/-- The loop that restores the spaces behind the words. -/
def restoreSpaces (size : Nat) : Mem → List Nat → Option Mem
  | m, [] => some m
  | m, word :: words => do
    let m ← memset size m (word + (stringAt size m word).length) 1 32
    restoreSpaces size m words

namespace Mrl

/-- The part of `prv_complete_get_input` that prints the words to choose from. -/
def printCompletions (words : List (List UInt8)) : Logged Effect Unit := do
  out endLine
  words.forM fun word => do
    out word
    out [32]
  out endLine
  out promptString

/-- The part of `prv_complete_get_input` that inserts the `len` bytes that the completions have
in common, less the last word in front of the cursor. -/
def insertCommon (p : Platform) (mrl : Mrl) (argv : List (List UInt8)) (first : List UInt8)
    (len : Nat) : Option Mrl :=
  if len = 0 then some mrl
  else
    argv.getLast?.bind fun last =>
      (mrl.prvCmdlineBufInsertText p ((first.drop last.length).take (len - last.length))).map (·.1)

/-- What is inserted for the completions: a single one is inserted with a space. -/
def insertCompletion (p : Platform) (mrl : Mrl) (argv : List (List UInt8)) (first : List UInt8)
    (others : List (List UInt8)) : Option Mrl :=
  if others = [] then do
    let mrl ← mrl.insertCommon p argv first first.length
    (mrl.prvCmdlineBufInsertText p [32]).map (·.1)
  else mrl.insertCommon p argv first (prvCompleteTotalLen first others)

/-- The last part of `prv_complete_get_input`. -/
def applyCompletion (p : Platform) (mrl : Mrl) (argv : List (List UInt8)) (words : List Nat)
    (first : List UInt8) (others : List (List UInt8)) : Logged Effect Mrl := do
  let pos := mrl.cursor
  if others = [] then pure () else printCompletions (first :: others)
  let mrl ← attempt (mrl.insertCompletion p argv first others)
  let line ← attempt (restoreSpaces (cmdlineLen + 1) mrl.cmdlineStr words)
  let mrl := { mrl with cmdlineStr := line }
  mrl.prvTerminalPrintLine (if others = [] then pos else 0) false
  pure mrl

/-- `prv_complete_get_input`.  The byte in front of `cmdline_str` is the highest one of
`prompt_size`, which is zero.  Behind a space the word `""` is added with a `NULL` behind it,
for which the array of words may have no place. -/
def prvCompleteGetInput (p : Platform) (mrl : Mrl) : Logged Effect (Mrl × Status) := do
  let split ← attempt (mrl.prvCmdlineBufSplit p mrl.cursor)
  let mrl := { mrl with cmdlineStr := split.line }
  let blank : Bool := mrl.cursor = 0 ∨ mrl.cmdlineStr (mrl.cursor - 1) = 0
  if split.status ≠ .ok then pure (mrl, .errCplt)
  else if blank ∧ cmdTokenNmb ≤ split.words.length + 1 then attempt none
  else
    let argv := split.argv ++ if blank then [[]] else []
    match shellComplete argv with
    | [] => pure (mrl, .errCplt)
    | first :: others => do
      let words := if blank then split.words else split.words.dropLast
      let mrl ← mrl.applyCompletion p argv words first others
      pure (mrl, .ok)

/-! ## Keys -/

/-- The part of `prv_handle_newline` that calls `exec_fn`, unless there are too many words. -/
def executeWords (split : Split) : Logged Effect Unit :=
  if split.status = .ok then note (.exec split.argv) ()
  else do
    out (bytes "ERROR: too many tokens")
    out endLine

/-- `prv_handle_newline` -/
def prvHandleNewline (p : Platform) (mrl : Mrl) : Logged Effect (Mrl × Status) := do
  out endLine
  if mrl.cmdlen = 0 then do
    out promptString
    pure (mrl.prvCmdlineBufReset, .ok)
  else do
    let hist ← attempt (mrl.ringHist.prvHistSaveLine p mrl.cmdlineStr mrl.cmdlen)
    let split ← attempt (mrl.prvCmdlineBufSplit p mrl.cmdlen)
    let mrl := { mrl with ringHist := hist, cmdlineStr := split.line }
    executeWords split
    out promptString
    pure (mrl.prvCmdlineBufReset, split.status)

/-- `prv_escape_process`: the second component tells whether the sequence is complete. -/
def prvEscapeProcess (p : Platform) (mrl : Mrl) (ch : UInt8) : Logged Effect (Mrl × Bool) :=
  let delete : Logged Effect (Mrl × Bool) := do
    let mrl ← attempt (mrl.prvCmdlineBufDelete p)
    mrl.prvTerminalPrintLine mrl.cursor false
    pure (mrl, true)
  if ch = 91 then pure ({ mrl with escCode := .bracket }, false)
  else if ch = 127 then delete
  else if mrl.escCode = .bracket then
    if ch = 65 then do
      let mrl ← mrl.prvHistSearch p .up
      pure (mrl, true)
    else if ch = 66 then do
      let mrl ← mrl.prvHistSearch p .down
      pure (mrl, true)
    else if ch = 67 then
      if mrl.cursor < mrl.cmdlen then do
        prvTerminalMoveCursor 1
        pure ({ mrl with cursor := mrl.cursor + 1 }, true)
      else pure (mrl, true)
    else if ch = 68 then
      if 0 < mrl.cursor then do
        prvTerminalMoveCursor (-1)
        pure ({ mrl with cursor := mrl.cursor - 1 }, true)
      else pure (mrl, true)
    else if ch = 55 ∨ ch = 49 then pure ({ mrl with escCode := .home }, false)
    else if ch = 56 ∨ ch = 52 then pure ({ mrl with escCode := .end }, false)
    else if ch = 51 then pure ({ mrl with escCode := .del }, false)
    else pure (mrl, true)
  else if ch = 126 then
    match mrl.escCode with
    | .home => do
      prvTerminalMoveCursor (-mrl.cursor)
      pure ({ mrl with cursor := 0 }, true)
    | .end => do
      prvTerminalMoveCursor (mrl.cmdlen - mrl.cursor)
      pure ({ mrl with cursor := mrl.cmdlen }, true)
    | .del => delete
    | .bracket => pure (mrl, true)
  else pure (mrl, true)

/-- `prv_control_char_process` -/
def prvControlCharProcess (p : Platform) (mrl : Mrl) (ch : UInt8) :
    Logged Effect (Mrl × Status) :=
  if ch = 0x09 then do
    let (mrl, status) ← mrl.prvCompleteGetInput p
    pure (mrl, if status = .ok then .ok else .errCplt)
  else if ch = 0x1b then pure ({ mrl with escape := true }, .ok)
  else if ch = 0x15 then do
    let mrl ← attempt (if 0 < mrl.cursor then mrl.prvCmdlineBufBackspace p mrl.cursor
      else some mrl)
    mrl.prvTerminalPrintLine 0 true
    pure (mrl, .ok)
  else if ch = 0x0b then do
    out [27, 91, 75]
    pure ({ mrl with cmdlen := mrl.cursor }, .ok)
  else if ch = 0x05 then do
    prvTerminalMoveCursor (mrl.cmdlen - mrl.cursor)
    pure ({ mrl with cursor := mrl.cmdlen }, .ok)
  else if ch = 0x01 then do
    prvTerminalMoveCursor (-mrl.cursor)
    pure ({ mrl with cursor := 0 }, .ok)
  else if ch = 0x06 then
    if mrl.cursor < mrl.cmdlen then do
      prvTerminalMoveCursor 1
      pure ({ mrl with cursor := mrl.cursor + 1 }, .ok)
    else pure (mrl, .ok)
  else if ch = 0x02 then
    if mrl.cursor ≠ 0 then do
      prvTerminalMoveCursor (-1)
      pure ({ mrl with cursor := mrl.cursor - 1 }, .ok)
    else pure (mrl, .ok)
  else if ch = 0x10 then do
    let mrl ← mrl.prvHistSearch p .up
    pure (mrl, .ok)
  else if ch = 0x0e then do
    let mrl ← mrl.prvHistSearch p .down
    pure (mrl, .ok)
  else if ch = 0x7f ∨ ch = 0x08 then
    if 0 < mrl.cursor then do
      let mrl ← attempt (mrl.prvCmdlineBufBackspace p 1)
      if mrl.cursor = mrl.cmdlen then out [8, 32, 8]
      else mrl.prvTerminalPrintLine mrl.cursor true
      pure (mrl, .ok)
    else pure (mrl, .ok)
  else if ch = 0x04 then do
    let mrl ← attempt (mrl.prvCmdlineBufDelete p)
    mrl.prvTerminalPrintLine mrl.cursor false
    pure (mrl, .ok)
  else if ch = 0x12 then do
    out endLine
    out promptString
    mrl.prvTerminalPrintLine 0 false
    pure (mrl, .ok)
  else if ch = 0x03 then do
    note .sigint ()
    pure (mrl, .ok)
  else if ch = 0x0c then do
    mrl.microrlClearTerminal
    pure (mrl, .ok)
  else pure (mrl, .ok)

/-- `prv_insert_char` -/
def prvInsertChar (p : Platform) (mrl : Mrl) (ch : UInt8) : Logged Effect (Mrl × Status) := do
  let (mrl, status) ← attempt (mrl.prvCmdlineBufInsertText p [ch])
  if status ≠ .ok then pure (mrl, .errClFull)
  else do
    if mrl.cursor = mrl.cmdlen then out [ch]
    else mrl.prvTerminalPrintLine (mrl.cursor - 1) false
    pure (mrl, .ok)

end Mrl

/-- `IS_CONTROL_CHAR`: a byte from 128 on is negative where `char` is signed. -/
def isControlChar (p : Platform) (ch : UInt8) : Bool :=
  ch ≤ 0x1f ∨ ch = 0x7f ∨ (p.charSigned ∧ 0x80 ≤ ch)

/-- The loop of `microrl_processing_input` for one character.  The second component is the
value that the loop is left with. -/
def Mrl.processChar (p : Platform) (mrl : Mrl) (ch : UInt8) :
    Logged Effect (Mrl × Option Status) :=
  if mrl.escape then do
    let (mrl, complete) ← mrl.prvEscapeProcess p ch
    pure (if complete then { mrl with escape := false } else mrl, none)
  else if ch = 13 ∨ ch = 10 then
    if mrl.lastEndl = (if ch = 13 then 10 else 13) then pure ({ mrl with lastEndl := 0 }, none)
    else do
      let (mrl, status) ← { mrl with lastEndl := ch }.prvHandleNewline p
      pure (mrl, if status = .ok then none else some .errTknNum)
  else do
    let mrl := { mrl with lastEndl := 0 }
    if isControlChar p ch then do
      let (mrl, res) ← mrl.prvControlCharProcess p ch
      pure (mrl, if res = .ok then none else some res)
    else if ch = 32 ∧ mrl.cmdlen = 0 then pure (mrl, some .ok)
    else do
      let (mrl, res) ← mrl.prvInsertChar p ch
      pure (mrl, if res = .ok then none else some res)

/-- The loop of `microrl_processing_input`. -/
def Mrl.processChars (p : Platform) (mrl : Mrl) : List UInt8 → Logged Effect (Mrl × Status)
  | [] => pure (mrl, .ok)
  | ch :: data => do
    let (mrl, left) ← mrl.processChar p ch
    match left with
    | some res => pure (mrl, res)
    | none => mrl.processChars p data

/-- `microrl_processing_input` -/
def Mrl.microrlProcessingInput (p : Platform) (mrl : Mrl) (data : List UInt8) :
    Logged Effect (Mrl × Status) :=
  if data = [] then pure (mrl, .errPar) else mrl.processChars p data

/-! ## Serial events -/

/-- `SHELL_INPUT_BUFFER_SIZE` of `orchestrator.c` -/
def shellInputBufferSize : Nat := 64

/-- `shell_normalise_input` of `orchestrator.c` -/
def shellNormaliseInput (c : UInt8) : UInt8 := if c = 0x02 ∨ c = 0x08 ∨ c = 0x7f then 0x7f else c

/-- `orche_handle_serial_event` of `orchestrator.c` for the characters in the queue.  `input`
are those collected so far. -/
def Mrl.orcheHandleSerialEvent (p : Platform) (mrl : Mrl) (input : List UInt8) :
    List UInt8 → Logged Effect Mrl
  | [] =>
    if input = [] then pure mrl
    else do
      let (mrl, _) ← mrl.microrlProcessingInput p input
      pure mrl
  | c :: queue =>
    let input := input ++ [shellNormaliseInput c]
    if input.length = shellInputBufferSize then do
      let (mrl, _) ← mrl.microrlProcessingInput p input
      mrl.orcheHandleSerialEvent p [] queue
    else mrl.orcheHandleSerialEvent p input queue

end Microrl
end Carrels
