/-
The line editor does what the abstract editor does.

`Represents` says that the state of the code stands for a state of the abstract editor.  Every
byte takes the code to a state that stands for the next one, and what is seen on the way is the
same, except that a line of 127 bytes cannot be entered and that completion is considered for
lines of one plain word only.
-/
import Carrels.Microrl.Editor

namespace Carrels
namespace Microrl

open ByteMemory Logged

/-- The state stands for the abstract editor `e`. -/
structure Mrl.Represents (mrl : Mrl) (e : Editor) : Prop where
  line : LineIs mrl.cmdlineStr e.buffer
  cmdlen : mrl.cmdlen = e.line.text.length
  cursor : mrl.cursor = e.line.cursor
  hist : mrl.ringHist.HoldsHistory e.history
  noZero : 0 ∉ e.buffer

def Mrl.decoder (mrl : Mrl) : Decoder := ⟨mrl.lastEndl, mrl.escCode, mrl.escape⟩

theorem Mrl.decoder_lastEndl (mrl : Mrl) : mrl.decoder.lastEndl = mrl.lastEndl := rfl

theorem Mrl.decoder_escCode (mrl : Mrl) : mrl.decoder.escCode = mrl.escCode := rfl

theorem Mrl.decoder_escape (mrl : Mrl) : mrl.decoder.escape = mrl.escape := rfl

/-- The computation gives the answer and the value `v`. -/
def Answers {α : Type} (mrl : Mrl) (x : Logged Effect (Mrl × α)) (a : Editor.Answer) (v : α) :
    Prop :=
  ∃ mrl', Yields Effect.items x a.items (mrl', v) ∧ mrl'.Represents a.editor ∧
    mrl'.decoder = mrl.decoder

theorem init_represents : init.Represents .init where
  line := ⟨fun i hi => by rw [Nat.lt_one_iff.mp hi]; rfl, Nat.zero_le _, rfl⟩
  cmdlen := rfl
  cursor := rfl
  hist := by
    refine ⟨⟨by decide, rfl, by decide, ?_, fun _ h => absurd h List.not_mem_nil,
      fun _ h => absurd h List.not_mem_nil⟩, rfl, Nat.le_refl 0, fun _ => ⟨rfl, rfl⟩⟩
    exact Circular.ring_singleton.mpr rfl
  noZero := List.not_mem_nil

namespace Mrl.Represents

variable {p : Platform} {mrl : Mrl} {e : Editor}

theorem eq_withLine (h : mrl.Represents e) :
    mrl = mrl.withLine mrl.cmdlineStr e.line := by
  obtain ⟨str, len, cursor, _, _, _, _⟩ := mrl
  obtain ⟨-, rfl, rfl, -, -⟩ := h
  rfl

theorem zero_not_mem_text (h : mrl.Represents e) : 0 ∉ e.line.text :=
  fun hmem => h.noZero (List.mem_append_left _ hmem)

/-- Another text in the buffer. -/
theorem withLine (h : mrl.Represents e) {m : Mem} {z : Zipper UInt8} {rest : List UInt8}
    (hline : LineIs m (z.text ++ rest)) (hzero : 0 ∉ z.text ++ rest) :
    (mrl.withLine m z).Represents ⟨z, rest, e.history⟩ :=
  ⟨hline, rfl, rfl, h.hist, hzero⟩

/-- The line is printed as it is. -/
theorem printLine (h : mrl.Represents e) {pos : Nat} (hpos : pos ≤ e.line.text.length)
    (reset : Bool) : Yields Effect.items (mrl.prvTerminalPrintLine pos reset)
      (shown (lineText e.line pos reset)) () := by
  rw [h.eq_withLine]
  exact prvTerminalPrintLine_yields h.line h.zero_not_mem_text hpos reset

theorem prvInsertChar (h : mrl.Represents e) {c : UInt8} (hc : c ≠ 0)
    (hspace : ¬(c = 32 ∧ e.line.text = [])) :
    Answers mrl (mrl.prvInsertChar p c) (e.insertChar c)
      (if cmdlineLen < e.line.text.length + 1 then .errClFull else .ok) := by
  rw [Editor.insertChar, if_neg hspace, Mrl.prvInsertChar]
  by_cases hfull : cmdlineLen < e.line.text.length + 1
  · rw [if_pos hfull, if_pos hfull, h.eq_withLine, LineIs.prvCmdlineBufInsertText_full hfull,
      attempt_some_bind]
    exact ⟨_, yields_pure _ _, h.withLine h.line h.noZero, rfl⟩
  · rw [if_neg hfull, if_neg hfull, h.eq_withLine]
    obtain ⟨m, hinsert, hline⟩ := @LineIs.prvCmdlineBufInsertText p mrl _ _ _ h.line [c]
      (Nat.le_of_not_lt hfull)
    rw [hinsert, attempt_some_bind]
    have hzero : 0 ∉ (e.line.insert [c]).text := by
      have htext := h.zero_not_mem_text
      rw [Zipper.text, List.mem_append, not_or] at htext
      rw [Zipper.text_insert]
      simp only [List.mem_append, List.mem_singleton, not_or]
      exact ⟨htext.1, hc.symm, htext.2⟩
    have hnext : (mrl.withLine m (e.line.insert [c])).Represents
        ⟨e.line.insert [c], [], e.history⟩ :=
      h.withLine (by rwa [List.append_nil]) (by rwa [List.append_nil])
    refine ⟨_, ?_, hnext, rfl⟩
    simp only [ne_eq, not_true_eq_false, if_false]
    have hend : (mrl.withLine m (e.line.insert [c])).cursor =
        (mrl.withLine m (e.line.insert [c])).cmdlen ↔ (e.line.insert [c]).after = [] :=
      Zipper.cursor_eq_length_iff _
    by_cases hafter : (e.line.insert [c]).after = []
    · rw [if_pos (hend.mpr hafter), if_pos hafter]
      exact (yields_out [c]).bind_pure _
    · rw [if_neg (mt hend.mp hafter), if_neg hafter]
      exact (hnext.printLine (Nat.le_trans (Nat.sub_le _ _) (Zipper.cursor_le _)) false).bind_pure _

/-- Nothing new comes into a buffer from which is only removed. -/
theorem zero_not_mem_sublist (h : mrl.Represents e) {s : List UInt8}
    (hs : s.Sublist e.buffer) : 0 ∉ s := fun hmem => h.noZero (hs.subset hmem)

theorem prvCmdlineBufBackspace (h : mrl.Represents e) {n : Nat} (hn : n ≤ e.line.cursor) :
    ∃ m, mrl.prvCmdlineBufBackspace p n = some (mrl.withLine m (e.line.backspace n)) ∧
      (mrl.withLine m (e.line.backspace n)).Represents
        ⟨e.line.backspace n, e.rest.take n, e.history⟩ := by
  obtain ⟨m, hresult, hline⟩ := @LineIs.prvCmdlineBufBackspace p mrl _ _ _ h.line n hn
  rw [← h.eq_withLine] at hresult
  refine ⟨m, hresult, h.withLine hline (h.zero_not_mem_sublist ?_)⟩
  exact ((List.take_sublist _ _).append (List.Sublist.refl _)).append (List.take_sublist _ _)

theorem prvCmdlineBufDelete (h : mrl.Represents e) :
    ∃ mrl', mrl.prvCmdlineBufDelete p = some mrl' ∧ mrl'.decoder = mrl.decoder ∧
      mrl'.Represents (if e.line.after = [] then e
        else { e with line := e.line.delete, rest := e.rest.take 1 }) := by
  by_cases hafter : e.line.after = []
  · have hend : mrl.cursor = mrl.cmdlen := by
      rw [h.cursor, h.cmdlen]
      exact (Zipper.cursor_eq_length_iff _).mpr hafter
    rw [if_pos hafter, Mrl.prvCmdlineBufDelete, if_pos (.inr hend)]
    exact ⟨mrl, rfl, rfl, h⟩
  · rw [if_neg hafter]
    obtain ⟨m, hresult, hline⟩ := @LineIs.prvCmdlineBufDelete p mrl _ _ _ h.line hafter
    rw [← h.eq_withLine] at hresult
    refine ⟨_, hresult, rfl, h.withLine hline (h.zero_not_mem_sublist ?_)⟩
    exact ((List.Sublist.refl _).append (List.tail_sublist _)).append (List.take_sublist _ _)

/-- The delete key, in both places where the code handles it. -/
theorem delete (h : mrl.Represents e) {α : Type} (v : α) :
    Answers mrl (attempt (mrl.prvCmdlineBufDelete p) >>= fun mrl =>
      mrl.prvTerminalPrintLine mrl.cursor false >>= fun _ => pure (mrl, v)) e.delete v := by
  obtain ⟨mrl', hresult, hdecoder, hnext⟩ := h.prvCmdlineBufDelete (p := p)
  refine ⟨mrl', ?_, hnext, hdecoder⟩
  refine Yields.attempt_bind hresult ?_
  rw [hnext.cursor]
  exact (hnext.printLine (Zipper.cursor_le _) false).bind_pure _

/-- The cursor moves, and nothing else. -/
theorem moveTo (h : mrl.Represents e) {α : Type} (i : Nat) (hi : i ≤ e.line.text.length)
    (v : α) :
    Answers mrl (prvTerminalMoveCursor (i - mrl.cursor) >>= fun _ =>
      pure ({ mrl with cursor := i }, v)) (e.moveTo i) v := by
  refine ⟨{ mrl with cursor := i }, ?_, ?_, rfl⟩
  · rw [h.cursor, prvTerminalMoveCursor]
    split
    case isTrue hzero =>
      refine (yields_pure _ _).cast ?_
      rw [Editor.moveTo, hzero]
      rfl
    case isFalse => exact (yields_out _).bind_pure _
  · exact ⟨by rw [Editor.buffer, Editor.moveTo, Zipper.text_moveTo]; exact h.line,
      by rw [h.cmdlen, Editor.moveTo, Zipper.text_moveTo],
      by rw [Editor.moveTo, Zipper.cursor_moveTo, Nat.min_eq_left hi], h.hist,
      by rw [Editor.buffer, Editor.moveTo, Zipper.text_moveTo]; exact h.noZero⟩

/-- A line of the history in the buffer. -/
theorem lineIs_recalled {m : Mem} {l : List UInt8} (hlast : m cmdlineLen = 0)
    (hfits : l.length ≤ cmdlineLen) (hbytes : ∀ i < l.length, m i = l.getD i 0) :
    LineIs (fill m l.length (cmdlineLen - l.length) 0) l := by
  refine .of_getD (fun i hi => ?_) hfits ?_
  · rw [fill]
    rcases Nat.lt_or_ge i l.length with hlt | hge
    · rw [if_neg (by omega), hbytes i hlt]
    · obtain rfl : i = l.length := by omega
      rw [List.getD_eq_default _ _ (Nat.le_refl _)]
      split
      · rfl
      · rw [show l.length = cmdlineLen from by omega, hlast]
  · rw [fill, if_neg (by omega), hlast]

theorem prvHistSearch (h : mrl.Represents e) (dir : HistDir) {hist' : History}
    (hdir : dir = .up ∧ hist' = e.history.up ∨ dir = .down ∧ hist' = e.history.down) :
    ∃ mrl', Yields Effect.items (mrl.prvHistSearch p dir)
        (shown (lineText (Editor.recalled hist').line 0 true)) mrl' ∧
      mrl'.Represents (Editor.recalled hist') ∧ mrl'.decoder = mrl.decoder := by
  have hsizes : ringHistoryLen = cmdlineLen := rfl
  have hlast := h.line.last
  -- The history gives back a line, and the counter that stands for it.
  obtain ⟨r', line, hrestore, hhist, hline, hbytes⟩ : ∃ r' line,
      mrl.ringHist.prvHistRestoreLine p mrl.cmdlineStr dir =
        some (r', line, hist'.current.length) ∧ r'.HoldsHistory hist' ∧ line cmdlineLen = 0 ∧
        ∀ i < hist'.current.length, line i = hist'.current.getD i 0 := by
    have hwritten : ∀ l : List UInt8, l.length < cmdlineLen →
        write (fill mrl.cmdlineStr 0 cmdlineLen 0) 0 l cmdlineLen = 0 ∧
          ∀ i < l.length, write (fill mrl.cmdlineStr 0 cmdlineLen 0) 0 l i = l.getD i 0 := by
      intro l hl
      refine ⟨?_, fun i hi => ?_⟩
      · rw [write_of_outside (.inr (by omega)), fill, if_neg (by omega), hlast]
      · rw [write_of_mem (Nat.zero_le i) (by omega), Nat.sub_zero]
    rcases hdir with ⟨rfl, rfl⟩ | ⟨rfl, rfl⟩
    · have hlen := h.hist.up.length_current_lt
      obtain ⟨hend, hbytes⟩ := hwritten e.history.up.current (by omega)
      exact ⟨_, _, h.hist.restore_up mrl.cmdlineStr, h.hist.up, hend, hbytes⟩
    · have hlen := h.hist.down.length_current_lt
      obtain ⟨hend, hbytes⟩ := hwritten e.history.down.current (by omega)
      refine ⟨_, _, h.hist.restore_down mrl.cmdlineStr, h.hist.down, ?_, ?_⟩
      · split
        · exact hlast
        · exact hend
      · split
        case isTrue hzero =>
          rw [History.current, if_pos hzero]
          exact fun i hi => absurd hi (Nat.not_lt_zero i)
        case isFalse => exact hbytes
  have hlen := hhist.length_current_lt
  have hbuffer : (Editor.recalled hist').buffer = hist'.current := by
    rw [Editor.buffer, Editor.recalled, Zipper.text_ofText, List.append_nil]
  have hnext : ({ mrl with
      ringHist := r'
      cmdlineStr := fill line hist'.current.length (cmdlineLen - hist'.current.length) 0
      cmdlen := hist'.current.length
      cursor := hist'.current.length } : Mrl).Represents (Editor.recalled hist') := by
    refine ⟨?_, ?_, rfl, hhist, ?_⟩
    · rw [hbuffer]
      exact lineIs_recalled hline (by omega) hbytes
    · rw [Editor.recalled, Zipper.text_ofText]
    · rw [hbuffer]
      exact hhist.zero_not_mem_current
  have hclear : memset (cmdlineLen + 1) line hist'.current.length
      (cmdlineLen - hist'.current.length) 0 =
      some (fill line hist'.current.length (cmdlineLen - hist'.current.length) 0) :=
    stored_of_le (by omega) _
  refine ⟨_, ?_, hnext, rfl⟩
  rw [Mrl.prvHistSearch]
  refine Yields.attempt_bind hrestore (Yields.attempt_bind hclear ?_)
  exact (hnext.printLine (Nat.zero_le _) true).bind_pure _

/-- The buffer after `prv_cmdline_buf_reset`. -/
theorem reset (e : Editor) {hist : History} (hhist : mrl.ringHist.HoldsHistory hist) :
    mrl.prvCmdlineBufReset.Represents { e with line := .empty, rest := [], history := hist } where
  line := by
    refine .of_getD (fun i hi => ?_) (Nat.zero_le _) ?_
    · rw [Nat.le_zero.mp hi]
      rfl
    · show fill mrl.cmdlineStr 0 (cmdlineLen + 1) 0 cmdlineLen = 0
      rw [fill, if_pos (by omega)]
  cmdlen := rfl
  cursor := rfl
  hist := hhist
  noZero := List.not_mem_nil

/-- The line is entered: it is saved, and its words are executed. -/
theorem prvHandleNewline (h : mrl.Represents e)
    (hlen : e.line.text.length ≠ ringHistoryLen - 1) :
    Answers mrl (mrl.prvHandleNewline p) e.enter (e.enter.left.getD .ok) := by
  have hempty : mrl.cmdlen = 0 ↔ e.line.text = [] := by
    rw [h.cmdlen, List.length_eq_zero_iff]
  rw [Mrl.prvHandleNewline, Editor.enter]
  by_cases hnil : e.line.text = []
  · rw [if_pos (hempty.mpr hnil), if_pos hnil]
    refine ⟨mrl.prvCmdlineBufReset, ?_, reset e h.hist, rfl⟩
    exact ((yields_out endLine).bind ((yields_out promptString).bind_pure _)).cast
      (shown_append _ _).symm
  have htext : load mrl.cmdlineStr 0 e.line.text.length = e.line.text := h.line.load_append
  have hshown : stringAt (cmdlineLen + 1) mrl.cmdlineStr 0 = e.buffer :=
    stringAt_eq h.line.bytes h.noZero (by rw [Nat.zero_add]; exact Nat.lt_succ_of_le h.line.fits)
  obtain ⟨hist, hsave, hhist⟩ :=
    h.hist.prvHistSaveLine (p := p) htext hshown hnil h.zero_not_mem_text hlen
  obtain ⟨split, hsplit, hwords⟩ :=
    prvCmdlineBufSplit_spec (p := p) h.line h.noZero e.line.text.length
  rw [← h.cmdlen] at hsave
  rw [if_neg (mt hempty.mp hnil), if_neg hnil]
  have hreset :
      ({ mrl with ringHist := hist, cmdlineStr := split.line } : Mrl).prvCmdlineBufReset.Represents
        ⟨.empty, [], e.history.save e.line.text e.buffer⟩ := reset e hhist
  have hrun : ∀ items status, Yields Effect.items (executeWords split) items () →
      split.status = status →
      Yields Effect.items (do
        out endLine
        let hist ← attempt (mrl.ringHist.prvHistSaveLine p mrl.cmdlineStr mrl.cmdlen)
        let split ← attempt (mrl.prvCmdlineBufSplit p mrl.cmdlen)
        let mrl := { mrl with ringHist := hist, cmdlineStr := split.line }
        executeWords split
        out promptString
        pure (mrl.prvCmdlineBufReset, split.status))
        (shown endLine ++ (items ++ shown promptString))
        (({ mrl with ringHist := hist, cmdlineStr := split.line } : Mrl).prvCmdlineBufReset,
          status) := by
    intro items status hwords hstatus
    refine (yields_out endLine).bind (Yields.attempt_bind hsave ?_)
    rw [h.cmdlen]
    refine Yields.attempt_bind hsplit ?_
    rw [← hstatus]
    exact hwords.bind ((yields_out promptString).bind_pure _)
  cases hfound : splitText cmdTokenNmb e.line.text.length e.buffer with
  | none =>
    rw [hfound] at hwords
    have hwords : split.status = .errTknNum := hwords
    have hitems : Yields Effect.items (executeWords split)
        (shown (bytes "ERROR: too many tokens") ++ shown endLine) () := by
      rw [executeWords, if_neg (by rw [hwords]; decide)]
      exact (yields_out _).bind (yields_out _)
    refine ⟨_, (hrun _ _ hitems hwords).cast ?_, hreset, rfl⟩
    simp only [shown_append, List.append_assoc]
  | some words =>
    rw [hfound] at hwords
    have hitems : Yields Effect.items (executeWords split) [.exec words] () := by
      rw [executeWords, if_pos hwords.1, hwords.2]
      exact yields_note _ _ _
    exact ⟨_, hrun _ _ hitems hwords.1, hreset, rfl⟩

end Mrl.Represents

end Microrl
end Carrels
