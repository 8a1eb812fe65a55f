/-
Every key does what the abstract editor does.

`prv_escape_process` and `prv_control_char_process` share most of what they do.  Each key has
one lemma, with the value that the caller goes on with left open.
-/
import Carrels.Microrl.Completion

namespace Carrels
namespace Microrl

open ByteMemory Logged

namespace Mrl.Represents

variable {p : Platform} {mrl : Mrl} {e : Editor} {α : Type}

/-- The cursor stays where it is. -/
theorem stay_at (h : mrl.Represents e) {i : Nat} (hi : e.line.cursor = i) (v : α) :
    Answers mrl (pure (mrl, v)) (e.moveTo i) v := by
  have hline : e.line.moveTo i = e.line := by
    subst hi
    show Zipper.mk ((e.line.before ++ e.line.after).take e.line.before.length)
      ((e.line.before ++ e.line.after).drop e.line.before.length) = e.line
    rw [List.take_left, List.drop_left]
  refine ⟨mrl, ?_, ?_, rfl⟩
  · refine (yields_pure _ _).cast ?_
    rw [Editor.moveTo, hi, Int.sub_self]
    rfl
  · rw [Editor.moveTo, hline]
    exact h

theorem home (h : mrl.Represents e) (v : α) :
    Answers mrl (prvTerminalMoveCursor (-mrl.cursor) >>= fun _ =>
      pure ({ mrl with cursor := 0 }, v)) (e.press .home) v := by
  have hmove := h.moveTo 0 (Nat.zero_le _) v
  rwa [Nat.cast_zero, Int.zero_sub] at hmove

theorem moveToEnd (h : mrl.Represents e) (v : α) :
    Answers mrl (prvTerminalMoveCursor (mrl.cmdlen - mrl.cursor) >>= fun _ =>
      pure ({ mrl with cursor := mrl.cmdlen }, v)) (e.press .end) v := by
  have hmove := h.moveTo mrl.cmdlen (Nat.le_of_eq h.cmdlen) v
  rwa [h.cmdlen] at hmove ⊢

theorem right (h : mrl.Represents e) (v : α) :
    Answers mrl (if mrl.cursor < mrl.cmdlen then prvTerminalMoveCursor 1 >>= fun _ =>
      pure ({ mrl with cursor := mrl.cursor + 1 }, v) else pure (mrl, v)) (e.press .right) v := by
  have hcursor := e.line.cursor_le
  rw [Editor.press]
  split
  case isTrue hlt =>
    rw [h.cursor, h.cmdlen] at hlt
    rw [Nat.min_eq_left (by omega), ← h.cursor]
    have hmove := h.moveTo (mrl.cursor + 1) (by rw [h.cursor]; omega) v
    rwa [show ((mrl.cursor + 1 : Nat) : Int) - mrl.cursor = 1 from by omega] at hmove
  case isFalse hge =>
    rw [h.cursor, h.cmdlen] at hge
    exact h.stay_at (by omega) v

theorem left (h : mrl.Represents e) (v : α) :
    Answers mrl (if 0 < mrl.cursor then prvTerminalMoveCursor (-1) >>= fun _ =>
      pure ({ mrl with cursor := mrl.cursor - 1 }, v) else pure (mrl, v)) (e.press .left) v := by
  have hcursor := e.line.cursor_le
  rw [Editor.press]
  split
  case isTrue hpos =>
    have hmove := h.moveTo (mrl.cursor - 1) (by rw [h.cursor]; omega) v
    rw [show ((mrl.cursor - 1 : Nat) : Int) - mrl.cursor = -1 from by omega] at hmove
    rwa [← h.cursor]
  case isFalse hzero =>
    rw [h.cursor] at hzero
    exact h.stay_at (by omega) v

theorem up (h : mrl.Represents e) (v : α) :
    Answers mrl (mrl.prvHistSearch p .up >>= fun mrl => pure (mrl, v)) (e.press .up) v := by
  obtain ⟨mrl', hrun, hnext, hdecoder⟩ := h.prvHistSearch (p := p) .up (.inl ⟨rfl, rfl⟩)
  exact ⟨mrl', hrun.bind_pure _, hnext, hdecoder⟩

theorem down (h : mrl.Represents e) (v : α) :
    Answers mrl (mrl.prvHistSearch p .down >>= fun mrl => pure (mrl, v)) (e.press .down) v := by
  obtain ⟨mrl', hrun, hnext, hdecoder⟩ := h.prvHistSearch (p := p) .down (.inr ⟨rfl, rfl⟩)
  exact ⟨mrl', hrun.bind_pure _, hnext, hdecoder⟩

theorem backspace (h : mrl.Represents e) (v : α) :
    Answers mrl (if 0 < mrl.cursor then do
        let mrl ← attempt (mrl.prvCmdlineBufBackspace p 1)
        if mrl.cursor = mrl.cmdlen then Mrl.out [8, 32, 8]
        else mrl.prvTerminalPrintLine mrl.cursor true
        pure (mrl, v)
      else pure (mrl, v)) (e.press .backspace) v := by
  rw [Editor.press, Editor.backspace, h.cursor]
  by_cases hzero : e.line.cursor = 0
  · rw [if_neg (by omega), if_pos hzero]
    exact ⟨mrl, yields_pure _ _, h, rfl⟩
  rw [if_pos (by omega), if_neg hzero]
  obtain ⟨m, hresult, hnext⟩ := h.prvCmdlineBufBackspace (p := p) (n := 1)
    (Nat.pos_of_ne_zero hzero)
  refine ⟨_, Yields.attempt_bind hresult ?_, hnext, rfl⟩
  have hend := Zipper.cursor_eq_length_iff (e.line.backspace 1)
  simp only
  rw [hnext.cursor, hnext.cmdlen]
  by_cases hafter : (e.line.backspace 1).after = []
  · rw [if_pos (hend.mpr hafter), if_pos hafter]
    exact (yields_out _).bind_pure _
  · rw [if_neg (mt hend.mp hafter), if_neg hafter]
    exact (hnext.printLine (Zipper.cursor_le _) true).bind_pure _

theorem killBefore (h : mrl.Represents e) (v : α) :
    Answers mrl (do
      let mrl ← attempt (if 0 < mrl.cursor then mrl.prvCmdlineBufBackspace p mrl.cursor
        else some mrl)
      mrl.prvTerminalPrintLine 0 true
      pure (mrl, v)) (e.press .killBefore) v := by
  rw [Editor.press, Editor.killBefore, h.cursor]
  by_cases hzero : e.line.cursor = 0
  · rw [if_neg (by omega), if_pos hzero]
    exact ⟨mrl, Yields.attempt_bind rfl ((h.printLine (Nat.zero_le _) true).bind_pure _), h, rfl⟩
  · rw [if_pos (by omega), if_neg hzero]
    obtain ⟨m, hresult, hnext⟩ := h.prvCmdlineBufBackspace (p := p) (Nat.le_refl _)
    exact ⟨_, Yields.attempt_bind hresult ((hnext.printLine (Nat.zero_le _) true).bind_pure _),
      hnext, rfl⟩

/-- `^K` cuts the line by its length: what is behind the cursor stays in the buffer. -/
theorem killAfter (h : mrl.Represents e) (v : α) :
    Answers mrl (Mrl.out [27, 91, 75] >>= fun _ =>
      pure ({ mrl with cmdlen := mrl.cursor }, v)) (e.press .killAfter) v := by
  have hbuffer : e.line.killAfter.text ++ (e.line.after ++ e.rest) = e.buffer := by
    rw [Zipper.text_killAfter, Editor.buffer, Zipper.text, List.append_assoc]
  refine ⟨_, (yields_out _).bind_pure _, ⟨?_, ?_, h.cursor, h.hist, ?_⟩, rfl⟩
  · show LineIs mrl.cmdlineStr (e.line.killAfter.text ++ (e.line.after ++ e.rest))
    rw [hbuffer]
    exact h.line
  · show mrl.cursor = e.line.killAfter.text.length
    rw [h.cursor, Zipper.text_killAfter]
    rfl
  · show 0 ∉ e.line.killAfter.text ++ (e.line.after ++ e.rest)
    rw [hbuffer]
    exact h.noZero

theorem redraw (h : mrl.Represents e) (v : α) :
    Answers mrl (do
      Mrl.out endLine
      Mrl.out promptString
      mrl.prvTerminalPrintLine 0 false
      pure (mrl, v)) (e.press .redraw) v := by
  refine ⟨mrl, ?_, h, rfl⟩
  refine ((yields_out endLine).bind ((yields_out promptString).bind
    ((h.printLine (Nat.zero_le _) false).bind_pure _))).cast ?_
  simp only [Editor.press, shown_append, List.append_assoc]

theorem clear (h : mrl.Represents e) (v : α) :
    Answers mrl (mrl.microrlClearTerminal >>= fun _ => pure (mrl, v)) (e.press .clear) v := by
  refine ⟨mrl, ?_, h, rfl⟩
  have hclear : Yields Effect.items mrl.microrlClearTerminal (shown [27, 91, 50, 74] ++
      (shown [27, 91, 72] ++ (shown promptString ++ shown (lineText e.line 0 false)))) () :=
    (yields_out _).bind ((yields_out _).bind ((yields_out _).bind
      (h.printLine (Nat.zero_le _) false)))
  refine (hclear.bind_pure _).cast ?_
  simp only [Editor.press, ← shown_append, List.append_assoc]
  rfl

theorem interrupt (h : mrl.Represents e) (v : α) :
    Answers mrl (note .sigint () >>= fun _ => pure (mrl, v)) (e.press .interrupt) v :=
  ⟨mrl, (yields_note _ _ _).bind_pure _, h, rfl⟩

theorem nothing (h : mrl.Represents e) (v : α) :
    Answers mrl (pure (mrl, v)) (e.press .nothing) v :=
  ⟨mrl, yields_pure _ _, h, rfl⟩

/-! ## Sequences and control characters -/

/-- What a byte of an escape sequence leads to. -/
def Follows (mrl : Mrl) (e : Editor) (x : Logged Effect (Mrl × Bool)) :
    EscCode × Option Key → Prop
  | (code, none) => x = pure ({ mrl with escCode := code }, false)
  | (code, some key) =>
    code = mrl.escCode ∧ (e.press key).left = none ∧ Answers mrl x (e.press key) true

theorem Follows.ite {c : Prop} [Decidable c] {x y : Logged Effect (Mrl × Bool)}
    {r s : EscCode × Option Key} (hpos : Follows mrl e x r) (hneg : ¬c → Follows mrl e y s) :
    Follows mrl e (if c then x else y) (if c then r else s) := by
  split
  case isTrue => exact hpos
  case isFalse h => exact hneg h

theorem prvEscapeProcess (h : mrl.Represents e) (ch : UInt8) :
    Follows mrl e (mrl.prvEscapeProcess p ch) (Decoder.sequence mrl.escCode ch) := by
  rw [Mrl.prvEscapeProcess, Decoder.sequence.eq_def]
  refine .ite rfl fun _ => .ite ⟨rfl, rfl, h.delete true⟩ fun _ => ?_
  obtain ⟨_, _, _, _, code, _, _⟩ := mrl
  cases code with
  | bracket =>
    rw [if_pos rfl]
    refine .ite ⟨rfl, rfl, h.up true⟩ fun _ => .ite ⟨rfl, rfl, h.down true⟩ fun _ => ?_
    refine .ite ⟨rfl, rfl, h.right true⟩ fun _ => .ite ⟨rfl, rfl, h.left true⟩ fun _ => ?_
    exact .ite rfl fun _ => .ite rfl fun _ => .ite rfl fun _ => ⟨rfl, rfl, h.nothing true⟩
  | home =>
    rw [if_neg EscCode.noConfusion]
    refine ⟨rfl, ?_⟩
    split
    · exact ⟨rfl, h.home true⟩
    · exact ⟨rfl, h.nothing true⟩
  | «end» =>
    rw [if_neg EscCode.noConfusion]
    refine ⟨rfl, ?_⟩
    split
    · exact ⟨rfl, h.moveToEnd true⟩
    · exact ⟨rfl, h.nothing true⟩
  | del =>
    rw [if_neg EscCode.noConfusion]
    refine ⟨rfl, ?_⟩
    split
    · exact ⟨rfl, h.delete true⟩
    · exact ⟨rfl, h.nothing true⟩

/-- What a control character leads to. -/
def Controls (mrl : Mrl) (e : Editor) (x : Logged Effect (Mrl × Status)) (key : Key) : Prop :=
  Answers mrl x (e.press key) ((e.press key).left.getD .ok)

theorem Controls.ite {c : Prop} [Decidable c] {x y : Logged Effect (Mrl × Status)} {k l : Key}
    (hpos : c → Controls mrl e x k) (hneg : ¬c → Controls mrl e y l) :
    Controls mrl e (if c then x else y) (if c then k else l) := by
  split
  case isTrue h => exact hpos h
  case isFalse h => exact hneg h

theorem prvControlCharProcess (h : mrl.Represents e) {ch : UInt8} (hesc : ch ≠ 0x1b)
    (hplain : ch = 0x09 → Plain e.buffer) :
    Controls mrl e (mrl.prvControlCharProcess p ch) (Decoder.control ch) := by
  rw [Mrl.prvControlCharProcess, Decoder.control]
  refine .ite (fun htab => ?_) fun _ => ?_
  · obtain ⟨mrl', hrun, hnext, hdecoder⟩ := h.complete (p := p) (hplain htab)
    have hvalue : (if e.complete.left.getD .ok = .ok then Status.ok else .errCplt) =
        e.complete.left.getD .ok := by
      rw [Editor.complete]
      split <;> rfl
    refine ⟨mrl', ?_, hnext, hdecoder⟩
    rw [Editor.press, ← hvalue]
    exact hrun.bind_pure fun r : Mrl × Status => (r.1, if r.2 = .ok then Status.ok else .errCplt)
  rw [if_neg hesc]
  refine .ite (fun _ => h.killBefore Status.ok) fun _ => ?_
  refine .ite (fun _ => h.killAfter Status.ok) fun _ => ?_
  refine .ite (fun _ => h.moveToEnd Status.ok) fun _ => .ite (fun _ => h.home Status.ok) fun _ => ?_
  refine .ite (fun _ => h.right Status.ok) fun _ => .ite (fun _ => ?_) fun _ => ?_
  · have hleft := h.left Status.ok
    simp only [Nat.pos_iff_ne_zero] at hleft
    exact hleft
  refine .ite (fun _ => h.up Status.ok) fun _ => .ite (fun _ => h.down Status.ok) fun _ => ?_
  refine .ite (fun _ => ?_) fun _ => .ite (fun _ => h.delete Status.ok) fun _ => ?_
  · have hleft : e.backspace.left = none := by
      rw [Editor.backspace]
      split <;> rfl
    rw [Controls, Editor.press, hleft]
    exact h.backspace Status.ok
  refine .ite (fun _ => h.redraw Status.ok) fun _ => ?_
  refine .ite (fun _ => h.interrupt Status.ok) fun _ => ?_
  exact .ite (fun _ => h.clear Status.ok) fun _ => h.nothing Status.ok

end Mrl.Represents

/-! ## Bytes -/

/-- No line of 127 bytes is entered. -/
def Editor.Short (e : Editor) : Key → Prop
  | .enter => e.line.text.length ≠ ringHistoryLen - 1
  | _ => True

/-- No other line is completed than one of one plain word. -/
def Editor.PlainTab (e : Editor) : Key → Prop
  | .complete => Plain e.buffer
  | _ => True

/-- The keys that the code takes as the abstract editor does. -/
def Editor.Allowed (e : Editor) (key : Key) : Prop := e.Short key ∧ e.PlainTab key

instance (e : Editor) (key : Key) : Decidable (e.Short key) :=
  decidable_of_iff (key = .enter → e.line.text.length ≠ ringHistoryLen - 1)
    (by cases key <;> simp [Editor.Short])

instance (e : Editor) (key : Key) : Decidable (e.PlainTab key) :=
  decidable_of_iff (key = .complete → Plain e.buffer) (by cases key <;> simp [Editor.PlainTab])

instance (e : Editor) (key : Key) : Decidable (e.Allowed key) :=
  inferInstanceAs (Decidable (e.Short key ∧ e.PlainTab key))

namespace Mrl.Represents

variable {p : Platform} {mrl : Mrl} {e : Editor}

/-- The decoder is no part of what the editor stands for. -/
theorem decode (h : mrl.Represents e) (d : Decoder) :
    ({ mrl with lastEndl := d.lastEndl, escCode := d.escCode, escape := d.escape } : Mrl).Represents
      e :=
  ⟨h.line, h.cmdlen, h.cursor, h.hist, h.noZero⟩

/-- The code does with the byte what the abstract editor does with the key. -/
def Takes (p : Platform) (mrl : Mrl) (e : Editor) (ch : UInt8) (d : Decoder) (key : Key) : Prop :=
  ∃ mrl', Yields Effect.items (mrl.processChar p ch) (e.press key).items
      (mrl', (e.press key).left) ∧
    mrl'.Represents (e.press key).editor ∧ mrl'.decoder = d

theorem processChar_escape (h : mrl.Represents e) {ch : UInt8} {d : Decoder} {key : Key}
    (hescape : mrl.escape = true) (hdecode : mrl.decoder.decode p ch = (d, key)) :
    Takes p mrl e ch d key := by
  have hfollows := h.prvEscapeProcess (p := p) ch
  rw [Decoder.decode, Mrl.decoder_escape, if_pos hescape] at hdecode
  rw [Takes, Mrl.processChar, if_pos hescape]
  rw [Mrl.decoder_escCode] at hdecode
  rcases hseq : Decoder.sequence mrl.escCode ch with ⟨code, _ | key'⟩
  · rw [hseq] at hfollows hdecode
    cases hdecode
    have hfollows : mrl.prvEscapeProcess p ch = pure ({ mrl with escCode := code }, false) :=
      hfollows
    rw [hfollows]
    exact ⟨_, yields_pure _ _, h.decode ⟨_, _, _⟩, rfl⟩
  · rw [hseq] at hfollows hdecode
    cases hdecode
    obtain ⟨rfl, hleft, mrl', hrun, hnext, hdecoder⟩ := hfollows
    refine ⟨{ mrl' with escape := false }, ?_, hnext.decode ⟨_, _, _⟩, ?_⟩
    · rw [hleft]
      exact hrun.bind_pure fun r : Mrl × Bool =>
        (if r.2 then { r.1 with escape := false } else r.1, (none : Option Status))
    · have hendl := congrArg Decoder.lastEndl hdecoder
      have hesc := congrArg Decoder.escCode hdecoder
      exact congrArg₂ (fun endl code => Decoder.mk endl code false) hendl hesc

theorem processChar_newline (h : mrl.Represents e) {ch : UInt8} {d : Decoder} {key : Key}
    (hescape : mrl.escape = false) (hch : ch = 13 ∨ ch = 10)
    (hdecode : mrl.decoder.decode p ch = (d, key)) (hallowed : e.Allowed key) :
    Takes p mrl e ch d key := by
  have hescape : ¬mrl.escape = true := by rw [hescape]; decide
  rw [Decoder.decode, Mrl.decoder_escape, Mrl.decoder_lastEndl, if_neg hescape,
    if_pos hch] at hdecode
  rw [Takes, Mrl.processChar, if_neg hescape, if_pos hch]
  by_cases hsecond : mrl.lastEndl = if ch = 13 then 10 else 13
  · rw [if_pos hsecond] at hdecode ⊢
    cases hdecode
    exact ⟨_, yields_pure _ _, h.decode ⟨_, _, _⟩, rfl⟩
  · rw [if_neg hsecond] at hdecode ⊢
    cases hdecode
    obtain ⟨mrl', hrun, hnext, hdecoder⟩ :=
      (h.decode ⟨ch, mrl.escCode, mrl.escape⟩).prvHandleNewline (p := p) hallowed.1
    have hleft : (if e.enter.left.getD .ok = .ok then none else some Status.errTknNum) =
        e.enter.left := by
      rw [Editor.enter]
      split
      · rfl
      · dsimp only
        split <;> rfl
    refine ⟨mrl', ?_, hnext, hdecoder⟩
    rw [Editor.press, ← hleft]
    exact hrun.bind_pure fun r : Mrl × Status =>
      (r.1, if r.2 = .ok then none else some Status.errTknNum)

/-- The value that the loop is left with after a control character. -/
theorem getD_left {left : Option Status} (h : left ≠ some .ok) :
    (if left.getD .ok = .ok then none else some (left.getD .ok)) = left := by
  match left with
  | none => rfl
  | some status => exact if_neg fun heq => h (congrArg some heq)

/-- Only characters leave the loop with no error. -/
theorem left_ne_ok (e : Editor) {key : Key} (hkey : ∀ c, key ≠ .char c) :
    (e.press key).left ≠ some .ok := by
  have hnone : (none : Option Status) ≠ some .ok := by decide
  cases key with
  | char c => exact absurd rfl (hkey c)
  | enter =>
    have hmany : some Status.errTknNum ≠ some .ok := by decide
    rw [Editor.press, Editor.enter]
    split
    · exact hnone
    · dsimp only
      split
      · exact hnone
      · exact hmany
  | backspace =>
    rw [Editor.press, Editor.backspace]
    split <;> exact hnone
  | complete =>
    have hfail : some Status.errCplt ≠ some .ok := by decide
    rw [Editor.press, Editor.complete]
    split
    · exact hfail
    · exact hnone
    · exact hnone
  | _ => exact hnone

theorem control_ne_char (ch c : UInt8) : Decoder.control ch ≠ .char c := by
  rw [Decoder.control]
  repeat' refine iteInduction (motive := fun k => k ≠ Key.char c) (fun _ => ?_) fun _ => ?_
  all_goals exact Key.noConfusion

theorem processChar_control (h : mrl.Represents e) {ch : UInt8} {d : Decoder} {key : Key}
    (hescape : mrl.escape = false) (hch : ¬(ch = 13 ∨ ch = 10)) (hcontrol : isControlChar p ch)
    (hdecode : mrl.decoder.decode p ch = (d, key)) (hallowed : e.Allowed key) :
    Takes p mrl e ch d key := by
  have hescape : ¬mrl.escape = true := by rw [hescape]; decide
  rw [Decoder.decode, Mrl.decoder_escape, if_neg hescape, if_neg hch,
    if_pos hcontrol] at hdecode
  rw [Takes, Mrl.processChar, if_neg hescape, if_neg hch]
  simp only
  rw [if_pos hcontrol]
  by_cases hesc : ch = 0x1b
  · rw [if_pos hesc] at hdecode
    cases hdecode
    subst hesc
    exact ⟨_, yields_pure _ _, h.decode ⟨_, _, _⟩, rfl⟩
  · rw [if_neg hesc] at hdecode
    cases hdecode
    have htab : ch = 0x09 → Plain e.buffer := by
      rintro rfl
      exact hallowed.2
    obtain ⟨mrl', hrun, hnext, hdecoder⟩ :=
      (h.decode ⟨0, mrl.escCode, mrl.escape⟩).prvControlCharProcess (p := p) hesc htab
    refine ⟨mrl', ?_, hnext, hdecoder⟩
    have hleft := getD_left (left_ne_ok e (control_ne_char ch))
    rw [← hleft]
    exact hrun.bind_pure fun r : Mrl × Status => (r.1, if r.2 = .ok then none else some r.2)

theorem processChar_char (h : mrl.Represents e) {ch : UInt8} {d : Decoder} {key : Key}
    (hescape : mrl.escape = false) (hch : ¬(ch = 13 ∨ ch = 10))
    (hcontrol : ¬isControlChar p ch) (hdecode : mrl.decoder.decode p ch = (d, key)) :
    Takes p mrl e ch d key := by
  have hescape : ¬mrl.escape = true := by rw [hescape]; decide
  have hzero : ch ≠ 0 := by
    rintro rfl
    exact hcontrol (decide_eq_true (.inl (by decide)))
  rw [Decoder.decode, Mrl.decoder_escape, if_neg hescape, if_neg hch,
    if_neg hcontrol] at hdecode
  cases hdecode
  rw [Takes, Mrl.processChar, if_neg hescape, if_neg hch]
  simp only
  rw [if_neg hcontrol]
  have hempty : mrl.cmdlen = 0 ↔ e.line.text = [] := by
    rw [h.cmdlen, List.length_eq_zero_iff]
  by_cases hspace : ch = 32 ∧ e.line.text = []
  · rw [if_pos ⟨hspace.1, hempty.mpr hspace.2⟩, Editor.press, Editor.insertChar, if_pos hspace]
    exact ⟨_, yields_pure _ _, h.decode ⟨_, _, _⟩, rfl⟩
  · rw [if_neg fun heq => hspace ⟨heq.1, hempty.mp heq.2⟩]
    obtain ⟨mrl', hrun, hnext, hdecoder⟩ :=
      (h.decode ⟨0, mrl.escCode, mrl.escape⟩).prvInsertChar (p := p) hzero hspace
    have hleft : (if (if cmdlineLen < e.line.text.length + 1 then Status.errClFull else .ok) = .ok
        then none else some (if cmdlineLen < e.line.text.length + 1 then Status.errClFull
          else .ok)) = (e.insertChar ch).left := by
      rw [Editor.insertChar, if_neg hspace]
      split <;> rfl
    refine ⟨mrl', ?_, hnext, hdecoder⟩
    rw [Editor.press, ← hleft]
    exact hrun.bind_pure fun r : Mrl × Status => (r.1, if r.2 = .ok then none else some r.2)

/-- The code does with every byte what the abstract editor does with its key. -/
theorem processChar (h : mrl.Represents e) {ch : UInt8} {d : Decoder} {key : Key}
    (hdecode : mrl.decoder.decode p ch = (d, key)) (hallowed : e.Allowed key) :
    Takes p mrl e ch d key := by
  cases hescape : mrl.escape with
  | true => exact h.processChar_escape hescape hdecode
  | false =>
    by_cases hch : ch = 13 ∨ ch = 10
    · exact h.processChar_newline hescape hch hdecode hallowed
    by_cases hcontrol : isControlChar p ch
    · exact h.processChar_control hescape hch hcontrol hdecode hallowed
    · exact h.processChar_char hescape hch hcontrol hdecode

/-! ## A line that cannot be entered -/

/-- What an escape sequence can stand for. -/
def sequenceKeys : List (Option Key) :=
  [none, some .nothing, some .delete, some .up, some .down, some .right, some .left, some .home,
    some .end]

theorem ite_snd_mem {c : Prop} [Decidable c] {r s : EscCode × Option Key}
    (hr : r.2 ∈ sequenceKeys) (hs : s.2 ∈ sequenceKeys) :
    (if c then r else s).2 ∈ sequenceKeys := by
  split
  · exact hr
  · exact hs

theorem sequence_mem (code : EscCode) (ch : UInt8) :
    (Decoder.sequence code ch).2 ∈ sequenceKeys := by
  have hnone : none ∈ sequenceKeys := List.mem_cons_self
  have hup : some .up ∈ sequenceKeys := by decide
  have hdown : some .down ∈ sequenceKeys := by decide
  have hright : some .right ∈ sequenceKeys := by decide
  have hleft : some .left ∈ sequenceKeys := by decide
  have hdelete : some .delete ∈ sequenceKeys := by decide
  have hnothing : some .nothing ∈ sequenceKeys := by decide
  have hite : ∀ {c : Prop} [Decidable c] {k : Key}, some k ∈ sequenceKeys →
      some (if c then k else .nothing) ∈ sequenceKeys := by
    intro c _ k hk
    split
    · exact hk
    · exact hnothing
  rw [Decoder.sequence.eq_def]
  refine ite_snd_mem hnone (ite_snd_mem hdelete ?_)
  cases code with
  | bracket =>
    refine ite_snd_mem hup (ite_snd_mem hdown (ite_snd_mem hright (ite_snd_mem hleft ?_)))
    exact ite_snd_mem hnone (ite_snd_mem hnone (ite_snd_mem hnone hnothing))
  | home => exact hite (by decide)
  | «end» => exact hite (by decide)
  | del => exact hite hdelete

theorem sequence_ne_enter (code : EscCode) (ch : UInt8) :
    (Decoder.sequence code ch).2 ≠ some .enter := fun heq =>
  absurd (heq ▸ sequence_mem code ch) (by decide)

theorem control_ne_enter (ch : UInt8) : Decoder.control ch ≠ .enter := by
  rw [Decoder.control]
  repeat' refine iteInduction (motive := fun k => k ≠ Key.enter) (fun _ => ?_) fun _ => ?_
  all_goals exact Key.noConfusion

/-- Only the first byte of a line end enters the line. -/
theorem decode_enter {dec : Decoder} {ch : UInt8} (h : (dec.decode p ch).2 = .enter) :
    dec.escape = false ∧ (ch = 13 ∨ ch = 10) ∧ dec.lastEndl ≠ if ch = 13 then 10 else 13 := by
  rw [Decoder.decode] at h
  cases hescape : dec.escape with
  | true =>
    rw [if_pos hescape] at h
    have hseq := sequence_ne_enter dec.escCode ch
    rcases hcase : Decoder.sequence dec.escCode ch with ⟨code, _ | key⟩
    · rw [hcase] at h
      cases h
    · rw [hcase] at h hseq
      exact absurd (congrArg some h) hseq
  | false =>
    rw [if_neg (by rw [hescape]; decide)] at h
    by_cases hch : ch = 13 ∨ ch = 10
    · rw [if_pos hch] at h
      refine ⟨rfl, hch, fun hsecond => ?_⟩
      rw [if_pos hsecond] at h
      cases h
    · rw [if_neg hch] at h
      split at h
      · split at h
        · cases h
        · exact absurd h (control_ne_enter ch)
      · cases h

/-- No room is ever made in the history for a line of 127 bytes. -/
theorem prvHandleNewline_endless (h : mrl.Represents e)
    (hlen : e.line.text.length = ringHistoryLen - 1) :
    (mrl.prvHandleNewline p).result = none := by
  have hshown : stringAt (cmdlineLen + 1) mrl.cmdlineStr 0 = e.buffer :=
    stringAt_eq h.line.bytes h.noZero (by rw [Nat.zero_add]; exact Nat.lt_succ_of_le h.line.fits)
  have hlong : ringHistoryLen - 1 ≤ (stringAt (cmdlineLen + 1) mrl.cmdlineStr 0).length := by
    rw [hshown, Editor.buffer, List.length_append]
    omega
  have hsave := h.hist.prvHistSaveLine_endless (p := p) hlong
  rw [Mrl.prvHandleNewline, if_neg (by rw [h.cmdlen, hlen]; decide), h.cmdlen, hlen, hsave]
  rfl

theorem processChar_endless (h : mrl.Represents e) {ch : UInt8}
    (hkey : (mrl.decoder.decode p ch).2 = .enter)
    (hlen : e.line.text.length = ringHistoryLen - 1) :
    (mrl.processChar p ch).result = none := by
  obtain ⟨hescape, hch, hfirst⟩ := decode_enter hkey
  have hescape : ¬mrl.escape = true := Bool.not_eq_true _ ▸ hescape
  rw [Mrl.processChar, if_neg hescape, if_pos hch,
    if_neg (show ¬mrl.lastEndl = _ from hfirst), result_bind,
    (h.decode ⟨ch, mrl.escCode, mrl.escape⟩).prvHandleNewline_endless hlen]
  rfl

end Mrl.Represents

end Microrl
end Carrels
