/-
What the user sees.

A terminal shows the prompt and the line, with its cursor where the editor has it, from the
first prompt on.  `^C` is the exception: it prints a line end and no prompt, and the screen is
right again after the next prompt.  The text that a command prints is left open, but it has to
end at the beginning of an empty row.
-/
import Carrels.Lib.Terminal
import Carrels.Microrl.Session

namespace Carrels
namespace Microrl

open ByteMemory Fields Logged Terminal

/-! ## Clean lines -/

/-- There are no control characters in the line and in the history, and no line is too long. -/
structure Editor.Clean (p : Platform) (e : Editor) : Prop where
  buffer : ∀ c ∈ e.buffer, isControlChar p c = false
  fits : e.buffer.length ≤ cmdlineLen
  lines : ∀ l ∈ e.history.lines, l.length ≤ cmdlineLen ∧ ∀ c ∈ l, isControlChar p c = false

/-- Only characters that are no control characters are typed. -/
def Key.Typable (p : Platform) : Key → Prop
  | .char c => isControlChar p c = false
  | _ => True

theorem mem_shellCommands {e : Editor} {word : List UInt8} (h : word ∈ e.completions) :
    word ∈ shellCommands := by
  rw [Editor.completions] at h
  split at h
  · exact h
  · exact (List.mem_filter.mp h).1

namespace Editor.Clean

variable {p : Platform} {e : Editor}

theorem init : Editor.Clean p .init :=
  ⟨fun _ h => absurd h List.not_mem_nil, Nat.zero_le _, fun _ h => absurd h List.not_mem_nil⟩

/-- A buffer of which only something has been removed. -/
theorem sublist (h : e.Clean p) {z : Zipper UInt8} {rest : List UInt8}
    (hsub : (z.text ++ rest).Sublist e.buffer) : Editor.Clean p ⟨z, rest, e.history⟩ where
  buffer c hc := h.buffer c (hsub.subset hc)
  fits := Nat.le_trans hsub.length_le h.fits
  lines := h.lines

theorem ofText {hist : History} {t : List UInt8}
    (hlines : ∀ l ∈ hist.lines, l.length ≤ cmdlineLen ∧ ∀ c ∈ l, isControlChar p c = false)
    (hfits : t.length ≤ cmdlineLen) (ht : ∀ c ∈ t, isControlChar p c = false) :
    Editor.Clean p ⟨.ofText t, [], hist⟩ where
  buffer := by
    rw [Editor.buffer, Zipper.text_ofText, List.append_nil]
    exact ht
  fits := by
    rw [Editor.buffer, Zipper.text_ofText, List.append_nil]
    exact hfits
  lines := hlines

theorem recalled (h : e.Clean p) {hist : History} (hsame : hist.lines = e.history.lines) :
    (Editor.recalled hist).Clean p := by
  have hlines := h.lines
  rw [← hsame] at hlines
  have hcurrent : hist.current = [] ∨ hist.current ∈ hist.lines := by
    rw [History.current]
    split
    · exact .inl rfl
    · rw [List.getD_eq_getElem?_getD]
      cases hget : hist.lines[hist.lines.length - hist.nav]? with
      | none => exact .inl rfl
      | some l => exact .inr (List.mem_of_getElem? hget)
  rcases hcurrent with hnil | hmem
  · rw [Editor.recalled, hnil]
    exact ofText hlines (Nat.zero_le _) fun _ hc => absurd hc List.not_mem_nil
  · exact ofText hlines (hlines _ hmem).1 (hlines _ hmem).2

theorem moveTo (h : e.Clean p) (i : Nat) : (e.moveTo i).editor.Clean p := by
  refine h.sublist ?_
  rw [Zipper.text_moveTo]
  exact List.Sublist.refl _

theorem insertChar (h : e.Clean p) {c : UInt8} (hc : isControlChar p c = false) :
    (e.insertChar c).editor.Clean p := by
  rw [Editor.insertChar]
  split
  · exact h
  split
  case isTrue => exact h
  case isFalse hfits =>
    have hlen : (e.line.insert [c]).text.length = e.line.text.length + 1 := by
      rw [Zipper.length_text, Zipper.length_text, Zipper.cursor_insert, List.length_singleton]
      exact Nat.add_right_comm _ _ _
    refine ⟨?_, ?_, h.lines⟩
    · show ∀ b ∈ (e.line.insert [c]).text ++ [], isControlChar p b = false
      intro b hb
      rw [List.append_nil, Zipper.text_insert, List.mem_append, List.mem_append,
        List.mem_singleton] at hb
      have hold : ∀ b, b ∈ e.line.before ∨ b ∈ e.line.after → isControlChar p b = false :=
        fun b hb => h.buffer b (List.mem_append_left _ (List.mem_append.mpr hb))
      rcases hb with hb | rfl | hb
      · exact hold b (.inl hb)
      · exact hc
      · exact hold b (.inr hb)
    · show ((e.line.insert [c]).text ++ []).length ≤ cmdlineLen
      rw [List.append_nil, hlen]
      exact Nat.le_of_not_lt hfits

theorem enter (h : e.Clean p) : e.enter.editor.Clean p := by
  have htext : ∀ c ∈ e.line.text, isControlChar p c = false := fun c hc =>
    h.buffer c (List.mem_append_left _ hc)
  have hlen : e.line.text.length ≤ cmdlineLen := by
    have hfits := h.fits
    rw [Editor.buffer, List.length_append] at hfits
    omega
  have hmakeRoom : ∀ (len : Nat) (lines : List (List UInt8)),
      History.makeRoom len lines <:+ lines := by
    intro len lines
    induction lines with
    | nil => exact List.suffix_refl _
    | cons l lines ih =>
      rw [History.makeRoom]
      split
      · exact List.suffix_refl _
      · exact ih.trans (List.suffix_cons l lines)
  have hsave : ∀ l ∈ (e.history.save e.line.text e.buffer).lines,
      l.length ≤ cmdlineLen ∧ ∀ c ∈ l, isControlChar p c = false := by
    intro l hl
    rw [History.save] at hl
    split at hl
    · exact h.lines l hl
    split at hl
    · exact h.lines l hl
    rcases List.mem_append.mp hl with hl | hl
    · exact h.lines l ((hmakeRoom _ _).subset hl)
    · rw [List.mem_singleton.mp hl]
      exact ⟨hlen, htext⟩
  have hnew : Editor.Clean p ⟨.empty, [], e.history.save e.line.text e.buffer⟩ :=
    ofText hsave (Nat.zero_le _) fun _ hc => absurd hc List.not_mem_nil
  rw [Editor.enter]
  split
  · exact h.sublist (List.nil_sublist _)
  · dsimp only
    split
    · exact hnew
    · exact hnew

theorem complete (h : e.Clean p) : e.complete.editor.Clean p := by
  have hall : ∀ word ∈ shellCommands,
      word.all (fun c => decide (32 ≤ c ∧ c < 127)) = true := by decide
  have hcommands : ∀ word ∈ shellCommands, ∀ c ∈ word, 32 ≤ c ∧ c < 127 := fun word hword c hc =>
    of_decide_eq_true (List.all_eq_true.mp (hall word hword) c hc)
  have hfalse : ∀ c : UInt8, 32 ≤ c ∧ c < 127 → isControlChar p c = false := by
    rintro c ⟨hlow, hhigh⟩
    rw [UInt8.le_iff_toNat_le] at hlow
    rw [UInt8.lt_iff_toNat_lt] at hhigh
    have h32 : (32 : UInt8).toNat = 32 := rfl
    have h127 : (127 : UInt8).toNat = 127 := rfl
    refine decide_eq_false fun hcontrol => ?_
    rcases hcontrol with hle | rfl | ⟨-, hge⟩
    · rw [UInt8.le_iff_toNat_le] at hle
      have h31 : (31 : UInt8).toNat = 31 := rfl
      omega
    · omega
    · rw [UInt8.le_iff_toNat_le] at hge
      have h128 : (128 : UInt8).toNat = 128 := rfl
      omega
  have hwords : ∀ word ∈ e.completions, word ∈ shellCommands := fun _ => mem_shellCommands
  rw [Editor.complete]
  rcases hcase : e.completions with _ | ⟨word, _ | ⟨second, others⟩⟩
  · exact h
  -- There is one completion.
  · have hword : word ∈ shellCommands := hwords word (hcase ▸ List.mem_cons_self)
    have hshort := length_command_le word hword
    refine ofText h.lines ?_ fun c hc => ?_
    · have hsize : cmdlineLen = 128 := rfl
      rw [List.length_append, List.length_singleton]
      omega
    · rcases List.mem_append.mp hc with hc | hc
      · exact hfalse c (hcommands word hword c hc)
      · rw [List.mem_singleton.mp hc]
        exact hfalse 32 (by decide)
  -- There are several.
  · have hword : word ∈ shellCommands := hwords word (hcase ▸ List.mem_cons_self)
    have hshort := length_command_le word hword
    dsimp only
    split
    · exact h
    · refine ofText h.lines ?_ fun c hc => ?_
      · have hsize : cmdlineLen = 128 := rfl
        rw [List.length_take]
        omega
      · exact hfalse c (hcommands word hword c (List.mem_of_mem_take hc))

theorem press (h : e.Clean p) {key : Key} (hkey : key.Typable p) :
    (e.press key).editor.Clean p := by
  cases key with
  | char c => exact h.insertChar hkey
  | enter => exact h.enter
  | complete => exact h.complete
  | up => exact h.recalled rfl
  | down => exact h.recalled rfl
  | backspace =>
    rw [Editor.press, Editor.backspace]
    split
    · exact h
    · exact h.sublist (((List.take_sublist _ _).append (List.Sublist.refl _)).append
        (List.take_sublist _ _))
  | delete =>
    rw [Editor.press, Editor.delete]
    dsimp only
    split
    · exact h
    · exact h.sublist (((List.Sublist.refl _).append (List.tail_sublist _)).append
        (List.take_sublist _ _))
  | killBefore =>
    rw [Editor.press, Editor.killBefore]
    dsimp only
    split
    · exact h
    · exact h.sublist (((List.take_sublist _ _).append (List.Sublist.refl _)).append
        (List.take_sublist _ _))
  | killAfter =>
    refine h.sublist ?_
    rw [Zipper.text_killAfter, Editor.buffer, Zipper.text, List.append_assoc]
  | home => exact h.moveTo 0
  | «end» => exact h.moveTo _
  | left => exact h.moveTo _
  | right => exact h.moveTo _
  | _ => exact h

end Editor.Clean

/-! ## Lines on the screen -/

section Screen

variable {p : Platform} {s : Screen} {cells old : List UInt8} {col : Nat} {z : Zipper UInt8}

theorem printable_of_not_control {c : UInt8} (h : isControlChar p c = false) : Printable c := by
  have hcontrol := of_decide_eq_false h
  rw [not_or, not_or, UInt8.le_iff_toNat_le] at hcontrol
  refine ⟨?_, hcontrol.2.1⟩
  rw [UInt8.le_iff_toNat_le]
  exact Nat.lt_of_not_le hcontrol.1

/-- Where the cursor is after a move. -/
theorem move_at (h : s.At cells col) {k : Int} (hlow : -999 ≤ k) (hhigh : k ≤ 999) {col' : Nat}
    (hcol : (col + k).toNat = col') : (s.feed (prvCursorGenerateMove k)).At cells col' := by
  rw [prvCursorGenerateMove, min_eq_right hhigh, max_eq_right hlow]
  rcases Int.lt_trichotomy k 0 with hneg | rfl | hpos
  · have hback := h.back (n := k.natAbs) (by omega)
    rw [show col - k.natAbs = col' from by omega] at hback
    rw [if_neg (by omega), if_pos hneg]
    exact hback
  · rw [Int.add_zero, Int.toNat_natCast] at hcol
    rw [if_pos rfl, ← hcol]
    exact h
  · have hforward := h.forward (n := k.natAbs) (by omega)
    rw [show col + k.natAbs = col' from by omega] at hforward
    rw [if_neg (by omega), if_neg (by omega)]
    exact hforward

theorem length_promptString : promptString.length = 9 := by decide

theorem printable_promptString : ∀ c ∈ promptString, Printable c := printable_of_all (by decide)

/-- The line is printed from `pos` on: what stood behind it is erased, and the cursor goes to its
place. -/
theorem lineText_at {pos : Nat} {reset : Bool}
    (h : s.At (promptString ++ z.text.take pos ++ old) col) (hpos : pos ≤ z.text.length)
    (hprint : ∀ c ∈ z.text, Printable c) (hfits : z.text.length ≤ cmdlineLen)
    (hcol : reset = true ∨ col = promptString.length + pos) :
    (s.feed (lineText z pos reset)).At (promptString ++ z.text)
      (promptString.length + z.cursor) := by
  have hsize : cmdlineLen = 128 := rfl
  have hprompt := length_promptString
  have hcursor := z.cursor_le
  have htake : (z.text.take pos).length = pos := by
    rw [List.length_take]
    exact Nat.min_eq_left hpos
  have hpre : (promptString ++ z.text.take pos).length = promptString.length + pos := by
    rw [List.length_append, htake]
  simp only [lineText, Screen.feed_append]
  -- The cursor is at `pos`.
  have hstart : (s.feed (if reset then 13 :: prvCursorGenerateMove (promptString.length + pos)
      else [])).At (promptString ++ z.text.take pos ++ old)
        (promptString ++ z.text.take pos).length := by
    rw [hpre]
    cases reset with
    | false => exact (hcol.resolve_left Bool.false_ne_true) ▸ h
    | true => exact move_at h.carriageReturn (by omega) (by omega) (by omega)
  have hdrop : ∀ c ∈ z.text.drop pos, Printable c := fun c hc =>
    hprint c (List.mem_of_mem_drop hc)
  have hchars := hstart.chars hdrop
  have hall : promptString ++ z.text.take pos ++ z.text.drop pos = promptString ++ z.text := by
    rw [List.append_assoc, List.take_append_drop]
  have hlen : promptString.length + pos + (z.text.drop pos).length =
      (promptString ++ z.text).length := by
    rw [List.length_drop, List.length_append]
    omega
  rw [hall, hpre, hlen] at hchars
  have herase := hchars.eraseRow
  rw [List.take_left] at herase
  exact move_at herase (by omega) (by omega) (by rw [List.length_append]; omega)

/-- Something stands in the row of the cursor, and the rows below it are empty. -/
def Calm (s : Screen) : Prop := ∃ cells col, s.At cells col

theorem Calm.chars (h : Calm s) {bs : List UInt8} (hbs : ∀ b ∈ bs, Printable b) :
    Calm (s.feed bs) := by
  induction bs generalizing s with
  | nil => exact h
  | cons b bs ih =>
    obtain ⟨cells, col, hat⟩ := h
    exact ih ⟨_, _, hat.char (hbs b List.mem_cons_self)⟩ fun b' hb' =>
      hbs b' (List.mem_cons_of_mem b hb')

theorem Calm.lineText (h : Calm s) {pos : Nat} {reset : Bool} (hpos : pos ≤ z.text.length)
    (hprint : ∀ c ∈ z.text, Printable c) (hfits : z.text.length ≤ cmdlineLen) :
    Calm (s.feed (lineText z pos reset)) := by
  have hsize : cmdlineLen = 128 := rfl
  have hprompt := length_promptString
  have hcursor := z.cursor_le
  simp only [Microrl.lineText, Screen.feed_append]
  have hstart : Calm (s.feed (if reset then 13 :: prvCursorGenerateMove (promptString.length + pos)
      else [])) := by
    obtain ⟨cells, col, hat⟩ := h
    cases reset with
    | false => exact ⟨_, _, hat⟩
    | true => exact ⟨_, _, move_at hat.carriageReturn (by omega) (by omega) rfl⟩
  have hdrop : ∀ c ∈ z.text.drop pos, Printable c := fun c hc =>
    hprint c (List.mem_of_mem_drop hc)
  obtain ⟨cells, col, hat⟩ := hstart.chars hdrop
  exact ⟨_, _, move_at hat.eraseRow (by omega) (by omega) rfl⟩

/-- A prompt at the beginning of an empty row. -/
theorem prompt_at (h : s.At [] 0) :
    (s.feed promptString).At (promptString ++ []) (promptString.length + 0) := by
  have hchars := @Screen.At.chars s [] [] h promptString printable_promptString
  rwa [List.nil_append, List.length_nil, Nat.zero_add, List.drop_nil] at hchars

/-- The prompt and the line, with the cursor in its place. -/
def Shows (s : Screen) (z : Zipper UInt8) : Prop :=
  ∃ k, s.At (promptString ++ z.text ++ List.replicate k 32) (promptString.length + z.cursor)

theorem Shows.calm (h : Shows s z) : Calm s := by
  obtain ⟨k, hat⟩ := h
  exact ⟨_, _, hat⟩

/-- What stands in front of the cursor, and what behind it. -/
theorem Shows.at_cursor {before after : List UInt8} (h : Shows s ⟨before, after⟩) :
    ∃ k, s.At (promptString ++ before ++ (after ++ List.replicate k 32))
      (promptString ++ before).length := by
  obtain ⟨k, hat⟩ := h
  refine ⟨k, ?_⟩
  rw [List.length_append]
  rw [Zipper.text, ← List.append_assoc, List.append_assoc _ after] at hat
  exact hat

theorem shows_of_at_cursor {before after : List UInt8} {k : Nat}
    (h : s.At (promptString ++ before ++ (after ++ List.replicate k 32))
      (promptString ++ before).length) : Shows s ⟨before, after⟩ := by
  refine ⟨k, ?_⟩
  rw [List.length_append] at h
  rw [Zipper.text, ← List.append_assoc, List.append_assoc _ after]
  exact h

theorem shows_of_at (h : s.At (promptString ++ z.text) (promptString.length + z.cursor)) :
    Shows s z := ⟨0, by rwa [List.replicate_zero, List.append_nil]⟩

/-- A prompt and a line at the beginning of an empty row. -/
theorem shows_prompt (h : s.At [] 0) (hprint : ∀ c ∈ z.text, Printable c)
    (hfits : z.text.length ≤ cmdlineLen) :
    Shows (s.feed (promptString ++ lineText z 0 false)) z := by
  rw [Screen.feed_append]
  have hprompt : (s.feed promptString).At (promptString ++ z.text.take 0 ++ [])
      (promptString.length + 0) := by
    rw [List.take_zero, List.append_nil]
    exact prompt_at h
  exact shows_of_at (lineText_at hprompt (Nat.zero_le _) hprint hfits (.inr rfl))

end Screen

/-! ## Keys on the screen -/

section Keys

variable (exec : List (List UInt8) → Screen → Screen)

/-- The screen after an item: `shell_sigint` prints `^C`. -/
def Item.show (s : Screen) : Item → Screen
  | .byte c => s.step c
  | .exec argv => exec argv s
  | .sigint => s.feed (bytes "^C" ++ endLine)

def showItems (s : Screen) (items : List Item) : Screen := items.foldl (Item.show exec) s

theorem showItems_append (s : Screen) (items more : List Item) :
    showItems exec s (items ++ more) = showItems exec (showItems exec s items) more :=
  List.foldl_append

theorem showItems_shown (s : Screen) (bs : List UInt8) :
    showItems exec s (shown bs) = s.feed bs := by
  rw [showItems, shown, List.foldl_map]
  rfl

theorem showItems_exec (s : Screen) (argv : List (List UInt8)) (items : List Item) :
    showItems exec s (.exec argv :: items) = showItems exec (exec argv s) items := rfl

/-- The keys after which the screen is right again, and the one that spoils it. -/
def Key.synced (before : Bool) : Key → Bool
  | .enter => true
  | .redraw => true
  | .clear => true
  | .interrupt => false
  | _ => before

variable {exec} {p : Platform} {s : Screen} {e : Editor} {synced : Bool}

/-- The screen agrees with the editor, if it is in step with it. -/
def Agrees (s : Screen) (e : Editor) (synced : Bool) : Prop :=
  Calm s ∧ (synced = true → Shows s e.line)

theorem printable_text (h : e.Clean p) : ∀ c ∈ e.line.text, Printable c := fun c hc =>
  printable_of_not_control (h.buffer c (List.mem_append_left _ hc))

theorem length_text_le (h : e.Clean p) : e.line.text.length ≤ cmdlineLen := by
  have hfits := h.fits
  rw [Editor.buffer, List.length_append] at hfits
  omega

/-- The line is printed from `pos` on. -/
theorem agrees_lineText {pre : List UInt8} {reset : Bool} (hcalm : Calm s) (hclean : e.Clean p)
    (hpre : pre <+: e.line.text) (hrow : synced = true → ∃ old col,
      s.At (promptString ++ pre ++ old) col ∧ (reset = true ∨ col = (promptString ++ pre).length)) :
    Agrees (showItems exec s (shown (lineText e.line pre.length reset))) e synced := by
  have htake : e.line.text.take pre.length = pre := (List.prefix_iff_eq_take.mp hpre).symm
  rw [showItems_shown]
  refine ⟨hcalm.lineText hpre.length_le (printable_text hclean) (length_text_le hclean),
    fun hsynced => ?_⟩
  obtain ⟨old, col, hat, hcol⟩ := hrow hsynced
  rw [List.length_append] at hcol
  rw [← htake] at hat
  exact shows_of_at
    (lineText_at hat hpre.length_le (printable_text hclean) (length_text_le hclean) hcol)

/-- A prompt and the line on a new row. -/
theorem agrees_prompt (h : s.At [] 0) (hclean : e.Clean p) (synced : Bool) :
    Agrees (s.feed (promptString ++ lineText e.line 0 false)) e synced := by
  have hshows := shows_prompt h (printable_text hclean) (length_text_le hclean)
  exact ⟨hshows.calm, fun _ => hshows⟩

/-- A prompt alone on a new row. -/
theorem agrees_empty (h : s.At [] 0) (rest : List UInt8) (hist : History) (synced : Bool) :
    Agrees (s.feed promptString) ⟨.empty, rest, hist⟩ synced :=
  ⟨⟨_, _, prompt_at h⟩, fun _ => shows_of_at (prompt_at h)⟩

theorem agrees_insertChar (hclean : e.Clean p) {c : UInt8} (hc : isControlChar p c = false)
    (h : Agrees s e synced) :
    Agrees (showItems exec s (e.insertChar c).items) (e.insertChar c).editor synced := by
  have hnext := hclean.insertChar hc
  have hprint : ∀ b ∈ [c], Printable b := fun b hb => by
    rw [List.mem_singleton.mp hb]
    exact printable_of_not_control hc
  rw [Editor.insertChar] at hnext ⊢
  split
  · exact h
  split
  · exact h
  rw [if_neg ‹_›, if_neg ‹_›] at hnext
  obtain ⟨⟨before, after⟩, rest, hist⟩ := e
  dsimp only at hnext ⊢
  by_cases hafter : after = []
  · subst hafter
    rw [if_pos (show ((Zipper.mk before []).insert [c]).after = [] from rfl), showItems_shown]
    refine ⟨h.1.chars hprint, fun hsynced => ?_⟩
    obtain ⟨k, hat⟩ := (h.2 hsynced).at_cursor
    have hchar := hat.chars hprint
    rw [← List.length_append, List.append_assoc promptString before, List.nil_append,
      List.drop_replicate] at hchar
    exact shows_of_at_cursor hchar
  · have hpos : ((Zipper.mk before after).insert [c]).cursor - 1 = before.length := by
      rw [Zipper.cursor_insert]
      rfl
    rw [if_neg (show ¬((Zipper.mk before after).insert [c]).after = [] from hafter), hpos]
    refine agrees_lineText h.1 hnext ?_ fun hsynced => ?_
    · rw [Zipper.text_insert]
      exact List.prefix_append _ _
    · obtain ⟨k, hat⟩ := (h.2 hsynced).at_cursor
      exact ⟨_, _, hat, .inr rfl⟩

theorem agrees_backspace (hclean : e.Clean p) (h : Agrees s e synced) :
    Agrees (showItems exec s e.backspace.items) e.backspace.editor synced := by
  have hnext : e.backspace.editor.Clean p := @Editor.Clean.press p e hclean .backspace trivial
  rw [Editor.backspace] at hnext ⊢
  by_cases hzero : e.line.cursor = 0
  · rw [if_pos hzero]
    exact h
  rw [if_neg hzero] at hnext ⊢
  obtain ⟨⟨before, after⟩, rest, hist⟩ := e
  have hne : before ≠ [] := fun hnil => hzero (congrArg List.length hnil)
  obtain ⟨pre, c, rfl⟩ : ∃ pre c, before = pre ++ [c] :=
    ⟨_, _, (List.dropLast_append_getLast hne).symm⟩
  have hback : (Zipper.mk (pre ++ [c]) after).backspace 1 = ⟨pre, after⟩ :=
    Zipper.backspace_insert ⟨pre, after⟩ [c]
  dsimp only at hnext ⊢
  rw [hback] at hnext ⊢
  by_cases hafter : after = []
  · subst hafter
    rw [if_pos rfl, showItems_shown]
    -- The cursor goes back, a space hides the character, and the cursor goes back again.
    have hspace : ∀ b ∈ [(32 : UInt8)], Printable b := printable_of_all (by decide)
    have hsplit : s.feed [8, 32, 8] = ((s.feed [8]).feed [32]).feed [8] := rfl
    rw [hsplit]
    refine ⟨?_, fun hsynced => ?_⟩
    · obtain ⟨cells, col, hat⟩ := h.1
      obtain ⟨cells', col', hat'⟩ := Calm.chars ⟨_, _, hat.backspace⟩ hspace
      exact ⟨_, _, hat'.backspace⟩
    · obtain ⟨k, hat⟩ := (h.2 hsynced).at_cursor
      have hcells : promptString ++ (pre ++ [c]) ++ ([] ++ List.replicate k 32) =
          promptString ++ pre ++ (c :: List.replicate k 32) := by simp
      have hcol : (promptString ++ (pre ++ [c])).length - 1 = (promptString ++ pre).length := by
        rw [← List.append_assoc, List.length_append, List.length_singleton, Nat.add_sub_cancel]
      have hleft := hat.backspace
      rw [hcells, hcol] at hleft
      have hlast := (hleft.chars hspace).backspace
      rw [List.length_singleton, Nat.add_sub_cancel, List.append_assoc _ [32]] at hlast
      exact @shows_of_at_cursor _ pre [] (k + 1) hlast
  · rw [if_neg hafter]
    refine agrees_lineText h.1 hnext (List.prefix_append pre after) fun hsynced => ?_
    obtain ⟨k, hat⟩ := (h.2 hsynced).at_cursor
    have hcells : promptString ++ (pre ++ [c]) ++ (after ++ List.replicate k 32) =
        promptString ++ pre ++ (c :: (after ++ List.replicate k 32)) := by simp
    rw [hcells] at hat
    exact ⟨_, _, hat, .inl rfl⟩

theorem agrees_delete (hclean : e.Clean p) (h : Agrees s e synced) :
    Agrees (showItems exec s e.delete.items) e.delete.editor synced := by
  have hnext : e.delete.editor.Clean p := @Editor.Clean.press p e hclean .delete trivial
  have hline : e.delete.editor.line.before = e.line.before := by
    rw [Editor.delete]
    dsimp only
    split <;> rfl
  have hitems : e.delete.items = shown (lineText e.delete.editor.line
      e.delete.editor.line.before.length false) := rfl
  rw [hitems]
  refine agrees_lineText h.1 hnext (List.prefix_append _ _) fun hsynced => ?_
  obtain ⟨k, hat⟩ := (h.2 hsynced).at_cursor
  rw [hline]
  exact ⟨_, _, hat, .inr rfl⟩

theorem agrees_killBefore (hclean : e.Clean p) (h : Agrees s e synced) :
    Agrees (showItems exec s e.killBefore.items) e.killBefore.editor synced := by
  have hnext : e.killBefore.editor.Clean p := @Editor.Clean.press p e hclean .killBefore trivial
  have hitems : e.killBefore.items = shown (lineText e.killBefore.editor.line
      ([] : List UInt8).length true) := rfl
  rw [hitems]
  refine agrees_lineText h.1 hnext List.nil_prefix fun hsynced => ?_
  obtain ⟨k, hat⟩ := h.2 hsynced
  refine ⟨e.line.text ++ List.replicate k 32, promptString.length + e.line.cursor, ?_, .inl rfl⟩
  rw [List.append_nil, ← List.append_assoc]
  exact hat

theorem agrees_recall (hclean : e.Clean p) {hist : History} (hsame : hist.lines = e.history.lines)
    (h : Agrees s e synced) :
    Agrees (showItems exec s (shown (lineText (Editor.recalled hist).line 0 true)))
      (Editor.recalled hist) synced := by
  refine @agrees_lineText exec p s _ synced [] true h.1 (hclean.recalled hsame) List.nil_prefix
    fun hsynced => ?_
  obtain ⟨k, hat⟩ := h.2 hsynced
  refine ⟨e.line.text ++ List.replicate k 32, promptString.length + e.line.cursor, ?_, .inl rfl⟩
  rw [List.append_nil, ← List.append_assoc]
  exact hat

theorem agrees_killAfter (h : Agrees s e synced) :
    Agrees (showItems exec s e.killAfter.items) e.killAfter.editor synced := by
  rw [Editor.killAfter, showItems_shown]
  refine ⟨?_, fun hsynced => ?_⟩
  · obtain ⟨cells, col, hat⟩ := h.1
    exact ⟨_, _, hat.eraseRow⟩
  · obtain ⟨k, hat⟩ := (h.2 hsynced).at_cursor
    have herase := hat.eraseRow
    rw [List.take_left] at herase
    refine @shows_of_at_cursor _ e.line.before [] 0 ?_
    rw [List.replicate_zero, List.append_nil, List.append_nil]
    exact herase

theorem agrees_moveTo (hclean : e.Clean p) {i : Nat} (hi : i ≤ e.line.text.length)
    (h : Agrees s e synced) :
    Agrees (showItems exec s (e.moveTo i).items) (e.moveTo i).editor synced := by
  have hsize : cmdlineLen = 128 := rfl
  have hlen := length_text_le hclean
  have hcursor := e.line.cursor_le
  rw [Editor.moveTo, showItems_shown]
  refine ⟨?_, fun hsynced => ?_⟩
  · obtain ⟨cells, col, hat⟩ := h.1
    exact ⟨_, _, move_at hat (by omega) (by omega) rfl⟩
  · obtain ⟨k, hat⟩ := h.2 hsynced
    refine ⟨k, ?_⟩
    rw [Zipper.text_moveTo, Zipper.cursor_moveTo, Nat.min_eq_left hi]
    exact move_at hat (by omega) (by omega) (by omega)

theorem agrees_enter {exec : List (List UInt8) → Screen → Screen}
    (hexec : ∀ argv s, s.At [] 0 → (exec argv s).At [] 0) (h : Calm s) :
    Agrees (showItems exec s e.enter.items) e.enter.editor true := by
  obtain ⟨cells, col, hat⟩ := h
  have hline : (s.feed endLine).At [] 0 := hat.newline
  rw [Editor.enter]
  split
  · rw [showItems_shown, Screen.feed_append]
    exact agrees_empty hline [] _ true
  dsimp only
  split
  · rw [showItems_append, showItems_shown]
    rw [showItems_exec, showItems_shown]
    exact agrees_empty (hexec _ _ hline) [] _ true
  · have herror : ∀ b ∈ bytes "ERROR: too many tokens", Printable b :=
      printable_of_all (by decide)
    obtain ⟨cells', col', hat'⟩ := Calm.chars ⟨_, _, hline⟩ herror
    simp only [showItems_shown, Screen.feed_append]
    exact agrees_empty hat'.newline [] _ true

theorem agrees_complete (hclean : e.Clean p) (h : Agrees s e synced) :
    Agrees (showItems exec s e.complete.items) e.complete.editor synced := by
  have hnext : e.complete.editor.Clean p := hclean.complete
  rw [Editor.complete] at hnext ⊢
  rcases hcase : e.completions with _ | ⟨word, _ | ⟨second, others⟩⟩
  · exact h
  -- There is one completion.
  · rw [hcase] at hnext
    have hat : Mrl.Represents.AtWord e := by
      by_contra hat
      rw [Mrl.Represents.completions_all hat] at hcase
      cases hcase
    have hword : e.buffer <+: word :=
      (Mrl.Represents.completions_atWord hat (hcase ▸ List.mem_cons_self)).2
    have hpre : e.buffer <+: (Zipper.ofText (word ++ [32])).text := by
      rw [Zipper.text_ofText]
      exact hword.trans (List.prefix_append _ _)
    dsimp only
    rw [hat.1]
    refine agrees_lineText h.1 hnext hpre fun hsynced => ?_
    obtain ⟨k, hshown⟩ := h.2 hsynced
    rw [Mrl.Represents.line_of_atWord hat, Zipper.text_ofText, Zipper.cursor_ofText,
      ← List.length_append] at hshown
    exact ⟨_, _, hshown, .inr rfl⟩
  -- There are several.
  · rw [hcase] at hnext
    have hall : ∀ word ∈ shellCommands,
        (word ++ [32]).all (fun b => decide (Printable b)) = true := by decide
    have hwords : ∀ b ∈ (word :: second :: others).flatMap (· ++ [32]), Printable b := by
      intro b hb
      obtain ⟨word, hword, hb⟩ := List.mem_flatMap.mp hb
      exact printable_of_all (hall word (mem_shellCommands (hcase ▸ hword))) b hb
    obtain ⟨cells, col, hat⟩ := h.1
    obtain ⟨cells', col', hat'⟩ := Calm.chars ⟨_, _, hat.newline⟩ hwords
    dsimp only at hnext ⊢
    rw [showItems_shown, List.append_assoc, List.append_assoc, List.append_assoc,
      Screen.feed_append, Screen.feed_append, Screen.feed_append]
    exact agrees_prompt hat'.newline hnext synced

theorem agrees_press {exec : List (List UInt8) → Screen → Screen}
    (hexec : ∀ argv s, s.At [] 0 → (exec argv s).At [] 0) (hclean : e.Clean p) {key : Key}
    (hkey : key.Typable p) (h : Agrees s e synced) :
    Agrees (showItems exec s (e.press key).items) (e.press key).editor (key.synced synced) := by
  cases key with
  | nothing => exact h
  | char c => exact agrees_insertChar hclean hkey h
  | enter => exact agrees_enter hexec h.1
  | backspace => exact agrees_backspace hclean h
  | delete => exact agrees_delete hclean h
  | killBefore => exact agrees_killBefore hclean h
  | killAfter => exact agrees_killAfter h
  | home => exact agrees_moveTo hclean (Nat.zero_le _) h
  | «end» => exact agrees_moveTo hclean (Nat.le_refl _) h
  | left => exact agrees_moveTo hclean (Nat.le_trans (Nat.sub_le _ _) (Zipper.cursor_le _)) h
  | right => exact agrees_moveTo hclean (Nat.min_le_right _ _) h
  | up => exact agrees_recall hclean rfl h
  | down => exact agrees_recall hclean rfl h
  | redraw =>
    obtain ⟨cells, col, hat⟩ := h.1
    rw [Editor.press, showItems_shown, List.append_assoc, Screen.feed_append]
    exact agrees_prompt hat.newline hclean true
  | clear =>
    obtain ⟨cells, col, hat⟩ := h.1
    rw [Editor.press, showItems_shown, List.append_assoc, Screen.feed_append]
    exact agrees_prompt hat.clear hclean true
  | interrupt =>
    have hcaret : ∀ b ∈ bytes "^C", Printable b := printable_of_all (by decide)
    obtain ⟨cells, col, hat⟩ := Calm.chars h.1 hcaret
    refine ⟨⟨[], 0, ?_⟩, fun hfalse => absurd hfalse Bool.false_ne_true⟩
    show (s.feed (bytes "^C" ++ endLine)).At [] 0
    rw [Screen.feed_append]
    exact hat.newline
  | complete => exact agrees_complete hclean h

end Keys

/-! ## Sessions on the screen -/

section Sessions

variable {p : Platform} {exec : List (List UInt8) → Screen → Screen}

theorem typable_of_decode (d : Decoder) (ch : UInt8) : (d.decode p ch).2.Typable p := by
  cases hkey : (d.decode p ch).2 with
  | char c =>
    show isControlChar p c = false
    rw [Decoder.decode] at hkey
    split at hkey
    · split at hkey
      · cases hkey
      · rename_i code key hseq
        have hmem := Mrl.Represents.sequence_mem d.escCode ch
        rw [hseq, show key = .char c from hkey] at hmem
        simp [Mrl.Represents.sequenceKeys] at hmem
    split at hkey
    · by_cases hsecond : d.lastEndl = if ch = 13 then 10 else 13
      · rw [if_pos hsecond] at hkey
        cases hkey
      · rw [if_neg hsecond] at hkey
        cases hkey
    split at hkey
    · split at hkey
      · cases hkey
      · exact absurd hkey (Mrl.Represents.control_ne_char ch c)
    · cases hkey
      exact Bool.eq_false_of_not_eq_true ‹_›
  | _ => trivial

/-- Is the screen in step with the editor after the bytes? -/
def Session.synced (p : Platform) (s : Session) (before : Bool) : List UInt8 → Bool
  | [] => before
  | ch :: data => (s.next p ch).synced p ((s.key p ch).synced before) data

theorem agrees_items (hexec : ∀ argv s, s.At [] 0 → (exec argv s).At [] 0) {screen : Screen}
    {s : Session} {synced : Bool} (hclean : s.editor.Clean p) (h : Agrees screen s.editor synced)
    (data : List UInt8) :
    Agrees (showItems exec screen (s.items p data)) (s.after p data).editor
      (s.synced p synced data) := by
  induction data generalizing screen s synced with
  | nil => exact h
  | cons ch data ih =>
    rw [Session.items, showItems_append]
    have hkey : (s.key p ch).Typable p := typable_of_decode s.decoder ch
    exact ih (hclean.press hkey) (agrees_press hexec hclean hkey h)

/-- Whatever is typed, the screen shows the prompt and the line in the buffer, with the cursor
where the editor has it. -/
theorem serialEvents_display {queues : List (List UInt8)}
    (hexec : ∀ argv s, s.At [] 0 → (exec argv s).At [] 0)
    (h : Session.init.Meets p Editor.Allowed (Session.init.typedEvents p queues))
    (hsynced : Session.init.synced p false (Session.init.typedEvents p queues) = true) :
    ∃ mrl k, (init.serialEvents p queues).result = some mrl ∧
      (showItems exec .blank ((init.serialEvents p queues).log.flatMap Effect.items)).At
        (promptString ++ load mrl.cmdlineStr 0 mrl.cmdlen ++ List.replicate k 32)
        (promptString.length + mrl.cursor) := by
  obtain ⟨mrl, hrun, hfollows, -⟩ := init_follows.serialEvents h
  have hstart : Agrees .blank Session.init.editor false :=
    ⟨⟨_, _, Screen.blank_at⟩, fun hfalse => absurd hfalse Bool.false_ne_true⟩
  have hagrees := @agrees_items p _ hexec _ _ _ Editor.Clean.init hstart
    (Session.init.typedEvents p queues)
  obtain ⟨k, hat⟩ := hagrees.2 hsynced
  have hload : load mrl.cmdlineStr 0 mrl.cmdlen =
      (Session.init.after p (Session.init.typedEvents p queues)).editor.line.text := by
    rw [hfollows.cmdlen]
    exact hfollows.line.load_append
  refine ⟨mrl, k, hrun.1, ?_⟩
  rw [hrun.2, hload, hfollows.cursor]
  exact hat

/-- `stop` is entered, and the cursor goes back two places in `help`. -/
def insideQueues : List (List UInt8) :=
  [bytes "stop" ++ [13] ++ bytes "hel", bytes "p" ++ [27, 91, 68, 27, 91, 68]]

/-- A command that prints a row. -/
def printOk (_ : List (List UInt8)) (s : Screen) : Screen := s.feed (bytes "ok" ++ endLine)

theorem printOk_at (argv : List (List UInt8)) (s : Screen) (h : s.At [] 0) :
    (printOk argv s).At [] 0 := by
  have hok : (s.feed (bytes "ok")).At _ _ :=
    @Screen.At.chars s [] [] h (bytes "ok") (printable_of_all (by decide))
  rw [printOk, Screen.feed_append]
  exact hok.newline

theorem serialEvents_display_insideQueues :
    ∃ k, (showItems printOk .blank
      ((init.serialEvents clearPlatform insideQueues).log.flatMap Effect.items)).At
        (promptString ++ bytes "help" ++ List.replicate k 32) (promptString.length + 2) := by
  have hline : ∀ mrl ∈ (init.serialEvents clearPlatform insideQueues).result,
      load mrl.cmdlineStr 0 mrl.cmdlen = bytes "help" ∧ mrl.cursor = 2 := by
    decide +kernel
  obtain ⟨mrl, k, hrun, hat⟩ := @serialEvents_display clearPlatform printOk insideQueues printOk_at
    (by decide +kernel) (by decide +kernel)
  obtain ⟨htext, hcursor⟩ := hline mrl hrun
  rw [htext, hcursor] at hat
  exact ⟨k, hat⟩

end Sessions

end Microrl
end Carrels
