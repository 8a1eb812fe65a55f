/-
Completion of a plain word.

A plain line has no spaces and no quotes.  The tokenizer leaves it as it is and finds one word
if the cursor is at its end, none otherwise.  What the completion inserts is the longest
beginning that all commands have in common that begin with the word.
-/
import Carrels.Microrl.Refine

namespace Carrels
namespace Microrl

open ByteMemory Logged

/-- No byte ends a word or begins a quoted one. -/
def Plain (s : List UInt8) : Prop := ∀ c ∈ s, c ≠ 32 ∧ isQuote c = false

instance (s : List UInt8) : Decidable (Plain s) := List.decidableBAll _ s

theorem blankQuotes_plain {m : Mem} {a n : Nat}
    (h : ∀ i < n, isQuote (m (a + i)) = false) : blankQuotes m a n = m := by
  funext x
  by_cases hx : a ≤ x ∧ x < a + n
  · obtain ⟨i, rfl⟩ := Nat.exists_eq_add_of_le hx.1
    rw [blankQuotes_inside (by omega), h i (by omega)]
    rfl
  · exact blankQuotes_outside (by omega)

/-- A plain line is one word, and the tokenizer leaves it as it is. -/
theorem prvCmdlineBufSplit_plain {p : Platform} {mrl : Mrl} {s : List UInt8} {limit : Nat}
    (h : LineIs mrl.cmdlineStr s) (hzero : 0 ∉ s) (hplain : Plain s) :
    mrl.prvCmdlineBufSplit p limit =
      some ⟨mrl.cmdlineStr, if limit < s.length ∨ s = [] then [] else [0], .ok⟩ := by
  have hrounds := p.rounds_ge
  have hfits : s.length ≤ 128 := h.fits
  obtain ⟨rounds, hr⟩ : ∃ n, p.rounds = n + 1 := ⟨p.rounds - 1, by omega⟩
  have htail := h.tailIs hzero
  have hplainText : plainText s = s :=
    List.takeWhile_eq_self_iff.mpr fun c hc => bne_iff_ne.mpr (hplain c hc).1
  have hquotes : ∀ n ≤ s.length, blankQuotes mrl.cmdlineStr 0 n = mrl.cmdlineStr := by
    intro n hn
    refine blankQuotes_plain fun i hi => ?_
    rw [Nat.zero_add, h.getD (by omega), List.getD_eq_getElem _ _ (by omega)]
    exact (hplain _ (List.getElem_mem _)).2
  rw [Mrl.prvCmdlineBufSplit, hr, splitLoop, if_neg (Nat.not_lt_zero _)]
  cases s with
  | nil =>
    have hnil : mrl.cmdlineStr 0 = 0 := h.getD (Nat.zero_le _)
    rw [if_pos hnil, if_pos (.inr rfl)]
  | cons c s =>
    rw [htail.head, if_neg htail.head_ne, if_neg (by decide),
      if_neg (by rw [(hplain c List.mem_cons_self).2]; decide),
      plainWord_eq htail (by omega), hplainText, Nat.sub_zero]
    by_cases hlimit : limit < (c :: s).length
    · rw [if_pos hlimit, if_pos (.inl hlimit), hquotes _ (Nat.le_of_lt hlimit)]
    · rw [if_neg hlimit, if_neg (by simpa using hlimit), hquotes _ (Nat.le_refl _)]
      simp only
      rw [if_pos htail.zero]
      rfl

/-! ## The common beginning -/

theorem shortest_mem (first : List UInt8) (words : List (List UInt8)) :
    shortest first words ∈ first :: words := by
  induction words generalizing first with
  | nil => exact List.mem_singleton.mpr rfl
  | cons word words ih =>
    rw [shortest]
    split
    · exact List.mem_cons_of_mem _ (ih word)
    · rcases List.mem_cons.mp (ih first) with heq | hmem
      · rw [heq]
        exact List.mem_cons_self
      · exact List.mem_cons_of_mem _ (List.mem_cons_of_mem _ hmem)

/-- The words do not differ in front of the place that is found. -/
theorem getElem?_of_lt_prvCompleteTotalLen {first : List UInt8} {words : List (List UInt8)}
    {i : Nat} (hi : i < prvCompleteTotalLen first words) :
    ∀ word ∈ first :: words, (shortest first words)[i]? = word[i]? := by
  intro word hword
  have hsame : ((first :: words).any fun word => (shortest first words)[i]? != word[i]?) =
      false := by
    rw [prvCompleteTotalLen] at hi
    cases hfind : (List.range (shortest first words).length).find? fun i =>
        (first :: words).any fun word => (shortest first words)[i]? != word[i]? with
    | none =>
      rw [hfind] at hi
      simpa using List.find?_range_eq_none.mp hfind i hi
    | some j =>
      rw [hfind] at hi
      simpa using (List.find?_range_eq_some.mp hfind).2.2 i hi
  simpa using List.any_eq_false.mp hsame word hword

/-- All words agree up to the place that `prv_complete_total_len` finds. -/
theorem take_prvCompleteTotalLen {first : List UInt8} {words : List (List UInt8)}
    {word : List UInt8} (hword : word ∈ first :: words) :
    first.take (prvCompleteTotalLen first words) =
      word.take (prvCompleteTotalLen first words) := by
  refine List.ext_getElem? fun i => ?_
  rw [List.getElem?_take, List.getElem?_take]
  split
  case isTrue hi =>
    rw [← getElem?_of_lt_prvCompleteTotalLen hi first List.mem_cons_self]
    exact getElem?_of_lt_prvCompleteTotalLen hi word hword
  case isFalse => rfl

/-- A common beginning is no longer than what `prv_complete_total_len` finds. -/
theorem le_prvCompleteTotalLen {first s : List UInt8} {words : List (List UInt8)}
    (h : ∀ word ∈ first :: words, s <+: word) : s.length ≤ prvCompleteTotalLen first words := by
  have hshort : s <+: shortest first words := h _ (shortest_mem first words)
  rw [prvCompleteTotalLen]
  cases hfind : (List.range (shortest first words).length).find? fun i =>
      (first :: words).any fun word => (shortest first words)[i]? != word[i]? with
  | none => exact hshort.length_le
  | some j =>
    obtain ⟨word, hword, hdiffer⟩ := List.any_eq_true.mp (List.find?_range_eq_some.mp hfind).1
    refine Nat.le_of_not_lt fun hj => bne_iff_ne.mp hdiffer ?_
    have hat : ∀ word, s <+: word → word[j]? = s[j]? := by
      rintro _ ⟨t, rfl⟩
      exact List.getElem?_append_left hj
    rw [hat _ hshort, hat word (h word hword)]

/-! ## Completion of the line -/

theorem length_command_le : ∀ word ∈ shellCommands, word.length ≤ 8 := by decide

theorem zero_not_mem_command : ∀ word ∈ shellCommands, (0 : UInt8) ∉ word := by decide

theorem prvCompleteTotalLen_shellCommands {first : List UInt8} {others : List (List UInt8)}
    (h : shellCommands = first :: others) : prvCompleteTotalLen first others = 0 := by
  cases h
  decide

theorem printCompletions_yields (words : List (List UInt8)) :
    Yields Effect.items (Mrl.printCompletions words)
      (shown (endLine ++ words.flatMap (· ++ [32]) ++ endLine ++ promptString)) () := by
  have hwords : Yields Effect.items (words.forM fun word => do
      Mrl.out word
      Mrl.out [32]) (shown (words.flatMap (· ++ [32]))) () := by
    induction words with
    | nil => exact yields_pure _ _
    | cons word words ih =>
      refine (((yields_out word).bind (yields_out [32])).bind ih).cast ?_
      rw [List.flatMap_cons, shown_append, shown_append]
  refine ((yields_out endLine).bind (hwords.bind
    ((yields_out endLine).bind (yields_out promptString)))).cast ?_
  simp only [shown_append, List.append_assoc]

/-- The words in front of the cursor of a plain line. -/
def Editor.wordsBefore (e : Editor) : List (List UInt8) :=
  if e.line.cursor = 0 then [[]] else if e.line.cursor < e.buffer.length then [] else [e.buffer]

theorem Editor.shellComplete_wordsBefore (e : Editor) :
    shellComplete e.wordsBefore = e.completions := by
  rw [Editor.wordsBefore, Editor.completions]
  by_cases hzero : e.line.cursor = 0
  · rw [if_pos hzero, hzero]
    have hall : shellComplete [[]] = shellCommands := by decide
    by_cases hpos : 0 < e.buffer.length
    · rw [if_pos hpos, hall]
    · rw [if_neg hpos, List.eq_nil_of_length_eq_zero (Nat.eq_zero_of_not_pos hpos)]
      rfl
  · rw [if_neg hzero]
    split <;> rfl

namespace Mrl.Represents

variable {p : Platform} {mrl mrl' : Mrl} {e e' : Editor}

theorem cursor_le_length_buffer (e : Editor) : e.line.cursor ≤ e.buffer.length := by
  rw [Editor.buffer, List.length_append]
  exact Nat.le_add_right_of_le (Zipper.cursor_le _)

/-- The words of the line, with `""` behind a space. -/
theorem prvCompleteGetInput_of_split {words : List Nat}
    (hsplit : mrl.prvCmdlineBufSplit p mrl.cursor = some ⟨mrl.cmdlineStr, words, .ok⟩)
    (hroom : words.length + 1 < cmdTokenNmb) {blank : Bool}
    (hblank : decide (mrl.cursor = 0 ∨ mrl.cmdlineStr (mrl.cursor - 1) = 0) = blank) :
    mrl.prvCompleteGetInput p =
      (match shellComplete (words.map (stringAt (cmdlineLen + 1) mrl.cmdlineStr) ++
          if blank then [[]] else []) with
      | [] => pure (mrl, .errCplt)
      | first :: others =>
        mrl.applyCompletion p (words.map (stringAt (cmdlineLen + 1) mrl.cmdlineStr) ++
            if blank then [[]] else []) (if blank then words else words.dropLast) first others >>=
          fun mrl => pure (mrl, .ok)) := by
  rw [Mrl.prvCompleteGetInput, hsplit, attempt_some_bind]
  simp only [hblank, ne_eq, not_true_eq_false, if_false]
  rw [if_neg (fun h => Nat.not_le_of_lt hroom h.2)]
  rfl

theorem prvCompleteGetInput_eq (h : mrl.Represents e) (hplain : Plain e.buffer) :
    mrl.prvCompleteGetInput p =
      (match e.completions with
      | [] => pure (mrl, .errCplt)
      | first :: others =>
        mrl.applyCompletion p e.wordsBefore [] first others >>= fun mrl => pure (mrl, .ok)) := by
  have hcursor := cursor_le_length_buffer e
  have hsplit := @prvCmdlineBufSplit_plain p mrl e.buffer mrl.cursor h.line h.noZero hplain
  have hshown : stringAt (cmdlineLen + 1) mrl.cmdlineStr 0 = e.buffer :=
    stringAt_eq h.line.bytes h.noZero (by rw [Nat.zero_add]; exact Nat.lt_succ_of_le h.line.fits)
  have hblank : decide (mrl.cursor = 0 ∨ mrl.cmdlineStr (mrl.cursor - 1) = 0) =
      decide (e.line.cursor = 0) := by
    rw [h.cursor, decide_eq_decide, or_iff_left_iff_imp]
    intro hbyte
    by_contra hzero
    rw [h.line.getD (by omega), List.getD_eq_getElem _ _ (by omega)] at hbyte
    exact h.noZero (hbyte ▸ List.getElem_mem _)
  rw [← e.shellComplete_wordsBefore,
    prvCompleteGetInput_of_split hsplit (by split <;> decide) hblank, Editor.wordsBefore, h.cursor]
  by_cases hzero : e.line.cursor = 0
  · have hnone : e.line.cursor < e.buffer.length ∨ e.buffer = [] := by
      rw [hzero, List.length_pos_iff, or_comm]
      exact em _
    rw [if_pos hnone, if_pos hzero, hzero]
    rfl
  · rw [if_neg hzero]
    simp only [hzero]
    by_cases hlt : e.line.cursor < e.buffer.length
    · rw [if_pos (.inl hlt), if_pos hlt]
      rfl
    · have hne : e.buffer ≠ [] := fun hnil => by
        rw [hnil, List.length_nil] at hcursor
        omega
      rw [if_neg (not_or.mpr ⟨hlt, hne⟩), if_neg hlt]
      simp only [List.map_cons, List.map_nil, hshown]
      rfl

/-- A text is inserted at the cursor. -/
theorem insert (h : mrl.Represents e) {t : List UInt8} (ht : 0 ∉ t)
    (hroom : e.line.text.length + t.length ≤ cmdlineLen) :
    ∃ mrl', mrl.prvCmdlineBufInsertText p t = some (mrl', .ok) ∧
      mrl'.Represents ⟨e.line.insert t, [], e.history⟩ ∧ mrl'.decoder = mrl.decoder := by
  obtain ⟨m, hinsert, hline⟩ := @LineIs.prvCmdlineBufInsertText p mrl _ _ _ h.line t hroom
  rw [← h.eq_withLine] at hinsert
  refine ⟨_, hinsert, h.withLine (by rwa [List.append_nil]) ?_, rfl⟩
  have htext := h.zero_not_mem_text
  rw [Zipper.text, List.mem_append, not_or] at htext
  rw [List.append_nil, Zipper.text_insert]
  simp only [List.mem_append, not_or]
  exact ⟨htext.1, ht, htext.2⟩

/-- The words to choose from are printed, and the line after what is inserted. -/
theorem applyCompletion_several {argv others : List (List UInt8)} {first : List UInt8}
    (hothers : others ≠ [])
    (hinsert : mrl.insertCommon p argv first (prvCompleteTotalLen first others) = some mrl')
    (hnext : mrl'.Represents e') :
    Yields Effect.items (mrl.applyCompletion p argv [] first others)
      (shown (endLine ++ (first :: others).flatMap (· ++ [32]) ++ endLine ++ promptString ++
        lineText e'.line 0 false)) mrl' := by
  rw [Mrl.applyCompletion, Mrl.insertCompletion, if_neg hothers, if_neg hothers, if_neg hothers,
    hinsert]
  refine ((printCompletions_yields (first :: others)).bind
    ((hnext.printLine (Nat.zero_le _) false).bind_pure _)).cast ?_
  exact (shown_append _ _).symm

/-- The only word is inserted with a space behind it. -/
theorem applyCompletion_single {argv : List (List UInt8)} {word : List UInt8} {mrl'' : Mrl}
    (hinsert : mrl.insertCommon p argv word word.length = some mrl')
    (hspace : mrl'.prvCmdlineBufInsertText p [32] = some (mrl'', .ok))
    (hnext : mrl''.Represents e') (hpos : mrl.cursor ≤ e'.line.text.length) :
    Yields Effect.items (mrl.applyCompletion p argv [] word [])
      (shown (lineText e'.line mrl.cursor false)) mrl'' := by
  have hboth : mrl.insertCompletion p argv word [] = some mrl'' := by
    rw [Mrl.insertCompletion, if_pos rfl, hinsert]
    simp only [Option.bind_eq_bind, Option.bind_some, hspace, Option.map_some]
  rw [Mrl.applyCompletion, hboth]
  exact (hnext.printLine hpos false).bind_pure _

/-- The cursor is behind a word, and nothing else is in the buffer. -/
def AtWord (e : Editor) : Prop := e.line.cursor = e.buffer.length ∧ e.buffer ≠ []

theorem line_of_atWord (hat : AtWord e) : e.line = .ofText e.buffer := by
  obtain ⟨⟨before, after⟩, rest, history⟩ := e
  obtain ⟨hcursor, -⟩ := hat
  have hlen : before.length = (before ++ after ++ rest).length := hcursor
  rw [List.length_append, List.length_append] at hlen
  obtain rfl : after = [] := List.eq_nil_of_length_eq_zero (by omega)
  obtain rfl : rest = [] := List.eq_nil_of_length_eq_zero (by omega)
  simp [Editor.buffer, Zipper.ofText, Zipper.text]

/-- Where there is no word in front of the cursor, all commands are completions. -/
theorem completions_all (hat : ¬AtWord e) : e.completions = shellCommands := by
  rw [Editor.completions]
  split
  case isTrue => rfl
  case isFalse hlt =>
    have hcursor := cursor_le_length_buffer e
    have hnil : e.buffer = [] := by
      by_contra hne
      exact hat ⟨by omega, hne⟩
    rw [hnil]
    rfl

theorem completions_atWord (hat : AtWord e) {word : List UInt8} (hword : word ∈ e.completions) :
    word ∈ shellCommands ∧ e.buffer <+: word := by
  rw [Editor.completions, if_neg (by rw [hat.1]; exact Nat.lt_irrefl _)] at hword
  obtain ⟨hmem, hpre⟩ := List.mem_filter.mp hword
  exact ⟨hmem, List.isPrefixOf_iff_prefix.mp hpre⟩

/-- The word becomes the beginning of the completion of length `len`. -/
theorem insertCommon_atWord (h : mrl.Represents e) (hat : AtWord e) {first : List UInt8}
    (hfirst : first ∈ shellCommands) (hpre : e.buffer <+: first) {len : Nat}
    (hlen : e.buffer.length ≤ len) :
    ∃ mrl', mrl.insertCommon p e.wordsBefore first len = some mrl' ∧
      mrl'.Represents ⟨.ofText (first.take len), [], e.history⟩ ∧
      mrl'.decoder = mrl.decoder := by
  have hpos : 0 < e.buffer.length := List.length_pos_of_ne_nil hat.2
  have hwords : e.wordsBefore = [e.buffer] := by
    rw [Editor.wordsBefore, if_neg (by rw [hat.1]; omega),
      if_neg (by rw [hat.1]; exact Nat.lt_irrefl _)]
  have hshort := length_command_le first hfirst
  have htext : e.line.text = e.buffer := by
    rw [line_of_atWord hat, Zipper.text_ofText]
  have hjoin : e.buffer ++ (first.drop e.buffer.length).take (len - e.buffer.length) =
      first.take len := by
    obtain ⟨t, rfl⟩ := hpre
    rw [List.drop_left, List.take_append, List.take_of_length_le hlen]
  have hroom : e.line.text.length +
      ((first.drop e.buffer.length).take (len - e.buffer.length)).length ≤ cmdlineLen := by
    have hprelen := hpre.length_le
    have hsize : cmdlineLen = 128 := rfl
    rw [htext, List.length_take, List.length_drop]
    omega
  have hzero : 0 ∉ (first.drop e.buffer.length).take (len - e.buffer.length) := fun hmem =>
    zero_not_mem_command first hfirst (List.mem_of_mem_drop (List.mem_of_mem_take hmem))
  obtain ⟨mrl', hinsert, hnext, hdecoder⟩ := h.insert (p := p) hzero hroom
  refine ⟨mrl', ?_, ?_, hdecoder⟩
  · rw [Mrl.insertCommon, if_neg (by omega), hwords, List.getLast?_singleton, Option.bind_some,
      hinsert]
    rfl
  · have hline : e.line.insert ((first.drop e.buffer.length).take (len - e.buffer.length)) =
        .ofText (first.take len) := by
      rw [line_of_atWord hat, ← hjoin]
      rfl
    rwa [hline] at hnext

theorem complete (h : mrl.Represents e) (hplain : Plain e.buffer) :
    Answers mrl (mrl.prvCompleteGetInput p) e.complete (e.complete.left.getD .ok) := by
  rw [h.prvCompleteGetInput_eq hplain, Editor.complete]
  match hwords : e.completions with
  | [] => exact ⟨mrl, yields_pure _ _, h, rfl⟩
  | [word] =>
    have hat : AtWord e := by
      by_contra hat
      rw [completions_all hat] at hwords
      cases hwords
    obtain ⟨hmem, hpre⟩ := completions_atWord hat (hwords ▸ List.mem_cons_self)
    obtain ⟨mrl', hinsert, hword, hdecoder⟩ :=
      h.insertCommon_atWord (p := p) hat hmem hpre hpre.length_le
    rw [List.take_length] at hword
    have hshort := length_command_le word hmem
    obtain ⟨mrl'', hspace, hnext, hdecoder'⟩ := hword.insert (p := p) (t := [32]) (by decide)
      (by
        have hsize : cmdlineLen = 128 := rfl
        rw [Zipper.text_ofText, List.length_singleton]
        omega)
    have hpos : mrl.cursor ≤ (Zipper.ofText (word ++ [32])).text.length := by
      have hprelen := hpre.length_le
      rw [h.cursor, hat.1, Zipper.text_ofText, List.length_append]
      omega
    refine ⟨mrl'', ?_, hnext, hdecoder'.trans hdecoder⟩
    rw [← h.cursor]
    exact (applyCompletion_single hinsert hspace hnext hpos).bind_pure _
  | first :: second :: others =>
    obtain ⟨mrl', hinsert, hnext, hdecoder⟩ : ∃ mrl',
        mrl.insertCommon p e.wordsBefore first (prvCompleteTotalLen first (second :: others)) =
          some mrl' ∧
        mrl'.Represents (if prvCompleteTotalLen first (second :: others) = 0 then e
          else ⟨.ofText (first.take (prvCompleteTotalLen first (second :: others))), [],
            e.history⟩) ∧ mrl'.decoder = mrl.decoder := by
      by_cases hat : AtWord e
      · have hmem : ∀ word ∈ first :: second :: others,
            word ∈ shellCommands ∧ e.buffer <+: word := by
          rw [← hwords]
          exact fun word => completions_atWord hat
        have hlen := le_prvCompleteTotalLen fun word hword => (hmem word hword).2
        obtain ⟨hfirst, hpre⟩ := hmem first List.mem_cons_self
        have hpos := List.length_pos_of_ne_nil hat.2
        rw [if_neg (by omega)]
        exact h.insertCommon_atWord hat hfirst hpre hlen
      · rw [completions_all hat] at hwords
        rw [Mrl.insertCommon, prvCompleteTotalLen_shellCommands hwords, if_pos rfl, if_pos rfl]
        exact ⟨mrl, rfl, h, rfl⟩
    exact ⟨mrl', (applyCompletion_several (List.cons_ne_nil _ _) hinsert hnext).bind_pure _,
      hnext, hdecoder⟩

end Mrl.Represents

/-- The text that a word is completed to. -/
def Completes (s t : List UInt8) : List (List UInt8) → Prop
  | [] => t = s
  | [word] => t = word ++ [32]
  | words => s <+: t ∧ (∀ word ∈ words, t <+: word) ∧
    ∀ u : List UInt8, (∀ word ∈ words, u <+: word) → u <+: t

theorem prefix_of_prefix_of_le {u t word : List UInt8} (hu : u <+: word) (ht : t <+: word)
    (hle : u.length ≤ t.length) : u <+: t := by
  rw [List.prefix_iff_eq_take] at hu ht ⊢
  rw [ht, List.take_take, Nat.min_eq_left hle]
  exact hu

/-- A word at the end of the line is completed to the longest beginning that the commands have in
common that begin with it. -/
theorem prvCompleteGetInput_longest {p : Platform} {mrl : Mrl} {e : Editor}
    (h : mrl.Represents e) (hplain : Plain e.buffer) (hat : Mrl.Represents.AtWord e) :
    ∃ mrl' status t, (mrl.prvCompleteGetInput p).result = some (mrl', status) ∧
      (status = .ok ↔ shellCommands.filter e.buffer.isPrefixOf ≠ []) ∧
      mrl'.cmdlen = t.length ∧ mrl'.cursor = t.length ∧ LineIs mrl'.cmdlineStr t ∧
      Completes e.buffer t (shellCommands.filter e.buffer.isPrefixOf) := by
  obtain ⟨mrl', hrun, hnext, -⟩ := h.complete (p := p) hplain
  have hwords : e.completions = shellCommands.filter e.buffer.isPrefixOf := by
    rw [Editor.completions, if_neg (by rw [hat.1]; exact Nat.lt_irrefl _)]
  have hmem : ∀ word ∈ e.completions, e.buffer <+: word := fun word hword =>
    (Mrl.Represents.completions_atWord hat hword).2
  have hsame : e.line.text = e.buffer := by
    rw [Mrl.Represents.line_of_atWord hat, Zipper.text_ofText]
  rw [← hwords]
  rw [Editor.complete] at hrun hnext
  match hcase : e.completions with
  | [] =>
    rw [hcase] at hrun hnext
    refine ⟨mrl', _, e.buffer, hrun.1, by simp, ?_, ?_, hnext.line, rfl⟩
    · rw [hnext.cmdlen, hsame]
    · rw [hnext.cursor, hat.1]
  | [word] =>
    rw [hcase] at hrun hnext
    have hline : LineIs mrl'.cmdlineStr ((Zipper.ofText (word ++ [32])).text ++ []) := hnext.line
    rw [Zipper.text_ofText, List.append_nil] at hline
    refine ⟨mrl', _, word ++ [32], hrun.1, by simp, ?_, hnext.cursor, hline, rfl⟩
    rw [hnext.cmdlen, Zipper.text_ofText]
  | first :: second :: others =>
    have hall : ∀ word ∈ first :: second :: others, e.buffer <+: word := by
      rw [← hcase]
      exact hmem
    have hlen := le_prvCompleteTotalLen hall
    have hpos := List.length_pos_of_ne_nil hat.2
    rw [hcase] at hrun hnext
    dsimp only at hnext
    rw [if_neg (by omega)] at hnext
    have hline : LineIs mrl'.cmdlineStr
        ((Zipper.ofText (first.take (prvCompleteTotalLen first (second :: others)))).text ++ []) :=
      hnext.line
    rw [Zipper.text_ofText, List.append_nil] at hline
    have hfirst := hall first List.mem_cons_self
    have htake : first.take (prvCompleteTotalLen first (second :: others)) <+: first :=
      List.take_prefix _ _
    have hfits : ∀ u : List UInt8, (∀ word ∈ first :: second :: others, u <+: word) →
        u <+: first.take (prvCompleteTotalLen first (second :: others)) := by
      intro u hu
      refine prefix_of_prefix_of_le (hu first List.mem_cons_self) htake ?_
      rw [List.length_take]
      exact Nat.le_min.mpr ⟨le_prvCompleteTotalLen hu, (hu first List.mem_cons_self).length_le⟩
    refine ⟨mrl', _, first.take (prvCompleteTotalLen first (second :: others)), hrun.1, by simp,
      ?_, hnext.cursor, hline, hfits _ hall, ?_, hfits⟩
    · rw [hnext.cmdlen, Zipper.text_ofText]
    · intro word hword
      rw [take_prvCompleteTotalLen hword]
      exact List.take_prefix _ _

/-- Two commands begin with `s` and `t`. -/
theorem prvCompleteGetInput_longest_typed :
    ∃ (mrl mrl' : Mrl) (t : List UInt8),
      (mrl.prvCompleteGetInput clearPlatform).result = some (mrl', .ok) ∧
      mrl'.cursor = t.length ∧ LineIs mrl'.cmdlineStr t ∧
      Completes [115, 116] t [bytes "start", bytes "stop"] := by
  obtain ⟨mrl₁, -, h₁, -⟩ := init_represents.prvInsertChar (p := clearPlatform) (c := 115)
    (by decide) (by decide)
  obtain ⟨mrl₂, -, h₂, -⟩ := h₁.prvInsertChar (p := clearPlatform) (c := 116)
    (by decide) (by decide)
  obtain ⟨mrl', status, t, hresult, hstatus, -, hcursor, hline, ht⟩ :=
    @prvCompleteGetInput_longest clearPlatform mrl₂ _ h₂ (by decide) ⟨by decide, by decide⟩
  obtain rfl : status = .ok := hstatus.mpr (by decide)
  exact ⟨mrl₂, mrl', t, hresult, hcursor, hline, ht⟩

end Microrl
end Carrels
