/-
Commands over whole runs.

As long as there is no error, every byte of a queue is taken, in whatever serial events and batches
it comes.  Commands of plain words that are typed one after the other are executed as they are.
-/
import Carrels.Microrl.Typing

namespace Carrels
namespace Microrl

open ByteMemory Logged

/-! ## Input without errors -/

namespace Session

variable {p : Platform} {s : Session} {data : List UInt8}

/-- Without an error all bytes of a batch are taken. -/
theorem taken_of_left (h : s.left p data = none) : s.taken p data = data := by
  induction data generalizing s with
  | nil => rfl
  | cons ch data ih =>
    rw [left] at h
    by_cases hleft : (s.answer p ch).left.isSome = true
    · rw [if_pos hleft] at h
      rw [h] at hleft
      cases hleft
    · rw [if_neg hleft] at h
      rw [taken, if_neg hleft, ih h]

theorem left_append_eq_none {more : List UInt8} :
    s.left p (data ++ more) = none ↔
      s.left p data = none ∧ (s.after p data).left p more = none := by
  induction data generalizing s with
  | nil => exact (and_iff_right rfl).symm
  | cons ch data ih =>
    rw [List.cons_append, left, left, after]
    by_cases hleft : (s.answer p ch).left.isSome = true
    · rw [if_pos hleft, if_pos hleft]
      refine iff_of_false (fun h => ?_) (fun h => ?_)
      · rw [h] at hleft
        cases hleft
      · rw [h.1] at hleft
        cases hleft
    · rw [if_neg hleft, if_neg hleft]
      exact ih

/-- Without an error all bytes of a queue are taken, in whatever batches they come. -/
theorem typed_of_left {queue : List UInt8} (h : s.left p (queue.map shellNormaliseInput) = none)
    (n : Nat) : s.typed p n false queue = queue.map shellNormaliseInput := by
  induction queue generalizing s n with
  | nil => rfl
  | cons c queue ih =>
    rw [List.map_cons, left] at h
    rw [List.map_cons, typed, if_neg Bool.false_ne_true]
    by_cases hleft : (s.answer p (shellNormaliseInput c)).left.isSome = true
    · rw [if_pos hleft] at h
      rw [h] at hleft
      cases hleft
    · rw [if_neg hleft] at h
      rw [Bool.eq_false_of_not_eq_true hleft, Bool.false_and, ih h]

theorem typedEvents_of_left {queues : List (List UInt8)}
    (h : s.left p (queues.flatten.map shellNormaliseInput) = none) :
    s.typedEvents p queues = queues.flatten.map shellNormaliseInput := by
  induction queues generalizing s with
  | nil => rfl
  | cons queue queues ih =>
    rw [List.flatten_cons, List.map_append] at h ⊢
    obtain ⟨hfirst, hrest⟩ := left_append_eq_none.mp h
    rw [typedEvents, typed_of_left hfirst, ih hrest]

end Session

/-! ## What is typed -/

/-- A word that is typed and passed on as it is. -/
def PlainWord (p : Platform) (w : List UInt8) : Prop :=
  w ≠ [] ∧ Plain w ∧ (w.all fun ch => !isControlChar p ch) = true

instance (p : Platform) (w : List UInt8) : Decidable (PlainWord p w) :=
  inferInstanceAs (Decidable (_ ∧ _ ∧ _))

/-- A character typed at the end of the line. -/
theorem Editor.insertChar_end {t : List UInt8} {h : History} {c : UInt8}
    (hroom : t.length + 1 ≤ cmdlineLen) (hspace : t = [] → c ≠ 32) :
    (Editor.mk (.ofText t) [] h).insertChar c =
      { editor := ⟨.ofText (t ++ [c]), [], h⟩, items := shown [c] } := by
  rw [Editor.insertChar, Zipper.text_ofText, if_neg fun hc => hspace hc.2 hc.1,
    if_neg (Nat.not_lt.mpr hroom)]
  rfl

/-- One word of a line, in front of a space or at the end. -/
theorem splitText_word {w rest : List UInt8} (hne : w ≠ []) (hplain : Plain w)
    (hrest : rest.takeWhile (· != 32) = []) {slots limit : Nat} (hlimit : w.length ≤ limit) :
    splitText (slots + 1) limit (w ++ rest) =
      (splitText slots (limit - (w.length + 1)) (rest.drop 1)).map (w :: ·) := by
  have hword : plainText (w ++ rest) = w := by
    rw [plainText, List.takeWhile_append_of_pos fun c hc => bne_iff_ne.mpr (hplain c hc).1, hrest,
      List.append_nil]
  have hquote : untilQuote w = w := by
    refine List.takeWhile_eq_self_iff.mpr fun c hc => ?_
    rw [(hplain c hc).2]
    rfl
  have hdrop : (w ++ rest).drop (w.length + 1) = rest.drop 1 := by
    rw [← List.drop_drop, List.drop_left]
  obtain ⟨c, s, rfl⟩ := List.exists_cons_of_ne_nil hne
  rw [List.cons_append] at hword hdrop ⊢
  rw [splitText, (hplain c List.mem_cons_self).2, if_neg Bool.false_ne_true]
  dsimp only
  rw [hword, hdrop, hquote, if_neg (Nat.not_lt.mpr hlimit)]

/-- Words with a space between them are split into these words. -/
theorem splitText_intercalate {words : List (List UInt8)}
    (hwords : ∀ w ∈ words, w ≠ [] ∧ Plain w) {slots : Nat} (hslots : words.length ≤ slots) :
    splitText slots ([32].intercalate words).length ([32].intercalate words) = some words := by
  induction words generalizing slots with
  | nil => cases slots <;> rfl
  | cons w words ih =>
    obtain ⟨hne, hplain⟩ := hwords w List.mem_cons_self
    have hrest : ∀ v ∈ words, v ≠ [] ∧ Plain v := fun v hv => hwords v (List.mem_cons_of_mem w hv)
    cases slots with
    | zero => exact absurd hslots (Nat.not_succ_le_zero _)
    | succ slots =>
      have hmore := ih hrest (Nat.le_of_succ_le_succ hslots)
      cases words with
      | nil =>
        rw [List.intercalate_singleton]
        have hword := @splitText_word w [] hne hplain rfl slots _ (Nat.le_refl _)
        rw [List.append_nil] at hword
        rw [hword]
        cases slots <;> rfl
      | cons v words =>
        rw [List.intercalate_cons_cons, List.append_assoc, List.singleton_append, splitText_word hne
          hplain rfl (by rw [List.length_append]; exact Nat.le_add_right _ _), List.drop_one,
          List.tail_cons, List.length_append, List.length_cons]
        have hlimit : w.length + (([32].intercalate (v :: words)).length + 1) - (w.length + 1) =
            ([32].intercalate (v :: words)).length := by omega
        rw [hlimit, hmore]
        rfl

namespace Session

variable {p : Platform}

theorem inside_of_not_control {ch : UInt8} (h : isControlChar p ch = false) : Inside ch := by
  refine ⟨?_, ?_, ?_⟩ <;> rintro rfl <;> simp [isControlChar] at h

/-- Characters are typed at the end of the line. -/
theorem outcome_typed {s : Session} (hescape : s.decoder.escape = false) {t : List UInt8}
    {h : History} (heditor : s.editor = ⟨.ofText t, [], h⟩) {data : List UInt8}
    (hdata : ∀ ch ∈ data, isControlChar p ch = false)
    (hroom : t.length + data.length ≤ cmdlineLen) (hspace : t = [] → data.head? ≠ some 32)
    (hne : data ≠ [] ∨ s.decoder.lastEndl = 0) (more : List UInt8) :
    ∃ s' : Session, s'.decoder.escape = false ∧ s'.decoder.lastEndl = 0 ∧
      s'.editor = ⟨.ofText (t ++ data), [], h⟩ ∧
      s.outcome p (data ++ more) =
        (shown data ++ (s'.outcome p more).1, (s'.outcome p more).2) ∧
      (s'.Meets p Editor.Allowed (s'.taken p more) →
        s.Meets p Editor.Allowed (s.taken p (data ++ more))) := by
  induction data generalizing s t with
  | nil =>
    refine ⟨s, hescape, hne.resolve_left (fun h => h rfl), ?_, rfl, id⟩
    rw [List.append_nil]
    exact heditor
  | cons ch data ih =>
    have hch := hdata ch List.mem_cons_self
    rw [List.length_cons] at hroom
    have hdecode : s.decoder.decode p ch = ({ s.decoder with lastEndl := 0 }, .char ch) := by
      rw [decode_inside hescape (inside_of_not_control hch), if_neg (by rw [hch]; decide)]
    have hkey : s.key p ch = .char ch := congrArg Prod.snd hdecode
    have hanswer : s.answer p ch =
        { editor := ⟨.ofText (t ++ [ch]), [], h⟩, items := shown [ch] } := by
      rw [answer, hkey, heditor]
      refine Editor.insertChar_end (by omega) fun hnil hblank => ?_
      exact hspace hnil (congrArg some hblank)
    have hnext : s.next p ch =
        ⟨{ s.decoder with lastEndl := 0 }, ⟨.ofText (t ++ [ch]), [], h⟩⟩ := by
      rw [next, hdecode, hanswer]
    obtain ⟨s', hescape', hendl, heditor', hout, hmeets⟩ := @ih
      ⟨{ s.decoder with lastEndl := 0 }, ⟨.ofText (t ++ [ch]), [], h⟩⟩ hescape (t ++ [ch]) rfl
      (fun c hc => hdata c (List.mem_cons_of_mem ch hc))
      (by rw [List.length_append, List.length_singleton]; omega)
      (fun hnil => absurd hnil (List.append_ne_nil_of_right_ne_nil t (List.cons_ne_nil ch [])))
      (.inr rfl)
    refine ⟨s', hescape', hendl, ?_, ?_, fun hmore => ?_⟩
    · rw [heditor', List.append_assoc, List.singleton_append]
    · rw [List.cons_append, outcome_cons, hanswer, hnext, hout]
      rfl
    · rw [List.cons_append, taken, hanswer, hnext]
      refine ⟨?_, ?_⟩
      · rw [hkey]
        exact ⟨trivial, trivial⟩
      · rw [hnext]
        exact hmeets hmore

end Session

theorem not_control_intercalate {p : Platform} {words : List (List UInt8)}
    (h : ∀ w ∈ words, ∀ ch ∈ w, isControlChar p ch = false) :
    ∀ ch ∈ [32].intercalate words, isControlChar p ch = false := by
  induction words with
  | nil => exact fun ch hch => absurd hch List.not_mem_nil
  | cons w words ih =>
    have hrest := ih fun v hv => h v (List.mem_cons_of_mem w hv)
    cases words with
    | nil =>
      rw [List.intercalate_singleton]
      exact h w List.mem_cons_self
    | cons v words =>
      intro ch hch
      rw [List.intercalate_cons_cons, List.append_assoc, List.mem_append, List.mem_append,
        List.mem_singleton] at hch
      rcases hch with hch | rfl | hch
      · exact h w List.mem_cons_self ch hch
      · simp [isControlChar]
      · exact hrest ch hch

/-! ## Commands -/

namespace Session

variable {p : Platform} {s : Session}

/-- The byte of a line end enters the line. -/
theorem next_enter (hescape : s.decoder.escape = false) (hs : s.decoder.lastEndl = 0) :
    s.key p 13 = .enter ∧ s.next p 13 = s.entered 13 := by
  have hdecode : s.decoder.decode p 13 = (⟨13, s.decoder.escCode, false⟩, .enter) := by
    rw [Decoder.decode, if_neg (by rw [hescape]; decide), if_pos (.inl rfl),
      if_neg (by rw [hs]; decide), hescape]
  have hkey : s.key p 13 = .enter := congrArg Prod.snd hdecode
  refine ⟨hkey, ?_⟩
  rw [next, answer, hkey, hdecode]
  rfl

end Session

/-- A command that the line editor passes on as it is. -/
structure Command (p : Platform) (words : List (List UInt8)) : Prop where
  ne_nil : words ≠ []
  slots : words.length ≤ cmdTokenNmb
  plain : ∀ w ∈ words, PlainWord p w
  room : ([32].intercalate words).length ≤ cmdlineLen
  short : ([32].intercalate words).length ≠ ringHistoryLen - 1

/-- What is typed for a command: its words with a space between them, and `CR`. -/
def commandText (words : List (List UInt8)) : List UInt8 := [32].intercalate words ++ [13]

/-- The commands that are executed. -/
def executed (items : List Item) : List (List (List UInt8)) :=
  items.filterMap fun
    | .exec argv => some argv
    | _ => none

theorem executed_append (items more : List Item) :
    executed (items ++ more) = executed items ++ executed more := List.filterMap_append

theorem executed_shown (bs : List UInt8) : executed (shown bs) = [] := by
  rw [executed, shown, List.filterMap_map]
  exact List.filterMap_eq_nil_iff.mpr fun _ _ => rfl

namespace Command

variable {p : Platform} {words : List (List UInt8)}

theorem not_control (h : Command p words) :
    ∀ ch ∈ [32].intercalate words, isControlChar p ch = false :=
  not_control_intercalate fun w hw ch hch => by
    simpa using List.all_eq_true.mp (h.plain w hw).2.2 ch hch

theorem split (h : Command p words) :
    splitText cmdTokenNmb ([32].intercalate words).length ([32].intercalate words) = some words :=
  splitText_intercalate (fun w hw => ⟨(h.plain w hw).1, (h.plain w hw).2.1⟩) h.slots

theorem head (h : Command p words) :
    [32].intercalate words ≠ [] ∧ ([32].intercalate words).head? ≠ some 32 := by
  obtain ⟨w, rest, rfl⟩ := List.exists_cons_of_ne_nil h.ne_nil
  obtain ⟨hne, hplain, -⟩ := h.plain w List.mem_cons_self
  obtain ⟨c, t, rfl⟩ := List.exists_cons_of_ne_nil hne
  have hc := (hplain c List.mem_cons_self).1
  cases rest with
  | nil => simpa using hc
  | cons v rest => simpa [List.intercalate_cons_cons] using hc

/-- The line with the command is entered. -/
theorem enter (h : Command p words) (hist : History) :
    (Editor.mk (.ofText ([32].intercalate words)) [] hist).enter =
      { editor := ⟨.empty, [],
          hist.save ([32].intercalate words) ([32].intercalate words)⟩
        items := shown endLine ++ .exec words :: shown promptString } := by
  rw [Editor.enter, Editor.buffer, Zipper.text_ofText, if_neg h.head.1, List.append_nil, h.split]

theorem normalise (h : Command p words) :
    (commandText words).map shellNormaliseInput = commandText words := by
  refine (List.map_congr_left fun c hc => ?_).trans (List.map_id _)
  rw [commandText, List.mem_append, List.mem_singleton] at hc
  rcases hc with hc | rfl
  · have hcontrol := h.not_control c hc
    refine if_neg ?_
    rintro (rfl | rfl | rfl) <;> simp [isControlChar] at hcontrol
  · rfl

end Command

namespace Session

variable {p : Platform} {s : Session}

/-- One command after the other is typed and executed. -/
theorem outcome_commands {hist : History} (hescape : s.decoder.escape = false)
    (hempty : s.editor = ⟨.empty, [], hist⟩) {commands : List (List (List UInt8))}
    (h : ∀ words ∈ commands, Command p words) :
    ∃ items editor, s.outcome p (commands.flatMap commandText) = (items, editor, none) ∧
      executed items = commands ∧
      s.Meets p Editor.Allowed (s.taken p (commands.flatMap commandText)) := by
  induction commands generalizing s hist with
  | nil => exact ⟨[], s.editor, rfl, rfl, trivial⟩
  | cons words commands ih =>
    have hwords := h words List.mem_cons_self
    obtain ⟨s', hescape', hendl, heditor, hout, hmeets⟩ := @outcome_typed p s hescape [] hist hempty
      ([32].intercalate words) hwords.not_control
      (by rw [List.length_nil, Nat.zero_add]; exact hwords.room) (fun _ => hwords.head.2)
      (.inl hwords.head.1) (13 :: commands.flatMap commandText)
    rw [List.nil_append] at heditor
    obtain ⟨hkey, hnext⟩ := @next_enter p s' hescape' hendl
    have hentered : (s'.entered 13).editor = ⟨.empty, [],
        hist.save ([32].intercalate words) ([32].intercalate words)⟩ := by
      show s'.editor.enter.editor = _
      rw [heditor, hwords.enter]
    have hanswer : s'.answer p 13 = s'.editor.enter := by rw [answer, hkey, Editor.press]
    obtain ⟨items, editor, hrest, hexecuted, hallowed⟩ := @ih (s'.entered 13) _ rfl hentered
      fun v hv => h v (List.mem_cons_of_mem words hv)
    have htext : (words :: commands).flatMap commandText =
        [32].intercalate words ++ 13 :: commands.flatMap commandText := by
      rw [List.flatMap_cons, commandText, List.append_assoc, List.singleton_append]
    rw [outcome_cons, hanswer, hnext, hrest, heditor, hwords.enter, join] at hout
    dsimp only [Option.isSome_none] at hout
    rw [if_neg Bool.false_ne_true] at hout
    rw [htext]
    refine ⟨_, editor, hout, ?_, hmeets ?_⟩
    · rw [executed_append, executed_append, executed_append, executed_shown, executed_shown,
        hexecuted]
      show words :: executed (shown promptString) ++ commands = _
      rw [executed_shown]
      rfl
    · rw [taken, hanswer, hnext, heditor, hwords.enter]
      refine ⟨?_, ?_⟩
      · rw [hkey, heditor]
        refine ⟨?_, trivial⟩
        rw [Editor.Short, Zipper.text_ofText]
        exact hwords.short
      · rw [hnext]
        exact hallowed

end Session

/-- Commands that are typed on an empty line are executed, each once and in their order, in
whatever serial events and batches their bytes come. -/
theorem Mrl.Follows.serialEvents_commands {p : Platform} {mrl : Mrl} {s : Session}
    (h : mrl.Follows s) {hist : History} (hescape : s.decoder.escape = false)
    (hempty : s.editor = ⟨.empty, [], hist⟩) {commands : List (List (List UInt8))}
    (hcommands : ∀ words ∈ commands, Command p words) {queues : List (List UInt8)}
    (hqueues : queues.flatten = commands.flatMap commandText) :
    ∃ mrl', (mrl.serialEvents p queues).result = some mrl' ∧
      executed ((mrl.serialEvents p queues).log.flatMap Effect.items) = commands := by
  obtain ⟨items, editor, hout, hexecuted, hallowed⟩ :=
    @Session.outcome_commands p s hist hescape hempty commands hcommands
  have hnormal : queues.flatten.map shellNormaliseInput = commands.flatMap commandText := by
    rw [hqueues, List.map_flatMap]
    exact List.flatMap_congr fun words hwords => (hcommands words hwords).normalise
  rw [Session.outcome, Prod.mk.injEq, Prod.mk.injEq] at hout
  obtain ⟨hitems, -, hleft⟩ := hout
  have htyped := Session.typedEvents_of_left (hnormal ▸ hleft)
  rw [Session.taken_of_left hleft] at hitems hallowed
  obtain ⟨mrl', hrun, -⟩ := h.serialEvents (p := p)
    (by rw [htyped, hnormal]; exact hallowed)
  rw [htyped, hnormal, hitems] at hrun
  exact ⟨mrl', hrun.1, by rw [hrun.2, hexecuted]⟩

/-- The shell of the orchestrator executes the commands that are typed. -/
theorem serialEvents_executes {p : Platform} {commands : List (List (List UInt8))}
    (hcommands : ∀ words ∈ commands, Command p words) {queues : List (List UInt8)}
    (hqueues : queues.flatten = commands.flatMap commandText) :
    ∃ mrl, (init.serialEvents p queues).result = some mrl ∧
      executed ((init.serialEvents p queues).log.flatMap Effect.items) = commands :=
  init_follows.serialEvents_commands rfl rfl hcommands hqueues

/-- The bytes of two commands come in three serial events. -/
def helpQueues : List (List UInt8) := [[104, 101], [108, 112, 13, 115, 116, 111], [112, 32, 51, 13]]

theorem serialEvents_executes_helpQueues :
    ∃ mrl, (init.serialEvents clearPlatform helpQueues).result = some mrl ∧
      executed ((init.serialEvents clearPlatform helpQueues).log.flatMap Effect.items) =
        [[bytes "help"], [bytes "stop", bytes "3"]] := by
  refine serialEvents_executes (fun words hwords => ?_) (by decide)
  rw [List.mem_cons, List.mem_singleton] at hwords
  rcases hwords with rfl | rfl
  · exact ⟨by decide, by decide, by decide, by decide, by decide⟩
  · exact ⟨by decide, by decide, by decide, by decide, by decide⟩

end Microrl
end Carrels
