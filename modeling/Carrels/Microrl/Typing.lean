/-
What is typed.

Every line end counts once, whether the terminal sends `CR`, `LF` or both.
-/
import Carrels.Microrl.Session

namespace Carrels
namespace Microrl

open ByteMemory Logged

/-! ## Line ends -/

/-- The line ends that terminals send. -/
inductive LineEnd
  | cr
  | lf
  | crlf
  | lfcr
  deriving DecidableEq, Repr

namespace LineEnd

def bytes : LineEnd → List UInt8
  | .cr => [13]
  | .lf => [10]
  | .crlf => [13, 10]
  | .lfcr => [10, 13]

/-- The byte that the first byte of the line end would be taken for the second one of. -/
def partner : LineEnd → UInt8
  | .cr => 10
  | .lf => 13
  | .crlf => 10
  | .lfcr => 13

end LineEnd

namespace Session

variable {p : Platform}

/-- What a batch comes to: what is seen, the editor, and the value that the batch is left with. -/
def outcome (p : Platform) (s : Session) (data : List UInt8) : List Item × Editor × Option Status :=
  (s.items p (s.taken p data), (s.after p (s.taken p data)).editor, s.left p data)

/-- Two sessions go on in the same way, in spite of what their last line ends were. -/
structure Alike (s s' : Session) : Prop where
  editor : s.editor = s'.editor
  escape : s.decoder.escape = false
  escape' : s'.decoder.escape = false

/-- A byte that ends no line and begins no sequence. -/
def Inside (ch : UInt8) : Prop := ch ≠ 13 ∧ ch ≠ 10 ∧ ch ≠ 27

instance (ch : UInt8) : Decidable (Inside ch) := inferInstanceAs (Decidable (_ ∧ _ ∧ _))

theorem decode_inside {d : Decoder} (hescape : d.escape = false) {ch : UInt8} (hch : Inside ch) :
    d.decode p ch = ({ d with lastEndl := 0 },
      if isControlChar p ch then Decoder.control ch else .char ch) := by
  rw [Decoder.decode, if_neg (by rw [hescape]; decide),
    if_neg (not_or.mpr ⟨hch.1, hch.2.1⟩), if_neg hch.2.2]
  split <;> rfl

/-- The outcome of an answer, and of what comes after it if the input is not left with it. -/
def join (a : Editor.Answer) (more : List Item × Editor × Option Status) :
    List Item × Editor × Option Status :=
  if a.left.isSome then (a.items, a.editor, a.left) else (a.items ++ more.1, more.2)

theorem outcome_cons (s : Session) (ch : UInt8) (data : List UInt8) :
    s.outcome p (ch :: data) = join (s.answer p ch) ((s.next p ch).outcome p data) := by
  rw [outcome, outcome, join, taken, left]
  split
  · exact congrArg (fun items => (items, _, _)) (List.append_nil _)
  · rfl

/-- A byte inside a line. -/
theorem outcome_inside {s s' : Session} (h : Alike s s') {ch : UInt8} (hch : Inside ch) :
    s.answer p ch = s'.answer p ch ∧ Alike (s.next p ch) (s'.next p ch) ∧
      (s.next p ch).decoder.lastEndl = 0 ∧ (s'.next p ch).decoder.lastEndl = 0 := by
  have hkey : s.key p ch = s'.key p ch := by
    rw [key, key, decode_inside h.escape hch, decode_inside h.escape' hch]
  have hanswer : s.answer p ch = s'.answer p ch := by rw [answer, answer, hkey, h.editor]
  refine ⟨hanswer, ⟨congrArg Editor.Answer.editor hanswer, ?_, ?_⟩, ?_, ?_⟩
  · rw [next, decode_inside h.escape hch]
    exact h.escape
  · rw [next, decode_inside h.escape' hch]
    exact h.escape'
  · rw [next, decode_inside h.escape hch]
  · rw [next, decode_inside h.escape' hch]

/-- The bytes of a line. -/
theorem outcome_line {s s' : Session} (h : Alike s s') {e e' : LineEnd}
    {line more more' : List UInt8}
    (hline : ∀ ch ∈ line, Inside ch) (hs : s.decoder.lastEndl ≠ e.partner)
    (hs' : s'.decoder.lastEndl ≠ e'.partner)
    (hmore : ∀ t t', Alike t t' → t.decoder.lastEndl ≠ e.partner →
      t'.decoder.lastEndl ≠ e'.partner → t.outcome p more = t'.outcome p more') :
    s.outcome p (line ++ more) = s'.outcome p (line ++ more') := by
  have hzero : ∀ e : LineEnd, (0 : UInt8) ≠ e.partner := by
    intro e
    cases e <;> decide
  induction line generalizing s s' with
  | nil => exact hmore s s' h hs hs'
  | cons ch line ih =>
    obtain ⟨hanswer, hnext, hendl, hendl'⟩ :=
      outcome_inside (p := p) h (hline ch List.mem_cons_self)
    rw [List.cons_append, List.cons_append, outcome_cons, outcome_cons, hanswer,
      ih hnext (fun c hc => hline c (List.mem_cons_of_mem ch hc)) (by rw [hendl]; exact hzero e)
        (by rw [hendl']; exact hzero e')]

/-- The two bytes of a line end, in either order. -/
def Pair (ch other : UInt8) : Prop := ch = 13 ∧ other = 10 ∨ ch = 10 ∧ other = 13

theorem Pair.ch_or {ch other : UInt8} (h : Pair ch other) : ch = 13 ∨ ch = 10 :=
  h.imp And.left And.left

theorem Pair.if_eq {ch other : UInt8} (h : Pair ch other) :
    (if ch = 13 then 10 else 13) = other := by
  rcases h with ⟨rfl, rfl⟩ | ⟨rfl, rfl⟩ <;> rfl

theorem Pair.symm {ch other : UInt8} (h : Pair ch other) : Pair other ch :=
  (Or.symm h).imp And.symm And.symm

/-- The session after a line has been entered. -/
def entered (s : Session) (endl : UInt8) : Session :=
  ⟨⟨endl, s.decoder.escCode, false⟩, s.editor.enter.editor⟩

/-- The first byte of a line end enters the line. -/
theorem outcome_first {s : Session} (hescape : s.decoder.escape = false) {ch other : UInt8}
    (hpair : Pair ch other) (hs : s.decoder.lastEndl ≠ other) (data : List UInt8) :
    s.outcome p (ch :: data) = join s.editor.enter ((s.entered ch).outcome p data) := by
  have hdecode : s.decoder.decode p ch = (⟨ch, s.decoder.escCode, false⟩, .enter) := by
    rw [Decoder.decode, if_neg (by rw [hescape]; decide), if_pos hpair.ch_or, hpair.if_eq,
      if_neg hs, hescape]
  rw [outcome_cons, answer, next, answer, key, hdecode]
  rfl

/-- The second byte does nothing. -/
theorem outcome_second (s : Session) {ch other : UInt8} (hpair : Pair ch other)
    (data : List UInt8) :
    (s.entered ch).outcome p (other :: data) = (s.entered 0).outcome p data := by
  have hdecode : (s.entered ch).decoder.decode p other =
      (⟨0, s.decoder.escCode, false⟩, .nothing) := by
    have hescape : (s.entered ch).decoder.escape = false := rfl
    have hendl : (s.entered ch).decoder.lastEndl = ch := rfl
    rw [Decoder.decode, if_neg (by rw [hescape]; decide), if_pos hpair.symm.ch_or,
      hpair.symm.if_eq, if_pos hendl]
    rfl
  rw [outcome_cons, answer, next, answer, key, hdecode]
  rfl

/-- A line end is the key that enters the line, and nothing more. -/
theorem outcome_lineEnd {s : Session} (hescape : s.decoder.escape = false) {e : LineEnd}
    (hs : s.decoder.lastEndl ≠ e.partner) (more : List UInt8) :
    ∃ endl, endl ≠ e.partner ∧
      s.outcome p (e.bytes ++ more) = join s.editor.enter ((s.entered endl).outcome p more) := by
  have hcr : Pair 13 10 := .inl ⟨rfl, rfl⟩
  have hlf : Pair 10 13 := .inr ⟨rfl, rfl⟩
  cases e with
  | cr => exact ⟨13, by decide, outcome_first hescape hcr hs more⟩
  | lf => exact ⟨10, by decide, outcome_first hescape hlf hs more⟩
  | crlf =>
    refine ⟨0, by decide, (outcome_first hescape hcr hs (10 :: more)).trans ?_⟩
    rw [outcome_second s hcr]
  | lfcr =>
    refine ⟨0, by decide, (outcome_first hescape hlf hs (13 :: more)).trans ?_⟩
    rw [outcome_second s hlf]

/-- The outcome of lines does not depend on how they end. -/
theorem outcome_lines {s s' : Session} (h : Alike s s') {e e' : LineEnd} {lines : List (List UInt8)}
    (hlines : ∀ line ∈ lines, ∀ ch ∈ line, Inside ch) (hs : s.decoder.lastEndl ≠ e.partner)
    (hs' : s'.decoder.lastEndl ≠ e'.partner) :
    s.outcome p (lines.flatMap (· ++ e.bytes)) = s'.outcome p (lines.flatMap (· ++ e'.bytes)) := by
  induction lines generalizing s s' with
  | nil => exact congrArg (fun editor => ([], editor, none)) h.editor
  | cons line lines ih =>
    rw [List.flatMap_cons, List.flatMap_cons, List.append_assoc, List.append_assoc]
    refine outcome_line h (hlines line List.mem_cons_self) hs hs' fun t t' ht hend hend' => ?_
    obtain ⟨endl, hendl, hout⟩ := outcome_lineEnd (p := p) ht.escape hend
      (lines.flatMap (· ++ e.bytes))
    obtain ⟨endl', hendl', hout'⟩ := outcome_lineEnd (p := p) ht.escape' hend'
      (lines.flatMap (· ++ e'.bytes))
    have hsame : Alike (t.entered endl) (t'.entered endl') :=
      ⟨congrArg (fun editor => editor.enter.editor) ht.editor, rfl, rfl⟩
    rw [hout, hout', ht.editor,
      ih hsame (fun l hl => hlines l (List.mem_cons_of_mem line hl)) hendl hendl']

end Session

/-- What the code does with lines does not depend on how they end. -/
theorem processChars_lineEnd {p : Platform} {mrl : Mrl} {s : Session} (h : mrl.Follows s)
    (hescape : mrl.escape = false) {e e' : LineEnd} (hs : mrl.lastEndl ≠ e.partner)
    (hs' : mrl.lastEndl ≠ e'.partner) {lines : List (List UInt8)}
    (hlines : ∀ line ∈ lines, ∀ ch ∈ line, Session.Inside ch)
    (hallowed : s.Meets p Editor.Allowed (s.taken p (lines.flatMap (· ++ e.bytes))))
    (hallowed' : s.Meets p Editor.Allowed (s.taken p (lines.flatMap (· ++ e'.bytes)))) :
    ∃ items editor status mrl₁ mrl₂,
      Yields Effect.items (mrl.processChars p (lines.flatMap (· ++ e.bytes))) items
        (mrl₁, status) ∧
      Yields Effect.items (mrl.processChars p (lines.flatMap (· ++ e'.bytes))) items
        (mrl₂, status) ∧ mrl₁.Represents editor ∧ mrl₂.Represents editor := by
  obtain ⟨mrl₁, hrun, hnext, -⟩ := h.processChars hallowed
  obtain ⟨mrl₂, hrun', hnext', -⟩ := h.processChars hallowed'
  have hescape : s.decoder.escape = false := by rw [← h.2]; exact hescape
  rw [show mrl.lastEndl = s.decoder.lastEndl from congrArg Decoder.lastEndl h.2] at hs hs'
  have hsame := Session.outcome_lines (p := p) ⟨rfl, hescape, hescape⟩ hlines hs hs'
  rw [Session.outcome, Session.outcome, Prod.mk.injEq, Prod.mk.injEq] at hsame
  obtain ⟨hitems, heditor, hleft⟩ := hsame
  rw [← hitems, ← hleft] at hrun'
  rw [← heditor] at hnext'
  exact ⟨_, _, _, mrl₁, mrl₂, hrun, hrun', hnext, hnext'⟩

theorem processChars_lineEnd_stop :
    ∃ items editor status mrl₁ mrl₂,
      Yields Effect.items (init.processChars clearPlatform [115, 116, 111, 112, 13]) items
        (mrl₁, status) ∧
      Yields Effect.items (init.processChars clearPlatform [115, 116, 111, 112, 13, 10]) items
        (mrl₂, status) ∧ mrl₁.Represents editor ∧ mrl₂.Represents editor :=
  @processChars_lineEnd clearPlatform init .init init_follows rfl .cr .crlf (by decide) (by decide)
    [[115, 116, 111, 112]] (by simp [Session.Inside]) (by decide) (by decide)

end Microrl
end Carrels
