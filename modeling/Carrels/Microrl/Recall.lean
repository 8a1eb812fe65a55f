/-
The history over a session.

`saved` are the lines that a session has saved.  The history holds the latest of them for which
the ring buffer has room, and `^P` brings them back one after the other.
-/
import Carrels.Lib.Window
import Carrels.Microrl.Session

namespace Carrels
namespace Microrl

open ByteMemory Logged Window

/-- The latest lines for which the ring buffer has room: each takes a zero byte more. -/
def recentLines (lines : List (List UInt8)) : List (List UInt8) :=
  recent (fun l => l.length + 1) (ringHistoryLen - 1) lines

theorem length_encodeLines (lines : List (List UInt8)) :
    (encodeLines lines).length = total (fun l => l.length + 1) lines := by
  induction lines with
  | nil => rfl
  | cons l lines ih => rw [length_encodeLines_cons, total_cons, ih]

/-- They are the longest end of the lines that fits. -/
theorem recentLines_spec (lines : List (List UInt8)) :
    recentLines lines <:+ lines ∧ ∀ t, t <:+ lines →
      (t <:+ recentLines lines ↔ (encodeLines t).length ≤ ringHistoryLen - 1) := by
  refine ⟨recent_suffix _ _ lines, fun t ht => ?_⟩
  rw [length_encodeLines]
  refine ⟨fun hsuffix => ?_, suffix_recent ht⟩
  exact Nat.le_trans (total_le_of_suffix hsuffix) (total_recent_le _ _ lines)

theorem History.makeRoom_eq {len : Nat} (hlen : len + 1 ≤ ringHistoryLen - 1)
    (lines : List (List UInt8)) :
    makeRoom len lines = recent (fun l => l.length + 1) (ringHistoryLen - 1 - (len + 1)) lines := by
  induction lines with
  | nil => rfl
  | cons l lines ih =>
    rw [makeRoom, recent, length_encodeLines, ih]
    refine if_congr ?_ rfl rfl
    omega

/-- The line that a key saves. -/
def Editor.saves (e : Editor) : Key → List (List UInt8)
  | .enter =>
    if e.line.text = [] ∨ ringHistoryLen - 1 < e.line.text.length ∨
        e.buffer = e.history.compared then []
    else [e.line.text]
  | _ => []

/-- The lines that a session saves. -/
def Session.saved (p : Platform) (s : Session) : List UInt8 → List (List UInt8)
  | [] => []
  | ch :: data => s.editor.saves (s.key p ch) ++ (s.next p ch).saved p data

theorem Editor.history_press {e : Editor} {key : Key} (hkey : key ≠ .enter) :
    (e.press key).editor.history.lines = e.history.lines := by
  cases key with
  | enter => exact absurd rfl hkey
  | char c =>
    rw [Editor.press, Editor.insertChar]
    split
    · rfl
    · split <;> rfl
  | backspace =>
    rw [Editor.press, Editor.backspace]
    split <;> rfl
  | delete =>
    rw [Editor.press, Editor.delete]
    dsimp only
    split <;> rfl
  | killBefore =>
    rw [Editor.press, Editor.killBefore]
    dsimp only
    split <;> rfl
  | complete =>
    rw [Editor.press, Editor.complete]
    split
    · rfl
    · rfl
    · dsimp only
      split <;> rfl
  | _ => rfl

/-- A key adds the line that it saves. -/
theorem Editor.recentLines_press {e : Editor} {key : Key} {lines : List (List UInt8)}
    (h : e.history.lines = recentLines lines) (hshort : e.Short key) :
    (e.press key).editor.history.lines = recentLines (lines ++ e.saves key) := by
  by_cases hkey : key = .enter
  · subst hkey
    rw [Editor.press, Editor.enter, Editor.saves]
    have hshort : e.line.text.length ≠ ringHistoryLen - 1 := hshort
    by_cases hnil : e.line.text = []
    · rw [if_pos hnil, if_pos (.inl hnil), List.append_nil]
      exact h
    have henter : ∀ a : Editor.Answer, a.editor.history = e.history.save e.line.text e.buffer →
        a.editor.history.lines = recentLines (lines ++
          if e.line.text = [] ∨ ringHistoryLen - 1 < e.line.text.length ∨
            e.buffer = e.history.compared then [] else [e.line.text]) := by
      intro a ha
      rw [ha, History.save]
      by_cases hlong : ringHistoryLen - 1 < e.line.text.length
      · rw [if_pos hlong, if_pos (.inr (.inl hlong)), List.append_nil]
        exact h
      by_cases hsame : e.buffer = e.history.compared
      · rw [if_neg hlong, if_pos hsame, if_pos (.inr (.inr hsame)), List.append_nil]
        exact h
      have hfits : e.line.text.length + 1 ≤ ringHistoryLen - 1 := by omega
      rw [if_neg hlong, if_neg hsame, if_neg (not_or.mpr ⟨hnil, not_or.mpr ⟨hlong, hsame⟩⟩), h,
        History.makeRoom_eq hfits]
      exact (recent_append_singleton lines hfits).symm
    rw [if_neg hnil]
    dsimp only
    split
    · exact henter _ rfl
    · exact henter _ rfl
  · have hsaves : e.saves key = [] := by
      cases key with
      | enter => exact absurd rfl hkey
      | _ => rfl
    rw [Editor.history_press hkey, hsaves, List.append_nil]
    exact h

namespace Session

variable {p : Platform}

theorem recentLines_after {s : Session} {lines : List (List UInt8)}
    (h : s.editor.history.lines = recentLines lines) {data : List UInt8}
    (hshort : s.Meets p Editor.Short data) :
    (s.after p data).editor.history.lines = recentLines (lines ++ s.saved p data) := by
  induction data generalizing s lines with
  | nil =>
    rw [saved, List.append_nil]
    exact h
  | cons ch data ih =>
    rw [saved, ← List.append_assoc]
    exact ih (Editor.recentLines_press h hshort.1) hshort.2

/-- `^P` is the key for the line before. -/
theorem decode_up {d : Decoder} (hescape : d.escape = false) :
    d.decode p 0x10 = ({ d with lastEndl := 0 }, .up) := by
  have hcontrol : isControlChar p 0x10 = true := decide_eq_true (.inl (by decide))
  rw [Decoder.decode, if_neg (by rw [hescape]; decide), if_neg (by decide), if_pos hcontrol,
    if_neg (by decide)]
  rfl

theorem key_up {s : Session} (hescape : s.decoder.escape = false) : s.key p 0x10 = .up := by
  rw [key, decode_up hescape]

theorem escape_next {s : Session} (hescape : s.decoder.escape = false) :
    (s.next p 0x10).decoder.escape = false := by
  rw [next, decode_up hescape]
  exact hescape

/-- Going up `k` times. -/
theorem after_up {s : Session} (hescape : s.decoder.escape = false) {k : Nat} (hk : 0 < k)
    (hle : s.editor.history.nav + k ≤ s.editor.history.lines.length) :
    (s.after p (List.replicate k 0x10)).editor =
      .recalled { s.editor.history with nav := s.editor.history.nav + k } := by
  induction k generalizing s with
  | zero => exact absurd hk (Nat.lt_irrefl 0)
  | succ k ih =>
    have hnext : (s.next p 0x10).editor =
        .recalled { s.editor.history with nav := s.editor.history.nav + 1 } := by
      show (s.editor.press (s.key p 0x10)).editor = _
      rw [key_up hescape, Editor.press, History.up, Nat.min_eq_left (by omega)]
    rw [List.replicate_succ, after]
    cases k with
    | zero => exact hnext
    | succ k =>
      have hhist : (s.next p 0x10).editor.history =
          { s.editor.history with nav := s.editor.history.nav + 1 } := congrArg Editor.history hnext
      rw [ih (escape_next hescape) (Nat.succ_pos k)
        (by
          rw [hhist]
          show s.editor.history.nav + 1 + (k + 1) ≤ s.editor.history.lines.length
          omega), hhist]
      show Editor.recalled { s.editor.history with nav := s.editor.history.nav + 1 + (k + 1) } = _
      rw [Nat.add_assoc, Nat.add_comm 1]

theorem meets_up {s : Session} (hescape : s.decoder.escape = false) (k : Nat) :
    s.Meets p Editor.Allowed (List.replicate k 0x10) := by
  induction k generalizing s with
  | zero => trivial
  | succ k ih =>
    refine ⟨?_, ih (escape_next hescape)⟩
    rw [key_up hescape]
    exact ⟨trivial, trivial⟩

theorem taken_up {s : Session} (hescape : s.decoder.escape = false) (k : Nat) :
    s.taken p (List.replicate k 0x10) = List.replicate k 0x10 := by
  induction k generalizing s with
  | zero => rfl
  | succ k ih =>
    rw [List.replicate_succ, taken, ih (escape_next hescape), answer, key_up hescape]
    rfl

end Session

theorem Session.left_up {p : Platform} {s : Session} (hescape : s.decoder.escape = false)
    (k : Nat) : s.left p (List.replicate k 0x10) = none := by
  induction k generalizing s with
  | zero => rfl
  | succ k ih =>
    rw [List.replicate_succ, left, ih (escape_next hescape), answer, key_up hescape]
    rfl

/-- The line for the navigation counter. -/
theorem History.current_eq {h : History} {lines more : List (List UInt8)} {line : List UInt8}
    (hlines : h.lines = lines ++ line :: more) (hnav : h.nav = more.length + 1) :
    h.current = line := by
  have hlength : h.lines.length - h.nav = lines.length := by
    rw [hlines, hnav, List.length_append, List.length_cons]
    omega
  rw [current, if_neg (by omega), hlength, hlines, List.getD_append_right _ _ _ _ (Nat.le_refl _),
    Nat.sub_self]
  rfl

section Runs

variable {p : Platform} {queues : List (List UInt8)} {mrl : Mrl}

/-- The session that the state after a run follows has the latest lines in its history. -/
theorem follows_of_run
    (h : Session.init.Meets p Editor.Allowed (Session.init.typedEvents p queues))
    (hrun : (init.serialEvents p queues).result = some mrl) :
    mrl.Follows (Session.init.after p (Session.init.typedEvents p queues)) ∧
      (Session.init.after p (Session.init.typedEvents p queues)).editor.history.lines =
        recentLines (Session.init.saved p (Session.init.typedEvents p queues)) := by
  obtain ⟨mrl', hyields, hfollows⟩ := init_follows.serialEvents h
  obtain rfl : mrl' = mrl := Option.some.inj (hyields.1.symm.trans hrun)
  have hlines := @Session.recentLines_after p .init [] rfl _ (Session.meets_and.mp h).1
  rw [List.nil_append] at hlines
  exact ⟨hfollows, hlines⟩

/-- The ring buffer holds the latest of the lines that have been saved. -/
theorem ringHist_holds_recent
    (h : Session.init.Meets p Editor.Allowed (Session.init.typedEvents p queues))
    (hrun : (init.serialEvents p queues).result = some mrl) :
    mrl.ringHist.HoldsLines
      (recentLines (Session.init.saved p (Session.init.typedEvents p queues))) := by
  obtain ⟨hfollows, hlines⟩ := follows_of_run h hrun
  rw [← hlines]
  exact hfollows.1.hist.lines

/-- Four lines that do not fit the ring buffer together. -/
def evictingQueues : List (List UInt8) :=
  [List.replicate 60 97 ++ [13], List.replicate 60 98 ++ [13], bytes "stop" ++ [13],
    bytes "help" ++ [13]]

theorem evictingQueues_meets : Session.init.Meets clearPlatform Editor.Allowed
    (Session.init.typedEvents clearPlatform evictingQueues) := by
  decide +kernel

theorem recentLines_evictingQueues :
    recentLines (Session.init.saved clearPlatform
      (Session.init.typedEvents clearPlatform evictingQueues)) =
        [List.replicate 60 98, bytes "stop", bytes "help"] := by
  decide +kernel

theorem ringHist_holds_recent_evictingQueues :
    ∃ mrl, (init.serialEvents clearPlatform evictingQueues).result = some mrl ∧
      mrl.ringHist.HoldsLines [List.replicate 60 98, bytes "stop", bytes "help"] := by
  obtain ⟨mrl, hrun, -⟩ := init_follows.serialEvents evictingQueues_meets
  have hholds := ringHist_holds_recent evictingQueues_meets hrun.1
  rw [recentLines_evictingQueues] at hholds
  exact ⟨mrl, hrun.1, hholds⟩

/-- `^P` brings back the latest lines one after the other: `k` times the `k`th last one. -/
theorem processChars_recall
    (h : Session.init.Meets p Editor.Allowed (Session.init.typedEvents p queues))
    (hrun : (init.serialEvents p queues).result = some mrl) (hescape : mrl.escape = false)
    (hnav : mrl.ringHist.count = 0) {lines more : List (List UInt8)} {line : List UInt8}
    (hlines : recentLines (Session.init.saved p (Session.init.typedEvents p queues)) =
      lines ++ line :: more) :
    ∃ mrl', (mrl.processChars p (List.replicate (more.length + 1) 0x10)).result =
        some (mrl', .ok) ∧
      mrl'.cmdlen = line.length ∧ load mrl'.cmdlineStr 0 line.length = line := by
  obtain ⟨hfollows, hsaved⟩ := follows_of_run h hrun
  rw [hlines] at hsaved
  generalize Session.init.after p (Session.init.typedEvents p queues) = s at hfollows hsaved
  have hescape : s.decoder.escape = false := by rw [← hfollows.2]; exact hescape
  have hnav : s.editor.history.nav = 0 := by rw [← hfollows.1.hist.count]; exact hnav
  have hlength : s.editor.history.lines.length = lines.length + (more.length + 1) := by
    rw [hsaved, List.length_append, List.length_cons]
  have hafter := Session.after_up (p := p) hescape (k := more.length + 1) (Nat.succ_pos _)
    (by rw [hnav, hlength]; omega)
  have htaken := Session.taken_up (p := p) hescape (more.length + 1)
  have hallowed : s.Meets p Editor.Allowed
      (s.taken p (List.replicate (more.length + 1) 0x10)) := by
    rw [htaken]
    exact Session.meets_up hescape _
  obtain ⟨mrl', hup, hnext, -⟩ := hfollows.processChars hallowed
  rw [htaken, hafter, hnav, Nat.zero_add] at hnext
  rw [Session.left_up hescape] at hup
  have hcurrent : (History.mk s.editor.history.lines (more.length + 1)).current = line :=
    History.current_eq hsaved rfl
  have htext : (Editor.recalled ⟨s.editor.history.lines, more.length + 1⟩).line.text = line := by
    rw [Editor.recalled, Zipper.text_ofText, hcurrent]
  have hload : load mrl'.cmdlineStr 0
      (Editor.recalled ⟨s.editor.history.lines, more.length + 1⟩).line.text.length =
        (Editor.recalled ⟨s.editor.history.lines, more.length + 1⟩).line.text :=
    hnext.line.load_append
  rw [htext] at hload
  exact ⟨mrl', hup.1, by rw [hnext.cmdlen, htext], hload⟩

theorem processChars_recall_evictingQueues :
    ∃ mrl mrl', (init.serialEvents clearPlatform evictingQueues).result = some mrl ∧
      (mrl.processChars clearPlatform [0x10, 0x10]).result = some (mrl', .ok) ∧
      mrl'.cmdlen = 4 ∧ load mrl'.cmdlineStr 0 4 = bytes "stop" := by
  obtain ⟨mrl, hrun, hfollows⟩ := init_follows.serialEvents evictingQueues_meets
  have hescape : mrl.escape = false :=
    (congrArg Decoder.escape hfollows.2).trans (by decide +kernel)
  have hnav : mrl.ringHist.count = 0 := hfollows.1.hist.count.trans (by decide +kernel)
  obtain ⟨mrl', hup, hline⟩ := @processChars_recall clearPlatform evictingQueues mrl
    evictingQueues_meets hrun.1 hescape hnav [List.replicate 60 98] [bytes "help"] (bytes "stop")
    recentLines_evictingQueues
  exact ⟨mrl, mrl', hrun.1, hup, hline⟩

end Runs

end Microrl
end Carrels
