/-
The console: from the bytes that are typed to the calls of the monitor.

The line editor hands the words of a line to `shell_execute`.  Typing `stop -i N`, `suspend -i N`
and `resume -i N` calls the monitor once for each line, with the number that is typed.
-/
import Carrels.Microrl.Commands
import Carrels.Orchestrator.Numbers
import Carrels.Orchestrator.Payload

namespace Carrels
namespace Host

open ByteMemory Fields Logged Microrl Orchestrator Numerals

/-- The orchestrator executes the commands one after the other. -/
def executeAll {M : Type} (cfg : Config) (port : Port M) (spawnOk : Bool)
    (s : Orchestrator.State M) (commands : List (List (List UInt8))) :
    Option (Orchestrator.State M) :=
  commands.foldlM (fun s argv => Orchestrator.step cfg port s (.shell argv spawnOk)) s

/-- The commands that take the number of a protocon, with the calls they make. -/
def pdCommands : List (List UInt8 × BitVec 64) :=
  [(bytes "stop", 6), (bytes "suspend", 3), (bytes "resume", 4)]

/-- A line for a command that takes the number of a protocon. -/
structure ControlLine where
  command : List UInt8 × BitVec 64
  text : List UInt8
  number : Nat
  known : command ∈ pdCommands
  decimal : Decimal text number
  lt : number < 2 ^ 32

namespace ControlLine

variable {p : Platform}

/-- The words of the line. -/
def words (c : ControlLine) : List (List UInt8) := [c.command.1, bytes "-i", c.text]

/-- The call of the monitor. -/
def call (c : ControlLine) : List (BitVec 64) := [c.command.2, BitVec.ofNat 64 c.number]

theorem execute {M : Type} (cfg : Config) (port : Port M) (spawnOk : Bool)
    (s : Orchestrator.State M) (c : ControlLine) :
    Orchestrator.step cfg port s (.shell c.words spawnOk) = callMonitor port s c.call := by
  obtain ⟨⟨name, callId⟩, text, n, hknown, hdecimal, hlt⟩ := c
  show shellExecute cfg port s spawnOk [name, bytes "-i", text] = _
  rw [call, ← cmdPdControl_decimal port s name callId hdecimal hlt, shellExecute]
  simp only [pdCommands, List.mem_cons, List.not_mem_nil, or_false, Prod.mk.injEq] at hknown
  rcases hknown with ⟨rfl, rfl⟩ | ⟨rfl, rfl⟩ | ⟨rfl, rfl⟩ <;> rfl

/-- Bytes of ASCII text are characters on every platform. -/
theorem not_control {c : UInt8} (h : 32 ≤ c ∧ c < 127) : isControlChar p c = false := by
  simp only [UInt8.le_iff_toNat_le, UInt8.lt_iff_toNat_lt] at h
  refine decide_eq_false ?_
  rintro (hc | rfl | ⟨-, hc⟩)
  · simp only [UInt8.le_iff_toNat_le] at hc
    exact absurd (Nat.le_trans h.1 hc) (by decide)
  · exact absurd h.2 (by decide)
  · simp only [UInt8.le_iff_toNat_le] at hc
    exact absurd (Nat.lt_of_le_of_lt hc h.2) (by decide)

theorem plainWord {w : List UInt8} (hne : w ≠ [])
    (h : ∀ c ∈ w, 32 < c ∧ c < 127 ∧ isQuote c = false) : PlainWord p w := by
  refine ⟨hne, fun c hc => ?_, List.all_eq_true.mpr fun c hc => ?_⟩
  · obtain ⟨hlow, -, hquote⟩ := h c hc
    exact ⟨fun h32 => absurd (h32 ▸ hlow) (by decide), hquote⟩
  · obtain ⟨hlow, hhigh, -⟩ := h c hc
    rw [not_control ⟨UInt8.le_of_lt hlow, hhigh⟩]
    rfl

theorem plainWord_text (c : ControlLine) : PlainWord p c.text := by
  refine plainWord c.decimal.ne_nil fun b hb => ?_
  obtain ⟨hlow, hhigh⟩ := c.decimal.digits b hb
  refine ⟨?_, ?_, decide_eq_false ?_⟩
  · exact UInt8.lt_iff_toNat_lt.mpr (Nat.lt_of_lt_of_le (by decide) hlow)
  · exact UInt8.lt_iff_toNat_lt.mpr (Nat.lt_of_le_of_lt hhigh (by decide))
  · rintro (rfl | rfl)
    · exact absurd hlow (by decide)
    · exact absurd hlow (by decide)

/-- The bytes of the commands are neither spaces nor quotes nor control characters. -/
theorem plainWord_command (c : ControlLine) :
    PlainWord p c.command.1 ∧ PlainWord p (bytes "-i") := by
  have hall : ∀ w : List UInt8, w ≠ [] →
      (w.all fun b => decide (32 < b ∧ b < 127 ∧ isQuote b = false)) = true → PlainWord p w :=
    fun w hne h => plainWord hne fun b hb => of_decide_eq_true (List.all_eq_true.mp h b hb)
  refine ⟨?_, hall _ (by decide) (by decide)⟩
  have hknown := c.known
  simp only [pdCommands, List.mem_cons, List.not_mem_nil, or_false] at hknown
  rcases hknown with h | h | h <;> rw [h] <;> exact hall _ (by decide) (by decide)

/-- The line is as long as the line editor takes it. -/
def Fits (c : ControlLine) : Prop :=
  ([32].intercalate c.words).length ≤ cmdlineLen ∧
    ([32].intercalate c.words).length ≠ ringHistoryLen - 1

instance (c : ControlLine) : Decidable c.Fits := inferInstanceAs (Decidable (_ ∧ _))

theorem typedCommand {c : ControlLine} (h : c.Fits) : Microrl.Command p c.words where
  ne_nil := List.cons_ne_nil _ _
  slots := by
    show 3 ≤ 8
    decide
  plain w hw := by
    simp only [words, List.mem_cons, List.not_mem_nil, or_false] at hw
    rcases hw with rfl | rfl | rfl
    · exact c.plainWord_command.1
    · exact c.plainWord_command.2
    · exact c.plainWord_text
  room := h.1
  short := h.2

end ControlLine

/-- Every line that is typed calls the monitor once, in the order of the lines, with the call of its
command and the number that its argument denotes. -/
theorem typedControls_call {p : Microrl.Platform} {M : Type} (cfg : Config) (port : Port M)
    (spawnOk : Bool) (s : Orchestrator.State M) {controls : List ControlLine}
    (hfits : ∀ c ∈ controls, c.Fits) {queues : List (List UInt8)}
    (hqueues : queues.flatten = controls.flatMap fun c => commandText c.words) :
    ∃ mrl, (Microrl.init.serialEvents p queues).result = some mrl ∧
      executeAll cfg port spawnOk s
          (executed ((Microrl.init.serialEvents p queues).log.flatMap Effect.items)) =
        controls.foldlM (fun s c => callMonitor port s c.call) s := by
  have hcommands : ∀ words ∈ controls.map ControlLine.words, Microrl.Command p words := by
    intro words hwords
    obtain ⟨c, hc, rfl⟩ := List.mem_map.mp hwords
    exact ControlLine.typedCommand (hfits c hc)
  rw [← List.flatMap_map] at hqueues
  obtain ⟨mrl, hresult, hexecuted⟩ :=
    init_follows.serialEvents_commands (p := p) rfl rfl hcommands hqueues
  refine ⟨mrl, hresult, ?_⟩
  rw [hexecuted, executeAll, List.foldlM_map]
  exact congrArg (fun f => controls.foldlM f s)
    (funext fun s => funext fun c => c.execute cfg port spawnOk s)

/-- `stop -i 3` -/
def stopThree : ControlLine where
  command := (bytes "stop", 6)
  text := [51]
  number := 3
  known := List.mem_cons_self
  decimal := ⟨by decide, List.forall_mem_singleton.mpr (by decide), by decide⟩
  lt := by decide

theorem typedControls_call_stopThree :
    ∃ mrl, (Microrl.init.serialEvents clearPlatform
        [commandText stopThree.words]).result = some mrl ∧
      executeAll sixteenPorts acceptingPort true loadedState
          (executed ((Microrl.init.serialEvents clearPlatform
            [commandText stopThree.words]).log.flatMap Effect.items)) =
        [stopThree].foldlM (fun s c => callMonitor acceptingPort s c.call) loadedState :=
  typedControls_call sixteenPorts acceptingPort true loadedState
    (List.forall_mem_singleton.mpr (by decide)) (by simp)

end Host
end Carrels
