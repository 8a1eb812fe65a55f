/-
What the line editor is for: the abstract editor.

A decoder turns bytes into keys.  A key edits a text with a cursor, walks through the history
or enters the line.  Bytes behind the text that `^K` has left are part of the state: they are
seen when the line is entered.
-/
import Carrels.Microrl.Words
import Carrels.Microrl.History
import Carrels.Microrl.Printing

namespace Carrels
namespace Microrl

open ByteMemory

/-! ## Keys -/

inductive Key
  | nothing
  | char (c : UInt8)
  | enter
  | backspace
  | delete
  | killBefore
  | killAfter
  | home
  | end
  | left
  | right
  | up
  | down
  | redraw
  | clear
  | interrupt
  | complete
  deriving DecidableEq, Repr

/-- The state of the decoder. -/
structure Decoder where
  lastEndl : UInt8
  escCode : EscCode
  escape : Bool
  deriving DecidableEq, Repr

namespace Decoder

def init : Decoder := ⟨0, .bracket, false⟩

/-- A byte of an escape sequence: the code and the key when the sequence is complete. -/
def sequence (code : EscCode) (ch : UInt8) : EscCode × Option Key :=
  if ch = 91 then (.bracket, none)
  else if ch = 127 then (code, some .delete)
  else
    match code with
    | .bracket =>
      if ch = 65 then (code, some .up)
      else if ch = 66 then (code, some .down)
      else if ch = 67 then (code, some .right)
      else if ch = 68 then (code, some .left)
      else if ch = 55 ∨ ch = 49 then (.home, none)
      else if ch = 56 ∨ ch = 52 then (.end, none)
      else if ch = 51 then (.del, none)
      else (code, some .nothing)
    | .home => (code, some (if ch = 126 then .home else .nothing))
    | .end => (code, some (if ch = 126 then .end else .nothing))
    | .del => (code, some (if ch = 126 then .delete else .nothing))

/-- The key of a control character. -/
def control (ch : UInt8) : Key :=
  if ch = 0x09 then .complete
  else if ch = 0x15 then .killBefore
  else if ch = 0x0b then .killAfter
  else if ch = 0x05 then .end
  else if ch = 0x01 then .home
  else if ch = 0x06 then .right
  else if ch = 0x02 then .left
  else if ch = 0x10 then .up
  else if ch = 0x0e then .down
  else if ch = 0x7f ∨ ch = 0x08 then .backspace
  else if ch = 0x04 then .delete
  else if ch = 0x12 then .redraw
  else if ch = 0x03 then .interrupt
  else if ch = 0x0c then .clear
  else .nothing

/-- The next state and the key of a byte.  The second byte of `CR LF` or `LF CR` is no key. -/
def decode (p : Platform) (d : Decoder) (ch : UInt8) : Decoder × Key :=
  if d.escape then
    match sequence d.escCode ch with
    | (code, none) => ({ d with escCode := code }, .nothing)
    | (code, some key) => ({ d with escCode := code, escape := false }, key)
  else if ch = 13 ∨ ch = 10 then
    if d.lastEndl = (if ch = 13 then 10 else 13) then ({ d with lastEndl := 0 }, .nothing)
    else ({ d with lastEndl := ch }, .enter)
  else if isControlChar p ch then
    if ch = 0x1b then ({ d with lastEndl := 0, escape := true }, .nothing)
    else ({ d with lastEndl := 0 }, control ch)
  else ({ d with lastEndl := 0 }, .char ch)

end Decoder

/-! ## The editor -/

structure Editor where
  line : Zipper UInt8
  rest : List UInt8
  history : History
  deriving DecidableEq, Repr

namespace Editor

def init : Editor := ⟨.empty, [], .empty⟩

/-- The string that the buffer holds. -/
def buffer (e : Editor) : List UInt8 := e.line.text ++ e.rest

/-- The line after a step through the history. -/
def recalled (h : History) : Editor := ⟨.ofText h.current, [], h⟩

/-- The answer of a key: the next state, what is seen of it, and the value with which the
input is left. -/
structure Answer where
  editor : Editor
  items : List Item
  left : Option Status := none
  deriving DecidableEq, Repr

/-- The cursor moves, and the terminal's cursor with it. -/
def moveTo (e : Editor) (i : Nat) : Answer where
  editor := { e with line := e.line.moveTo i }
  items := shown (prvCursorGenerateMove (i - e.line.cursor))

/-- The line is entered. -/
def enter (e : Editor) : Answer :=
  if e.line.text = [] then
    { editor := { e with line := .empty, rest := [] }, items := shown (endLine ++ promptString) }
  else
    let editor := ⟨.empty, [], e.history.save e.line.text e.buffer⟩
    match splitText cmdTokenNmb e.line.text.length e.buffer with
    | some words =>
      { editor, items := shown endLine ++ .exec words :: shown promptString }
    | none =>
      { editor
        items := shown (endLine ++ bytes "ERROR: too many tokens" ++ endLine ++ promptString)
        left := some .errTknNum }

def insertChar (e : Editor) (c : UInt8) : Answer :=
  if c = 32 ∧ e.line.text = [] then { editor := e, items := [], left := some .ok }
  else if cmdlineLen < e.line.text.length + 1 then
    { editor := e, items := [], left := some .errClFull }
  else
    let line := e.line.insert [c]
    { editor := ⟨line, [], e.history⟩
      items := shown (if line.after = [] then [c] else lineText line (line.cursor - 1) false) }

def backspace (e : Editor) : Answer :=
  if e.line.cursor = 0 then { editor := e, items := [] }
  else
    let line := e.line.backspace 1
    { editor := ⟨line, e.rest.take 1, e.history⟩
      items := shown (if line.after = [] then [8, 32, 8] else lineText line line.cursor true) }

def delete (e : Editor) : Answer :=
  let editor := if e.line.after = [] then e
    else { e with line := e.line.delete, rest := e.rest.take 1 }
  { editor, items := shown (lineText editor.line editor.line.cursor false) }

def killBefore (e : Editor) : Answer :=
  let editor := if e.line.cursor = 0 then e
    else { e with line := e.line.backspace e.line.cursor, rest := e.rest.take e.line.cursor }
  { editor, items := shown (lineText editor.line 0 true) }

def killAfter (e : Editor) : Answer where
  editor := ⟨e.line.killAfter, e.line.after ++ e.rest, e.history⟩
  items := shown [27, 91, 75]

/-- The commands that complete the line: those that begin with it, or all of them while the
cursor is not at its end. -/
def completions (e : Editor) : List (List UInt8) :=
  if e.line.cursor < e.buffer.length then shellCommands
  else shellCommands.filter e.buffer.isPrefixOf

def complete (e : Editor) : Answer :=
  match e.completions with
  | [] => { editor := e, items := [], left := some .errCplt }
  | [word] =>
    let line := .ofText (word ++ [32])
    { editor := ⟨line, [], e.history⟩, items := shown (lineText line e.line.cursor false) }
  | first :: others =>
    let len := prvCompleteTotalLen first others
    let editor := if len = 0 then e else ⟨.ofText (first.take len), [], e.history⟩
    { editor
      items := shown (endLine ++ (first :: others).flatMap (· ++ [32]) ++ endLine ++
        promptString ++ lineText editor.line 0 false) }

/-- The abstract editor takes a key. -/
def press (e : Editor) : Key → Answer
  | .nothing => { editor := e, items := [] }
  | .char c => e.insertChar c
  | .enter => e.enter
  | .backspace => e.backspace
  | .delete => e.delete
  | .killBefore => e.killBefore
  | .killAfter => e.killAfter
  | .home => e.moveTo 0
  | .end => e.moveTo e.line.text.length
  | .left => e.moveTo (e.line.cursor - 1)
  | .right => e.moveTo (min (e.line.cursor + 1) e.line.text.length)
  | .up =>
    let editor := recalled e.history.up
    { editor, items := shown (lineText editor.line 0 true) }
  | .down =>
    let editor := recalled e.history.down
    { editor, items := shown (lineText editor.line 0 true) }
  | .redraw =>
    { editor := e, items := shown (endLine ++ promptString ++ lineText e.line 0 false) }
  | .clear =>
    { editor := e
      items := shown ([27, 91, 50, 74, 27, 91, 72] ++ promptString ++ lineText e.line 0 false) }
  | .interrupt => { editor := e, items := [.sigint] }
  | .complete => e.complete

end Editor

end Microrl
end Carrels
