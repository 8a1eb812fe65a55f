/-
The share buffers and descriptors of a file access (`pico_vfs.c`, `fs_buffer_allocate` and
`fs_buffer_free`).

`openfile` and `readfile` take a share buffer for each command that needs one, and `openfile` a
descriptor.  A `Call` is `pico_vfs_readfile2buf` or `pico_vfs_file_exists` blocked in a command;
`Call.resume` runs it up to its next command and logs what it takes and gives back.  While it
waits others may take and free buffers of the pool.
-/
import Mathlib.Logic.Function.Basic
import Carrels.Lib.Held
import Carrels.Util.PicoVfs

namespace Carrels
namespace PicoVfs

open Held

/-! ## The pool -/

/-- `buffer_metadata[i].used` -/
abbrev Pool := Nat → Bool

/-- `fs_buffer_allocate`: the first buffer that is not in use. -/
def fsBufferAllocate (numBuffers : Nat) (pool : Pool) : Option Nat :=
  (List.range numBuffers).find? fun i => !pool i

inductive Resource
  | buffer (i : Nat)
  | descriptor (fd : BitVec 64)
  deriving DecidableEq

/-! ## Calls -/

/-- A blocked call: `pico_vfs_readfile2buf` if `reads`, else `pico_vfs_file_exists`.  `buffer` is
the variable of `openfile` or `readfile` of this name. -/
structure Call where
  reads : Bool
  buffer : Nat
  phase : Phase

inductive Next
  | waiting (call : Call)
  | returned
  /-- There is no share buffer, and the call loops forever. -/
  | noBuffer
  /-- `fs_buffer_free` asserts. -/
  | asserted

/-- What a call has done up to its next command. -/
structure Resumed where
  log : List (Event Resource)
  next : Next

/-- `fs_buffer_allocate`, and what comes after it. -/
def allocateThen (numBuffers : Nat) (pool : Pool) (k : Nat → Resumed) : Resumed :=
  match fsBufferAllocate numBuffers pool with
  | none => { log := [], next := .noBuffer }
  | some i => { log := .take (.buffer i) :: (k i).log, next := (k i).next }

/-- `fs_buffer_free`, and what comes after it. -/
def freeThen (pool : Pool) (i : Nat) (k : Pool → Resumed) : Resumed :=
  if pool i then
    let r := k (Function.update pool i false)
    { log := .give (.buffer i) :: r.log, next := r.next }
  else { log := [.give (.buffer i)], next := .asserted }

/-- `readfile` up to its command. -/
def issueRead (numBuffers : Nat) (pool : Pool) (fd pos : BitVec 64) : Resumed :=
  allocateThen numBuffers pool fun i =>
    { log := [], next := .waiting { reads := true, buffer := i, phase := .reading fd pos } }

/-- The call after `openfile` has returned `fd`. -/
def Call.opened (numBuffers : Nat) (call : Call) (pool : Pool) (fd : BitVec 64) : Resumed :=
  if fd = failed then { log := [], next := .returned }
  else if call.reads then issueRead numBuffers pool fd 0
  else { log := [], next := .waiting { call with phase := .closing fd 0 } }

/-- The loop of `pico_vfs_readfile2buf` after `readfile` at `pre` has returned `pos`. -/
def Call.afterRead (numBuffers : Nat) (call : Call) (pool : Pool) (fd pre pos : BitVec 64) :
    Resumed :=
  if pos = failed then { log := [], next := .returned }
  else if pos = pre then { log := [], next := .waiting { call with phase := .closing fd pos } }
  else issueRead numBuffers pool fd pos

/-- The call gets its completion, with the pool as it is by then. -/
def Call.resume (numBuffers : Nat) (call : Call) (pool : Pool) (c : Completion) : Resumed :=
  match call.phase with
  | .opening =>
    freeThen pool call.buffer fun pool =>
      if c.success then
        { log := [.take (.descriptor c.fd)], next := .waiting { call with phase := .sizing c.fd } }
      else call.opened numBuffers pool failed
  | .sizing fd =>
    if c.success then call.opened numBuffers pool fd
    else { log := [], next := .waiting { call with phase := .abandoning fd } }
  | .abandoning fd =>
    let r := freeThen pool call.buffer fun pool => call.opened numBuffers pool failed
    { log := .give (.descriptor fd) :: r.log, next := r.next }
  | .reading fd pos =>
    freeThen pool call.buffer fun pool =>
      if c.success then
        call.afterRead numBuffers pool fd pos (pos + BitVec.ofNat 64 c.data.length)
      else call.afterRead numBuffers pool fd pos failed
  | .closing fd _ => { log := [.give (.descriptor fd)], next := .returned }

/-- The call up to its first command. -/
def Call.start (numBuffers : Nat) (reads : Bool) (pool : Pool) : Resumed :=
  allocateThen numBuffers pool fun i =>
    { log := [], next := .waiting { reads, buffer := i, phase := .opening } }

/-! ## The reader -/

/-- The call goes where the reader goes, as long as it gets its buffers. -/
def Follows (next : Next) (outcome : Outcome) : Prop :=
  match next with
  | .waiting call =>
    call.reads = true ∧ ∃ r, outcome = .waiting r ∧ r.phase = call.phase
  | .returned => ∃ size err, outcome = .returned size err
  | .noBuffer | .asserted => True

section

variable {numBuffers : Nat} {call : Call} {r : Reader} {pool : Pool} {outcome : Outcome}

theorem freeThen_follows {i : Nat} {k : Pool → Resumed}
    (h : ∀ pool, Follows (k pool).next outcome) : Follows (freeThen pool i k).next outcome := by
  rw [freeThen]
  split
  · exact h _
  · trivial

theorem issueRead_follows {fd pos : BitVec 64} (h : r.phase = .reading fd pos) :
    Follows (issueRead numBuffers pool fd pos).next (.waiting r) := by
  rw [issueRead, allocateThen]
  split
  · trivial
  · exact ⟨rfl, r, rfl, h⟩

theorem Call.opened_follows (hreads : call.reads = true) (fd : BitVec 64) :
    Follows (call.opened numBuffers pool fd).next (r.opened fd) := by
  rw [Call.opened, Reader.opened, hreads, if_pos rfl]
  split
  · exact ⟨0, true, rfl⟩
  · exact issueRead_follows rfl

theorem Call.afterRead_follows (hreads : call.reads = true) (fd pre pos : BitVec 64) :
    Follows (call.afterRead numBuffers pool fd pre pos).next (r.afterRead fd pre pos) := by
  rw [Call.afterRead, Reader.afterRead]
  split
  · exact ⟨0, true, rfl⟩
  · split
    · exact ⟨hreads, _, rfl, rfl⟩
    · exact issueRead_follows rfl

/-- `pico_vfs_readfile2buf` with its buffers is the reader. -/
theorem Call.resume_follows (hreads : call.reads = true) (hphase : r.phase = call.phase)
    {c : Completion} (hused : c.bufferUsed = pool call.buffer) :
    Follows (call.resume numBuffers pool c).next (r.resume c).2 := by
  rw [Call.resume, Reader.resume, hphase]
  cases hcall : call.phase with
  | opening =>
    apply freeThen_follows
    intro pool
    split
    · exact ⟨hreads, _, rfl, rfl⟩
    · exact Call.opened_follows (r := r) hreads failed
  | sizing fd =>
    dsimp only
    split
    · exact Call.opened_follows hreads fd
    · exact ⟨hreads, _, rfl, rfl⟩
  | abandoning fd =>
    dsimp only
    rw [hused]
    cases hpool : pool call.buffer with
    | true =>
      rw [if_pos rfl]
      exact freeThen_follows fun pool => Call.opened_follows (r := r) hreads failed
    | false =>
      rw [freeThen, hpool, if_neg Bool.false_ne_true]
      trivial
  | reading fd pos =>
    apply freeThen_follows
    intro pool
    split
    · exact Call.afterRead_follows (r := r) hreads ..
    · exact Call.afterRead_follows (r := r) hreads ..
  | closing fd pos => exact ⟨pos, false, rfl⟩

end

/-! ## Runs -/

/-- What a call wakes up to. -/
structure Wake where
  completion : Completion
  pool : Pool

/-- The call has a share buffer in the server's hands. -/
def Call.Holds (call : Call) : Prop :=
  match call.phase with
  | .opening | .reading _ _ => True
  | _ => False

/-- A run up to its end, where there are buffers enough and nobody else frees a buffer the call
has: what it wakes up to, its log, and how it ends. -/
inductive Ends (numBuffers : Nat) : Resumed → List Wake → List (Event Resource) → Next → Prop
  | returned {r : Resumed} (h : r.next = .returned) : Ends numBuffers r [] r.log .returned
  | asserted {r : Resumed} (h : r.next = .asserted) : Ends numBuffers r [] r.log .asserted
  | wakes {r : Resumed} {call : Call} {w : Wake} {ws : List Wake} {log : List (Event Resource)}
      {last : Next} (h : r.next = .waiting call) (hkeep : call.Holds → w.pool call.buffer = true)
      (hrest : Ends numBuffers (call.resume numBuffers w.pool w.completion) ws log last) :
      Ends numBuffers r (w :: ws) (r.log ++ log) last

instance : (call : Call) → Decidable call.Holds
  | ⟨_, _, .opening⟩ | ⟨_, _, .reading _ _⟩ => inferInstanceAs (Decidable True)
  | ⟨_, _, .sizing _⟩ | ⟨_, _, .abandoning _⟩ | ⟨_, _, .closing _ _⟩ =>
    inferInstanceAs (Decidable False)

/-- The run of a call that wakes up to these, if it ends with the last of them. -/
def replay (numBuffers : Nat) : Resumed → List Wake → Option (List (Event Resource) × Next)
  | r, [] =>
    match r.next with
    | .returned => some (r.log, .returned)
    | .asserted => some (r.log, .asserted)
    | _ => none
  | r, w :: ws =>
    match r.next with
    | .waiting call =>
      if call.Holds → w.pool call.buffer = true then
        (replay numBuffers (call.resume numBuffers w.pool w.completion) ws).map
          fun (log, last) => (r.log ++ log, last)
      else none
    | _ => none

theorem ends_of_replay {numBuffers : Nat} {r : Resumed} {ws : List Wake}
    {log : List (Event Resource)} {last : Next} (h : replay numBuffers r ws = some (log, last)) :
    Ends numBuffers r ws log last := by
  induction ws generalizing r log with
  | nil =>
    rw [replay] at h
    split at h
    case h_1 hnext =>
      obtain ⟨rfl, rfl⟩ := h
      exact .returned hnext
    case h_2 hnext =>
      obtain ⟨rfl, rfl⟩ := h
      exact .asserted hnext
    case h_3 => cases h
  | cons w ws ih =>
    rw [replay] at h
    split at h
    case h_1 call hnext =>
      split at h
      case isTrue hkeep =>
        obtain ⟨⟨log', last'⟩, hrest, heq⟩ := Option.map_eq_some_iff.mp h
        obtain ⟨rfl, rfl⟩ := heq
        exact .wakes hnext hkeep (ih hrest)
      case isFalse => cases h
    case h_2 => cases h

/-- The call has returned and released what it took: no buffer was freed while not in use. -/
def Released (log : List (Event Resource)) (last : Next) : Prop :=
  last = .returned ∧ Held.Balanced log

/-- The reads from position `pos` on succeed up to the end of the file, and none of them brings
the position to `(uint64_t)-1`. -/
def ReadsSucceed : BitVec 64 → List Completion → Prop
  | _, [] => True
  | pos, c :: cs =>
    c.success = true ∧ pos + BitVec.ofNat 64 c.data.length ≠ failed ∧
      (pos + BitVec.ofNat 64 c.data.length ≠ pos →
        ReadsSucceed (pos + BitVec.ofNat 64 c.data.length) cs)

/-- The file does not open; or it opens with a descriptor other than `(uint64_t)-1`, its size is
found and it is read to its end. -/
def Uneventful (reads : Bool) : List Completion → Prop
  | opened :: sized :: cs =>
    opened.success = true →
      opened.fd ≠ failed ∧ sized.success = true ∧ (reads = true → ReadsSucceed 0 cs)
  | _ => True

section

variable {numBuffers : Nat} {r : Resumed} {call : Call} {ws : List Wake}
  {log : List (Event Resource)} {last : Next} {pool : Pool} {fd pos : BitVec 64}

theorem Ends.of_returned (h : Ends numBuffers r ws log last) (hr : r.next = .returned) :
    ws = [] ∧ log = r.log ∧ last = .returned := by
  cases h with
  | returned => exact ⟨rfl, rfl, rfl⟩
  | asserted h => exact absurd (hr.symm.trans h) Next.noConfusion
  | wakes h => exact absurd (hr.symm.trans h) Next.noConfusion

theorem Ends.of_asserted (h : Ends numBuffers r ws log last) (hr : r.next = .asserted) :
    last = .asserted := by
  cases h with
  | returned h => exact absurd (hr.symm.trans h) Next.noConfusion
  | asserted => rfl
  | wakes h => exact absurd (hr.symm.trans h) Next.noConfusion

theorem Ends.of_waiting (h : Ends numBuffers r ws log last) (hr : r.next = .waiting call) :
    ∃ w ws' log', ws = w :: ws' ∧ log = r.log ++ log' ∧
      (call.Holds → w.pool call.buffer = true) ∧
      Ends numBuffers (call.resume numBuffers w.pool w.completion) ws' log' last := by
  cases h with
  | returned h => exact absurd (hr.symm.trans h) Next.noConfusion
  | asserted h => exact absurd (hr.symm.trans h) Next.noConfusion
  | wakes h hkeep hrest =>
    obtain rfl := Next.waiting.inj (hr.symm.trans h)
    exact ⟨_, _, _, rfl, rfl, hkeep, hrest⟩

theorem Ends.tail {e : Event Resource}
    (h : Ends numBuffers { log := e :: r.log, next := r.next } ws log last) :
    ∃ log', log = e :: log' ∧ Ends numBuffers r ws log' last := by
  cases h with
  | returned h => exact ⟨r.log, rfl, .returned h⟩
  | asserted h => exact ⟨r.log, rfl, .asserted h⟩
  | wakes h hkeep hrest => exact ⟨_, rfl, .wakes h hkeep hrest⟩

theorem allocateThen_ends {k : Nat → Resumed}
    (h : Ends numBuffers (allocateThen numBuffers pool k) ws log last) :
    ∃ i log', log = .take (.buffer i) :: log' ∧ Ends numBuffers (k i) ws log' last := by
  rw [allocateThen] at h
  split at h
  case h_1 =>
    cases h with
    | returned h | asserted h | wakes h => exact absurd h Next.noConfusion
  case h_2 i _ =>
    obtain ⟨log', hlog, hrest⟩ := h.tail
    exact ⟨i, log', hlog, hrest⟩

theorem freeThen_ends {i : Nat} {k : Pool → Resumed} (hused : pool i = true)
    (h : Ends numBuffers (freeThen pool i k) ws log last) :
    ∃ log', log = .give (.buffer i) :: log' ∧
      Ends numBuffers (k (Function.update pool i false)) ws log' last := by
  rw [freeThen, if_pos hused] at h
  exact h.tail

/-- Whatever comes after it, a call that frees a buffer it does not hold has not released what it
took. -/
theorem freeThen_not_released {i : Nat} {k : Pool → Resumed} {held : List Resource}
    (hheld : .buffer i ∉ held) (h : Ends numBuffers (freeThen pool i k) ws log last) :
    ¬ (last = .returned ∧ after held log = some []) := by
  rintro ⟨rfl, hafter⟩
  cases hused : pool i with
  | false =>
    rw [freeThen, hused, if_neg Bool.false_ne_true] at h
    exact absurd (h.of_asserted rfl) Next.noConfusion
  | true =>
    obtain ⟨log', rfl, -⟩ := freeThen_ends hused h
    rw [after_give_not_mem hheld] at hafter
    cases hafter

theorem closing_released (hphase : call.phase = .closing fd pos) {c : Completion}
    (h : Ends numBuffers (call.resume numBuffers pool c) ws log last) :
    last = .returned ∧ after [.descriptor fd] log = some [] := by
  rw [Call.resume, hphase] at h
  obtain ⟨-, rfl, hlast⟩ := h.of_returned rfl
  exact ⟨hlast, after_give_head _ _ _⟩

/-- The loop gives the descriptor back exactly when no read fails. -/
theorem issueRead_released (h : Ends numBuffers (issueRead numBuffers pool fd pos) ws log last) :
    (last = .returned ∧ after [.descriptor fd] log = some []) ↔
      ReadsSucceed pos (ws.map Wake.completion) := by
  induction ws generalizing pool pos log with
  | nil =>
    obtain ⟨i, log', rfl, hrest⟩ := allocateThen_ends h
    obtain ⟨w, ws', log'', hws, -⟩ := hrest.of_waiting rfl
    cases hws
  | cons w ws ih =>
    obtain ⟨i, log', rfl, hrest⟩ := allocateThen_ends h
    obtain ⟨w', ws', log'', hws, rfl, hkeep, hresume⟩ := hrest.of_waiting rfl
    obtain ⟨rfl, rfl⟩ := List.cons.inj hws
    have hused : w.pool i = true := hkeep trivial
    rw [Call.resume] at hresume
    obtain ⟨rest, rfl, hread⟩ := freeThen_ends hused hresume
    rw [after_take, after_give_head, List.map_cons, ReadsSucceed]
    -- A read that fails returns with the descriptor still open.
    have hopen : ∀ {r : Resumed}, r.log = [] → r.next = .returned →
        Ends numBuffers r ws rest last →
          ¬ (last = .returned ∧ after [.descriptor fd] rest = some []) := by
      rintro r hlog hnext hr ⟨-, hafter⟩
      obtain ⟨-, rfl, -⟩ := hr.of_returned hnext
      rw [hlog, after_nil] at hafter
      cases hafter
    cases hsuccess : w.completion.success with
    | false =>
      rw [hsuccess, if_neg Bool.false_ne_true, Call.afterRead, if_pos rfl] at hread
      exact iff_of_false (hopen rfl rfl hread) fun hsucceed => Bool.false_ne_true hsucceed.1
    | true =>
      rw [hsuccess, if_pos rfl, Call.afterRead] at hread
      split at hread
      case isTrue hfailed =>
        exact iff_of_false (hopen rfl rfl hread) fun hsucceed => hsucceed.2.1 hfailed
      case isFalse hfailed =>
        split at hread
        case isTrue hend =>
          obtain ⟨w', ws', log', rfl, rfl, -, hclosing⟩ := hread.of_waiting rfl
          refine iff_of_true (closing_released rfl hclosing) ⟨rfl, hfailed, fun hne => ?_⟩
          exact absurd hend hne
        case isFalse hne =>
          rw [ih hread]
          exact ⟨fun hsucceed => ⟨rfl, hfailed, fun _ => hsucceed⟩,
            fun hsucceed => hsucceed.2.2 hne⟩

theorem opened_released (hfd : fd ≠ failed)
    (h : Ends numBuffers (call.opened numBuffers pool fd) ws log last) :
    (last = .returned ∧ after [.descriptor fd] log = some []) ↔
      (call.reads = true → ReadsSucceed 0 (ws.map Wake.completion)) := by
  rw [Call.opened, if_neg hfd] at h
  cases hreads : call.reads with
  | true =>
    rw [hreads, if_pos rfl] at h
    rw [issueRead_released h]
    exact ⟨fun hsucceed _ => hsucceed, fun hsucceed => hsucceed rfl⟩
  | false =>
    rw [hreads, if_neg Bool.false_ne_true] at h
    obtain ⟨w, ws', log', rfl, rfl, -, hclosing⟩ := h.of_waiting rfl
    exact iff_of_true (closing_released rfl hclosing) fun hfalse => absurd hfalse Bool.false_ne_true

/-- A call whose size command fails frees the buffer of its path a second time. -/
theorem abandoning_not_released {buffer : Nat} {reads : Bool} {c : Completion}
    (h : Ends numBuffers (Call.resume numBuffers ⟨reads, buffer, .abandoning fd⟩ pool c)
      ws log last) : ¬ (last = .returned ∧ after [.descriptor fd] log = some []) := by
  obtain ⟨log', rfl, hrest⟩ := h.tail
  rw [after_give_head]
  exact freeThen_not_released List.not_mem_nil hrest

end

/-- A file access releases what it took exactly when its file does not open, or opens with a
descriptor other than `(uint64_t)-1` and neither its size nor a read of it fails. -/
theorem releasesEverything {numBuffers : Nat} {reads : Bool} {pool : Pool} {ws : List Wake}
    {log : List (Event Resource)} {last : Next}
    (h : Ends numBuffers (Call.start numBuffers reads pool) ws log last) :
    Released log last ↔ Uneventful reads (ws.map Wake.completion) := by
  obtain ⟨i, log', rfl, hrest⟩ := allocateThen_ends h
  obtain ⟨opened, ws, log'', rfl, rfl, hkeep, hresume⟩ := hrest.of_waiting rfl
  have hused : opened.pool i = true := hkeep trivial
  rw [Call.resume] at hresume
  obtain ⟨log, rfl, hopened⟩ := freeThen_ends hused hresume
  rw [Released, Held.Balanced, after_take, after_give_head]
  cases hsuccess : opened.completion.success with
  | false =>
    rw [hsuccess, if_neg Bool.false_ne_true] at hopened
    obtain ⟨rfl, rfl, rfl⟩ := hopened.of_returned rfl
    exact iff_of_true ⟨rfl, rfl⟩ trivial
  | true =>
    rw [hsuccess, if_pos rfl] at hopened
    obtain ⟨sized, ws, log', rfl, rfl, -, hsized⟩ := hopened.of_waiting rfl
    have htake : after [] (.take (.descriptor opened.completion.fd) :: log') =
        after [.descriptor opened.completion.fd] log' := after_take _ _ _
    rw [Call.resume] at hsized
    show (last = .returned ∧ after [] (.take (.descriptor opened.completion.fd) :: log') = some [])
      ↔ Uneventful reads (opened.completion :: sized.completion :: ws.map Wake.completion)
    rw [htake, Uneventful, hsuccess]
    dsimp only at hsized
    cases hsize : sized.completion.success with
    | false =>
      rw [hsize, if_neg Bool.false_ne_true] at hsized
      obtain ⟨w, ws, log, rfl, rfl, -, habandoned⟩ := hsized.of_waiting rfl
      refine iff_of_false (abandoning_not_released habandoned) fun huneventful => ?_
      exact Bool.false_ne_true (huneventful rfl).2.1
    | true =>
      rw [hsize, if_pos rfl] at hsized
      by_cases hfd : opened.completion.fd = failed
      · rw [Call.opened, if_pos hfd] at hsized
        obtain ⟨-, rfl, -⟩ := hsized.of_returned rfl
        refine iff_of_false (fun hreleased => ?_) fun huneventful => (huneventful rfl).1 hfd
        cases hreleased.2
      · rw [opened_released hfd hsized]
        exact ⟨fun hsucceed _ => ⟨hfd, rfl, hsucceed⟩, fun huneventful => (huneventful rfl).2.2⟩

/-- The call wakes up with the first buffer. -/
def wakeHolding (c : Completion) : Wake := { completion := c, pool := fun i => i == 0 }

/-- The call wakes up and nobody has a buffer. -/
def wakeFree (c : Completion) : Wake := { completion := c, pool := fun _ => false }

/-- A file of three bytes is opened and read in two chunks. -/
def shortFile : List Wake :=
  [wakeHolding { success := true, fd := 3 }, wakeFree { success := true },
    wakeHolding { success := true, data := [1, 2] }, wakeHolding { success := true, data := [3] },
    wakeHolding { success := true }, wakeFree { success := true }]

def shortFileLog : List (Event Resource) :=
  [.take (.buffer 0), .give (.buffer 0), .take (.descriptor 3), .take (.buffer 0),
    .give (.buffer 0), .take (.buffer 0), .give (.buffer 0), .take (.buffer 0), .give (.buffer 0),
    .give (.descriptor 3)]

theorem releasesEverything_shortFile : Released shortFileLog .returned := by
  have hends : Ends 4 (Call.start 4 true fun _ => false) shortFile shortFileLog .returned :=
    ends_of_replay rfl
  have hreads : ReadsSucceed 0 ((shortFile.drop 2).map Wake.completion) := by
    simp [ReadsSucceed, shortFile, wakeHolding, failed]
  exact (releasesEverything hends).mpr fun _ => ⟨by decide, rfl, fun _ => hreads⟩

/-! ## A read and a size that fail -/

/-- The second read of a file fails. -/
def failedRead : List Wake :=
  [wakeHolding { success := true, fd := 3 }, wakeFree { success := true },
    wakeHolding { success := true, data := [1, 2] }, wakeHolding { success := false }]

/-- The size of a file is not found, and when the call wakes up from closing it somebody else has
the buffer. -/
def failedSize : List Wake :=
  [wakeHolding { success := true, fd := 3 }, wakeFree { success := false },
    wakeHolding { success := true }]

/-- After the read that fails the descriptor is not closed; after the size command that fails the
buffer is freed again. -/
theorem not_releasesEverything :
    (¬ ∀ pool ws log last, Ends 4 (Call.start 4 true pool) ws log last → Released log last) ∧
      ¬ ∀ pool ws log last, Ends 4 (Call.start 4 false pool) ws log last → Released log last := by
  constructor
  · intro h
    have hends : Ends 4 (Call.start 4 true fun _ => false) failedRead
        [.take (.buffer 0), .give (.buffer 0), .take (.descriptor 3), .take (.buffer 0),
          .give (.buffer 0), .take (.buffer 0), .give (.buffer 0)] .returned :=
      ends_of_replay rfl
    exact absurd (h _ _ _ _ hends).2 (by decide)
  · intro h
    have hends : Ends 4 (Call.start 4 false fun _ => false) failedSize
        [.take (.buffer 0), .give (.buffer 0), .take (.descriptor 3), .give (.descriptor 3),
          .give (.buffer 0)] .returned :=
      ends_of_replay rfl
    exact absurd (h _ _ _ _ hends).2 (by decide)

end PicoVfs
end Carrels
