/-
A file that is read in chunks (`pico_vfs.c`).

A read asks for the bytes of the file from a position on and gets as many of them as the server
sends.  Whatever chunks these are, the file ends up in the buffer as one store, and the call
returns its length.
-/
import Carrels.Util.PicoVfs

namespace Carrels
namespace PicoVfs

open ByteMemory

/-- The stores of the call and where it is when `n` of its commands have been answered. -/
def Reader.runs (r : Reader) (answer : Nat → Completion) :
    Nat → List (Nat × List UInt8) × Outcome
  | 0 => ([], .waiting r)
  | n + 1 =>
    match r.runs answer n with
    | (stores, .waiting r') => (stores ++ (r'.resume (answer n)).1, (r'.resume (answer n)).2)
    | (stores, .returned size err) => (stores, .returned size err)
    | (stores, .asserted) => (stores, .asserted)

/-- The file opens, with a descriptor other than the error value, and neither its size nor a read
of it fails. -/
def Reader.Succeeds (r : Reader) (c : Completion) : Prop :=
  match r.phase with
  | .opening => c.success = true ∧ c.fd ≠ failed
  | .sizing _ | .reading _ _ => c.success = true
  | .abandoning _ | .closing _ _ => True

/-- The server holds the file and answers the command the call is blocked in. -/
def Outcome.Answered (files : FileSystem) (c : Completion) : Outcome → Prop
  | .waiting r => r.Honest files c ∧ r.Succeeds c
  | .returned _ _ | .asserted => True

instance (c : Completion) : (r : Reader) → Decidable (r.Succeeds c)
  | ⟨_, _, .opening⟩ => inferInstanceAs (Decidable (_ ∧ _))
  | ⟨_, _, .sizing _⟩ | ⟨_, _, .reading _ _⟩ => inferInstanceAs (Decidable (_ = _))
  | ⟨_, _, .abandoning _⟩ | ⟨_, _, .closing _ _⟩ => inferInstanceAs (Decidable True)

instance (files : FileSystem) (c : Completion) : (o : Outcome) → Decidable (o.Answered files c)
  | .waiting _ => inferInstanceAs (Decidable (_ ∧ _))
  | .returned _ _ | .asserted => inferInstanceAs (Decidable True)

/-- The server answers every command of the call. -/
def Serves (files : FileSystem) (answer : Nat → Completion) (r : Reader) : Prop :=
  ∀ n, (r.runs answer n).2.Answered files (answer n)

/-! ## The loop -/

/-- What the call has done when `n` of its commands have been answered.  A read that goes on
advances the position, so there are no more of them than bytes. -/
def Reader.Chunked (files : FileSystem) (bs : List UInt8) (base n : Nat)
    (stores : List (Nat × List UInt8)) (r : Reader) : Prop :=
  files.content r.path = some bs ∧
    match r.phase with
    | .opening => n = 0 ∧ r.buf = base ∧ stores = []
    | .sizing fd => n = 1 ∧ fd ≠ failed ∧ r.buf = base ∧ stores = []
    | .abandoning _ => False
    | .reading _ pos => n ≤ pos.toNat + 2 ∧ pos.toNat ≤ bs.length ∧ r.buf = base + pos.toNat ∧
        Stores stores base (bs.take pos.toNat)
    | .closing _ pos => n ≤ bs.length + 3 ∧ pos.toNat = bs.length ∧ Stores stores base bs

/-- The call is at work, or has returned the length of the file. -/
def Outcome.Chunked (files : FileSystem) (bs : List UInt8) (base n : Nat)
    (stores : List (Nat × List UInt8)) : Outcome → Prop
  | .waiting r => r.Chunked files bs base n stores
  | .returned size err => err = false ∧ size.toNat = bs.length ∧ Stores stores base bs
  | .asserted => False

section

variable {files : FileSystem} {bs : List UInt8} {base n : Nat}
  {stores : List (Nat × List UInt8)} {r : Reader} {c : Completion} {answer : Nat → Completion}

theorem Reader.chunked_start {path : List UInt8} (hfile : files.content path = some bs) :
    (Reader.start path base).Chunked files bs base 0 [] :=
  ⟨hfile, rfl, rfl, rfl⟩

theorem Reader.Chunked.resume (h : r.Chunked files bs base n stores) (hc : r.Honest files c)
    (hs : r.Succeeds c) :
    (r.resume c).2.Chunked files bs base (n + 1) (stores ++ (r.resume c).1) := by
  obtain ⟨path, buf, phase⟩ := r
  obtain ⟨hfile, hphase⟩ := h
  cases phase with
  | opening =>
    obtain ⟨rfl, hbuf, rfl⟩ := hphase
    rw [Reader.resume, if_pos hs.1]
    exact ⟨hfile, rfl, hs.2, hbuf, rfl⟩
  | sizing fd =>
    obtain ⟨rfl, hfd, hbuf, rfl⟩ := hphase
    have hsuccess : c.success = true := hs
    simp only [Reader.resume, hsuccess, if_pos, Reader.opened, if_neg hfd]
    exact ⟨hfile, Nat.le_refl 2, Nat.zero_le _, hbuf, stores_nil base⟩
  | abandoning fd => exact hphase.elim
  | reading fd pos =>
    obtain ⟨hn, hle, hbuf, hstores⟩ := hphase
    have hsuccess : c.success = true := hs
    obtain ⟨hpart, hend⟩ := hc hsuccess bs hfile
    obtain ⟨hle', hlt⟩ := read_lt_failed hfile hle hpart
    have hstores' := hstores.take_append hle hpart
    rw [← show buf = base + pos.toNat from hbuf] at hstores'
    simp only [Reader.resume, hsuccess, if_pos]
    cases hdata : c.data with
    | nil =>
      have hlen : pos.toNat = bs.length := Nat.le_antisymm hle (hend hdata)
      rw [hdata, List.length_nil, Nat.add_zero, hlen, List.take_length] at hstores'
      rw [List.length_nil, Reader.afterRead_end _ fd (by omega)]
      exact ⟨hfile, by omega, hlen, hstores'⟩
    | cons b data =>
      have hpos : 0 < c.data.length := by
        rw [hdata]
        exact Nat.succ_pos _
      rw [← hdata, Reader.afterRead_chunk _ fd hpos hlt]
      have hadd := toNat_add_ofNat hlt
      refine ⟨hfile, ?_⟩
      show n + 1 ≤ (pos + BitVec.ofNat 64 c.data.length).toNat + 2 ∧ _
      rw [hadd]
      refine ⟨by omega, hle', ?_, hstores'⟩
      show buf + c.data.length = _
      rw [show buf = base + pos.toNat from hbuf, Nat.add_assoc]
  | closing fd pos =>
    obtain ⟨hn, hlen, hstores⟩ := hphase
    rw [Reader.resume, List.append_nil]
    exact ⟨rfl, hlen, hstores⟩

theorem Reader.Chunked.runs (h : r.Chunked files bs base 0 [])
    (hserves : Serves files answer r) (n : Nat) :
    (r.runs answer n).2.Chunked files bs base n (r.runs answer n).1 := by
  induction n with
  | zero => exact h
  | succ n ih =>
    have hanswered := hserves n
    rw [Reader.runs]
    cases hruns : r.runs answer n with
    | mk stores outcome =>
      rw [hruns] at ih hanswered
      cases outcome with
      | waiting r' => exact Reader.Chunked.resume ih hanswered.1 hanswered.2
      | returned size err => exact ih
      | asserted => exact ih.elim

theorem Reader.Chunked.lt (h : r.Chunked files bs base n stores) : n < bs.length + 4 := by
  obtain ⟨path, buf, phase⟩ := r
  obtain ⟨-, hphase⟩ := h
  cases phase with
  | opening | sizing =>
    obtain ⟨rfl, -⟩ := hphase
    omega
  | abandoning => exact hphase.elim
  | reading =>
    obtain ⟨hn, hle, -⟩ := hphase
    omega
  | closing =>
    obtain ⟨hn, -⟩ := hphase
    omega

/-- A call that has returned does nothing more. -/
theorem Reader.runs_add {size : BitVec 64} {err : Bool}
    (h : r.runs answer n = (stores, .returned size err)) (k : Nat) :
    r.runs answer (n + k) = (stores, .returned size err) := by
  induction k with
  | zero => exact h
  | succ k ih => rw [← Nat.add_assoc, Reader.runs, ih]

theorem serves_of_returned {size : BitVec 64} {err : Bool}
    (h : r.runs answer n = (stores, .returned size err))
    (hanswered : ∀ k < n, (r.runs answer k).2.Answered files (answer k)) :
    Serves files answer r := by
  intro k
  by_cases hk : k < n
  · exact hanswered k hk
  · obtain ⟨k, rfl⟩ := Nat.exists_eq_add_of_le (Nat.le_of_not_lt hk)
    rw [Reader.runs_add h]
    trivial

theorem Reader.runs_read_fails {r' : Reader} {fd pos : BitVec 64}
    (h : (r.runs answer n).2 = .waiting r') (hphase : r'.phase = .reading fd pos)
    (hfails : (answer n).success = false) :
    (r.runs answer (n + 1)).2 = .returned 0 true := by
  rw [Reader.runs]
  cases hruns : r.runs answer n with
  | mk stores outcome =>
    rw [hruns] at h
    obtain rfl : outcome = .waiting r' := h
    show (r'.resume (answer n)).2 = _
    rw [Reader.resume, hphase]
    dsimp only
    rw [hfails, if_neg Bool.false_ne_true, Reader.afterRead, if_pos rfl]

end

/-- However the server cuts a file into chunks, the call returns its length without an error, and
has stored the file in the buffer and nothing else.  A read that fails makes it return 0 with an
error. -/
theorem readsWholeFile (files : FileSystem) (path : List UInt8) (buf : Nat)
    (answer : Nat → Completion) :
    (∀ bs, files.content path = some bs → Serves files answer (Reader.start path buf) →
      ∃ stores size, (Reader.start path buf).runs answer (bs.length + 4) =
          (stores, .returned size false) ∧
        size.toNat = bs.length ∧ Stores stores buf bs) ∧
      ∀ n r fd pos, ((Reader.start path buf).runs answer n).2 = .waiting r →
        r.phase = .reading fd pos → (answer n).success = false →
          ((Reader.start path buf).runs answer (n + 1)).2 = .returned 0 true := by
  constructor
  · intro bs hfile hserves
    have hstart : (Reader.start path buf).Chunked files bs buf 0 [] := Reader.chunked_start hfile
    have hchunked := hstart.runs hserves (bs.length + 4)
    cases hruns : (Reader.start path buf).runs answer (bs.length + 4) with
    | mk stores outcome =>
      rw [hruns] at hchunked
      cases outcome with
      | waiting r => exact absurd hchunked.lt (Nat.lt_irrefl _)
      | returned size err =>
        obtain ⟨rfl, hsize, hstores⟩ := hchunked
        exact ⟨stores, size, rfl, hsize, hstores⟩
      | asserted => exact hchunked.elim
  · intro n r fd pos hwaiting hphase hfails
    exact Reader.runs_read_fails hwaiting hphase hfails

/-- One file of three bytes. -/
def oneFile : FileSystem where
  content path := if path = bytes "/a" then some [1, 2, 3] else none
  length_lt h := by
    split at h
    · obtain rfl := Option.some.inj h
      decide
    · cases h

/-- The server sends these completions, and then accepts whatever comes. -/
def sends (cs : List Completion) (n : Nat) : Completion := cs.getD n { success := true }

/-- The file in one chunk. -/
def atOnce : List Completion :=
  [{ success := true, fd := 3 }, { success := true }, { success := true, data := [1, 2, 3] }]

/-- The file in two chunks. -/
def inTwo : List Completion :=
  [{ success := true, fd := 3 }, { success := true }, { success := true, data := [1] },
    { success := true, data := [2, 3] }]

/-- The second read fails. -/
def cutOff : List Completion :=
  [{ success := true, fd := 3 }, { success := true }, { success := true, data := [1] },
    { success := false }]

theorem readsWholeFile_oneFile :
    (∀ cs ∈ [atOnce, inTwo], ∃ stores size, (Reader.start (bytes "/a") 64).runs (sends cs) 7 =
        (stores, .returned size false) ∧ size.toNat = 3 ∧ Stores stores 64 [1, 2, 3]) ∧
      ((Reader.start (bytes "/a") 64).runs (sends cutOff) 4).2 = .returned 0 true := by
  refine ⟨?_, (readsWholeFile oneFile (bytes "/a") 64 (sends cutOff)).2 3 _ 3 1 rfl rfl rfl⟩
  intro cs hcs
  apply (readsWholeFile oneFile (bytes "/a") 64 (sends cs)).1 [1, 2, 3] (by decide)
  simp only [List.mem_cons, List.not_mem_nil, or_false] at hcs
  obtain rfl | rfl := hcs
  · exact serves_of_returned (n := 5) rfl (by decide)
  · exact serves_of_returned (n := 6) rfl (by decide)

end PicoVfs
end Carrels
