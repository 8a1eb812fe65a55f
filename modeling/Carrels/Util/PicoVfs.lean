/-
`pico_vfs_readfile2buf`, one file-server completion at a time.

The function blocks in `fs_command_blocking` once for each command it sends: open,
size, one read for each chunk, close.  A `Reader` is the function blocked at one of
these commands; `Reader.resume` takes the completion of that command and runs the
function up to its next command or to its return.

The share buffers are not part of this state.  When the size command fails, `openfile`
frees its buffer a second time, which asserts unless somebody has taken the buffer
meanwhile; the completion says whether somebody has.
-/
import Carrels.Lib.Bytes

namespace Carrels
namespace PicoVfs

open ByteMemory

/-- What a completed command hands back.  `data` is the content of the share buffer
up to `len_read`. -/
structure Completion where
  success : Bool
  fd : BitVec 64 := 0
  data : List UInt8 := []
  /-- A buffer that the call has freed is in use again when the completion arrives. -/
  bufferUsed : Bool := false

/-- The command the reader is blocked in. -/
inductive Phase
  | opening
  | sizing (fd : BitVec 64)
  | abandoning (fd : BitVec 64)
  | reading (fd pos : BitVec 64)
  | closing (fd pos : BitVec 64)

structure Reader where
  path : List UInt8
  buf : Nat
  phase : Phase

inductive Outcome
  | waiting (r : Reader)
  | returned (size : BitVec 64) (err : Bool)
  /-- `fs_buffer_free` asserts. -/
  | asserted

/-- `(uint64_t)-1`, the error value of `openfile` and `readfile`. -/
def failed : BitVec 64 := BitVec.allOnes 64

/-- The call blocked in its first command. -/
def Reader.start (path : List UInt8) (buf : Nat) : Reader :=
  { path, buf, phase := .opening }

/-- `pico_vfs_readfile2buf` after `openfile` has returned `fd`. -/
def Reader.opened (r : Reader) (fd : BitVec 64) : Outcome :=
  if fd = failed then .returned 0 true
  else .waiting { r with phase := .reading fd 0 }

/-- The loop of `pico_vfs_readfile2buf` after `readfile` at `pre` has returned `pos`. -/
def Reader.afterRead (r : Reader) (fd pre pos : BitVec 64) : Outcome :=
  if pos = failed then .returned 0 true
  else if pos = pre then .waiting { r with phase := .closing fd pos }
  else .waiting { r with buf := r.buf + (pos - pre).toNat, phase := .reading fd pos }

/-- The bytes the resumed call stores, and where it stops. -/
def Reader.resume (r : Reader) (c : Completion) : List (Nat × List UInt8) × Outcome :=
  match r.phase with
  | .opening => ([], if c.success then .waiting { r with phase := .sizing c.fd }
      else r.opened failed)
  | .sizing fd => ([], if c.success then r.opened fd
      else .waiting { r with phase := .abandoning fd })
  | .abandoning _ => ([], if c.bufferUsed then r.opened failed else .asserted)
  | .reading fd pos =>
    if c.success then
      ([(r.buf, c.data)], r.afterRead fd pos (pos + BitVec.ofNat 64 c.data.length))
    else ([], r.afterRead fd pos failed)
  | .closing _ pos => ([], .returned pos false)

/-! ## A whole call

`Delivery` is what one call gets to read.  The stores of the call lie one behind the
other, whatever the sizes of the chunks. -/

/-- A file that opens: the data of the successful reads, and whether the read after them
finds the end of the file or fails. -/
structure Delivery where
  fd : BitVec 64
  chunks : List (List UInt8)
  complete : Bool
  fd_ne : fd ≠ failed
  chunk_ne : ∀ data ∈ chunks, data ≠ []
  length_lt : chunks.flatten.length < failed.toNat

/-- The data a call gets to read; a file that does not open is `none`. -/
def Delivery.data : Option Delivery → List UInt8
  | none => []
  | some d => d.chunks.flatten

/-- The completions the file server sends to the call. -/
def Delivery.completions : Option Delivery → List Completion
  | none => [{ success := false }]
  | some d =>
    { success := true, fd := d.fd } :: { success := true } ::
      (d.chunks.map (fun data => { success := true, data }) ++
        (if d.complete then [{ success := true }, { success := true }]
          else [{ success := false }]))

/-- The chunks one behind the other, from address `buf` on. -/
def storesFrom : Nat → List (List UInt8) → List (Nat × List UInt8)
  | _, [] => []
  | buf, data :: chunks => (buf, data) :: storesFrom (buf + data.length) chunks

/-- The stores of `pico_vfs_readfile2buf`. -/
def readfile2buf (buf : Nat) : Option Delivery → List (Nat × List UInt8)
  | none => []
  | some d => storesFrom buf d.chunks

/-- The completions `cs` bring the blocked call to its return, and it makes these stores. -/
inductive Reader.Returns : Reader → List Completion → List (Nat × List UInt8) → Prop
  | last {r : Reader} {c : Completion} {stores : List (Nat × List UInt8)} {size : BitVec 64}
      {err : Bool} (h : r.resume c = (stores, .returned size err)) : Returns r [c] stores
  | more {r r' : Reader} {c : Completion} {cs : List Completion}
      {stores rest : List (Nat × List UInt8)} (h : r.resume c = (stores, .waiting r'))
      (hrest : Returns r' cs rest) : Returns r (c :: cs) (stores ++ rest)

theorem storesFrom_ne_nil {buf : Nat} {chunks : List (List UInt8)} :
    storesFrom buf chunks ≠ [] ↔ chunks ≠ [] := by
  cases chunks <;> simp [storesFrom]

/-- The stores stay in a range if their first byte and their last byte do. -/
theorem storesFrom_within {a b buf : Nat} {chunks : List (List UInt8)} (hne : chunks ≠ []) :
    (∀ st ∈ storesFrom buf chunks, a ≤ st.1 ∧ st.1 + st.2.length ≤ b) ↔
      a ≤ buf ∧ buf + chunks.flatten.length ≤ b := by
  induction chunks generalizing buf with
  | nil => exact absurd rfl hne
  | cons data chunks ih =>
    rw [storesFrom, List.forall_mem_cons, List.flatten_cons, List.length_append]
    cases chunks with
    | nil => simp [storesFrom]
    | cons data' chunks =>
      rw [ih (List.cons_ne_nil _ _)]
      dsimp only
      omega

/-- A read that is no failure does not wrap the position. -/
theorem toNat_add_ofNat {pos : BitVec 64} {n : Nat} (hlt : pos.toNat + n < failed.toNat) :
    (pos + BitVec.ofNat 64 n).toNat = pos.toNat + n := by
  have hfailed : failed.toNat = 2 ^ 64 - 1 := rfl
  rw [BitVec.toNat_add, BitVec.toNat_ofNat]
  omega

/-- A read of no bytes ends the loop. -/
theorem Reader.afterRead_end (r : Reader) (fd : BitVec 64) {pos : BitVec 64}
    (hlt : pos.toNat < failed.toNat) :
    r.afterRead fd pos (pos + BitVec.ofNat 64 0) =
      .waiting { r with phase := .closing fd pos } := by
  have hne : pos ≠ failed := fun h => by
    rw [h] at hlt
    omega
  have hsame : pos + BitVec.ofNat 64 0 = pos := BitVec.add_zero pos
  rw [Reader.afterRead, hsame, if_neg hne, if_pos rfl]

/-- A read of some bytes advances the buffer and the position by them. -/
theorem Reader.afterRead_chunk (r : Reader) (fd : BitVec 64) {pos : BitVec 64} {n : Nat}
    (hn : 0 < n) (hlt : pos.toNat + n < failed.toNat) :
    r.afterRead fd pos (pos + BitVec.ofNat 64 n) = .waiting
      { r with buf := r.buf + n, phase := .reading fd (pos + BitVec.ofNat 64 n) } := by
  have hadd := toNat_add_ofNat hlt
  have hlast : pos + BitVec.ofNat 64 n ≠ failed := fun h => by
    rw [h] at hadd
    omega
  have hmoved : pos + BitVec.ofNat 64 n ≠ pos := fun h => by
    rw [h] at hadd
    omega
  have hsub : (pos + BitVec.ofNat 64 n - pos).toNat = n := by
    rw [BitVec.toNat_sub_of_le (BitVec.le_def.mpr (by omega)), hadd]
    omega
  rw [Reader.afterRead, if_neg hlast, if_neg hmoved, hsub]

/-- The loop of `pico_vfs_readfile2buf` from position `pos` on.  The read that finds the end
of the file stores nothing. -/
theorem Reader.returns_reading (path : List UInt8) (fd : BitVec 64) (complete : Bool)
    (chunks : List (List UInt8)) (buf : Nat) (pos : BitVec 64) (hne : ∀ data ∈ chunks, data ≠ [])
    (hlt : pos.toNat + chunks.flatten.length < failed.toNat) :
    ∃ stores, (Reader.mk path buf (.reading fd pos)).Returns
        (chunks.map (fun data => { success := true, data }) ++
          (if complete then [{ success := true }, { success := true }]
            else [{ success := false }])) stores ∧
      stores.filter (fun st => !st.2.isEmpty) = storesFrom buf chunks := by
  induction chunks generalizing buf pos with
  | nil =>
    cases complete with
    | false => exact ⟨[], .last rfl, rfl⟩
    | true =>
      have hclosing : (Reader.mk path buf (.closing fd pos)).Returns [{ success := true }] [] :=
        .last rfl
      refine ⟨[(buf, [])] ++ [], .more ?_ hclosing, rfl⟩
      simp only [Reader.resume, if_true, List.length_nil, Reader.afterRead_end _ fd hlt]
  | cons data chunks ih =>
    rw [List.flatten_cons, List.length_append] at hlt
    have hdata : 0 < data.length := List.length_pos_iff.mpr (hne data List.mem_cons_self)
    have hread : pos.toNat + data.length < failed.toNat := by omega
    obtain ⟨stores, hreturns, hstores⟩ := ih (buf + data.length)
      (pos + BitVec.ofNat 64 data.length)
      (fun z hz => hne z (List.mem_cons_of_mem _ hz)) (by rw [toNat_add_ofNat hread]; omega)
    refine ⟨[(buf, data)] ++ stores, .more ?_ hreturns, ?_⟩
    · simp only [Reader.resume, if_true, Reader.afterRead_chunk _ fd hdata hread]
    · rw [List.singleton_append, List.filter_cons_of_pos
        (by simpa using hne data List.mem_cons_self), hstores, storesFrom]

theorem Reader.returns_start (path : List UInt8) (buf : Nat) (d : Option Delivery) :
    ∃ stores, (Reader.start path buf).Returns (Delivery.completions d) stores ∧
      stores.filter (fun st => !st.2.isEmpty) = readfile2buf buf d := by
  cases d with
  | none => exact ⟨[], .last rfl, rfl⟩
  | some d =>
    obtain ⟨stores, hreturns, hstores⟩ := Reader.returns_reading path d.fd d.complete
      d.chunks buf 0 d.chunk_ne (by simpa using d.length_lt)
    refine ⟨[] ++ ([] ++ stores), .more rfl (.more ?_ hreturns), hstores⟩
    simp only [Reader.resume, if_true, Reader.opened, if_neg d.fd_ne, Reader.start]

/-! ## Reading a whole file -/

/-- The files the server holds, by path. -/
structure FileSystem where
  content : List UInt8 → Option (List UInt8)
  length_lt : ∀ {path bs}, content path = some bs → bs.length < failed.toNat

/-- The completion is one the server may send: a file that is opened exists, and a read
returns some of the bytes that are left, and none only at the end. -/
def Reader.Honest (files : FileSystem) (r : Reader) (c : Completion) : Prop :=
  match r.phase with
  | .opening => c.success = true → (files.content r.path).isSome = true
  | .reading _ pos => c.success = true → ∀ bs ∈ files.content r.path,
      c.data <+: bs.drop pos.toNat ∧ (c.data = [] → bs.length ≤ pos.toNat)
  | _ => True

instance (files : FileSystem) (c : Completion) : (r : Reader) → Decidable (r.Honest files c)
  | ⟨_, _, .opening⟩ => inferInstanceAs (Decidable (_ → _))
  | ⟨_, _, .reading _ _⟩ => inferInstanceAs (Decidable (_ → _))
  | ⟨_, _, .sizing _⟩ | ⟨_, _, .abandoning _⟩ | ⟨_, _, .closing _ _⟩ =>
    inferInstanceAs (Decidable True)

/-- What the blocked call has done so far: the file exists once it is opened, the store
goes on where it stopped, and what has been read is in the buffer at `base`. -/
def Reader.Progress (files : FileSystem) (base : Nat) (m : Mem) (r : Reader) : Prop :=
  match r.phase with
  | .opening | .abandoning _ => r.buf = base
  | .sizing _ => r.buf = base ∧ (files.content r.path).isSome = true
  | .reading _ pos => ∃ bs, files.content r.path = some bs ∧ pos.toNat ≤ bs.length ∧
      r.buf = base + pos.toNat ∧ Holds m base bs pos.toNat
  | .closing _ _ => ∃ bs, files.content r.path = some bs ∧ Holds m base bs bs.length

theorem Reader.progress_start (files : FileSystem) (base : Nat) (m : Mem) (path : List UInt8) :
    (Reader.start path base).Progress files base m := rfl

section

variable {files : FileSystem} {base : Nat} {m : Mem} {r : Reader} {c : Completion}

/-- A resumed call stores a part of its file at its place, if anything. -/
theorem Reader.resume_stores (h : r.Progress files base m) (hc : r.Honest files c) :
    (r.resume c).1 = [] ∨ ∃ bs k, files.content r.path = some bs ∧
      c.data <+: bs.drop k ∧ (r.resume c).1 = [(base + k, c.data)] := by
  obtain ⟨path, buf, phase⟩ := r
  cases phase with
  | reading fd pos =>
    cases hs : c.success with
    | true =>
      obtain ⟨bs, hbs, -, hbuf, -⟩ := h
      refine Or.inr ⟨bs, pos.toNat, hbs, (hc hs bs hbs).1, ?_⟩
      simp only [Reader.resume, hs, if_pos]
      rw [show buf = base + pos.toNat from hbuf]
    | false => exact Or.inl (by simp [Reader.resume, hs])
  | _ => exact Or.inl rfl

/-- Another call that reads the same file keeps its progress. -/
theorem Reader.Progress.other {r₂ : Reader} (h₂ : r₂.Progress files base m)
    (hpath : r₂.path = r.path) (h : r.Progress files base m) (hc : r.Honest files c) :
    r₂.Progress files base (writes m (r.resume c).1) := by
  obtain hstores | ⟨bs, k, hbs, hpart, hstores⟩ := Reader.resume_stores h hc
  · rw [hstores]
    exact h₂
  · rw [hstores]
    obtain ⟨path, buf, phase⟩ := r₂
    cases phase with
    | opening | abandoning | sizing => exact h₂
    | reading fd pos =>
      obtain ⟨bs', hbs', hle, hbuf, hholds⟩ := h₂
      obtain rfl : bs = bs' := by
        rw [show path = r.path from hpath, hbs] at hbs'
        exact Option.some.inj hbs'
      exact ⟨bs, hpath ▸ hbs, hle, hbuf, hholds.write_part hpart⟩
    | closing fd pos =>
      obtain ⟨bs', hbs', hholds⟩ := h₂
      obtain rfl : bs = bs' := by
        rw [show path = r.path from hpath, hbs] at hbs'
        exact Option.some.inj hbs'
      exact ⟨bs, hpath ▸ hbs, hholds.write_part hpart⟩

/-- A read stays in its file, and so before the error value. -/
theorem read_lt_failed {bs data : List UInt8} {pos : BitVec 64} {path : List UInt8}
    (hbs : files.content path = some bs) (hle : pos.toNat ≤ bs.length)
    (hpart : data <+: bs.drop pos.toNat) :
    pos.toNat + data.length ≤ bs.length ∧ pos.toNat + data.length < failed.toNat := by
  have hlen := hpart.length_le
  have hlt := files.length_lt hbs
  rw [List.length_drop] at hlen
  omega

theorem Reader.Progress.opened (hbuf : r.buf = base) (hsome : (files.content r.path).isSome = true)
    {fd : BitVec 64} {r' : Reader} (h : r.opened fd = .waiting r') :
    r'.path = r.path ∧ r'.Progress files base m := by
  rw [Reader.opened] at h
  split at h
  · cases h
  · obtain rfl := Outcome.waiting.inj h
    obtain ⟨bs, hbs⟩ := Option.isSome_iff_exists.mp hsome
    exact ⟨rfl, bs, hbs, Nat.zero_le _, hbuf, holds_zero m base bs⟩

theorem Reader.Progress.afterRead {bs : List UInt8} {fd pos : BitVec 64} {r' : Reader}
    (hbs : files.content r.path = some bs) (hle : pos.toNat ≤ bs.length)
    (hbuf : r.buf = base + pos.toNat) (hholds : Holds m base bs pos.toNat)
    (hpart : c.data <+: bs.drop pos.toNat) (hend : c.data = [] → bs.length ≤ pos.toNat)
    (h : r.afterRead fd pos (pos + BitVec.ofNat 64 c.data.length) = .waiting r') :
    r'.path = r.path ∧ r'.Progress files base (write m (base + pos.toNat) c.data) := by
  obtain ⟨hle', hlt⟩ := read_lt_failed hbs hle hpart
  have hholds' := hholds.append hpart
  cases hdata : c.data with
  | nil =>
    rw [hdata, List.length_nil, Reader.afterRead_end r fd (by omega)] at h
    obtain rfl := Outcome.waiting.inj h
    have hlen : bs.length = pos.toNat := Nat.le_antisymm (hend hdata) hle
    refine ⟨rfl, bs, hbs, ?_⟩
    rw [hdata, List.length_nil, Nat.add_zero] at hholds'
    rwa [hlen]
  | cons b data =>
    have hpos : 0 < c.data.length := by
      rw [hdata]
      exact Nat.succ_pos _
    rw [Reader.afterRead_chunk r fd hpos hlt] at h
    obtain rfl := Outcome.waiting.inj h
    have hadd := toNat_add_ofNat hlt
    refine ⟨rfl, bs, hbs, by omega, ?_, ?_⟩
    · show r.buf + c.data.length = _
      omega
    · rwa [hadd, ← hdata]

theorem Reader.Progress.waiting (h : r.Progress files base m) (hc : r.Honest files c)
    {r' : Reader} (hr : (r.resume c).2 = .waiting r') :
    r'.path = r.path ∧ r'.Progress files base (writes m (r.resume c).1) := by
  obtain ⟨path, buf, phase⟩ := r
  cases phase with
  | opening =>
    cases hs : c.success with
    | true =>
      rw [Reader.resume, hs, if_pos rfl] at hr
      obtain rfl := Outcome.waiting.inj hr
      exact ⟨rfl, h, hc hs⟩
    | false =>
      rw [Reader.resume, hs, if_neg Bool.false_ne_true, Reader.opened, if_pos rfl] at hr
      cases hr
  | sizing fd =>
    cases hs : c.success with
    | true =>
      rw [Reader.resume, hs, if_pos rfl] at hr
      exact Reader.Progress.opened h.1 h.2 hr
    | false =>
      rw [Reader.resume, hs, if_neg Bool.false_ne_true] at hr
      obtain rfl := Outcome.waiting.inj hr
      exact ⟨rfl, h.1⟩
  | abandoning fd =>
    simp only [Reader.resume, Reader.opened, if_pos] at hr
    split at hr
    · cases hr
    · cases hr
  | reading fd pos =>
    obtain ⟨bs, hbs, hle, hbuf, hholds⟩ := h
    cases hs : c.success with
    | true =>
      obtain ⟨hpart, hend⟩ := hc hs bs hbs
      simp only [Reader.resume, hs, if_pos] at hr ⊢
      have hdone := Reader.Progress.afterRead hbs hle hbuf hholds hpart hend hr
      rwa [← hbuf] at hdone
    | false =>
      simp [Reader.resume, hs, Reader.afterRead] at hr
  | closing fd pos => cases hr

/-- A call that returns without an error has the whole file in the buffer. -/
theorem Reader.Progress.returned (h : r.Progress files base m) {size : BitVec 64}
    (hr : (r.resume c).2 = .returned size false) : ∃ bs, files.content r.path = some bs ∧
      Holds (writes m (r.resume c).1) base bs bs.length := by
  obtain ⟨path, buf, phase⟩ := r
  cases phase with
  | closing fd pos => exact h
  | opening | sizing | abandoning | reading =>
    simp only [Reader.resume, Reader.opened, Reader.afterRead] at hr
    repeat' split at hr
    all_goals cases hr

end

end PicoVfs
end Carrels
