/-
The history of the command line as a list of lines.

The ring buffer holds the saved lines, the oldest first, each behind a zero byte, and a zero
byte at `tail`.  Together they may take 127 bytes: to save a line, the oldest ones are given up
until it fits.  The navigation counter counts lines from the latest one on.

The loops read the byte behind the array before they wrap around.  It is the lowest byte of
`head`, and not zero whenever they get there: a record that wraps around has `head` behind it.
-/
import Carrels.Lib.Circular
import Carrels.Microrl.Line

namespace Carrels
namespace Microrl

open ByteMemory Circular

/-! ## Lines in the ring -/

/-- The saved lines with a zero byte in front of each. -/
def encodeLines (lines : List (List UInt8)) : List UInt8 := lines.flatMap (0 :: ·)

theorem encodeLines_cons (l : List UInt8) (lines : List (List UInt8)) :
    encodeLines (l :: lines) = 0 :: l ++ encodeLines lines := List.flatMap_cons

theorem encodeLines_append (lines lines' : List (List UInt8)) :
    encodeLines (lines ++ lines') = encodeLines lines ++ encodeLines lines' :=
  List.flatMap_append

theorem length_encodeLines_cons (l : List UInt8) (lines : List (List UInt8)) :
    (encodeLines (l :: lines)).length = l.length + 1 + (encodeLines lines).length := by
  rw [encodeLines_cons, List.length_append, List.length_cons]

/-- The ring holds the lines. -/
structure HistRbuf.HoldsLines (r : HistRbuf) (lines : List (List UInt8)) : Prop where
  head_lt : r.head < ringHistoryLen
  tail : r.tail = (r.head + (encodeLines lines).length) % ringHistoryLen
  fits : (encodeLines lines).length < ringHistoryLen
  bytes : Ring ringHistoryLen r.ringBuf r.head (encodeLines lines ++ [0])
  nonempty : ∀ l ∈ lines, l ≠ []
  noZero : ∀ l ∈ lines, 0 ∉ l

namespace HistRbuf

variable {p : Platform} {r : HistRbuf} {lines : List (List UInt8)} {l : List UInt8}

theorem byteAt_lt {i : Nat} (h : i < ringHistoryLen) : r.byteAt i = r.ringBuf i := if_pos h

/-- The byte behind the array. -/
theorem byteAt_len_ne_zero (hlt : r.head < ringHistoryLen) (hne : r.head ≠ 0) :
    r.byteAt ringHistoryLen ≠ 0 := by
  rw [byteAt, if_neg (Nat.lt_irrefl _), Nat.sub_self, Nat.pow_zero, Nat.div_one]
  intro h
  have hval := congrArg UInt8.toNat h
  rw [UInt8.toNat_ofNat', Nat.mod_eq_of_lt (by rw [ringHistoryLen] at hlt; omega)] at hval
  exact hne hval

/-- One round of the walk is a step around the ring. -/
theorem prvHistNextRecord_succ {rounds idx : Nat} (hidx : idx < ringHistoryLen)
    (hlt : r.head < ringHistoryLen) (hwrap : r.head ≠ 0 ∨ idx + 1 < ringHistoryLen) :
    r.prvHistNextRecord (rounds + 1) idx =
      if r.ringBuf ((idx + 1) % ringHistoryLen) = 0 then some ((idx + 1) % ringHistoryLen)
      else r.prvHistNextRecord rounds ((idx + 1) % ringHistoryLen) := by
  rw [prvHistNextRecord]
  rcases Nat.lt_or_ge (idx + 1) ringHistoryLen with hlow | hhigh
  · rw [byteAt_lt hlow, if_neg (Nat.not_le.mpr hlow), Nat.mod_eq_of_lt hlow]
  · have heq : idx + 1 = ringHistoryLen := Nat.le_antisymm hidx hhigh
    have hne : r.head ≠ 0 := hwrap.resolve_right (Nat.not_lt.mpr hhigh)
    rw [heq, if_neg (byteAt_len_ne_zero hlt hne), if_pos (Nat.le_refl _), Nat.sub_self,
      Nat.mod_self, byteAt_lt (Nat.lt_of_le_of_lt (Nat.zero_le _) hlt)]

/-- From the zero byte in front of a line the walk gets to the one behind it. -/
theorem prvHistNextRecord_eq {rounds idx : Nat} (hidx : idx < ringHistoryLen)
    (hl : Ring ringHistoryLen r.ringBuf (idx + 1) (l ++ [0])) (hzero : 0 ∉ l)
    (hrounds : l.length < rounds) (hlt : r.head < ringHistoryLen)
    (hwrap : r.head ≠ 0 ∨ idx + l.length + 1 < ringHistoryLen) :
    r.prvHistNextRecord rounds idx = some ((idx + l.length + 1) % ringHistoryLen) := by
  have hpos : 0 < ringHistoryLen := Nat.lt_of_le_of_lt (Nat.zero_le _) hlt
  obtain ⟨rounds, rfl⟩ : ∃ n, rounds = n + 1 := ⟨rounds - 1, by omega⟩
  rw [prvHistNextRecord_succ hidx hlt (hwrap.imp_right fun h => by omega)]
  induction l generalizing rounds idx with
  | nil =>
    rw [List.nil_append, ring_singleton] at hl
    rw [if_pos hl]
    rfl
  | cons c l ih =>
    rw [List.cons_append, ring_cons] at hl
    rw [List.length_cons] at hrounds hwrap
    obtain ⟨rounds, rfl⟩ : ∃ n, rounds = n + 1 := ⟨rounds - 1, by omega⟩
    have hnext : (idx + 1) % ringHistoryLen < ringHistoryLen := Nat.mod_lt _ hpos
    have hrest : Ring ringHistoryLen r.ringBuf ((idx + 1) % ringHistoryLen + 1) (l ++ [0]) := by
      rw [← ring_mod_iff, Nat.mod_add_mod, ring_mod_iff]
      exact hl.2
    have hwrap' : r.head ≠ 0 ∨ (idx + 1) % ringHistoryLen + l.length + 1 < ringHistoryLen :=
      hwrap.imp_right fun h => by rw [Nat.mod_eq_of_lt (by omega)]; omega
    have hc : c ≠ 0 := fun h0 => hzero (h0 ▸ List.mem_cons_self)
    rw [hl.1, if_neg hc, prvHistNextRecord_succ hnext hlt (hwrap'.imp_right fun h => by omega),
      ih hnext hrest (fun h0 => hzero (List.mem_cons_of_mem c h0)) hwrap' rounds (by omega),
      Nat.add_assoc, Nat.mod_add_mod, List.length_cons, ← Nat.add_assoc (idx + 1),
      Nat.add_right_comm idx 1, ← Nat.add_assoc]

/-- The position of the zero byte behind some of the oldest lines. -/
def posAfter (r : HistRbuf) (pre : List (List UInt8)) : Nat :=
  (r.head + (encodeLines pre).length) % ringHistoryLen

theorem posAfter_lt (r : HistRbuf) (pre : List (List UInt8)) :
    r.posAfter pre < ringHistoryLen := Nat.mod_lt _ (by decide)

theorem posAfter_snoc (r : HistRbuf) (pre : List (List UInt8)) (l : List UInt8) :
    r.posAfter (pre ++ [l]) = (r.posAfter pre + l.length + 1) % ringHistoryLen := by
  have hnil : (encodeLines []).length = 0 := rfl
  rw [posAfter, posAfter, encodeLines_append, List.length_append, length_encodeLines_cons, hnil,
    Nat.add_assoc _ l.length, Nat.mod_add_mod, Nat.add_zero, Nat.add_assoc]

namespace HoldsLines

variable {pre post : List (List UInt8)}

theorem posAfter_nil (h : r.HoldsLines lines) : r.posAfter [] = r.head :=
  Nat.mod_eq_of_lt h.head_lt

/-- A line in the ring, with the zero bytes around it. -/
theorem ring_line (h : r.HoldsLines (pre ++ l :: post)) :
    Ring ringHistoryLen r.ringBuf (r.posAfter pre + 1) (l ++ [0]) := by
  have hbytes := h.bytes
  rw [encodeLines_append, encodeLines_cons, List.append_assoc, ring_append] at hbytes
  have hline := hbytes.2
  rw [List.cons_append, List.cons_append, ring_cons, List.append_assoc] at hline
  obtain ⟨zeros, hzeros⟩ : ∃ zeros, encodeLines post ++ [0] = [0] ++ zeros := by
    cases post with
    | nil => exact ⟨[], rfl⟩
    | cons l' post => exact ⟨l' ++ encodeLines post ++ [0], by rw [encodeLines_cons]; rfl⟩
  rw [hzeros, ← List.append_assoc, ring_append] at hline
  rw [← ring_mod_iff, posAfter, Nat.mod_add_mod, ring_mod_iff]
  exact hline.2.1

/-- A ring whose head is 0 does not wrap around. -/
theorem wrap (h : r.HoldsLines (pre ++ l :: post)) :
    r.head ≠ 0 ∨ r.posAfter pre + l.length + 1 < ringHistoryLen := by
  have hfits := h.fits
  rw [encodeLines_append, List.length_append, length_encodeLines_cons] at hfits
  by_cases hhead : r.head = 0
  · refine .inr ?_
    rw [posAfter, hhead, Nat.zero_add, Nat.mod_eq_of_lt (by omega)]
    omega
  · exact .inl hhead

theorem length_line_lt (h : r.HoldsLines (pre ++ l :: post)) : l.length < ringHistoryLen := by
  have hfits := h.fits
  rw [encodeLines_append, List.length_append, length_encodeLines_cons] at hfits
  omega

theorem prvHistNextRecord (h : r.HoldsLines (pre ++ l :: post)) {rounds : Nat}
    (hrounds : ringHistoryLen ≤ rounds) :
    r.prvHistNextRecord rounds (r.posAfter pre) = some (r.posAfter (pre ++ [l])) := by
  have hlen := h.length_line_lt
  rw [prvHistNextRecord_eq (r.posAfter_lt pre) h.ring_line (h.noZero l (by simp)) (by omega)
    h.head_lt h.wrap, posAfter_snoc]

theorem posAfter_ne_tail (h : r.HoldsLines (pre ++ l :: post)) : r.posAfter pre ≠ r.tail := by
  have hfits := h.fits
  rw [h.tail, posAfter]
  rw [encodeLines_append, List.length_append, length_encodeLines_cons] at hfits ⊢
  have hhead := h.head_lt
  simp only [ringHistoryLen] at hfits hhead ⊢
  omega

theorem posAfter_eq_tail (h : r.HoldsLines lines) : r.posAfter lines = r.tail := h.tail.symm

/-- Every line takes two bytes or more. -/
theorem length_le (h : r.HoldsLines lines) : lines.length < ringHistoryLen := by
  refine Nat.lt_of_le_of_lt ?_ h.fits
  rw [encodeLines, List.length_flatMap]
  clear h
  induction lines with
  | nil => exact Nat.le_refl 0
  | cons l lines ih =>
    simp only [List.map_cons, List.sum_cons, List.length_cons] at ih ⊢
    omega

theorem countRecords (h : r.HoldsLines (pre ++ post)) {rounds cnt : Nat}
    (hrounds : post.length < rounds) :
    r.countRecords p rounds (r.posAfter pre) cnt = some (cnt + post.length) := by
  have hp := p.rounds_ge
  induction post generalizing pre rounds cnt with
  | nil =>
    obtain ⟨rounds, rfl⟩ : ∃ n, rounds = n + 1 := ⟨rounds - 1, by omega⟩
    rw [List.append_nil] at h
    rw [HistRbuf.countRecords, if_pos h.posAfter_eq_tail]
    rfl
  | cons l post ih =>
    obtain ⟨rounds, rfl⟩ : ∃ n, rounds = n + 1 := ⟨rounds - 1, by omega⟩
    rw [List.length_cons] at hrounds
    rw [HistRbuf.countRecords, if_neg h.posAfter_ne_tail,
      h.prvHistNextRecord (by rw [ringHistoryLen]; omega), Option.bind_some]
    rw [List.append_cons] at h
    rw [ih h (by omega), List.length_cons, Nat.add_assoc, Nat.add_comm 1]

/-- The search for the record of the navigation counter passes the older ones. -/
theorem findRecord (h : r.HoldsLines (pre ++ post)) {rounds cnt j d : Nat}
    (hd : d ≤ post.length) (hcnt : cnt = j + d + r.count) (hrounds : d < rounds) :
    r.findRecord p cnt rounds j (r.posAfter pre) = some (r.posAfter (pre ++ post.take d)) := by
  have hp := p.rounds_ge
  induction d generalizing pre post rounds j with
  | zero =>
    obtain ⟨rounds, rfl⟩ : ∃ n, rounds = n + 1 := ⟨rounds - 1, by omega⟩
    rw [HistRbuf.findRecord, if_pos (by omega), List.take_zero, List.append_nil]
  | succ d ih =>
    obtain ⟨rounds, rfl⟩ : ∃ n, rounds = n + 1 := ⟨rounds - 1, by omega⟩
    cases post with
    | nil => exact absurd hd (Nat.not_succ_le_zero d)
    | cons l post =>
      rw [HistRbuf.findRecord, if_neg (by omega),
        h.prvHistNextRecord (by rw [ringHistoryLen]; omega), Option.bind_some]
      rw [List.append_cons] at h
      rw [ih h (Nat.le_of_succ_le_succ hd) (by omega) (by omega), List.take_succ_cons,
        ← List.append_cons pre]

end HoldsLines

/-- The length of the line behind a zero byte, as the loop finds it. -/
theorem recordLen_eq {rounds k len : Nat} (hk : k < ringHistoryLen)
    (hl : Ring ringHistoryLen r.ringBuf k (l ++ [0])) (hzero : 0 ∉ l)
    (hrounds : l.length < rounds) :
    r.recordLen rounds k len = some (len + l.length) := by
  obtain ⟨rounds, rfl⟩ : ∃ n, rounds = n + 1 := ⟨rounds - 1, by omega⟩
  induction l generalizing k len rounds with
  | nil =>
    rw [List.nil_append, ring_singleton, Nat.mod_eq_of_lt hk] at hl
    rw [recordLen, byteAt_lt hk, if_pos hl]
    rfl
  | cons c l ih =>
    rw [List.cons_append, ring_cons, Nat.mod_eq_of_lt hk] at hl
    have hc : c ≠ 0 := fun h0 => hzero (h0 ▸ List.mem_cons_self)
    have hnext : (if ringHistoryLen ≤ k + 1 then k + 1 - ringHistoryLen else k + 1) =
        (k + 1) % ringHistoryLen := by
      rcases Nat.lt_or_ge (k + 1) ringHistoryLen with hlow | hhigh
      · rw [if_neg (by omega), Nat.mod_eq_of_lt hlow]
      · have heq : k + 1 = ringHistoryLen := Nat.le_antisymm hk hhigh
        rw [if_pos hhigh, heq, Nat.sub_self, Nat.mod_self]
    rw [List.length_cons] at hrounds
    obtain ⟨rounds, rfl⟩ : ∃ n, rounds = n + 1 := ⟨rounds - 1, by omega⟩
    rw [recordLen, byteAt_lt hk, hl.1, if_neg hc, hnext,
      ih (Nat.mod_lt _ (by decide)) hl.2.mod (fun h0 => hzero (List.mem_cons_of_mem c h0)) rounds
        (by omega), List.length_cons, Nat.add_assoc, Nat.add_comm 1]

/-- The loop starts behind the array if the zero byte is the last one of it. -/
theorem recordLen_behind {rounds idx : Nat} (hidx : idx < ringHistoryLen) (hne : l ≠ [])
    (hl : Ring ringHistoryLen r.ringBuf (idx + 1) (l ++ [0])) (hzero : 0 ∉ l)
    (hrounds : l.length < rounds) (hlt : r.head < ringHistoryLen)
    (hwrap : r.head ≠ 0 ∨ idx + 1 < ringHistoryLen) :
    r.recordLen rounds (idx + 1) 0 = some l.length := by
  rcases Nat.lt_or_ge (idx + 1) ringHistoryLen with hlow | hhigh
  · rw [recordLen_eq hlow hl hzero hrounds, Nat.zero_add]
  · have heq : idx + 1 = ringHistoryLen := Nat.le_antisymm hidx hhigh
    have hhead : r.head ≠ 0 := hwrap.resolve_right (Nat.not_lt.mpr hhigh)
    obtain ⟨c, l, rfl⟩ := List.exists_cons_of_ne_nil hne
    obtain ⟨rounds, rfl⟩ : ∃ n, rounds = n + 1 := ⟨rounds - 1, by omega⟩
    rw [List.length_cons] at hrounds
    rw [heq] at hl ⊢
    rw [List.cons_append, ring_cons] at hl
    have hnext : (if ringHistoryLen ≤ ringHistoryLen + 1 then ringHistoryLen + 1 - ringHistoryLen
        else ringHistoryLen + 1) = 1 := rfl
    rw [recordLen, if_neg (byteAt_len_ne_zero hlt hhead), hnext,
      recordLen_eq (by decide) (by rw [← ring_mod_iff] at hl; exact hl.2)
        (fun h0 => hzero (List.mem_cons_of_mem c h0)) (by omega), List.length_cons,
      Nat.zero_add, Nat.add_comm]

/-- What `copyRecord` copies is the line, in one part or in two. -/
theorem copyRecord_eq {line : Mem} {idx : Nat} (hidx : idx < ringHistoryLen) (hne : l ≠ [])
    (hl : Ring ringHistoryLen r.ringBuf (idx + 1) (l ++ [0])) (hzero : 0 ∉ l)
    (hlen : l.length < ringHistoryLen) (hlt : r.head < ringHistoryLen)
    (hwrap : r.head ≠ 0 ∨ idx + 1 < ringHistoryLen) :
    r.copyRecord p line (idx + 1) = some (write (fill line 0 cmdlineLen 0) 0 l, l.length) := by
  have hp := p.rounds_ge
  have hring := (ring_append.mp hl).1
  have hsizes : ringHistoryLen = cmdlineLen := rfl
  have hrounds : l.length < p.rounds := by
    rw [ringHistoryLen] at hlen
    omega
  rw [copyRecord, recordLen_behind hidx hne hl hzero hrounds hlt hwrap]
  simp (disch := omega) only [memset, stored_of_le, Option.bind_eq_bind, Option.bind_some]
  rcases Nat.lt_or_ge (idx + 1 + l.length) ringHistoryLen with hone | htwo
  · rw [if_pos hone, load_eq (hring.holds (Nat.le_of_lt hone))]
    simp (disch := omega) only [memcpy, stored_of_le, Option.bind_some]
  · rw [if_neg (Nat.not_lt.mpr htwo)]
    have htake : (l.take (ringHistoryLen - (idx + 1))).length = ringHistoryLen - (idx + 1) := by
      rw [List.length_take]
      omega
    have hdrop : (l.drop (ringHistoryLen - (idx + 1))).length =
        l.length - (ringHistoryLen - (idx + 1)) := List.length_drop
    rw [← List.take_append_drop (ringHistoryLen - (idx + 1)) l, ring_append, htake] at hring
    have hfirst := load_eq (hring.1.holds (by omega))
    have hsecond : Ring ringHistoryLen r.ringBuf 0 (l.drop (ringHistoryLen - (idx + 1))) := by
      have hend := hring.2.mod
      rwa [show idx + 1 + (ringHistoryLen - (idx + 1)) = ringHistoryLen from by omega,
        Nat.mod_self] at hend
    have hrest := load_eq (hsecond.holds (by omega))
    rw [htake] at hfirst
    rw [hdrop] at hrest
    rw [hfirst, hrest]
    simp (disch := omega) only [memcpy, stored_of_le, Option.bind_some]
    have hwhole := write_append (fill line 0 cmdlineLen 0) 0
      (l.take (ringHistoryLen - (idx + 1))) (l.drop (ringHistoryLen - (idx + 1)))
    rw [List.take_append_drop, htake, Nat.zero_add] at hwhole
    rw [hwhole]

end HistRbuf

/-! ## The history

The abstract history is the list of the saved lines with the navigation counter. -/

structure History where
  lines : List (List UInt8)
  nav : Nat
  deriving DecidableEq, Repr

namespace History

def empty : History := ⟨[], 0⟩

/-- The line that the navigation counter stands for. -/
def current (h : History) : List UInt8 :=
  if h.nav = 0 then [] else h.lines.getD (h.lines.length - h.nav) []

def up (h : History) : History := { h with nav := min (h.nav + 1) h.lines.length }

def down (h : History) : History := { h with nav := h.nav - 1 }

/-- The line with which a new one is compared: the latest one, or the one before the line to
which the user has gone up. -/
def compared (h : History) : List UInt8 := if h.nav = 1 then h.current else h.up.current

/-- Give up the oldest lines until `len` more bytes and a zero byte fit. -/
def makeRoom (len : Nat) : List (List UInt8) → List (List UInt8)
  | [] => []
  | l :: lines =>
    if (encodeLines (l :: lines)).length + len < ringHistoryLen - 1 then l :: lines
    else makeRoom len lines

/-- The history after a line has been entered.  `shown` is the line as the comparison sees it,
which a cut by `^K` does not end. -/
def save (h : History) (line shown : List UInt8) : History :=
  if ringHistoryLen - 1 < line.length then h
  else if shown = h.compared then { h with nav := 0 }
  else ⟨makeRoom line.length h.lines ++ [line], 0⟩

end History

/-- The ring buffer holds the history. -/
structure HistRbuf.HoldsHistory (r : HistRbuf) (h : History) : Prop where
  lines : r.HoldsLines h.lines
  count : r.count = h.nav
  nav_le : h.nav ≤ h.lines.length
  empty : h.lines = [] → r.head = 0 ∧ r.ringBuf 1 = 0

namespace HistRbuf

variable {p : Platform} {r : HistRbuf} {hist : History}

theorem HoldsLines.withCount {lines : List (List UInt8)} (h : r.HoldsLines lines) (count : Nat) :
    { r with count }.HoldsLines lines := ⟨h.1, h.2, h.3, h.4, h.5, h.6⟩

/-- The record of the navigation counter is copied to the line. -/
theorem HoldsHistory.restore_current (h : r.HoldsHistory hist)
    (hnav : hist.nav ≠ 0 ∨ hist.lines = []) (line : Mem) :
    ((r.findRecord p hist.lines.length p.rounds 0 r.head).bind fun idx =>
      r.copyRecord p line (idx + 1)) =
      some (write (fill line 0 cmdlineLen 0) 0 hist.current, hist.current.length) := by
  have hle := h.nav_le
  have hp := p.rounds_ge
  have hcount := h.lines.length_le
  rw [ringHistoryLen] at hcount
  have hfind : r.findRecord p hist.lines.length p.rounds 0 (r.posAfter []) =
      some (r.posAfter ([] ++ hist.lines.take (hist.lines.length - hist.nav))) :=
    HoldsLines.findRecord h.lines (Nat.sub_le _ _) (by rw [h.count]; omega) (by omega)
  rw [h.lines.posAfter_nil, List.nil_append] at hfind
  rw [hfind, Option.bind_some]
  rcases hnav with hnav | hnil
  · have hlt : hist.lines.length - hist.nav < hist.lines.length := by omega
    have hcurrent : hist.current = hist.lines[hist.lines.length - hist.nav] := by
      rw [History.current, if_neg hnav, List.getD_eq_getElem _ _ hlt]
    have hlines := h.lines
    rw [← List.take_append_drop (hist.lines.length - hist.nav) hist.lines,
      List.drop_eq_getElem_cons hlt, ← hcurrent] at hlines
    have hmem : hist.current ∈ hist.lines := hcurrent ▸ List.getElem_mem hlt
    exact copyRecord_eq (r.posAfter_lt _) (h.lines.nonempty _ hmem) hlines.ring_line
      (h.lines.noZero _ hmem) hlines.length_line_lt hlines.head_lt
      (hlines.wrap.imp_right fun hw => by omega)
  · -- Nothing has been saved yet, and the ring is as `memset` left it.
    obtain ⟨hhead, hone⟩ := h.empty hnil
    obtain ⟨rounds, hrounds⟩ : ∃ n, p.rounds = n + 1 := ⟨p.rounds - 1, by omega⟩
    have hcurrent : hist.current = [] := by
      rw [History.current, hnil]
      exact ite_self _
    rw [hnil, hcurrent, List.take_nil, h.lines.posAfter_nil, hhead, copyRecord, hrounds,
      recordLen, byteAt_lt (by decide), if_pos hone]
    simp (disch := decide) only [memset, stored_of_le, Option.bind_eq_bind, Option.bind_some]
    rw [if_pos (by decide)]
    rfl

namespace HoldsHistory

theorem countRecords (h : r.HoldsHistory hist) :
    r.countRecords p p.rounds r.head 0 = some hist.lines.length := by
  have hp := p.rounds_ge
  have hcount := h.lines.length_le
  rw [ringHistoryLen] at hcount
  have hall : r.countRecords p p.rounds (r.posAfter []) 0 = some (0 + hist.lines.length) :=
    HoldsLines.countRecords h.lines (by omega)
  rwa [h.lines.posAfter_nil, Nat.zero_add] at hall

/-- Another value of the navigation counter. -/
theorem withNav (h : r.HoldsHistory hist) {nav : Nat} (hle : nav ≤ hist.lines.length) :
    { r with count := nav }.HoldsHistory { hist with nav } where
  lines := h.lines.withCount nav
  count := rfl
  nav_le := hle
  empty := h.empty

theorem up (h : r.HoldsHistory hist) :
    { r with count := hist.up.nav }.HoldsHistory hist.up := h.withNav (Nat.min_le_right _ _)

theorem down (h : r.HoldsHistory hist) :
    { r with count := hist.down.nav }.HoldsHistory hist.down :=
  h.withNav (Nat.le_trans (Nat.sub_le _ _) h.nav_le)

/-- The line of the history comes back. -/
theorem restore_of_navigate (h : r.HoldsHistory hist) {dir : HistDir} {r' : HistRbuf}
    {hist' : History} (hnavigate : r.navigate hist.lines.length dir = (r', true))
    (h' : r'.HoldsHistory hist') (hlines : hist'.lines = hist.lines)
    (hnav : hist'.nav ≠ 0 ∨ hist'.lines = []) (line : Mem) :
    r.prvHistRestoreLine p line dir = some (r', write (fill line 0 cmdlineLen 0) 0 hist'.current,
      hist'.current.length) := by
  have hcopy := h'.restore_current (p := p) hnav line
  rw [hlines] at hcopy
  rw [prvHistRestoreLine, h.countRecords]
  simp only [Option.bind_eq_bind, Option.bind_some, hnavigate]
  rw [← Option.bind_assoc, hcopy]
  rfl

theorem restore_up (h : r.HoldsHistory hist) (line : Mem) :
    r.prvHistRestoreLine p line .up = some ({ r with count := hist.up.nav },
      write (fill line 0 cmdlineLen 0) 0 hist.up.current, hist.up.current.length) := by
  have hle := h.nav_le
  have hcount := h.count
  have hnav : hist.up.nav = min (hist.nav + 1) hist.lines.length := rfl
  refine h.restore_of_navigate ?_ h.up rfl ?_ line
  · rw [navigate, hcount, if_neg (Nat.not_lt.mpr hle)]
    split
    case isTrue hne => rw [hnav, Nat.min_eq_left (by omega)]
    case isFalse heq =>
      rw [hnav, Nat.min_eq_right (by omega), not_not.mp heq, ← hcount]
  · rw [hnav]
    show _ ∨ hist.lines = []
    rw [← List.length_eq_zero_iff]
    omega

theorem restore_none (h : r.HoldsHistory hist) (hnav : hist.nav = 1) (line : Mem) :
    r.prvHistRestoreLine p line .none = some (r, write (fill line 0 cmdlineLen 0) 0 hist.current,
      hist.current.length) :=
  h.restore_of_navigate rfl h rfl (.inl (by omega)) line

theorem restore_down (h : r.HoldsHistory hist) (line : Mem) :
    r.prvHistRestoreLine p line .down = some ({ r with count := hist.down.nav },
      if hist.down.nav = 0 then line else write (fill line 0 cmdlineLen 0) 0 hist.down.current,
      hist.down.current.length) := by
  have hcount := h.count
  have hnav : hist.down.nav = hist.nav - 1 := rfl
  rcases Nat.lt_or_ge hist.nav 2 with hlow | hhigh
  · have hzero : hist.down.nav = 0 := by omega
    have hcurrent : hist.down.current = [] := if_pos hzero
    have hnavigate : r.navigate hist.lines.length .down =
        ({ r with count := hist.down.nav }, false) := by
      rw [navigate, hcount, hzero]
      split
      case isTrue h0 => rw [← h0, ← hcount]
      case isFalse h0 => simp [show hist.nav = 1 from by omega]
    rw [prvHistRestoreLine, h.countRecords]
    simp only [Option.bind_eq_bind, Option.bind_some, hnavigate]
    rw [hcurrent, if_pos hzero]
    rfl
  · rw [if_neg (by omega)]
    refine h.restore_of_navigate ?_ h.down rfl (.inl (by omega)) line
    rw [navigate, hcount, if_neg (by omega), hnav]
    simp [show hist.nav ≠ 1 from by omega]

end HoldsHistory

/-! ## Saving -/

namespace HoldsLines

variable {lines : List (List UInt8)} {l line : List UInt8}

theorem prvHistEraseOlder (h : r.HoldsLines (l :: lines)) :
    ∃ r', r.prvHistEraseOlder p = some r' ∧ r'.HoldsLines lines := by
  have hp := p.rounds_ge
  have hnext : r.prvHistNextRecord p.rounds (r.posAfter []) = some (r.posAfter ([] ++ [l])) :=
    @HoldsLines.prvHistNextRecord r l [] lines h p.rounds (by rw [ringHistoryLen]; omega)
  rw [h.posAfter_nil, List.nil_append] at hnext
  refine ⟨_, by rw [HistRbuf.prvHistEraseOlder, hnext, Option.map_some], ?_⟩
  have hnil : (encodeLines []).length = 0 := rfl
  have hfits := h.fits
  rw [length_encodeLines_cons] at hfits
  exact {
    head_lt := posAfter_lt r [l]
    tail := by
      rw [h.tail, posAfter, length_encodeLines_cons, length_encodeLines_cons, hnil, Nat.add_zero,
        Nat.mod_add_mod, Nat.add_assoc r.head]
    fits := by omega
    bytes := by
      have hbytes := h.bytes
      rw [encodeLines_cons, List.append_assoc, ring_append, List.length_cons] at hbytes
      rw [posAfter, length_encodeLines_cons, hnil, Nat.add_zero, ring_mod_iff]
      exact hbytes.2
    nonempty := fun l' hl' => h.nonempty l' (List.mem_cons_of_mem l hl')
    noZero := fun l' hl' => h.noZero l' (List.mem_cons_of_mem l hl') }

theorem prvHistIsSpaceForNew_iff (h : r.HoldsLines lines) {len : Nat} :
    r.prvHistIsSpaceForNew len = true ↔ (encodeLines lines).length + len < ringHistoryLen - 1 := by
  have hhead := h.head_lt
  have htail := h.tail
  have hfits := h.fits
  have hlen : ringHistoryLen = 128 := rfl
  rw [hlen] at htail hfits hhead
  rw [prvHistIsSpaceForNew]
  split
  · rw [decide_eq_true_iff]
    omega
  · rw [decide_eq_true_iff]
    omega

/-- The oldest lines are given up until there is room. -/
theorem makeRoom (h : r.HoldsLines lines) {len rounds : Nat} (hlen : len < ringHistoryLen - 1)
    (hrounds : lines.length < rounds) :
    ∃ r', HistRbuf.makeRoom p len rounds r = some r' ∧
      r'.HoldsLines (History.makeRoom len lines) ∧
      (encodeLines (History.makeRoom len lines)).length + len < ringHistoryLen - 1 := by
  induction lines generalizing r rounds with
  | nil =>
    obtain ⟨rounds, rfl⟩ : ∃ n, rounds = n + 1 := ⟨rounds - 1, by omega⟩
    have hroom : (encodeLines []).length + len < ringHistoryLen - 1 := by
      rw [show (encodeLines []).length = 0 from rfl]
      omega
    refine ⟨r, ?_, h, hroom⟩
    rw [HistRbuf.makeRoom, if_pos (h.prvHistIsSpaceForNew_iff.mpr hroom)]
  | cons l lines ih =>
    obtain ⟨rounds, rfl⟩ : ∃ n, rounds = n + 1 := ⟨rounds - 1, by omega⟩
    rw [HistRbuf.makeRoom, History.makeRoom]
    by_cases hroom : (encodeLines (l :: lines)).length + len < ringHistoryLen - 1
    · rw [if_pos (h.prvHistIsSpaceForNew_iff.mpr hroom), if_pos hroom]
      exact ⟨r, rfl, h, hroom⟩
    · rw [if_neg (mt h.prvHistIsSpaceForNew_iff.mp hroom), if_neg hroom]
      obtain ⟨r', herase, hr'⟩ := h.prvHistEraseOlder (p := p)
      rw [herase, Option.bind_some]
      exact ih hr' (Nat.lt_of_succ_lt_succ hrounds)

/-- In one part or in two, the line is stored in the ring. -/
theorem copyLine_eq (htail : r.tail < ringHistoryLen) (hlen : line.length < ringHistoryLen) :
    r.copyLine line = some (store ringHistoryLen r.ringBuf (r.tail + 1) line) := by
  rw [copyLine, store, ← Nat.sub_sub]
  split
  case isTrue hone =>
    rw [memcpy, stored_of_le (by omega), List.take_of_length_le (by omega),
      List.drop_eq_nil_of_le (by omega), write_nil]
  case isFalse htwo =>
    have htake : (line.take (ringHistoryLen - r.tail - 1)).length =
        ringHistoryLen - r.tail - 1 := by
      rw [List.length_take]
      omega
    have hdrop : (line.drop (ringHistoryLen - r.tail - 1)).length =
        line.length - (ringHistoryLen - r.tail - 1) := List.length_drop
    simp (disch := omega) only [memcpy, stored_of_le, Option.bind_eq_bind, Option.bind_some]

theorem storeRecord (h : r.HoldsLines lines)
    (hroom : (encodeLines lines).length + line.length < ringHistoryLen - 1) (hne : line ≠ [])
    (hzero : 0 ∉ line) :
    ∃ r', r.storeRecord line = some r' ∧ r'.HoldsLines (lines ++ [line]) ∧ r'.count = 0 := by
  have hhead := h.head_lt
  have hfits := h.fits
  have htail : r.tail < ringHistoryLen := h.tail ▸ Nat.mod_lt _ (by decide)
  have hsize : (encodeLines (lines ++ [line])).length =
      (encodeLines lines).length + (line.length + 1) := by
    rw [encodeLines_append, List.length_append, length_encodeLines_cons]
    rfl
  have hring : r.copyLine line = some (store ringHistoryLen r.ringBuf (r.tail + 1) line) :=
    copyLine_eq htail (by omega)
  have hnewtail : (if ringHistoryLen ≤ r.tail + line.length + 1 then
      r.tail + line.length + 1 - ringHistoryLen else r.tail + line.length + 1) =
      (r.head + (encodeLines (lines ++ [line])).length) % ringHistoryLen := by
    rw [hsize, ← Nat.add_assoc r.head, ← Nat.mod_add_mod, ← h.tail]
    have hlen : ringHistoryLen = 128 := rfl
    rw [hlen] at htail ⊢
    split <;> omega
  have htext : encodeLines (lines ++ [line]) = encodeLines lines ++ [0] ++ line := by
    rw [encodeLines_append, List.append_assoc]
    show _ ++ (0 :: line ++ []) = _
    rw [List.append_nil]
    rfl
  have hold : Ring ringHistoryLen (store ringHistoryLen r.ringBuf (r.tail + 1) line) r.head
      (encodeLines lines ++ [0]) := by
    refine h.bytes.store htail ?_ ?_
    · rw [List.length_append, List.length_singleton]
      omega
    · rw [List.length_append, List.length_singleton, ← Nat.add_assoc, ← Nat.mod_add_mod, ← h.tail]
  have hlines : Ring ringHistoryLen (store ringHistoryLen r.ringBuf (r.tail + 1) line) r.head
      (encodeLines (lines ++ [line])) := by
    rw [htext]
    refine ring_append.mpr ⟨hold, ?_⟩
    rw [← ring_mod_iff, List.length_append, List.length_singleton, ← Nat.add_assoc,
      ← Nat.mod_add_mod, ← h.tail, ring_mod_iff]
    exact ring_store htail (by omega)
  rw [HistRbuf.storeRecord, hring]
  simp only [Option.bind_eq_bind, Option.bind_some, hnewtail]
  have hend : (r.head + (encodeLines (lines ++ [line])).length) % ringHistoryLen < ringHistoryLen :=
    Nat.mod_lt _ (by decide)
  rw [memcpy, stored_of_le (by rw [List.length_singleton]; omega)]
  refine ⟨_, rfl, ⟨hhead, rfl, by omega, ?_, ?_, ?_⟩, rfl⟩
  · show Ring ringHistoryLen (write _ _ [0]) r.head _
    rw [← store_singleton hend]
    refine ring_append.mpr ⟨hlines.store (Nat.le_of_lt hend) ?_ (Nat.mod_mod _ _).symm, ?_⟩
    · rw [hsize, List.length_singleton]
      omega
    · rw [← ring_mod_iff]
      exact ring_store (Nat.le_of_lt hend) (by decide)
  · intro l hl
    rcases List.mem_append.mp hl with hl | hl
    · exact h.nonempty l hl
    · rw [List.mem_singleton.mp hl]
      exact hne
  · intro l hl
    rcases List.mem_append.mp hl with hl | hl
    · exact h.noZero l hl
    · rw [List.mem_singleton.mp hl]
      exact hzero

theorem length_lt (h : r.HoldsLines lines) (hl : l ∈ lines) : l.length < ringHistoryLen - 1 := by
  obtain ⟨pre, post, rfl⟩ := List.append_of_mem hl
  have hfits := h.fits
  rw [encodeLines_append, List.length_append, length_encodeLines_cons] at hfits
  omega

end HoldsLines

namespace HoldsHistory

/-- The line to which the navigation counter points is a saved one, or there is none. -/
theorem current_mem (h : r.HoldsHistory hist) :
    hist.current = [] ∨ hist.current ∈ hist.lines := by
  have hle := h.nav_le
  rw [History.current]
  split
  case isTrue => exact .inl rfl
  case isFalse hnav =>
    rw [List.getD_eq_getElem _ _ (by omega)]
    exact .inr (List.getElem_mem _)

theorem length_current_lt (h : r.HoldsHistory hist) :
    hist.current.length < ringHistoryLen - 1 := by
  rcases h.current_mem with hnil | hmem
  · rw [hnil]
    decide
  · exact h.lines.length_lt hmem

theorem zero_not_mem_current (h : r.HoldsHistory hist) : 0 ∉ hist.current := by
  rcases h.current_mem with hnil | hmem
  · rw [hnil]
    exact List.not_mem_nil
  · exact h.lines.noZero _ hmem

/-- A restored line is the string in front of the zero bytes. -/
theorem stringAt_restored (h : r.HoldsHistory hist) (line : Mem) :
    stringAt (cmdlineLen + 1) (write (fill line 0 cmdlineLen 0) 0 hist.current) 0 =
      hist.current := by
  have hlen := h.length_current_lt
  have hsizes : ringHistoryLen = cmdlineLen := rfl
  refine stringAt_eq (fun i hi => ?_) h.zero_not_mem_current (by omega)
  rw [Nat.zero_add]
  rcases Nat.lt_or_ge i hist.current.length with hlt | hge
  · rw [write_of_mem (Nat.zero_le i) (by omega), Nat.sub_zero]
  · rw [write_of_outside (.inr (by omega)), fill, if_pos (by omega),
      List.getD_eq_default _ _ hge]

theorem compared_spec (h : r.HoldsHistory hist) :
    ∃ r', r.prvHistRestoreLine p p.garbage (if r.count = 1 then .none else .up) =
        some (r', write (fill p.garbage 0 cmdlineLen 0) 0 hist.compared, hist.compared.length) ∧
      r'.HoldsLines hist.lines ∧ (hist.lines = [] → r'.head = 0 ∧ r'.ringBuf 1 = 0) ∧
      stringAt (cmdlineLen + 1) (write (fill p.garbage 0 cmdlineLen 0) 0 hist.compared) 0 =
        hist.compared ∧ hist.compared.length < ringHistoryLen - 1 := by
  rw [h.count, History.compared]
  split
  case isTrue hnav =>
    exact ⟨r, h.restore_none hnav p.garbage, h.lines, h.empty, h.stringAt_restored p.garbage,
      h.length_current_lt⟩
  case isFalse hnav =>
    exact ⟨_, h.restore_up p.garbage, h.up.lines, h.up.empty, h.up.stringAt_restored p.garbage,
      h.up.length_current_lt⟩

/-- Saving a line keeps the history, unless the line has just the length for which there is
never room. -/
theorem prvHistSaveLine (h : r.HoldsHistory hist) {line : Mem} {text shown : List UInt8}
    (htext : load line 0 text.length = text) (hshown : stringAt (cmdlineLen + 1) line 0 = shown)
    (hne : text ≠ []) (hzero : 0 ∉ text) (hlen : text.length ≠ ringHistoryLen - 1) :
    ∃ r', r.prvHistSaveLine p line text.length = some r' ∧
      r'.HoldsHistory (hist.save text shown) := by
  have hp := p.rounds_ge
  rw [HistRbuf.prvHistSaveLine, History.save]
  by_cases hlong : ringHistoryLen - 1 < text.length
  · rw [if_pos hlong, if_pos hlong]
    exact ⟨r, rfl, h⟩
  rw [if_neg hlong, if_neg hlong]
  obtain ⟨r', hrestore, hlines, hempty, hcompared, -⟩ := h.compared_spec (p := p)
  simp only [hrestore, Option.bind_eq_bind, Option.bind_some, hshown, hcompared, htext]
  split
  case isTrue hsame =>
    exact ⟨_, rfl, hlines.withCount 0, rfl, Nat.zero_le _, hempty⟩
  case isFalse hdiff =>
    have hcount := h.lines.length_le
    rw [ringHistoryLen] at hcount
    have hrounds : hist.lines.length < p.rounds := by omega
    obtain ⟨r₁, hroom, hr₁, hfits⟩ := hlines.makeRoom (p := p)
      (Nat.lt_of_le_of_ne (Nat.le_of_not_lt hlong) hlen) hrounds
    obtain ⟨r₂, hstore, hr₂, hzeroCount⟩ := hr₁.storeRecord hfits hne hzero
    rw [hroom, Option.bind_some, hstore]
    exact ⟨r₂, rfl, hr₂, hzeroCount, Nat.zero_le _, fun hnil => by simp at hnil⟩

end HoldsHistory

/-! ## A line for which there is no room

There is never room for a line of 127 bytes, and `prv_hist_save_line` gives up only longer
ones.  The loop that makes room then goes on for ever around the ring. -/

/-- Two bytes of the ring are zero, so that the walk from `head` ends before it gets behind
the array. -/
structure Walkable (r : HistRbuf) : Prop where
  head_lt : r.head < ringHistoryLen
  tail_lt : r.tail < ringHistoryLen
  zeros : ∃ a b, a < b ∧ b < ringHistoryLen ∧ r.ringBuf a = 0 ∧ r.ringBuf b = 0

theorem prvHistNextRecord_lt {rounds idx next : Nat} (hidx : idx < ringHistoryLen)
    (hlt : r.head < ringHistoryLen)
    (hzero : r.head ≠ 0 ∨ ∃ q, idx < q ∧ q < ringHistoryLen ∧ r.ringBuf q = 0)
    (h : r.prvHistNextRecord rounds idx = some next) : next < ringHistoryLen := by
  have hpos : 0 < ringHistoryLen := by decide
  induction rounds generalizing idx with
  | zero => cases h
  | succ rounds ih =>
    have hwrap : r.head ≠ 0 ∨ idx + 1 < ringHistoryLen :=
      hzero.imp_right fun ⟨q, hq, hqlt, _⟩ => Nat.lt_of_le_of_lt hq hqlt
    rw [prvHistNextRecord_succ hidx hlt hwrap] at h
    split at h
    case isTrue =>
      cases h
      exact Nat.mod_lt _ hpos
    case isFalse hbyte =>
      refine ih (Nat.mod_lt _ hpos) ?_ h
      by_cases hhead : r.head = 0
      · obtain ⟨q, hq, hqlt, hqzero⟩ := hzero.resolve_left (not_not.mpr hhead)
        refine .inr ⟨q, ?_, hqlt, hqzero⟩
        rw [Nat.mod_eq_of_lt (by omega)] at hbyte ⊢
        exact Nat.lt_of_le_of_ne hq fun heq => hbyte (heq ▸ hqzero)
      · exact .inl hhead

theorem Walkable.prvHistEraseOlder (h : r.Walkable) {r' : HistRbuf}
    (herase : r.prvHistEraseOlder p = some r') : r'.Walkable := by
  obtain ⟨a, b, hab, hb, ha0, hb0⟩ := h.zeros
  rw [HistRbuf.prvHistEraseOlder, Option.map_eq_some_iff] at herase
  obtain ⟨next, hnext, rfl⟩ := herase
  refine ⟨prvHistNextRecord_lt h.head_lt h.head_lt ?_ hnext, h.tail_lt, a, b, hab, hb, ha0, hb0⟩
  by_cases hhead : r.head = 0
  · exact .inr ⟨b, by omega, hb, hb0⟩
  · exact .inl hhead

theorem makeRoom_endless (h : r.Walkable) {len : Nat} (hlen : ringHistoryLen - 1 ≤ len)
    (rounds : Nat) : makeRoom p len rounds r = none := by
  induction rounds generalizing r with
  | zero => rfl
  | succ rounds ih =>
    have hfull : r.prvHistIsSpaceForNew len = false := by
      have hhead := h.head_lt
      have htail := h.tail_lt
      rw [prvHistIsSpaceForNew]
      split
      · exact decide_eq_false (by omega)
      · exact decide_eq_false (by omega)
    rw [makeRoom, hfull, if_neg Bool.false_ne_true]
    cases herase : r.prvHistEraseOlder p with
    | none => rfl
    | some r' => exact ih (h.prvHistEraseOlder herase)

theorem HoldsLines.walkable {lines : List (List UInt8)} (h : r.HoldsLines lines)
    (hempty : lines = [] → r.head = 0 ∧ r.ringBuf 1 = 0) : r.Walkable := by
  have hhead := h.head_lt
  have htail : r.tail < ringHistoryLen := h.tail ▸ Nat.mod_lt _ (by decide)
  refine ⟨hhead, htail, ?_⟩
  have hbytes := ring_append.mp h.bytes
  have hend : r.ringBuf r.tail = 0 := by
    rw [h.tail]
    exact ring_singleton.mp hbytes.2
  cases lines with
  | nil =>
    obtain ⟨hhead0, hone⟩ := hempty rfl
    have htail0 : r.tail = 0 := by
      rw [h.tail, hhead0]
      rfl
    exact ⟨0, 1, Nat.one_pos, by decide, htail0 ▸ hend, hone⟩
  | cons l lines =>
    have hstart : r.ringBuf r.head = 0 := by
      rw [encodeLines_cons, List.cons_append, ring_cons, Nat.mod_eq_of_lt hhead] at hbytes
      exact hbytes.1.1
    have hne : r.head ≠ r.tail := by
      have hpos := @HoldsLines.posAfter_ne_tail r l [] lines h
      rwa [h.posAfter_nil] at hpos
    rcases Nat.lt_or_gt_of_ne hne with hlt | hgt
    · exact ⟨r.head, r.tail, hlt, htail, hstart, hend⟩
    · exact ⟨r.tail, r.head, hgt, hhead, hend, hstart⟩

/-- A line of 127 bytes is never saved. -/
theorem HoldsHistory.prvHistSaveLine_endless (h : r.HoldsHistory hist) {line : Mem}
    (hline : ringHistoryLen - 1 ≤ (stringAt (cmdlineLen + 1) line 0).length) :
    r.prvHistSaveLine p line (ringHistoryLen - 1) = none := by
  obtain ⟨r', hrestore, hlines, hempty, hcompared, hshort⟩ := h.compared_spec (p := p)
  rw [HistRbuf.prvHistSaveLine, if_neg (Nat.lt_irrefl _)]
  simp only [hrestore, Option.bind_eq_bind, Option.bind_some, hcompared]
  rw [if_neg fun heq => by rw [heq] at hline; omega,
    makeRoom_endless (hlines.walkable hempty) (Nat.le_refl _)]
  rfl

end HistRbuf

end Microrl
end Carrels
