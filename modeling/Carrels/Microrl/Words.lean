/-
The words of a command line.

`splitText` is the tokenizer on a string.  A word is cut at the next space, a word in quotes at
the next quote that no backslash precedes.  The limit is the number of characters in front of
the cursor: a word that goes on behind it is dropped with everything after it.  On a buffer that
holds a string without zero bytes, `prv_cmdline_buf_split` finds the words of the string, and
fails when there are more than fit into the array of words.
-/
import Mathlib.Data.List.Forall2
import Carrels.Microrl.Line

namespace Carrels
namespace Microrl

open ByteMemory Fields

/-- The text of a word whose opening quote has been read, and what follows the closing quote.
There is none if the limit lies inside the word. -/
def quotedText : Nat → List UInt8 → Option (List UInt8 × List UInt8)
  | _, [] => some ([], [])
  | 0, _ :: _ => none
  | _ + 1, [c] =>
    if isQuote c then some ([], []) else some ([c], [])
  | limit + 1, c :: d :: s =>
    if c = 92 then
      if isQuote d then (quotedText (limit - 1) s).map fun w => (c :: d :: w.1, w.2)
      else (quotedText limit (d :: s)).map fun w => (c :: w.1, w.2)
    else if isQuote c then some ([], d :: s)
    else (quotedText limit (d :: s)).map fun w => (c :: w.1, w.2)

/-- The characters of a word without quotes. -/
def plainText (s : List UInt8) : List UInt8 := s.takeWhile (· != 32)

/-- A quote inside a word ends the string that is passed on. -/
def untilQuote (w : List UInt8) : List UInt8 := w.takeWhile fun c => !isQuote c

/-- The words of a string, `none` if there are more than `slots`. -/
def splitText : Nat → Nat → List UInt8 → Option (List (List UInt8))
  | _, _, [] => some []
  | 0, _, _ :: _ => none
  | slots + 1, limit, c :: s =>
    if isQuote c then
      match quotedText (limit - 1) s with
      | none => some []
      | some (w, rest) =>
        (splitText slots (limit - ((c :: s).length - rest.length)) rest).map (w :: ·)
    else
      let w := plainText (c :: s)
      if limit < w.length then some []
      else (splitText slots (limit - (w.length + 1)) ((c :: s).drop (w.length + 1))).map
        (untilQuote w :: ·)

/-! ## Strings in the buffer -/

/-- From index `a` on the buffer holds `s` and a zero byte. -/
structure TailIs (m : Mem) (a : Nat) (s : List UInt8) : Prop where
  bytes : Holds m a s (s.length + 1)
  fits : a + s.length ≤ cmdlineLen
  noZero : 0 ∉ s

namespace TailIs

variable {m : Mem} {a : Nat} {s : List UInt8} {c : UInt8}

theorem zero (h : TailIs m a s) : m (a + s.length) = 0 := by
  rw [h.bytes s.length (Nat.lt_succ_self _)]
  exact List.getD_eq_default s 0 (Nat.le_refl _)

theorem head (h : TailIs m a (c :: s)) : m a = c := h.bytes 0 (Nat.succ_pos _)

theorem head_ne (h : TailIs m a (c :: s)) : c ≠ 0 :=
  fun hc => h.noZero (hc ▸ List.mem_cons_self)

theorem tail (h : TailIs m a (c :: s)) : TailIs m (a + 1) s where
  bytes i hi := by
    rw [Nat.add_assoc, Nat.add_comm 1 i, h.bytes (i + 1) (Nat.succ_lt_succ hi),
      List.getD_cons_succ]
  fits := by
    have hfits := h.fits
    rw [List.length_cons] at hfits
    omega
  noZero := fun hmem => h.noZero (List.mem_cons_of_mem c hmem)

theorem drop (h : TailIs m a s) {k : Nat} (hk : k ≤ s.length) : TailIs m (a + k) (s.drop k) := by
  induction k generalizing a s with
  | zero => exact h
  | succ k ih =>
    cases s with
    | nil => exact absurd hk (Nat.not_succ_le_zero k)
    | cons c s =>
      rw [List.drop_succ_cons, Nat.add_comm k 1, ← Nat.add_assoc]
      exact ih h.tail (Nat.le_of_succ_le_succ hk)

/-- What is stored in front of a string leaves it. -/
theorem congr {m' : Mem} (h : TailIs m a s) (heq : ∀ i, a ≤ i → m' i = m i) : TailIs m' a s where
  bytes i hi := by
    rw [heq _ (Nat.le_add_right a i)]
    exact h.bytes i hi
  fits := h.fits
  noZero := h.noZero

end TailIs

/-- The buffer holds the word `w` at `a`, and its zero byte lies in front of `stop`. -/
structure WordAt (m : Mem) (stop a : Nat) (w : List UInt8) : Prop where
  bytes : Holds m a w (w.length + 1)
  ends : a + w.length < stop
  noZero : 0 ∉ w

namespace WordAt

variable {m m' : Mem} {stop stop' a : Nat} {w : List UInt8}

theorem congr (h : WordAt m stop a w) (heq : ∀ i < stop, m' i = m i) (hle : stop ≤ stop') :
    WordAt m' stop' a w where
  bytes i hi := by
    have hends := h.ends
    rw [heq _ (by omega)]
    exact h.bytes i hi
  ends := Nat.lt_of_lt_of_le h.ends hle
  noZero := h.noZero

/-- The C string at the place of a word. -/
theorem stringAt_eq {size : Nat} (h : WordAt m stop a w) (hsize : stop ≤ size) :
    stringAt size m a = w := by
  have hends := h.ends
  exact Microrl.stringAt_eq h.bytes h.noZero (Nat.lt_of_lt_of_le hends hsize)

end WordAt

/-! ## One word -/

/-- The buffer after a walk over `n` characters that ends the string at every quote. -/
def blankQuotes (m : Mem) (a n : Nat) : Mem :=
  overlay m a n fun i => if isQuote (m (a + i)) then 0 else m (a + i)

theorem blankQuotes_zero (m : Mem) (a : Nat) : blankQuotes m a 0 = m := by
  funext x
  rw [blankQuotes, overlay, if_neg (by omega)]

theorem blankQuotes_outside {m : Mem} {a n x : Nat} (h : x < a ∨ a + n ≤ x) :
    blankQuotes m a n x = m x := by
  rw [blankQuotes, overlay, if_neg (by omega)]

theorem blankQuotes_inside {m : Mem} {a n i : Nat} (h : i < n) :
    blankQuotes m a n (a + i) = if isQuote (m (a + i)) then 0 else m (a + i) := by
  rw [blankQuotes, overlay, if_pos (by omega), Nat.add_sub_cancel_left]

theorem blankQuotes_succ (m : Mem) (a n : Nat) :
    blankQuotes (if isQuote (m a) then write m a [0] else m) (a + 1) n =
      blankQuotes m a (n + 1) := by
  have hlater : ∀ x, a < x → (if isQuote (m a) then write m a [0] else m) x = m x := by
    intro x hx
    split
    · exact write_of_outside (.inr hx)
    · rfl
  funext x
  rcases Nat.lt_trichotomy x a with hlt | rfl | hgt
  · rw [blankQuotes_outside (.inl (by omega)), blankQuotes_outside (.inl hlt)]
    split
    · exact write_of_outside (.inl hlt)
    · rfl
  · rw [blankQuotes_outside (.inl (Nat.lt_succ_self _)), ← Nat.add_zero x,
      blankQuotes_inside (Nat.succ_pos n), Nat.add_zero]
    split
    · rw [write_of_mem (Nat.le_refl _) (by simp), Nat.sub_self]
      rfl
    · rfl
  · obtain ⟨i, rfl⟩ := Nat.exists_eq_add_of_lt hgt
    rcases Nat.lt_or_ge i n with hin | hout
    · rw [Nat.add_right_comm a i 1, blankQuotes_inside hin, hlater _ (by omega),
        Nat.add_assoc a 1 i, Nat.add_comm 1 i, blankQuotes_inside (Nat.succ_lt_succ hin)]
    · rw [blankQuotes_outside (.inr (by omega)), blankQuotes_outside (.inr (by omega)),
        hlater _ (by omega)]

/-- The walk over a word without quotes ends at the limit if that lies inside the word. -/
theorem plainWord_eq {limit rounds str : Nat} {m : Mem} {s : List UInt8} (h : TailIs m str s)
    (hrounds : s.length < rounds) :
    plainWord limit rounds m str =
      if limit - str < (plainText s).length then
        some (.limit (blankQuotes m str (limit - str)))
      else some (.next (blankQuotes m str (plainText s).length) (str + (plainText s).length)) := by
  induction s generalizing rounds str m with
  | nil =>
    obtain ⟨rounds, rfl⟩ := Nat.exists_eq_add_of_lt hrounds
    have hfits := h.fits
    rw [plainWord, if_neg (by omega), if_pos (.inr h.zero)]
    rw [plainText, List.takeWhile_nil, List.length_nil, if_neg (Nat.not_lt_zero _),
      blankQuotes_zero]
    rfl
  | cons c s ih =>
    obtain ⟨rounds, rfl⟩ : ∃ k, rounds = k + 1 := ⟨rounds - 1, by omega⟩
    have hfits := h.fits
    rw [plainWord, if_neg (by omega), h.head]
    by_cases hspace : c = 32
    · rw [if_pos (.inl hspace), plainText, List.takeWhile_cons_of_neg (by simp [hspace]),
        List.length_nil, if_neg (Nat.not_lt_zero _), blankQuotes_zero]
      rfl
    rw [if_neg (by simp [hspace, h.head_ne]), plainText,
      List.takeWhile_cons_of_pos (by simpa using hspace), List.length_cons]
    by_cases hlimit : str < limit
    · have htail : TailIs (if isQuote c then write m str [0] else m) (str + 1) s := by
        refine h.tail.congr fun i hi => ?_
        split
        · exact write_of_outside (.inr hi)
        · rfl
      have hsucc := blankQuotes_succ m str
      rw [h.head] at hsucc
      rw [if_neg (by omega), ih htail (by rw [List.length_cons] at hrounds; omega), hsucc, hsucc,
        show limit - str = limit - (str + 1) + 1 from by omega]
      simp only [plainText, Nat.add_lt_add_iff_right, Nat.add_assoc, Nat.add_comm 1]
    · rw [if_pos hlimit, if_pos (by omega), show limit - str = 0 from by omega, blankQuotes_zero]

/-- A quoted word stands at the start of the text and what follows it at the end, with the
closing quote in between unless there is none. -/
theorem quotedText_split {limit : Nat} {s : List UInt8} {w : List UInt8 × List UInt8}
    (h : quotedText limit s = some w) :
    w.1 <+: s ∧ w.2 <:+ s ∧ (w.1 = s ∧ w.2 = [] ∨ w.1.length + w.2.length < s.length) := by
  have hcons : ∀ {c : UInt8} {s : List UInt8} {v : List UInt8 × List UInt8},
      v.1 <+: s ∧ v.2 <:+ s ∧ (v.1 = s ∧ v.2 = [] ∨ v.1.length + v.2.length < s.length) →
      c :: v.1 <+: c :: s ∧ v.2 <:+ c :: s ∧
        (c :: v.1 = c :: s ∧ v.2 = [] ∨ (c :: v.1).length + v.2.length < (c :: s).length) := by
    rintro c s v ⟨hpre, hsuffix, hlen⟩
    refine ⟨List.cons_prefix_cons.mpr ⟨rfl, hpre⟩, hsuffix.trans (List.suffix_cons c s), ?_⟩
    rcases hlen with ⟨rfl, hrest⟩ | hlt
    · exact .inl ⟨rfl, hrest⟩
    · exact .inr (by simp only [List.length_cons]; omega)
  induction limit, s using quotedText.induct generalizing w with
  | case1 limit =>
    cases h
    exact ⟨List.nil_prefix, List.suffix_rfl, .inl ⟨rfl, rfl⟩⟩
  | case2 => cases h
  | case3 limit c hquote =>
    rw [quotedText, if_pos hquote] at h
    cases h
    exact ⟨List.nil_prefix, List.nil_suffix, .inr (Nat.succ_pos _)⟩
  | case4 limit c hquote =>
    rw [quotedText, if_neg hquote] at h
    cases h
    exact ⟨List.prefix_rfl, List.nil_suffix, .inl ⟨rfl, rfl⟩⟩
  | case5 limit d s hd ih =>
    rw [quotedText, if_pos rfl, if_pos hd, Option.map_eq_some_iff] at h
    obtain ⟨w', hw', rfl⟩ := h
    have htail := hcons (c := d) (ih hw')
    exact hcons (v := (d :: w'.1, w'.2)) htail
  | case6 limit d s hd ih =>
    rw [quotedText, if_pos rfl, if_neg hd, Option.map_eq_some_iff] at h
    obtain ⟨w', hw', rfl⟩ := h
    exact hcons (ih hw')
  | case7 limit c d s hc hquote =>
    rw [quotedText, if_neg hc, if_pos hquote] at h
    cases h
    exact ⟨List.nil_prefix, List.suffix_cons c _, .inr (by simp)⟩
  | case8 limit c d s hc hquote ih =>
    rw [quotedText, if_neg hc, if_neg hquote, Option.map_eq_some_iff] at h
    obtain ⟨w', hw', rfl⟩ := h
    exact hcons (ih hw')

theorem length_quotedText {limit : Nat} {s : List UInt8} {w : List UInt8 × List UInt8}
    (h : quotedText limit s = some w) : w.1.length + w.2.length ≤ s.length := by
  rcases (quotedText_split h).2.2 with ⟨hw, hrest⟩ | hlt
  · rw [hw, hrest]
    exact Nat.le_refl _
  · exact Nat.le_of_lt hlt

/-- Where the scan of a quoted word at `str` ends. -/
def quotedEnd (m : Mem) (str : Nat) (s : List UInt8) : Option (List UInt8 × List UInt8) → WordEnd
  | none => .limit m
  | some (w, rest) => .next (write m (str + w.length) [0]) (str + (s.length - rest.length))

theorem quotedEnd_cons {m : Mem} {str : Nat} {c : UInt8} {s : List UInt8}
    {o : Option (List UInt8 × List UInt8)} (hle : ∀ w ∈ o, w.2.length ≤ s.length) :
    quotedEnd m (str + 1) s o = quotedEnd m str (c :: s) (o.map fun w => (c :: w.1, w.2)) := by
  cases o with
  | none => rfl
  | some w =>
    have hw := hle w rfl
    rw [Option.map_some]
    show WordEnd.next (write m (str + 1 + w.1.length) [0]) (str + 1 + (s.length - w.2.length)) =
      .next (write m (str + (w.1.length + 1)) [0]) (str + (s.length + 1 - w.2.length))
    congr 1
    · rw [Nat.add_assoc, Nat.add_comm 1]
    · omega

theorem quotedWord_cons {limit rounds str : Nat} {m : Mem} {c : UInt8} {s : List UInt8}
    (h : TailIs m str (c :: s)) :
    quotedWord limit (rounds + 1) m str =
      if ¬str < limit then some (.limit m)
      else if c = 92 then
        if isQuote (m (str + 1)) then quotedWord limit rounds m (str + 2)
        else quotedWord limit rounds m (str + 1)
      else if isQuote c then some (.next (write m str [0]) (str + 1))
      else quotedWord limit rounds m (str + 1) := by
  have hfits := h.fits
  rw [quotedWord, if_neg (by omega), h.head, if_neg h.head_ne]

theorem quotedWord_nil {limit rounds str : Nat} {m : Mem} (h : TailIs m str []) :
    quotedWord limit (rounds + 1) m str = some (.next m str) := by
  have hfits := h.fits
  have hzero : m str = 0 := h.zero
  rw [quotedWord, if_neg (by simpa using hfits), if_pos hzero]

/-- The walk over a quoted word ends at the limit, or behind the closing quote. -/
theorem quotedWord_eq {limit rounds str k : Nat} {m : Mem} {s : List UInt8} (h : TailIs m str s)
    (hrounds : s.length < rounds) (hk : limit - str = k) :
    quotedWord limit rounds m str = some (quotedEnd m str s (quotedText k s)) := by
  induction k, s using quotedText.induct generalizing rounds str with
  | case1 k =>
    obtain ⟨rounds, rfl⟩ : ∃ n, rounds = n + 1 := ⟨rounds - 1, by omega⟩
    have hzero : m str = 0 := h.zero
    rw [quotedWord_nil h, quotedText, quotedEnd]
    show _ = some (WordEnd.next (write m (str + 0) [0]) (str + (0 - 0)))
    rw [Nat.add_zero, write_same hzero]
  | case2 c s =>
    obtain ⟨rounds, rfl⟩ : ∃ n, rounds = n + 1 := ⟨rounds - 1, by omega⟩
    rw [quotedWord_cons h, if_pos (by omega), quotedText]
    rfl
  | case3 k c hquote =>
    obtain ⟨rounds, rfl⟩ : ∃ n, rounds = n + 1 := ⟨rounds - 1, by omega⟩
    have hne : c ≠ 92 := fun hc => by rw [hc] at hquote; exact absurd hquote (by decide)
    rw [quotedWord_cons h, if_neg (by omega), if_neg hne, if_pos hquote, quotedText,
      if_pos hquote]
    rfl
  | case4 k c hquote =>
    obtain ⟨rounds, rfl⟩ : ∃ n, rounds = n + 2 := ⟨rounds - 2, by simp at hrounds; omega⟩
    have hzero : m (str + 1) = 0 := h.zero
    rw [quotedWord_cons h, if_neg (by omega), hzero, if_neg (by decide : ¬isQuote 0),
      if_neg hquote, ite_self, quotedWord_nil h.tail, quotedText, if_neg hquote]
    show _ = some (WordEnd.next (write m (str + 1) [0]) (str + 1))
    rw [write_same hzero]
  | case5 k d s hd ih =>
    obtain ⟨rounds, rfl⟩ : ∃ n, rounds = n + 1 := ⟨rounds - 1, by omega⟩
    simp only [List.length_cons] at hrounds
    rw [quotedWord_cons h, if_neg (by omega), if_pos rfl, h.tail.head, if_pos hd,
      ih h.tail.tail (by omega) (by omega), quotedText, if_pos rfl, if_pos hd]
    have hle : ∀ w ∈ quotedText (k - 1) s, w.2.length ≤ s.length := fun w hw =>
      Nat.le_trans (Nat.le_add_left _ _) (length_quotedText hw)
    rw [show str + 2 = str + 1 + 1 from rfl, quotedEnd_cons (c := d) hle, quotedEnd_cons (c := 92),
      Option.map_map]
    · rfl
    · intro w hw
      obtain ⟨w', hw', rfl⟩ := Option.map_eq_some_iff.mp hw
      exact Nat.le_succ_of_le (hle w' hw')
  | case6 k d s hd ih =>
    obtain ⟨rounds, rfl⟩ : ∃ n, rounds = n + 1 := ⟨rounds - 1, by omega⟩
    rw [quotedWord_cons h, if_neg (by omega), if_pos rfl, h.tail.head, if_neg hd,
      ih h.tail (Nat.lt_of_succ_lt_succ hrounds) (by omega), quotedText, if_pos rfl, if_neg hd,
      quotedEnd_cons fun w hw => Nat.le_trans (Nat.le_add_left _ _) (length_quotedText hw)]
  | case7 k c d s hc hquote =>
    obtain ⟨rounds, rfl⟩ : ∃ n, rounds = n + 1 := ⟨rounds - 1, by omega⟩
    rw [quotedWord_cons h, if_neg (by omega), if_neg hc, if_pos hquote, quotedText, if_neg hc,
      if_pos hquote]
    show some (WordEnd.next (write m str [0]) (str + 1)) =
      some (.next (write m str [0]) (str + (s.length + 1 + 1 - (s.length + 1))))
    rw [Nat.add_sub_cancel_left]
  | case8 k c d s hc hquote ih =>
    obtain ⟨rounds, rfl⟩ : ∃ n, rounds = n + 1 := ⟨rounds - 1, by omega⟩
    rw [quotedWord_cons h, if_neg (by omega), if_neg hc, if_neg hquote, quotedText, if_neg hc,
      if_neg hquote, ih h.tail (Nat.lt_of_succ_lt_succ hrounds) (by omega),
      quotedEnd_cons fun w hw => Nat.le_trans (Nat.le_add_left _ _) (length_quotedText hw)]

/-! ## All words -/

/-- Bytes of which the quotes are replaced by zero hold a string up to the first quote. -/
theorem getD_untilQuote {f : Nat → UInt8} {w : List UInt8}
    (hf : ∀ i < w.length, f i = if isQuote (w.getD i 0) then 0 else w.getD i 0)
    (hend : f w.length = 0) {i : Nat} (hi : i ≤ (untilQuote w).length) :
    f i = (untilQuote w).getD i 0 := by
  induction w generalizing f i with
  | nil =>
    obtain rfl : i = 0 := Nat.le_zero.mp hi
    exact hend
  | cons c w ih =>
    have hhead := hf 0 (Nat.succ_pos _)
    rw [List.getD_cons_zero] at hhead
    by_cases hc : isQuote c = true
    · rw [untilQuote, List.takeWhile_cons_of_neg (by simp [hc])] at hi ⊢
      obtain rfl : i = 0 := Nat.le_zero.mp hi
      rw [hhead, if_pos hc]
      rfl
    · rw [untilQuote, List.takeWhile_cons_of_pos (by simp [hc])] at hi ⊢
      cases i with
      | zero => rw [hhead, if_neg hc, List.getD_cons_zero]
      | succ i =>
        rw [List.getD_cons_succ]
        refine ih (f := fun i => f (i + 1)) (fun j hj => ?_) hend (Nat.le_of_succ_le_succ hi)
        rw [← List.getD_cons_succ (x := c)]
        exact hf (j + 1) (Nat.succ_lt_succ hj)

theorem prefix_plainText (s : List UInt8) : plainText s <+: s := List.takeWhile_prefix _

theorem prefix_untilQuote (w : List UInt8) : untilQuote w <+: w := List.takeWhile_prefix _

/-- A word without quotes, once its end is marked. -/
theorem wordAt_plain {m : Mem} {str : Nat} {s : List UInt8} (h : TailIs m str s) :
    WordAt (write (blankQuotes m str (plainText s).length) (str + (plainText s).length) [0])
      (str + (plainText s).length + 1) str (untilQuote (plainText s)) where
  bytes i hi := by
    have hpre := prefix_plainText s
    have hle := hpre.length_le
    refine getD_untilQuote (f := fun i => write (blankQuotes m str (plainText s).length)
      (str + (plainText s).length) [0] (str + i)) (fun j hj => ?_) ?_ (Nat.le_of_lt_succ hi)
    · have hbyte : m (str + j) = (plainText s).getD j 0 := by
        obtain ⟨rest, hrest⟩ := hpre
        rw [h.bytes j (by omega)]
        conv_lhs => rw [← hrest]
        exact List.getD_append _ _ _ _ hj
      show write _ _ _ (str + j) = _
      rw [write_of_outside (.inl (by omega)), blankQuotes_inside hj, hbyte]
    · show write _ _ _ (str + (plainText s).length) = _
      rw [write_of_mem (Nat.le_refl _) (by simp), Nat.sub_self]
      rfl
  ends := by
    have hle := (prefix_untilQuote (plainText s)).length_le
    omega
  noZero := fun hmem => h.noZero
    ((prefix_plainText s).subset ((prefix_untilQuote (plainText s)).subset hmem))

/-- A quoted word, once its end is marked. -/
theorem wordAt_quoted {m : Mem} {str k : Nat} {s w rest : List UInt8} (h : TailIs m str s)
    (hw : quotedText k s = some (w, rest)) :
    WordAt (write m (str + w.length) [0]) (str + w.length + 1) str w where
  bytes i hi := by
    have hpre : w <+: s := (quotedText_split hw).1
    have hle := hpre.length_le
    rcases Nat.lt_or_ge i w.length with hlt | hge
    · obtain ⟨tail, rfl⟩ := hpre
      rw [write_of_outside (.inl (by omega)), h.bytes i (by omega)]
      exact List.getD_append _ _ _ _ hlt
    · obtain rfl : i = w.length := by omega
      rw [write_of_mem (Nat.le_refl _) (by simp), Nat.sub_self,
        List.getD_eq_default w _ (Nat.le_refl _)]
      rfl
  ends := Nat.lt_succ_self _
  noZero := fun hmem => h.noZero (((quotedText_split hw).1).subset hmem)

/-- The words that are found behind `words`, and what the walk ends with. -/
def FoundWords (words : List (List UInt8)) (split : Split) : Option (List (List UInt8)) → Prop
  | none => split.status = .errTknNum
  | some more =>
    split.status = .ok ∧
      List.Forall₂ (WordAt split.line (cmdlineLen + 1)) split.words (words ++ more)

theorem FoundWords.map {words : List (List UInt8)} {w : List UInt8} {split : Split}
    {o : Option (List (List UInt8))} (h : FoundWords (words ++ [w]) split o) :
    FoundWords words split (o.map (w :: ·)) := by
  cases o with
  | none => exact h
  | some more =>
    refine ⟨h.1, ?_⟩
    have hfound := h.2
    rwa [List.append_assoc] at hfound

theorem splitLoop_nil {limit wordRounds rounds slots stop : Nat} {m : Mem} {str : Nat}
    {found : List Nat} {words : List (List UInt8)} (h : TailIs m str [])
    (hfound : List.Forall₂ (WordAt m stop) found words) (hstop : stop ≤ str + 1) :
    ∃ split, splitLoop limit wordRounds (rounds + 1) m str found = some split ∧
      FoundWords words split (splitText slots (limit - str) []) := by
  have hfits := h.fits
  have hzero : m str = 0 := h.zero
  simp only [List.length_nil] at hfits
  refine ⟨⟨m, found, .ok⟩, ?_, ?_⟩
  · rw [splitLoop, if_neg (by omega), if_pos hzero]
  · rw [splitText]
    refine ⟨rfl, ?_⟩
    rw [List.append_nil]
    exact hfound.imp fun _ _ hw => WordAt.congr hw (fun _ _ => rfl) (by omega)

/-- The walk finds the words of the string that the buffer holds from `str` on.  The words in
front of `str` end there, the last one perhaps at the end of the line. -/
theorem splitLoop_spec {limit wordRounds rounds slots stop : Nat} {m : Mem} {str : Nat}
    {s : List UInt8} {found : List Nat} {words : List (List UInt8)} (h : TailIs m str s)
    (hslots : found.length + slots = cmdTokenNmb) (hfull : slots = 0 → s = [])
    (hrounds : slots < rounds) (hwordRounds : s.length < wordRounds)
    (hfound : List.Forall₂ (WordAt m stop) found words)
    (hstop : stop ≤ str ∨ s = [] ∧ stop ≤ str + 1) :
    ∃ split, splitLoop limit wordRounds rounds m str found = some split ∧
      FoundWords words split (splitText slots (limit - str) s) := by
  induction slots generalizing rounds m str s found words stop with
  | zero =>
    obtain rfl := hfull rfl
    obtain ⟨rounds, rfl⟩ : ∃ n, rounds = n + 1 := ⟨rounds - 1, by omega⟩
    exact splitLoop_nil h hfound (by omega)
  | succ slots ih =>
    obtain ⟨rounds, rfl⟩ : ∃ n, rounds = n + 1 := ⟨rounds - 1, by omega⟩
    -- What the loop does behind a word that has just been found.
    have hnext : ∀ {m' : Mem} {next stop' : Nat} {s' : List UInt8} {a : Nat} {w : List UInt8},
        TailIs m' next s' → s'.length < wordRounds →
        List.Forall₂ (WordAt m' stop') (found ++ [a]) (words ++ [w]) →
        (stop' ≤ next ∨ s' = [] ∧ stop' ≤ next + 1) →
        ∃ split, (if (found ++ [a]).length = cmdTokenNmb ∧ m' next ≠ 0 then
            some ⟨m', found ++ [a], .errTknNum⟩
          else splitLoop limit wordRounds rounds m' next (found ++ [a])) = some split ∧
          FoundWords words split ((splitText slots (limit - next) s').map (w :: ·)) := by
      intro m' next stop' s' a w hm' hlen hwords hstop'
      have hcount : (found ++ [a]).length = found.length + 1 := List.length_append
      split
      case isTrue herr =>
        obtain rfl : slots = 0 := by omega
        cases s' with
        | nil => exact absurd hm'.zero herr.2
        | cons c s' => exact ⟨_, rfl, rfl⟩
      case isFalse hok =>
        have hfull' : slots = 0 → s' = [] := by
          intro hzero
          cases s' with
          | nil => rfl
          | cons c s' => exact absurd ⟨by omega, by rw [hm'.head]; exact hm'.head_ne⟩ hok
        have hleft : slots < rounds := by omega
        obtain ⟨split, hsplit, hfound'⟩ := ih hm' (by omega) hfull' hleft hlen hwords hstop'
        exact ⟨split, hsplit, hfound'.map⟩
    cases s with
    | nil => exact splitLoop_nil h hfound (by omega)
    | cons c s =>
      have hfits := h.fits
      have hstop : stop ≤ str := by simpa using hstop
      rw [splitLoop, if_neg (by omega), h.head, if_neg h.head_ne, if_neg (by omega), splitText]
      by_cases hquote : isQuote c = true
      · rw [if_pos hquote, if_pos hquote, quotedWord_eq h.tail (by simp at hwordRounds; omega) rfl,
          show limit - str - 1 = limit - (str + 1) from by omega]
        cases hw : quotedText (limit - (str + 1)) s with
        | none =>
          refine ⟨⟨m, found, .ok⟩, rfl, rfl, ?_⟩
          rw [List.append_nil]
          exact hfound.imp fun _ _ hw => WordAt.congr hw (fun _ _ => rfl) (by omega)
        | some w =>
          obtain ⟨w, rest⟩ := w
          obtain ⟨hpre, hsuffix, hlen⟩ := quotedText_split hw
          simp only at hpre hsuffix hlen
          have hle := hsuffix.length_le
          simp only [quotedEnd]
          have hlimit : limit - str - ((c :: s).length - rest.length) =
              limit - (str + 1 + (s.length - rest.length)) := by
            rw [List.length_cons]
            omega
          rw [hlimit]
          have hold : List.Forall₂ (WordAt (write m (str + 1 + w.length) [0])
              (str + 1 + w.length + 1)) found words := hfound.imp fun _ _ hword =>
            WordAt.congr hword (fun i hi => write_of_outside (.inl (by omega))) (by omega)
          refine hnext ?_ (by simp only [List.length_cons] at hwordRounds; omega)
            (List.rel_append hold (.cons (wordAt_quoted h.tail hw) .nil)) ?_
          · have hdrop := h.tail.drop (k := s.length - rest.length) (Nat.sub_le _ _)
            rw [← List.suffix_iff_eq_drop.mp hsuffix] at hdrop
            rcases hlen with ⟨rfl, rfl⟩ | hlt
            · rw [write_same h.tail.zero]
              exact hdrop
            · exact hdrop.congr fun i hi => write_of_outside (.inr (by simp; omega))
          · rcases hlen with ⟨rfl, rfl⟩ | hlt
            · exact .inr ⟨rfl, Nat.le_refl _⟩
            · exact .inl (by omega)
      · rw [if_neg hquote, if_neg hquote, plainWord_eq h hwordRounds]
        have hpre := prefix_plainText (c :: s)
        have hle := hpre.length_le
        by_cases hlimit : limit - str < (plainText (c :: s)).length
        · rw [if_pos hlimit, if_pos hlimit]
          refine ⟨⟨blankQuotes m str (limit - str), found, .ok⟩, rfl, rfl, ?_⟩
          rw [List.append_nil]
          exact hfound.imp fun _ _ hword =>
            WordAt.congr hword (fun i hi => blankQuotes_outside (.inl (by omega))) (by omega)
        rw [if_neg hlimit, if_neg hlimit]
        have hword := wordAt_plain h
        have hold : List.Forall₂ (WordAt (write (blankQuotes m str (plainText (c :: s)).length)
            (str + (plainText (c :: s)).length) [0]) (str + (plainText (c :: s)).length + 1))
            found words := hfound.imp fun _ _ hword =>
          WordAt.congr hword (fun i hi => by
            rw [write_of_outside (.inl (by omega)), blankQuotes_outside (.inl (by omega))])
            (by omega)
        have hwords := List.rel_append hold (.cons hword .nil)
        have hat : blankQuotes m str (plainText (c :: s)).length
            (str + (plainText (c :: s)).length) = m (str + (plainText (c :: s)).length) :=
          blankQuotes_outside (.inr (Nat.le_refl _))
        simp only
        split
        case isTrue hend =>
          rw [write_same hend] at hwords
          rw [hat] at hend
          have hall : (c :: s).length ≤ (plainText (c :: s)).length := by
            by_contra hlt
            have hbyte := h.bytes (plainText (c :: s)).length (by omega)
            rw [hend, List.getD_eq_getElem _ _ (by omega)] at hbyte
            exact h.noZero (hbyte ▸ List.getElem_mem _)
          rw [List.drop_eq_nil_of_le (by omega)]
          refine ⟨⟨_, found ++ [str], .ok⟩, rfl, ?_⟩
          rw [splitText]
          exact ⟨rfl, hwords.imp fun _ _ hword => WordAt.congr hword (fun _ _ => rfl) (by omega)⟩
        case isFalse hend =>
          rw [hat] at hend
          have hin : (plainText (c :: s)).length < (c :: s).length := by
            refine Nat.lt_of_le_of_ne hle fun heq => hend ?_
            rw [heq]
            exact h.zero
          have hlimit' : limit - str - ((plainText (c :: s)).length + 1) =
              limit - (str + (plainText (c :: s)).length + 1) := by omega
          rw [hlimit']
          refine hnext ?_ (by rw [List.length_drop]; omega) hwords (.inl (Nat.le_refl _))
          exact (h.drop hin).congr fun i hi => by
            rw [write_of_outside (.inr (by simp; omega)), blankQuotes_outside (.inr (by omega))]

theorem LineIs.tailIs {m : Mem} {s : List UInt8} (h : LineIs m s) (hzero : 0 ∉ s) :
    TailIs m 0 s where
  bytes := h.bytes
  fits := by
    rw [Nat.zero_add]
    exact h.fits
  noZero := hzero

theorem Split.argv_eq {split : Split} {words : List (List UInt8)}
    (h : List.Forall₂ (WordAt split.line (cmdlineLen + 1)) split.words words) :
    split.argv = words := by
  rw [Split.argv]
  generalize split.words = found at h
  induction h with
  | nil => rfl
  | cons hword _ ih => rw [List.map_cons, hword.stringAt_eq (Nat.le_refl _), ih]

/-- `prv_cmdline_buf_split` finds the words of the line and stays inside its arrays. -/
theorem prvCmdlineBufSplit_spec {p : Platform} {mrl : Mrl} {s : List UInt8}
    (h : LineIs mrl.cmdlineStr s) (hzero : 0 ∉ s) (limit : Nat) :
    ∃ split, mrl.prvCmdlineBufSplit p limit = some split ∧
      match splitText cmdTokenNmb limit s with
      | none => split.status = .errTknNum
      | some words => split.status = .ok ∧ split.argv = words := by
  have hrounds := p.rounds_ge
  have hfits : s.length ≤ 128 := h.fits
  have hslots : cmdTokenNmb < p.rounds := by
    rw [cmdTokenNmb]
    omega
  obtain ⟨split, hsplit, hfound⟩ :=
    @splitLoop_spec limit p.rounds p.rounds cmdTokenNmb 0 mrl.cmdlineStr 0 s [] []
      (h.tailIs hzero) (Nat.zero_add cmdTokenNmb) (fun h0 => absurd h0 (by decide)) hslots
      (by omega) .nil (.inl (Nat.le_refl 0))
  refine ⟨split, hsplit, ?_⟩
  rw [Nat.sub_zero] at hfound
  cases hwords : splitText cmdTokenNmb limit s with
  | none =>
    rw [hwords] at hfound
    exact hfound
  | some words =>
    rw [hwords] at hfound
    exact ⟨hfound.1, Split.argv_eq hfound.2⟩

end Microrl
end Carrels
