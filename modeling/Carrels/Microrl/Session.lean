/-
Sessions of the line editor.

A session is the decoder with the abstract editor.  The code follows it over every input in
which no line of 127 bytes is entered; it hangs when such a line is entered.  The serial events
of the orchestrator hand over the input in batches of 64 bytes, and what is left of a batch
after an error is dropped.  `typed` are the bytes that are taken.
-/
import Carrels.Microrl.Keys

namespace Carrels
namespace Microrl

open ByteMemory Logged

structure Session where
  decoder : Decoder
  editor : Editor
  deriving DecidableEq, Repr

namespace Session

def init : Session := ⟨.init, .init⟩

/-- The key of the next byte. -/
def key (p : Platform) (s : Session) (ch : UInt8) : Key := (s.decoder.decode p ch).2

/-- What the editor answers to the next byte. -/
def answer (p : Platform) (s : Session) (ch : UInt8) : Editor.Answer :=
  s.editor.press (s.key p ch)

def next (p : Platform) (s : Session) (ch : UInt8) : Session :=
  ⟨(s.decoder.decode p ch).1, (s.answer p ch).editor⟩

/-- The session after the bytes. -/
def after (p : Platform) (s : Session) : List UInt8 → Session
  | [] => s
  | ch :: data => (s.next p ch).after p data

/-- What is seen while the bytes are taken. -/
def items (p : Platform) (s : Session) : List UInt8 → List Item
  | [] => []
  | ch :: data => (s.answer p ch).items ++ (s.next p ch).items p data

/-- Every key of the bytes meets the condition. -/
def Meets (p : Platform) (ok : Editor → Key → Prop) (s : Session) : List UInt8 → Prop
  | [] => True
  | ch :: data => ok s.editor (s.key p ch) ∧ (s.next p ch).Meets p ok data

instance decidableMeets (p : Platform) (ok : Editor → Key → Prop)
    [∀ e key, Decidable (ok e key)] :
    (s : Session) → (data : List UInt8) → Decidable (s.Meets p ok data)
  | _, [] => .isTrue trivial
  | s, ch :: data =>
    have := decidableMeets p ok (s.next p ch) data
    inferInstanceAs (Decidable (ok s.editor (s.key p ch) ∧ (s.next p ch).Meets p ok data))

/-- The bytes of a batch that are taken: those up to the first one that the input is left with. -/
def taken (p : Platform) (s : Session) : List UInt8 → List UInt8
  | [] => []
  | ch :: data => ch :: if (s.answer p ch).left.isSome then [] else (s.next p ch).taken p data

/-- The value that a batch is left with. -/
def left (p : Platform) (s : Session) : List UInt8 → Option Status
  | [] => none
  | ch :: data =>
    if (s.answer p ch).left.isSome then (s.answer p ch).left else (s.next p ch).left p data

/-- The bytes of the queue that are taken.  `n` bytes of the batch have come; the rest of it is
dropped after an error, and after a space at the start of the line. -/
def typed (p : Platform) (s : Session) (n : Nat) (dropping : Bool) : List UInt8 → List UInt8
  | [] => []
  | c :: queue =>
    let n := (n + 1) % shellInputBufferSize
    let ch := shellNormaliseInput c
    if dropping then s.typed p n (n != 0) queue
    else ch :: (s.next p ch).typed p n ((s.answer p ch).left.isSome && n != 0) queue

/-- The bytes that are taken in serial events. -/
def typedEvents (p : Platform) (s : Session) : List (List UInt8) → List UInt8
  | [] => []
  | queue :: queues =>
    s.typed p 0 false queue ++ (s.after p (s.typed p 0 false queue)).typedEvents p queues

variable {p : Platform}

theorem after_append (s : Session) (data more : List UInt8) :
    s.after p (data ++ more) = (s.after p data).after p more := by
  induction data generalizing s with
  | nil => rfl
  | cons ch data ih => exact ih _

theorem items_append (s : Session) (data more : List UInt8) :
    s.items p (data ++ more) = s.items p data ++ (s.after p data).items p more := by
  induction data generalizing s with
  | nil => rfl
  | cons ch data ih => rw [List.cons_append, items, items, after, ih, List.append_assoc]

theorem meets_append {ok : Editor → Key → Prop} {s : Session} {data more : List UInt8} :
    s.Meets p ok (data ++ more) ↔ s.Meets p ok data ∧ (s.after p data).Meets p ok more := by
  induction data generalizing s with
  | nil => exact (iff_of_eq (true_and _)).symm
  | cons ch data ih => rw [List.cons_append, Meets, Meets, after, ih, and_assoc]

theorem meets_and {ok ok' : Editor → Key → Prop} {s : Session} {data : List UInt8} :
    s.Meets p (fun e key => ok e key ∧ ok' e key) data ↔
      s.Meets p ok data ∧ s.Meets p ok' data := by
  induction data generalizing s with
  | nil => exact (and_self_iff).symm
  | cons ch data ih =>
    rw [Meets, Meets, Meets, ih]
    exact and_and_and_comm

theorem left_append_singleton (s : Session) (data : List UInt8) (ch : UInt8) :
    s.left p (data ++ [ch]) =
      if (s.left p data).isSome then s.left p data
      else ((s.after p (s.taken p data)).answer p ch).left := by
  induction data generalizing s with
  | nil =>
    simp only [List.nil_append, left, taken, after]
    cases (s.answer p ch).left <;> rfl
  | cons c data ih =>
    simp only [List.cons_append, left, taken, after]
    by_cases hleft : (s.answer p c).left.isSome = true
    · simp only [hleft, if_true]
    · simp only [hleft]
      exact ih _

theorem taken_append_singleton (s : Session) (data : List UInt8) (ch : UInt8) :
    s.taken p (data ++ [ch]) =
      if (s.left p data).isSome then s.taken p data else s.taken p data ++ [ch] := by
  induction data generalizing s with
  | nil => simp only [List.nil_append, left, taken, ite_self, Option.isSome_none, if_false,
      Bool.false_eq_true]
  | cons c data ih =>
    simp only [List.cons_append, left, taken]
    by_cases hleft : (s.answer p c).left.isSome = true
    · simp only [hleft, if_true]
    · simp only [hleft, ih, Bool.false_eq_true, if_false]
      split <;> rfl

/-- The bytes of the batch that have been collected, and those that will be taken of the queue. -/
def pending (p : Platform) (s : Session) (input queue : List UInt8) : List UInt8 :=
  s.taken p input ++
    (s.after p (s.taken p input)).typed p input.length (s.left p input).isSome queue

/-- One more byte is collected. -/
theorem pending_cons (s : Session) (input : List UInt8) (c : UInt8) (queue : List UInt8) :
    let data := input ++ [shellNormaliseInput c]
    let n := data.length % shellInputBufferSize
    s.pending p input (c :: queue) = s.taken p data ++
      (s.after p (s.taken p data)).typed p n ((s.left p data).isSome && n != 0) queue := by
  intro data n
  have hlength : data.length = input.length + 1 := List.length_append
  have hn : (input.length + 1) % shellInputBufferSize = n :=
    congrArg (· % shellInputBufferSize) hlength.symm
  rw [pending, typed, hn]
  simp only [data, taken_append_singleton, left_append_singleton]
  split
  case isTrue hleft => simp only [hleft, Bool.true_and]
  case isFalse hleft =>
    simp only [after_append, List.append_assoc]
    rfl

end Session

/-- The state stands for the session. -/
def Mrl.Follows (mrl : Mrl) (s : Session) : Prop :=
  mrl.Represents s.editor ∧ mrl.decoder = s.decoder

theorem init_follows : init.Follows .init := ⟨init_represents, rfl⟩

/-- The serial events that come, one after the other. -/
def Mrl.serialEvents (p : Platform) (mrl : Mrl) : List (List UInt8) → Logged Effect Mrl
  | [] => pure mrl
  | queue :: queues => do
    let mrl ← mrl.orcheHandleSerialEvent p [] queue
    mrl.serialEvents p queues

namespace Mrl.Follows

variable {p : Platform} {mrl : Mrl} {s : Session}

theorem processChar (h : mrl.Follows s) {ch : UInt8} (hallowed : s.editor.Allowed (s.key p ch)) :
    ∃ mrl', Yields Effect.items (mrl.processChar p ch) (s.answer p ch).items
      (mrl', (s.answer p ch).left) ∧ mrl'.Follows (s.next p ch) := by
  have hdecode : mrl.decoder.decode p ch = ((s.decoder.decode p ch).1, s.key p ch) := by
    rw [h.2]
    rfl
  obtain ⟨mrl', hrun, hnext, hdecoder⟩ := h.1.processChar hdecode hallowed
  exact ⟨mrl', hrun, hnext, hdecoder⟩

/-- The code takes the bytes of a batch as the session does. -/
theorem processChars (h : mrl.Follows s) {data : List UInt8}
    (hallowed : s.Meets p Editor.Allowed (s.taken p data)) :
    ∃ mrl', Yields Effect.items (mrl.processChars p data) (s.items p (s.taken p data))
      (mrl', (s.left p data).getD .ok) ∧ mrl'.Follows (s.after p (s.taken p data)) := by
  induction data generalizing mrl s with
  | nil => exact ⟨mrl, yields_pure _ _, h⟩
  | cons ch data ih =>
    obtain ⟨hkey, hrest⟩ := hallowed
    obtain ⟨mrl₁, hrun, hnext⟩ := h.processChar hkey
    rw [Mrl.processChars, Session.left, Session.taken]
    cases hleft : (s.answer p ch).left with
    | some res =>
      rw [hleft] at hrun
      exact ⟨mrl₁, hrun.bind (yields_pure _ (mrl₁, res)), hnext⟩
    | none =>
      rw [hleft] at hrun hrest
      obtain ⟨mrl₂, hmore, hlast⟩ := ih hnext hrest
      exact ⟨mrl₂, hrun.bind hmore, hlast⟩

theorem microrlProcessingInput (h : mrl.Follows s) {data : List UInt8} (hdata : data ≠ [])
    (hallowed : s.Meets p Editor.Allowed (s.taken p data)) :
    ∃ mrl', Yields Effect.items (mrl.microrlProcessingInput p data) (s.items p (s.taken p data))
      (mrl', (s.left p data).getD .ok) ∧ mrl'.Follows (s.after p (s.taken p data)) := by
  rw [Mrl.microrlProcessingInput, if_neg hdata]
  exact h.processChars hallowed

/-- The batches of a serial event are taken as the session takes the queue byte by byte. -/
theorem orcheHandleSerialEvent {input queue : List UInt8} (h : mrl.Follows s)
    (hlen : input.length < shellInputBufferSize)
    (hallowed : s.Meets p Editor.Allowed (s.pending p input queue)) :
    ∃ mrl', Yields Effect.items (mrl.orcheHandleSerialEvent p input queue)
      (s.items p (s.pending p input queue)) mrl' ∧
      mrl'.Follows (s.after p (s.pending p input queue)) := by
  induction queue generalizing mrl s input with
  | nil =>
    rw [Session.pending, Session.typed, List.append_nil] at hallowed ⊢
    rw [Mrl.orcheHandleSerialEvent]
    by_cases hnil : input = []
    · subst hnil
      exact ⟨mrl, yields_pure _ _, h⟩
    · rw [if_neg hnil]
      obtain ⟨mrl', hrun, hnext⟩ := h.microrlProcessingInput hnil hallowed
      exact ⟨mrl', hrun.bind_pure fun r : Mrl × Status => r.1, hnext⟩
  | cons c queue ih =>
    have hlength : (input ++ [shellNormaliseInput c]).length = input.length + 1 :=
      List.length_append
    rw [Session.pending_cons] at hallowed ⊢
    rw [Mrl.orcheHandleSerialEvent]
    generalize input ++ [shellNormaliseInput c] = data at hallowed hlength ⊢
    by_cases hfull : data.length = shellInputBufferSize
    -- The batch is complete.
    · have hne : data ≠ [] := by
        rintro rfl
        exact absurd hlength (Nat.succ_ne_zero _).symm
      simp only [hfull, Nat.mod_self, bne_self_eq_false, Bool.and_false] at hallowed ⊢
      rw [if_pos trivial]
      rw [Session.meets_append] at hallowed
      rw [Session.items_append, Session.after_append]
      obtain ⟨mrl₁, hrun, hnext⟩ := h.microrlProcessingInput hne hallowed.1
      obtain ⟨mrl₂, hmore, hlast⟩ := @ih mrl₁ _ [] hnext (by decide) hallowed.2
      exact ⟨mrl₂, hrun.bind hmore, hlast⟩
    · have hlt : data.length < shellInputBufferSize := by omega
      have hne : (data.length != 0) = true := bne_iff_ne.mpr (by omega)
      simp only [Nat.mod_eq_of_lt hlt, hne, Bool.and_true] at hallowed ⊢
      rw [if_neg hfull]
      exact ih h hlt hallowed

theorem serialEvents {queues : List (List UInt8)} (h : mrl.Follows s)
    (hallowed : s.Meets p Editor.Allowed (s.typedEvents p queues)) :
    ∃ mrl', Yields Effect.items (mrl.serialEvents p queues) (s.items p (s.typedEvents p queues))
      mrl' ∧ mrl'.Follows (s.after p (s.typedEvents p queues)) := by
  induction queues generalizing mrl s with
  | nil => exact ⟨mrl, yields_pure _ _, h⟩
  | cons queue queues ih =>
    rw [Session.typedEvents, Session.meets_append] at hallowed
    rw [Session.typedEvents, Session.items_append, Session.after_append]
    obtain ⟨mrl₁, hrun, hnext⟩ :=
      @Follows.orcheHandleSerialEvent p mrl s [] queue h (by decide) hallowed.1
    obtain ⟨mrl₂, hmore, hlast⟩ := ih hnext hallowed.2
    exact ⟨mrl₂, hrun.bind hmore, hlast⟩

/-! ## Input that the code hangs on -/

theorem processChar_endless (h : mrl.Follows s) {ch : UInt8}
    (hshort : ¬s.editor.Short (s.key p ch)) : (mrl.processChar p ch).result = none := by
  have hkey : (s.decoder.decode p ch).2 = s.key p ch := rfl
  cases hcase : s.key p ch with
  | enter =>
    rw [hcase] at hshort hkey
    rw [← h.2] at hkey
    exact h.1.processChar_endless hkey (not_not.mp hshort)
  | _ =>
    rw [hcase] at hshort
    exact absurd trivial hshort

theorem processChars_endless (h : mrl.Follows s) {data : List UInt8}
    (htabs : s.Meets p Editor.PlainTab (s.taken p data))
    (hshort : ¬s.Meets p Editor.Short (s.taken p data)) :
    (mrl.processChars p data).result = none := by
  induction data generalizing mrl s with
  | nil => exact absurd trivial hshort
  | cons ch data ih =>
    rw [Session.taken, Session.Meets, not_and_or] at hshort
    rw [Mrl.processChars, result_bind]
    by_cases hkey : s.editor.Short (s.key p ch)
    · obtain ⟨mrl₁, hrun, hnext⟩ := h.processChar ⟨hkey, htabs.1⟩
      have hrest := hshort.resolve_left (not_not.mpr hkey)
      have hmore := htabs.2
      cases hleft : (s.answer p ch).left with
      | some res =>
        rw [hleft] at hrest
        exact absurd trivial hrest
      | none =>
        rw [hleft] at hrest hmore
        rw [hrun.1, hleft]
        exact ih hnext hmore hrest
    · rw [h.processChar_endless hkey]
      rfl

theorem orcheHandleSerialEvent_endless {input queue : List UInt8} (h : mrl.Follows s)
    (hlen : input.length < shellInputBufferSize)
    (htabs : s.Meets p Editor.PlainTab (s.pending p input queue))
    (hshort : ¬s.Meets p Editor.Short (s.pending p input queue)) :
    (mrl.orcheHandleSerialEvent p input queue).result = none := by
  induction queue generalizing mrl s input with
  | nil =>
    rw [Session.pending, Session.typed, List.append_nil] at htabs hshort
    have hne : input ≠ [] := by
      rintro rfl
      exact hshort trivial
    rw [Mrl.orcheHandleSerialEvent, if_neg hne, result_bind, Mrl.microrlProcessingInput,
      if_neg hne, h.processChars_endless htabs hshort]
    rfl
  | cons c queue ih =>
    have hlength : (input ++ [shellNormaliseInput c]).length = input.length + 1 :=
      List.length_append
    rw [Session.pending_cons] at htabs hshort
    rw [Mrl.orcheHandleSerialEvent]
    generalize input ++ [shellNormaliseInput c] = data at htabs hshort hlength ⊢
    by_cases hfull : data.length = shellInputBufferSize
    · have hne : data ≠ [] := by
        rintro rfl
        exact absurd hlength (Nat.succ_ne_zero _).symm
      simp only [hfull, Nat.mod_self, bne_self_eq_false, Bool.and_false] at htabs hshort ⊢
      rw [Session.meets_append] at htabs hshort
      rw [if_pos trivial, result_bind, Mrl.microrlProcessingInput, if_neg hne]
      by_cases hdata : s.Meets p Editor.Short (s.taken p data)
      · obtain ⟨mrl₁, hrun, hnext⟩ := h.processChars (Session.meets_and.mpr ⟨hdata, htabs.1⟩)
        rw [hrun.1]
        exact @ih mrl₁ _ [] hnext (by decide) htabs.2 fun hmore => hshort ⟨hdata, hmore⟩
      · rw [h.processChars_endless htabs.1 hdata]
        rfl
    · have hlt : data.length < shellInputBufferSize := by omega
      have hne : (data.length != 0) = true := bne_iff_ne.mpr (by omega)
      simp only [Nat.mod_eq_of_lt hlt, hne, Bool.and_true] at htabs hshort ⊢
      rw [if_neg hfull]
      exact ih h hlt htabs hshort

theorem serialEvents_endless {queues : List (List UInt8)} (h : mrl.Follows s)
    (htabs : s.Meets p Editor.PlainTab (s.typedEvents p queues))
    (hshort : ¬s.Meets p Editor.Short (s.typedEvents p queues)) :
    (mrl.serialEvents p queues).result = none := by
  induction queues generalizing mrl s with
  | nil => exact absurd trivial hshort
  | cons queue queues ih =>
    rw [Session.typedEvents, Session.meets_append] at htabs hshort
    rw [Mrl.serialEvents, result_bind]
    by_cases hfirst : s.Meets p Editor.Short (s.typed p 0 false queue)
    · obtain ⟨mrl₁, hrun, hnext⟩ := @Follows.orcheHandleSerialEvent p mrl s [] queue h
        (by decide) (Session.meets_and.mpr ⟨hfirst, htabs.1⟩)
      rw [hrun.1]
      exact ih hnext htabs.2 fun hmore => hshort ⟨hfirst, hmore⟩
    · rw [@Follows.orcheHandleSerialEvent_endless p mrl s [] queue h (by decide) htabs.1 hfirst]
      rfl

end Mrl.Follows

/-! ## Whole runs -/

section Runs

variable {p : Platform} {queues : List (List UInt8)}

/-- Over any serial events the code shows what the abstract editor shows, stays within its
arrays, and is left in a state that stands for the one of the abstract editor. -/
theorem serialEvents_refine
    (h : Session.init.Meets p Editor.Allowed (Session.init.typedEvents p queues)) :
    ∃ mrl, Yields Effect.items (init.serialEvents p queues)
        (Session.init.items p (Session.init.typedEvents p queues)) mrl ∧
      mrl.Follows (Session.init.after p (Session.init.typedEvents p queues)) :=
  init_follows.serialEvents h

/-- The command `stop` in two serial events. -/
def stopQueues : List (List UInt8) := [[115, 116, 111], [112, 13]]

theorem serialEvents_refine_stopQueues :
    ∃ mrl, Yields Effect.items (init.serialEvents clearPlatform stopQueues)
        (Session.init.items clearPlatform (Session.init.typedEvents clearPlatform stopQueues))
        mrl ∧
      mrl.Follows (Session.init.after clearPlatform
        (Session.init.typedEvents clearPlatform stopQueues)) :=
  serialEvents_refine (by decide)

/-- The shell hangs exactly if a line of 127 bytes is entered. -/
theorem serialEvents_result_none_iff
    (htabs : Session.init.Meets p Editor.PlainTab (Session.init.typedEvents p queues)) :
    (init.serialEvents p queues).result = none ↔
      ¬Session.init.Meets p Editor.Short (Session.init.typedEvents p queues) := by
  refine ⟨fun hnone hshort => ?_, init_follows.serialEvents_endless htabs⟩
  obtain ⟨mrl, hrun, -⟩ := init_follows.serialEvents (Session.meets_and.mpr ⟨hshort, htabs⟩)
  rw [hrun.1] at hnone
  cases hnone

/-- A line of 127 bytes that is entered. -/
def longQueues : List (List UInt8) := [List.replicate 127 97 ++ [13]]

theorem serialEvents_result_none_iff_longQueues :
    (init.serialEvents clearPlatform longQueues).result = none :=
  (serialEvents_result_none_iff (by decide +kernel)).mpr (by decide +kernel)

end Runs

end Microrl
end Carrels
