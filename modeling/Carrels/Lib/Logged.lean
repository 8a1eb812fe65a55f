/-
Computations that log what they touch.

A computation has a log and, unless it has been broken off, a result.  `touch` logs an event
and breaks off where the event is not allowed; `All` says that every event of the log is
allowed.
-/
import Mathlib.Data.List.Basic

structure Logged (ε α : Type) where
  log : List ε
  result : Option α

namespace Logged

variable {ε α β : Type}

instance : Monad (Logged ε) where
  pure a := { log := [], result := some a }
  bind x f :=
    match x.result with
    | none => { log := x.log, result := none }
    | some a => { log := x.log ++ (f a).log, result := (f a).result }

/-- Log an event and go on if it is allowed. -/
def touch (allowed : ε → Bool) (e : ε) : Logged ε Unit :=
  { log := [e], result := if allowed e then some () else none }

/-- Log an event and go on with a value. -/
def note (e : ε) (a : α) : Logged ε α := { log := [e], result := some a }

/-- A step that logs nothing and may fail. -/
def attempt (value : Option α) : Logged ε α := { log := [], result := value }

/-- Every logged event is allowed. -/
def All (allowed : ε → Bool) (x : Logged ε α) : Prop := ∀ e ∈ x.log, allowed e = true

@[simp]
theorem all_pure (allowed : ε → Bool) (a : α) : All allowed (Pure.pure a : Logged ε α) :=
  fun _ h => absurd h List.not_mem_nil

@[simp]
theorem all_attempt (allowed : ε → Bool) (value : Option α) :
    All allowed (attempt value : Logged ε α) :=
  fun _ h => absurd h List.not_mem_nil

@[simp]
theorem all_touch (allowed : ε → Bool) (e : ε) :
    All allowed (touch allowed e) ↔ allowed e = true := by
  simp [All, touch]

@[simp]
theorem all_note (allowed : ε → Bool) (e : ε) (a : α) :
    All allowed (note e a) ↔ allowed e = true := by
  simp [All, note]

@[simp]
theorem result_pure (a : α) : (Pure.pure a : Logged ε α).result = some a := rfl

@[simp]
theorem result_attempt (value : Option α) : (attempt value : Logged ε α).result = value := rfl

@[simp]
theorem result_note (e : ε) (a : α) : (note e a).result = some a := rfl

@[simp]
theorem result_touch (allowed : ε → Bool) (e : ε) :
    (touch allowed e).result = if allowed e then some () else none := rfl

@[simp]
theorem result_bind (x : Logged ε α) (f : α → Logged ε β) :
    (x >>= f).result = x.result.bind fun a => (f a).result := by
  simp only [Bind.bind]
  cases x.result <;> rfl

/-- What is logged from an allowed event on. -/
theorem log_touch_bind {allowed : ε → Bool} {e : ε} (h : allowed e = true)
    (f : Unit → Logged ε β) : (touch allowed e >>= f).log = e :: (f ()).log := by
  simp [Bind.bind, touch, h]

/-- One computation after the other: what the second one logs counts only if it is reached. -/
@[simp]
theorem all_bind (allowed : ε → Bool) (x : Logged ε α) (f : α → Logged ε β) :
    All allowed (x >>= f) ↔
      All allowed x ∧ ∀ a, x.result = some a → All allowed (f a) := by
  simp only [Bind.bind, All]
  cases x.result with
  | none => simp
  | some a => simp [or_imp, forall_and]

theorem attempt_some_bind (a : α) (f : α → Logged ε β) : (attempt (some a) >>= f) = f a := rfl

theorem attempt_none_bind (f : α → Logged ε β) :
    (attempt none >>= f) = { log := [], result := none } := rfl

theorem note_bind (e : ε) (a : α) (f : α → Logged ε β) :
    (note e a >>= f) = { log := e :: (f a).log, result := (f a).result } := rfl

theorem mk_bind (log : List ε) (a : α) (f : α → Logged ε β) :
    (({ log, result := some a } : Logged ε α) >>= f) =
      { log := log ++ (f a).log, result := (f a).result } := rfl

/-- Nothing is lost when computations are grouped in another way. -/
instance : LawfulMonad (Logged ε) := by
  refine LawfulMonad.mk' (Logged ε) (fun x => ?_) (fun a f => rfl) (fun x f g => ?_)
  · obtain ⟨log, result⟩ := x
    cases result with
    | none => rfl
    | some a => exact congrArg (Logged.mk · (some a)) (List.append_nil log)
  · obtain ⟨log, result⟩ := x
    cases result with
    | none => rfl
    | some a =>
      rw [mk_bind, mk_bind]
      simp only [Bind.bind]
      cases (f a).result with
      | none => rfl
      | some b => exact congrArg (Logged.mk · _) (List.append_assoc _ _ _)

/-! ## What a log shows

A view tells what an event shows.  `Yields` says what a computation shows and results in. -/

section View

variable {ι : Type} {view : ε → List ι} {x : Logged ε α} {f : α → Logged ε β}
  {items more : List ι} {a : α} {b : β}

def Yields (view : ε → List ι) (x : Logged ε α) (items : List ι) (a : α) : Prop :=
  x.result = some a ∧ x.log.flatMap view = items

theorem yields_pure (view : ε → List ι) (a : α) : Yields view (pure a) [] a := ⟨rfl, rfl⟩

theorem yields_note (view : ε → List ι) (e : ε) (a : α) : Yields view (note e a) (view e) a :=
  ⟨rfl, List.append_nil _⟩

theorem Yields.bind (hx : Yields view x items a) (hf : Yields view (f a) more b) :
    Yields view (x >>= f) (items ++ more) b := by
  obtain ⟨log, result⟩ := x
  obtain ⟨hresult, hlog⟩ := hx
  cases hresult
  rw [mk_bind]
  refine ⟨hf.1, ?_⟩
  rw [List.flatMap_append, hlog, hf.2]

theorem Yields.cast (h : Yields view x items a) (heq : items = more) : Yields view x more a :=
  heq ▸ h

theorem Yields.bind_pure (hx : Yields view x items a) (g : α → β) :
    Yields view (x >>= fun a => pure (g a)) items (g a) :=
  (hx.bind (yields_pure view (g a))).cast (List.append_nil items)

theorem Yields.attempt_bind {value : Option α} (hvalue : value = some a)
    (hf : Yields view (f a) more b) : Yields view (attempt value >>= f) more b := by
  rw [hvalue]
  exact hf

end View

end Logged
