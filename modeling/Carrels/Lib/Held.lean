/-
Resources that are taken and given back.

A log of what was taken and given back is balanced when nothing was given back that was not held,
and nothing is held in the end.
-/
import Mathlib.Data.List.Basic

namespace Held

variable {ρ : Type}

inductive Event (ρ : Type)
  | take (r : ρ)
  | give (r : ρ)
  deriving DecidableEq

section

variable [DecidableEq ρ]

/-- What is held after an event, unless it gives back what is not held. -/
def next (held : List ρ) : Event ρ → Option (List ρ)
  | .take r => some (r :: held)
  | .give r => if r ∈ held then some (held.erase r) else none

/-- What is held after a log. -/
def after (held : List ρ) (log : List (Event ρ)) : Option (List ρ) := log.foldlM next held

/-- What the log takes it gives back, once and after it was taken. -/
def Balanced (log : List (Event ρ)) : Prop := after [] log = some []

instance (log : List (Event ρ)) : Decidable (Balanced log) :=
  inferInstanceAs (Decidable (_ = _))

@[simp]
theorem after_nil (held : List ρ) : after held [] = some held := rfl

@[simp]
theorem after_take (held : List ρ) (r : ρ) (log : List (Event ρ)) :
    after held (.take r :: log) = after (r :: held) log := rfl

theorem after_give_mem {held : List ρ} {r : ρ} (h : r ∈ held) (log : List (Event ρ)) :
    after held (.give r :: log) = after (held.erase r) log := by
  rw [after, List.foldlM_cons, next, if_pos h]
  rfl

@[simp]
theorem after_give_head (held : List ρ) (r : ρ) (log : List (Event ρ)) :
    after (r :: held) (.give r :: log) = after held log := by
  rw [after_give_mem List.mem_cons_self, List.erase_cons_head]

theorem after_give_not_mem {held : List ρ} {r : ρ} (h : r ∉ held) (log : List (Event ρ)) :
    after held (.give r :: log) = none := by
  rw [after, List.foldlM_cons, next, if_neg h]
  rfl

end

end Held
