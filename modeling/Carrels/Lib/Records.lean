/-
Consecutive records that carry their own size.

`walk` is the loop of a parser that steps over a number of records and rejects one that
leaves the buffer; `Chain` is the format it decides.  The size of a record is a parameter,
`none` where the parser finds its header malformed.
-/
import Mathlib.Data.Nat.Init

namespace Records

/-- Step over `count` records from offset `p` on.  The header of a record and the record
itself have to end at `limit` at the latest.  The result is where the records start and
where the last one ends. -/
def walk (header limit : Nat) (size : Nat → Option Nat) : Nat → Nat → Option (List Nat × Nat)
  | 0, p => some ([], p)
  | count + 1, p =>
    if limit < p + header then none
    else
      match size p with
      | none => none
      | some k =>
        if limit < p + k then none
        else (walk header limit size count (p + k)).map fun (starts, e) => (p :: starts, e)

/-- Records that start at `starts` follow each other from `p` up to `e`. -/
inductive Chain (size : Nat → Option Nat) : Nat → List Nat → Nat → Prop
  | nil {p : Nat} : Chain size p [] p
  | cons {p k e : Nat} {starts : List Nat} (hk : size p = some k)
      (h : Chain size (p + k) starts e) : Chain size p (p :: starts) e

variable {size size' : Nat → Option Nat} {header limit p e : Nat} {starts : List Nat}

namespace Chain

theorem le (h : Chain size p starts e) : p ≤ e := by
  induction h with
  | nil => exact Nat.le_refl _
  | cons _ _ ih => omega

theorem mem (h : Chain size p starts e) {q : Nat} (hq : q ∈ starts) :
    ∃ k, size q = some k ∧ p ≤ q ∧ q + k ≤ e := by
  induction h with
  | nil => exact absurd hq List.not_mem_nil
  | @cons p k e rest hk hrest ih =>
    obtain rfl | hq := List.mem_cons.mp hq
    · exact ⟨k, hk, Nat.le_refl _, hrest.le⟩
    · obtain ⟨k', hk', hle, hend⟩ := ih hq
      exact ⟨k', hk', by omega, hend⟩

theorem congr (h : Chain size p starts e) (hsize : ∀ q ∈ starts, size' q = size q) :
    Chain size' p starts e := by
  induction h with
  | nil => exact .nil
  | cons hk hrest ih =>
    refine .cons ((hsize _ List.mem_cons_self).trans hk) (ih fun q hq => ?_)
    exact hsize q (List.mem_cons_of_mem _ hq)

theorem unique {starts' : List Nat} {e' : Nat} (h : Chain size p starts e)
    (h' : Chain size p starts' e') (hlen : starts'.length = starts.length) :
    starts' = starts ∧ e' = e := by
  induction h generalizing starts' with
  | nil =>
    obtain rfl := List.eq_nil_of_length_eq_zero hlen
    cases h'
    exact ⟨rfl, rfl⟩
  | @cons p k e rest hk hrest ih =>
    cases h' with
    | nil => exact absurd hlen (by simp)
    | @cons _ k' _ rest' hk' hrest' =>
      obtain rfl : k' = k := Option.some.inj (hk'.symm.trans hk)
      obtain ⟨rfl, rfl⟩ := ih hrest' (Nat.succ.inj hlen)
      exact ⟨rfl, rfl⟩

/-- A record of no length is followed by none of another. -/
theorem eq_of_size_zero (h : Chain size p starts e) (hp : size p = some 0) : e = p := by
  induction h with
  | nil => rfl
  | @cons p k e rest hk hrest ih =>
    obtain rfl : k = 0 := Option.some.inj (hk.symm.trans hp)
    exact ih hp

/-- Records that start before the end lie one behind the other. -/
theorem pairwise_lt (h : Chain size p starts e) (hlt : ∀ q ∈ starts, q < e) :
    starts.Pairwise (· < ·) := by
  induction h with
  | nil => exact List.Pairwise.nil
  | @cons p k e rest hk hrest ih =>
    obtain ⟨hp, hrests⟩ := List.forall_mem_cons.mp hlt
    refine List.Pairwise.cons (fun q hq => ?_) (ih hrests)
    obtain ⟨-, -, hle, -⟩ := hrest.mem hq
    have hpos : k ≠ 0 := by
      rintro rfl
      exact Nat.ne_of_gt hp (hrest.eq_of_size_zero hk)
    omega

end Chain

/-- The parser accepts the chains of the right length whose headers and records end in
time. -/
theorem walk_eq_some {count : Nat} :
    walk header limit size count p = some (starts, e) ↔
      starts.length = count ∧ Chain size p starts e ∧
        (∀ q ∈ starts, q + header ≤ limit) ∧ (starts ≠ [] → e ≤ limit) := by
  induction count generalizing p starts with
  | zero =>
    simp only [walk, Option.some.injEq, Prod.mk.injEq]
    constructor
    · rintro ⟨rfl, rfl⟩
      exact ⟨rfl, .nil, fun q hq => absurd hq List.not_mem_nil, fun h => absurd rfl h⟩
    · rintro ⟨hlen, hchain, -, -⟩
      obtain rfl := List.eq_nil_of_length_eq_zero hlen
      cases hchain
      exact ⟨rfl, rfl⟩
  | succ count ih =>
    rw [walk]
    constructor
    · intro h
      split at h
      case isTrue => cases h
      case isFalse hroom =>
        split at h
        case h_1 => cases h
        case h_2 k hk =>
          split at h
          case isTrue => cases h
          case isFalse hend =>
            obtain ⟨⟨rest, e'⟩, hrest, heq⟩ := Option.map_eq_some_iff.mp h
            obtain ⟨rfl, rfl⟩ := Prod.mk.inj heq
            obtain ⟨hlen, hchain, hheaders, hle⟩ := ih.mp hrest
            refine ⟨congrArg Nat.succ hlen, .cons hk hchain, fun q hq => ?_, fun _ => ?_⟩
            · obtain rfl | hq := List.mem_cons.mp hq
              · exact Nat.le_of_not_lt hroom
              · exact hheaders q hq
            · cases rest with
              | nil =>
                cases hchain
                exact Nat.le_of_not_lt hend
              | cons => exact hle (List.cons_ne_nil _ _)
    · rintro ⟨hlen, hchain, hheaders, hle⟩
      cases hchain with
      | nil => exact absurd hlen (by simp)
      | @cons _ k _ rest hk hrest =>
        have hend : p + k ≤ limit := Nat.le_trans hrest.le (hle (List.cons_ne_nil _ _))
        have hwalk : walk header limit size count (p + k) = some (rest, e) :=
          ih.mpr ⟨Nat.succ.inj hlen, hrest, fun q hq => hheaders q (List.mem_cons_of_mem _ hq),
            fun _ => hle (List.cons_ne_nil _ _)⟩
        rw [if_neg (Nat.not_lt.mpr (hheaders p List.mem_cons_self)), hk]
        dsimp only
        rw [if_neg (Nat.not_lt.mpr hend), hwalk]
        rfl

/-- When every record is at least as long as its header, the parser accepts the chains
that end at `limit`, and no others do. -/
theorem walk_eq_some_limit {count : Nat} (hsize : ∀ q k, size q = some k → header ≤ k) :
    walk header limit size count p = some (starts, limit) ↔
      starts.length = count ∧ Chain size p starts limit := by
  rw [walk_eq_some]
  refine ⟨fun h => ⟨h.1, h.2.1⟩, fun h => ⟨h.1, h.2, fun q hq => ?_, fun _ => Nat.le_refl _⟩⟩
  obtain ⟨k, hk, -, hend⟩ := h.2.mem hq
  have := hsize q k hk
  omega

/-- The parser asks for the size of a record only when its header ends in time. -/
theorem walk_congr (header limit : Nat) (size size' : Nat → Option Nat) (p count : Nat)
    (hsize : ∀ q, p ≤ q → q + header ≤ limit → size' q = size q) :
    walk header limit size' count p = walk header limit size count p := by
  induction count generalizing p with
  | zero => rfl
  | succ count ih =>
    rw [walk, walk]
    split
    case isTrue => rfl
    case isFalse hroom =>
      rw [hsize p (Nat.le_refl _) (Nat.le_of_not_lt hroom)]
      split
      case h_1 => rfl
      case h_2 k _ => rw [ih _ fun q hq => hsize q (by omega)]

end Records
