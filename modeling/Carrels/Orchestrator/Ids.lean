/-
The ids of sandboxes and containers.

Both tables draw their ids from one counter, and an id is printed injectively, so an id
names one object of the whole run.  `History` records which ids were handed out and which
of them were removed; `IdInv` ties both to the tables.
-/
import Mathlib.Data.List.Nodup
import Mathlib.Data.List.TakeWhile
import Carrels.Orchestrator.Objects

namespace Carrels
namespace Orchestrator

open ByteMemory Monitor StepSystem

variable {M : Type}

/-! ## Numbers in hexadecimal -/

theorem hexDigit_inj {a b : Nat} (ha : a < 16) (hb : b < 16) (h : hexDigit a = hexDigit b) :
    a = b := by
  have hall : ∀ a < 16, ∀ b < 16, hexDigit a = hexDigit b → a = b := by decide
  exact hall a ha b hb h

/-- The digits below a place decide the number below it. -/
theorem mod_pow_eq_of_digits {v w : Nat} (n : Nat)
    (h : ∀ k < n, v / 16 ^ k % 16 = w / 16 ^ k % 16) : v % 16 ^ n = w % 16 ^ n := by
  induction n with
  | zero => rw [Nat.pow_zero, Nat.mod_one, Nat.mod_one]
  | succ n ih =>
    rw [Nat.mod_pow_succ, Nat.mod_pow_succ, ih fun k hk => h k (Nat.lt_succ_of_lt hk),
      h n (Nat.lt_succ_self n)]

/-- All sixteen digits of a number. -/
def hexDigits (v : BitVec 64) : List UInt8 :=
  (List.range 16).map fun i => hexDigit (v.toNat / 16 ^ (15 - i) % 16)

theorem hexDigits_inj {v w : BitVec 64} (h : hexDigits v = hexDigits w) : v = w := by
  refine BitVec.eq_of_toNat_eq ?_
  have hdigits : ∀ k < 16, v.toNat / 16 ^ k % 16 = w.toNat / 16 ^ k % 16 := by
    intro k hk
    have hget := congrArg (fun l => l[15 - k]?) h
    simp only [hexDigits, List.getElem?_map, List.getElem?_range (show 15 - k < 16 by omega),
      Option.map_some, Option.some.injEq, show 15 - (15 - k) = k by omega] at hget
    exact hexDigit_inj (Nat.mod_lt _ (by decide)) (Nat.mod_lt _ (by decide)) hget
  have hmod := mod_pow_eq_of_digits 16 hdigits
  rwa [Nat.mod_eq_of_lt (show v.toNat < 16 ^ 16 from v.isLt),
    Nat.mod_eq_of_lt (show w.toNat < 16 ^ 16 from w.isLt)] at hmod

/-- Zeros in front of it make the printed number sixteen digits long. -/
theorem hexDigits_eq_pad (v : BitVec 64) :
    hexDigits v = List.replicate (16 - (hex08 v).length) 48 ++ hex08 v := by
  have hlen : (hexDigits v).length = 16 := by rw [hexDigits, List.length_map, List.length_range]
  have hhex : hex08 v = ((hexDigits v).take 8).dropWhile (· == 48) ++ (hexDigits v).drop 8 := rfl
  have hzeros : ((hexDigits v).take 8).takeWhile (· == 48) =
      List.replicate (((hexDigits v).take 8).takeWhile (· == 48)).length 48 := by
    refine List.eq_replicate_of_mem fun c hc => ?_
    simpa using List.mem_takeWhile_imp hc
  have hsplit := List.takeWhile_append_dropWhile (p := (· == 48)) (l := (hexDigits v).take 8)
  have hlens := congrArg List.length hsplit
  rw [List.length_append, List.length_take, hlen] at hlens
  have hpad : 16 - (hex08 v).length = (((hexDigits v).take 8).takeWhile (· == 48)).length := by
    rw [hhex, List.length_append, List.length_drop, hlen]
    omega
  rw [hpad, ← hzeros, hhex, ← List.append_assoc, hsplit, List.take_append_drop]

theorem hex08_inj {v w : BitVec 64} (h : hex08 v = hex08 w) : v = w := by
  refine hexDigits_inj ?_
  rw [hexDigits_eq_pad, hexDigits_eq_pad, h]

theorem length_hex08_le (v : BitVec 64) : (hex08 v).length ≤ 16 := by
  have hlen : (hexDigits v).length = 16 := by rw [hexDigits, List.length_map, List.length_range]
  rw [hexDigits_eq_pad, List.length_append] at hlen
  omega

/-! ## Ids -/

/-- The id the `v`-th object has as one of its kind. -/
def idOf : Kind → BitVec 64 → List UInt8
  | .sandbox => sandboxId
  | .container => containerId

theorem sandboxId_eq (v : BitVec 64) : sandboxId v = bytes "carrels-sandbox-" ++ hex08 v := by
  refine List.take_of_length_le ?_
  have := length_hex08_le v
  rw [List.length_append, show (bytes "carrels-sandbox-").length = 16 from rfl]
  omega

theorem containerId_eq (v : BitVec 64) :
    containerId v = bytes "carrels-container-" ++ hex08 v := by
  refine List.take_of_length_le ?_
  have := length_hex08_le v
  rw [List.length_append, show (bytes "carrels-container-").length = 18 from rfl]
  omega

theorem sandboxId_ne_containerId (v w : BitVec 64) : sandboxId v ≠ containerId w := by
  intro h
  rw [sandboxId_eq, containerId_eq] at h
  have hget := congrArg (fun l => l[8]?) h
  rw [List.getElem?_append_left (by decide), List.getElem?_append_left (by decide)] at hget
  exact absurd hget (by decide)

theorem idOf_inj {k k' : Kind} {v v' : BitVec 64} (h : idOf k v = idOf k' v') :
    k = k' ∧ v = v' := by
  cases k <;> cases k'
  case sandbox.sandbox =>
    rw [idOf, sandboxId_eq, sandboxId_eq] at h
    exact ⟨rfl, hex08_inj (List.append_cancel_left h)⟩
  case sandbox.container => exact absurd h (sandboxId_ne_containerId v v')
  case container.sandbox => exact absurd h.symm (sandboxId_ne_containerId v' v)
  case container.container =>
    rw [idOf, containerId_eq, containerId_eq] at h
    exact ⟨rfl, hex08_inj (List.append_cancel_left h)⟩

theorem newObject_key (s : State M) (request : CriObject) (k : Kind) :
    (newObject s request k).present = true ∧
      (newObject s request k).id = idOf k (s.nextId + 1) := by
  cases k <;> exact ⟨rfl, rfl⟩

/-! ## History -/

/-- The ids handed out, and those of them that were removed, the latest first. -/
structure History where
  given : List (Kind × List UInt8) := []
  removed : List (Kind × List UInt8) := []

/-- The id a request hands out. -/
def givenBy (op : BitVec 16) (response : CriObject) (result : CriResult) :
    List (Kind × List UInt8) :=
  match gives op result with
  | some k => [(k, response.id)]
  | none => []

/-- The id a request removes, if it is one. -/
def removedBy (given : List (Kind × List UInt8)) (op : BitVec 16) (request : CriObject) :
    List (Kind × List UInt8) :=
  match removes op with
  | some k => if (k, request.id) ∈ given then [(k, request.id)] else []
  | none => []

/-- One event, and what it adds to the history. -/
def stepHistory (cfg : Config) (port : Port M) (s : State M × History) :
    Event M → Option (State M × History)
  | .request op request spawnOk =>
    (processRequest cfg port spawnOk s.1 op request).map fun (s', response, result) =>
      (s', { given := givenBy op response result ++ s.2.given
             removed := removedBy s.2.given op request ++ s.2.removed })
  | e => (step cfg port s.1 e).map (·, s.2)

theorem stepHistory_fst (cfg : Config) (port : Port M) (s : State M × History) (e : Event M) :
    (stepHistory cfg port s e).map Prod.fst = step cfg port s.1 e := by
  cases e <;> simp [stepHistory, step, Function.comp_def]

/-- A request adds to the history what it gives and removes; no other event does. -/
theorem stepHistory_cases {cfg : Config} {port : Port M} {t t' : State M × History}
    {e : Event M} (hs : stepHistory cfg port t e = some t') :
    (∃ op request spawnOk s' response result, e = .request op request spawnOk ∧
        processRequest cfg port spawnOk t.1 op request = some (s', response, result) ∧
        t' = (s', { given := givenBy op response result ++ t.2.given
                    removed := removedBy t.2.given op request ++ t.2.removed })) ∨
      (∀ op request spawnOk, e ≠ .request op request spawnOk) ∧
        ∃ s', step cfg port t.1 e = some s' ∧ t' = (s', t.2) := by
  by_cases he : ∃ op request spawnOk, e = .request op request spawnOk
  · obtain ⟨op, request, spawnOk, rfl⟩ := he
    obtain ⟨⟨s', response, result⟩, hreq, rfl⟩ := Option.map_eq_some_iff.mp hs
    exact .inl ⟨op, request, spawnOk, s', response, result, rfl, hreq, rfl⟩
  · have hother : ∀ op request spawnOk, e ≠ .request op request spawnOk :=
      fun op request spawnOk heq => he ⟨op, request, spawnOk, heq⟩
    have hstep : stepHistory cfg port t e = (step cfg port t.1 e).map (·, t.2) := by
      cases e with
      | request op request spawnOk => exact absurd rfl (hother op request spawnOk)
      | shell | fsReply | notifiedMonitor | yield | fsMounted | imageProbed | monitor => rfl
    rw [hstep] at hs
    obtain ⟨s', hs', rfl⟩ := Option.map_eq_some_iff.mp hs
    exact .inr ⟨hother, s', hs', rfl⟩

/-! ## The statement -/

/-- The request is answered with `result`, and the state stays as it is. -/
def Answers (cfg : Config) (port : Port M) (s : State M) (op : CriOp) (request : CriObject)
    (result : CriResult) : Prop :=
  ∀ spawnOk, processRequest cfg port spawnOk s op.number request = some (s, {}, result)

/-- No object has the id `x`. -/
structure Unknown (cfg : Config) (port : Port M) (s : State M) (x : List UInt8) : Prop where
  status : ∀ request : CriObject, request.id = x →
    Answers cfg port s .sandboxStatus request .notFound ∧
    Answers cfg port s .containerStatus request .notFound ∧
    Answers cfg port s .startContainer request .notFound ∧
    Answers cfg port s .reopenLog request .notFound
  unchanged : ∀ request : CriObject, request.id = x →
    Answers cfg port s .stopSandbox request .ok ∧
    Answers cfg port s .removeSandbox request .ok ∧
    Answers cfg port s .stopContainer request .notFound ∧
    Answers cfg port s .removeContainer request .ok

/-- Ids identify objects: no id is handed out twice, the ids of present objects are
different, and those that were removed stay unknown. -/
structure IdsIdentify (cfg : Config) (port : Port M) (s : State M) (h : History) : Prop where
  once : (h.given.map Prod.snd).Nodup
  known : ∀ k i, (s.table k i).present = true → (k, (s.table k i).id) ∈ h.given
  distinct : ∀ k i k' i', (s.table k i).present = true → (s.table k' i').present = true →
    (s.table k i).id = (s.table k' i').id → k = k' ∧ i = i'
  gone : ∀ g ∈ h.removed, Unknown cfg port s g.2

/-! ## The invariant -/

structure IdInv (s : State M) (h : History) : Prop where
  count : s.nextId = BitVec.ofNat 64 h.given.length
  shape : ∀ g ∈ h.given, ∃ n, n < h.given.length ∧ g.2 = idOf g.1 (BitVec.ofNat 64 (n + 1))
  once : (h.given.map Prod.snd).Nodup
  bound : ∀ k i, (s.table k i).present = true → i < criMaxObjects
  known : ∀ k i, (s.table k i).present = true → (k, (s.table k i).id) ∈ h.given
  distinct : ∀ k i j, (s.table k i).present = true → (s.table k j).present = true →
    (s.table k i).id = (s.table k j).id → i = j
  gone : ∀ g ∈ h.removed, g ∈ h.given ∧
    ∀ i, (s.table g.1 i).present = true → (s.table g.1 i).id ≠ g.2

namespace IdInv

variable {s s' : State M} {h : History}

theorem init (m : M) : IdInv ({ monitor := m } : State M) {} where
  count := rfl
  shape _ hg := absurd hg List.not_mem_nil
  once := List.nodup_nil
  bound k i hp := by cases k <;> cases hp
  known k i hp := by cases k <;> cases hp
  distinct k i _ hp := by cases k <;> cases hp
  gone _ hg := absurd hg List.not_mem_nil

theorem unique (hinv : IdInv s h) {k k' : Kind} {x : List UInt8} (hk : (k, x) ∈ h.given)
    (hk' : (k', x) ∈ h.given) : k = k' :=
  congrArg Prod.fst (List.inj_on_of_nodup_map hinv.once hk hk' rfl)

theorem kept (hinv : IdInv s h) (hkept : Kept s s') : IdInv s' h := by
  have hkey := hkept.key
  refine ⟨hkept.nextId.trans hinv.count, hinv.shape, hinv.once,
    fun k i hp => hinv.bound k i ((hkey k i).1 ▸ hp), fun k i hp => ?_,
    fun k i j hi hj hij => ?_, fun g hg => ⟨(hinv.gone g hg).1, fun i hp => ?_⟩⟩
  · rw [(hkey k i).1] at hp
    rw [(hkey k i).2]
    exact hinv.known k i hp
  · rw [(hkey k i).1] at hi
    rw [(hkey k j).1] at hj
    rw [(hkey k i).2, (hkey k j).2] at hij
    exact hinv.distinct k i j hi hj hij
  · rw [(hkey g.1 i).1] at hp
    rw [(hkey g.1 i).2]
    exact (hinv.gone g hg).2 i hp

theorem ofNat_succ (n : Nat) : BitVec.ofNat 64 (n + 1) = BitVec.ofNat 64 n + 1 :=
  BitVec.ofNat_add ..

theorem fresh (hinv : IdInv s h) (hlt : h.given.length + 1 < 2 ^ 64) (k : Kind) :
    idOf k (s.nextId + 1) ∉ h.given.map Prod.snd := by
  intro hmem
  obtain ⟨g, hg, hid⟩ := List.mem_map.mp hmem
  obtain ⟨n, hn, hshape⟩ := hinv.shape g hg
  have hv := (idOf_inj (hshape.symm.trans hid)).2
  rw [hinv.count, ← ofNat_succ] at hv
  have hnat := congrArg BitVec.toNat hv
  rw [BitVec.toNat_ofNat, BitVec.toNat_ofNat, Nat.mod_eq_of_lt (by omega),
    Nat.mod_eq_of_lt hlt] at hnat
  omega

theorem created (hinv : IdInv s h) {k : Kind} {i : Nat} {request : CriObject}
    (hlt : h.given.length + 1 < 2 ^ 64) (hi : i < criMaxObjects)
    (hput : Put s s' k i (newObject s request k)) (hn : s'.nextId = s.nextId + 1) :
    IdInv s' { h with given := (k, (newObject s request k).id) :: h.given } := by
  obtain ⟨-, hid⟩ := newObject_key s request k
  have hfresh := hinv.fresh hlt k
  rw [← hid] at hfresh
  have hself : s'.table k i = newObject s request k := by rw [hput.table, Function.update_self]
  have hold : ∀ k' j, (k', j) ≠ (k, i) → s'.table k' j = s.table k' j := fun k' j hne => by
    by_cases hk : k' = k
    · subst hk
      rw [hput.table, Function.update_of_ne fun hj => hne (by rw [hj])]
    · rw [hput.other k' hk]
  -- An old object's id has been handed out, the new one's has not.
  have hother : ∀ k' j, (k', j) ≠ (k, i) → (s'.table k' j).present = true →
      (s'.table k' j).id ≠ (newObject s request k).id := fun k' j hne hp hsame => by
    rw [hold k' j hne] at hp hsame
    exact hfresh (hsame ▸ List.mem_map_of_mem (hinv.known k' j hp))
  refine ⟨?_, fun g hg => ?_, ?_, fun k' j hp => ?_, fun k' j hp => ?_,
    fun k' j j' hj hj' hsame => ?_, fun g hg => ?_⟩
  · rw [hn, hinv.count, List.length_cons, ofNat_succ]
  · obtain rfl | hg := List.mem_cons.mp hg
    · refine ⟨h.given.length, by rw [List.length_cons]; omega, ?_⟩
      rw [hid, hinv.count, ← ofNat_succ]
    · obtain ⟨n, hlt', hshape⟩ := hinv.shape g hg
      exact ⟨n, by rw [List.length_cons]; omega, hshape⟩
  · exact List.nodup_cons.mpr ⟨hfresh, hinv.once⟩
  · by_cases hne : (k', j) = (k, i)
    · exact (Prod.mk.inj hne).2 ▸ hi
    · exact hinv.bound k' j (hold k' j hne ▸ hp)
  · by_cases hne : (k', j) = (k, i)
    · obtain ⟨rfl, rfl⟩ := Prod.mk.inj hne
      rw [hself]
      exact List.mem_cons_self
    · rw [hold k' j hne] at hp ⊢
      exact List.mem_cons_of_mem _ (hinv.known k' j hp)
  · by_cases hne : (k', j) = (k, i)
    · obtain ⟨rfl, rfl⟩ := Prod.mk.inj hne
      by_contra hjj
      refine hother k' j' (fun heq => hjj (Prod.mk.inj heq).2.symm) hj' ?_
      rw [← hsame, hself]
    · by_cases hne' : (k', j') = (k, i)
      · obtain ⟨rfl, rfl⟩ := Prod.mk.inj hne'
        exact absurd (hsame.trans (by rw [hself])) (hother k' j hne hj)
      · rw [hold k' j hne] at hj hsame
        rw [hold k' j' hne'] at hj' hsame
        exact hinv.distinct k' j j' hj hj' hsame
  · obtain ⟨hgiven, hgone⟩ := hinv.gone g hg
    refine ⟨List.mem_cons_of_mem _ hgiven, fun j hp hsame => ?_⟩
    by_cases hne : (g.1, j) = (k, i)
    · obtain ⟨hk, rfl⟩ := Prod.mk.inj hne
      rw [hk, hself] at hsame
      exact hfresh (hsame ▸ List.mem_map_of_mem hgiven)
    · rw [hold g.1 j hne] at hp hsame
      exact hgone j hp hsame

theorem cleared (hinv : IdInv s h) {k : Kind} {i : Nat} (hput : Put s s' k i {})
    (hn : s'.nextId = s.nextId) : IdInv s' h := by
  have hold : ∀ k' j, (s'.table k' j).present = true → s'.table k' j = s.table k' j :=
    fun k' j hp => by
      by_cases hk : k' = k
      · subst hk
        by_cases hj : j = i
        · rw [hj, hput.table, Function.update_self] at hp
          cases hp
        · rw [hput.table, Function.update_of_ne hj]
      · rw [hput.other k' hk]
  refine ⟨hn.trans hinv.count, hinv.shape, hinv.once,
    fun k' j hp => hinv.bound k' j (hold k' j hp ▸ hp), fun k' j hp => ?_,
    fun k' j j' hj hj' hsame => ?_, fun g hg => ⟨(hinv.gone g hg).1, fun j hp => ?_⟩⟩
  · rw [hold k' j hp]
    exact hinv.known k' j (hold k' j hp ▸ hp)
  · rw [hold k' j hj, hold k' j' hj'] at hsame
    exact hinv.distinct k' j j' (hold k' j hj ▸ hj) (hold k' j' hj' ▸ hj') hsame
  · rw [hold g.1 j hp]
    exact (hinv.gone g hg).2 j (hold g.1 j hp ▸ hp)

theorem forget (hinv : IdInv s h) {k : Kind} {x : List UInt8} (hgiven : (k, x) ∈ h.given)
    (hgone : ∀ i, (s.table k i).present = true → (s.table k i).id ≠ x) :
    IdInv s { h with removed := (k, x) :: h.removed } := by
  refine ⟨hinv.count, hinv.shape, hinv.once, hinv.bound, hinv.known, hinv.distinct, fun g hg => ?_⟩
  obtain rfl | hg := List.mem_cons.mp hg
  · exact ⟨hgiven, hgone⟩
  · exact hinv.gone g hg

theorem find_none (hinv : IdInv s h) {k : Kind} {x : List UInt8} :
    find (s.table k) x = none ↔ ∀ i, (s.table k i).present = true → (s.table k i).id ≠ x := by
  refine ⟨fun hfind i hp hid => ?_, fun hgone => ?_⟩
  · have := List.find?_eq_none.mp hfind i (List.mem_range.mpr (hinv.bound k i hp))
    simp [hp, hid] at this
  · refine List.find?_eq_none.mpr fun i _ hfound => ?_
    obtain ⟨hp, hid⟩ : (s.table k i).present = true ∧ (s.table k i).id = x := by
      simpa using hfound
    exact hgone i hp hid

theorem find_id (hinv : IdInv s h) {k : Kind} {i : Nat} (hp : (s.table k i).present = true) :
    find (s.table k) (s.table k i).id = some i := by
  cases hfind : find (s.table k) (s.table k i).id with
  | none => exact absurd rfl (hinv.find_none.mp hfind i hp)
  | some j =>
    obtain ⟨-, hj, hid⟩ := find_spec hfind
    rw [hinv.distinct k j i hj hp hid]

/-- A removed id is recorded when there is no object of that id any more. -/
theorem recordRemoved (hinv : IdInv s h) {op : BitVec 16} {request : CriObject}
    (hgone : ∀ k, removes op = some k →
      ∀ i, (s.table k i).present = true → (s.table k i).id ≠ request.id) :
    IdInv s { h with removed := removedBy h.given op request ++ h.removed } := by
  unfold removedBy
  split
  case h_1 k hk =>
    split
    case isTrue hgiven => exact hinv.forget hgiven (hgone k hk)
    case isFalse => exact hinv
  case h_2 => exact hinv

theorem request (hinv : IdInv s h) {op : BitVec 16} {request response : CriObject}
    {result : CriResult} (hs : RequestStep s op request s' response result)
    (hlt : (givenBy op response result ++ h.given).length < 2 ^ 64) :
    IdInv s' { given := givenBy op response result ++ h.given
               removed := removedBy h.given op request ++ h.removed } := by
  cases hs with
  | kept hgives hnone hkept =>
    have hgiven : givenBy op response result = [] := by rw [givenBy, hgives]
    rw [hgiven, List.nil_append]
    refine (hinv.kept hkept).recordRemoved fun k hk i hp => ?_
    rw [(hkept.key k i).1] at hp
    rw [(hkept.key k i).2]
    exact hinv.find_none.mp (hnone k hk) i hp
  | created k i hgives hi hput hn =>
    have hgiven : givenBy op (newObject s request k) .ok = [(k, (newObject s request k).id)] := by
      rw [givenBy, hgives]
    rw [hgiven] at hlt ⊢
    have hremoved : removedBy h.given op request = [] := by
      rw [removedBy, removes_of_gives hgives]
    rw [hremoved]
    exact hinv.created hlt (allocate_spec hi).1 hput hn
  | removed k i hremoves hgives hi hput hn =>
    have hgiven : givenBy op response result = [] := by rw [givenBy, hgives]
    rw [hgiven, List.nil_append]
    refine (hinv.cleared hput hn).recordRemoved fun k' hk' j hp hid => ?_
    obtain rfl := Option.some.inj (hremoves.symm.trans hk')
    obtain ⟨-, hpresent, hfound⟩ := find_spec hi
    by_cases hj : j = i
    · rw [hj, hput.table, Function.update_self] at hp
      cases hp
    · rw [hput.table, Function.update_of_ne hj] at hp hid
      exact hj (hinv.distinct k j i hp hpresent (hid.trans hfound.symm))

theorem step {cfg : Config} {port : Port M} {e : Event M} {h' : History} (hinv : IdInv s h)
    (hs : stepHistory cfg port (s, h) e = some (s', h')) (hlt : h'.given.length < 2 ^ 64) :
    IdInv s' h' := by
  obtain ⟨op, request, spawnOk, _, response, result, rfl, hreq, ⟨⟩⟩ | ⟨he, _, hstep, ⟨⟩⟩ :=
    stepHistory_cases hs
  · exact hinv.request (processRequest_objects hreq) hlt
  · exact hinv.kept (step_kept hstep he)

theorem given_suffix {cfg : Config} {port : Port M} {e : Event M} {h' : History}
    (hs : stepHistory cfg port (s, h) e = some (s', h')) : h.given <:+ h'.given := by
  obtain ⟨op, request, spawnOk, _, response, result, -, -, ⟨⟩⟩ | ⟨-, _, -, ⟨⟩⟩ :=
    stepHistory_cases hs
  · exact List.suffix_append _ _
  · exact List.suffix_refl _

theorem was_present (hinv : IdInv s h) {cfg : Config} {port : Port M} {e : Event M}
    {h' : History} (hs : stepHistory cfg port (s, h) e = some (s', h'))
    (hlt : h'.given.length < 2 ^ 64) {k : Kind} {i : Nat} {x : List UInt8}
    (hgiven : (k, x) ∈ h.given) (hp : (s'.table k i).present = true)
    (hid : (s'.table k i).id = x) :
    (s.table k i).present = true ∧ (s.table k i).id = x := by
  have of_kept : Kept s s' → (s.table k i).present = true ∧ (s.table k i).id = x :=
    fun hkept => by
      obtain ⟨hpresent, hsame⟩ := hkept.key k i
      exact ⟨hpresent.symm.trans hp, hsame.symm.trans hid⟩
  obtain ⟨op, request, spawnOk, _, response, result, rfl, hreq, ⟨⟩⟩ | ⟨he, _, hstep, ⟨⟩⟩ :=
    stepHistory_cases hs
  · cases processRequest_objects hreq with
    | kept _ _ hkept => exact of_kept hkept
    | created k' i' hgives _ hput _ =>
      have hone : givenBy op (newObject s request k') .ok =
          [(k', (newObject s request k').id)] := by rw [givenBy, hgives]
      rw [hone] at hlt
      by_cases hk : k = k'
      · subst hk
        by_cases hi : i = i'
        · -- The new object's id is a fresh one.
          subst hi
          rw [hput.table, Function.update_self, (newObject_key s request k).2] at hid
          refine absurd ?_ (hinv.fresh hlt k)
          rw [hid]
          exact List.mem_map_of_mem hgiven
        · rw [hput.table, Function.update_of_ne hi] at hp hid
          exact ⟨hp, hid⟩
      · rw [hput.other k hk] at hp hid
        exact ⟨hp, hid⟩
    | removed k' i' _ _ _ hput _ =>
      by_cases hk : k = k'
      · subst hk
        by_cases hi : i = i'
        · subst hi
          rw [hput.table, Function.update_self] at hp
          cases hp
        · rw [hput.table, Function.update_of_ne hi] at hp hid
          exact ⟨hp, hid⟩
      · rw [hput.other k hk] at hp hid
        exact ⟨hp, hid⟩
  · exact of_kept (step_kept hstep he)

/-! ### What follows -/

theorem unknown (hinv : IdInv s h) (cfg : Config) (port : Port M) {g : Kind × List UInt8}
    (hg : g ∈ h.removed) : Unknown cfg port s g.2 := by
  obtain ⟨hgiven, hgone⟩ := hinv.gone g hg
  -- The other table never had an object of this id.
  have hfind : ∀ k, find (s.table k) g.2 = none := fun k => by
    refine hinv.find_none.mpr fun i hp hid => ?_
    have hk : k = g.1 := hinv.unique (hid ▸ hinv.known k i hp) hgiven
    subst hk
    exact hgone i hp hid
  have hsandbox : find s.sandboxes g.2 = none := hfind .sandbox
  have hcontainer : find s.containers g.2 = none := hfind .container
  refine ⟨fun request hid => ⟨fun spawnOk => ?_, fun spawnOk => ?_, fun spawnOk => ?_,
    fun spawnOk => ?_⟩, fun request hid => ⟨fun spawnOk => ?_, fun spawnOk => ?_,
    fun spawnOk => ?_, fun spawnOk => ?_⟩⟩
  all_goals
    simp only [processRequest, dispatch, CriOp.ofNumber_number, startContainer, stopContainer,
      removeContainer, modifyObject, status, hid, hsandbox, hcontainer]
    rfl

theorem identify (hinv : IdInv s h) (cfg : Config) (port : Port M) :
    IdsIdentify cfg port s h where
  once := hinv.once
  known := hinv.known
  distinct k i k' i' hp hp' hsame := by
    have hk : k = k' := hinv.unique (hinv.known k i hp) (hsame ▸ hinv.known k' i' hp')
    subst hk
    exact ⟨rfl, hinv.distinct k i i' hp hp' hsame⟩
  gone _ hg := hinv.unknown cfg port hg

end IdInv

/-! ## Every run -/

theorem IdInv.of_reaches {cfg : Config} {port : Port M} {m : M} {t : State M × History}
    (hreach : Reaches (stepHistory cfg port) anyEvent ({ monitor := m }, {}) t)
    (hlt : t.2.given.length < 2 ^ 64) : IdInv t.1 t.2 := by
  refine hreach.invariant (I := fun t => t.2.given.length < 2 ^ 64 → IdInv t.1 t.2)
    (fun _ => IdInv.init m) ?_ hlt
  intro t e t' hinv _ hs hlt
  exact (hinv (Nat.lt_of_le_of_lt (IdInv.given_suffix hs).length_le hlt)).step hs hlt

/-- In every run with fewer than 2^64 creations ids identify objects, whatever the requests
hold and whatever happens between them. -/
theorem idsIdentify (cfg : Config) (port : Port M) (m : M) {s : State M} {h : History}
    (hreach : Reaches (stepHistory cfg port) anyEvent ({ monitor := m }, {}) (s, h))
    (hlt : h.given.length < 2 ^ 64) : IdsIdentify cfg port s h :=
  (IdInv.of_reaches hreach hlt).identify cfg port

/-- A sandbox and a container are created, and the sandbox is removed. -/
def removedSandboxRun : List (Event Unit) :=
  [.request CriOp.runSandbox.number {} true, .request CriOp.createContainer.number {} true,
    .request CriOp.removeSandbox.number { id := bytes "carrels-sandbox-00000001" } true]

def silentPort : Port Unit := { call := fun _ _ => none }

def noPorts : Config := { maxPorts := 0, maxPorts_le := by decide }

def removedSandbox : State Unit × History :=
  (run (stepHistory noPorts silentPort) ({ monitor := () }, {}) removedSandboxRun).get
    (by decide +kernel)

theorem run_removedSandbox :
    run (stepHistory noPorts silentPort) ({ monitor := () }, {}) removedSandboxRun =
      some removedSandbox := (Option.some_get _).symm

theorem idsIdentify_removedSandbox :
    IdsIdentify noPorts silentPort removedSandbox.1 removedSandbox.2 ∧
      removedSandbox.2.removed = [(.sandbox, bytes "carrels-sandbox-00000001")] :=
  ⟨idsIdentify noPorts silentPort () (reaches_of_run (runMeets_anyEvent _ _ _) run_removedSandbox)
    (by decide +kernel), by decide +kernel⟩

end Orchestrator
end Carrels
