/-
Listing by pages (`hostClient.list` of `cri_stub.go`).

The runtime answers a page with the first object at or behind the cursor, and the shim goes
on behind it.  Between two pages anything may happen to the tables.  A listing visits the
slots in increasing order, and an object never changes its slot; this is why it misses
nothing that stays and, while ids are not given out twice, repeats nothing.
-/
import Carrels.Shim.Survival

namespace Carrels
namespace Shim

open ByteMemory Fields Monitor Orchestrator StepSystem

variable {M : Type}

/-! ## The loop -/

/-- The frame of `list`.  `result` is what it has returned; `calls` is history. -/
structure Lister where
  cursor : BitVec 32 := 0
  out : List WireObject := []
  result : Option (Except CriResult (List WireObject)) := none
  calls : Nat := 0

/-- The body of the loop of `list` after its call, and the condition of the next round. -/
def Lister.resume (l : Lister) (answer : Except CriResult WireObject) : Lister :=
  let l := { l with calls := l.calls + 1 }
  match answer with
  | .error e => { l with result := some (.error e) }
  | .ok o =>
    if o.present = 0 then { l with result := some (.ok l.out) }
    else
      let out := l.out ++ [o]
      if o.cursor ≤ l.cursor then { l with out, result := some (.ok out) }
      else if o.cursor < 32 then { l with out, cursor := o.cursor }
      else { l with out, cursor := o.cursor, result := some (.ok out) }

/-- The operation that lists the objects of a kind. -/
def listOp : Kind → CriOp
  | .sandbox => .listSandbox
  | .container => .listContainer

inductive ListEvent (M : Type)
  | page
  | other (e : Orchestrator.Event M)

/-- What happens until `list` returns: its own calls, and everything between them. -/
def stepList (cfg : Config) (port : Port M) (k : Kind)
    (s : (Orchestrator.State M × History) × Lister) :
    ListEvent M → Option ((Orchestrator.State M × History) × Lister)
  | .page =>
    if s.2.result.isSome then none
    else
      (call cfg port true s.1 (listOp k) { cursor := s.2.cursor }).map fun (t, answer) =>
        (t, s.2.resume answer)
  | .other e =>
    if s.2.result.isSome then none else (stepHistory cfg port s.1 e).map (·, s.2)

/-- A listing that starts in `t` returns the objects `out` in `t'`. -/
def Lists (cfg : Config) (port : Port M) (k : Kind)
    (ok : (Orchestrator.State M × History) × Lister → ListEvent M → Prop)
    (t t' : Orchestrator.State M × History) (out : List WireObject) : Prop :=
  ∃ l, Reaches (stepList cfg port k) ok (t, {}) (t', l) ∧ l.result = some (.ok out)

/-- Slot `i` holds the object of id `x`. -/
def HasObject (k : Kind) (i : Nat) (x : List UInt8)
    (s : (Orchestrator.State M × History) × Lister) (_ : ListEvent M) : Prop :=
  (s.1.1.table k i).present = true ∧ (s.1.1.table k i).id = x

/-- Nothing happens between the pages. -/
def PageOnly (_ : (Orchestrator.State M × History) × Lister) (e : ListEvent M) : Prop := e = .page

/-- The object in slot `i` as a page returns it. -/
def pageOf (table : Table) (i : Nat) : WireObject :=
  unmarshalObject (encodeObject { table i with cursor := BitVec.ofNat 32 (i + 1) })

/-- The slots of the present objects, in table order. -/
def presentSlots (table : Table) : List Nat :=
  (List.range criMaxObjects).filter fun i => (table i).present

/-- The listings that start in `t` lose and repeat nothing. -/
structure PagedListing (cfg : Config) (port : Port M) (k : Kind)
    (t : Orchestrator.State M × History) : Prop where
  /-- There are at most 33 calls, and each of them can be made. -/
  ends : ∀ {t' l}, Reaches (stepList cfg port k) anyEvent (t, {}) (t', l) →
    l.calls ≤ 33 ∧
      (l.result = none → ∃ l', stepList cfg port k (t', l) .page = some (t', l') ∧
        l'.calls = l.calls + 1) ∧
      ∀ e, l.result ≠ some (.error e)
  /-- The object of a slot that has it all the time is returned once. -/
  complete : ∀ {i x t' out}, Lists cfg port k (HasObject k i x) t t' out →
    (out.filter fun o => o.cursor = BitVec.ofNat 32 (i + 1)).map WireObject.id = [x]
  once : ∀ {t' out}, Lists cfg port k anyEvent t t' out → t'.2.given.length < 2 ^ 64 →
    (out.map WireObject.id).Nodup
  exact : ∀ {t' out}, Lists cfg port k PageOnly t t' out →
    t' = t ∧ out = (presentSlots (t.1.table k)).map (pageOf (t.1.table k))

/-! ## One page -/

/-- `i` is the first slot at or behind the cursor that has an object. -/
structure NextSlot (table : Table) (cursor i : Nat) : Prop where
  le : cursor ≤ i
  lt : i < criMaxObjects
  present : (table i).present = true
  first : ∀ j, cursor ≤ j → j < i → (table j).present = false

/-- The slots `list_one` looks at. -/
theorem drop_range_eq (c : Nat) :
    (List.range criMaxObjects).drop c = List.range' c (criMaxObjects - c) := by
  rw [List.range_eq_range', List.drop_range', Nat.zero_add, Nat.mul_one]

/-- A page is the first object at or behind the cursor. -/
theorem listOne_some {table : Table} {c : BitVec 32} {i : Nat}
    (hnext : NextSlot table c.toNat i) :
    listOne table c = { table i with cursor := BitVec.ofNat 32 (i + 1) } := by
  have hfind : ((List.range criMaxObjects).drop c.toNat).find? (fun i => (table i).present) =
      some i := by
    have hle := hnext.le
    have hlt := hnext.lt
    rw [drop_range_eq, List.find?_range'_eq_some]
    refine ⟨hnext.present, List.mem_range'_1.mpr ⟨hle, by omega⟩, fun j hj hji => ?_⟩
    rw [hnext.first j hj hji]
    rfl
  rw [listOne, hfind]

theorem listOne_none {table : Table} {c : BitVec 32}
    (hnone : ∀ j, c.toNat ≤ j → j < criMaxObjects → (table j).present = false) :
    listOne table c = { cursor := BitVec.ofNat 32 criMaxObjects } := by
  have hfind : ((List.range criMaxObjects).drop c.toNat).find? (fun i => (table i).present) =
      none := by
    rw [drop_range_eq, List.find?_range'_eq_none]
    intro j hj hlt
    rw [hnone j hj (by omega)]
    rfl
  rw [listOne, hfind]

theorem listOne_cases (table : Table) (c : BitVec 32) :
    (∃ i, NextSlot table c.toNat i) ∨
      ∀ j, c.toNat ≤ j → j < criMaxObjects → (table j).present = false := by
  cases hfind : ((List.range criMaxObjects).drop c.toNat).find? fun i => (table i).present with
  | none =>
    rw [drop_range_eq, List.find?_range'_eq_none] at hfind
    refine Or.inr fun j hj hlt => ?_
    simpa using hfind j hj (by omega)
  | some i =>
    rw [drop_range_eq, List.find?_range'_eq_some] at hfind
    obtain ⟨hp, hmem, hfirst⟩ := hfind
    obtain ⟨hle, hlt⟩ := List.mem_range'_1.mp hmem
    refine Or.inl ⟨i, hle, by omega, hp, fun j hj hji => ?_⟩
    simpa using hfirst j hj hji

theorem call_list (cfg : Config) (port : Port M) (t : Orchestrator.State M × History) (k : Kind)
    (c : BitVec 32) :
    call cfg port true t (listOp k) { cursor := c } =
      some (t, .ok (unmarshalObject (encodeObject (listOne (t.1.table k) c)))) := by
  have hcursor : (decodeObject (marshal { cursor := c })).cursor = c := by
    simp only [decodeObject, split_marshal]
    exact u32_toLE c
  have hgives : ∀ response, givenBy (listOp k).number response .ok = [] := by
    cases k <;> exact fun _ => rfl
  have hremoves : ∀ request, removedBy t.2.given (listOp k).number request = [] := by
    cases k <;> exact fun _ => rfl
  have hprocess : processRequest cfg port true t.1 (listOp k).number
      (decodeObject (marshal { cursor := c })) =
        some (t.1, listOne (t.1.table k) c, .ok) := by
    cases k with
    | sandbox =>
      simp only [processRequest, dispatch, listOp, CriOp.ofNumber_number, hcursor, State.table]
      rfl
    | container =>
      simp only [processRequest, dispatch, listOp, CriOp.ofNumber_number, hcursor, State.table]
      rfl
  rw [call, hprocess, Option.map_some]
  dsimp only
  rw [hgives, hremoves, if_pos rfl]
  rfl

theorem unmarshalObject_cursor (o : CriObject) :
    (unmarshalObject (encodeObject o)).cursor = o.cursor ∧
      (unmarshalObject (encodeObject o)).present = if o.present then 1 else 0 := by
  have hsplit : split wireSizes (encodeObject o) = objectFields o := split_encodeObject o
  rw [unmarshalObject, hsplit]
  refine ⟨u32_toLE o.cursor, ?_⟩
  cases hp : o.present with
  | false => simp only [objectFields, hp]; rfl
  | true => simp only [objectFields, hp]; rfl

theorem pageOf_cursor {table : Table} {i : Nat} (hp : (table i).present = true) :
    (pageOf table i).cursor = BitVec.ofNat 32 (i + 1) ∧ (pageOf table i).present = 1 := by
  obtain ⟨hcursor, hpresent⟩ :=
    unmarshalObject_cursor { table i with cursor := BitVec.ofNat 32 (i + 1) }
  exact ⟨hcursor, hpresent.trans (if_pos hp)⟩

/-! ## One step -/

/-- The frame after a page with the object of slot `i`. -/
def Lister.took (l : Lister) (i : Nat) (o : WireObject) : Lister :=
  { cursor := BitVec.ofNat 32 (i + 1)
    out := l.out ++ [o]
    result := if i + 1 < criMaxObjects then none else some (.ok (l.out ++ [o]))
    calls := l.calls + 1 }

/-- The frame after a page without an object. -/
def Lister.ended (l : Lister) : Lister :=
  { l with result := some (.ok l.out), calls := l.calls + 1 }

theorem cursor_toNat {i : Nat} (hi : i < criMaxObjects) :
    (BitVec.ofNat 32 (i + 1)).toNat = i + 1 := by
  rw [BitVec.toNat_ofNat]
  exact Nat.mod_eq_of_lt (by unfold criMaxObjects at hi; omega)

section

variable {cfg : Config} {port : Port M} {k : Kind} {t t' : Orchestrator.State M × History}
  {l l' : Lister}

theorem resume_took {table : Table} {i : Nat} (hrunning : l.result = none)
    (hnext : NextSlot table l.cursor.toNat i) :
    l.resume (.ok (unmarshalObject (encodeObject (listOne table l.cursor)))) =
      l.took i (pageOf table i) := by
  have hle := hnext.le
  have hlt := hnext.lt
  obtain ⟨hcursor, hpresent⟩ := pageOf_cursor hnext.present
  rw [listOne_some hnext]
  have hbehind : ¬ BitVec.ofNat 32 (i + 1) ≤ l.cursor := by
    rw [BitVec.le_def, cursor_toNat hlt]
    omega
  have hlast : BitVec.ofNat 32 (i + 1) < 32 ↔ i + 1 < criMaxObjects := by
    rw [BitVec.lt_def, cursor_toNat hlt]
    exact Iff.rfl
  change l.resume (.ok (pageOf table i)) = _
  rw [Lister.resume, Lister.took]
  dsimp only
  rw [hpresent, if_neg (by decide), hcursor, if_neg hbehind]
  by_cases hmore : i + 1 < criMaxObjects
  · rw [if_pos (hlast.mpr hmore), if_pos hmore, hrunning]
  · rw [if_neg fun h => hmore (hlast.mp h), if_neg hmore]

theorem resume_ended {table : Table}
    (hnone : ∀ j, l.cursor.toNat ≤ j → j < criMaxObjects → (table j).present = false) :
    l.resume (.ok (unmarshalObject (encodeObject (listOne table l.cursor)))) = l.ended := by
  obtain ⟨-, hpresent⟩ := unmarshalObject_cursor { cursor := BitVec.ofNat 32 criMaxObjects }
  rw [listOne_none hnone, Lister.resume]
  dsimp only
  rw [hpresent, if_neg Bool.false_ne_true, if_pos rfl]
  rfl

/-- Until `list` returns there is a page to ask for. -/
theorem step_page (t : Orchestrator.State M × History) (hrunning : l.result = none) :
    stepList cfg port k (t, l) .page =
      some (t, l.resume (.ok (unmarshalObject (encodeObject (listOne (t.1.table k) l.cursor))))) := by
  rw [stepList, hrunning, if_neg (by simp), call_list]
  rfl

theorem step_took {i : Nat} (hrunning : l.result = none)
    (hnext : NextSlot (t.1.table k) l.cursor.toNat i) :
    stepList cfg port k (t, l) .page = some (t, l.took i (pageOf (t.1.table k) i)) := by
  rw [step_page t hrunning, resume_took hrunning hnext]

theorem step_ended (hrunning : l.result = none)
    (hnone : ∀ j, l.cursor.toNat ≤ j → j < criMaxObjects → (t.1.table k j).present = false) :
    stepList cfg port k (t, l) .page = some (t, l.ended) := by
  rw [step_page t hrunning, resume_ended hnone]

/-- What happens while `list` runs. -/
inductive ListStep (cfg : Config) (port : Port M) (k : Kind) (t : Orchestrator.State M × History)
    (l : Lister) : ListEvent M → Orchestrator.State M × History → Lister → Prop
  | other {e : Orchestrator.Event M} {t' : Orchestrator.State M × History}
      (hs : stepHistory cfg port t e = some t') : ListStep cfg port k t l (.other e) t' l
  | took {i : Nat} (hnext : NextSlot (t.1.table k) l.cursor.toNat i) :
      ListStep cfg port k t l .page t (l.took i (pageOf (t.1.table k) i))
  | ended
      (hnone : ∀ j, l.cursor.toNat ≤ j → j < criMaxObjects → (t.1.table k j).present = false) :
      ListStep cfg port k t l .page t l.ended

theorem stepList_cases {e : ListEvent M} (h : stepList cfg port k (t, l) e = some (t', l')) :
    l.result = none ∧ ListStep cfg port k t l e t' l' := by
  have hrunning : l.result = none := by
    cases hr : l.result with
    | none => rfl
    | some r => cases e <;> simp [stepList, hr] at h
  refine ⟨hrunning, ?_⟩
  cases e with
  | page =>
    obtain ⟨i, hnext⟩ | hnone := listOne_cases (t.1.table k) l.cursor
    · rw [step_took hrunning hnext] at h
      obtain ⟨rfl, rfl⟩ := Prod.mk.inj (Option.some.inj h)
      exact .took hnext
    · rw [step_ended hrunning hnone] at h
      obtain ⟨rfl, rfl⟩ := Prod.mk.inj (Option.some.inj h)
      exact .ended hnone
  | other e =>
    rw [stepList, hrunning, if_neg (by simp)] at h
    obtain ⟨t₁, hs, heq⟩ := Option.map_eq_some_iff.mp h
    obtain ⟨rfl, rfl⟩ := Prod.mk.inj heq
    exact .other hs

/-! ## The cursor -/

/-- Where the loop is, and what it has returned so far. -/
structure Progress (l : Lister) : Prop where
  running : l.result = none → l.cursor.toNat < criMaxObjects ∧ l.calls ≤ l.cursor.toNat
  calls : l.calls ≤ criMaxObjects
  returned : ∀ r, l.result = some r → r = .ok l.out
  /-- The objects are in the order of their slots, all of them before the cursor. -/
  slots : (l.out.map fun o => o.cursor.toNat).Pairwise (· < ·)
  before : ∀ o ∈ l.out, o.cursor.toNat ≤ l.cursor.toNat

theorem Progress.init : Progress {} where
  running _ := ⟨by decide, Nat.le_refl 0⟩
  calls := Nat.zero_le _
  returned := nofun
  slots := List.Pairwise.nil
  before := nofun

theorem Progress.step {e : ListEvent M} (h : Progress l) (hrunning : l.result = none)
    (hs : ListStep cfg port k t l e t' l') : Progress l' := by
  obtain ⟨hlt, hcalls⟩ := h.running hrunning
  cases hs with
  | other => exact h
  | ended =>
    exact
      { running := nofun
        calls := Nat.lt_of_le_of_lt hcalls hlt
        returned := fun r hr => (Option.some.inj hr).symm
        slots := h.slots
        before := h.before }
  | @took i hnext =>
    have hcursor := cursor_toNat hnext.lt
    obtain ⟨hpage, -⟩ := pageOf_cursor hnext.present
    have hlast : (pageOf (t.1.table k) i).cursor.toNat = i + 1 := by rw [hpage, hcursor]
    have hle := hnext.le
    have hmax := hnext.lt
    refine
      { running := fun hr => ?_
        calls := Nat.lt_of_le_of_lt hcalls hlt
        returned := fun r hr => ?_
        slots := ?_
        before := fun o ho => ?_ }
    · rw [Lister.took] at hr ⊢
      dsimp only at hr ⊢
      split at hr
      case isTrue hmore =>
        rw [hcursor]
        omega
      case isFalse => cases hr
    · rw [Lister.took] at hr
      dsimp only at hr
      split at hr
      case isTrue => cases hr
      case isFalse => exact (Option.some.inj hr).symm
    · rw [Lister.took, List.map_append, List.pairwise_append]
      refine ⟨h.slots, List.pairwise_singleton _ _, fun c hc c' hc' => ?_⟩
      obtain ⟨o, ho, rfl⟩ := List.mem_map.mp hc
      obtain rfl := List.mem_singleton.mp hc'
      have hbefore := h.before o ho
      dsimp only
      omega
    · rw [Lister.took]
      dsimp only
      rw [hcursor]
      obtain ho | ho := List.mem_append.mp ho
      · have hbefore := h.before o ho
        omega
      · rw [List.mem_singleton.mp ho]
        omega

theorem Progress.of_reaches {ok : (Orchestrator.State M × History) × Lister → ListEvent M → Prop}
    (h : Reaches (stepList cfg port k) ok (t, {}) (t', l)) : Progress l := by
  refine h.invariant (I := fun s => Progress s.2) .init ?_
  rintro ⟨t, l⟩ e ⟨t', l'⟩ hI - hs
  obtain ⟨hrunning, hs⟩ := stepList_cases hs
  exact hI.step hrunning hs

/-! ## Nothing is missed -/

/-- A present object has an id of its kind, in one of the slots of its table. -/
def Shaped (s : Orchestrator.State M) : Prop :=
  ∀ k i, (s.table k i).present = true → i < criMaxObjects ∧ ∃ v, (s.table k i).id = idOf k v

theorem Shaped.kept {s s' : Orchestrator.State M} (h : Shaped s) (hkept : Kept s s') :
    Shaped s' := by
  intro k i hp
  obtain ⟨hpresent, hid⟩ := hkept.key k i
  rw [hid]
  exact h k i (hpresent ▸ hp)

theorem Shaped.put {s s' : Orchestrator.State M} {k : Kind} {i : Nat} {o : CriObject}
    (h : Shaped s) (hput : Put s s' k i o)
    (ho : o.present = true → i < criMaxObjects ∧ ∃ v, o.id = idOf k v) : Shaped s' := by
  intro k' j hp
  by_cases hk : k' = k
  · subst hk
    rw [hput.table] at hp ⊢
    by_cases hj : j = i
    · subst hj
      rw [Function.update_self] at hp ⊢
      exact ho hp
    · rw [Function.update_of_ne hj] at hp ⊢
      exact h k' j hp
  · rw [hput.other k' hk] at hp ⊢
    exact h k' j hp

theorem Shaped.step {e : Orchestrator.Event M} (h : Shaped t.1)
    (hs : stepHistory cfg port t e = some t') : Shaped t'.1 := by
  obtain ⟨op, request, spawnOk, s', response, result, rfl, hreq, rfl⟩ | ⟨he, s', hstep, rfl⟩ :=
    stepHistory_cases hs
  · cases processRequest_objects hreq with
    | kept _ _ hkept => exact h.kept hkept
    | created k i _ hi hput _ =>
      exact h.put hput fun _ => ⟨(allocate_spec hi).1, _, (newObject_key t.1 request k).2⟩
    | removed k i _ _ _ hput _ => exact h.put hput fun hp => absurd hp Bool.false_ne_true
  · exact h.kept (step_kept hstep he)

theorem Shaped.of_reaches {ok : Orchestrator.State M × History → Orchestrator.Event M → Prop}
    {m : M} (h : Reaches (stepHistory cfg port) ok ({ monitor := m }, {}) t) : Shaped t.1 := by
  refine h.invariant (I := fun t => Shaped t.1) (fun k i hp => ?_)
    fun _ _ _ hI _ hs => hI.step hs
  cases k <;> cases hp

theorem pageOf_id {s : Orchestrator.State M} (h : Shaped s) {i : Nat}
    (hp : (s.table k i).present = true) : (pageOf (s.table k) i).id = (s.table k i).id := by
  obtain ⟨-, v, hid⟩ := h k i hp
  exact unmarshalObject_id (hid ▸ stringFits_idOf k v)

/-- The object of slot `i` has been returned once the cursor is behind it. -/
structure Visited (i : Nat) (x : List UInt8) (l : Lister) : Prop where
  behind : i < l.cursor.toNat → ∃ o ∈ l.out, o.cursor = BitVec.ofNat 32 (i + 1) ∧ o.id = x
  ended : l.result ≠ none → ∃ o ∈ l.out, o.cursor = BitVec.ofNat 32 (i + 1) ∧ o.id = x

theorem Visited.init (i : Nat) (x : List UInt8) : Visited i x {} where
  behind h := absurd h (Nat.not_lt_zero i)
  ended h := absurd rfl h

theorem Visited.step {e : ListEvent M} {i : Nat} {x : List UInt8} (h : Visited i x l)
    (hshaped : Shaped t.1) (hobject : HasObject k i x (t, l) e)
    (hs : ListStep cfg port k t l e t' l') : Visited i x l' := by
  obtain ⟨hpresent, hid⟩ := hobject
  have hlt : i < criMaxObjects := (hshaped k i hpresent).1
  cases hs with
  | other => exact h
  | ended hnone =>
    -- No slot from the cursor on has an object, so the cursor is behind this one.
    have hbehind : i < l.cursor.toNat := Nat.lt_of_not_le fun hle =>
      absurd ((hnone i hle hlt).symm.trans hpresent) Bool.false_ne_true
    exact ⟨h.behind, fun _ => h.behind hbehind⟩
  | @took j hnext =>
    have hcursor := cursor_toNat hnext.lt
    have htook : i ≤ j → ∃ o ∈ (l.took j (pageOf (t.1.table k) j)).out,
        o.cursor = BitVec.ofNat 32 (i + 1) ∧ o.id = x := fun hle => by
      by_cases hbehind : i < l.cursor.toNat
      · obtain ⟨o, ho, hoi⟩ := h.behind hbehind
        exact ⟨o, List.mem_append_left _ ho, hoi⟩
      · have hij : i = j := by
          refine Nat.le_antisymm hle (Nat.le_of_not_lt fun hij => ?_)
          exact absurd ((hnext.first i (by omega) hij).symm.trans hpresent) Bool.false_ne_true
        subst hij
        exact ⟨_, List.mem_append_right _ (List.mem_singleton_self _),
          (pageOf_cursor hpresent).1, (pageOf_id hshaped hpresent).trans hid⟩
    refine ⟨fun hbehind => htook ?_, fun hresult => htook ?_⟩
    · rw [Lister.took] at hbehind
      dsimp only at hbehind
      omega
    · -- The loop ends behind the last slot.
      rw [Lister.took] at hresult
      dsimp only at hresult
      split at hresult
      case isTrue => exact absurd rfl hresult
      case isFalse hlast => omega

theorem Visited.of_reaches {i : Nat} {x : List UInt8} (hshaped : Shaped t.1)
    (h : Reaches (stepList cfg port k) (HasObject k i x) (t, {}) (t', l)) :
    Shaped t'.1 ∧ Visited i x l := by
  refine h.invariant (I := fun s => Shaped s.1.1 ∧ Visited i x s.2)
    ⟨hshaped, .init i x⟩ ?_
  rintro ⟨t, l⟩ e ⟨t', l'⟩ ⟨hshaped, hI⟩ hok hs
  obtain ⟨-, hstep⟩ := stepList_cases hs
  refine ⟨?_, hI.step hshaped hok hstep⟩
  cases hstep with
  | other hother => exact hshaped.step hother
  | took | ended => exact hshaped

/-- The slot of the object occurs once among the cursors that were returned. -/
theorem Progress.filter_eq {i : Nat} {x : List UInt8} (h : Progress l)
    (hmem : ∃ o ∈ l.out, o.cursor = BitVec.ofNat 32 (i + 1) ∧ o.id = x) :
    (l.out.filter fun o => o.cursor = BitVec.ofNat 32 (i + 1)).map WireObject.id = [x] := by
  obtain ⟨o, ho, hcursor, rfl⟩ := hmem
  obtain ⟨before, behind, hout⟩ := List.append_of_mem ho
  have hslots := h.slots
  rw [hout, List.map_append, List.pairwise_append, List.map_cons, List.pairwise_cons] at hslots
  obtain ⟨-, ⟨hbehind, -⟩, hbefore⟩ := hslots
  have hother : ∀ o' : WireObject, o'.cursor.toNat ≠ o.cursor.toNat →
      decide (o'.cursor = BitVec.ofNat 32 (i + 1)) = false := fun o' hne =>
    decide_eq_false fun heq => hne (by rw [heq, hcursor])
  rw [hout, List.filter_append, List.filter_cons_of_pos (a := o) (by simpa using hcursor),
    List.filter_eq_nil_iff.mpr fun o' ho' => ?_, List.filter_eq_nil_iff.mpr fun o' ho' => ?_]
  · rfl
  · rw [hother o' (Nat.ne_of_gt (hbehind _ (List.mem_map_of_mem ho')))]
    exact Bool.false_ne_true
  · rw [hother o' (Nat.ne_of_lt
      (hbefore _ (List.mem_map_of_mem ho') _ List.mem_cons_self))]
    exact Bool.false_ne_true

/-! ## Nothing is repeated -/

/-- The ids returned so far were handed out, and their objects are before the cursor. -/
structure Distinct (k : Kind) (t : Orchestrator.State M × History) (l : Lister) : Prop where
  given : ∀ o ∈ l.out, (k, o.id) ∈ t.2.given
  before : ∀ o ∈ l.out, ∀ i, (t.1.table k i).present = true → (t.1.table k i).id = o.id →
    i < l.cursor.toNat
  once : (l.out.map WireObject.id).Nodup

theorem Distinct.init (k : Kind) (t : Orchestrator.State M × History) : Distinct k t {} :=
  ⟨nofun, nofun, List.nodup_nil⟩

theorem Distinct.step {e : ListEvent M} (h : Distinct k t l) (hshaped : Shaped t.1)
    (hinv : IdInv t.1 t.2) (hlt : t'.2.given.length < 2 ^ 64)
    (hs : ListStep cfg port k t l e t' l') : Distinct k t' l' := by
  cases hs with
  | ended => exact ⟨h.given, h.before, h.once⟩
  | other hs =>
    refine ⟨fun o ho => (IdInv.given_suffix hs).mem (h.given o ho), fun o ho i hp hid => ?_,
      h.once⟩
    obtain ⟨hpresent, hsame⟩ := hinv.was_present hs hlt (h.given o ho) hp hid
    exact h.before o ho i hpresent hsame
  | @took i hnext =>
    have hpage := pageOf_id hshaped hnext.present
    have hcursor := cursor_toNat hnext.lt
    -- The objects returned before are before the cursor, this one is not.
    have hnew : ∀ o ∈ l.out, o.id ≠ (pageOf (t.1.table k) i).id := fun o ho hsame => by
      have hbefore := h.before o ho i hnext.present (hpage.symm.trans hsame.symm)
      exact absurd hnext.le (Nat.not_le_of_lt hbefore)
    refine ⟨fun o ho => ?_, fun o ho j hp hid => ?_, ?_⟩
    · obtain ho | ho := List.mem_append.mp ho
      · exact h.given o ho
      · rw [List.mem_singleton.mp ho, hpage]
        exact hinv.known k i hnext.present
    · rw [Lister.took]
      dsimp only
      rw [hcursor]
      obtain ho | ho := List.mem_append.mp ho
      · have hbefore := h.before o ho j hp hid
        have hle := hnext.le
        omega
      · rw [List.mem_singleton.mp ho, hpage] at hid
        rw [hinv.distinct k j i hp hnext.present hid]
        exact Nat.lt_succ_self i
    · rw [Lister.took, List.map_append, List.nodup_append]
      refine ⟨h.once, List.nodup_singleton _, fun x hx y hy => ?_⟩
      obtain ⟨o, ho, rfl⟩ := List.mem_map.mp hx
      rw [List.mem_singleton.mp hy]
      exact hnew o ho

/-- What the listing sees is a run of the runtime. -/
theorem reaches_of_list {ok : (Orchestrator.State M × History) × Lister → ListEvent M → Prop}
    (h : Reaches (stepList cfg port k) ok (t, l) (t', l')) :
    Reaches (stepHistory cfg port) anyEvent t t' := by
  refine h.invariant (I := fun s => Reaches (stepHistory cfg port) anyEvent t s.1) .refl ?_
  rintro ⟨t₁, l₁⟩ e ⟨t₂, l₂⟩ hI - hs
  obtain ⟨-, hstep⟩ := stepList_cases hs
  cases hstep with
  | other hother => exact hI.tail trivial hother
  | took | ended => exact hI

theorem Distinct.of_reaches {m : M}
    (hreach : Reaches (stepHistory cfg port) anyEvent ({ monitor := m }, {}) t)
    (h : Reaches (stepList cfg port k) anyEvent (t, {}) (t', l))
    (hlt : t'.2.given.length < 2 ^ 64) : Distinct k t' l := by
  refine h.invariant (I := fun s =>
    Reaches (stepHistory cfg port) anyEvent ({ monitor := m }, {}) s.1 ∧
      (s.1.2.given.length < 2 ^ 64 → Distinct k s.1 s.2))
    ⟨hreach, fun _ => .init k t⟩ ?_ |>.2 hlt
  rintro ⟨t, l⟩ e ⟨t', l'⟩ ⟨hreach, hI⟩ - hs
  obtain ⟨-, hstep⟩ := stepList_cases hs
  have hreach' : Reaches (stepHistory cfg port) anyEvent ({ monitor := m }, {}) t' := by
    cases hstep with
    | other hother => exact hreach.tail trivial hother
    | took | ended => exact hreach
  have hle : t.2.given.length ≤ t'.2.given.length := by
    cases hstep with
    | other hother => exact (IdInv.given_suffix hother).length_le
    | took | ended => exact Nat.le_refl _
  refine ⟨hreach', fun hlt => ?_⟩
  have hltt := Nat.lt_of_le_of_lt hle hlt
  exact (hI hltt).step (.of_reaches hreach) (.of_reaches hreach hltt) hlt hstep

/-! ## Pages alone -/

theorem filter_range_skip {p : Nat → Bool} {c i : Nat} (hle : c ≤ i)
    (hskip : ∀ j, c ≤ j → j < i → p j = false) :
    (List.range i).filter p = (List.range c).filter p := by
  induction i, hle using Nat.le_induction with
  | base => rfl
  | succ i hle ih =>
    rw [List.range_succ, List.filter_append,
      List.filter_cons_of_neg (by rw [hskip i hle (Nat.lt_succ_self i)]; exact Bool.false_ne_true),
      List.filter_nil, List.append_nil]
    exact ih fun j hj hji => hskip j hj (Nat.lt_succ_of_lt hji)

/-- The listing has returned the objects before the cursor, and at its end all of them. -/
structure Prefix (table : Table) (l : Lister) : Prop where
  out : l.out = ((List.range l.cursor.toNat).filter fun i => (table i).present).map (pageOf table)
  ended : l.result ≠ none → l.out = (presentSlots table).map (pageOf table)

theorem Prefix.step {e : ListEvent M}
    (h : Prefix (t.1.table k) l) (hle : l.cursor.toNat ≤ criMaxObjects) (he : e = .page)
    (hs : ListStep cfg port k t l e t' l') : t' = t ∧ Prefix (t.1.table k) l' := by
  cases hs with
  | other => cases he
  | ended hnone =>
    refine ⟨rfl, h.out, fun _ => h.out.trans ?_⟩
    rw [presentSlots, filter_range_skip hle hnone]
  | @took i hnext =>
    have hout : (l.took i (pageOf (t.1.table k) i)).out =
        ((List.range (i + 1)).filter fun i => (t.1.table k i).present).map
          (pageOf (t.1.table k)) := by
      rw [Lister.took, List.range_succ, List.filter_append, filter_range_skip hnext.le hnext.first,
        List.filter_cons_of_pos (a := i) hnext.present, List.filter_nil, List.map_append, ← h.out]
      rfl
    refine ⟨rfl, ?_, fun hresult => hout.trans ?_⟩
    · rw [hout, Lister.took]
      dsimp only
      rw [cursor_toNat hnext.lt]
    · rw [Lister.took] at hresult
      dsimp only at hresult
      split at hresult
      case isTrue => exact absurd rfl hresult
      case isFalse hlast =>
        have hend : i + 1 = criMaxObjects := Nat.le_antisymm hnext.lt (Nat.le_of_not_lt hlast)
        rw [presentSlots, hend]

theorem Prefix.of_reaches (h : Reaches (stepList cfg port k) PageOnly (t, {}) (t', l)) :
    t' = t ∧ Prefix (t.1.table k) l := by
  refine h.invariant (I := fun s => Progress s.2 ∧ s.1 = t ∧ Prefix (t.1.table k) s.2)
    ⟨.init, rfl, rfl, fun hresult => absurd rfl hresult⟩ ?_ |>.2
  rintro ⟨t₁, l⟩ e ⟨t', l'⟩ ⟨hprogress, rfl, hI⟩ he hs
  obtain ⟨hrunning, hs⟩ := stepList_cases hs
  exact ⟨hprogress.step hrunning hs,
    hI.step (Nat.le_of_lt (hprogress.running hrunning).1) he hs⟩

end

/-! ## Every listing -/

/-- A listing from any state of the runtime loses nothing that stays, and in a run with fewer
than 2^64 creations it repeats nothing. -/
theorem pagedListing (cfg : Config) (port : Port M) (m : M) (k : Kind)
    {t : Orchestrator.State M × History}
    (hreach : Reaches (stepHistory cfg port) anyEvent ({ monitor := m }, {}) t) :
    PagedListing cfg port k t where
  ends {t' l} h := by
    have hprogress := Progress.of_reaches h
    refine ⟨Nat.le_succ_of_le hprogress.calls, fun hrunning => ?_, fun e he => ?_⟩
    · obtain ⟨i, hnext⟩ | hnone := listOne_cases (t'.1.table k) l.cursor
      · exact ⟨_, step_took hrunning hnext, rfl⟩
      · exact ⟨_, step_ended hrunning hnone, rfl⟩
    · cases hprogress.returned _ he
  complete := by
    rintro i x t' out ⟨l, h, hresult⟩
    have hprogress := Progress.of_reaches h
    obtain ⟨-, hvisited⟩ := Visited.of_reaches (.of_reaches hreach) h
    obtain rfl := Except.ok.inj (hprogress.returned _ hresult)
    exact hprogress.filter_eq (hvisited.ended (by rw [hresult]; exact Option.some_ne_none _))
  once := by
    rintro t' out ⟨l, h, hresult⟩ hlt
    obtain rfl := Except.ok.inj ((Progress.of_reaches h).returned _ hresult)
    exact (Distinct.of_reaches hreach h hlt).once
  exact := by
    rintro t' out ⟨l, h, hresult⟩
    obtain rfl := Except.ok.inj ((Progress.of_reaches h).returned _ hresult)
    obtain ⟨ht, hprefix⟩ := Prefix.of_reaches h
    exact ⟨ht, hprefix.ended (by rw [hresult]; exact Option.some_ne_none _)⟩

/-- Two containers. -/
def twoContainersRun : List (Orchestrator.Event Unit) :=
  [.request CriOp.createContainer.number {} true, .request CriOp.createContainer.number {} true]

def twoContainers : Orchestrator.State Unit × History :=
  (run (stepHistory noPorts silentPort) ({ monitor := () }, {}) twoContainersRun).get
    (by decide +kernel)

theorem run_twoContainers :
    run (stepHistory noPorts silentPort) ({ monitor := () }, {}) twoContainersRun =
      some twoContainers := (Option.some_get _).symm

/-- After the first page its container is removed and another one gets the slot. -/
def refilledListing : List (ListEvent Unit) :=
  [.page,
    .other (.request CriOp.removeContainer.number { id := bytes "carrels-container-00000001" } true),
    .other (.request CriOp.createContainer.number {} true), .page, .page]

theorem pagedListing_twoContainers :
    PagedListing noPorts silentPort .container twoContainers ∧
      (run (stepList noPorts silentPort .container) (twoContainers, {}) refilledListing).map
          (fun s => (s.2.result.isSome, s.2.out.map WireObject.id)) =
        some (true, [bytes "carrels-container-00000001", bytes "carrels-container-00000002"]) :=
  ⟨pagedListing noPorts silentPort () .container
    (reaches_of_run (runMeets_anyEvent _ _ _) run_twoContainers), by decide +kernel⟩

/-! ## An id that comes back -/

/-- What the runtime does, it can do between two pages. -/
theorem list_of_reaches {cfg : Config} {port : Port M} {k : Kind}
    {t t' : Orchestrator.State M × History} {l : Lister} (hrunning : l.result = none)
    (h : Reaches (stepHistory cfg port) anyEvent t t') :
    Reaches (stepList cfg port k) anyEvent (t, l) (t', l) := by
  induction h with
  | refl => exact .refl
  | @tail t₁ t₂ e _ _ hs ih =>
    refine ih.tail (e := .other e) trivial ?_
    rw [stepList, hrunning, if_neg (by simp), hs]
    rfl

/-- A first container is listed; 2^64 - 1 creations later a second one gets its id, and is
listed too. -/
theorem not_pagedListing :
    ¬ ∀ (t t' : Orchestrator.State Unit × History) (out : List WireObject),
      Reaches (stepHistory noPorts silentPort) anyEvent ({ monitor := () }, {}) t →
      Lists noPorts silentPort .container anyEvent t t' out → (out.map WireObject.id).Nodup := by
  intro hclaim
  obtain ⟨t, w, ht, -, hn, hput⟩ :=
    call_create noPorts silentPort ({ monitor := () }, {}) (k := .container) (i := 0) {} rfl
  have hreach : Reaches (stepHistory noPorts silentPort) anyEvent ({ monitor := () }, {}) t :=
    Reaches.refl.tail trivial (call_step ht)
  obtain ⟨h, hrounds⟩ :=
    sandboxRounds noPorts silentPort t.1 t.2 (hput.other .sandbox Kind.noConfusion) (2 ^ 64 - 1)
  generalize hu : (({ t.1 with
    nextId := t.1.nextId + BitVec.ofNat 64 (2 ^ 64 - 1)
    timestamp := t.1.timestamp + BitVec.ofNat 64 (2 ^ 64 - 1) } : Orchestrator.State Unit), h) = u
    at hrounds
  have hwrapped : u.1.nextId = 0 := by
    rw [← hu]
    change t.1.nextId + BitVec.ofNat 64 (2 ^ 64 - 1) = 0
    rw [hn]
    rfl
  have hsame : u.1.table .container = t.1.table .container := by
    simp only [← hu, State.table]
  obtain ⟨hpresent, hid⟩ := newObject_key ({ monitor := () } : Orchestrator.State Unit)
    (decodeObject (marshal {})) .container
  generalize newObject ({ monitor := () } : Orchestrator.State Unit) (decodeObject (marshal {}))
    .container = o at hput hpresent hid
  have htable : t.1.table .container = Function.update (fun _ => {}) 0 o := hput.table
  have hfree : allocate (u.1.table .container) = some 1 := by
    have hrange : List.range criMaxObjects = 0 :: 1 :: (List.range criMaxObjects).drop 2 := rfl
    rw [allocate, hsame, htable, hrange, List.find?_cons_of_neg, List.find?_cons_of_pos]
    · rfl
    · rw [Function.update_self, hpresent]
      decide
  obtain ⟨v, w', hv, -, -, hput'⟩ := call_create noPorts silentPort u (k := .container) {} hfree
  obtain ⟨hpresent', hid'⟩ := newObject_key u.1 (decodeObject (marshal {})) .container
  generalize newObject u.1 (decodeObject (marshal {})) .container = o' at hput' hpresent' hid'
  have hreach' : Reaches (stepHistory noPorts silentPort) anyEvent t v :=
    hrounds.tail trivial (call_step hv)
  have htable' : v.1.table .container = Function.update (Function.update (fun _ => {}) 0 o) 1 o' := by
    rw [hput'.table, hsame, htable]
  -- The first page returns the container of slot 0, the second one that of slot 1.
  have hslot : t.1.table .container 0 = o := by rw [htable, Function.update_self]
  have hslot' : v.1.table .container 1 = o' := by rw [htable', Function.update_self]
  have hempty : ∀ j, 1 < j → v.1.table .container j = {} := fun j hj => by
    rw [htable', Function.update_of_ne (Nat.ne_of_gt hj),
      Function.update_of_ne (Nat.ne_of_gt (Nat.lt_of_succ_lt hj))]
  have hfirst : NextSlot (t.1.table .container) 0 0 :=
    ⟨Nat.le_refl 0, by decide, hslot ▸ hpresent, fun j _ hj => absurd hj (Nat.not_lt_zero j)⟩
  have hsecond : NextSlot (v.1.table .container) 1 1 :=
    ⟨Nat.le_refl 1, by decide, hslot' ▸ hpresent', fun j hj hlt => absurd hlt (Nat.not_lt_of_le hj)⟩
  have hlists : Lists noPorts silentPort .container anyEvent t v
      [pageOf (t.1.table .container) 0, pageOf (v.1.table .container) 1] := by
    refine ⟨(((({} : Lister).took 0 (pageOf (t.1.table .container) 0)).took 1
      (pageOf (v.1.table .container) 1))).ended, ?_, rfl⟩
    refine Reaches.tail (Reaches.tail ((Reaches.refl.tail trivial
      (step_took rfl hfirst)).trans (list_of_reaches rfl hreach')) trivial
        (step_took (l := ({} : Lister).took 0 _) rfl hsecond)) trivial (step_ended rfl fun j hj _ => ?_)
    rw [hempty j hj]
  have hnodup := hclaim t v _ hreach hlists
  have hshaped : Shaped t.1 := .of_reaches hreach
  have hshaped' : Shaped v.1 := .of_reaches (hreach.trans hreach')
  rw [List.map_cons, List.map_singleton, pageOf_id hshaped hfirst.present,
    pageOf_id hshaped' hsecond.present, hslot, hslot', hid, hid', hwrapped] at hnodup
  exact absurd (List.mem_singleton_self _) (List.nodup_cons.mp hnodup).1

end Shim
end Carrels
