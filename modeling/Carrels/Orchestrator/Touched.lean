/-
What one CRI request changes (`dispatch` of `cri_runtime.c`).

A refused request leaves the tables and the counters as they were and answers with zeros.  An
accepted one changes at most one slot of the table its operation is about: the slot of the
object it names, or a free one for a new object.
-/
import Carrels.Orchestrator.Slots

namespace Carrels
namespace Orchestrator

open ByteMemory Monitor

variable {M : Type}

/-! ## The tables -/

inductive TableName
  | sandboxes | containers | images
  deriving DecidableEq

def State.named (s : State M) : TableName → Table
  | .sandboxes => s.sandboxes
  | .containers => s.containers
  | .images => s.images

/-- The table an operation is about. -/
def CriOp.table : CriOp → Option TableName
  | .hello => none
  | .runSandbox | .stopSandbox | .removeSandbox | .sandboxStatus | .listSandbox => some .sandboxes
  | .createContainer | .startContainer | .stopContainer | .removeContainer | .containerStatus
  | .listContainer | .reopenLog => some .containers
  | .pullImage | .removeImage | .imageStatus | .listImage => some .images

/-- The operations that make an object. -/
def CriOp.creates : CriOp → Bool
  | .runSandbox | .createContainer | .pullImage => true
  | _ => false

/-! ## Changes -/

/-- The tables and the counters are as before. -/
structure SameTables (s s' : State M) : Prop where
  named : ∀ t, s'.named t = s.named t
  nextId : s'.nextId = s.nextId
  timestamp : s'.timestamp = s.timestamp

/-- Every other slot of every table is as before; slot `i` of table `t`, which operation `c` is
about, was free if `c` makes an object, and else holds the object the request names. -/
structure TouchesSlot (s s' : State M) (c : CriOp) (request : CriObject) (t : TableName) (i : Nat) :
    Prop where
  table : c.table = some t
  lt : i < criMaxObjects
  others : ∀ t' j, (t', j) ≠ (t, i) → s'.named t' j = s.named t' j
  slot : if c.creates then (s.named t i).present = false
    else (s.named t i).present = true ∧ (s.named t i).id = request.id

/-- What a request of this operation may do. -/
structure Answered (s : State M) (op : BitVec 16) (request : CriObject) (s' : State M)
    (response : CriObject) (result : CriResult) : Prop where
  refused : result ≠ .ok → SameTables s s' ∧ response = {}
  accepted : result = .ok → (∀ t, s'.named t = s.named t) ∨
    ∃ c t i, CriOp.ofNumber op = some c ∧ TouchesSlot s s' c request t i

section

variable {s s' : State M} {op : BitVec 16} {request response : CriObject} {result : CriResult}
  {c : CriOp} {i : Nat}

theorem SameTables.refl (s : State M) : SameTables s s := ⟨fun _ => rfl, rfl, rfl⟩

/-- A request that looks or is refused. -/
theorem Answered.same (hs : SameTables s s') (hresponse : result ≠ .ok → response = {}) :
    Answered s op request s' response result :=
  ⟨fun h => ⟨hs, hresponse h⟩, fun _ => .inl hs.named⟩

theorem Answered.touched {t : TableName} (hop : CriOp.ofNumber op = some c)
    (h : TouchesSlot s s' c request t i) : Answered s op request s' response .ok :=
  ⟨fun hne => absurd rfl hne, fun _ => .inr ⟨c, t, i, hop, h⟩⟩

theorem TouchesSlot.ofFind {t : TableName} (htable : c.table = some t)
    (hcreates : c.creates = false)
    (hi : find (s.named t) request.id = some i)
    (hothers : ∀ t' j, (t', j) ≠ (t, i) → s'.named t' j = s.named t' j) :
    TouchesSlot s s' c request t i := by
  obtain ⟨hlt, hpresent, hid⟩ := find_spec hi
  refine ⟨htable, hlt, hothers, ?_⟩
  rw [hcreates, if_neg Bool.false_ne_true]
  exact ⟨hpresent, hid⟩

theorem TouchesSlot.ofAllocate {t : TableName} (htable : c.table = some t)
    (hcreates : c.creates = true) (hi : allocate (s.named t) = some i)
    (hothers : ∀ t' j, (t', j) ≠ (t, i) → s'.named t' j = s.named t' j) :
    TouchesSlot s s' c request t i := by
  obtain ⟨hlt, hfree⟩ := allocate_spec hi
  refine ⟨htable, hlt, hothers, ?_⟩
  rw [hcreates, if_pos rfl]
  exact hfree

/-- The other slots, where one slot of one table has been updated. -/
theorem named_others {t : TableName} {o : CriObject}
    (hself : s'.named t = Function.update (s.named t) i o)
    (hother : ∀ t', t' ≠ t → s'.named t' = s.named t') :
    ∀ t' j, (t', j) ≠ (t, i) → s'.named t' j = s.named t' j := by
  intro t' j hne
  by_cases ht : t' = t
  · subst ht
    rw [hself]
    exact Function.update_of_ne (fun hj => hne (by rw [hj])) _ _
  · rw [hother t' ht]

/-! ## The operations -/

theorem Answered.modified {t : TableName} {f : CriObject → CriObject}
    (hop : CriOp.ofNumber op = some c) (htable : c.table = some t) (hcreates : c.creates = false)
    (hself : s'.named t = modifyObject (s.named t) request.id f)
    (hother : ∀ t', t' ≠ t → s'.named t' = s.named t') :
    Answered s op request s' response .ok := by
  cases hi : find (s.named t) request.id with
  | none =>
    rw [modifyObject, hi] at hself
    refine ⟨fun hne => absurd rfl hne, fun _ => .inl fun t' => ?_⟩
    by_cases ht : t' = t
    · rw [ht]
      exact hself
    · exact hother t' ht
  | some i =>
    rw [modifyObject, hi] at hself
    exact .touched hop (.ofFind htable hcreates hi (named_others hself hother))

theorem named_sandboxes {table : Table} {n time : BitVec 64} {t : TableName}
    (ht : t ≠ .sandboxes) :
    ({ s with sandboxes := table, nextId := n, timestamp := time } : State M).named t =
      s.named t := by
  cases t with
  | sandboxes => exact absurd rfl ht
  | containers => rfl
  | images => rfl

theorem named_images {table : Table} {t : TableName} (ht : t ≠ .images) :
    ({ s with images := table } : State M).named t = s.named t := by
  cases t with
  | images => exact absurd rfl ht
  | containers => rfl
  | sandboxes => rfl

/-- A change of the containers, whatever happens outside the tables. -/
theorem named_containers (hsandboxes : s'.sandboxes = s.sandboxes) (himages : s'.images = s.images)
    {t : TableName} (ht : t ≠ .containers) : s'.named t = s.named t := by
  cases t with
  | containers => exact absurd rfl ht
  | sandboxes => exact hsandboxes
  | images => exact himages

theorem Answered.container {o : CriObject} (hop : CriOp.ofNumber op = some c)
    (htable : c.table = some .containers) (hcreates : c.creates = false)
    (hi : find s.containers request.id = some i)
    (hself : s'.containers = Function.update s.containers i o)
    (hsandboxes : s'.sandboxes = s.sandboxes) (himages : s'.images = s.images) :
    Answered s op request s' response .ok :=
  .touched hop (.ofFind htable hcreates hi
    (named_others hself fun _ ht => named_containers hsandboxes himages ht))

theorem runSandbox_answered (hop : CriOp.ofNumber op = some .runSandbox)
    (h : runSandbox s request = (s', response, result)) :
    Answered s op request s' response result := by
  rw [runSandbox] at h
  cases hi : allocate s.sandboxes with
  | none =>
    rw [hi] at h
    obtain ⟨rfl, rfl, rfl⟩ := h
    exact .same (.refl s) fun _ => rfl
  | some i =>
    rw [hi] at h
    obtain ⟨rfl, rfl, rfl⟩ := h
    refine .touched hop (.ofAllocate (t := .sandboxes) rfl rfl hi (named_others rfl ?_))
    exact fun t' ht => named_sandboxes ht

theorem createContainer_answered (hop : CriOp.ofNumber op = some .createContainer)
    (h : createContainer s request = (s', response, result)) :
    Answered s op request s' response result := by
  rw [createContainer] at h
  cases hi : allocate s.containers with
  | none =>
    rw [hi] at h
    obtain ⟨rfl, rfl, rfl⟩ := h
    exact .same (.refl s) fun _ => rfl
  | some i =>
    rw [hi] at h
    obtain ⟨rfl, rfl, rfl⟩ := h
    refine .touched hop (.ofAllocate (t := .containers) rfl rfl hi (named_others rfl ?_))
    intro t' ht
    apply named_containers
    · rfl
    · rfl
    · exact ht

theorem startContainer_answered (hop : CriOp.ofNumber op = some .startContainer)
    (h : startContainer s request = (s', response, result)) :
    Answered s op request s' response result := by
  rw [startContainer] at h
  cases hi : find s.containers request.id with
  | none =>
    rw [hi] at h
    obtain ⟨rfl, rfl, rfl⟩ := h
    exact .same (.refl s) fun _ => rfl
  | some i =>
    rw [hi] at h
    obtain ⟨rfl, rfl, rfl⟩ := h
    exact .container hop rfl rfl hi rfl rfl rfl

/-- A stop calls the monitor before it changes the container, or it changes nothing. -/
theorem stopContainer_answered {cfg : Config} {port : Port M}
    (hop : CriOp.ofNumber op = some .stopContainer)
    (h : stopContainer cfg port s request = some (s', response, result)) :
    Answered s op request s' response result := by
  have hresponse : response = {} := by
    rw [stopContainer] at h
    split at h
    · exact (Prod.mk.inj (Prod.mk.inj (Option.some.inj h)).2).1.symm
    split at h
    · obtain ⟨⟨t, stopped⟩, -, h⟩ := Option.map_eq_some_iff.mp h
      cases stopped with
      | true => exact (Prod.mk.inj (Prod.mk.inj h).2).1.symm
      | false => exact (Prod.mk.inj (Prod.mk.inj h).2).1.symm
    · exact (Prod.mk.inj (Prod.mk.inj (Option.some.inj h)).2).1.symm
  obtain ⟨rfl, rfl⟩ | ⟨i, hi, ⟨rfl, -, rfl⟩ | ⟨-, ⟨rfl, m, -, rfl⟩ | ⟨rfl, -, m, -, rfl⟩⟩⟩ :=
    stopContainer_cases h
  · exact .same (.refl _) fun _ => hresponse
  · exact .container hop rfl rfl hi rfl rfl rfl
  · exact .same ⟨fun t => by cases t <;> rfl, rfl, rfl⟩ fun _ => hresponse
  · exact .container hop rfl rfl hi rfl rfl rfl

theorem removeContainer_answered (hop : CriOp.ofNumber op = some .removeContainer)
    (h : removeContainer s request = (s', response, result)) :
    Answered s op request s' response result := by
  rw [removeContainer] at h
  cases hi : find s.containers request.id with
  | none =>
    rw [hi] at h
    obtain ⟨rfl, rfl, rfl⟩ := h
    exact .same (.refl s) fun _ => rfl
  | some i =>
    rw [hi] at h
    obtain ⟨rfl, rfl, rfl⟩ := h
    exact .container hop rfl rfl hi rfl rfl rfl

theorem pullImage_answered (hop : CriOp.ofNumber op = some .pullImage)
    (h : pullImage s request = (s', response, result)) :
    Answered s op request s' response result := by
  rw [pullImage] at h
  cases hexists : orchestratorCriImageExists s request.image with
  | false =>
    rw [hexists, if_pos (by decide)] at h
    obtain ⟨rfl, rfl, rfl⟩ := h
    exact .same (.refl s) fun _ => rfl
  | true =>
  rw [hexists, if_neg (by decide)] at h
  cases hfound : findImage s.images request.image with
  | some i =>
    rw [hfound] at h
    obtain ⟨rfl, rfl, rfl⟩ := h
    exact .same (.refl s) fun hne => absurd rfl hne
  | none =>
    cases hi : allocate s.images with
    | none =>
      rw [hfound, hi] at h
      obtain ⟨rfl, rfl, rfl⟩ := h
      exact .same (.refl s) fun _ => rfl
    | some i =>
      rw [hfound, hi] at h
      obtain ⟨rfl, rfl, rfl⟩ := h
      refine .touched hop (.ofAllocate (t := .images) rfl rfl hi (named_others rfl ?_))
      exact fun t' ht => named_images ht

theorem status_answered {table : Table} {i : Option Nat}
    (h : status table i = (response, result)) : Answered s op request s response result := by
  refine .same (.refl s) fun hne => ?_
  cases i with
  | none => exact (Prod.mk.inj h).1.symm
  | some i => exact absurd (Prod.mk.inj h).2.symm hne

end

/-- A refused request changes nothing and answers with zeros; an accepted one touches at most
one object. -/
theorem dispatchAnswered {cfg : Config} {port : Port M} {s s' : State M} {op : BitVec 16}
    {request response : CriObject} {result : CriResult}
    (h : dispatch cfg port s op request = some (s', response, result)) :
    Answered s op request s' response result := by
  rw [dispatch] at h
  cases hop : CriOp.ofNumber op with
  | none =>
    rw [hop] at h
    obtain ⟨rfl, rfl, rfl⟩ := Option.some.inj h
    exact .same (.refl s) fun _ => rfl
  | some c =>
    rw [hop] at h
    cases c
    case runSandbox => exact runSandbox_answered hop (Option.some.inj h)
    case createContainer => exact createContainer_answered hop (Option.some.inj h)
    case startContainer => exact startContainer_answered hop (Option.some.inj h)
    case stopContainer => exact stopContainer_answered hop h
    case removeContainer => exact removeContainer_answered hop (Option.some.inj h)
    case pullImage => exact pullImage_answered hop (Option.some.inj h)
    case stopSandbox =>
      obtain ⟨rfl, rfl, rfl⟩ := Option.some.inj h
      exact .modified (t := .sandboxes) (f := fun o => { o with state := 1 }) hop rfl rfl rfl
        fun t' ht => named_sandboxes ht
    case removeSandbox =>
      obtain ⟨rfl, rfl, rfl⟩ := Option.some.inj h
      exact .modified (t := .sandboxes) (f := fun _ => {}) hop rfl rfl rfl
        fun t' ht => named_sandboxes ht
    case removeImage =>
      obtain ⟨rfl, rfl, rfl⟩ := Option.some.inj h
      exact .modified (t := .images) (f := fun _ => {}) hop rfl rfl rfl
        fun t' ht => named_images ht
    case sandboxStatus | containerStatus | imageStatus =>
      obtain ⟨rfl, hstatus⟩ := Prod.mk.inj (Option.some.inj h)
      exact status_answered hstatus
    case hello | listSandbox | listContainer | listImage =>
      obtain ⟨rfl, rfl, rfl⟩ := Option.some.inj h
      exact .same (.refl s) fun hne => absurd rfl hne
    case reopenLog =>
      obtain ⟨rfl, rfl, -⟩ := Option.some.inj h
      exact .same (.refl s) fun _ => rfl

/-- A second container is created. -/
theorem dispatchAnswered_create :
    Answered startedState CriOp.createContainer.number helloContainer
      (createContainer startedState helloContainer).1
      (createContainer startedState helloContainer).2.1
      (createContainer startedState helloContainer).2.2 := by
  have hdispatch : dispatch onePort readyPort startedState CriOp.createContainer.number
      helloContainer = some (createContainer startedState helloContainer) := by
    rw [dispatch, CriOp.ofNumber_number]
  exact dispatchAnswered hdispatch

end Orchestrator
end Carrels
