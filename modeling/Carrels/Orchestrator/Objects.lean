/-
What an event does to the objects of the CRI.

An object gets its id, its image and the fields nobody looks at when it is created, and
nothing but its removal touches them again.  `step_kept` and `processRequest_objects` say
this once for every event: it keeps the objects, creates one or removes one.
-/
import Carrels.Orchestrator.Step

namespace Carrels
namespace Orchestrator

open ByteMemory Monitor

variable {M : Type}

/-! ## Objects -/

/-- What a sandbox keeps: everything but its state. -/
def SameSandbox (o o' : CriObject) : Prop := o' = { o with state := o'.state }

/-- What a container keeps: everything but its state, its slot, its times and its reason. -/
def SameContainer (o o' : CriObject) : Prop :=
  o' = { o with
    state := o'.state, exitCode := o'.exitCode, networkNs := o'.networkNs
    startedAt := o'.startedAt, finishedAt := o'.finishedAt, reason := o'.reason }

theorem SameSandbox.refl (o : CriObject) : SameSandbox o o := rfl

theorem SameContainer.refl (o : CriObject) : SameContainer o o := rfl

theorem SameSandbox.trans {o₁ o₂ o₃ : CriObject} (h₁ : SameSandbox o₁ o₂)
    (h₂ : SameSandbox o₂ o₃) : SameSandbox o₁ o₃ := by
  rw [SameSandbox, h₂, h₁]

theorem SameContainer.trans {o₁ o₂ o₃ : CriObject} (h₁ : SameContainer o₁ o₂)
    (h₂ : SameContainer o₂ o₃) : SameContainer o₁ o₃ := by
  rw [SameContainer, h₂, h₁]

theorem SameSandbox.key {o o' : CriObject} (h : SameSandbox o o') :
    o'.present = o.present ∧ o'.id = o.id := by
  rw [h]
  exact ⟨rfl, rfl⟩

theorem SameContainer.key {o o' : CriObject} (h : SameContainer o o') :
    o'.present = o.present ∧ o'.id = o.id := by
  rw [h]
  exact ⟨rfl, rfl⟩

/-- The id of the `v`-th object, as a sandbox and as a container. -/
def sandboxId (v : BitVec 64) : List UInt8 :=
  copyString 64 (bytes "carrels-sandbox-" ++ hex08 v)

def containerId (v : BitVec 64) : List UInt8 :=
  copyString 64 (bytes "carrels-container-" ++ hex08 v)

/-- The sandbox `CRI_RUN_SANDBOX` makes of a request. -/
def newSandbox (s : State M) (request : CriObject) : CriObject :=
  { request with
    present := true, id := sandboxId (s.nextId + 1), createdAt := s.timestamp + 1
    ip := bytes "192.0.2.1", reason := bytes "CarrelsReady" }

/-- The container `CRI_CREATE_CONTAINER` makes of a request. -/
def newContainer (s : State M) (request : CriObject) : CriObject :=
  setImageRef
    { request with
      present := true, id := containerId (s.nextId + 1), createdAt := s.timestamp + 1
      reason := bytes "CarrelsCreated" }

/-- Both tables keep their objects, and no id is used up. -/
structure Kept (s s' : State M) : Prop where
  sandboxes : ∀ i, SameSandbox (s.sandboxes i) (s'.sandboxes i)
  containers : ∀ i, SameContainer (s.containers i) (s'.containers i)
  nextId : s'.nextId = s.nextId

namespace Kept

variable {s s' s'' : State M}

theorem refl (s : State M) : Kept s s := ⟨fun _ => rfl, fun _ => rfl, rfl⟩

theorem trans (h₁ : Kept s s') (h₂ : Kept s' s'') : Kept s s'' :=
  ⟨fun i => (h₁.sandboxes i).trans (h₂.sandboxes i),
    fun i => (h₁.containers i).trans (h₂.containers i), h₂.nextId.trans h₁.nextId⟩

theorem congr (hs : s'.sandboxes = s.sandboxes) (hc : s'.containers = s.containers)
    (hn : s'.nextId = s.nextId) : Kept s s' :=
  ⟨fun i => by rw [hs]; rfl, fun i => by rw [hc]; rfl, hn⟩

theorem setContainer (s : State M) {i : Nat} {o : CriObject}
    (h : SameContainer (s.containers i) o) : Kept s (s.setContainer i o) := by
  refine ⟨fun _ => rfl, fun j => ?_, rfl⟩
  by_cases hj : j = i
  · subst hj
    rwa [State.setContainer_self]
  · rw [State.setContainer_of_ne _ _ hj]
    exact .refl _

end Kept

/-! ## Events other than requests -/

/-- The tables and the counters of the CRI are as before. -/
structure SameCri (s s' : State M) : Prop where
  sandboxes : s'.sandboxes = s.sandboxes
  containers : s'.containers = s.containers
  images : s'.images = s.images
  nextId : s'.nextId = s.nextId
  timestamp : s'.timestamp = s.timestamp

namespace SameCri

variable {s s' s'' : State M}

theorem refl (s : State M) : SameCri s s := ⟨rfl, rfl, rfl, rfl, rfl⟩

theorem trans (h₁ : SameCri s s') (h₂ : SameCri s' s'') : SameCri s s'' where
  sandboxes := h₂.sandboxes.trans h₁.sandboxes
  containers := h₂.containers.trans h₁.containers
  images := h₂.images.trans h₁.images
  nextId := h₂.nextId.trans h₁.nextId
  timestamp := h₂.timestamp.trans h₁.timestamp

theorem kept (h : SameCri s s') : Kept s s' := .congr h.sandboxes h.containers h.nextId

end SameCri

/-- What an event that is no request does to the CRI: nothing, or a deployment completes. -/
inductive Settles (s s' : State M) : Prop
  | same (h : SameCri s s')
  | completed (t : State M) (pcId : BitVec 32) (failed : Bool) (ht : SameCri s t)
      (h : SameCri (criRuntimeDeployComplete t pcId failed) s')

namespace Settles

variable {s s' s'' : State M}

theorem after (h₂ : Settles s' s'') (h₁ : SameCri s s') : Settles s s'' := by
  cases h₂ with
  | same h => exact .same (h₁.trans h)
  | completed t pcId failed ht h => exact .completed t pcId failed (h₁.trans ht) h

theorem before (h₁ : Settles s s') (h₂ : SameCri s' s'') : Settles s s'' := by
  cases h₁ with
  | same h => exact .same (h.trans h₂)
  | completed t pcId failed ht h => exact .completed t pcId failed ht (h.trans h₂)

end Settles

theorem yield_sameCri (s : State M) : SameCri s (yield s) := by
  obtain ⟨loaders, hs⟩ := yield_frame s
  rw [hs]
  exact ⟨rfl, rfl, rfl, rfl, rfl⟩

theorem settleContainer_settles (s : State M) (pcId : BitVec 32) (failed : Bool) :
    Settles s (settleContainer s pcId failed) := by
  refine .completed s pcId failed (.refl s) ?_
  cases failed with
  | false => exact ⟨rfl, rfl, rfl, rfl, rfl⟩
  | true => exact ⟨rfl, rfl, rfl, rfl, rfl⟩

theorem abandonDeploy_settles (s : State M) : Settles s (abandonDeploy s) := by
  rw [abandonDeploy]
  split
  · exact (settleContainer_settles s s.deployPcId true).before ⟨rfl, rfl, rfl, rfl, rfl⟩
  · exact .same ⟨rfl, rfl, rfl, rfl, rfl⟩

theorem finishLoader_settles {port : Port M} {s s' : State M} {k : Nat} {l : Loader} {err : Bool}
    (h : finishLoader port s k l err = some s') : Settles s s' := by
  have hended : SameCri s (s.setPhase k .ended) := ⟨rfl, rfl, rfl, rfl, rfl⟩
  cases err with
  | true =>
    obtain rfl := Option.some.inj h
    split
    · exact (abandonDeploy_settles _).after hended
    · exact .same hended
  | false =>
    obtain ⟨m, reply, -, ⟨-, -, rfl⟩ | ⟨-, rfl⟩⟩ := handOver_cases h
    · refine (abandonDeploy_settles _).after ?_
      exact ⟨rfl, rfl, rfl, rfl, rfl⟩
    · exact .same ⟨rfl, rfl, rfl, rfl, rfl⟩

theorem resumeLoader_settles {port : Port M} {s s' : State M} {k : Nat} {c : PicoVfs.Completion}
    (h : resumeLoader port s k c = some s') : Settles s s' := by
  obtain ⟨l, r, -, -, ⟨r', -, rfl⟩ | ⟨size, err, -, h⟩⟩ := resumeLoader_cases h
  · exact .same ⟨rfl, rfl, rfl, rfl, rfl⟩
  · refine (finishLoader_settles h).after ?_
    exact ⟨rfl, rfl, rfl, rfl, rfl⟩

theorem takeDeployResult_settles {cfg : Config} {port : Port M} {s s' : State M} {reply : Message}
    (h : takeDeployResult cfg port s reply = some s') : Settles s s' := by
  obtain ⟨s₁, hs₁, rfl⟩ := Option.map_eq_some_iff.mp h
  suffices hsettles : Settles s s₁ from hsettles.before ⟨rfl, rfl, rfl, rfl, rfl⟩
  split at hs₁
  case isTrue =>
    obtain ⟨m, failed, -, rfl⟩ := settleCri_cases hs₁
    have hm : SameCri s { s with monitor := m } := ⟨rfl, rfl, rfl, rfl, rfl⟩
    exact (settleContainer_settles _ _ failed).after hm
  case isFalse =>
    obtain rfl := Option.some.inj hs₁
    exact .same (.refl s)

theorem notifiedMonitor_settles {cfg : Config} {port : Port M} {s s' : State M}
    (h : notifiedMonitor cfg port s = some s') : Settles s s' := by
  rw [notifiedMonitor] at h
  split at h
  case isTrue =>
    obtain ⟨m, reply, -, h⟩ := printDeployResult_cases h
    have hm : SameCri s { s with monitor := m } := ⟨rfl, rfl, rfl, rfl, rfl⟩
    obtain ⟨-, rfl⟩ | ⟨-, h⟩ := h
    · exact .same hm
    · exact (takeDeployResult_settles h).after hm
  case isFalse =>
    obtain rfl := Option.some.inj h
    exact .same (.refl s)

theorem shellExecute_sameCri {cfg : Config} {port : Port M} {s s' : State M} {spawnOk : Bool}
    {argv : List (List UInt8)} (h : shellExecute cfg port s spawnOk argv = some s') :
    SameCri s s' := by
  obtain ⟨-, rfl⟩ | ⟨-, rfl⟩ | ⟨m, -, rfl⟩ := shellExecute_cases h
  · rw [cmdStart]
    split
    · exact .refl s
    · dsimp only
      split <;> exact ⟨rfl, rfl, rfl, rfl, rfl⟩
  · rw [cmdDeploy]
    split
    · exact .refl s
    · split
      · exact .refl s
      · dsimp only
        split
        · refine SameCri.trans ?_ (yield_sameCri _)
          exact ⟨rfl, rfl, rfl, rfl, rfl⟩
        · exact ⟨rfl, rfl, rfl, rfl, rfl⟩
  · exact ⟨rfl, rfl, rfl, rfl, rfl⟩

/-- Every event but a request leaves the CRI alone, or completes a deployment. -/
theorem step_settles {cfg : Config} {port : Port M} {s s' : State M} {e : Event M}
    (h : step cfg port s e = some s') (he : ∀ op request spawnOk, e ≠ .request op request spawnOk) :
    Settles s s' := by
  cases e with
  | shell argv spawnOk => exact .same (shellExecute_sameCri h)
  | request op request spawnOk => exact absurd rfl (he op request spawnOk)
  | fsReply k c => exact resumeLoader_settles h
  | notifiedMonitor => exact notifiedMonitor_settles h
  | yield =>
    obtain rfl := Option.some.inj h
    exact .same (yield_sameCri s)
  | fsMounted | imageProbed | monitor =>
    obtain rfl := Option.some.inj h
    exact .same ⟨rfl, rfl, rfl, rfl, rfl⟩

theorem tick_kept (s : State M) : Kept s s.tick := .congr rfl rfl rfl

theorem criRuntimeDeployComplete_kept (s : State M) (pcId : BitVec 32) (failed : Bool) :
    Kept s (criRuntimeDeployComplete s pcId failed) := by
  obtain ⟨hsame, -⟩ | ⟨i, -, -, hset⟩ := criRuntimeDeployComplete_cases s pcId failed
  · rw [hsame]
    exact .refl s
  · rw [hset]
    split
    · exact (tick_kept s).trans (.setContainer s.tick rfl)
    · exact .setContainer s rfl

theorem Settles.kept {s s' : State M} (h : Settles s s') : Kept s s' := by
  cases h with
  | same h => exact h.kept
  | completed t pcId failed ht h =>
    exact ht.kept.trans ((criRuntimeDeployComplete_kept t pcId failed).trans h.kept)

theorem step_kept {cfg : Config} {port : Port M} {s s' : State M} {e : Event M}
    (h : step cfg port s e = some s') (he : ∀ op request spawnOk, e ≠ .request op request spawnOk) :
    Kept s s' := (step_settles h he).kept

/-! ## Requests -/

inductive Kind
  | sandbox | container
  deriving DecidableEq

/-- The kind of object the answer to the operation hands out. -/
def gives (op : BitVec 16) (result : CriResult) : Option Kind :=
  match CriOp.ofNumber op, result with
  | some .runSandbox, .ok => some .sandbox
  | some .createContainer, .ok => some .container
  | _, _ => none

/-- The kind of object the operation removes. -/
def removes (op : BitVec 16) : Option Kind :=
  match CriOp.ofNumber op with
  | some .removeSandbox => some .sandbox
  | some .removeContainer => some .container
  | _ => none

/-- The table of the objects of a kind. -/
def State.table (s : State M) : Kind → Table
  | .sandbox => s.sandboxes
  | .container => s.containers

theorem Kept.key {s s' : State M} (h : Kept s s') (k : Kind) (i : Nat) :
    (s'.table k i).present = (s.table k i).present ∧ (s'.table k i).id = (s.table k i).id := by
  cases k with
  | sandbox => exact (h.sandboxes i).key
  | container => exact (h.containers i).key

/-- The object a request for a new one makes. -/
def newObject (s : State M) (request : CriObject) : Kind → CriObject
  | .sandbox => newSandbox s request
  | .container => newContainer s request

/-- Slot `i` of the table of kind `k` is given to `o`; the other table and the other slots
are as before. -/
structure Put (s s' : State M) (k : Kind) (i : Nat) (o : CriObject) : Prop where
  table : s'.table k = Function.update (s.table k) i o
  other : ∀ k', k' ≠ k → s'.table k' = s.table k'

theorem removes_of_gives {op : BitVec 16} {result : CriResult} {k : Kind}
    (h : gives op result = some k) : removes op = none := by
  unfold gives at h
  unfold removes
  split at h
  case h_1 hop => rw [hop]
  case h_2 hop => rw [hop]
  case h_3 => cases h

/-- What a request does to the objects. -/
inductive RequestStep (s : State M) (op : BitVec 16) (request : CriObject) :
    State M → CriObject → CriResult → Prop
  | kept {s' : State M} {response : CriObject} {result : CriResult}
      (hgives : gives op result = none)
      (hnone : ∀ k, removes op = some k → find (s.table k) request.id = none)
      (hkept : Kept s s') : RequestStep s op request s' response result
  | created {s' : State M} (k : Kind) (i : Nat) (hgives : gives op .ok = some k)
      (hi : allocate (s.table k) = some i) (hput : Put s s' k i (newObject s request k))
      (hn : s'.nextId = s.nextId + 1) :
      RequestStep s op request s' (newObject s request k) .ok
  | removed {s' : State M} {response : CriObject} {result : CriResult} (k : Kind) (i : Nat)
      (hremoves : removes op = some k) (hgives : gives op result = none)
      (hi : find (s.table k) request.id = some i) (hput : Put s s' k i {})
      (hn : s'.nextId = s.nextId) : RequestStep s op request s' response result

theorem modifyObject_none {table : Table} {id : List UInt8} {f : CriObject → CriObject}
    (h : find table id = none) : modifyObject table id f = table := by
  rw [modifyObject, h]

theorem modifyObject_some {table : Table} {id : List UInt8} {f : CriObject → CriObject} {i : Nat}
    (h : find table id = some i) :
    modifyObject table id f = Function.update table i (f (table i)) := by
  rw [modifyObject, h]

theorem orchestratorCriStart_sameCri {cfg : Config} {spawnOk : Bool} {s s' : State M}
    {image owner : List UInt8} {result : Option (BitVec 32)}
    (h : orchestratorCriStart cfg spawnOk s image owner = (s', result)) : SameCri s s' := by
  obtain ⟨-, rfl⟩ | ⟨file, -, -, ⟨-, -, rfl⟩ | ⟨slot, -, ⟨-, rfl⟩ | ⟨-, rfl⟩⟩⟩ :=
    orchestratorCriStart_cases h
  · exact .refl _
  · exact ⟨rfl, rfl, rfl, rfl, rfl⟩
  · exact ⟨rfl, rfl, rfl, rfl, rfl⟩
  · refine SameCri.trans ?_ (yield_sameCri _)
    exact ⟨rfl, rfl, rfl, rfl, rfl⟩

theorem startAfterReply_kept (cfg : Config) (spawnOk : Bool) (s : State M) (i : Nat) :
    Kept s (startAfterReply cfg spawnOk s i) := by
  have hcleared : Kept s { s with startAfterReply := none } := .congr rfl rfl rfl
  obtain ⟨t, ⟨hs, heq⟩ | ⟨pcId, hs, heq⟩⟩ := startAfterReply_cases cfg spawnOk s i
  all_goals
    rw [heq]
    refine (hcleared.trans (orchestratorCriStart_sameCri hs).kept).trans ?_
  · exact (tick_kept t).trans (.setContainer t.tick rfl)
  · exact .setContainer t rfl

theorem markStarted_kept (s : State M) (i : Nat) : Kept s (markStarted s i) := by
  have hset : Kept s (s.tick.setContainer i
      { s.tick.containers i with
        state := 1, startedAt := s.tick.timestamp, reason := carrelsStarting }) :=
    (tick_kept s).trans (.setContainer s.tick rfl)
  exact hset.trans (.congr rfl rfl rfl)

theorem stoppedContainer_kept (s : State M) (i : Nat) : Kept s (stoppedContainer s i) :=
  (tick_kept s).trans (.setContainer s.tick rfl)

theorem stopContainer_kept {cfg : Config} {port : Port M} {s s' : State M}
    {request response : CriObject} {result : CriResult}
    (h : stopContainer cfg port s request = some (s', response, result)) : Kept s s' := by
  obtain ⟨-, rfl⟩ | ⟨i, -, ⟨-, -, rfl⟩ | ⟨-, ⟨-, m, -, rfl⟩ | ⟨-, -, m, -, rfl⟩⟩⟩ :=
    stopContainer_cases h
  · exact .refl _
  · exact stoppedContainer_kept s i
  · exact .congr rfl rfl rfl
  · refine Kept.trans ?_ (stoppedContainer_kept _ i)
    exact .congr rfl rfl rfl

section

variable {cfg : Config} {port : Port M} {s s' : State M} {op : BitVec 16}
  {request response : CriObject} {result : CriResult}

theorem runSandbox_objects (hop : CriOp.ofNumber op = some .runSandbox)
    (h : runSandbox s request = (s', response, result)) :
    RequestStep s op request s' response result := by
  have hremoves : removes op = none := by simp only [removes, hop]
  rw [runSandbox] at h
  split at h
  case h_1 =>
    obtain ⟨rfl, rfl, rfl⟩ : s = s' ∧ _ ∧ CriResult.full = result := by simpa using h
    exact .kept (by simp only [gives, hop]) (by simp [hremoves]) (.refl s)
  case h_2 i hi =>
    obtain ⟨rfl, hresponse⟩ := Prod.mk.inj h
    obtain ⟨rfl, rfl⟩ := Prod.mk.inj hresponse
    refine .created .sandbox i (by simp only [gives, hop]) hi ⟨rfl, fun k hk => ?_⟩ rfl
    cases k with
    | sandbox => exact absurd rfl hk
    | container => rfl

theorem createContainer_objects (hop : CriOp.ofNumber op = some .createContainer)
    (h : createContainer s request = (s', response, result)) :
    RequestStep s op request s' response result := by
  have hremoves : removes op = none := by simp only [removes, hop]
  rw [createContainer] at h
  split at h
  case h_1 =>
    obtain ⟨rfl, rfl, rfl⟩ : s = s' ∧ _ ∧ CriResult.full = result := by simpa using h
    exact .kept (by simp only [gives, hop]) (by simp [hremoves]) (.refl s)
  case h_2 i hi =>
    obtain ⟨rfl, hresponse⟩ := Prod.mk.inj h
    obtain ⟨rfl, rfl⟩ := Prod.mk.inj hresponse
    refine .created .container i (by simp only [gives, hop]) hi ⟨rfl, fun k hk => ?_⟩ rfl
    cases k with
    | sandbox => rfl
    | container => exact absurd rfl hk

theorem processRequest_objects {spawnOk : Bool}
    (h : processRequest cfg port spawnOk s op request = some (s', response, result)) :
    RequestStep s op request s' response result := by
  by_cases hstart : CriOp.ofNumber op = some .startContainer
  · refine .kept (by simp only [gives, hstart]) (by simp only [removes, hstart]; nofun) ?_
    obtain ⟨-, rfl⟩ | ⟨i, -, rfl⟩ := processRequest_start hstart h
    · exact .refl _
    · exact (markStarted_kept s i).trans (startAfterReply_kept cfg spawnOk _ i)
  · replace h := processRequest_other hstart h
    rw [dispatch] at h
    cases hc : CriOp.ofNumber op with
    | none =>
      rw [hc] at h
      obtain ⟨rfl, -⟩ := Prod.mk.inj (Option.some.inj h)
      exact .kept (by simp only [gives, hc]) (by simp only [removes, hc]; nofun) (.refl s)
    | some c =>
      rw [hc] at h
      cases c
      case startContainer => exact absurd hc hstart
      case runSandbox => exact runSandbox_objects hc (Option.some.inj h)
      case createContainer => exact createContainer_objects hc (Option.some.inj h)
      case stopContainer =>
        exact .kept (by simp only [gives, hc]) (by simp only [removes, hc]; nofun)
          (stopContainer_kept h)
      case removeSandbox =>
        obtain ⟨rfl, -⟩ := Prod.mk.inj (Option.some.inj h)
        have hremoves : removes op = some .sandbox := by simp only [removes, hc]
        have hgives : gives op result = none := by simp only [gives, hc]
        cases hfind : find s.sandboxes request.id with
        | none =>
          refine .kept hgives (fun k hk => ?_)
            (.congr (modifyObject_none (f := fun _ => {}) hfind) rfl rfl)
          obtain rfl := Option.some.inj (hremoves.symm.trans hk)
          exact hfind
        | some i =>
          refine .removed .sandbox i hremoves hgives hfind
            ⟨modifyObject_some (f := fun _ => {}) hfind, fun k hk => ?_⟩ rfl
          cases k with
          | sandbox => exact absurd rfl hk
          | container => rfl
      case removeContainer =>
        have hremoves : removes op = some .container := by simp only [removes, hc]
        have hgives : gives op result = none := by simp only [gives, hc]
        replace h := Option.some.inj h
        rw [removeContainer] at h
        split at h
        case h_1 hfind =>
          obtain ⟨rfl, -⟩ := Prod.mk.inj h
          refine .kept hgives (fun k hk => ?_) (.refl s)
          obtain rfl := Option.some.inj (hremoves.symm.trans hk)
          exact hfind
        case h_2 i hfind =>
          obtain ⟨rfl, -⟩ := Prod.mk.inj h
          refine .removed .container i hremoves hgives hfind ⟨rfl, fun k hk => ?_⟩ rfl
          cases k with
          | sandbox => rfl
          | container => exact absurd rfl hk
      case stopSandbox =>
        obtain ⟨rfl, -⟩ := Prod.mk.inj (Option.some.inj h)
        refine .kept (by simp only [gives, hc]) (by simp only [removes, hc]; nofun)
          ⟨fun j => ?_, fun _ => .refl _, rfl⟩
        dsimp only
        cases hfind : find s.sandboxes request.id with
        | none =>
          rw [modifyObject_none hfind]
          exact .refl _
        | some i =>
          rw [modifyObject_some hfind]
          by_cases hj : j = i
          · subst hj
            rw [Function.update_self]
            rfl
          · rw [Function.update_of_ne hj]
            exact .refl _
      case pullImage =>
        obtain ⟨images, hs⟩ := pullImage_frame s request
        rw [Option.some.inj h] at hs
        dsimp only at hs
        rw [hs]
        exact .kept (by simp only [gives, hc]) (by simp only [removes, hc]; nofun)
          (.congr rfl rfl rfl)
      all_goals
        obtain ⟨rfl, -⟩ := Prod.mk.inj (Option.some.inj h)
        exact .kept (by simp only [gives, hc]) (by simp only [removes, hc]; nofun)
          (.congr rfl rfl rfl)

end

end Orchestrator
end Carrels
