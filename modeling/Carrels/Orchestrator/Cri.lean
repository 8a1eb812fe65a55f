/-
The CRI runtime (`cri_runtime.c`).

A request is one operation on the tables of sandboxes, containers and images.  A start
is split: the request marks the container as running and is answered, and only then the
protocon is looked for; the container is failed when there is none.
-/
import Carrels.Orchestrator.Deploy

namespace Carrels
namespace Orchestrator

open ByteMemory Monitor

variable {M : Type}

/-! ## Operations and results -/

inductive CriOp
  | hello
  | runSandbox | stopSandbox | removeSandbox | sandboxStatus | listSandbox
  | createContainer | startContainer | stopContainer | removeContainer | containerStatus
  | listContainer | reopenLog
  | pullImage | removeImage | imageStatus | listImage
  deriving DecidableEq

/-- The numbers of `enum cri_op`. -/
def CriOp.number : CriOp → BitVec 16
  | .hello => 1
  | .runSandbox => 10
  | .stopSandbox => 11
  | .removeSandbox => 12
  | .sandboxStatus => 13
  | .listSandbox => 14
  | .createContainer => 20
  | .startContainer => 21
  | .stopContainer => 22
  | .removeContainer => 23
  | .containerStatus => 24
  | .listContainer => 25
  | .reopenLog => 26
  | .pullImage => 30
  | .removeImage => 31
  | .imageStatus => 32
  | .listImage => 33

def CriOp.ofNumber (n : BitVec 16) : Option CriOp :=
  [.hello, .runSandbox, .stopSandbox, .removeSandbox, .sandboxStatus, .listSandbox,
    .createContainer, .startContainer, .stopContainer, .removeContainer, .containerStatus,
    .listContainer, .reopenLog, .pullImage, .removeImage, .imageStatus, .listImage].find?
      fun c => c.number == n

theorem CriOp.ofNumber_number (c : CriOp) : ofNumber c.number = some c := by
  cases c <;> decide

inductive CriResult
  | ok | notFound | invalid | full
  deriving DecidableEq

/-! ## Strings -/

/-- `copy_string` into an array of `size` bytes. -/
def copyString (size : Nat) (src : List UInt8) : List UInt8 := src.take (size - 1)

/-- A nibble in lower-case hexadecimal. -/
def hexDigit (n : Nat) : UInt8 := UInt8.ofNat (if n < 10 then 48 + n else 87 + n)

/-- `%08lx` -/
def hex08 (v : BitVec 64) : List UInt8 :=
  let digits := (List.range 16).map fun i => hexDigit (v.toNat / 16 ^ (15 - i) % 16)
  (digits.take 8).dropWhile (· == 48) ++ digits.drop 8

/-- `set_image_ref` -/
def setImageRef (o : CriObject) : CriObject :=
  { o with
    imageRef :=
      if carrelsImageScheme.isPrefixOf o.image then copyString 256 o.image
      else copyString 256 (carrelsImageScheme ++ o.image) }

/-! ## Tables -/

/-- `find` -/
def find (table : Table) (id : List UInt8) : Option Nat :=
  (List.range criMaxObjects).find? fun i => (table i).present && (table i).id == id

/-- `allocate`, up to the clearing of the object, which every caller overwrites. -/
def allocate (table : Table) : Option Nat :=
  (List.range criMaxObjects).find? fun i => !(table i).present

/-- `list_one` -/
def listOne (table : Table) (cursor : BitVec 32) : CriObject :=
  match ((List.range criMaxObjects).drop cursor.toNat).find? fun i => (table i).present with
  | some i => { table i with cursor := BitVec.ofNat 32 (i + 1) }
  | none => { cursor := BitVec.ofNat 32 criMaxObjects }

/-- An image in the table whose name is `image`. -/
def findImage (table : Table) (image : List UInt8) : Option Nat :=
  (List.range criMaxObjects).find? fun i => (table i).present && (table i).image == image

theorem find_spec {table : Table} {id : List UInt8} {i : Nat} (h : find table id = some i) :
    i < criMaxObjects ∧ (table i).present = true ∧ (table i).id = id := by
  have hfound := List.find?_some h
  refine ⟨List.mem_range.mp (List.mem_of_find?_eq_some h), ?_⟩
  simpa using hfound

theorem allocate_spec {table : Table} {i : Nat} (h : allocate table = some i) :
    i < criMaxObjects ∧ (table i).present = false := by
  have hfound := List.find?_some h
  refine ⟨List.mem_range.mp (List.mem_of_find?_eq_some h), ?_⟩
  simpa using hfound

/-! ## Containers -/

/-- `CRI_CREATE_CONTAINER` -/
def createContainer (s : State M) (request : CriObject) : State M × CriObject × CriResult :=
  match allocate s.containers with
  | none => (s, {}, .full)
  | some i =>
    let s := s.nextObject.tick
    let o := setImageRef
      { request with
        present := true
        id := copyString 64 (bytes "carrels-container-" ++ hex08 s.nextId)
        createdAt := s.timestamp
        reason := bytes "CarrelsCreated" }
    (s.setContainer i o, o, .ok)

/-- The container is marked as running; a protocon is looked for after the reply. -/
def markStarted (s : State M) (i : Nat) : State M :=
  let s := s.tick
  { s.setContainer i
      { s.containers i with state := 1, startedAt := s.timestamp, reason := carrelsStarting } with
    startAfterReply := some i }

theorem markStarted_frame (s : State M) (i : Nat) :
    ∃ containers timestamp startAfterReply,
      markStarted s i = { s with containers, timestamp, startAfterReply } := ⟨_, _, _, rfl⟩

/-- `CRI_START_CONTAINER` -/
def startContainer (s : State M) (request : CriObject) : State M × CriObject × CriResult :=
  match find s.containers request.id with
  | none => (s, {}, .notFound)
  | some i => (markStarted s i, {}, .ok)

/-- The container after a stop. -/
def stoppedContainer (s : State M) (i : Nat) : State M :=
  let s := s.tick
  s.setContainer i
    { s.containers i with
      state := 2, finishedAt := s.timestamp, reason := bytes "CarrelsStopped" }

/-- `CRI_STOP_CONTAINER` -/
def stopContainer (cfg : Config) (port : Port M) (s : State M) (request : CriObject) :
    Option (State M × CriObject × CriResult) :=
  match find s.containers request.id with
  | none => some (s, {}, .notFound)
  | some i =>
    if (s.containers i).state = 1 then
      (orchestratorCriStop cfg port s (s.containers i).networkNs).map fun (s, stopped) =>
        if stopped then (stoppedContainer s i, {}, .ok) else (s, {}, .invalid)
    else some (stoppedContainer s i, {}, .ok)

/-- `CRI_REMOVE_CONTAINER` -/
def removeContainer (s : State M) (request : CriObject) : State M × CriObject × CriResult :=
  match find s.containers request.id with
  | none => (s, {}, .ok)
  | some i => (s.setContainer i {}, {}, .ok)

/-! ## Sandboxes and images -/

/-- `CRI_RUN_SANDBOX` -/
def runSandbox (s : State M) (request : CriObject) : State M × CriObject × CriResult :=
  match allocate s.sandboxes with
  | none => (s, {}, .full)
  | some i =>
    let s := s.nextObject.tick
    let o :=
      { request with
        present := true
        id := copyString 64 (bytes "carrels-sandbox-" ++ hex08 s.nextId)
        createdAt := s.timestamp
        ip := bytes "192.0.2.1"
        reason := bytes "CarrelsReady" }
    ({ s with sandboxes := Function.update s.sandboxes i o }, o, .ok)

/-- `CRI_PULL_IMAGE` -/
def pullImage (s : State M) (request : CriObject) : State M × CriObject × CriResult :=
  if !orchestratorCriImageExists s request.image then (s, {}, .notFound)
  else
    match findImage s.images request.image with
    | some i => (s, s.images i, .ok)
    | none =>
      match allocate s.images with
      | none => (s, {}, .full)
      | some i =>
        let o := setImageRef { request with present := true }
        let o := { o with id := copyString 64 o.imageRef }
        ({ s with images := Function.update s.images i o }, o, .ok)

/-- The object a status request answers with. -/
def status (table : Table) (i : Option Nat) : CriObject × CriResult :=
  match i with
  | none => ({}, .notFound)
  | some i => (table i, .ok)

/-- Change the object of this id, if there is one. -/
def modifyObject (table : Table) (id : List UInt8) (f : CriObject → CriObject) : Table :=
  match find table id with
  | none => table
  | some i => Function.update table i (f (table i))

/-! ## Requests -/

/-- `dispatch` -/
def dispatch (cfg : Config) (port : Port M) (s : State M) (op : BitVec 16)
    (request : CriObject) : Option (State M × CriObject × CriResult) :=
  match CriOp.ofNumber op with
  | some .hello => some (s, { present := true }, .ok)
  | some .runSandbox => some (runSandbox s request)
  | some .stopSandbox =>
    some ({ s with
        sandboxes := modifyObject s.sandboxes request.id fun o => { o with state := 1 } }, {}, .ok)
  | some .removeSandbox =>
    some ({ s with sandboxes := modifyObject s.sandboxes request.id fun _ => {} }, {}, .ok)
  | some .sandboxStatus => some (s, status s.sandboxes (find s.sandboxes request.id))
  | some .listSandbox => some (s, listOne s.sandboxes request.cursor, .ok)
  | some .createContainer => some (createContainer s request)
  | some .startContainer => some (startContainer s request)
  | some .stopContainer => stopContainer cfg port s request
  | some .removeContainer => some (removeContainer s request)
  | some .containerStatus => some (s, status s.containers (find s.containers request.id))
  | some .listContainer => some (s, listOne s.containers request.cursor, .ok)
  | some .reopenLog =>
    some (s, {}, if (find s.containers request.id).isSome then .ok else .notFound)
  | some .pullImage => some (pullImage s request)
  | some .removeImage =>
    some ({ s with images := modifyObject s.images request.id fun _ => {} }, {}, .ok)
  | some .imageStatus =>
    some (s, status s.images
      ((find s.images request.id).or (findImage s.images request.image)))
  | some .listImage => some (s, listOne s.images request.cursor, .ok)
  | none => some (s, {}, .invalid)

theorem runSandbox_frame (s : State M) (request : CriObject) :
    ∃ sandboxes nextId timestamp,
      (runSandbox s request).1 = { s with sandboxes, nextId, timestamp } := by
  rw [runSandbox]
  split
  · exact ⟨s.sandboxes, s.nextId, s.timestamp, rfl⟩
  · exact ⟨_, _, _, rfl⟩

theorem pullImage_frame (s : State M) (request : CriObject) :
    ∃ images, (pullImage s request).1 = { s with images } := by
  rw [pullImage]
  split
  · exact ⟨s.images, rfl⟩
  · split
    · exact ⟨s.images, rfl⟩
    · split
      · exact ⟨s.images, rfl⟩
      · exact ⟨_, rfl⟩

theorem createContainer_frame (s : State M) (request : CriObject) :
    ∃ containers nextId timestamp,
      (createContainer s request).1 = { s with containers, nextId, timestamp } := by
  rw [createContainer]
  split
  · exact ⟨s.containers, s.nextId, s.timestamp, rfl⟩
  · exact ⟨_, _, _, rfl⟩

theorem removeContainer_frame (s : State M) (request : CriObject) :
    ∃ containers, (removeContainer s request).1 = { s with containers } := by
  rw [removeContainer]
  split
  · exact ⟨s.containers, rfl⟩
  · exact ⟨_, rfl⟩

/-- What a stop does: there is no such container, it was not running, its protocon could
not be stopped, or was. -/
theorem stopContainer_cases {cfg : Config} {port : Port M} {s s' : State M}
    {request response : CriObject} {result : CriResult}
    (h : stopContainer cfg port s request = some (s', response, result)) :
    (result = .notFound ∧ s' = s) ∨
    ∃ i, find s.containers request.id = some i ∧
      ((result = .ok ∧ (s.containers i).state ≠ 1 ∧ s' = stoppedContainer s i) ∨
      ((s.containers i).state = 1 ∧
        ((result = .invalid ∧ ∃ m, port.Calls CriMessage s.monitor m ∧
            s' = { s with monitor := m }) ∨
        (result = .ok ∧ (s.containers i).networkNs.toNat < cfg.maxPorts ∧
          ∃ m, StoppedBy port (s.containers i).networkNs s.monitor m ∧
            s' = stoppedContainer
              ({ s with monitor := m }.clearSlot (s.containers i).networkNs) i)))) := by
  rw [stopContainer] at h
  split at h
  case h_1 =>
    rw [Option.some.injEq, Prod.mk.injEq, Prod.mk.injEq] at h
    exact Or.inl ⟨h.2.2.symm, h.1.symm⟩
  case h_2 i hi =>
    refine Or.inr ⟨i, hi, ?_⟩
    split at h
    case isTrue hstate =>
      refine Or.inr ⟨hstate, ?_⟩
      obtain ⟨⟨s₁, stopped⟩, hstop, h⟩ := Option.map_eq_some_iff.mp h
      obtain ⟨rfl, m, hm, rfl⟩ | ⟨rfl, hlt, m, hm, rfl⟩ := orchestratorCriStop_cases hstop
      · dsimp only at h
        rw [if_neg Bool.false_ne_true, Prod.mk.injEq, Prod.mk.injEq] at h
        exact Or.inl ⟨h.2.2.symm, m, hm, h.1.symm⟩
      · dsimp only at h
        rw [if_pos rfl, Prod.mk.injEq, Prod.mk.injEq] at h
        exact Or.inr ⟨h.2.2.symm, hlt, m, hm, h.1.symm⟩
    case isFalse hstate =>
      rw [Option.some.injEq, Prod.mk.injEq, Prod.mk.injEq] at h
      exact Or.inl ⟨h.2.2.symm, hstate, h.1.symm⟩

/-- The operations that change a container. -/
def CriOp.changesContainer : CriOp → Bool
  | .createContainer | .startContainer | .stopContainer | .removeContainer => true
  | _ => false

/-- The other operations leave everything but the other tables and the counters alone. -/
theorem dispatch_frame {cfg : Config} {port : Port M} {s s' : State M} {op : BitVec 16}
    {request response : CriObject} {result : CriResult}
    (h : dispatch cfg port s op request = some (s', response, result))
    (hop : ∀ c, CriOp.ofNumber op = some c → c.changesContainer = false) :
    ∃ sandboxes images nextId timestamp,
      s' = { s with sandboxes, images, nextId, timestamp } := by
  rw [dispatch] at h
  cases hc : CriOp.ofNumber op with
  | none =>
    rw [hc] at h
    exact ⟨_, _, _, _, (Prod.mk.inj (Option.some.inj h)).1.symm⟩
  | some c =>
    have hother := hop c hc
    rw [hc] at h
    cases c
    case createContainer | startContainer | stopContainer | removeContainer => cases hother
    case runSandbox =>
      obtain ⟨sandboxes, nextId, timestamp, hs⟩ := runSandbox_frame s request
      rw [Option.some.inj h] at hs
      exact ⟨sandboxes, s.images, nextId, timestamp, hs⟩
    case pullImage =>
      obtain ⟨images, hs⟩ := pullImage_frame s request
      rw [Option.some.inj h] at hs
      exact ⟨s.sandboxes, images, s.nextId, s.timestamp, hs⟩
    all_goals exact ⟨_, _, _, _, (Prod.mk.inj (Option.some.inj h)).1.symm⟩

/-- The container after a start that failed. -/
def startFailed (s : State M) (i : Nat) : State M :=
  let s := s.tick
  s.setContainer i
    { s.containers i with
      state := 2, exitCode := 1, finishedAt := s.timestamp, reason := carrelsStartFailed }

/-- The end of `process_stream` after a start was answered: look for a protocon. -/
def startAfterReply (cfg : Config) (spawnOk : Bool) (s : State M) (i : Nat) : State M :=
  let s := { s with startAfterReply := none }
  match orchestratorCriStart cfg spawnOk s (s.containers i).image (s.containers i).id with
  | (s, none) => startFailed s i
  | (s, some pcId) => s.setContainer i { s.containers i with networkNs := pcId }

theorem startAfterReply_cases (cfg : Config) (spawnOk : Bool) (s : State M) (i : Nat) :
    ∃ t, (orchestratorCriStart cfg spawnOk { s with startAfterReply := none }
        (s.containers i).image (s.containers i).id = (t, none) ∧
      startAfterReply cfg spawnOk s i = startFailed t i) ∨
    ∃ pcId, orchestratorCriStart cfg spawnOk { s with startAfterReply := none }
        (s.containers i).image (s.containers i).id = (t, some pcId) ∧
      startAfterReply cfg spawnOk s i =
        t.setContainer i { t.containers i with networkNs := pcId } := by
  rw [startAfterReply]
  split
  case h_1 t hs => exact ⟨t, Or.inl ⟨hs, rfl⟩⟩
  case h_2 t pcId hs => exact ⟨t, Or.inr ⟨pcId, hs, rfl⟩⟩

/-- `process_stream` on a complete request: the state after it, and the reply. -/
def processRequest (cfg : Config) (port : Port M) (spawnOk : Bool) (s : State M)
    (op : BitVec 16) (request : CriObject) : Option (State M × CriObject × CriResult) :=
  (dispatch cfg port s op request).map fun (s, response, result) =>
    if CriOp.ofNumber op = some .startContainer ∧ result = .ok then
      match s.startAfterReply with
      | none => (s, response, result)
      | some i => (startAfterReply cfg spawnOk s i, response, result)
    else (s, response, result)

variable {cfg : Config} {port : Port M} {spawnOk : Bool} {s s' : State M} {op : BitVec 16}
  {request response : CriObject} {result : CriResult}

/-- A start finds no container, or marks it and then looks for a protocon. -/
theorem processRequest_start (hop : CriOp.ofNumber op = some .startContainer)
    (h : processRequest cfg port spawnOk s op request = some (s', response, result)) :
    (find s.containers request.id = none ∧ s' = s) ∨
    ∃ i, find s.containers request.id = some i ∧
      s' = startAfterReply cfg spawnOk (markStarted s i) i := by
  simp only [processRequest, dispatch, hop, Option.map_some, true_and] at h
  rw [startContainer] at h
  split at h
  case h_1 hnone => exact Or.inl ⟨hnone, (Prod.mk.inj (Option.some.inj h)).1.symm⟩
  case h_2 i hsome => exact Or.inr ⟨i, hsome, (Prod.mk.inj (Option.some.inj h)).1.symm⟩

/-- A start that is not answered `CRI_OK` changes nothing. -/
theorem processRequest_start_result (hop : CriOp.ofNumber op = some .startContainer)
    (h : processRequest cfg port spawnOk s op request = some (s', response, result)) :
    result = .ok ∨ s' = s := by
  simp only [processRequest, dispatch, hop, Option.map_some, true_and] at h
  rw [startContainer] at h
  split at h
  case h_1 => exact Or.inr (Prod.mk.inj (Option.some.inj h)).1.symm
  case h_2 i hsome =>
    exact Or.inl (Prod.mk.inj (Prod.mk.inj (Option.some.inj h)).2).2.symm

theorem processRequest_other (hop : CriOp.ofNumber op ≠ some .startContainer)
    (h : processRequest cfg port spawnOk s op request = some (s', response, result)) :
    dispatch cfg port s op request = some (s', response, result) := by
  obtain ⟨⟨s₁, response₁, result₁⟩, hr, h⟩ := Option.map_eq_some_iff.mp h
  dsimp only at h
  rw [if_neg fun hstart => hop hstart.1] at h
  rw [hr, h]

/-- A request other than a start leaves everything but the CRI's tables alone, or stops a
container and gives its slot back. -/
theorem processRequest_slots (hop : CriOp.ofNumber op ≠ some .startContainer)
    (h : processRequest cfg port spawnOk s op request = some (s', response, result)) :
    (∃ m containers sandboxes images nextId timestamp, port.Calls CriMessage s.monitor m ∧
      s' = { s with monitor := m, containers, sandboxes, images, nextId, timestamp }) ∨
    (CriOp.ofNumber op = some .stopContainer ∧ ∃ i m, find s.containers request.id = some i ∧
      (s.containers i).state = 1 ∧ (s.containers i).networkNs.toNat < cfg.maxPorts ∧
      StoppedBy port (s.containers i).networkNs s.monitor m ∧
      s' = stoppedContainer
        ({ s with monitor := m }.clearSlot (s.containers i).networkNs) i) := by
  replace h := processRequest_other hop h
  by_cases hchanges : ∃ c, CriOp.ofNumber op = some c ∧ c.changesContainer = true
  · obtain ⟨c, hc, hchanges⟩ := hchanges
    rw [dispatch, hc] at h
    cases c
    case startContainer => exact absurd hc hop
    case createContainer =>
      obtain ⟨containers, nextId, timestamp, hs⟩ := createContainer_frame s request
      rw [Option.some.inj h] at hs
      exact Or.inl ⟨_, _, _, _, _, _, .refl, hs⟩
    case removeContainer =>
      obtain ⟨containers, hs⟩ := removeContainer_frame s request
      rw [Option.some.inj h] at hs
      exact Or.inl ⟨_, _, _, _, _, _, .refl, hs⟩
    case stopContainer =>
      obtain ⟨-, rfl⟩ | ⟨i, hi, ⟨-, -, rfl⟩ |
          ⟨hstate, ⟨-, m, hm, rfl⟩ | ⟨-, hlt, m, hm, rfl⟩⟩⟩ := stopContainer_cases h
      · exact Or.inl ⟨_, _, _, _, _, _, .refl, rfl⟩
      · exact Or.inl ⟨_, _, _, _, _, _, .refl, rfl⟩
      · exact Or.inl ⟨_, _, _, _, _, _, hm, rfl⟩
      · exact Or.inr ⟨hc, i, m, hi, hstate, hlt, hm, rfl⟩
    all_goals cases hchanges
  · obtain ⟨sandboxes, images, nextId, timestamp, rfl⟩ := dispatch_frame h fun c hc =>
      Bool.eq_false_iff.mpr fun htrue => hchanges ⟨c, hc, htrue⟩
    exact Or.inl ⟨_, _, _, _, _, _, .refl, rfl⟩

theorem processRequest_frame (hop : CriOp.ofNumber op ≠ some .startContainer)
    (h : processRequest cfg port spawnOk s op request = some (s', response, result)) :
    ∃ m containers sandboxes images nextId timestamp criSlotsInUse,
      port.Calls CriMessage s.monitor m ∧
      s' = { s with
        monitor := m, containers, sandboxes, images, nextId, timestamp, criSlotsInUse } := by
  obtain ⟨m, containers, sandboxes, images, nextId, timestamp, hm, rfl⟩ |
      ⟨-, i, m, -, -, -, hm, rfl⟩ := processRequest_slots hop h
  · exact ⟨_, _, _, _, _, _, _, hm, rfl⟩
  · exact ⟨_, _, _, _, _, _, _, hm.calls, rfl⟩

end Orchestrator
end Carrels
