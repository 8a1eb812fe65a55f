/-
The objects of the runtime in memory (`struct cri_object` of `cri_runtime.c`).

A request is copied from the stream into an object and the object of the answer is copied
into the reply.  An object of the model holds the strings of the arrays, and no operation
looks at the bytes behind a string's zero, so these are zeros in what is copied back.
-/
import Carrels.Lib.Fields
import Carrels.Orchestrator.Cri
import Carrels.Vsock.Packet

namespace Carrels
namespace Orchestrator

open ByteMemory Fields Monitor

variable {M : Type}

/-! ## The layout -/

/-- The sizes of the members of `struct cri_object`. -/
def objectLayout : List Nat :=
  [4, 4, 4, 4, 4, 4, 4, 4, 8, 8, 8, 64, 128, 64, 64, 512, 512, 64, 192, 64, 256, 256, 192, 64, 48]

/-- The sizes of the members that are only copied: `attempt`, `ipc_ns`, `pid_ns`, `name`,
`namespace_`, `uid`, `labels`, `annotations`, `runtime_handler`, `log_dir`, `sandbox_id` and
`log_path`. -/
def copiedLayout : List Nat := [4, 4, 4, 128, 64, 64, 512, 512, 64, 192, 64, 192]

/-- The object at the start of these bytes. -/
def decodeObject (body : List UInt8) : CriObject :=
  let f := split objectLayout body
  { cursor := u32 (field f 0), present := u32 (field f 1) != 0, state := u32 (field f 3)
    exitCode := u32 (field f 4), networkNs := u32 (field f 5), createdAt := u64 (field f 8)
    startedAt := u64 (field f 9), finishedAt := u64 (field f 10), id := untilZero (field f 11)
    image := untilZero (field f 20), imageRef := untilZero (field f 21)
    reason := untilZero (field f 23), ip := untilZero (field f 24)
    fields := ([2, 6, 7, 12, 13, 14, 15, 16, 17, 18, 19, 22].map (field f)).flatten }

/-- The members of an object. -/
def objectFields (o : CriObject) : List (List UInt8) :=
  let c := split copiedLayout o.fields
  [toLE o.cursor.toNat 4, toLE o.present.toNat 4, pad 4 (field c 0), toLE o.state.toNat 4,
    toLE o.exitCode.toNat 4, toLE o.networkNs.toNat 4, pad 4 (field c 1), pad 4 (field c 2),
    toLE o.createdAt.toNat 8, toLE o.startedAt.toNat 8, toLE o.finishedAt.toNat 8, pad 64 o.id,
    pad 128 (field c 3), pad 64 (field c 4), pad 64 (field c 5), pad 512 (field c 6),
    pad 512 (field c 7), pad 64 (field c 8), pad 192 (field c 9), pad 64 (field c 10),
    pad 256 o.image, pad 256 o.imageRef, pad 192 (field c 11), pad 64 o.reason, pad 48 o.ip]

/-- The bytes of an object.  Behind the NUL of a string there are zeros here, and in the reply what
the request had there. -/
def encodeObject (o : CriObject) : List UInt8 := (objectFields o).flatten

theorem length_objectFields (o : CriObject) :
    (objectFields o).map List.length = objectLayout := by
  simp only [objectFields, objectLayout, List.map_cons, List.map_nil, length_toLE, length_pad]

theorem split_encodeObject (o : CriObject) :
    split objectLayout (encodeObject o) = objectFields o :=
  split_eq (length_objectFields o)

theorem length_encodeObject (o : CriObject) : (encodeObject o).length = Vsock.objectSize :=
  length_flatten_eq (length_objectFields o)

/-! ## The runtime as a handler of requests -/

/-- The numbers of `enum cri_result`. -/
def CriResult.number : CriResult → BitVec 32
  | .ok => 0
  | .notFound => 1
  | .invalid => 2
  | .full => 3

theorem CriResult.number_eq_zero {r : CriResult} : r.number = 0 ↔ r = .ok := by
  cases r <;> decide

/-- What the stream of requests is handed to. -/
def criHandler (cfg : Config) (port : Port M) (spawnOk : Bool) : Vsock.Handler (State M) where
  dispatch s op object :=
    (dispatch cfg port s op (decodeObject object)).map fun (s, response, result) =>
      (s, result.number, encodeObject response)
  afterReply s op status :=
    if CriOp.ofNumber op = some .startContainer ∧ status = 0 then
      match s.startAfterReply with
      | none => s
      | some i => startAfterReply cfg spawnOk s i
    else s
  length_response h := by
    obtain ⟨⟨s, response, result⟩, -, heq⟩ := Option.map_eq_some_iff.mp h
    obtain ⟨-, heq⟩ := Prod.mk.inj heq
    exact (Prod.mk.inj heq).2 ▸ length_encodeObject response

/-- A request in the stream is `processRequest` on the object it holds. -/
theorem criHandler_processRequest (cfg : Config) (port : Port M) (spawnOk : Bool) (s : State M)
    (op : BitVec 16) (object : List UInt8) :
    ((criHandler cfg port spawnOk).dispatch s op object).map (fun (s, status, response) =>
        ((criHandler cfg port spawnOk).afterReply s op status, status, response)) =
      (processRequest cfg port spawnOk s op (decodeObject object)).map
        fun (s, response, result) => (s, result.number, encodeObject response) := by
  simp only [criHandler, processRequest, Option.map_map]
  refine congrArg (Option.map · _) (funext fun ⟨s, response, result⟩ => ?_)
  simp only [Function.comp_apply, CriResult.number_eq_zero]
  split
  · cases s.startAfterReply with
    | none => rfl
    | some i => rfl
  · rfl

end Orchestrator
end Carrels
