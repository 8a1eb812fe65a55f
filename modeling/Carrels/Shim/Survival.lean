/-
What the shim reads back of the objects it creates.

The shim marshals an object and the runtime keeps the bytes it does not look at.  So a status
call returns what the object was created with, after any run that does not remove it.
-/
import Carrels.Orchestrator.Codec
import Carrels.Orchestrator.Ids
import Carrels.Shim.Wire

namespace Carrels
namespace Shim

open ByteMemory Fields Monitor Orchestrator StepSystem

variable {M : Type}

/-! ## Calls -/

/-- `call`, when the connection holds: the object is marshalled, the runtime processes the
request, and the object of an answer that is OK is unmarshalled. -/
def call (cfg : Config) (port : Port M) (spawnOk : Bool) (t : Orchestrator.State M × History)
    (op : CriOp) (w : WireObject) :
    Option ((Orchestrator.State M × History) × Except CriResult WireObject) :=
  let request := decodeObject (marshal w)
  (processRequest cfg port spawnOk t.1 op.number request).map fun (s, response, result) =>
    let answer :=
      if result = .ok then .ok (unmarshalObject (encodeObject response)) else .error result
    ((s, { given := givenBy op.number response result ++ t.2.given
           removed := removedBy t.2.given op.number request ++ t.2.removed }), answer)

/-- The call that creates an object of a kind, and the one that asks for its status. -/
def createOp : Kind → CriOp
  | .sandbox => .runSandbox
  | .container => .createContainer

def statusOp : Kind → CriOp
  | .sandbox => .sandboxStatus
  | .container => .containerStatus

/-- The event does not remove the object of kind `k` whose id is `x`. -/
def Keeps (k : Kind) (x : List UInt8) (_ : Orchestrator.State M × History) :
    Orchestrator.Event M → Prop
  | .request op request _ => removes op = some k → request.id ≠ x
  | _ => True

/-- The reference of an image. -/
def imageReference (image : List UInt8) : List UInt8 :=
  if carrelsImageScheme.isPrefixOf image then image else carrelsImageScheme ++ image

/-- What a status call returns of an object that was created as `w`.  The reference of a
container's image has a field of 256 bytes. -/
structure Survives (k : Kind) (w o : WireObject) : Prop where
  name : o.name = w.name
  namespace_ : o.namespace_ = w.namespace_
  uid : o.uid = w.uid
  attempt : o.attempt = w.attempt
  labels : o.labels = w.labels
  annotations : o.annotations = w.annotations
  runtimeHandler : o.runtimeHandler = w.runtimeHandler
  logDir : o.logDir = w.logDir
  sandboxID : o.sandboxID = w.sandboxID
  image : o.image = w.image
  logPath : o.logPath = w.logPath
  sandbox : k = .sandbox → o.networkNS = w.networkNS ∧ o.ipcNS = w.ipcNS ∧ o.pidNS = w.pidNS
  container : k = .container → o.imageRef = (imageReference w.image).take 255

theorem call_step {cfg : Config} {port : Port M} {spawnOk : Bool}
    {t t' : Orchestrator.State M × History} {op : CriOp} {w : WireObject}
    {answer : Except CriResult WireObject}
    (h : call cfg port spawnOk t op w = some (t', answer)) :
    stepHistory cfg port t (.request op.number (decodeObject (marshal w)) spawnOk) = some t' := by
  obtain ⟨r, hr, heq⟩ := Option.map_eq_some_iff.mp h
  rw [stepHistory, hr]
  exact congrArg some (Prod.mk.inj heq).1

/-! ## Both layouts -/

/-- What the runtime copies of an object and never reads. -/
def copiedFields (w : WireObject) : List (List UInt8) :=
  [toLE w.attempt.toNat 4, toLE w.ipcNS.toNat 4, toLE w.pidNS.toNat 4, putFixed 128 w.name,
    putFixed 64 w.namespace_, putFixed 64 w.uid, encodeMap 512 w.labels,
    encodeMap 512 w.annotations, putFixed 64 w.runtimeHandler, putFixed 192 w.logDir,
    putFixed 64 w.sandboxID, putFixed 192 w.logPath]

theorem length_copiedFields (w : WireObject) :
    (copiedFields w).map List.length = copiedLayout := by
  simp only [copiedFields, copiedLayout, List.map_cons, List.map_nil, length_toLE, putFixed,
    encodeMap, length_pad]

/-- The two sides agree on the layout. -/
theorem objectLayout_eq : objectLayout = wireSizes := rfl

theorem split_marshal (w : WireObject) : split objectLayout (marshal w) = wireFields w :=
  split_eq (length_wireFields w)

/-- What the runtime reads of a marshalled object. -/
theorem decodeObject_marshal (w : WireObject) :
    (decodeObject (marshal w)).fields = (copiedFields w).flatten ∧
      (decodeObject (marshal w)).networkNs = w.networkNS ∧
      (decodeObject (marshal w)).id = getFixed (putFixed 64 w.id) ∧
      (decodeObject (marshal w)).image = getFixed (putFixed 256 w.image) := by
  simp only [decodeObject, split_marshal]
  exact ⟨rfl, u32_toLE w.networkNS, rfl, rfl⟩

theorem stringFits_copyString {n : Nat} {s : List UInt8} (hn : 0 < n) (hzero : ∀ b ∈ s, b ≠ 0) :
    StringFits n (copyString n s) where
  noZero b hb := hzero b (List.mem_of_mem_take hb)
  length_lt := by
    rw [copyString, List.length_take]
    omega

/-! ## Objects -/

/-- What the runtime knows of `w` as long as it has the object. -/
structure CreatedFrom (k : Kind) (w : WireObject) (o : CriObject) : Prop where
  fields : o.fields = (copiedFields w).flatten
  image : o.image = w.image
  networkNs : k = .sandbox → o.networkNs = w.networkNS
  imageRef : k = .container → o.imageRef = (imageReference w.image).take 255

theorem imageReference_noZero {image : List UInt8} (h : ∀ b ∈ image, b ≠ 0) :
    ∀ b ∈ imageReference image, b ≠ 0 := by
  rw [imageReference]
  split
  · exact h
  · intro b hb
    obtain hscheme | himage := List.mem_append.mp hb
    · have hall : ∀ b ∈ carrelsImageScheme, b ≠ 0 := by decide +kernel
      exact hall b hscheme
    · exact h b himage

theorem setImageRef_imageRef (o : CriObject) :
    (setImageRef o).imageRef = (imageReference o.image).take 255 := by
  rw [setImageRef, imageReference]
  split <;> rfl

theorem createdFrom_newObject (k : Kind) (s : Orchestrator.State M) {w : WireObject}
    (hfits : w.Fits) : CreatedFrom k w (newObject s (decodeObject (marshal w)) k) := by
  obtain ⟨hfields, hnetworkNs, -, himage⟩ := decodeObject_marshal w
  rw [getFixed_putFixed hfits.image] at himage
  generalize decodeObject (marshal w) = request at hfields hnetworkNs himage ⊢
  cases k with
  | sandbox => exact ⟨hfields, himage, fun _ => hnetworkNs, nofun⟩
  | container =>
    refine ⟨hfields, himage, nofun, fun _ => ?_⟩
    rw [← himage, newObject, newContainer, setImageRef_imageRef]

/-- What an object of a kind keeps until it is removed. -/
def Same : Kind → CriObject → CriObject → Prop
  | .sandbox => SameSandbox
  | .container => SameContainer

theorem CreatedFrom.same {k : Kind} {w : WireObject} {o o' : CriObject}
    (h : CreatedFrom k w o) (hsame : Same k o o') : CreatedFrom k w o' := by
  cases k with
  | sandbox =>
    rw [Same, SameSandbox] at hsame
    rw [hsame]
    exact ⟨h.fields, h.image, h.networkNs, Kind.noConfusion⟩
  | container =>
    rw [Same, SameContainer] at hsame
    rw [hsame]
    exact ⟨h.fields, h.image, Kind.noConfusion, h.imageRef⟩

theorem CreatedFrom.survives {k : Kind} {w : WireObject} {o : CriObject}
    (h : CreatedFrom k w o) (hfits : w.Fits) :
    Survives k w (unmarshalObject (encodeObject o)) := by
  have hsplit : split wireSizes (encodeObject o) = objectFields o := split_encodeObject o
  have hcopied : split copiedLayout o.fields = copiedFields w := by
    rw [h.fields, split_eq (length_copiedFields w)]
  have hmembers : objectFields o =
      [toLE o.cursor.toNat 4, toLE o.present.toNat 4, toLE w.attempt.toNat 4,
        toLE o.state.toNat 4, toLE o.exitCode.toNat 4, toLE o.networkNs.toNat 4,
        toLE w.ipcNS.toNat 4, toLE w.pidNS.toNat 4, toLE o.createdAt.toNat 8,
        toLE o.startedAt.toNat 8, toLE o.finishedAt.toNat 8, pad 64 o.id, putFixed 128 w.name,
        putFixed 64 w.namespace_, putFixed 64 w.uid, encodeMap 512 w.labels,
        encodeMap 512 w.annotations, putFixed 64 w.runtimeHandler, putFixed 192 w.logDir,
        putFixed 64 w.sandboxID, pad 256 o.image, pad 256 o.imageRef, putFixed 192 w.logPath,
        pad 64 o.reason, pad 48 o.ip] := by
    simp only [objectFields, hcopied]
    -- A copied member has the size of its field already.
    simp only [field, copiedFields, List.getD_cons_zero, List.getD_cons_succ,
      pad_self (length_toLE _ _), putFixed, encodeMap, pad_self (length_pad _ _)]
  rw [unmarshalObject, hsplit, hmembers]
  exact
    { name := getFixed_putFixed hfits.name
      namespace_ := getFixed_putFixed hfits.namespace_
      uid := getFixed_putFixed hfits.uid
      attempt := u32_toLE w.attempt
      labels := decodeMap_encodeMap hfits.labels (by decide)
      annotations := decodeMap_encodeMap hfits.annotations (by decide)
      runtimeHandler := getFixed_putFixed hfits.runtimeHandler
      logDir := getFixed_putFixed hfits.logDir
      sandboxID := getFixed_putFixed hfits.sandboxID
      image := (congrArg (fun s => getFixed (pad 256 s)) h.image).trans (getFixed_pad hfits.image)
      logPath := getFixed_putFixed hfits.logPath
      sandbox := fun hk =>
        ⟨(u32_toLE o.networkNs).trans (h.networkNs hk), u32_toLE w.ipcNS, u32_toLE w.pidNS⟩
      container := fun hk =>
        (congrArg (fun s => getFixed (pad 256 s)) (h.imageRef hk)).trans
          (getFixed_pad (stringFits_copyString (by decide)
            (imageReference_noZero hfits.image.noZero))) }

/-! ## Runs -/

theorem Same.refl (k : Kind) (o : CriObject) : Same k o o := by
  cases k with
  | sandbox => exact SameSandbox.refl o
  | container => exact SameContainer.refl o

theorem Same.trans {k : Kind} {o₁ o₂ o₃ : CriObject} (h₁ : Same k o₁ o₂) (h₂ : Same k o₂ o₃) :
    Same k o₁ o₃ := by
  cases k with
  | sandbox => exact SameSandbox.trans h₁ h₂
  | container => exact SameContainer.trans h₁ h₂

theorem Same.key {k : Kind} {o o' : CriObject} (h : Same k o o') :
    o'.present = o.present ∧ o'.id = o.id := by
  cases k with
  | sandbox => exact SameSandbox.key h
  | container => exact SameContainer.key h

section

variable {cfg : Config} {port : Port M}

theorem same_of_kept {s s' : Orchestrator.State M} (h : Kept s s') (k : Kind) (i : Nat) :
    Same k (s.table k i) (s'.table k i) := by
  cases k with
  | sandbox => exact h.sandboxes i
  | container => exact h.containers i

theorem same_of_put {s s' : Orchestrator.State M} {k k' : Kind} {i i' : Nat} {o : CriObject}
    (h : Put s s' k' i' o) (hne : k = k' → i ≠ i') :
    Same k (s.table k i) (s'.table k i) := by
  by_cases hk : k = k'
  · subst hk
    rw [h.table, Function.update_of_ne (hne rfl)]
    exact .refl k _
  · rw [h.other k hk]
    exact .refl k _

/-- A request gives a free slot away and clears the slot of an object it names. -/
theorem same_of_request {s s' : Orchestrator.State M} {op : BitVec 16}
    {request response : CriObject} {result : CriResult} {k : Kind} {i : Nat}
    (h : RequestStep s op request s' response result) (hpresent : (s.table k i).present = true)
    (hkeeps : removes op = some k → request.id ≠ (s.table k i).id) :
    Same k (s.table k i) (s'.table k i) := by
  cases h with
  | kept _ _ hkept => exact same_of_kept hkept k i
  | created k' i' _ hi hput _ =>
    refine same_of_put hput fun hk hi' => ?_
    subst hk hi'
    exact absurd ((allocate_spec hi).2.symm.trans hpresent) Bool.false_ne_true
  | removed k' i' hremoves _ hi hput _ =>
    refine same_of_put hput fun hk hi' => ?_
    subst hk hi'
    exact hkeeps hremoves (find_spec hi).2.2.symm

theorem same_of_step {t t' : Orchestrator.State M × History} {e : Orchestrator.Event M}
    {k : Kind} {i : Nat} (h : stepHistory cfg port t e = some t')
    (hpresent : (t.1.table k i).present = true) (hkeeps : Keeps k (t.1.table k i).id t e) :
    Same k (t.1.table k i) (t'.1.table k i) := by
  obtain ⟨op, request, spawnOk, s', response, result, rfl, hreq, rfl⟩ | ⟨he, s', hstep, rfl⟩ :=
    stepHistory_cases h
  · exact same_of_request (processRequest_objects hreq) hpresent hkeeps
  · exact same_of_kept (step_kept hstep he) k i

theorem same_of_run {t t' : Orchestrator.State M × History} {k : Kind} {i : Nat}
    (hpresent : (t.1.table k i).present = true)
    (h : Reaches (stepHistory cfg port) (Keeps k (t.1.table k i).id) t t') :
    Same k (t.1.table k i) (t'.1.table k i) := by
  refine h.invariant (I := fun t' => Same k (t.1.table k i) (t'.1.table k i)) (.refl k _) ?_
  intro t₁ e t₂ hsame hkeeps hs
  obtain ⟨hp, hid⟩ := hsame.key
  exact hsame.trans (same_of_step hs (hp.trans hpresent) (hid ▸ hkeeps))

end

/-! ## Creation and status -/

theorem hex08_noZero (v : BitVec 64) : ∀ b ∈ hex08 v, b ≠ 0 := by
  have hdigits : ∀ b ∈ hexDigits v, b ≠ 0 := by
    intro b hb
    obtain ⟨i, -, rfl⟩ := List.mem_map.mp hb
    have hall : ∀ n < 16, hexDigit n ≠ 0 := by decide
    exact hall _ (Nat.mod_lt _ (by decide))
  intro b hb
  obtain hb | hb := List.mem_append.mp hb
  · exact hdigits b (List.mem_of_mem_take ((List.dropWhile_sublist _).mem hb))
  · exact hdigits b (List.mem_of_mem_drop hb)

theorem idOf_noZero (k : Kind) (v : BitVec 64) : ∀ b ∈ idOf k v, b ≠ 0 := by
  have hsandbox : ∀ b ∈ bytes "carrels-sandbox-", b ≠ 0 := by decide +kernel
  have hcontainer : ∀ b ∈ bytes "carrels-container-", b ≠ 0 := by decide +kernel
  intro b hb
  cases k with
  | sandbox =>
    rw [idOf, sandboxId_eq] at hb
    exact (List.mem_append.mp hb).elim (hsandbox b) (hex08_noZero v b)
  | container =>
    rw [idOf, containerId_eq] at hb
    exact (List.mem_append.mp hb).elim (hcontainer b) (hex08_noZero v b)

theorem stringFits_idOf (k : Kind) (v : BitVec 64) : StringFits 64 (idOf k v) where
  noZero := idOf_noZero k v
  length_lt := by
    cases k with
    | sandbox =>
      rw [idOf, sandboxId, copyString, List.length_take]
      omega
    | container =>
      rw [idOf, containerId, copyString, List.length_take]
      omega

theorem unmarshalObject_id {o : CriObject} (h : StringFits 64 o.id) :
    (unmarshalObject (encodeObject o)).id = o.id := by
  have hsplit : split wireSizes (encodeObject o) = objectFields o := split_encodeObject o
  rw [unmarshalObject, hsplit]
  exact getFixed_pad h

section

variable {cfg : Config} {port : Port M} {spawnOk : Bool} {t t' : Orchestrator.State M × History}

/-- A creation that is answered OK puts the object into a free slot and hands out its id. -/
theorem created_of_call {k : Kind} {w w' : WireObject} (hfits : w.Fits)
    (h : call cfg port spawnOk t (createOp k) w = some (t', .ok w')) :
    ∃ i, (t'.1.table k i).present = true ∧ (t'.1.table k i).id = w'.id ∧
      CreatedFrom k w (t'.1.table k i) := by
  obtain ⟨⟨s, response, result⟩, hreq, heq⟩ := Option.map_eq_some_iff.mp h
  obtain ⟨rfl, hanswer⟩ := Prod.mk.inj heq
  have hgives : gives (createOp k).number .ok = some k := by
    cases k <;> decide
  have hok : result = .ok ∧ unmarshalObject (encodeObject response) = w' := by
    split at hanswer
    case isTrue hok => exact ⟨hok, Except.ok.inj hanswer⟩
    case isFalse => cases hanswer
  obtain ⟨rfl, rfl⟩ := hok
  cases processRequest_objects hreq with
  | kept hnone => exact nomatch hnone.symm.trans hgives
  | removed _ _ _ hnone => exact nomatch hnone.symm.trans hgives
  | created k' i hk' _ hput _ =>
    obtain rfl : k' = k := Option.some.inj (hk'.symm.trans hgives)
    have hself : s.table k' i = newObject t.1 (decodeObject (marshal w)) k' := by
      rw [hput.table, Function.update_self]
    obtain ⟨hpresent, hid⟩ := newObject_key t.1 (decodeObject (marshal w)) k'
    refine ⟨i, ?_⟩
    rw [hself]
    refine ⟨hpresent, ?_, createdFrom_newObject k' t.1 hfits⟩
    exact (unmarshalObject_id (hid ▸ stringFits_idOf k' _)).symm

theorem call_status (cfg : Config) (port : Port M) (spawnOk : Bool)
    (t : Orchestrator.State M × History) {k : Kind} {i : Nat} {q : WireObject}
    (hfits : StringFits 64 q.id) (hfind : find (t.1.table k) q.id = some i) :
    call cfg port spawnOk t (statusOp k) q =
      some (t, .ok (unmarshalObject (encodeObject (t.1.table k i)))) := by
  have hid : (decodeObject (marshal q)).id = q.id :=
    (decodeObject_marshal q).2.2.1.trans (getFixed_putFixed hfits)
  have hgives : givenBy (statusOp k).number (t.1.table k i) .ok = [] := by
    cases k <;> rfl
  have hremoves : removedBy t.2.given (statusOp k).number (decodeObject (marshal q)) = [] := by
    cases k <;> rfl
  have hprocess : processRequest cfg port spawnOk t.1 (statusOp k).number
      (decodeObject (marshal q)) = some (t.1, t.1.table k i, .ok) := by
    cases k with
    | sandbox =>
      simp only [State.table] at hfind
      simp only [processRequest, dispatch, statusOp, CriOp.ofNumber_number, hid, hfind, status]
      rfl
    | container =>
      simp only [State.table] at hfind
      simp only [processRequest, dispatch, statusOp, CriOp.ofNumber_number, hid, hfind, status]
      rfl
  rw [call, hprocess, Option.map_some]
  dsimp only
  rw [hgives, hremoves, if_pos rfl]
  rfl

end

/-! ## Every run -/

/-- In every run with fewer than 2^64 creations an object that was created is read back as it
was written, whatever happened in between, unless it was removed. -/
theorem objectsSurvive (cfg : Config) (port : Port M) (m : M) (spawnOk spawnOk' : Bool)
    {t t₁ t₂ : Orchestrator.State M × History} {k : Kind} {w w₁ q : WireObject}
    (hreach : Reaches (stepHistory cfg port) anyEvent ({ monitor := m }, {}) t)
    (hfits : w.Fits) (hcreate : call cfg port spawnOk t (createOp k) w = some (t₁, .ok w₁))
    (hrun : Reaches (stepHistory cfg port) (Keeps k w₁.id) t₁ t₂)
    (hlt : t₂.2.given.length < 2 ^ 64) (hq : q.id = w₁.id) :
    ∃ o, call cfg port spawnOk' t₂ (statusOp k) q = some (t₂, .ok o) ∧ Survives k w o := by
  obtain ⟨i, hpresent, hid, hfrom⟩ := created_of_call hfits hcreate
  rw [← hid] at hrun hq
  have hsame := same_of_run hpresent hrun
  obtain ⟨hpresent₂, hid₂⟩ := hsame.key
  -- The id is a fresh one, so no other object has it at the end.
  have hreach₂ : Reaches (stepHistory cfg port) anyEvent ({ monitor := m }, {}) t₂ :=
    (hreach.tail trivial (call_step hcreate)).trans (hrun.mono fun _ _ _ => trivial)
  have hinv := IdInv.of_reaches hreach₂ hlt
  rw [hpresent] at hpresent₂
  obtain ⟨n, -, hshape⟩ := hinv.shape _ (hinv.known k i hpresent₂)
  rw [← hid₂] at hq
  have hfind : find (t₂.1.table k) q.id = some i := hq ▸ hinv.find_id hpresent₂
  have hfitsId : StringFits 64 q.id := by
    dsimp only at hshape
    rw [hq, hshape]
    exact stringFits_idOf k _
  exact ⟨_, call_status cfg port spawnOk' t₂ hfitsId hfind, (hfrom.same hsame).survives hfits⟩

/-- A sandbox with a label. -/
def labelledSandbox : WireObject :=
  { name := bytes "web", attempt := 1, networkNS := 2, labels := [(bytes "app", bytes "hello")] }

theorem labelledSandbox_fits : labelledSandbox.Fits where
  id := stringFits_nil (by decide)
  name := ⟨by decide +kernel, by decide⟩
  namespace_ := stringFits_nil (by decide)
  uid := stringFits_nil (by decide)
  labels := ⟨by decide, by decide⟩
  annotations := ⟨List.nodup_nil, by decide⟩
  runtimeHandler := stringFits_nil (by decide)
  logDir := stringFits_nil (by decide)
  sandboxID := stringFits_nil (by decide)
  image := stringFits_nil (by decide)
  imageRef := stringFits_nil (by decide)
  logPath := stringFits_nil (by decide)
  reason := stringFits_nil (by decide)
  ip := stringFits_nil (by decide)

/-- The sandbox is created, and its creation is answered with an object. -/
def sandboxCreated : (Orchestrator.State Unit × History) × Except CriResult WireObject :=
  (call noPorts silentPort true ({ monitor := () }, {}) .runSandbox labelledSandbox).get
    (by decide +kernel)

def createdSandbox : WireObject :=
  match sandboxCreated.2 with
  | .ok o => o
  | .error _ => {}

theorem call_sandboxCreated :
    call noPorts silentPort true ({ monitor := () }, {}) .runSandbox labelledSandbox =
      some (sandboxCreated.1, .ok createdSandbox) := by
  have hok : sandboxCreated.2.isOk = true := by decide +kernel
  have hobject : sandboxCreated.2 = .ok createdSandbox := by
    rw [createdSandbox]
    cases h : sandboxCreated.2 with
    | ok o => rfl
    | error result =>
      rw [h] at hok
      cases hok
  have hcall : call noPorts silentPort true ({ monitor := () }, {}) .runSandbox labelledSandbox =
      some sandboxCreated := (Option.some_get _).symm
  rw [hcall, ← hobject]

/-- It is stopped, and a container of it is created. -/
def afterSandboxCreated : List (Orchestrator.Event Unit) :=
  [.request CriOp.stopSandbox.number { id := createdSandbox.id } true,
    .request CriOp.createContainer.number (decodeObject (marshal { sandboxID := createdSandbox.id }))
      true]

def sandboxStopped : Orchestrator.State Unit × History :=
  (run (stepHistory noPorts silentPort) sandboxCreated.1 afterSandboxCreated).get
    (by decide +kernel)

theorem run_sandboxStopped :
    run (stepHistory noPorts silentPort) sandboxCreated.1 afterSandboxCreated =
      some sandboxStopped := (Option.some_get _).symm

theorem keeps_afterSandboxCreated :
    ∀ e ∈ afterSandboxCreated, ∀ s : Orchestrator.State Unit × History,
      Keeps .sandbox createdSandbox.id s e := by
  intro e he s
  obtain rfl | rfl : e = _ ∨ e = _ := by simpa [afterSandboxCreated] using he
  · exact nofun
  · exact nofun

theorem objectsSurvive_sandboxStopped :
    ∃ o, call noPorts silentPort true sandboxStopped .sandboxStatus { id := createdSandbox.id } =
        some (sandboxStopped, .ok o) ∧ Survives .sandbox labelledSandbox o ∧
      createdSandbox.id = bytes "carrels-sandbox-00000001" := by
  obtain ⟨o, ho, hsurvives⟩ := objectsSurvive noPorts silentPort () true true
    (q := { id := createdSandbox.id }) .refl labelledSandbox_fits (k := .sandbox)
    call_sandboxCreated
    (reaches_of_run (runMeets_of_forall _ keeps_afterSandboxCreated _) run_sandboxStopped)
    (by decide +kernel) rfl
  exact ⟨o, ho, hsurvives, by decide +kernel⟩

/-! ## An id that comes back

The counter of the ids has 64 bits.  A container with the first id is still there when 2^64
creations later another one gets its id. -/

section

variable (cfg : Config) (port : Port M)

/-- The first object of a table is found by its id, whatever is behind it. -/
theorem find_first {table : Table} (h : (table 0).present = true) :
    find table (table 0).id = some 0 := by
  have hrange : List.range criMaxObjects = 0 :: (List.range criMaxObjects).tail := rfl
  rw [find, hrange]
  exact List.find?_cons_of_pos (by simp [h])

theorem sandboxRound (s : Orchestrator.State M) (h : History) (hs : s.sandboxes = fun _ => {}) :
    ∃ h', Reaches (stepHistory cfg port) anyEvent (s, h)
      ({ s with nextId := s.nextId + 1, timestamp := s.timestamp + 1 }, h') := by
  let o := newSandbox s {}
  let s₁ := { s.nextObject.tick with sandboxes := Function.update s.sandboxes 0 o }
  have hcreate : processRequest cfg port true s CriOp.runSandbox.number {} = some (s₁, o, .ok) := by
    have hfree : allocate s.sandboxes = some 0 := by
      rw [hs]
      rfl
    simp only [processRequest, dispatch, CriOp.ofNumber_number, runSandbox, hfree]
    rfl
  have hremove : processRequest cfg port true s₁ CriOp.removeSandbox.number { id := o.id } =
      some ({ s₁ with sandboxes := s.sandboxes }, {}, .ok) := by
    have hfirst : s₁.sandboxes 0 = o := Function.update_self 0 o s.sandboxes
    have hfound : find s₁.sandboxes o.id = some 0 := by
      rw [← hfirst]
      exact find_first (hfirst ▸ rfl)
    have hcleared : modifyObject s₁.sandboxes o.id (fun _ => {}) = s.sandboxes := by
      have hempty : s.sandboxes 0 = {} := congrFun hs 0
      rw [modifyObject_some hfound, Function.update_idem, ← hempty, Function.update_eq_self]
    simp only [processRequest, dispatch, CriOp.ofNumber_number, hcleared]
    rfl
  have hstep₁ : ∃ h₁, stepHistory cfg port (s, h) (.request CriOp.runSandbox.number {} true) =
      some (s₁, h₁) := by
    rw [stepHistory, hcreate]
    exact ⟨_, rfl⟩
  obtain ⟨h₁, hstep₁⟩ := hstep₁
  have hstep₂ : ∃ h₂, stepHistory cfg port (s₁, h₁)
      (.request CriOp.removeSandbox.number { id := o.id } true) =
        some ({ s₁ with sandboxes := s.sandboxes }, h₂) := by
    rw [stepHistory, hremove]
    exact ⟨_, rfl⟩
  obtain ⟨h₂, hstep₂⟩ := hstep₂
  exact ⟨h₂, (Reaches.refl.tail trivial hstep₁).tail trivial hstep₂⟩

theorem sandboxRounds (s : Orchestrator.State M) (h : History) (hs : s.sandboxes = fun _ => {})
    (n : Nat) :
    ∃ h', Reaches (stepHistory cfg port) anyEvent (s, h)
      ({ s with nextId := s.nextId + BitVec.ofNat 64 n
                timestamp := s.timestamp + BitVec.ofNat 64 n }, h') := by
  induction n with
  | zero =>
    refine ⟨h, ?_⟩
    rw [BitVec.add_zero, BitVec.add_zero]
    exact .refl
  | succ n ih =>
    obtain ⟨h₁, hn⟩ := ih
    obtain ⟨h₂, hround⟩ := sandboxRound cfg port { s with
      nextId := s.nextId + BitVec.ofNat 64 n, timestamp := s.timestamp + BitVec.ofNat 64 n } h₁ hs
    refine ⟨h₂, hn.trans ?_⟩
    rw [IdInv.ofNat_succ, ← BitVec.add_assoc, ← BitVec.add_assoc]
    exact hround

theorem call_create (t : Orchestrator.State M × History) {k : Kind} {i : Nat} (w : WireObject)
    (hi : allocate (t.1.table k) = some i) :
    ∃ t' w', call cfg port true t (createOp k) w = some (t', .ok w') ∧
      w'.id = idOf k (t.1.nextId + 1) ∧ t'.1.nextId = t.1.nextId + 1 ∧
      Put t.1 t'.1 k i (newObject t.1 (decodeObject (marshal w)) k) := by
  have hprocess : ∃ s', processRequest cfg port true t.1 (createOp k).number
      (decodeObject (marshal w)) =
        some (s', newObject t.1 (decodeObject (marshal w)) k, .ok) ∧
      s'.nextId = t.1.nextId + 1 ∧ Put t.1 s' k i (newObject t.1 (decodeObject (marshal w)) k) := by
    generalize decodeObject (marshal w) = request
    cases k with
    | sandbox =>
      rw [State.table] at hi
      simp only [processRequest, dispatch, createOp, CriOp.ofNumber_number, runSandbox, hi]
      refine ⟨_, rfl, rfl, rfl, fun k' hk' => ?_⟩
      cases k' with
      | sandbox => exact absurd rfl hk'
      | container => rfl
    | container =>
      rw [State.table] at hi
      simp only [processRequest, dispatch, createOp, CriOp.ofNumber_number, createContainer, hi]
      refine ⟨_, rfl, rfl, rfl, fun k' hk' => ?_⟩
      cases k' with
      | sandbox => rfl
      | container => exact absurd rfl hk'
  obtain ⟨s', hprocess, hn, hput⟩ := hprocess
  obtain ⟨-, hid⟩ := newObject_key t.1 (decodeObject (marshal w)) k
  have hcall : ∃ h', call cfg port true t (createOp k) w = some ((s', h'),
      .ok (unmarshalObject (encodeObject (newObject t.1 (decodeObject (marshal w)) k)))) := by
    rw [call, hprocess]
    exact ⟨_, rfl⟩
  obtain ⟨h', hcall⟩ := hcall
  exact ⟨_, _, hcall, (unmarshalObject_id (hid ▸ stringFits_idOf k _)).trans hid, hn, hput⟩

end

/-- The same object under another name. -/
def namedContainer (c : UInt8) : WireObject := { labelledSandbox with name := [c] }

theorem namedContainer_fits {c : UInt8} (hc : c ≠ 0) : (namedContainer c).Fits :=
  { labelledSandbox_fits with
    name :=
      { noZero := fun _ hb => List.mem_singleton.mp hb ▸ hc
        length_lt := Nat.lt_of_sub_eq_succ rfl } }

/-- The counter has come round, and the first container is still there. -/
theorem exists_wrapped :
    ∃ (t : Orchestrator.State Unit × History) (o : CriObject),
      Reaches (stepHistory noPorts silentPort) anyEvent ({ monitor := () }, {}) t ∧
      t.1.nextId = 0 ∧ t.1.containers = Function.update (fun _ => {}) 0 o ∧
      o.present = true ∧ o.id = idOf .container 1 ∧
      CreatedFrom .container (namedContainer 97) o := by
  obtain ⟨t, w, ht, -, hn, hput⟩ :=
    call_create noPorts silentPort ({ monitor := () }, {}) (k := .container) (i := 0)
      (namedContainer 97) rfl
  obtain ⟨h, hrounds⟩ :=
    sandboxRounds noPorts silentPort t.1 t.2 (hput.other .sandbox nofun) (2 ^ 64 - 1)
  obtain ⟨hpresent, hid⟩ := newObject_key ({ monitor := () } : Orchestrator.State Unit)
    (decodeObject (marshal (namedContainer 97))) .container
  refine ⟨_, _, (Reaches.refl.tail trivial (call_step ht)).trans hrounds, ?_, hput.table, hpresent,
    hid, createdFrom_newObject .container _ (namedContainer_fits (by decide))⟩
  rw [hn]
  rfl

/-- The second container with an id is answered with the first one's object. -/
theorem not_objectsSurvive :
    ¬ ∀ (t t₁ t₂ : Orchestrator.State Unit × History) (k : Kind) (w w₁ : WireObject),
      Reaches (stepHistory noPorts silentPort) anyEvent ({ monitor := () }, {}) t → w.Fits →
      call noPorts silentPort true t (createOp k) w = some (t₁, .ok w₁) →
      Reaches (stepHistory noPorts silentPort) (Keeps k w₁.id) t₁ t₂ →
      ∃ o, call noPorts silentPort true t₂ (statusOp k) { id := w₁.id } = some (t₂, .ok o) ∧
        Survives k w o := by
  intro hclaim
  obtain ⟨t, o, ht, hn, hcontainers, hpresent, hid, hfrom⟩ := exists_wrapped
  have hfree : allocate (t.1.table .container) = some 1 := by
    have hrange : List.range criMaxObjects = 0 :: 1 :: (List.range criMaxObjects).drop 2 := rfl
    rw [allocate, State.table, hcontainers, hrange, List.find?_cons_of_neg, List.find?_cons_of_pos]
    · rfl
    · rw [Function.update_self, hpresent]
      decide
  obtain ⟨t₁, w₁, hcreate, hid₁, -, hput⟩ :=
    call_create noPorts silentPort t (namedContainer 98) hfree
  rw [hn, ← show idOf .container 1 = idOf .container (0 + 1) from rfl, ← hid] at hid₁
  have hfirst : t₁.1.table .container 0 = o := by
    rw [hput.table, Function.update_of_ne (by decide), State.table, hcontainers,
      Function.update_self]
  have hstatus := call_status noPorts silentPort true t₁ (k := .container) (i := 0)
    (q := { id := w₁.id })
    (by rw [hid₁, hid]; exact stringFits_idOf .container 1)
    (by rw [hid₁, ← hfirst]; exact find_first (hfirst ▸ hpresent))
  rw [hfirst] at hstatus
  obtain ⟨o', hanswer, hsurvives⟩ :=
    hclaim t t₁ t₁ .container _ _ ht (namedContainer_fits (by decide)) hcreate .refl
  obtain rfl : unmarshalObject (encodeObject o) = o' := by
    simpa using hstatus.symm.trans hanswer
  have hname := hsurvives.name.symm.trans (hfrom.survives (namedContainer_fits (by decide))).name
  exact absurd hname (by decide)

end Shim
end Carrels
