/-
The image table of the CRI.

A pull looks for the image by its name and gives it an id made of its reference; a removal
looks by the id and a status by either.  Two spellings of one image have one id.  So the
table is keyed by id only as long as images are pulled by their ids.
-/
import Carrels.Orchestrator.Ids

namespace Carrels
namespace Orchestrator

open ByteMemory Monitor StepSystem

variable {M : Type}

/-! ## The table -/

inductive ImageOp
  | pull | remove | status | list
  deriving DecidableEq

def ImageOp.criOp : ImageOp → CriOp
  | .pull => .pullImage
  | .remove => .removeImage
  | .status => .imageStatus
  | .list => .listImage

/-- The requests on images, for whatever `orchestrator_cri_image_exists` answers
(`accepted`). -/
def imageDispatch (accepted : Bool) (images : Table) (request : CriObject) :
    ImageOp → Table × CriObject × CriResult
  | .pull =>
    if !accepted then (images, {}, .notFound)
    else
      match findImage images request.image with
      | some i => (images, images i, .ok)
      | none =>
        match allocate images with
        | none => (images, {}, .full)
        | some i =>
          let o := setImageRef { request with present := true }
          let o := { o with id := copyString 64 o.imageRef }
          (Function.update images i o, o, .ok)
  | .remove => (modifyObject images request.id fun _ => {}, {}, .ok)
  | .status => (images, status images ((find images request.id).or (findImage images request.image)))
  | .list => (images, listOne images request.cursor, .ok)

structure ImageEvent where
  accepted : Bool
  op : ImageOp
  request : CriObject

def imageStep (images : Table) (e : ImageEvent) : Option Table :=
  some (imageDispatch e.accepted images e.request e.op).1

/-- The id an image of this name gets. -/
def imageId (image : List UInt8) : List UInt8 := copyString 64 (setImageRef { image }).imageRef

/-- An accepted pull names the image by its id. -/
def PullsById (_ : Table) (e : ImageEvent) : Prop :=
  e.op = .pull → e.accepted = true → imageId e.request.image = e.request.image

/-- No two images have one id, and what was removed by a name is not found by it. -/
structure Keyed (images : Table) : Prop where
  distinct : ∀ i j, (images i).present = true → (images j).present = true →
    (images i).id = (images j).id → i = j
  removed : ∀ (a a' : Bool) (n : List UInt8) (request request' : CriObject),
    request.id = n → request.image = n → request'.id = n → request'.image = n →
    (imageDispatch a images request .remove).2.2 = .ok →
    (imageDispatch a' (imageDispatch a images request .remove).1 request' .status).2.2 = .notFound

/-- Every image is named by its id. -/
def NamedById (images : Table) : Prop := ∀ i, (images i).present = true →
  (images i).image = (images i).id

/-! ## Names -/

structure ImageInv (images : Table) : Prop where
  bound : ∀ i, (images i).present = true → i < criMaxObjects
  names : ∀ i j, (images i).present = true → (images j).present = true →
    (images i).image = (images j).image → i = j

theorem findImage_none {table : Table} {image : List UInt8} :
    findImage table image = none ↔
      ∀ i < criMaxObjects, (table i).present = true → (table i).image ≠ image := by
  rw [findImage, List.find?_eq_none]
  constructor
  · intro h i hi hp himage
    exact h i (List.mem_range.mpr hi) (by simp [hp, himage])
  · intro h i hi hfound
    obtain ⟨hp, himage⟩ : (table i).present = true ∧ (table i).image = image := by
      simpa using hfound
    exact h i (List.mem_range.mp hi) hp himage

theorem find_eq_none {table : Table} {id : List UInt8} :
    find table id = none ↔
      ∀ i < criMaxObjects, (table i).present = true → (table i).id ≠ id := by
  rw [find, List.find?_eq_none]
  constructor
  · intro h i hi hp hid
    exact h i (List.mem_range.mpr hi) (by simp [hp, hid])
  · intro h i hi hfound
    obtain ⟨hp, hid⟩ : (table i).present = true ∧ (table i).id = id := by simpa using hfound
    exact h i (List.mem_range.mp hi) hp hid

/-- What a request does to the table: nothing, a new image, or a cleared one. -/
inductive ImageChange (images : Table) (e : ImageEvent) : Table → Prop
  | same : ImageChange images e images
  | pulled {i : Nat} {o : CriObject} (hop : e.op = .pull) (haccepted : e.accepted = true)
      (hnew : findImage images e.request.image = none) (hi : i < criMaxObjects)
      (hfree : (images i).present = false) (himage : o.image = e.request.image)
      (hid : o.id = imageId e.request.image) : ImageChange images e (Function.update images i o)
  | removed {i : Nat} (hop : e.op = .remove) (hfind : find images e.request.id = some i) :
      ImageChange images e (Function.update images i {})

theorem imageStep_cases {images images' : Table} {e : ImageEvent}
    (h : imageStep images e = some images') : ImageChange images e images' := by
  obtain ⟨accepted, op, request⟩ := e
  obtain rfl := Option.some.inj h
  cases op with
  | status | list => exact .same
  | remove =>
    dsimp only [imageDispatch]
    cases hfind : find images request.id with
    | none =>
      rw [modifyObject, hfind]
      exact .same
    | some i =>
      rw [modifyObject, hfind]
      exact .removed rfl hfind
  | pull =>
    rw [imageDispatch]
    split
    case isTrue => exact .same
    case isFalse haccepted =>
      split
      case h_1 => exact .same
      case h_2 hnew =>
        split
        case h_1 => exact .same
        case h_2 i hi =>
          obtain ⟨hlt, hfree⟩ := allocate_spec hi
          exact .pulled rfl (by simpa using haccepted) hnew hlt hfree rfl rfl

theorem ImageInv.step {images images' : Table} {e : ImageEvent} (h : ImageInv images)
    (hs : ImageChange images e images') : ImageInv images' := by
  cases hs with
  | same => exact h
  | @pulled i o _ _ hnew hi hfree himage =>
    have hother : ∀ j, j ≠ i → (images j).present = true → (images j).image ≠ o.image :=
      fun j _ hp => himage ▸ findImage_none.mp hnew j (h.bound j hp) hp
    refine ⟨fun j hp => ?_, fun j j' hj hj' hsame => ?_⟩
    · by_cases hji : j = i
      · exact hji ▸ hi
      · rw [Function.update_of_ne hji] at hp
        exact h.bound j hp
    · by_cases hji : j = i <;> by_cases hji' : j' = i
      · rw [hji, hji']
      · rw [hji, Function.update_self, Function.update_of_ne hji'] at hsame
        rw [Function.update_of_ne hji'] at hj'
        exact absurd hsame.symm (hother j' hji' hj')
      · rw [hji', Function.update_self, Function.update_of_ne hji] at hsame
        rw [Function.update_of_ne hji] at hj
        exact absurd hsame (hother j hji hj)
      · rw [Function.update_of_ne hji] at hj hsame
        rw [Function.update_of_ne hji'] at hj' hsame
        exact h.names j j' hj hj' hsame
  | @removed i =>
    have hold : ∀ j, (Function.update images i {} j).present = true →
        Function.update images i {} j = images j := fun j hp => by
      by_cases hji : j = i
      · rw [hji, Function.update_self] at hp
        cases hp
      · rw [Function.update_of_ne hji]
    refine ⟨fun j hp => h.bound j (hold j hp ▸ hp), fun j j' hj hj' hsame => ?_⟩
    rw [hold j hj, hold j' hj'] at hsame
    exact h.names j j' (hold j hj ▸ hj) (hold j' hj' ▸ hj') hsame

theorem ImageInv.init : ImageInv fun _ => {} := ⟨fun _ => nofun, fun _ _ => nofun⟩

theorem ImageInv.of_reaches {ok : Table → ImageEvent → Prop} {images : Table}
    (h : Reaches imageStep ok (fun _ => {}) images) : ImageInv images :=
  h.invariant .init fun _ _ _ hI _ hs => hI.step (imageStep_cases hs)

theorem NamedById.step {images images' : Table} {e : ImageEvent} (h : NamedById images)
    (hok : PullsById images e) (hs : ImageChange images e images') : NamedById images' := by
  cases hs with
  | same => exact h
  | @pulled i o hop haccepted _ _ _ himage hid =>
    intro j hp
    by_cases hji : j = i
    · rw [hji, Function.update_self, himage, hid, hok hop haccepted]
    · rw [Function.update_of_ne hji] at hp ⊢
      exact h j hp
  | @removed i =>
    intro j hp
    by_cases hji : j = i
    · rw [hji, Function.update_self] at hp
      cases hp
    · rw [Function.update_of_ne hji] at hp ⊢
      exact h j hp

theorem NamedById.of_reaches {images : Table}
    (h : Reaches imageStep PullsById (fun _ => {}) images) : NamedById images :=
  h.invariant (I := NamedById) (fun _ hp => absurd hp Bool.false_ne_true)
    fun _ _ _ hI hok hs => hI.step hok (imageStep_cases hs)

/-! ## Keys -/

theorem status_notFound {a : Bool} {images : Table} {request : CriObject} :
    (imageDispatch a images request .status).2.2 = .notFound ↔
      find images request.id = none ∧ findImage images request.image = none := by
  rw [← Option.or_eq_none_iff]
  dsimp only [imageDispatch]
  cases (find images request.id).or (findImage images request.image) with
  | none => simp [status]
  | some i => simp [status]

theorem clear_of_ne {images : Table} {n : List UInt8} {j : Nat} (hne : find images n ≠ some j) :
    modifyObject images n (fun _ => {}) j = images j := by
  cases hfind : find images n with
  | none => rw [modifyObject_none hfind]
  | some i =>
    rw [modifyObject_some hfind, Function.update_of_ne]
    exact fun hji => hne (hji ▸ hfind)

theorem clear_self {images : Table} {n : List UInt8} {i : Nat} (h : find images n = some i) :
    modifyObject images n (fun _ => {}) i = {} := by
  rw [modifyObject_some h, Function.update_self]

/-- The table is keyed by id exactly as long as every image is named by its id. -/
theorem keyed_iff {images : Table} (hinv : ImageInv images) : Keyed images ↔ NamedById images := by
  constructor
  · intro hkeyed i hp
    by_contra hne
    -- The image stays when it is removed by its name.
    have hstays : modifyObject images (images i).image (fun _ => {}) i = images i :=
      clear_of_ne fun hfind => hne (find_spec hfind).2.2.symm
    have hgone := hkeyed.removed true true (images i).image
      { id := (images i).image, image := (images i).image }
      { id := (images i).image, image := (images i).image } rfl rfl rfl rfl rfl
    rw [status_notFound] at hgone
    refine findImage_none.mp hgone.2 i (hinv.bound i hp) ?_ ?_
    · exact (congrArg CriObject.present hstays).trans hp
    · exact (congrArg CriObject.image hstays :)
  · intro hnamed
    have hdistinct : ∀ i j, (images i).present = true → (images j).present = true →
        (images i).id = (images j).id → i = j := fun i j hi hj hsame => by
      rw [← hnamed i hi, ← hnamed j hj] at hsame
      exact hinv.names i j hi hj hsame
    refine ⟨hdistinct, fun a a' n request request' hid _ hid' himage' _ => ?_⟩
    rw [status_notFound, hid', himage']
    dsimp only [imageDispatch]
    rw [hid]
    -- An image that is left was there before, and has another id.
    have hleft : ∀ j, (modifyObject images n (fun _ => {}) j).present = true →
        modifyObject images n (fun _ => {}) j = images j ∧ (images j).present = true ∧
          (images j).id ≠ n := fun j hp => by
      have hne : find images n ≠ some j := fun hfind => by
        rw [clear_self hfind] at hp
        cases hp
      rw [clear_of_ne hne] at hp
      refine ⟨clear_of_ne hne, hp, fun hidn => ?_⟩
      cases hfind : find images n with
      | none => exact find_eq_none.mp hfind j (hinv.bound j hp) hp hidn
      | some i =>
        obtain ⟨-, hpresent, hfound⟩ := find_spec hfind
        exact hne (hfind.trans (congrArg some (hdistinct i j hpresent hp (hfound.trans hidn.symm))))
    refine ⟨find_eq_none.mpr fun j _ hp => ?_, findImage_none.mpr fun j _ hp => ?_⟩
    · obtain ⟨hsame, -, hne⟩ := hleft j hp
      rw [hsame]
      exact hne
    · obtain ⟨hsame, hpresent, hne⟩ := hleft j hp
      rw [hsame, hnamed j hpresent]
      exact hne

/-! ## The table in the runtime -/

theorem CriOp.eq_of_ofNumber {n : BitVec 16} {c : CriOp} (h : CriOp.ofNumber n = some c) :
    n = c.number := by
  rw [ofNumber] at h
  have hfound : (c.number == n) = true := List.find?_some (p := fun c : CriOp => c.number == n) h
  exact (eq_of_beq hfound).symm

theorem dispatch_image (cfg : Config) (port : Port M) (s : State M) (op : ImageOp)
    (request : CriObject) :
    dispatch cfg port s op.criOp.number request =
      some ({ s with
          images := (imageDispatch (orchestratorCriImageExists s request.image) s.images request
            op).1 },
        (imageDispatch (orchestratorCriImageExists s request.image) s.images request op).2) := by
  cases op with
  | status | list | remove =>
    simp only [dispatch, ImageOp.criOp, CriOp.ofNumber_number, imageDispatch]
  | pull =>
    simp only [dispatch, ImageOp.criOp, CriOp.ofNumber_number, imageDispatch, pullImage]
    cases orchestratorCriImageExists s request.image with
    | false => rfl
    | true =>
      cases findImage s.images request.image with
      | some i => rfl
      | none =>
        cases allocate s.images with
        | none => rfl
        | some i => rfl

section

variable {cfg : Config} {port : Port M} {s s' : State M}

theorem startAfterReply_images (spawnOk : Bool) (s : State M) (i : Nat) :
    (startAfterReply cfg spawnOk s i).images = s.images := by
  obtain ⟨t, ⟨hs, heq⟩ | ⟨pcId, hs, heq⟩⟩ := startAfterReply_cases cfg spawnOk s i
  all_goals
    rw [heq]
    exact ((orchestratorCriStart_sameCri hs).images :)

theorem Settles.images (h : Settles s s') : s'.images = s.images := by
  cases h with
  | same h => exact h.images
  | completed t pcId failed ht h =>
    obtain ⟨containers, timestamp, hcomplete⟩ := criRuntimeDeployComplete_frame t pcId failed
    rw [h.images, hcomplete]
    exact ht.images

/-- The operations on images. -/
def ImageOp.ofCriOp : CriOp → Option ImageOp
  | .pullImage => some .pull
  | .removeImage => some .remove
  | .imageStatus => some .status
  | .listImage => some .list
  | _ => none

theorem ImageOp.criOp_of_ofCriOp {c : CriOp} {op : ImageOp} (h : ofCriOp c = some op) :
    op.criOp = c := by
  cases c <;> simp_all [ofCriOp] <;> subst h <;> rfl

theorem processRequest_images {spawnOk : Bool} {op : BitVec 16} {request response : CriObject}
    {result : CriResult}
    (h : processRequest cfg port spawnOk s op request = some (s', response, result))
    (hother : ∀ c, CriOp.ofNumber op = some c → ImageOp.ofCriOp c = none) :
    s'.images = s.images := by
  by_cases hstart : CriOp.ofNumber op = some .startContainer
  · obtain ⟨-, rfl⟩ | ⟨i, -, rfl⟩ := processRequest_start hstart h
    · rfl
    · exact startAfterReply_images spawnOk (markStarted s i) i
  · replace h := processRequest_other hstart h
    rw [dispatch] at h
    cases hc : CriOp.ofNumber op with
    | none =>
      rw [hc] at h
      obtain ⟨rfl, -⟩ := Prod.mk.inj (Option.some.inj h)
      rfl
    | some c =>
      have hnone := hother c hc
      rw [hc] at h
      cases c
      case startContainer => exact absurd hc hstart
      case pullImage | removeImage | imageStatus | listImage => cases hnone
      case runSandbox =>
        obtain ⟨sandboxes, nextId, timestamp, hs⟩ := runSandbox_frame s request
        rw [Option.some.inj h] at hs
        dsimp only at hs
        rw [hs]
      case createContainer =>
        obtain ⟨containers, nextId, timestamp, hs⟩ := createContainer_frame s request
        rw [Option.some.inj h] at hs
        dsimp only at hs
        rw [hs]
      case removeContainer =>
        obtain ⟨containers, hs⟩ := removeContainer_frame s request
        rw [Option.some.inj h] at hs
        dsimp only at hs
        rw [hs]
      case stopContainer =>
        obtain ⟨-, rfl⟩ | ⟨i, -, ⟨-, -, rfl⟩ | ⟨-, ⟨-, m, -, rfl⟩ | ⟨-, -, m, -, rfl⟩⟩⟩ :=
          stopContainer_cases h
        all_goals rfl
      all_goals
        obtain ⟨rfl, -⟩ := Prod.mk.inj (Option.some.inj h)
        rfl

/-- An event leaves the table as it is, or is a request on it. -/
theorem step_images {e : Event M} (h : step cfg port s e = some s') :
    s'.images = s.images ∨
    ∃ op request spawnOk, e = .request (ImageOp.criOp op).number request spawnOk ∧
      imageStep s.images ⟨orchestratorCriImageExists s request.image, op, request⟩ =
        some s'.images := by
  cases e with
  | shell | fsReply | notifiedMonitor | yield | fsMounted | imageProbed | monitor =>
    exact Or.inl (step_settles h nofun).images
  | request op request spawnOk =>
    obtain ⟨⟨s₁, response, result⟩, hreq, rfl⟩ := Option.map_eq_some_iff.mp h
    by_cases himage : ∃ c iop, CriOp.ofNumber op = some c ∧ ImageOp.ofCriOp c = some iop
    · obtain ⟨c, iop, hc, hiop⟩ := himage
      have hop := CriOp.eq_of_ofNumber hc
      rw [← ImageOp.criOp_of_ofCriOp hiop] at hop
      subst hop
      refine Or.inr ⟨iop, request, spawnOk, rfl, ?_⟩
      have hstart : CriOp.ofNumber iop.criOp.number ≠ some .startContainer := by
        cases iop <;> decide
      have hdispatch := processRequest_other hstart hreq
      rw [dispatch_image] at hdispatch
      exact congrArg (fun r => some r.1.images) (Option.some.inj hdispatch)
    · refine Or.inl (processRequest_images hreq fun c hc => ?_)
      cases hiop : ImageOp.ofCriOp c with
      | none => rfl
      | some iop => exact absurd ⟨c, iop, hc, hiop⟩ himage

end

/-! ## Every run -/

/-- An accepted pull of the runtime names the image by its id. -/
def RequestsById (s : State M) : Event M → Prop
  | .request op request _ => op = CriOp.pullImage.number →
    orchestratorCriImageExists s request.image = true → imageId request.image = request.image
  | _ => True

/-- Until the first wrong pull the runtime is a run on its image table. -/
theorem images_of_reaches {cfg : Config} {port : Port M} {m : M} {s : State M}
    (h : Reaches (step cfg port) RequestsById { monitor := m } s) :
    Reaches imageStep PullsById (fun _ => {}) s.images := by
  refine h.invariant (I := fun s => Reaches imageStep PullsById (fun _ => {}) s.images) .refl ?_
  intro s e s' hI hok hs
  obtain hsame | ⟨op, request, spawnOk, rfl, hstep⟩ := step_images hs
  · rw [hsame]
    exact hI
  · refine hI.tail (fun hop haccepted => ?_) hstep
    obtain rfl : op = .pull := hop
    exact hok rfl haccepted

/-- No two images of the runtime have one id, and an image removed by a name is not found by
it any more. -/
structure ImagesKeyed (cfg : Config) (port : Port M) (s : State M) : Prop where
  distinct : ∀ i j, (s.images i).present = true → (s.images j).present = true →
    (s.images i).id = (s.images j).id → i = j
  removed : ∀ (n : List UInt8) (request request' : CriObject),
    request.id = n → request.image = n → request'.id = n → request'.image = n →
    ∀ spawnOk s₁ response,
      processRequest cfg port spawnOk s CriOp.removeImage.number request =
        some (s₁, response, .ok) →
      ∀ spawnOk', ∃ response',
        processRequest cfg port spawnOk' s₁ CriOp.imageStatus.number request' =
          some (s₁, response', .notFound)

theorem processRequest_image (cfg : Config) (port : Port M) (spawnOk : Bool) (s : State M)
    (op : ImageOp) (request : CriObject) :
    processRequest cfg port spawnOk s op.criOp.number request =
      some ({ s with
          images := (imageDispatch (orchestratorCriImageExists s request.image) s.images request
            op).1 },
        (imageDispatch (orchestratorCriImageExists s request.image) s.images request op).2) := by
  have hstart : CriOp.ofNumber op.criOp.number ≠ some .startContainer := by
    cases op <;> decide
  rw [processRequest, dispatch_image, Option.map_some]
  dsimp only
  rw [if_neg fun h => hstart h.1]

theorem Keyed.requests {cfg : Config} {port : Port M} {s : State M} (h : Keyed s.images) :
    ImagesKeyed cfg port s where
  distinct := h.distinct
  removed n request request' hid himage hid' himage' spawnOk s₁ response hremove spawnOk' := by
    replace hremove :=
      (processRequest_image cfg port spawnOk s .remove request).symm.trans hremove
    obtain ⟨rfl, hanswer⟩ := Prod.mk.inj (Option.some.inj hremove)
    have hnotFound := h.removed (orchestratorCriImageExists s request.image)
      (orchestratorCriImageExists s request'.image) n request request' hid himage hid' himage' rfl
    exact ⟨_, (processRequest_image cfg port spawnOk' _ .status request').trans
      (congrArg some (Prod.ext rfl (Prod.ext rfl hnotFound)))⟩

/-- Whatever names are accepted, the table is keyed by id in every state of a run in which the
accepted pulls name their images by id, and in no state with an image of another name.  The
runtime's table is such a run. -/
theorem imagesKeyed (cfg : Config) (port : Port M) (m : M) :
    (∀ images, Reaches imageStep PullsById (fun _ => {}) images → Keyed images) ∧
    (∀ images, Reaches imageStep anyEvent (fun _ => {}) images →
      (Keyed images ↔ NamedById images)) ∧
    ∀ s, Reaches (step cfg port) RequestsById { monitor := m } s → ImagesKeyed cfg port s := by
  have hkeyed : ∀ images, Reaches imageStep PullsById (fun _ => {}) images → Keyed images :=
    fun images h => (keyed_iff (.of_reaches h)).mpr (.of_reaches h)
  refine ⟨hkeyed, fun images h => keyed_iff (.of_reaches h), fun s h => ?_⟩
  exact (hkeyed s.images (images_of_reaches h)).requests

/-- The image is found, and pulled by its reference. -/
def pulledByRefRun : List (Event Unit) :=
  [.imageProbed true, .request CriOp.pullImage.number { image := k8sCHelloImageRef } true]

def pulledByRef : State Unit :=
  (run (step noPorts silentPort) { monitor := () } pulledByRefRun).get (by decide +kernel)

theorem run_pulledByRef :
    run (step noPorts silentPort) { monitor := () } pulledByRefRun = some pulledByRef :=
  (Option.some_get _).symm

theorem pulledByRefRun_byId : ∀ e ∈ pulledByRefRun, ∀ s : State Unit, RequestsById s e := by
  intro e he s
  obtain rfl | rfl : e = _ ∨ e = _ := by simpa [pulledByRefRun] using he
  · trivial
  · exact fun _ _ => by decide +kernel

theorem imagesKeyed_pulledByRef :
    ImagesKeyed noPorts silentPort pulledByRef ∧ (pulledByRef.images 0).present = true :=
  ⟨(imagesKeyed noPorts silentPort ()).2.2 pulledByRef
    (reaches_of_run (runMeets_of_forall _ pulledByRefRun_byId _) run_pulledByRef),
    by decide +kernel⟩

/-! ## Two spellings -/

/-- It is pulled by its plain name as well. -/
def pulledTwiceRun : List (Event Unit) :=
  [.imageProbed true, .request CriOp.pullImage.number { image := k8sCHelloImage } true,
    .request CriOp.pullImage.number { image := k8sCHelloImageRef } true]

def pulledTwice : State Unit :=
  (run (step noPorts silentPort) { monitor := () } pulledTwiceRun).get (by decide +kernel)

theorem run_pulledTwice :
    run (step noPorts silentPort) { monitor := () } pulledTwiceRun = some pulledTwice :=
  (Option.some_get _).symm

/-- The image by its plain name, as the shim asks for it. -/
def plainImage : CriObject := { id := k8sCHelloImage, image := k8sCHelloImage }

/-- Both spellings are in the table under one id, and removing the plain name leaves it there. -/
theorem not_imagesKeyed :
    (¬ ∀ s : State Unit, Reaches (step noPorts silentPort) anyEvent { monitor := () } s →
      ∀ i j, (s.images i).present = true → (s.images j).present = true →
        (s.images i).id = (s.images j).id → i = j) ∧
    ¬ ∀ s : State Unit, Reaches (step noPorts silentPort) anyEvent { monitor := () } s →
      ∀ (n : List UInt8) (request : CriObject), request.id = n → request.image = n →
      ∀ s₁ response,
        processRequest noPorts silentPort true s CriOp.removeImage.number request =
          some (s₁, response, .ok) →
        ∃ response', processRequest noPorts silentPort true s₁ CriOp.imageStatus.number request =
          some (s₁, response', .notFound) := by
  have hreach : Reaches (step noPorts silentPort) anyEvent { monitor := () } pulledTwice :=
    reaches_of_run (runMeets_anyEvent _ _ _) run_pulledTwice
  constructor
  · intro hclaim
    exact absurd (hclaim pulledTwice hreach 0 1 (by decide +kernel) (by decide +kernel)
      (by decide +kernel)) (by decide)
  · intro hclaim
    obtain ⟨response', hstatus⟩ := hclaim pulledTwice hreach k8sCHelloImage plainImage rfl rfl _ _
      (processRequest_image noPorts silentPort true pulledTwice .remove plainImage)
    replace hstatus :=
      (processRequest_image noPorts silentPort true _ .status plainImage).symm.trans hstatus
    have hresult : (imageDispatch true (imageDispatch true pulledTwice.images plainImage .remove).1
        plainImage .status).2.2 = .notFound :=
      congrArg (fun r => r.2.2) (Option.some.inj hstatus)
    exact absurd hresult (by decide +kernel)

end Orchestrator
end Carrels
