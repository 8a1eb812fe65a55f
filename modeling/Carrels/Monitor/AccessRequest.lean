/-
The access request of a deployment (`service/service_installer.c`).

The installer appends the resources of one service after the other to three lists of 64
places each.  It reads a record where it lies, and after the service's data file has been
stored; the file goes where the section table of the image says, which may be over a record
of the service table.  As long as no answer is stored over a planned record, the request is
the one of the records as they were when the installer began.
-/
import Carrels.Monitor.ImageIntegrity

namespace Carrels
namespace Monitor

open ByteMemory PicoVfs StepSystem

/-! ## The request of a plan -/

/-- `SVC_RESOURCE_CHANNEL_NOTIFY` -/
def channelNotify : BitVec 8 := 1

/-- `SVC_RESOURCE_CHANNEL_PPC` -/
def channelPpc : BitVec 8 := 2

/-- `SVC_RESOURCE_MAP` -/
def resourceMap : BitVec 8 := 3

/-- The resources of the services whose path is short enough, in the order of the plan. -/
def installedResources (m : Mem) (services : List Nat) : List SvcResource :=
  (services.filter fun svc => (svcPathLen m svc).toNat < svcMaxPathLen).flatMap (svcResources m)

/-- The values of one kind. -/
def valuesOf (kind : BitVec 8) (resources : List SvcResource) : List (BitVec 64) :=
  (resources.filter fun r => r.kind = kind).map SvcResource.value

/-- The first 64 values of each of the three kinds. -/
def requestOf (resources : List SvcResource) : XrtReq where
  notifications := (valuesOf channelNotify resources).take maxXrtReqs
  ppcs := (valuesOf channelPpc resources).take maxXrtReqs
  mappings := (valuesOf resourceMap resources).take maxXrtReqs

/-- What is serialised grants the first 64 values of each kind among the services' resources in
memory `m` and nothing else, and its header counts them. -/
structure Grants (m : Mem) (services : List Nat) (req : SerialisedXrtReq) : Prop where
  notifications : req.list.notifications =
    (valuesOf channelNotify (installedResources m services)).take maxXrtReqs
  ppcs : req.list.ppcs = (valuesOf channelPpc (installedResources m services)).take maxXrtReqs
  mappings : req.list.mappings =
    (valuesOf resourceMap (installedResources m services)).take maxXrtReqs
  irqs : req.list.irqs = []
  ioports : req.list.ioports = []
  total : req.totalNum =
    req.list.notifications.length + req.list.ppcs.length + req.list.mappings.length

/-- The records of the services are well formed. -/
def WellFormed (m : Mem) (services : List Nat) : Prop :=
  ∀ svc ∈ services, (serviceSize m svc).isSome = true

/-- Every protocon was started with a request that grants what its planned services have, as
their records were when the installer began. -/
def GrantsPlanned (s : State) : Prop :=
  ∀ r ∈ s.starts, WellFormed r.loaded r.plan.serviceSources →
    ∃ req, r.request = some req ∧ Grants r.loaded r.plan.serviceSources req

/-- What an answer to a deployment stores does not lie over a record that is planned for it. -/
def MissesRecords (s : State) : Event → Prop
  | .resume id answer _ => ∀ file ∈ s.blockedIn id, ∀ st ∈ (file.2.resume answer).1,
      ∀ source ∈ file.1.plan.serviceSources, ∀ k ∈ serviceSize file.1.loaded source,
        st.1 + st.2.length ≤ source ∨ source + k ≤ st.1
  | _ => True

theorem grants_requestOf (m : Mem) (services : List Nat) :
    Grants m services (requestOf (installedResources m services)).serialised :=
  ⟨rfl, rfl, rfl, rfl, rfl, rfl⟩

instance (m : Mem) (services : List Nat) : Decidable (WellFormed m services) :=
  inferInstanceAs (Decidable (∀ svc ∈ services, (serviceSize m svc).isSome = true))

instance decidableMissesRecords (s : State) : ∀ e, Decidable (MissesRecords s e)
  | .resume id answer _ => inferInstanceAs (Decidable (∀ file ∈ s.blockedIn id,
      ∀ st ∈ (file.2.resume answer).1, ∀ source ∈ file.1.plan.serviceSources,
        ∀ k ∈ serviceSize file.1.loaded source, st.1 + st.2.length ≤ source ∨ source + k ≤ st.1))
  | .call .. | .fault .. | .payload .. => .isTrue trivial

/-! ## The loops -/

/-- A list of the request after one resource: the value, if it is of this kind and the list is
not full. -/
def appendValue (kind : BitVec 8) (l : List (BitVec 64)) (r : SvcResource) : List (BitVec 64) :=
  if r.kind = kind then if maxXrtReqs ≤ l.length then l else l ++ [r.value] else l

theorem appendResource_eq (xrt : XrtReq) (r : SvcResource) :
    appendResource xrt r =
      { xrt with
        notifications := appendValue channelNotify xrt.notifications r
        ppcs := appendValue channelPpc xrt.ppcs r
        mappings := appendValue resourceMap xrt.mappings r } := by
  have hkinds : channelNotify ≠ channelPpc ∧ channelNotify ≠ resourceMap ∧
      channelPpc ≠ resourceMap := by decide
  unfold appendValue
  show (if r.kind = channelNotify then _ else if r.kind = channelPpc then _ else
    if r.kind = resourceMap then _ else _) = _
  by_cases hnotify : r.kind = channelNotify
  · rw [hnotify, if_pos rfl, if_pos rfl, if_neg hkinds.1, if_neg hkinds.2.1]
    split <;> rfl
  by_cases hppc : r.kind = channelPpc
  · rw [hppc, if_neg hkinds.1.symm, if_pos rfl, if_neg hkinds.1.symm, if_pos rfl,
      if_neg hkinds.2.2]
    split <;> rfl
  by_cases hmap : r.kind = resourceMap
  · rw [if_neg hnotify, if_neg hppc, if_pos hmap, if_neg hnotify, if_neg hppc, if_pos hmap]
    split <;> rfl
  · rw [if_neg hnotify, if_neg hppc, if_neg hmap, if_neg hnotify, if_neg hppc, if_neg hmap]

theorem appendValue_take (kind : BitVec 8) (resources : List SvcResource) (r : SvcResource) :
    appendValue kind ((valuesOf kind resources).take maxXrtReqs) r =
      (valuesOf kind (resources ++ [r])).take maxXrtReqs := by
  rw [valuesOf, valuesOf, List.filter_append, List.map_append, appendValue]
  generalize (resources.filter fun r => r.kind = kind).map SvcResource.value = values
  by_cases hkind : r.kind = kind
  · rw [if_pos hkind, List.filter_cons_of_pos (by simpa using hkind), List.filter_nil,
      List.map_singleton, List.length_take]
    by_cases hfull : maxXrtReqs ≤ values.length
    · rw [if_pos (by omega), List.take_append_of_le_length hfull]
    · rw [if_neg (by omega), List.take_of_length_le (by omega), List.take_of_length_le]
      rw [List.length_append, List.length_singleton]
      omega
  · rw [if_neg hkind, List.filter_cons_of_neg (by simpa using hkind), List.filter_nil,
      List.map_nil, List.append_nil]

theorem appendResource_requestOf (resources : List SvcResource) (r : SvcResource) :
    appendResource (requestOf resources) r = requestOf (resources ++ [r]) := by
  rw [appendResource_eq, requestOf, requestOf]
  simp only [appendValue_take]

theorem foldl_appendResource (before resources : List SvcResource) :
    resources.foldl appendResource (requestOf before) = requestOf (before ++ resources) := by
  induction resources generalizing before with
  | nil => rw [List.foldl_nil, List.append_nil]
  | cons r rest ih =>
    rw [List.foldl_cons, appendResource_requestOf, ih, List.append_assoc, List.singleton_append]

/-- One service: its resources, or nothing if its path is too long. -/
def appendService (m : Mem) (xrt : XrtReq) (svc : Nat) : XrtReq :=
  if svcMaxPathLen ≤ (svcPathLen m svc).toNat then xrt else serviceInstallerAppendAcrtreq m xrt svc

theorem foldl_appendService (m : Mem) (before : List SvcResource) (services : List Nat) :
    services.foldl (appendService m) (requestOf before) =
      requestOf (before ++ installedResources m services) := by
  induction services generalizing before with
  | nil => rw [List.foldl_nil, installedResources, List.filter_nil, List.flatMap_nil,
      List.append_nil]
  | cons svc rest ih =>
    rw [List.foldl_cons, appendService]
    by_cases hlong : svcMaxPathLen ≤ (svcPathLen m svc).toNat
    · rw [if_pos hlong, ih, installedResources, installedResources,
        List.filter_cons_of_neg (by simpa using hlong)]
    · rw [if_neg hlong, serviceInstallerAppendAcrtreq, foldl_appendResource, ih,
        List.append_assoc, installedResources, installedResources,
        List.filter_cons_of_pos (by simpa using hlong), List.flatMap_cons]

/-! ## The installer -/

/-- The installer reads the same of the record in both memories. -/
structure SameRecord (m m' : Mem) (svc : Nat) : Prop where
  pathLen : svcPathLen m' svc = svcPathLen m svc
  resources : svcResources m' svc = svcResources m svc

/-- The request an installer will end with that finds the records of memory `m`, if it has these
services left, this request so far and this file open. -/
def requestAfter (m : Mem) (todo : List (Nat × Nat)) (xrt : XrtReq) :
    Option (Nat × Reader) → XrtReq
  | none => (todo.map Prod.snd).foldl (appendService m) xrt
  | some (svc, _) =>
    (todo.map Prod.snd).foldl (appendService m) (serviceInstallerAppendAcrtreq m xrt svc)

def Installing.requestIn (m : Mem) (w : Installing) : XrtReq :=
  requestAfter m w.todo w.xrt w.reader

section

variable {m m' : Mem} {w w' : Installing} {svc : Nat}

theorem SameRecord.append (h : SameRecord m m' svc) (xrt : XrtReq) :
    serviceInstallerAppendAcrtreq m' xrt svc = serviceInstallerAppendAcrtreq m xrt svc := by
  rw [serviceInstallerAppendAcrtreq, serviceInstallerAppendAcrtreq, h.resources]

theorem installerLoop_request {elfBase eEntry : BitVec 64} {todo : List (Nat × Nat)}
    (h : ∀ svc ∈ todo.map Prod.snd, SameRecord m m' svc) (xrt : XrtReq) :
    requestAfter m (installerLoop m' elfBase eEntry todo xrt).1
        (installerLoop m' elfBase eEntry todo xrt).2.1
        (installerLoop m' elfBase eEntry todo xrt).2.2 = requestAfter m todo xrt none := by
  induction todo generalizing xrt with
  | nil => rfl
  | cons head rest ih =>
    obtain ⟨entry, svc⟩ := head
    rw [List.map_cons, List.forall_mem_cons] at h
    rw [installerLoop, requestAfter, List.map_cons, List.foldl_cons, appendService, h.1.pathLen]
    by_cases hlong : svcMaxPathLen ≤ (svcPathLen m svc).toNat
    · rw [if_pos hlong, if_pos hlong]
      exact ih h.2 xrt
    · rw [if_neg hlong, if_neg hlong]
      by_cases htarget : serviceInstallerElfGetSecWithVaddr m' elfBase
          (read64 m' (entry + 4) + eEntry) = 0
      · simp only [if_pos htarget, h.1.append]
        exact ih h.2 _
      · simp only [if_neg htarget]
        rfl

/-- The services the frame has not appended yet. -/
def Installing.pending (w : Installing) : List Nat :=
  (w.reader.map Prod.fst).toList ++ w.todo.map Prod.snd

theorem installerLoop_pending {elfBase eEntry : BitVec 64} {todo : List (Nat × Nat)}
    {xrt : XrtReq} :
    ∀ svc ∈ ((installerLoop m elfBase eEntry todo xrt).2.2.map Prod.fst).toList ++
      (installerLoop m elfBase eEntry todo xrt).1.map Prod.snd, svc ∈ todo.map Prod.snd := by
  induction todo generalizing xrt with
  | nil => exact fun _ h => h
  | cons head rest ih =>
    obtain ⟨entry, svc⟩ := head
    rw [installerLoop]
    by_cases hlong : svcMaxPathLen ≤ (svcPathLen m svc).toNat
    · rw [if_pos hlong]
      exact fun p hp => List.mem_cons_of_mem _ (ih p hp)
    · rw [if_neg hlong]
      by_cases htarget : serviceInstallerElfGetSecWithVaddr m elfBase
          (read64 m (entry + 4) + eEntry) = 0
      · simp only [if_pos htarget]
        exact fun p hp => List.mem_cons_of_mem _ (ih p hp)
      · simp only [if_neg htarget]
        exact fun _ h => h

/-- Going on to the next file does not change the request the installer will end with. -/
theorem serviceInstallerNext_request (h : ∀ svc ∈ w.pending, SameRecord m m' svc) :
    (serviceInstallerNext m' w).requestIn m = w.requestIn m := by
  unfold serviceInstallerNext
  by_cases hreader : w.reader.isSome = true
  · rw [if_pos hreader]
  · have hnone : w.reader = none := Option.not_isSome_iff_eq_none.mp hreader
    rw [if_neg hreader]
    show requestAfter m (installerLoop m' w.elfBase w.plan.req.payloadEEntry w.todo w.xrt).1 _ _ =
      requestAfter m w.todo w.xrt w.reader
    rw [hnone]
    refine installerLoop_request (fun svc hsvc => h svc ?_) w.xrt
    exact List.mem_append_right _ hsvc

theorem serviceInstallerNext_pending (m : Mem) (w : Installing) :
    ∀ svc ∈ (serviceInstallerNext m w).pending, svc ∈ w.pending := by
  unfold serviceInstallerNext
  by_cases hreader : w.reader.isSome = true
  · rw [if_pos hreader]
    exact fun _ h => h
  · rw [if_neg hreader]
    exact fun svc hsvc => List.mem_append_right _ (installerLoop_pending svc hsvc)

/-- Neither does an answer, after whose stores the record is read. -/
theorem serviceInstallerResume_request {r : Reader} {answer : Completion}
    {stores : List (Nat × List UInt8)} (hreader : w.reader = some (svc, r))
    (hresume : serviceInstallerResume m' w svc r answer = some (stores, w'))
    (h : SameRecord m (writes m' stores) svc) :
    w'.requestIn m = w.requestIn m ∧ ∀ p ∈ w'.pending, p ∈ w.pending := by
  rw [Installing.requestIn, Installing.requestIn, Installing.pending, Installing.pending, hreader]
  unfold serviceInstallerResume at hresume
  cases houtcome : r.resume answer with
  | mk stores' outcome =>
    rw [houtcome] at hresume
    cases outcome with
    | waiting r =>
      obtain ⟨rfl, rfl⟩ := Prod.mk.inj (Option.some.inj hresume)
      exact ⟨rfl, fun _ hp => hp⟩
    | returned size err =>
      obtain ⟨rfl, rfl⟩ := Prod.mk.inj (Option.some.inj hresume)
      dsimp only [requestAfter]
      rw [h.append]
      exact ⟨rfl, fun _ hp => List.mem_cons_of_mem _ hp⟩
    | asserted => cases hresume

end

/-! ## A deployment in progress -/

theorem planSources_spec {m : Mem} {quota : ResourceQuota} {entries sources : List Nat}
    {cursor : Nat → BitVec 32} (h : planSources m quota entries cursor = some sources) :
    sources.length = entries.length ∧
      ∀ source ∈ sources, ∃ type i, quota.availServiceRefs type i = some source := by
  induction entries generalizing cursor sources with
  | nil =>
    obtain rfl := Option.some.inj h
    exact ⟨rfl, fun _ hp => absurd hp List.not_mem_nil⟩
  | cons entry rest ih =>
    obtain ⟨source, hsource, h⟩ := Option.bind_eq_some_iff.mp h
    obtain ⟨tail, htail, h⟩ := Option.bind_eq_some_iff.mp h
    obtain rfl := Option.some.inj h
    obtain ⟨hlength, hmem⟩ := ih htail
    exact ⟨congrArg Nat.succ hlength, List.forall_mem_cons.mpr ⟨⟨_, _, hsource⟩, hmem⟩⟩

/-- The frame `w` in memory `m`: its services are records of the table, the well-formed ones
among them are as they were when the installer began, and so is the request it will end with. -/
structure Installing.OnCourse (m : Mem) (w : Installing) : Prop where
  table : ∀ p ∈ w.plan.serviceSources, svcTableBase ≤ p
  pending : ∀ p ∈ w.pending, p ∈ w.plan.serviceSources
  kept : ∀ p ∈ w.plan.serviceSources, ∀ k, serviceSize w.loaded p = some k →
    AgreeOn p k w.loaded m
  request : WellFormed w.loaded w.plan.serviceSources →
    w.requestIn w.loaded = requestOf (installedResources w.loaded w.plan.serviceSources)

namespace Installing.OnCourse

variable {m m' : Mem} {w w' : Installing} {svc : Nat}

theorem sameRecord (h : w.OnCourse m) (hwell : WellFormed w.loaded w.plan.serviceSources) {p : Nat}
    (hp : p ∈ w.pending) : SameRecord w.loaded m p := by
  have hsource := h.pending p hp
  obtain ⟨k, hk⟩ := Option.isSome_iff_exists.mp (hwell p hsource)
  obtain ⟨hlen, hresources⟩ := svcRecord_congr hk (h.kept p hsource k hk)
  exact ⟨hlen, hresources⟩

theorem of_table (h : w.OnCourse m) (hm : ∀ x, svcTableBase ≤ x → m x = m' x) : w.OnCourse m' :=
  ⟨h.table, h.pending, fun p hp k hk =>
    (h.kept p hp k hk).trans fun x hl _ => hm x (Nat.le_trans (h.table p hp) hl), h.request⟩

theorem next (h : w.OnCourse m) : (serviceInstallerNext m w).OnCourse m := by
  have hext := serviceInstallerNext_extends m w
  have hpending := serviceInstallerNext_pending m w
  have hrequest := fun hwell => serviceInstallerNext_request (w := w) fun p hp =>
    h.sameRecord hwell hp
  generalize serviceInstallerNext m w = w' at hext hpending hrequest
  obtain ⟨hplan, -, -, hloaded, -⟩ := hext
  refine ⟨?_, ?_, ?_, ?_⟩
  all_goals rw [hplan]
  · exact h.table
  · exact fun p hp => h.pending p (hpending p hp)
  · rw [hloaded]
    exact h.kept
  · rw [hloaded]
    exact fun hwell => (hrequest hwell).trans (h.request hwell)

/-- The stores of an answer that miss the planned records. -/
theorem answer (h : w.OnCourse m) {r : Reader} {answer : Completion}
    {stores : List (Nat × List UInt8)} (hreader : w.reader = some (svc, r))
    (hresume : serviceInstallerResume m w svc r answer = some (stores, w'))
    (hmiss : ∀ st ∈ stores, ∀ p ∈ w.plan.serviceSources, ∀ k, serviceSize w.loaded p = some k →
      st.1 + st.2.length ≤ p ∨ p + k ≤ st.1) : w'.OnCourse (writes m stores) := by
  obtain ⟨hplan, -, -, hloaded, -⟩ := serviceInstallerResume_extends hresume
  have hkept : w.OnCourse (writes m stores) :=
    ⟨h.table, h.pending, fun p hp k hk x hl hr => ((h.kept p hp k hk) x hl hr).trans
      (agreeOn_writes (fun st hst => hmiss st hst p hp k hk) m x hl hr).symm, h.request⟩
  have hfile : svc ∈ w.pending := by
    rw [Installing.pending, hreader]
    exact List.mem_cons_self
  have hnext := fun hwell => serviceInstallerResume_request hreader hresume
    (hkept.sameRecord hwell hfile)
  have hpending := (serviceInstallerResume_request (m := writes m stores) hreader hresume
    ⟨rfl, rfl⟩).2
  refine ⟨?_, ?_, ?_, ?_⟩
  all_goals rw [hplan]
  · exact h.table
  · exact fun p hp => h.pending p (hpending p hp)
  · rw [hloaded]
    exact hkept.kept
  · rw [hloaded]
    exact fun hwell => (hnext hwell).1.trans (h.request hwell)

end Installing.OnCourse

theorem Installing.begin_onCourse {P : Platform} {svc : Svc} (hP : P.Initialised svc) {m m₀ : Mem}
    {info : PayloadInfo} {branch : Branch} {plan : DeployPlan}
    (hplan : planFor P m₀ plan.req plan.pcId = some plan) :
    (Installing.begin P m info branch plan).OnCourse m := by
  obtain ⟨sources, hsources, hplan⟩ := Option.bind_eq_some_iff.mp hplan
  obtain ⟨hlength, hmem⟩ := planSources_spec hsources
  obtain rfl : sources = plan.serviceSources :=
    congrArg DeployPlan.serviceSources (Option.some.inj hplan)
  have htodo : (plan.req.serviceEntries.zip plan.serviceSources).map Prod.snd =
      plan.serviceSources := List.map_snd_zip (Nat.le_of_eq hlength)
  refine ⟨fun p hp => ?_, fun p hp => ?_, fun p _ k _ => .refl p k m, fun _ => ?_⟩
  · obtain ⟨type, i, href⟩ := hmem p hp
    exact hP.svcTableBase_le (hP.mem_services href)
  · exact (congrArg (p ∈ ·) htodo).mp hp
  · show ((plan.req.serviceEntries.zip plan.serviceSources).map Prod.snd).foldl
      (appendService m) (requestOf []) = _
    rw [htodo]
    exact foldl_appendService m [] plan.serviceSources

/-! ## Every action -/

structure GrantInv (s : State) : Prop where
  started : GrantsPlanned s
  installing : ∀ id c w, s.cothreads id = some c → c.point = .installing w → w.OnCourse s.mem

section

variable {P : Platform} {svc : Svc} {env : Env} {s s' : State}

/-- The image regions and the payload region lie below the service table. -/
theorem fill_containerImage_table {c x : Nat} (hc : c < pcChildMaxNum) (hx : svcTableBase ≤ x)
    (m : Mem) (v : UInt8) : m x = fill m (containerImage c) orcMonitorRegionSize v x := by
  refine (agreeOn_fill (n := 1) (Or.inl ?_) m v x (Nat.le_refl x) (Nat.lt_succ_self x)).symm
  unfold pcChildMaxNum at hc
  unfold svcTableBase at hx
  simp only [containerImage, monitorVmRegionBase, containerImageBase, containerImageSize,
    orcMonitorRegionSize]
  omega

theorem overlay_payload_table {x : Nat} (hx : svcTableBase ≤ x) (m : Mem) (f : Nat → UInt8) :
    m x = overlay m payloadStart orcMonitorRegionSize f x := by
  refine (agreeOn_overlay (n := 1) (Or.inl ?_) m f x (Nat.le_refl x) (Nat.lt_succ_self x)).symm
  unfold svcTableBase at hx
  unfold payloadStart orcMonitorRegionSize
  omega

namespace GrantInv

theorem of_idle (hD : DeployInv P s) (hidle : s.deployRequestActive = false)
    (hstarted : GrantsPlanned s) : GrantInv s :=
  ⟨hstarted, fun id c _ hc hw =>
    absurd ⟨c, hc, not_ended_of_installing hw⟩ (hD.not_alive hidle id)⟩

theorem of_table (h : GrantInv s) (hco : s'.cothreads = s.cothreads)
    (hstarts : s'.starts = s.starts) (hmem : ∀ x, svcTableBase ≤ x → s.mem x = s'.mem x) : GrantInv s' :=
  ⟨fun r hr => h.started r (hstarts ▸ hr), fun id c w hc hw =>
    (h.installing id c w (hco ▸ hc) hw).of_table hmem⟩

theorem spawn (hD : DeployInv P s) (hidle : s.deployRequestActive = false) (hI : GrantInv s)
    (hco : s'.cothreads = s.cothreads) (hstarts : s'.starts = s.starts) : GrantInv s'.spawn := by
  refine ⟨fun r hr => hI.started r (hstarts ▸ hr), fun i d w hd hw => ?_⟩
  rcases State.spawn_cases hd with hrun | hd
  · exact absurd (hrun.symm.trans hw) (by simp)
  · rw [hco] at hd
    exact absurd ⟨d, hd, not_ended_of_installing hw⟩ (hD.not_alive hidle i)

/-- The cothread that works has this frame now, and no other has one. -/
theorem setPoint (hD : DeployInv P s) {id : Nat} {c : Cothread} {pt : Point}
    (hc : s.cothreads id = some c) (ha : c.alive) (hco : s'.cothreads = s.cothreads)
    (hstarts : GrantsPlanned s') (hpt : ∀ w, pt = .installing w → w.OnCourse s'.mem) :
    GrantInv (s'.setPoint id pt) := by
  refine ⟨hstarts, fun i d w hd hw => ?_⟩
  rcases State.setPoint_cases (hco ▸ hc) hd with ⟨-, rfl⟩ | ⟨hi, hd⟩
  · exact hpt w hw
  · exact (hD.not_installing hc ha hi (hco ▸ hd) hw).elim

/-- The request of an installer that is through is in the page. -/
theorem start (hI : GrantInv s) {id : Nat} {c : Cothread} {w : Installing}
    (hc : s.cothreads id = some c) (hw : c.point = .installing w) (hdone : w.Done s) :
    GrantsPlanned (s.started id w) := by
  intro r hr hwell
  rcases List.mem_cons.mp hr with rfl | hr
  · have hrequest := (hI.installing _ _ _ hc hw).request hwell
    rw [Installing.requestIn, hdone.todo, hdone.reader] at hrequest
    have hxrt : w.xrt = requestOf (installedResources w.loaded w.plan.serviceSources) := hrequest
    refine ⟨_, hdone.request, ?_⟩
    rw [hxrt]
    exact grants_requestOf _ _
  · exact hI.started r hr hwell

end GrantInv

theorem Control.grantInv {e : Event} (hI : GrantInv s) (h : Control P s e s') : GrantInv s' := by
  cases h with
  | idle | notify | flip | suspend | resume | faultStop => exact ⟨hI.1, hI.2⟩
  | setAcl =>
      rw [monitorCallSetVswitchAcl_frame]
      exact ⟨hI.1, hI.2⟩
  | stop _ _ hc =>
      rw [State.stopAndRestored, monitorAclReleaseProtocon_frame]
      exact hI.of_table rfl rfl fun x hx => fill_containerImage_table hc hx s.mem 0
  | faultRestore hc =>
      exact hI.of_table rfl rfl fun x hx =>
        fill_containerImage_table (Nat.lt_of_lt_of_le hc P.numPc_le) hx s.mem 0
  | payload => exact hI.of_table rfl rfl fun x hx => overlay_payload_table hx s.mem _

theorem Accept.grantInv (hD : DeployInv P s) (hI : GrantInv s) {id : CallId}
    (h : Accept P s id s') : GrantInv s' := by
  have hD' := h.deployInv hD
  cases h with
  | accept hidle => exact hI.spawn hD hidle rfl rfl
  | acceptTargeted hidle => exact hI.spawn hD hidle rfl rfl
  | refuse => exact .of_idle hD' rfl hI.started
  | refuseTargeted => exact .of_idle hD' rfl hI.started

theorem Answer.grantInv (hD : DeployInv P s) (hI : GrantInv s) {id : Nat} {answer : Completion}
    (hok : MissesRecords s (.resume id answer env)) (h : Answer s id answer s') : GrantInv s' := by
  cases h with
  | @intro c w w' svc r stores hc hw hreader hresume =>
      obtain ⟨rfl, -⟩ := serviceInstallerResume_frame hresume
      refine .setPoint hD hc (not_ended_of_installing hw) rfl hI.started fun w'' hw'' => ?_
      rw [← Point.installing.inj hw'']
      exact (hI.installing _ _ _ hc hw).answer hreader hresume
        (hok (w, r) (State.blockedIn_eq hc hw hreader))

theorem Work.grantInv (hP : P.Initialised svc) (hD : DeployInv P s) (hI : GrantInv s)
    (h : Work P env s s') : GrantInv s' := by
  have hD' := h.deployInv hD
  cases h with
  | select hc hrun _ _ _ _ _ hplan =>
      refine .setPoint hD hc (not_ended_of_running hrun) rfl hI.started fun w hw => ?_
      rw [← Point.installing.inj hw]
      exact Installing.begin_onCourse hP hplan
  | install hc hw =>
      refine .setPoint hD hc (not_ended_of_installing hw) rfl hI.started fun w' hw' => ?_
      rw [← Point.installing.inj hw']
      exact (hI.installing _ _ _ hc hw).next
  | serialise => exact ⟨hI.1, hI.2⟩
  | start hc hw _ hdone =>
      exact .setPoint hD hc (not_ended_of_installing hw) rfl (hI.start hc hw hdone) fun w' hw' =>
        absurd hw' (by simp)
  | startTargeted hc hw _ hdone =>
      refine .of_idle hD' rfl fun r hr => hI.start hc hw hdone r ?_
      rw [finishTargeted_eq, (State.concluded_frame _ env _).1] at hr
      exact hr
  | finish => exact .of_idle hD' rfl hI.started
  | failTargeted =>
      refine .of_idle hD' rfl fun r hr => hI.started r ?_
      rw [finishTargeted_eq, (s.concluded_frame env _).1] at hr
      exact hr

end

/-! ## Every run -/

/-- In a run in which no answer to a deployment is stored over a record planned for it, the
requests grant what the planned services have. -/
theorem serialisedRequest {P : Platform} {svc : Svc} (hP : P.Initialised svc) {s : State}
    (h : Reaches (step P) MissesRecords (caMonitorInitStates P) s) : GrantsPlanned s := by
  refine (reaches_of_answers (I := GrantInv) ?_ (fun _ _ _ _ hI hs => hs.grantInv hI)
    (fun _ _ _ _ _ hD hI hok hs => hs.grantInv hD hI hok)
    (fun _ _ _ hD hI hs => hs.grantInv hD hI)
    (fun _ _ _ hD hI hs => hs.grantInv hP hD hI) h).2.started
  refine .of_idle (caMonitorInitStates_deployInv P) ?_ ?_ <;>
    obtain ⟨m, hm⟩ := caMonitorInitStates_eq P <;> rw [hm]
  exact fun r hr => absurd hr List.not_mem_nil

/-- The data file goes to the image: protocon 0 gets its notification and its mapping. -/
theorem serialisedRequest_patchedState : GrantsPlanned patchedState ∧
    ∃ r ∈ patchedState.starts, WellFormed r.loaded r.plan.serviceSources ∧
      (r.request.map fun req => (req.list.notifications, req.list.mappings, req.totalNum)) =
        some ([7], [9], 2) := by
  have hmeets : RunMeets (step (smallPlatform 2)) MissesRecords
      (caMonitorInitStates (smallPlatform 2)) (blockedRun ++ serveDataFile) := by decide +kernel
  exact ⟨serialisedRequest (smallPlatform_initialised 2)
    (reaches_of_run hmeets (Option.some_get _).symm), by decide +kernel⟩

/-- The data section of the image lies, by its file offset, over the value of the notification
in the record of protocon 0's service; the data file is one byte. -/
def strayRun : List Event :=
  let shOffset := svcTableBase + 20 + svcServiceHeaderSize + 1 - (containerImage 0 + 52)
  [.payload fun i => write (ofList (payloadOf [(0, 0x1000)])) 196 (toLE shOffset 8) i,
    orchestratorCall .deployToProtocon [0, 0, 0] {}] ++
  [{ success := true, fd := 3 }, { success := true }, { success := true, data := [42] },
    { success := true }, { success := true }].map fun c => .resume 0 c {}

def strayState : State :=
  (run (step (smallPlatform 2)) (caMonitorInitStates (smallPlatform 2)) strayRun).get
    (by decide +kernel)

/-- The protocon is granted a notification that no planned service has. -/
theorem not_serialisedRequest :
    ¬ ∀ P svc s, P.Initialised svc → Reaches (step P) anyEvent (caMonitorInitStates P) s →
      GrantsPlanned s := by
  intro h
  have hs := h (smallPlatform 2) smallServices strayState (smallPlatform_initialised 2)
    (reaches_of_run (runMeets_anyEvent _ _ strayRun) (Option.some_get _).symm)
  have hstart : ∃ r ∈ strayState.starts, WellFormed r.loaded r.plan.serviceSources ∧
      (r.request.map fun req => req.list.notifications) = some [42] ∧
      (valuesOf channelNotify (installedResources r.loaded r.plan.serviceSources)).take maxXrtReqs =
        [7] := by
    decide +kernel
  obtain ⟨r, hr, hwell, hrequest, hplanned⟩ := hstart
  obtain ⟨req, hreq, hgrants⟩ := hs r hr hwell
  rw [hreq, Option.map_some, hgrants.notifications, hplanned] at hrequest
  exact absurd hrequest (by decide)

end Monitor
end Carrels
