/-
The payload's manifest, the planner and the installer (`service/service_manifest.c`,
`service/service_planner.c`, `service/service_installer.c`).

The manifest, the payload and the service records lie in memory that the orchestrator or
the installer itself can rewrite, so each function reads them from the memory of the
moment it runs in.  A function is `none` where an assertion fails or the code leaves the
bounds of an array.
-/
import Carrels.Monitor.ServiceTable
import Carrels.Monitor.State

namespace Carrels
namespace Monitor

open ByteMemory

/-! ## Manifest -/

/-- `MANIFEST_MAGIC` -/
def manifestMagic : BitVec 64 := 0x504353564D414E31

/-- `sizeof(service_manifest_header_t)` -/
def manifestHeaderSize : Nat := 24

/-- `sizeof(service_manifest_entry_t)` -/
def manifestEntrySize : Nat := 20

/-- `sizeof(Elf64_Shdr)` -/
def shdrSize : Nat := 64

/-- `SHT_NOBITS` -/
def shtNobits : BitVec 32 := 8

/-- The bound of the arrays of `protocon_svc_req_t` and `deploy_plan_t`. -/
def maxServiceEntries : Nat := 16

/-- `service_manifest_check` -/
def serviceManifestCheck (m : Mem) (header : Nat) : Bool :=
  read64 m header = manifestMagic &&
    (read32 m (header + 12)).toNat =
      manifestHeaderSize + (read32 m (header + 8)).toNat * manifestEntrySize

/-- `service_manifest_header_parse`; `none` is its error return. -/
def serviceManifestHeaderParse (m : Mem) (base : Nat) : Option PayloadInfo :=
  if !serviceManifestCheck m base then none
  else
    let headerPayload := base + (read32 m (base + 12)).toNat
    let eShnum := read16 m (headerPayload + 60)
    let eShstrndx := read16 m (headerPayload + 62)
    if read64 m (headerPayload + 40) = 0 || eShnum = 0 ||
        (read16 m (headerPayload + 58)).toNat != shdrSize || eShstrndx = 0 ||
        eShnum ≤ eShstrndx then none
    else if read64 m (base + 16) = 0 then none
    else
      some
        { headerPayload
          elfPayloadSize := read64 m (base + 16)
          serviceCount := read32 m (base + 8)
          serviceEntries := base + manifestHeaderSize }

/-- `service_manifest_check_type`: from `SERVICE_FILE_SYSTEM` to `SERVICE_DEVICE_I2C`. -/
def serviceManifestCheckType (svcType : BitVec 32) : Bool :=
  svcType.toInt < 5 && -1 < svcType.toInt

/-- The body of the loop of `service_manifest_parse`. -/
def addServiceEntry (m : Mem) (req : ProtoconSvcReq) (entry : Nat) : Option ProtoconSvcReq :=
  let type := read32 m entry
  if !serviceManifestCheckType type then some req
  else if maxServiceEntries ≤ req.serviceEntries.length then none
  else
    some
      { req with
        serviceCountPerType := Function.update req.serviceCountPerType type.toNat
          (req.serviceCountPerType type.toNat + 1)
        serviceEntries := req.serviceEntries ++ [entry] }

/-- `service_manifest_parse` -/
def serviceManifestParse (m : Mem) (info : PayloadInfo) : Option ProtoconSvcReq :=
  let entries := (List.range info.serviceCount.toNat).map fun i =>
    info.serviceEntries + manifestEntrySize * i
  (entries.foldlM (addServiceEntry m)
    { serviceCountPerType := fun _ => 0, serviceEntries := [], payloadEEntry := 0 }).map
      fun req => { req with payloadEEntry := read64 m (info.headerPayload + 24) }

/-- The entry has one of the types the monitor serves. -/
def acceptsEntry (m : Mem) (entry : Nat) : Bool := serviceManifestCheckType (read32 m entry)

/-- The loop of `service_manifest_parse` keeps the accepted entries, in order, and counts
them by type. -/
theorem foldlM_addServiceEntry (m : Mem) (entries : List Nat) (req : ProtoconSvcReq)
    (hroom : req.serviceEntries.length + entries.countP (acceptsEntry m) ≤ maxServiceEntries) :
    entries.foldlM (addServiceEntry m) req = some
      { req with
        serviceCountPerType := fun type => req.serviceCountPerType type +
          BitVec.ofNat 32 (entries.countP fun e => acceptsEntry m e && (read32 m e).toNat == type)
        serviceEntries := req.serviceEntries ++ entries.filter (acceptsEntry m) } := by
  induction entries generalizing req with
  | nil => simp
  | cons e rest ih =>
    rw [List.foldlM_cons]
    cases haccepts : acceptsEntry m e with
    | false =>
      rw [List.countP_cons_of_neg (by simp [haccepts])] at hroom
      have hskip : addServiceEntry m req e = some req := by
        rw [addServiceEntry, if_pos (by simpa [acceptsEntry] using haccepts)]
      simp only [hskip, Option.bind_eq_bind, Option.bind_some, ih req hroom, List.countP_cons,
        haccepts, Bool.false_and, Bool.false_eq_true, if_false, Nat.add_zero,
        List.filter_cons_of_neg, not_false_eq_true]
    | true =>
      rw [List.countP_cons_of_pos haccepts] at hroom
      obtain ⟨req', hadd, hentries, hcounts, hentry⟩ : ∃ req', addServiceEntry m req e = some req' ∧
          req'.serviceEntries = req.serviceEntries ++ [e] ∧
          req'.serviceCountPerType = Function.update req.serviceCountPerType (read32 m e).toNat
            (req.serviceCountPerType (read32 m e).toNat + 1) ∧
          req'.payloadEEntry = req.payloadEEntry := by
        refine ⟨{ req with
          serviceCountPerType := Function.update req.serviceCountPerType (read32 m e).toNat
            (req.serviceCountPerType (read32 m e).toNat + 1)
          serviceEntries := req.serviceEntries ++ [e] }, ?_, rfl, rfl, rfl⟩
        rw [addServiceEntry, if_neg (by simpa [acceptsEntry] using haccepts), if_neg (by omega)]
      have hroom' : req'.serviceEntries.length + rest.countP (acceptsEntry m) ≤
          maxServiceEntries := by
        rw [hentries, List.length_append, List.length_singleton]
        omega
      rw [hadd, Option.bind_eq_bind, Option.bind_some, ih req' hroom', hentries, hcounts, hentry,
        List.filter_cons_of_pos haccepts, List.append_assoc, List.singleton_append]
      congr 2
      funext type
      rw [List.countP_cons, haccepts, Bool.true_and]
      by_cases htype : type = (read32 m e).toNat
      · subst htype
        rw [Function.update_self, if_pos (by simp), BitVec.ofNat_add, BitVec.add_assoc,
          BitVec.add_comm (BitVec.ofNat 32 _)]
        rfl
      · rw [Function.update_of_ne htype, if_neg (by simpa using Ne.symm htype), Nat.add_zero]

/-! ## Planner -/

/-- `service_planner_can_satisfy_request` -/
def servicePlannerCanSatisfyRequest (req : ProtoconSvcReq) (avail : Nat → BitVec 32) : Bool :=
  (List.range svcTypeMaxNum).all fun type => req.serviceCountPerType type ≤ avail type

/-- The second loop of `service_planner_deploy_plan_init`. -/
def planSources (m : Mem) (quota : ResourceQuota) :
    List Nat → (Nat → BitVec 32) → Option (List Nat)
  | [], _ => some []
  | entry :: rest, cursor => do
    let type := (read32 m entry).toNat
    let index := cursor type - 1
    let source ← quota.availServiceRefs type index.toNat
    let sources ← planSources m quota rest (Function.update cursor type index)
    some (source :: sources)

/-- The plan for protocon `pcId`: the end of `service_planner_select_protocon`, with
`service_planner_deploy_plan_init` and the base that `protocon_pre_instantiate` sets. -/
def planFor (P : Platform) (m : Mem) (req : ProtoconSvcReq) (pcId : Nat) :
    Option DeployPlan := do
  let sources ← planSources m (P.resourceQuota pcId) req.serviceEntries
    (P.resourceQuota pcId).availServicePerType
  some
    { pcId
      pcBase := containerImage pcId
      req
      serviceSources := sources
      baseSerialisedService := monitorVmRegionBase txloXrtReqBase txloXrtReqSize pcId }

/-- The protocon is free and has the services the request asks for. -/
def canHost (P : Platform) (s : State) (req : ProtoconSvcReq) (pcId : Nat) : Bool :=
  s.checkLifecycleState pcId .passive &&
    servicePlannerCanSatisfyRequest req (P.resourceQuota pcId).availServicePerType

/-- The id `service_planner_select_protocon` puts in the plan. -/
def servicePlannerSelectProtocon (P : Platform) (s : State) (req : ProtoconSvcReq) :
    Option Nat :=
  (List.range pcChildMaxNum).find? (canHost P s req)

/-- The id `service_planner_select_protocon_by_id` puts in the plan. -/
def servicePlannerSelectProtoconById (P : Platform) (s : State) (req : ProtoconSvcReq)
    (pcId : Nat) : Option Nat :=
  if pcChildMaxNum ≤ pcId || !canHost P s req pcId then none else some pcId

theorem servicePlannerSelectProtocon_passive {P : Platform} {s : State} {req : ProtoconSvcReq}
    {p : Nat} (h : servicePlannerSelectProtocon P s req = some p) :
    p < pcChildMaxNum ∧ s.lifecycle p = .passive := by
  have hmem := List.mem_of_find?_eq_some h
  have hhost := List.find?_some h
  refine ⟨List.mem_range.mp hmem, ?_⟩
  simp only [canHost, State.checkLifecycleState, Bool.and_eq_true, decide_eq_true_eq] at hhost
  exact hhost.1

theorem servicePlannerSelectProtoconById_passive {P : Platform} {s : State}
    {req : ProtoconSvcReq} {p q : Nat}
    (h : servicePlannerSelectProtoconById P s req p = some q) :
    q = p ∧ p < pcChildMaxNum ∧ s.lifecycle p = .passive := by
  unfold servicePlannerSelectProtoconById at h
  split at h
  · exact absurd h (by simp)
  next hc =>
    simp only [canHost, State.checkLifecycleState, Bool.or_eq_true, decide_eq_true_eq,
      not_or, Bool.not_eq_true', Bool.not_eq_false, Bool.and_eq_true] at hc
    exact ⟨(Option.some.inj h).symm, by omega, hc.2.1⟩

theorem planFor_pcId {P : Platform} {m : Mem} {req : ProtoconSvcReq} {p : Nat}
    {plan : DeployPlan} (h : planFor P m req p = some plan) :
    plan.pcId = p ∧ plan.pcBase = containerImage p := by
  obtain ⟨sources, -, h⟩ := Option.bind_eq_some_iff.mp h
  rw [← Option.some.inj h]
  exact ⟨rfl, rfl⟩

theorem planFor_req {P : Platform} {m : Mem} {req : ProtoconSvcReq} {p : Nat} {plan : DeployPlan}
    (h : planFor P m req p = some plan) : plan.req = req := by
  obtain ⟨sources, -, h⟩ := Option.bind_eq_some_iff.mp h
  rw [← Option.some.inj h]

/-- A plan says what it is the plan of. -/
theorem planFor_self {P : Platform} {m : Mem} {req : ProtoconSvcReq} {p : Nat}
    {plan : DeployPlan} (h : planFor P m req p = some plan) :
    planFor P m plan.req plan.pcId = some plan := by
  rwa [planFor_req h, (planFor_pcId h).1]

/-! ## Installer -/

/-- The address of section header `i` of the image at `elfBase`. -/
def sectionHeader (m : Mem) (elfBase : BitVec 64) (i : Nat) : Nat :=
  (elfBase + read64 m (elfBase.toNat + 40) + BitVec.ofNat 64 (shdrSize * i)).toNat

/-- The loop of `service_installer_elf_get_sec_with_vaddr` over the sections that are
left. -/
def findSection (m : Mem) (elfBase vaddr : BitVec 64) : List Nat → BitVec 64
  | [] => BitVec.allOnes 64
  | i :: rest =>
    let sh := sectionHeader m elfBase i
    let start := read64 m (sh + 16)
    if start ≤ vaddr && vaddr < start + read64 m (sh + 32) then
      if read32 m (sh + 4) = shtNobits then BitVec.allOnes 64
      else elfBase + read64 m (sh + 24) + (vaddr - start)
    else findSection m elfBase vaddr rest

/-- `service_installer_elf_get_sec_with_vaddr` -/
def serviceInstallerElfGetSecWithVaddr (m : Mem) (elfBase vaddr : BitVec 64) : BitVec 64 :=
  findSection m elfBase vaddr (List.range (read16 m (elfBase.toNat + 60)).toNat)

/-- The bound of each list of `trustedlo_xrtreq_t`. -/
def maxXrtReqs : Nat := 64

/-- The body of the loop of `service_installer_append_acrtreq`. -/
def appendResource (xrt : XrtReq) (resource : SvcResource) : XrtReq :=
  if resource.kind = 1 then
    if maxXrtReqs ≤ xrt.notifications.length then xrt
    else { xrt with notifications := xrt.notifications ++ [resource.value] }
  else if resource.kind = 2 then
    if maxXrtReqs ≤ xrt.ppcs.length then xrt
    else { xrt with ppcs := xrt.ppcs ++ [resource.value] }
  else if resource.kind = 3 then
    if maxXrtReqs ≤ xrt.mappings.length then xrt
    else { xrt with mappings := xrt.mappings ++ [resource.value] }
  else xrt

/-- `service_installer_append_acrtreq` -/
def serviceInstallerAppendAcrtreq (m : Mem) (xrt : XrtReq) (svc : Nat) : XrtReq :=
  (svcResources m svc).foldl appendResource xrt

/-- `protocon_image_elf` -/
def protoconImageElf (P : Platform) (m : Mem) (imageBase : Nat) : BitVec 64 :=
  BitVec.ofNat 64 imageBase + P.imageElfOffset m imageBase

/-- The loop of `service_installer_apply` up to the next data file it opens: the
services left after it, the access request so far and the file being read. -/
def installerLoop (m : Mem) (elfBase eEntry : BitVec 64) :
    List (Nat × Nat) → XrtReq → List (Nat × Nat) × XrtReq × Option (Nat × PicoVfs.Reader)
  | [], xrt => ([], xrt, none)
  | (entry, svc) :: rest, xrt =>
    if svcMaxPathLen ≤ (svcPathLen m svc).toNat then installerLoop m elfBase eEntry rest xrt
    else
      let target := serviceInstallerElfGetSecWithVaddr m elfBase (read64 m (entry + 4) + eEntry)
      if target = 0 then
        installerLoop m elfBase eEntry rest (serviceInstallerAppendAcrtreq m xrt svc)
      else (rest, xrt, some (svc, .start (svcPath m svc) target.toNat))

/-- Continue `service_installer_apply`; a frame with a file open stays as it is. -/
def serviceInstallerNext (m : Mem) (w : Installing) : Installing :=
  if w.reader.isSome then w
  else
    let (todo, xrt, reader) := installerLoop m w.elfBase w.plan.req.payloadEEntry w.todo w.xrt
    { w with todo, xrt, reader }

/-- The loop ends without a file only behind the last service. -/
theorem installerLoop_todo {m : Mem} {elfBase eEntry : BitVec 64} {todo : List (Nat × Nat)}
    {xrt : XrtReq} (h : (installerLoop m elfBase eEntry todo xrt).2.2 = none) :
    (installerLoop m elfBase eEntry todo xrt).1 = [] := by
  induction todo generalizing xrt with
  | nil => rfl
  | cons head rest ih =>
    obtain ⟨entry, svc⟩ := head
    rw [installerLoop] at h ⊢
    by_cases hlong : svcMaxPathLen ≤ (svcPathLen m svc).toNat
    · rw [if_pos hlong] at h ⊢
      exact ih h
    · rw [if_neg hlong] at h ⊢
      by_cases htarget : serviceInstallerElfGetSecWithVaddr m elfBase
          (read64 m (entry + 4) + eEntry) = 0
      · simp only [if_pos htarget] at h ⊢
        exact ih h
      · simp only [if_neg htarget] at h
        cases h

theorem serviceInstallerNext_todo_eq_nil {m : Mem} {w : Installing}
    (h : (serviceInstallerNext m w).reader = none) : (serviceInstallerNext m w).todo = [] := by
  unfold serviceInstallerNext at h ⊢
  by_cases hreader : w.reader.isSome = true
  · rw [if_pos hreader] at h
    rw [h] at hreader
    cases hreader
  · rw [if_neg hreader] at h ⊢
    exact installerLoop_todo h

/-- The reply to the command the installer is blocked in: the stores it makes, and the
installer blocked in the file's next command or done with the file.  `m` is the memory
before the stores. -/
def serviceInstallerResume (m : Mem) (w : Installing) (svc : Nat) (r : PicoVfs.Reader)
    (c : PicoVfs.Completion) : Option (List (Nat × List UInt8) × Installing) :=
  let (stores, outcome) := r.resume c
  let w := { w with patches := w.patches ++ stores }
  match outcome with
  | .waiting r => some (stores, { w with reader := some (svc, r) })
  | .returned _ _ =>
    let xrt := serviceInstallerAppendAcrtreq (writes m stores) w.xrt svc
    some (stores, { w with reader := none, xrt })
  | .asserted => none

/-- A completion stores what the reader stores, and moves the reader and the request only. -/
theorem serviceInstallerResume_frame {m : Mem} {w w' : Installing} {svc : Nat}
    {r : PicoVfs.Reader} {c : PicoVfs.Completion} {stores : List (Nat × List UInt8)}
    (h : serviceInstallerResume m w svc r c = some (stores, w')) :
    stores = (r.resume c).1 ∧ ∃ reader xrt,
      w' = { w with patches := w.patches ++ stores, reader, xrt } := by
  rw [serviceInstallerResume] at h
  cases hresume : r.resume c with
  | mk stores' outcome =>
    rw [hresume] at h
    cases outcome with
    | waiting r =>
      obtain ⟨rfl, rfl⟩ := Prod.mk.inj (Option.some.inj h)
      exact ⟨rfl, _, _, rfl⟩
    | returned size err =>
      obtain ⟨rfl, rfl⟩ := Prod.mk.inj (Option.some.inj h)
      exact ⟨rfl, _, _, rfl⟩
    | asserted => cases h

end Monitor
end Carrels
