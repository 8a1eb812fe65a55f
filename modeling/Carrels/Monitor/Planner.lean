/-
The planner (`service/service_planner.c`) on a registry.

The registry fills its lists upwards and the planner takes from them downwards, with one
cursor for each type.  `Enough` says that no cursor runs below zero, so that every entry
gets a place of its own in the lists.
-/
import Carrels.Lib.Classes
import Carrels.Monitor.Registry
import Carrels.Monitor.Step

namespace Carrels
namespace Monitor

open ByteMemory Classes

/-! ## Places in the registry -/

/-- The type a manifest entry asks for. -/
def entryType (m : Mem) (entry : Nat) : Nat := (read32 m entry).toNat

/-- The places `avail_service_refs[type][index]` the loop takes its services from. -/
def planPlaces (m : Mem) : List Nat → (Nat → BitVec 32) → List (Nat × Nat)
  | [], _ => []
  | entry :: rest, cursor =>
    let type := entryType m entry
    let index := cursor type - 1
    (type, index.toNat) :: planPlaces m rest (Function.update cursor type index)

/-- Where every place holds a service the plan is complete. -/
theorem planSources_eq {m : Mem} {quota : ResourceQuota} {entries : List Nat}
    {cursor : Nat → BitVec 32}
    (h : ∀ c ∈ planPlaces m entries cursor,
      ∃ source, quota.availServiceRefs c.1 c.2 = some source) :
    ∃ sources, planSources m quota entries cursor = some sources ∧
      sources.map some =
        (planPlaces m entries cursor).map fun c => quota.availServiceRefs c.1 c.2 := by
  induction entries generalizing cursor with
  | nil => exact ⟨[], rfl, rfl⟩
  | cons entry rest ih =>
    rw [planPlaces, List.forall_mem_cons] at h
    obtain ⟨source, hsource⟩ := h.1
    obtain ⟨sources, hrest, hmap⟩ := ih h.2
    unfold entryType at hsource hrest
    refine ⟨source :: sources, ?_, ?_⟩
    · rw [planSources]
      simp only [hsource, hrest, Option.bind_eq_bind, Option.bind_some]
    · rw [planPlaces, List.map_cons, List.map_cons, entryType, hsource, hmap]
      rfl

/-! ## The cursors -/

/-- No type is asked for more often than its cursor can be lowered. -/
def Enough (m : Mem) (entries : List Nat) (cursor : Nat → BitVec 32) : Prop :=
  ∀ type, (entries.countP fun e => entryType m e == type) ≤ (cursor type).toNat

section

variable {m : Mem} {entry : Nat} {entries : List Nat} {cursor : Nat → BitVec 32}

/-- The step of the cursor of the entry's type. -/
theorem Enough.index (h : Enough m (entry :: entries) cursor) :
    (cursor (entryType m entry) - 1).toNat + 1 = (cursor (entryType m entry)).toNat := by
  have hpos := h (entryType m entry)
  rw [List.countP_cons_of_pos (by simp)] at hpos
  rw [BitVec.toNat_sub]
  have hlt := (cursor (entryType m entry)).isLt
  show (2 ^ 32 - 1 + _) % 2 ^ 32 + 1 = _
  omega

theorem Enough.rest (h : Enough m (entry :: entries) cursor) :
    Enough m entries
      (Function.update cursor (entryType m entry) (cursor (entryType m entry) - 1)) := by
  intro type
  have htype := h type
  by_cases heq : type = entryType m entry
  · subst heq
    rw [List.countP_cons_of_pos (by simp)] at htype
    have hindex := h.index
    rw [Function.update_self]
    omega
  · rw [List.countP_cons_of_neg (by simpa using Ne.symm heq)] at htype
    rwa [Function.update_of_ne heq]

theorem planPlaces_lt (h : Enough m entries cursor) :
    ∀ c ∈ planPlaces m entries cursor, c.2 < (cursor c.1).toNat := by
  induction entries generalizing cursor with
  | nil => exact fun _ hc => absurd hc List.not_mem_nil
  | cons entry rest ih =>
    have hindex := h.index
    intro c hc
    rcases List.mem_cons.mp hc with rfl | hc
    · show (cursor (entryType m entry) - 1).toNat < (cursor (entryType m entry)).toNat
      omega
    · have hlt := ih h.rest c hc
      by_cases heq : c.1 = entryType m entry
      · rw [heq, Function.update_self] at hlt
        rw [heq]
        omega
      · rwa [Function.update_of_ne heq] at hlt

/-- No place is taken twice: behind an entry, the cursor of its type is at its place. -/
theorem planPlaces_nodup (h : Enough m entries cursor) : (planPlaces m entries cursor).Nodup := by
  induction entries generalizing cursor with
  | nil => exact List.nodup_nil
  | cons entry rest ih =>
    refine List.nodup_cons.mpr ⟨fun hmem => ?_, ih h.rest⟩
    have hlt := planPlaces_lt h.rest _ hmem
    rw [Function.update_self] at hlt
    exact absurd hlt (Nat.lt_irrefl _)

theorem planPlaces_types (m : Mem) (entries : List Nat) (cursor : Nat → BitVec 32) :
    (planPlaces m entries cursor).map Prod.fst = entries.map (entryType m) := by
  induction entries generalizing cursor with
  | nil => rfl
  | cons entry rest ih => rw [planPlaces, List.map_cons, List.map_cons, ih]

end

/-! ## Records and plans -/

/-- The platform with the services of a registry. -/
def Platform.withRegistry (P : Platform) (states : Nat → ResourceQuota) : Platform :=
  { P with resourceQuota := states }

/-- The fields of `deploy_plan_t` that the planner decides. -/
structure ServicePlan where
  pcId : Nat
  serviceSources : List Nat

/-- The plan after `service_planner_select_protocon` or `service_planner_select_protocon_by_id`
has selected a protocon or none; `none` where the assertion in the planner fails. -/
def planFrom (m : Mem) (states : Nat → ResourceQuota) (req : ProtoconSvcReq) :
    Option Nat → Option ServicePlan
  | none => some { pcId := pcChildMaxNum, serviceSources := [] }
  | some pcId =>
    (planSources m (states pcId) req.serviceEntries (states pcId).availServicePerType).map
      fun serviceSources => { pcId, serviceSources }

/-- The monitor's plan for a selected protocon is this one. -/
theorem planFor_withRegistry (P : Platform) (m : Mem) (states : Nat → ResourceQuota)
    (req : ProtoconSvcReq) (pcId : Nat) :
    (planFor (P.withRegistry states) m req pcId).map DeployPlan.serviceSources =
      (planFrom m states req (some pcId)).map ServicePlan.serviceSources := by
  unfold planFor planFrom Platform.withRegistry
  dsimp only
  cases planSources m (states pcId) req.serviceEntries (states pcId).availServicePerType with
  | none => rfl
  | some sources => rfl

/-! ## The request of a manifest -/

/-- The addresses of the manifest's entries. -/
def PayloadInfo.entries (info : PayloadInfo) : List Nat :=
  (List.range info.serviceCount.toNat).map fun i => info.serviceEntries + manifestEntrySize * i

theorem acceptsEntry_type {m : Mem} {entry : Nat} (h : acceptsEntry m entry = true) :
    entryType m entry < svcTypeMaxNum := by
  simp only [acceptsEntry, serviceManifestCheckType, Bool.and_eq_true, decide_eq_true_eq] at h
  have hsign := BitVec.toInt_eq_toNat_cond (read32 m entry)
  unfold entryType svcTypeMaxNum
  split at hsign <;> omega

/-- A manifest whose accepted entries fit: the request holds them and counts them. -/
theorem serviceManifestParse_some {m : Mem} {info : PayloadInfo}
    (hroom : info.entries.countP (acceptsEntry m) ≤ maxServiceEntries) :
    ∃ req, serviceManifestParse m info = some req ∧
      req.serviceEntries = info.entries.filter (acceptsEntry m) ∧
      ∀ type, (req.serviceCountPerType type).toNat =
        req.serviceEntries.countP fun e => entryType m e == type := by
  have hparse := foldlM_addServiceEntry m info.entries
    { serviceCountPerType := fun _ => 0, serviceEntries := [], payloadEEntry := 0 }
    (by simpa using hroom)
  refine ⟨_, by rw [serviceManifestParse]; exact congrArg (Option.map _) hparse, by simp,
    fun type => ?_⟩
  have hle : (info.entries.countP fun e => acceptsEntry m e && (entryType m e == type)) ≤
      maxServiceEntries := by
    refine Nat.le_trans (List.countP_mono_left fun e _ he => ?_) hroom
    exact (Bool.and_eq_true _ _ ▸ he).1
  simp only [List.nil_append, List.countP_filter]
  show (0#32 + _).toNat = _
  unfold maxServiceEntries at hle
  rw [BitVec.zero_add, BitVec.toNat_ofNat, Nat.mod_eq_of_lt]
  · exact List.countP_congr fun e _ => by rw [Bool.and_comm]; rfl
  · exact Nat.lt_of_le_of_lt hle (by decide)

theorem enough_of_satisfied {m : Mem} {req : ProtoconSvcReq} {avail : Nat → BitVec 32}
    (haccepts : ∀ e ∈ req.serviceEntries, acceptsEntry m e = true)
    (hcounts : ∀ type, (req.serviceCountPerType type).toNat =
      req.serviceEntries.countP fun e => entryType m e == type)
    (hsatisfied : servicePlannerCanSatisfyRequest req avail = true) :
    Enough m req.serviceEntries avail := by
  intro type
  by_cases htype : type < svcTypeMaxNum
  · rw [← hcounts type]
    have hle := List.all_eq_true.mp hsatisfied type (List.mem_range.mpr htype)
    exact BitVec.le_def.mp (of_decide_eq_true hle)
  · have hnone : req.serviceEntries.countP (fun e => entryType m e == type) = 0 := by
      rw [List.countP_eq_zero]
      intro e he heq
      have hlt := acceptsEntry_type (haccepts e he)
      rw [beq_iff_eq.mp heq] at hlt
      exact htype hlt
    omega

/-! ## The plan of a selected protocon -/

/-- The protocon is free and has the services the request asks for. -/
def Hosts (s : State) (states : Nat → ResourceQuota) (req : ProtoconSvcReq) (p : Nat) : Prop :=
  s.lifecycle p = .passive ∧ ∀ type < svcTypeMaxNum,
    (req.serviceCountPerType type).toNat ≤ ((states p).availServicePerType type).toNat

/-- Each entry has its own service: a record of the table, of the entry's type and of
protocon `p`. -/
structure PlansOwn (table : Mem) (svc : Svc) (m : Mem) (req : ProtoconSvcReq) (p : Nat)
    (sources : List Nat) : Prop where
  length : sources.length = req.serviceEntries.length
  own : ∀ (i entry : Nat), req.serviceEntries[i]? = some entry → ∃ r ∈ svc.services,
    sources[i]? = some r ∧ (svcPdId table r).toNat = p ∧ svcServiceType table r = entryType m entry
  /-- What is handed out is a part of the table. -/
  part : sources.Subperm svc.services
  /-- Different entries of a parsed table have different records. -/
  distinct : ∀ base, svcParse table base = some svc → sources.Nodup

theorem canHost_iff {P : Platform} {states : Nat → ResourceQuota} {s : State}
    {req : ProtoconSvcReq} {p : Nat} :
    canHost (P.withRegistry states) s req p = true ↔ Hosts s states req p := by
  rw [canHost, Bool.and_eq_true, State.checkLifecycleState, decide_eq_true_eq,
    servicePlannerCanSatisfyRequest, List.all_eq_true]
  refine and_congr_right fun _ => forall_congr' fun type => ?_
  rw [List.mem_range, decide_eq_true_eq, BitVec.le_def]
  rfl

theorem recordsFor_eq_members (table : Mem) (services : List Nat) (p type : Nat) :
    recordsFor table services p type =
      members (svcServiceType table) (services.filter fun r =>
        svcServiceType table r < svcTypeMaxNum && (svcPdId table r).toNat == p) type := by
  rw [recordsFor, members, List.filter_filter]
  refine List.filter_congr fun r _ => ?_
  rw [Bool.and_comm]
  rfl

section

variable {table m : Mem} {services : List Nat} {svc : Svc} {req : ProtoconSvcReq} {p : Nat}

/-- A place below the number of services of its type holds the record of that number. -/
theorem refsOf_place {c : Nat × Nat}
    (hlt : c.2 < ((refsOf table services p).availServicePerType c.1).toNat) :
    ∃ r ∈ recordsFor table services p c.1,
      (refsOf table services p).availServiceRefs c.1 c.2 = some r ∧
        (recordsFor table services p c.1)[c.2]? = some r := by
  rw [toNat_availServicePerType] at hlt
  have hget := List.getElem?_eq_getElem (l := recordsFor table services p c.1) (i := c.2)
    (by omega)
  refine ⟨_, List.getElem_mem (by omega), ?_, hget⟩
  show ((recordsFor table services p c.1).take _)[c.2]? = _
  rw [List.getElem?_take_of_lt (by omega), hget]

theorem planFrom_own
    (henough : Enough m req.serviceEntries (refsOf table svc.services p).availServicePerType) :
    ∃ sources, planFrom m (refsOf table svc.services) req (some p) =
        some { pcId := p, serviceSources := sources } ∧
      PlansOwn table svc m req p sources := by
  have hplace : ∀ c ∈ planPlaces m req.serviceEntries _, _ := fun c hc =>
    refsOf_place (planPlaces_lt henough c hc)
  obtain ⟨sources, hplan, hmap⟩ := planSources_eq fun c hc =>
    let ⟨r, _, hr, _⟩ := hplace c hc
    ⟨r, hr⟩
  have htypes := planPlaces_types m req.serviceEntries
    (refsOf table svc.services p).availServicePerType
  have hpart : sources.Subperm svc.services := by
    have hsources : sources = (planPlaces m req.serviceEntries
        (refsOf table svc.services p).availServicePerType).filterMap fun c =>
          (recordsFor table svc.services p c.1)[c.2]? := by
      have hids : (sources.map some).filterMap id = sources := by
        rw [List.filterMap_map, Function.id_comp, List.filterMap_some]
      rw [← hids, hmap, List.filterMap_map, Function.id_comp]
      refine List.filterMap_congr fun c hc => ?_
      obtain ⟨r, -, href, hget⟩ := hplace c hc
      rw [href, hget]
    simp only [recordsFor_eq_members] at hsources
    rw [hsources]
    exact (picked_subperm _ (planPlaces_nodup henough)).trans
      (List.filter_sublist).subperm
  refine ⟨sources, by rw [planFrom, hplan]; rfl, ?_, fun i entry hentry => ?_, hpart,
    fun base hparse => ?_⟩
  · have hlength := congrArg List.length hmap
    have hlength' := congrArg List.length htypes
    rw [List.length_map, List.length_map] at hlength hlength'
    rw [hlength, hlength']
  · have htype := congrArg (fun l => l[i]?) htypes
    have hsource := congrArg (fun l => l[i]?) hmap
    simp only [List.getElem?_map, hentry, Option.map_some] at htype hsource
    obtain ⟨c, hc, hcType⟩ := Option.map_eq_some_iff.mp htype
    obtain ⟨r, hr, href, -⟩ := hplace c (List.mem_of_getElem? hc)
    rw [hc, Option.map_some, href] at hsource
    obtain ⟨r', hr', heq⟩ := Option.map_eq_some_iff.mp hsource
    obtain rfl := Option.some.inj heq
    obtain ⟨hmem, hmatch⟩ := List.mem_filter.mp hr
    simp only [Bool.and_eq_true, decide_eq_true_eq, beq_iff_eq] at hmatch
    exact ⟨r', hmem, hr', hmatch.1.2, hmatch.2.trans hcType⟩
  · obtain ⟨l, hperm, hsublist⟩ := hpart
    exact hperm.nodup_iff.mp (hsublist.nodup (svcParse_nodup hparse))

end

/-! ## The planner -/

section

variable {P : Platform} {m : Mem} {states : Nat → ResourceQuota} {s : State}
  {req : ProtoconSvcReq} {own : Nat → List Nat → Prop}

/-- The first free protocon with enough services, or none if there is none. -/
theorem servicePlannerSelectProtocon_plan (hplan : ∀ p, Hosts s states req p →
      ∃ sources, planFrom m states req (some p) = some { pcId := p, serviceSources := sources } ∧
        own p sources) :
    ∃ plan, planFrom m states req
        (servicePlannerSelectProtocon (P.withRegistry states) s req) = some plan ∧
      (plan.pcId < pcChildMaxNum ∧ Hosts s states req plan.pcId ∧
          (∀ q < plan.pcId, ¬ Hosts s states req q) ∧ own plan.pcId plan.serviceSources ∨
        plan.pcId = pcChildMaxNum ∧ ∀ q < pcChildMaxNum, ¬ Hosts s states req q) := by
  unfold servicePlannerSelectProtocon
  cases hfind : (List.range pcChildMaxNum).find?
      (canHost (P.withRegistry states) s req) with
  | none =>
    refine ⟨_, rfl, Or.inr ⟨rfl, fun q hq hhosts => ?_⟩⟩
    exact List.find?_eq_none.mp hfind q (List.mem_range.mpr hq) (canHost_iff.mpr hhosts)
  | some p =>
    obtain ⟨hhost, hmem, hfirst⟩ := List.find?_range_eq_some.mp hfind
    have hhosts := canHost_iff.mp hhost
    obtain ⟨sources, hsources, hown⟩ := hplan p hhosts
    refine ⟨_, hsources, Or.inl ⟨List.mem_range.mp hmem, hhosts, fun q hq hq' => ?_, hown⟩⟩
    have hnot := hfirst q hq
    rw [canHost_iff.mpr hq'] at hnot
    exact absurd hnot (by decide)

/-- The named protocon, if it is free and has enough services. -/
theorem servicePlannerSelectProtoconById_plan (hplan : ∀ p, Hosts s states req p →
      ∃ sources, planFrom m states req (some p) = some { pcId := p, serviceSources := sources } ∧
        own p sources) (pcId : Nat) :
    ∃ plan, planFrom m states req
        (servicePlannerSelectProtoconById (P.withRegistry states) s req pcId) = some plan ∧
      (plan.pcId = pcId ∧ pcId < pcChildMaxNum ∧ Hosts s states req pcId ∧
          own pcId plan.serviceSources ∨
        plan.pcId = pcChildMaxNum ∧ ¬ (pcId < pcChildMaxNum ∧ Hosts s states req pcId)) := by
  unfold servicePlannerSelectProtoconById
  by_cases hhosts : pcId < pcChildMaxNum ∧ Hosts s states req pcId
  · obtain ⟨sources, hsources, hown⟩ := hplan pcId hhosts.2
    refine ⟨{ pcId, serviceSources := sources }, ?_, Or.inl ⟨rfl, hhosts.1, hhosts.2, hown⟩⟩
    rw [if_neg, hsources]
    simp only [Bool.or_eq_true, decide_eq_true_eq, not_or, Nat.not_le, Bool.not_eq_true',
      Bool.not_eq_false]
    exact ⟨hhosts.1, canHost_iff.mpr hhosts.2⟩
  · refine ⟨{ pcId := pcChildMaxNum, serviceSources := [] }, ?_, Or.inr ⟨rfl, hhosts⟩⟩
    rw [if_pos]
    · rfl
    simp only [Bool.or_eq_true, decide_eq_true_eq, Bool.not_eq_true', ← Bool.not_eq_true,
      canHost_iff]
    rcases Nat.lt_or_ge pcId pcChildMaxNum with hlt | hge
    · exact .inr fun h => hhosts ⟨hlt, h⟩
    · exact .inl hge

end

/-- The manifest's request, planned on the registry of the table: whichever protocon is selected
can host the request, and each entry gets a record of its own. -/
def PlansServices (P : Platform) (table : Mem) (svc : Svc) (pcNum : Nat) (m : Mem)
    (info : PayloadInfo) : Prop :=
  ∃ states req, serviceRegistryCreate table (some svc) (fun _ => {}) pcNum = some states ∧
    serviceManifestParse m info = some req ∧
    ∀ s : State,
      (∃ plan, planFrom m states req
          (servicePlannerSelectProtocon (P.withRegistry states) s req) = some plan ∧
        (plan.pcId < pcChildMaxNum ∧ Hosts s states req plan.pcId ∧
            (∀ q < plan.pcId, ¬ Hosts s states req q) ∧
            PlansOwn table svc m req plan.pcId plan.serviceSources ∨
          plan.pcId = pcChildMaxNum ∧ ∀ q < pcChildMaxNum, ¬ Hosts s states req q)) ∧
      ∀ pcId, ∃ plan, planFrom m states req
          (servicePlannerSelectProtoconById (P.withRegistry states) s req pcId) =
            some plan ∧
        (plan.pcId = pcId ∧ pcId < pcChildMaxNum ∧ Hosts s states req pcId ∧
            PlansOwn table svc m req pcId plan.serviceSources ∨
          plan.pcId = pcChildMaxNum ∧ ¬ (pcId < pcChildMaxNum ∧ Hosts s states req pcId))

/-- This holds of every manifest with at most 16 entries of known types, and every table whose
records are for protocons that exist. -/
theorem plannedServices (P : Platform) (table : Mem) (svc : Svc) {pcNum : Nat}
    (hnum : pcNum ≤ pcChildMaxNum) (hpd : ∀ r ∈ svc.services, (svcPdId table r).toNat < pcNum)
    (m : Mem) (info : PayloadInfo)
    (hroom : info.entries.countP (acceptsEntry m) ≤ maxServiceEntries) :
    PlansServices P table svc pcNum m info := by
  have hstay : ¬ svc.services.any (leavesStates table) = true := by
    intro hany
    obtain ⟨r, hr, hleaves⟩ := List.any_eq_true.mp hany
    simp only [leavesStates, Bool.and_eq_true, decide_eq_true_eq] at hleaves
    have hlt := hpd r hr
    omega
  obtain ⟨req, hparse, hentries, hcounts⟩ := serviceManifestParse_some hroom
  refine ⟨refsOf table svc.services, req, ?_, hparse, fun s => ?_⟩
  · rw [serviceRegistryCreate_eq, if_neg hstay]
  have hplan : ∀ p, Hosts s (refsOf table svc.services) req p →
      ∃ sources, planFrom m (refsOf table svc.services) req (some p) =
          some { pcId := p, serviceSources := sources } ∧
        PlansOwn table svc m req p sources := by
    intro p hhosts
    refine planFrom_own (enough_of_satisfied ?_ hcounts ?_)
    · intro e he
      rw [hentries] at he
      exact (List.mem_filter.mp he).2
    · exact (Bool.and_eq_true _ _ ▸ (@canHost_iff P _ _ _ _).mpr hhosts).2
  exact ⟨servicePlannerSelectProtocon_plan hplan, servicePlannerSelectProtoconById_plan hplan⟩

/-! ## Manifests -/

/-- A manifest with one entry. -/
def oneEntryMem : Mem := write smallStorage payloadStart (payloadOf [(0, 0x1000)])

def oneEntryInfo : PayloadInfo where
  headerPayload := payloadStart + 44
  elfPayloadSize := 272
  serviceCount := 1
  serviceEntries := payloadStart + 24

/-- Two services of one type for the same protocon, who gets the second record and the first. -/
def twoEntryMem : Mem := write (fun _ => 0) payloadStart (payloadOf [(0, 0x1000), (0, 0x1008)])

def twoEntryInfo : PayloadInfo where
  headerPayload := payloadStart + 64
  elfPayloadSize := 272
  serviceCount := 2
  serviceEntries := payloadStart + 24

theorem plannedServices_two :
    PlansServices (smallPlatform 2) (threeRecords 1) threeServices 2 twoEntryMem twoEntryInfo :=
  plannedServices (smallPlatform 2) (threeRecords 1) threeServices (by decide) (by decide +kernel)
    twoEntryMem twoEntryInfo (by decide +kernel)

end Monitor
end Carrels
