/-
The accesses of the parser, the planner and the installer to their arrays.

The functions are those of the model with a log of the accesses to `service_entries`,
`service_sources`, `cursor_service_num` and `avail_service_refs`; an access out of bounds
breaks them off.  Only the parser can make one: nothing compares the number of accepted
entries with the sixteen places of `service_entries`.
-/
import Carrels.Lib.Logged
import Carrels.Monitor.PayloadBounds
import Carrels.Monitor.Planner

namespace Carrels
namespace Monitor

open ByteMemory Logged

/-! ## Accesses -/

inductive Access
  | serviceEntries (index : Nat)
  | serviceSources (index : Nat)
  | cursorServiceNum (type : Nat)
  | availServiceRefs (type index : Nat)

/-- The access stays in its array and, for a reference, below the number of services. -/
def Access.inBounds (avail : Nat → BitVec 32) : Access → Bool
  | .serviceEntries index => index < maxServiceEntries
  | .serviceSources index => index < maxServiceEntries
  | .cursorServiceNum type => type < svcTypeMaxNum
  | .availServiceRefs type index => type < svcTypeMaxNum && index < (avail type).toNat

section

variable (avail : Nat → BitVec 32)

/-- `addServiceEntry` -/
def addServiceEntryLogged (m : Mem) (req : ProtoconSvcReq) (entry : Nat) :
    Logged Access ProtoconSvcReq :=
  let type := read32 m entry
  if !serviceManifestCheckType type then pure req
  else do
    touch (Access.inBounds avail) (.serviceEntries req.serviceEntries.length)
    pure
      { req with
        serviceCountPerType := Function.update req.serviceCountPerType type.toNat
          (req.serviceCountPerType type.toNat + 1)
        serviceEntries := req.serviceEntries ++ [entry] }

/-- `service_manifest_parse` -/
def serviceManifestParseLogged (m : Mem) (info : PayloadInfo) :
    Logged Access ProtoconSvcReq := do
  let req ← info.entries.foldlM (addServiceEntryLogged avail m)
    { serviceCountPerType := fun _ => 0, serviceEntries := [], payloadEEntry := 0 }
  pure { req with payloadEEntry := read64 m (info.headerPayload + 24) }

/-- The first loop of `service_planner_deploy_plan_init`, over the types from `n` on. -/
def initCursors : List Nat → Logged Access Unit
  | [] => pure ()
  | type :: rest => do
    touch (Access.inBounds avail) (.cursorServiceNum type)
    initCursors rest

/-- `planSources`, from entry number `i` on. -/
def planSourcesLogged (m : Mem) (quota : ResourceQuota) :
    Nat → List Nat → (Nat → BitVec 32) → Logged Access (List Nat)
  | _, [], _ => pure []
  | i, entry :: rest, cursor => do
    touch (Access.inBounds avail) (.serviceEntries i)
    let type := entryType m entry
    touch (Access.inBounds avail) (.cursorServiceNum type)
    let index := cursor type - 1
    touch (Access.inBounds avail) (.availServiceRefs type index.toNat)
    touch (Access.inBounds avail) (.serviceSources i)
    let source ← attempt (quota.availServiceRefs type index.toNat)
    let sources ← planSourcesLogged m quota (i + 1) rest (Function.update cursor type index)
    pure (source :: sources)

/-- `installerLoop`, from service number `i` on. -/
def installerLoopLogged (m : Mem) (elfBase eEntry : BitVec 64) :
    Nat → List (Nat × Nat) → XrtReq →
      Logged Access (List (Nat × Nat) × XrtReq × Option (Nat × PicoVfs.Reader))
  | _, [], xrt => pure ([], xrt, none)
  | i, (entry, svc) :: rest, xrt => do
    touch (Access.inBounds avail) (.serviceSources i)
    if svcMaxPathLen ≤ (svcPathLen m svc).toNat then
      installerLoopLogged m elfBase eEntry (i + 1) rest xrt
    else
      touch (Access.inBounds avail) (.serviceEntries i)
      let target := serviceInstallerElfGetSecWithVaddr m elfBase (read64 m (entry + 4) + eEntry)
      if target = 0 then
        installerLoopLogged m elfBase eEntry (i + 1) rest (serviceInstallerAppendAcrtreq m xrt svc)
      else pure (rest, xrt, some (svc, .start (svcPath m svc) target.toNat))

end

/-- `service_planner_deploy_plan_init` -/
def deployPlanInitLogged (m : Mem) (quota : ResourceQuota) (req : ProtoconSvcReq) :
    Logged Access (List Nat) := do
  initCursors quota.availServicePerType (List.range svcTypeMaxNum)
  planSourcesLogged quota.availServicePerType m quota 0 req.serviceEntries
    quota.availServicePerType

/-- `serviceInstallerNext`: the services before the ones that are left have been dealt with. -/
def serviceInstallerNextLogged (avail : Nat → BitVec 32) (m : Mem) (w : Installing) :
    Logged Access (List (Nat × Nat) × XrtReq × Option (Nat × PicoVfs.Reader)) :=
  installerLoopLogged avail m w.elfBase w.plan.req.payloadEEntry
    (w.plan.req.serviceEntries.length - w.todo.length) w.todo w.xrt

/-- The installer of frame `start`, blocked and woken up in any way and with any memory, is in
frame `w` and has made these accesses. -/
inductive InstallerRun (avail : Nat → BitVec 32) (start : Installing) :
    Installing → List Access → Prop
  | start : InstallerRun avail start start []
  | next {w : Installing} {log : List Access} (h : InstallerRun avail start w log)
      (hreader : w.reader = none) (m : Mem) :
      InstallerRun avail start (serviceInstallerNext m w)
        (log ++ (serviceInstallerNextLogged avail m w).log)
  | resume {w w' : Installing} {log : List Access} {svc : Nat} {r : PicoVfs.Reader}
      {c : PicoVfs.Completion} {stores : List (Nat × List UInt8)}
      (h : InstallerRun avail start w log) (hreader : w.reader = some (svc, r)) (m : Mem)
      (hresume : serviceInstallerResume m w svc r c = some (stores, w')) :
      InstallerRun avail start w' log

/-- No access of a deployment of this manifest is out of bounds: neither of the parser, nor of
the planner on any protocon that satisfies the request, nor of any run of the installer. -/
structure NoOverrun (P : Platform) (m : Mem) (info : PayloadInfo) : Prop where
  parser : (serviceManifestParseLogged (fun _ => 0) m info).All (Access.inBounds fun _ => 0)
  planner : ∀ req p, (serviceManifestParseLogged (fun _ => 0) m info).result = some req →
    servicePlannerCanSatisfyRequest req (P.resourceQuota p).availServicePerType = true →
    (deployPlanInitLogged m (P.resourceQuota p) req).All
      (Access.inBounds (P.resourceQuota p).availServicePerType)
  installer : ∀ req p plan, (serviceManifestParseLogged (fun _ => 0) m info).result = some req →
    servicePlannerCanSatisfyRequest req (P.resourceQuota p).availServicePerType = true →
    planFor P m req p = some plan → ∀ (m' : Mem) (branch : Branch) (w : Installing)
      (log : List Access), InstallerRun (P.resourceQuota p).availServicePerType
        (.begin P m' info branch plan) w log →
      ∀ access ∈ log, access.inBounds (P.resourceQuota p).availServicePerType = true

/-! ## The parser -/

theorem addServiceEntryLogged_result (avail : Nat → BitVec 32) (m : Mem) (req : ProtoconSvcReq)
    (entry : Nat) : (addServiceEntryLogged avail m req entry).result =
      addServiceEntry m req entry := by
  unfold addServiceEntryLogged addServiceEntry
  dsimp only
  split
  · rfl
  · rw [result_bind, result_touch]
    by_cases hfull : maxServiceEntries ≤ req.serviceEntries.length
    · rw [if_pos hfull, if_neg (by simpa [Access.inBounds] using hfull)]
      rfl
    · rw [if_neg hfull, if_pos (by simpa [Access.inBounds] using hfull)]
      rfl

theorem serviceManifestParseLogged_result (avail : Nat → BitVec 32) (m : Mem)
    (info : PayloadInfo) :
    (serviceManifestParseLogged avail m info).result = serviceManifestParse m info := by
  have hloop : ∀ (entries : List Nat) (req : ProtoconSvcReq),
      (entries.foldlM (addServiceEntryLogged avail m) req).result =
        entries.foldlM (addServiceEntry m) req := by
    intro entries
    induction entries with
    | nil => exact fun _ => rfl
    | cons entry rest ih =>
      intro req
      rw [List.foldlM_cons, List.foldlM_cons, result_bind, addServiceEntryLogged_result]
      exact congrArg _ (funext fun req' => ih req')
  rw [serviceManifestParseLogged, result_bind, hloop, serviceManifestParse]
  exact Option.map_eq_bind.symm

/-- The loop stays in the array exactly while there is room for the accepted entries. -/
theorem foldlM_addServiceEntryLogged_all (avail : Nat → BitVec 32) (m : Mem) (entries : List Nat)
    (req : ProtoconSvcReq) (h : req.serviceEntries.length ≤ maxServiceEntries) :
    (entries.foldlM (addServiceEntryLogged avail m) req).All (Access.inBounds avail) ↔
      req.serviceEntries.length + entries.countP (acceptsEntry m) ≤ maxServiceEntries := by
  induction entries generalizing req with
  | nil => simpa using h
  | cons entry rest ih =>
    rw [List.foldlM_cons, all_bind]
    cases haccepts : acceptsEntry m entry with
    | false =>
      have hskip : addServiceEntryLogged avail m req entry = pure req := by
        rw [addServiceEntryLogged, if_pos (by simpa [acceptsEntry] using haccepts)]
      rw [hskip, List.countP_cons_of_neg (by simp [haccepts])]
      simp [ih req h]
    | true =>
      have hstep : addServiceEntryLogged avail m req entry =
          (touch (Access.inBounds avail) (.serviceEntries req.serviceEntries.length) >>= fun _ =>
            pure { req with
              serviceCountPerType := Function.update req.serviceCountPerType
                (read32 m entry).toNat (req.serviceCountPerType (read32 m entry).toNat + 1)
              serviceEntries := req.serviceEntries ++ [entry] }) := by
        rw [addServiceEntryLogged, if_neg (by simpa [acceptsEntry] using haccepts)]
      rw [hstep, List.countP_cons_of_pos haccepts, all_bind, all_touch, result_bind, result_touch]
      simp only [all_pure, implies_true, and_true]
      by_cases hroom : req.serviceEntries.length < maxServiceEntries
      · have htouch : Access.inBounds avail (.serviceEntries req.serviceEntries.length) = true :=
          decide_eq_true hroom
        rw [htouch, if_pos rfl]
        simp only [Option.bind_some, result_pure, Option.some.injEq, forall_eq', true_and]
        rw [ih _ (by rw [List.length_append, List.length_singleton]; omega), List.length_append,
          List.length_singleton]
        omega
      · have htouch : ¬ Access.inBounds avail (.serviceEntries req.serviceEntries.length) = true :=
          fun h => hroom (of_decide_eq_true h)
        refine iff_of_false (fun h => htouch h.1) (by omega)

theorem serviceManifestParseLogged_all (avail : Nat → BitVec 32) (m : Mem) (info : PayloadInfo) :
    (serviceManifestParseLogged avail m info).All (Access.inBounds avail) ↔
      info.entries.countP (acceptsEntry m) ≤ maxServiceEntries := by
  rw [serviceManifestParseLogged, all_bind, foldlM_addServiceEntryLogged_all _ _ _ _
    (Nat.zero_le _)]
  simp

/-! ## The planner -/

theorem initCursors_all (avail : Nat → BitVec 32) {types : List Nat}
    (h : ∀ type ∈ types, type < svcTypeMaxNum) :
    (initCursors avail types).All (Access.inBounds avail) := by
  induction types with
  | nil => exact all_pure _ _
  | cons type rest ih =>
    rw [List.forall_mem_cons] at h
    rw [initCursors, all_bind, all_touch]
    exact ⟨decide_eq_true h.1, fun _ _ => ih h.2⟩

/-- With enough services of each type every cursor stays below their number. -/
theorem planSourcesLogged_all {avail : Nat → BitVec 32} {m : Mem} (quota : ResourceQuota)
    {entries : List Nat} {i : Nat} {cursor : Nat → BitVec 32}
    (hroom : i + entries.length ≤ maxServiceEntries)
    (htypes : ∀ e ∈ entries, entryType m e < svcTypeMaxNum) (henough : Enough m entries cursor)
    (hcursor : ∀ type, (cursor type).toNat ≤ (avail type).toNat) :
    (planSourcesLogged avail m quota i entries cursor).All (Access.inBounds avail) := by
  induction entries generalizing i cursor with
  | nil => exact all_pure _ _
  | cons entry rest ih =>
    rw [List.forall_mem_cons] at htypes
    rw [List.length_cons] at hroom
    have hindex := henough.index
    have hlower : ∀ type, ((Function.update cursor (entryType m entry)
        (cursor (entryType m entry) - 1)) type).toNat ≤ (avail type).toNat := by
      intro type
      have hle := hcursor type
      by_cases heq : type = entryType m entry
      · subst heq
        rw [Function.update_self]
        omega
      · rwa [Function.update_of_ne heq]
    have hi : i < maxServiceEntries := by omega
    have hbelow := hcursor (entryType m entry)
    have href : (cursor (entryType m entry) - 1).toNat < (avail (entryType m entry)).toNat := by
      omega
    have hrest := ih (i := i + 1) (by omega) htypes.2 henough.rest hlower
    simp only [planSourcesLogged, all_bind, all_touch, all_attempt, all_pure, Access.inBounds,
      htypes.1, hi, href, decide_true, Bool.and_self, implies_true, and_true, hrest]

theorem deployPlanInitLogged_all {m : Mem} {quota : ResourceQuota} {req : ProtoconSvcReq}
    (hroom : req.serviceEntries.length ≤ maxServiceEntries)
    (htypes : ∀ e ∈ req.serviceEntries, entryType m e < svcTypeMaxNum)
    (henough : Enough m req.serviceEntries quota.availServicePerType) :
    (deployPlanInitLogged m quota req).All (Access.inBounds quota.availServicePerType) := by
  rw [deployPlanInitLogged, all_bind]
  refine ⟨initCursors_all _ fun type h => List.mem_range.mp h, fun _ _ => ?_⟩
  exact planSourcesLogged_all _ (by omega) htypes henough fun _ => Nat.le_refl _

/-- In bounds the logged planner is the planner. -/
theorem planSourcesLogged_result {avail : Nat → BitVec 32} {m : Mem} {quota : ResourceQuota}
    {entries : List Nat} {i : Nat} {cursor : Nat → BitVec 32}
    (h : (planSourcesLogged avail m quota i entries cursor).All (Access.inBounds avail)) :
    (planSourcesLogged avail m quota i entries cursor).result =
      planSources m quota entries cursor := by
  induction entries generalizing i cursor with
  | nil => rfl
  | cons entry rest ih =>
    simp only [planSourcesLogged, all_bind, all_touch, result_touch] at h
    obtain ⟨hentry, h⟩ := h
    obtain ⟨htype, h⟩ := h () (by rw [hentry]; rfl)
    obtain ⟨href, h⟩ := h () (by rw [htype]; rfl)
    obtain ⟨hsource, h⟩ := h () (by rw [href]; rfl)
    rw [planSources]
    simp only [planSourcesLogged, result_bind, result_touch, hentry, htype, href, hsource, if_true,
      Option.bind_some, result_attempt, result_pure, Option.bind_eq_bind]
    unfold entryType at h ⊢
    cases hget : quota.availServiceRefs (read32 m entry).toNat
        (cursor (read32 m entry).toNat - 1).toNat with
    | none => rfl
    | some source =>
      rw [Option.bind_some, Option.bind_some, ih ((h () (by rw [hsource]; rfl)).2 source hget).1]

/-! ## The installer -/

theorem installerLoopLogged_all (avail : Nat → BitVec 32) (m : Mem) (elfBase eEntry : BitVec 64)
    {i : Nat} {todo : List (Nat × Nat)} (xrt : XrtReq)
    (h : i + todo.length ≤ maxServiceEntries) :
    (installerLoopLogged avail m elfBase eEntry i todo xrt).All (Access.inBounds avail) := by
  induction todo generalizing i xrt with
  | nil => exact all_pure _ _
  | cons head rest ih =>
    obtain ⟨entry, svc⟩ := head
    rw [List.length_cons] at h
    have hi : Access.inBounds avail (.serviceSources i) = true := decide_eq_true (by omega)
    have hi' : Access.inBounds avail (.serviceEntries i) = true := decide_eq_true (by omega)
    rw [installerLoopLogged, all_bind, all_touch]
    refine ⟨hi, fun _ _ => ?_⟩
    split
    · exact ih xrt (by omega)
    · rw [all_bind, all_touch]
      refine ⟨hi', fun _ _ => ?_⟩
      dsimp only
      split
      · exact ih _ (by omega)
      · exact all_pure _ _

theorem installerLoopLogged_result (avail : Nat → BitVec 32) (m : Mem) (elfBase eEntry : BitVec 64)
    {i : Nat} {todo : List (Nat × Nat)} (xrt : XrtReq)
    (h : i + todo.length ≤ maxServiceEntries) :
    (installerLoopLogged avail m elfBase eEntry i todo xrt).result =
      some (installerLoop m elfBase eEntry todo xrt) := by
  induction todo generalizing i xrt with
  | nil => rfl
  | cons head rest ih =>
    obtain ⟨entry, svc⟩ := head
    rw [List.length_cons] at h
    have hi : Access.inBounds avail (.serviceSources i) = true := decide_eq_true (by omega)
    have hi' : Access.inBounds avail (.serviceEntries i) = true := decide_eq_true (by omega)
    rw [installerLoopLogged, installerLoop, result_bind, result_touch, hi, if_pos rfl,
      Option.bind_some]
    dsimp only
    split
    · exact ih xrt (by omega)
    · rw [result_bind, result_touch, hi', if_pos rfl, Option.bind_some]
      split
      · exact ih _ (by omega)
      · rfl

theorem installerLoop_length_le (m : Mem) (elfBase eEntry : BitVec 64)
    (todo : List (Nat × Nat)) (xrt : XrtReq) :
    (installerLoop m elfBase eEntry todo xrt).1.length ≤ todo.length := by
  induction todo generalizing xrt with
  | nil => exact Nat.le_refl _
  | cons head rest ih =>
    obtain ⟨entry, svc⟩ := head
    rw [installerLoop]
    dsimp only
    split
    · exact (ih xrt).trans (Nat.le_succ _)
    · split
      · exact (ih _).trans (Nat.le_succ _)
      · exact Nat.le_succ _

theorem serviceInstallerNext_todo (m : Mem) (w : Installing) :
    (serviceInstallerNext m w).plan = w.plan ∧
      (serviceInstallerNext m w).todo.length ≤ w.todo.length := by
  unfold serviceInstallerNext
  split
  · exact ⟨rfl, Nat.le_refl _⟩
  · exact ⟨rfl, installerLoop_length_le m w.elfBase w.plan.req.payloadEEntry w.todo w.xrt⟩

/-- At every point of a run the services that are left are the last ones of the plan. -/
theorem InstallerRun.inBounds {avail : Nat → BitVec 32} {start w : Installing} {log : List Access}
    (h : InstallerRun avail start w log)
    (hroom : start.plan.req.serviceEntries.length ≤ maxServiceEntries)
    (htodo : start.todo.length ≤ start.plan.req.serviceEntries.length) :
    w.plan = start.plan ∧ w.todo.length ≤ start.plan.req.serviceEntries.length ∧
      ∀ access ∈ log, access.inBounds avail = true := by
  induction h with
  | start => exact ⟨rfl, htodo, fun _ h => absurd h List.not_mem_nil⟩
  | @next w log _ hreader m ih =>
    obtain ⟨hplan, hlength, hlog⟩ := ih
    obtain ⟨hplan', hlength'⟩ := serviceInstallerNext_todo m w
    refine ⟨hplan'.trans hplan, hlength'.trans hlength, fun access hmem => ?_⟩
    rcases List.mem_append.mp hmem with hmem | hmem
    · exact hlog access hmem
    · have hle : w.plan.req.serviceEntries.length - w.todo.length + w.todo.length ≤
          maxServiceEntries := by
        rw [hplan]
        omega
      exact installerLoopLogged_all avail m w.elfBase w.plan.req.payloadEEntry w.xrt hle access hmem
  | resume _ hreader m hresume ih =>
    obtain ⟨hplan, hlength, hlog⟩ := ih
    obtain ⟨-, reader, xrt, rfl⟩ := serviceInstallerResume_frame hresume
    exact ⟨hplan, hlength, hlog⟩

/-! ## All three -/

/-- The arrays are not overrun exactly when the manifest has at most sixteen entries of the types
the monitor serves, which nothing asks. -/
theorem manifestOverrun (P : Platform) (m : Mem) (info : PayloadInfo) :
    NoOverrun P m info ↔ info.entries.countP (acceptsEntry m) ≤ maxServiceEntries := by
  constructor
  · intro h
    exact (serviceManifestParseLogged_all _ m info).mp h.parser
  · intro hroom
    obtain ⟨req, hparse, hentries, hcounts⟩ := serviceManifestParse_some hroom
    have haccepts : ∀ e ∈ req.serviceEntries, acceptsEntry m e = true := fun e he =>
      (List.mem_filter.mp (hentries ▸ he)).2
    have hlength : req.serviceEntries.length ≤ maxServiceEntries := by
      rw [hentries, ← List.countP_eq_length_filter]
      exact hroom
    rw [← serviceManifestParseLogged_result fun _ => 0] at hparse
    refine ⟨(serviceManifestParseLogged_all _ m info).mpr hroom, ?_, ?_⟩
    · intro req' p hreq hsatisfied
      obtain rfl := Option.some.inj (hparse.symm.trans hreq)
      exact deployPlanInitLogged_all hlength (fun e he => acceptsEntry_type (haccepts e he))
        (enough_of_satisfied haccepts hcounts hsatisfied)
    · intro req' p plan hreq _ hplan m' branch w log hrun
      obtain rfl := Option.some.inj (hparse.symm.trans hreq)
      have hreq := planFor_req hplan
      refine (hrun.inBounds ?_ ?_).2.2
      · show plan.req.serviceEntries.length ≤ _
        rw [hreq]
        exact hlength
      · show (plan.req.serviceEntries.zip plan.serviceSources).length ≤ _
        rw [List.length_zip]
        exact Nat.min_le_left _ _

/-! ## Seventeen services -/

def manyServices : Mem :=
  write (fun _ => 0) payloadStart (payloadOf (List.replicate 17 (0, 0x1000)))

def manyInfo : PayloadInfo where
  headerPayload := payloadStart + 364
  elfPayloadSize := 272
  serviceCount := 17
  serviceEntries := payloadStart + 24

theorem not_manifestOverrun :
    ¬ ∀ (P : Platform) (m : Mem) (info : PayloadInfo),
      serviceManifestHeaderParse m payloadStart = some info → NoOverrun P m info := by
  intro hclaim
  have hparse : serviceManifestHeaderParse manyServices payloadStart = some manyInfo := by
    decide +kernel
  have hroom := (serviceManifestParseLogged_all _ _ _).mp
    (hclaim (smallPlatform 2) _ _ hparse).parser
  exact absurd hroom (by decide +kernel)

end Monitor
end Carrels
