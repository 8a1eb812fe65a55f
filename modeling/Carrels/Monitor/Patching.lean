/-
What the installer writes.

`serviceInstallerApply` is `service_installer_apply` undisturbed: each file is delivered
in full before the next service, and `runInstaller_begin` connects it with the blocked
installer of the monitor.  The caller of `service_installer_elf_get_sec_with_vaddr` tests
its result against zero, while the function returns -1 when it finds no section, and
nobody compares the length of the data file with the size of the section.  `DataFits`
says when neither matters.
-/
import Carrels.Monitor.Step

namespace Carrels
namespace Monitor

open ByteMemory PicoVfs

/-! ## The installer in one piece -/

/-- What was done for one manifest entry: the memory in which the section was looked up,
the address found and what the file server delivered. -/
structure Patch where
  entry : Nat
  elf : Mem
  target : BitVec 64
  delivery : Option Delivery

/-- `service_installer_payload_add_service` -/
def Patch.stores (p : Patch) : List (Nat × List UInt8) :=
  if p.target = 0 then [] else readfile2buf p.target.toNat p.delivery

/-- The completions that reach the installer while it adds the service. -/
def Patch.completions (p : Patch) : List Completion :=
  if p.target = 0 then [] else Delivery.completions p.delivery

/-- The patch of one entry in memory `m`. -/
def patchFor (elfBase eEntry : BitVec 64) (m : Mem) (entry : Nat) (delivery : Option Delivery) :
    Patch where
  entry
  elf := m
  target := serviceInstallerElfGetSecWithVaddr m elfBase (read64 m (entry + 4) + eEntry)
  delivery

/-- The loop of `service_installer_apply`; `server i` is the answer to the file of the
service `i` places ahead. -/
def applyLoop (elfBase eEntry : BitVec 64) : List (Nat × Nat) →
    (Nat → Option Delivery) → Mem → XrtReq → List Patch × XrtReq
  | [], _, _, xrt => ([], xrt)
  | (entry, svc) :: rest, server, m, xrt =>
    if svcMaxPathLen ≤ (svcPathLen m svc).toNat then
      applyLoop elfBase eEntry rest (fun i => server (i + 1)) m xrt
    else
      let patch := patchFor elfBase eEntry m entry (server 0)
      let m := writes m patch.stores
      let (patches, xrt) := applyLoop elfBase eEntry rest (fun i => server (i + 1)) m
        (serviceInstallerAppendAcrtreq m xrt svc)
      (patch :: patches, xrt)

/-- `service_installer_apply` in memory `m`. -/
def serviceInstallerApply (P : Platform) (m : Mem) (plan : DeployPlan)
    (server : Nat → Option Delivery) : List Patch × XrtReq :=
  applyLoop (protoconImageElf P m plan.pcBase) plan.req.payloadEEntry
    (plan.req.serviceEntries.zip plan.serviceSources) server m {}

/-- The blocked installer of frame `w`, woken by one completion after the other while
nothing else writes memory; it stays where an assertion fails. -/
def runInstaller (m : Mem) (w : Installing) : List Completion → Mem × Installing
  | [] => (m, serviceInstallerNext m w)
  | c :: cs =>
    let w := serviceInstallerNext m w
    match w.reader with
    | none => (m, w)
    | some (svc, r) =>
      match serviceInstallerResume m w svc r c with
      | none => (m, w)
      | some (stores, w) => runInstaller (writes m stores) w cs

/-- A file in progress is read to its end. -/
theorem runInstaller_returns {svc : Nat} {r : Reader} {cs : List Completion}
    {stores : List (Nat × List UInt8)} (h : r.Returns cs stores) (m : Mem) (w : Installing)
    (hr : w.reader = some (svc, r)) (later : List Completion) :
    runInstaller m w (cs ++ later) = runInstaller (writes m stores)
      { w with reader := none, xrt := serviceInstallerAppendAcrtreq (writes m stores) w.xrt svc,
               patches := w.patches ++ stores } later := by
  have hnext : serviceInstallerNext m w = w := by
    rw [serviceInstallerNext, hr]
    rfl
  induction h generalizing m w with
  | last h =>
    rw [List.singleton_append, runInstaller, hnext, hr]
    simp only [serviceInstallerResume, h]
  | @more r r' c cs stores rest h _ ih =>
    rw [List.cons_append, runInstaller, hnext, hr]
    simp only [serviceInstallerResume, h]
    rw [ih _ _ rfl (by rw [serviceInstallerNext]; rfl), writes_append, List.append_assoc]

/-- The installer first runs up to its next file. -/
theorem runInstaller_congr {m : Mem} (w w' : Installing)
    (h : serviceInstallerNext m w = serviceInstallerNext m w') (cs : List Completion) :
    runInstaller m w cs = runInstaller m w' cs := by
  cases cs with
  | nil => rw [runInstaller, runInstaller, h]
  | cons c cs => rw [runInstaller, runInstaller, h]

/-- The blocked installer makes the stores of the installer in one piece, and it ends with
the same access request. -/
theorem runInstaller_applyLoop (todo : List (Nat × Nat)) (server : Nat → Option Delivery)
    (m : Mem) (w : Installing) (hr : w.reader = none) (htodo : w.todo = todo) :
    ∃ stores, runInstaller m w ((applyLoop w.elfBase w.plan.req.payloadEEntry todo server m
          w.xrt).1.flatMap Patch.completions) =
        (writes m stores,
          { w with
            todo := []
            xrt := (applyLoop w.elfBase w.plan.req.payloadEEntry todo server m w.xrt).2
            patches := w.patches ++ stores }) ∧
      stores.filter (fun st => !st.2.isEmpty) =
        (applyLoop w.elfBase w.plan.req.payloadEEntry todo server m w.xrt).1.flatMap
          Patch.stores := by
  obtain ⟨info, branch, plan, elfBase, todo', xrt, reader, loaded, patches⟩ := w
  dsimp only at hr htodo ⊢
  subst hr htodo
  induction todo' generalizing server m xrt patches with
  | nil =>
    refine ⟨[], ?_, rfl⟩
    simp only [applyLoop, List.flatMap_nil, runInstaller, serviceInstallerNext,
      installerLoop, Option.isSome_none, Bool.false_eq_true, if_false, writes, List.append_nil]
  | cons head rest ih =>
    obtain ⟨entry, svc⟩ := head
    rw [applyLoop]
    split
    case isTrue hlong =>
      obtain ⟨stores, hrun, hstores⟩ := ih (fun i => server (i + 1)) m xrt patches
      refine ⟨stores, ?_, hstores⟩
      rw [← hrun]
      refine runInstaller_congr _ _ ?_ _
      simp only [serviceInstallerNext, installerLoop, if_pos hlong, Option.isSome_none,
        Bool.false_eq_true, if_false]
    case isFalse hshort =>
      dsimp only
      generalize hpatch : patchFor elfBase plan.req.payloadEEntry m entry (server 0) = patch
      have htarget : serviceInstallerElfGetSecWithVaddr m elfBase
          (read64 m (entry + 4) + plan.req.payloadEEntry) = patch.target := by
        rw [← hpatch]
        rfl
      rw [List.flatMap_cons, List.flatMap_cons, Patch.completions]
      by_cases hzero : patch.target = 0
      · have hnone : patch.stores = [] := by rw [Patch.stores, if_pos hzero]
        obtain ⟨stores, hrun, hstores⟩ := ih (fun i => server (i + 1)) (writes m patch.stores)
          (serviceInstallerAppendAcrtreq (writes m patch.stores) xrt svc) patches
        rw [hnone] at hrun hstores ⊢
        refine ⟨stores, ?_, hstores⟩
        rw [if_pos hzero, List.nil_append]
        refine Eq.trans (runInstaller_congr _ _ ?_ _) hrun
        simp only [serviceInstallerNext, installerLoop, if_neg hshort, htarget, if_pos hzero,
          Option.isSome_none, Bool.false_eq_true, if_false, writes]
      · obtain ⟨stores₁, hreturns, hstores₁⟩ :=
          Reader.returns_start (svcPath m svc) patch.target.toNat patch.delivery
        have hpatches : patch.stores = readfile2buf patch.target.toNat patch.delivery := by
          rw [Patch.stores, if_neg hzero]
        rw [← hpatches] at hstores₁
        have hmem : writes m patch.stores = writes m stores₁ := by
          rw [← hstores₁, writes_filter]
        obtain ⟨stores₂, hrun, hstores₂⟩ := ih (fun i => server (i + 1)) (writes m patch.stores)
          (serviceInstallerAppendAcrtreq (writes m patch.stores) xrt svc) (patches ++ stores₁)
        refine ⟨stores₁ ++ stores₂, ?_, by rw [List.filter_append, hstores₁, hstores₂]⟩
        rw [if_neg hzero]
        -- The installer opens the file and is blocked in it.
        refine Eq.trans (runInstaller_congr _ ⟨info, branch, plan, elfBase, rest, xrt,
          some (svc, .start (svcPath m svc) patch.target.toNat), loaded, patches⟩ ?_ _) ?_
        · simp only [serviceInstallerNext, installerLoop, if_neg hshort, htarget, if_neg hzero,
            Option.isSome_none, Option.isSome_some, Bool.false_eq_true, if_true, if_false]
        · rw [runInstaller_returns hreturns m _ rfl]
          dsimp only
          rw [← hmem, hrun, writes_append, hmem, List.append_assoc]

/-- The installer of a deployment makes the stores of `serviceInstallerApply`, apart from
empty ones, and serialises its access request. -/
theorem runInstaller_begin (P : Platform) (m : Mem) (info : PayloadInfo) (branch : Branch)
    (plan : DeployPlan) (server : Nat → Option Delivery) :
    let (patches, xrt) := serviceInstallerApply P m plan server
    let (m', w) := runInstaller m (.begin P m info branch plan)
      (patches.flatMap Patch.completions)
    m' = writes m (patches.flatMap Patch.stores) ∧ w.reader = none ∧ w.todo = [] ∧ w.xrt = xrt ∧
      w.patches.filter (fun st => !st.2.isEmpty) = patches.flatMap Patch.stores := by
  obtain ⟨stores, hrun, hstores⟩ := runInstaller_applyLoop _ server m
    (.begin P m info branch plan) rfl rfl
  dsimp only [Installing.begin] at hrun hstores
  dsimp only [serviceInstallerApply, Installing.begin]
  rw [hrun, ← hstores, writes_filter]
  exact ⟨rfl, rfl, rfl, rfl, rfl⟩

/-! ## Where the data may go -/

/-- The store writes only bytes from `a` up to `a + n`. -/
def Within (a n : Nat) (st : Nat × List UInt8) : Prop := a ≤ st.1 ∧ st.1 + st.2.length ≤ a + n

/-- `sh_type`, `sh_addr`, `sh_offset` and `sh_size` of section `i`. -/
def shType (m : Mem) (elfBase : BitVec 64) (i : Nat) : BitVec 32 :=
  read32 m (sectionHeader m elfBase i + 4)

def shAddr (m : Mem) (elfBase : BitVec 64) (i : Nat) : BitVec 64 :=
  read64 m (sectionHeader m elfBase i + 16)

def shOffset (m : Mem) (elfBase : BitVec 64) (i : Nat) : BitVec 64 :=
  read64 m (sectionHeader m elfBase i + 24)

def shSize (m : Mem) (elfBase : BitVec 64) (i : Nat) : BitVec 64 :=
  read64 m (sectionHeader m elfBase i + 32)

/-- `e_shnum` -/
def eShnum (m : Mem) (elfBase : BitVec 64) : Nat := (read16 m (elfBase.toNat + 60)).toNat

/-- The address range of section `i` contains `vaddr`, and the section has file bytes. -/
structure HoldsVaddr (m : Mem) (elfBase vaddr : BitVec 64) (i : Nat) : Prop where
  lt_num : i < eShnum m elfBase
  bits : shType m elfBase i ≠ shtNobits
  start_le : (shAddr m elfBase i).toNat ≤ vaddr.toNat
  lt_end : vaddr.toNat < (shAddr m elfBase i).toNat + (shSize m elfBase i).toNat

/-- The `n` bytes from address `a` on are file bytes of a section that contains `vaddr`. -/
def InSection (m : Mem) (elfBase vaddr : BitVec 64) (a n : Nat) : Prop :=
  ∃ i, HoldsVaddr m elfBase vaddr i ∧
    elfBase.toNat + (shOffset m elfBase i).toNat ≤ a ∧
    a + n ≤ elfBase.toNat + (shOffset m elfBase i).toNat + (shSize m elfBase i).toNat

/-- The data of the patch goes to protocon `p`'s container image, into one section that
contains the address of the entry; without such a section nothing is written. -/
def Patch.Contained (p : Nat) (elfBase eEntry : BitVec 64) (patch : Patch) : Prop :=
  patch.stores = [] ∨
    (∀ st ∈ patch.stores, Within (containerImage p) containerImageSize st) ∧
    ∃ i, HoldsVaddr patch.elf elfBase (read64 patch.elf (patch.entry + 4) + eEntry) i ∧
      ∀ st ∈ patch.stores, Within (elfBase.toNat + (shOffset patch.elf elfBase i).toNat)
        (shSize patch.elf elfBase i).toNat st

/-- Everything the installer writes for a plan on protocon `p` is contained: the data of
every patch, and the access request, whose bytes `serialise` gives. -/
structure Contained (P : Platform) (serialise : XrtReq → List UInt8) (m : Mem) (p : Nat)
    (plan : DeployPlan) (server : Nat → Option Delivery) : Prop where
  patches : ∀ patch ∈ (serviceInstallerApply P m plan server).1,
    patch.Contained p (protoconImageElf P m plan.pcBase) plan.req.payloadEEntry
  request : Within (monitorVmRegionBase txloXrtReqBase txloXrtReqSize p) txloXrtReqSize
    (plan.baseSerialisedService, serialise (serviceInstallerApply P m plan server).2)

/-- The first section whose range, computed in 64 bits, contains `vaddr`. -/
def firstSection (m : Mem) (elfBase vaddr : BitVec 64) : Option Nat :=
  (List.range (eShnum m elfBase)).find? fun i =>
    shAddr m elfBase i ≤ vaddr && vaddr < shAddr m elfBase i + shSize m elfBase i

/-- The place of `vaddr` in the file bytes of section `i`. -/
def filePlace (m : Mem) (elfBase vaddr : BitVec 64) (i : Nat) : BitVec 64 :=
  elfBase + shOffset m elfBase i + (vaddr - shAddr m elfBase i)

/-- The search for `vaddr` ends at a section with file bytes; `n` bytes from the place of
`vaddr` on lie in protocon `p`'s image and inside a section that contains `vaddr`. -/
def DataFits (p : Nat) (m : Mem) (elfBase vaddr : BitVec 64) (n : Nat) : Prop :=
  ∃ i, firstSection m elfBase vaddr = some i ∧ shType m elfBase i ≠ shtNobits ∧
    (filePlace m elfBase vaddr i = 0 ∨
      containerImage p ≤ (filePlace m elfBase vaddr i).toNat ∧
      (filePlace m elfBase vaddr i).toNat + n ≤ containerImage p + containerImageSize ∧
      InSection m elfBase vaddr (filePlace m elfBase vaddr i).toNat n)

/-- Every entry whose data file has data finds room for it, in the memory the entries
before it leave. -/
def AllFit (p : Nat) (elfBase eEntry : BitVec 64) :
    List (Nat × Nat) → (Nat → Option Delivery) → Mem → Prop
  | [], _, _ => True
  | (entry, svc) :: rest, server, m =>
    if svcMaxPathLen ≤ (svcPathLen m svc).toNat then
      AllFit p elfBase eEntry rest (fun i => server (i + 1)) m
    else
      (Delivery.data (server 0) ≠ [] →
        DataFits p m elfBase (read64 m (entry + 4) + eEntry) (Delivery.data (server 0)).length) ∧
      AllFit p elfBase eEntry rest (fun i => server (i + 1))
        (writes m (patchFor elfBase eEntry m entry (server 0)).stores)

/-- No list of the access request is longer than its array. -/
structure XrtReq.Bounded (xrt : XrtReq) : Prop where
  notifications : xrt.notifications.length ≤ maxXrtReqs
  ppcs : xrt.ppcs.length ≤ maxXrtReqs
  irqs : xrt.irqs.length ≤ maxXrtReqs
  ioports : xrt.ioports.length ≤ maxXrtReqs
  mappings : xrt.mappings.length ≤ maxXrtReqs

/-! ## One entry -/

section

variable {m : Mem} {elfBase eEntry vaddr : BitVec 64} {p entry : Nat}

theorem findSection_cons (m : Mem) (elfBase vaddr : BitVec 64) (i : Nat) (is : List Nat) :
    findSection m elfBase vaddr (i :: is) =
      if shAddr m elfBase i ≤ vaddr && vaddr < shAddr m elfBase i + shSize m elfBase i then
        if shType m elfBase i = shtNobits then BitVec.allOnes 64
        else filePlace m elfBase vaddr i
      else findSection m elfBase vaddr is := rfl

theorem findSection_eq (m : Mem) (elfBase vaddr : BitVec 64) (is : List Nat) :
    findSection m elfBase vaddr is =
      match is.find? fun i =>
        shAddr m elfBase i ≤ vaddr && vaddr < shAddr m elfBase i + shSize m elfBase i with
      | none => BitVec.allOnes 64
      | some i =>
        if shType m elfBase i = shtNobits then BitVec.allOnes 64
        else filePlace m elfBase vaddr i := by
  induction is with
  | nil => rfl
  | cons i is ih =>
    rw [findSection_cons, List.find?_cons]
    split
    case isTrue h => rw [h]
    case isFalse h => rw [ih, Bool.eq_false_iff.mpr h]

/-- The search returns -1 when it finds no section or one without file bytes. -/
theorem serviceInstallerElfGetSecWithVaddr_eq (m : Mem) (elfBase vaddr : BitVec 64) :
    serviceInstallerElfGetSecWithVaddr m elfBase vaddr =
      match firstSection m elfBase vaddr with
      | none => BitVec.allOnes 64
      | some i =>
        if shType m elfBase i = shtNobits then BitVec.allOnes 64
        else filePlace m elfBase vaddr i :=
  findSection_eq m elfBase vaddr _

theorem containerImage_lt (hp : p < pcChildMaxNum) :
    containerImage p + containerImageSize < 2 ^ 64 - 1 := by
  have hp : p < 16 := hp
  simp only [containerImage, monitorVmRegionBase, containerImageBase, containerImageSize]
  omega

theorem Delivery.data_some_eq_nil {d : Delivery} : Delivery.data (some d) = [] ↔ d.chunks = [] := by
  refine ⟨fun h => List.eq_nil_iff_forall_not_mem.mpr fun data hdata => ?_, fun h => ?_⟩
  · exact d.chunk_ne data hdata (List.flatten_eq_nil_iff.mp h data hdata)
  · rw [Delivery.data, h, List.flatten_nil]

/-- A patch that has data and a target is contained if the range of its data is. -/
theorem Patch.contained_iff_range {patch : Patch} {d : Delivery} (htarget : patch.target ≠ 0)
    (hd : patch.delivery = some d) (hne : d.chunks ≠ []) :
    patch.Contained p elfBase eEntry ↔
      containerImage p ≤ patch.target.toNat ∧
      patch.target.toNat + d.chunks.flatten.length ≤ containerImage p + containerImageSize ∧
      InSection patch.elf elfBase (read64 patch.elf (patch.entry + 4) + eEntry)
        patch.target.toNat d.chunks.flatten.length := by
  have hstores : patch.stores = storesFrom patch.target.toNat d.chunks := by
    rw [Patch.stores, if_neg htarget, hd]
    rfl
  unfold Patch.Contained Within InSection
  rw [hstores, storesFrom_within hne, or_iff_right (storesFrom_ne_nil.mpr hne), and_assoc]
  refine and_congr_right fun _ => and_congr_right fun _ => exists_congr fun i => ?_
  rw [storesFrom_within hne]

/-- The patch of an entry is contained exactly if its data fits. -/
theorem patchFor_contained_iff (hp : p < pcChildMaxNum) (delivery : Option Delivery) :
    (patchFor elfBase eEntry m entry delivery).Contained p elfBase eEntry ↔
      (Delivery.data delivery ≠ [] → DataFits p m elfBase (read64 m (entry + 4) + eEntry)
        (Delivery.data delivery).length) := by
  generalize hpatch : patchFor elfBase eEntry m entry delivery = patch
  have htarget := serviceInstallerElfGetSecWithVaddr_eq m elfBase (read64 m (entry + 4) + eEntry)
  have hdelivery : patch.delivery = delivery := by rw [← hpatch]; rfl
  have helf : patch.elf = m := by rw [← hpatch]; rfl
  have hentry : patch.entry = entry := by rw [← hpatch]; rfl
  rw [show serviceInstallerElfGetSecWithVaddr m elfBase (read64 m (entry + 4) + eEntry) =
    patch.target from by rw [← hpatch]; rfl] at htarget
  have hempty : patch.stores = [] → patch.Contained p elfBase eEntry := Or.inl
  cases delivery with
  | none =>
    refine iff_of_true (hempty ?_) fun h => absurd rfl h
    rw [Patch.stores, hdelivery]
    exact ite_self _
  | some d =>
    by_cases hne : d.chunks = []
    · refine iff_of_true (hempty ?_) fun h => absurd (Delivery.data_some_eq_nil.mpr hne) h
      rw [Patch.stores, hdelivery, readfile2buf, hne]
      exact ite_self _
    · rw [imp_iff_right (fun h => hne (Delivery.data_some_eq_nil.mp h)), Delivery.data]
      -- Where the search fails the data goes to the last address.
      have hlost : patch.target = BitVec.allOnes 64 → ¬ patch.Contained p elfBase eEntry := by
        intro hall hcontained
        rw [Patch.contained_iff_range (by rw [hall]; decide) hdelivery hne, hall] at hcontained
        have hlt := containerImage_lt hp
        have hmax : (BitVec.allOnes 64).toNat = 2 ^ 64 - 1 := rfl
        omega
      unfold DataFits
      cases hfirst : firstSection m elfBase (read64 m (entry + 4) + eEntry) with
      | none =>
        rw [hfirst] at htarget
        exact iff_of_false (hlost htarget) fun ⟨_, h, _⟩ => by cases h
      | some i =>
        rw [hfirst] at htarget
        dsimp only at htarget
        by_cases hbits : shType m elfBase i = shtNobits
        · rw [if_pos hbits] at htarget
          refine iff_of_false (hlost htarget) fun ⟨j, hj, hbits', _⟩ => ?_
          obtain rfl := Option.some.inj hj
          exact hbits' hbits
        · rw [if_neg hbits] at htarget
          by_cases hzero : patch.target = 0
          · refine iff_of_true (hempty (if_pos hzero)) ⟨i, rfl, hbits, Or.inl ?_⟩
            rw [← htarget, hzero]
          · rw [Patch.contained_iff_range hzero hdelivery hne, helf, hentry, htarget]
            constructor
            · exact fun h => ⟨i, rfl, hbits, Or.inr h⟩
            · rintro ⟨j, hj, -, h⟩
              obtain rfl := Option.some.inj hj
              exact h.resolve_left (htarget ▸ hzero)

/-! ## The whole plan -/

theorem applyLoop_contained_iff (hp : p < pcChildMaxNum) (todo : List (Nat × Nat))
    (server : Nat → Option Delivery) (m : Mem) (xrt : XrtReq) :
    (∀ patch ∈ (applyLoop elfBase eEntry todo server m xrt).1,
        patch.Contained p elfBase eEntry) ↔ AllFit p elfBase eEntry todo server m := by
  induction todo generalizing server m xrt with
  | nil => exact iff_of_true (fun _ h => absurd h List.not_mem_nil) trivial
  | cons head rest ih =>
    obtain ⟨entry, svc⟩ := head
    rw [applyLoop, AllFit]
    split
    case isTrue => exact ih _ m xrt
    case isFalse =>
      dsimp only
      rw [List.forall_mem_cons, patchFor_contained_iff hp, ih]

theorem appendResource_bounded {xrt : XrtReq} (h : xrt.Bounded) (resource : SvcResource) :
    (appendResource xrt resource).Bounded := by
  obtain ⟨hn, hp, hi, ho, hm⟩ := h
  unfold appendResource
  have hroom : ∀ {l : List (BitVec 64)} {v}, ¬ maxXrtReqs ≤ l.length →
      (l ++ [v]).length ≤ maxXrtReqs := fun h => by
    rw [List.length_append, List.length_singleton]
    omega
  repeat' split
  case isFalse.isFalse.isFalse => exact ⟨hn, hp, hi, ho, hm⟩
  case isTrue.isFalse h => exact ⟨hroom h, hp, hi, ho, hm⟩
  case isFalse.isTrue.isFalse h => exact ⟨hn, hroom h, hi, ho, hm⟩
  case isFalse.isFalse.isTrue.isFalse h => exact ⟨hn, hp, hi, ho, hroom h⟩
  all_goals exact ⟨hn, hp, hi, ho, hm⟩

theorem serviceInstallerAppendAcrtreq_bounded {xrt : XrtReq} (h : xrt.Bounded) (m : Mem)
    (svc : Nat) : (serviceInstallerAppendAcrtreq m xrt svc).Bounded := by
  unfold serviceInstallerAppendAcrtreq
  induction svcResources m svc generalizing xrt with
  | nil => exact h
  | cons resource resources ih => exact ih (appendResource_bounded h resource)

theorem applyLoop_bounded (elfBase eEntry : BitVec 64) (todo : List (Nat × Nat))
    (server : Nat → Option Delivery) (m : Mem) {xrt : XrtReq} (h : xrt.Bounded) :
    (applyLoop elfBase eEntry todo server m xrt).2.Bounded := by
  induction todo generalizing server m xrt with
  | nil => exact h
  | cons head rest ih =>
    rw [applyLoop]
    split
    · exact ih _ m h
    · exact ih _ _ (serviceInstallerAppendAcrtreq_bounded h _ _)

end

/-- What the installer writes for a plan on protocon `p` is contained exactly when all its
data fits. -/
theorem contained_iff {P : Platform} {serialise : XrtReq → List UInt8} {m m₀ : Mem} {p : Nat}
    {req : ProtoconSvcReq} {plan : DeployPlan} {server : Nat → Option Delivery}
    (hp : p < pcChildMaxNum) (hplan : planFor P m₀ req p = some plan)
    (hserialise : ∀ xrt : XrtReq, xrt.Bounded → (serialise xrt).length ≤ txloXrtReqSize) :
    Contained P serialise m p plan server ↔
      AllFit p (protoconImageElf P m plan.pcBase) plan.req.payloadEEntry
        (plan.req.serviceEntries.zip plan.serviceSources) server m := by
  have hpage : plan.baseSerialisedService =
      monitorVmRegionBase txloXrtReqBase txloXrtReqSize p := by
    obtain ⟨sources, -, h⟩ := Option.bind_eq_some_iff.mp hplan
    rw [← Option.some.inj h]
  have hempty : XrtReq.Bounded {} := ⟨by decide, by decide, by decide, by decide, by decide⟩
  have hbounded := hserialise _ (applyLoop_bounded (protoconImageElf P m plan.pcBase)
    plan.req.payloadEEntry (plan.req.serviceEntries.zip plan.serviceSources) server m hempty)
  have hrequest : Within (monitorVmRegionBase txloXrtReqBase txloXrtReqSize p) txloXrtReqSize
      (plan.baseSerialisedService, serialise (serviceInstallerApply P m plan server).2) :=
    ⟨Nat.le_of_eq hpage.symm, by rw [hpage]; exact Nat.add_le_add_left hbounded _⟩
  rw [← applyLoop_contained_iff hp _ server m {}]
  exact ⟨Contained.patches, fun hpatches => ⟨hpatches, hrequest⟩⟩

/-! ## A small plan -/

/-- The numbers of the access request behind a header of two words. -/
def smallSerialise (xrt : XrtReq) : List UInt8 :=
  let numbers := xrt.notifications ++ xrt.ppcs ++ xrt.irqs ++ xrt.ioports ++ xrt.mappings
  toLE numbers.length 8 ++ toLE 16 8 ++ numbers.flatMap fun n => toLE n.toNat 8

theorem length_smallSerialise {xrt : XrtReq} (h : xrt.Bounded) :
    (smallSerialise xrt).length ≤ txloXrtReqSize := by
  obtain ⟨hn, hp, hi, ho, hm⟩ := h
  simp only [smallSerialise, List.length_append, List.length_flatMap, length_toLE,
    List.map_const', List.sum_replicate_nat, txloXrtReqSize, maxXrtReqs] at *
  omega

/-- The payload of one service at `vaddr`, loaded into protocon 0. -/
def loadedMem (vaddr : Nat) : Mem :=
  protoconLoadPayload (smallPlatform 2) (write smallStorage payloadStart (payloadOf [(0, vaddr)]))
    0 (containerImage 0) (payloadStart + 44) (BitVec.ofNat 64 smallElf.length)

def smallRequest : ProtoconSvcReq where
  serviceCountPerType type := if type = 0 then 1 else 0
  serviceEntries := [payloadStart + 24]
  payloadEEntry := 0

def smallPlan : DeployPlan where
  pcId := 0
  pcBase := containerImage 0
  req := smallRequest
  serviceSources := [svcTableBase + 20]
  baseSerialisedService := monitorVmRegionBase txloXrtReqBase txloXrtReqSize 0

theorem planFor_smallRequest {m : Mem} (h : read32 m (payloadStart + 24) = 0) :
    planFor (smallPlatform 2) m smallRequest 0 = some smallPlan := by
  have hplace : ((smallPlatform 2).resourceQuota 0).availServiceRefs (0 : BitVec 32).toNat
      (((smallPlatform 2).resourceQuota 0).availServicePerType (0 : BitVec 32).toNat - 1).toNat =
        some (svcTableBase + 20) := by
    decide +kernel
  simp only [planFor, smallRequest, planSources, h, hplace, Option.bind_eq_bind,
    Option.bind_some, smallPlan]

/-- A data file of `n` bytes. -/
def dataFile (n : Nat) (hpos : 0 < n) (hlt : n < failed.toNat) : Delivery where
  fd := 3
  chunks := [List.replicate n 9]
  complete := true
  fd_ne := by decide
  chunk_ne data h := by
    rw [List.mem_singleton.mp h, Ne, List.replicate_eq_nil_iff]
    omega
  length_lt := by simpa using hlt

/-- Two bytes for the middle of a section of 16. -/
theorem contained_smallPlan :
    Contained (smallPlatform 2) smallSerialise (loadedMem 0x1008) 0 smallPlan
      (fun _ => some (dataFile 2 (by decide) (by decide))) := by
  have hplan : planFor (smallPlatform 2) (loadedMem 0x1008) smallRequest 0 = some smallPlan :=
    planFor_smallRequest (by decide +kernel)
  refine (contained_iff (by decide) hplan fun _ => length_smallSerialise).mpr ?_
  show AllFit 0 _ _ [(payloadStart + 24, svcTableBase + 20)] _ _
  rw [AllFit, if_neg (by decide +kernel)]
  refine ⟨fun _ => ?_, trivial⟩
  refine ⟨1, by decide +kernel, by decide +kernel, Or.inr ⟨by decide +kernel, by decide +kernel,
    1, ⟨by decide +kernel, by decide +kernel, by decide +kernel, by decide +kernel⟩,
    by decide +kernel, by decide +kernel⟩⟩

/-- An entry whose address lies in no section is patched at the last address there is. -/
theorem not_contained :
    ¬ ∀ P serialise m m₀ p req plan server, p < pcChildMaxNum →
      planFor P m₀ req p = some plan →
      (∀ xrt : XrtReq, xrt.Bounded → (serialise xrt).length ≤ txloXrtReqSize) →
      Contained P serialise m p plan server := by
  intro h
  have hplan : planFor (smallPlatform 2) (loadedMem 0x5000) smallRequest 0 = some smallPlan :=
    planFor_smallRequest (by decide +kernel)
  have hpatch : ∃ patch ∈ (serviceInstallerApply (smallPlatform 2) (loadedMem 0x5000) smallPlan
      fun _ => some (dataFile 1 (by decide) (by decide))).1,
      patch.stores = [(2 ^ 64 - 1, [9])] := by decide +kernel
  obtain ⟨patch, hmem, hstores⟩ := hpatch
  have hcontained := (h (smallPlatform 2) smallSerialise (loadedMem 0x5000) (loadedMem 0x5000) 0
    smallRequest smallPlan (fun _ => some (dataFile 1 (by decide) (by decide))) (by decide) hplan
    fun _ => length_smallSerialise).patches patch hmem
  obtain hnil | ⟨hwithin, -⟩ := hcontained
  · rw [hstores] at hnil
    cases hnil
  · have hlast := (hwithin _ (hstores ▸ List.mem_singleton_self _)).2
    exact absurd hlast (by decide)

end Monitor
end Carrels
