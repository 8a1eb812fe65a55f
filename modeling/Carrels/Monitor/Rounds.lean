/-
The rounds of an untargeted deployment (`request/deploy.c`, `service/service_planner.c`).

Every round parses the manifest again, looks through all protocons again and reads the tables
again, in the state and the memory the round before has left.  What carries the induction over
the rounds is that the protocons started so far are the first ones of the list that was eligible
at the beginning, and that nothing is stored outside of the container images.
-/
import Mathlib.Data.List.Find
import Carrels.Monitor.AccessRequest
import Carrels.Monitor.Patching
import Carrels.Monitor.PayloadBounds
import Carrels.Monitor.Planner

namespace Carrels
namespace Monitor

open ByteMemory PicoVfs StepSystem

/-! ## The smallest members of a list -/

/-- `chosen` are the `min n m` smallest of the `m` numbers in `eligible`. -/
structure Smallest (eligible : List Nat) (n : Nat) (chosen : List Nat) : Prop where
  length : chosen.length = min n eligible.length
  sorted : chosen.Pairwise (· < ·)
  mem : ∀ p ∈ chosen, p ∈ eligible
  least : ∀ p ∈ chosen, ∀ q ∈ eligible, q ∉ chosen → p < q

theorem smallest_take {eligible : List Nat} (h : eligible.Pairwise (· < ·)) (n : Nat) :
    Smallest eligible n (eligible.take n) where
  length := List.length_take
  sorted := h.sublist (List.take_sublist n eligible)
  mem _ hp := List.mem_of_mem_take hp
  least p hp q hq hout := by
    rw [← List.take_append_drop n eligible, List.pairwise_append] at h
    rw [← List.take_append_drop n eligible, List.mem_append] at hq
    exact h.2.2 p hp q (hq.resolve_left hout)

/-! ## Eligible protocons -/

/-- How many services of a type the manifest asks for. -/
def requested (m : Mem) (info : PayloadInfo) (type : Nat) : Nat :=
  info.entries.countP fun e => acceptsEntry m e && (entryType m e == type)

/-- Protocon `p` has enough services of every requested type. -/
def Suffices (P : Platform) (m : Mem) (info : PayloadInfo) (p : Nat) : Prop :=
  ∀ type < svcTypeMaxNum,
    requested m info type ≤ ((P.resourceQuota p).availServicePerType type).toNat

instance (P : Platform) (m : Mem) (info : PayloadInfo) (p : Nat) :
    Decidable (Suffices P m info p) :=
  inferInstanceAs (Decidable (∀ type < svcTypeMaxNum, _))

/-- The ids of the protocons that are `PASSIVE` with enough services, in increasing order. -/
def eligible (P : Platform) (s : State) (info : PayloadInfo) : List Nat :=
  (List.range pcChildMaxNum).filter fun p =>
    s.checkLifecycleState p .passive && decide (Suffices P s.mem info p)

/-- `protocon_start` meets none of its assertions on protocon `p`: there is a delegation record
of at most a page, and a TCB. -/
def Startable (P : Platform) (m : Mem) (p : Nat) : Prop :=
  P.hasTcb p = true ∧
    ∃ d, dlgFindDelegator m P.dlg p = some d ∧ (dlgRecordSizeOf m d).toNat ≤ maxRecordSize

/-- Between `s` and `s'` the `n` smallest of the eligible protocons, or all of them, have become
`ACTIVE`, each started once, and every other lifecycle state is as before. -/
def StartsSmallest (s s' : State) (eligible : List Nat) (n : Nat) : Prop :=
  ∃ chosen, Smallest eligible n chosen ∧
    (∃ records, s'.starts = records ++ s.starts ∧
      records.map StartRecord.pcId = chosen.reverse) ∧
    ∀ p, s'.lifecycle p = if p ∈ chosen then .active else s.lifecycle p

theorem eligible_sorted (P : Platform) (s : State) (info : PayloadInfo) :
    (eligible P s info).Pairwise (· < ·) :=
  List.Pairwise.filter _ List.pairwise_lt_range

theorem mem_eligible {P : Platform} {s : State} {info : PayloadInfo} {p : Nat} :
    p ∈ eligible P s info ↔
      p < pcChildMaxNum ∧ s.lifecycle p = .passive ∧ Suffices P s.mem info p := by
  rw [eligible, List.mem_filter, List.mem_range, Bool.and_eq_true, State.checkLifecycleState,
    decide_eq_true_eq, decide_eq_true_eq]

/-! ## Memory outside of the images

The manifest and the ELF file lie below the container images; the service table, the delegation
table and the symbol bundles lie above them. -/

/-- The end of the last container image. -/
abbrev imagesEnd : Nat := containerImageBase + containerImageSize * pcChildMaxNum

/-- The memories are the same outside of the container images. -/
def SameOutside (m m' : Mem) : Prop :=
  ∀ x, x < containerImageBase ∨ imagesEnd ≤ x → m' x = m x

section

variable {P : Platform} {info : PayloadInfo} {m m' m'' : Mem} {p : Nat}

theorem SameOutside.trans (h : SameOutside m m') (h' : SameOutside m' m'') : SameOutside m m'' :=
  fun x hx => (h' x hx).trans (h x hx)

theorem SameOutside.agreeOn (h : SameOutside m m') {a n : Nat}
    (ha : a + n ≤ containerImageBase ∨ imagesEnd ≤ a) : AgreeOn a n m m' :=
  fun x hl hr => (h x (by omega)).symm

/-- A byte of a slice lies between the ends. -/
theorem mem_images {x : Nat} (hp : p < pcChildMaxNum) (hl : containerImage p ≤ x)
    (hr : x < containerImage p + containerImageSize) : containerImageBase ≤ x ∧ x < imagesEnd := by
  have hmul : containerImageSize * (p + 1) ≤ containerImageSize * pcChildMaxNum :=
    Nat.mul_le_mul_left _ hp
  rw [Nat.mul_add, Nat.mul_one] at hmul
  unfold containerImage monitorVmRegionBase at hl hr
  constructor
  · omega
  · unfold imagesEnd
    omega

theorem sameOutside_writes {stores : List (Nat × List UInt8)} (hp : p < pcChildMaxNum)
    (h : ∀ st ∈ stores, Within (containerImage p) containerImageSize st) (m : Mem) :
    SameOutside m (writes m stores) := by
  intro x hx
  refine agreeOn_writes (n := 1) (fun st hst => ?_) m x (Nat.le_refl x) (Nat.lt_succ_self x)
  obtain ⟨hl, hr⟩ := h st hst
  by_contra hin
  have hslice := mem_images (x := x) hp (by omega) (by omega)
  omega

theorem sameOutside_load (hp : p < pcChildMaxNum) (h : CopiesInside P m info p) :
    SameOutside m (protoconLoadPayload P m p (containerImage p) info.headerPayload
      info.elfPayloadSize) := by
  intro x hx
  have hout : x ∉ imageSlice p := fun hmem => by
    have hslice := mem_images hp hmem.1 hmem.2
    omega
  exact protoconLoadPayload_outside P m p _ _ _ (fun hmem => hout (h.header hmem))
    (fun hmem => hout (h.sym hmem)) fun hmem => hout (h.elf hmem)

/-- The place of the copies depends on the symbol bundle only. -/
theorem CopiesInside.congr (h : CopiesInside P m info p)
    (hbundle : P.symBundle m p = P.symBundle m' p) : CopiesInside P m' info p := by
  obtain ⟨hsource, hheader, hsym, helf, hapart⟩ := h
  unfold symRange at hsym hapart
  unfold elfRange at helf hapart
  rw [hbundle] at hsym helf hapart
  exact ⟨hsource, hheader, hsym, helf, hapart⟩

theorem SameOutside.copiesInside (h : SameOutside m m') (hcopies : CopiesInside P m info p) :
    CopiesInside P m' info p := by
  refine hcopies.congr (P.symBundle_congr (h.agreeOn (Or.inr ?_)))
  exact Nat.le_trans (by decide) (Nat.le_add_right mktsymbBase _)

theorem SameOutside.startable (h : SameOutside m m') (hdlg : ∀ d ∈ P.dlg, dlgTableBase ≤ d)
    (hstart : Startable P m p) : Startable P m' p := by
  obtain ⟨htcb, d, hd, hsize⟩ := hstart
  have hrecord : ∀ d ∈ P.dlg, AgreeOn d 16 m m' := fun d hd =>
    h.agreeOn (Or.inr (Nat.le_trans (by decide) (hdlg d hd)))
  refine ⟨htcb, d, ?_, ?_⟩
  · rw [← hd, dlgFindDelegator, dlgFindDelegator]
    refine List.find?_congr fun d hd => ?_
    rw [dlgPdId, dlgPdId, read64_congr ((hrecord d hd).part (b := d + 8) (by omega) (by omega))]
  · have hfield := hrecord d (List.mem_of_find?_eq_some hd)
    rwa [dlgRecordSizeOf, ← read16_congr (hfield.part (Nat.le_refl d) (by omega))]

/-- The entries of a manifest of at most 16 lie below the images. -/
theorem SameOutside.entry_eq (h : SameOutside m m')
    (hentries : info.serviceEntries = payloadStart + manifestHeaderSize)
    (hcount : info.serviceCount.toNat ≤ maxServiceEntries) :
    ∀ e ∈ info.entries, read32 m' e = read32 m e := by
  intro e he
  obtain ⟨i, hi, rfl⟩ := List.mem_map.mp he
  have hlt := List.mem_range.mp hi
  refine (read32_congr (h.agreeOn (Or.inl ?_))).symm
  rw [hentries]
  unfold maxServiceEntries at hcount
  unfold payloadStart manifestHeaderSize manifestEntrySize containerImageBase
  omega

/-- The manifest is parsed in a later memory as at the beginning. -/
theorem SameOutside.parse (h : SameOutside m m')
    (hentries : info.serviceEntries = payloadStart + manifestHeaderSize)
    (hcount : info.serviceCount.toNat ≤ maxServiceEntries) :
    ∃ req, serviceManifestParse m' info = some req ∧
      (∀ e ∈ req.serviceEntries, acceptsEntry m' e = true) ∧
      (∀ type, (req.serviceCountPerType type).toNat =
        req.serviceEntries.countP fun e => entryType m' e == type) ∧
      ∀ type, (req.serviceCountPerType type).toNat = requested m info type := by
  have hsame := h.entry_eq hentries hcount
  have hroom : info.entries.countP (acceptsEntry m') ≤ maxServiceEntries := by
    refine Nat.le_trans List.countP_le_length ?_
    rw [PayloadInfo.entries, List.length_map, List.length_range]
    exact hcount
  obtain ⟨req, hparse, haccepted, hcounts⟩ := serviceManifestParse_some hroom
  refine ⟨req, hparse, fun e he => ?_, hcounts, fun type => ?_⟩
  · rw [haccepted] at he
    exact (List.mem_filter.mp he).2
  · rw [hcounts type, haccepted, List.countP_filter, requested]
    refine List.countP_congr fun e he => ?_
    rw [acceptsEntry, acceptsEntry, entryType, entryType, hsame e he, Bool.and_comm]

end

/-! ## What the rounds have done -/

/-- What the rounds rely on: the quotas are the registry's, the delegation records lie in their
table, the manifest is an accepted one of at most 16 entries, and every protocon that may be
selected can be loaded and started. -/
structure Ready (P : Platform) (s₀ : State) (info : PayloadInfo) : Prop where
  quotas : ∃ table services, P.resourceQuota = refsOf table services
  delegators : ∀ d ∈ P.dlg, dlgTableBase ≤ d
  entries : info.serviceEntries = payloadStart + manifestHeaderSize
  count : info.serviceCount.toNat ≤ maxServiceEntries
  copies : ∀ p < pcChildMaxNum, s₀.lifecycle p = .passive → CopiesInside P s₀.mem info p
  startable : ∀ p < pcChildMaxNum, s₀.lifecycle p = .passive → Startable P s₀.mem p

/-- From `s₀` to `t` the protocons of `chosen` have been started, in this order. -/
structure Started (s₀ : State) (chosen : List Nat) (t : State) : Prop where
  lifecycle : ∀ p, t.lifecycle p = if p ∈ chosen then .active else s₀.lifecycle p
  starts : ∃ records, t.starts = records ++ s₀.starts ∧
    records.map StartRecord.pcId = chosen.reverse
  memory : SameOutside s₀.mem t.mem

section

variable {P : Platform} {s₀ s t : State} {info : PayloadInfo} {id p rounds : Nat}
  {chosen rest : List Nat}

theorem Started.refl (s₀ : State) : Started s₀ [] s₀ :=
  ⟨fun _ => rfl, ⟨[], rfl, rfl⟩, fun _ _ => rfl⟩

theorem Started.store (h : Started s₀ chosen s) (hl : t.lifecycle = s.lifecycle)
    (hs : t.starts = s.starts) (ht : SameOutside s.mem t.mem) :
    Started s₀ chosen t :=
  ⟨hl ▸ h.lifecycle, hs ▸ h.starts, h.memory.trans ht⟩

theorem Started.start (h : Started s₀ chosen s) (w : Installing) :
    Started s₀ (chosen ++ [w.plan.pcId]) (s.started id w) where
  lifecycle p := by
    show Function.update s.lifecycle w.plan.pcId .active p = _
    by_cases hp : p = w.plan.pcId
    · rw [hp, Function.update_self, if_pos (by simp)]
    · rw [Function.update_of_ne hp, h.lifecycle p]
      simp only [List.mem_append, List.mem_singleton, hp, or_false]
  starts := by
    obtain ⟨records, hstarts, hids⟩ := h.starts
    refine ⟨_ :: records, congrArg (List.cons _) hstarts, ?_⟩
    rw [List.map_cons, hids, List.reverse_append]
    rfl
  memory := h.memory

/-- The planner selects the first eligible protocon that has not been started yet. -/
theorem Started.select (h : Started s₀ chosen t)
    (heligible : eligible P s₀ info = chosen ++ rest)
    {req : ProtoconSvcReq}
    (hreq : ∀ type, (req.serviceCountPerType type).toNat = requested s₀.mem info type) :
    servicePlannerSelectProtocon P t req = rest.head? := by
  have hhost : ∀ p ∈ List.range pcChildMaxNum, canHost P t req p =
      (decide (p ∉ chosen) &&
        (s₀.checkLifecycleState p .passive && decide (Suffices P s₀.mem info p))) := by
    intro p _
    have hsuffices : servicePlannerCanSatisfyRequest req (P.resourceQuota p).availServicePerType =
        decide (Suffices P s₀.mem info p) := by
      rw [Bool.eq_iff_iff, decide_eq_true_eq, servicePlannerCanSatisfyRequest, List.all_eq_true]
      refine forall_congr' fun type => ?_
      rw [List.mem_range, decide_eq_true_eq, BitVec.le_def, hreq type]
    rw [canHost, hsuffices, State.checkLifecycleState, State.checkLifecycleState, h.lifecycle p]
    by_cases hp : p ∈ chosen
    · simp [hp]
    · simp [hp]
  have hnodup : (chosen ++ rest).Nodup := by
    rw [← heligible]
    exact (eligible_sorted P s₀ info).imp fun h => Nat.ne_of_lt h
  rw [servicePlannerSelectProtocon, ← List.head?_filter, List.filter_congr hhost,
    ← List.filter_filter, ← eligible, heligible, List.filter_append]
  have hchosen : chosen.filter (fun p => decide (p ∉ chosen)) = [] := by
    simp
  have hrest : rest.filter (fun p => decide (p ∉ chosen)) = rest := by
    rw [List.filter_eq_self]
    intro p hp
    rw [decide_eq_true_eq]
    exact fun hc => (List.nodup_append.mp hnodup).2.2 p hc p hp rfl
  rw [hchosen, hrest, List.nil_append]

theorem Ready.plan (h : Ready P s₀ info) {m : Mem} {req : ProtoconSvcReq}
    (haccepts : ∀ e ∈ req.serviceEntries, acceptsEntry m e = true)
    (hcounts : ∀ type, (req.serviceCountPerType type).toNat =
      req.serviceEntries.countP fun e => entryType m e == type)
    (hreq : ∀ type, (req.serviceCountPerType type).toNat = requested s₀.mem info type)
    (hsuffices : Suffices P s₀.mem info p) :
    ∃ plan, planFor P m req p = some plan := by
  obtain ⟨table, services, hquotas⟩ := h.quotas
  have hsatisfied : servicePlannerCanSatisfyRequest req
      (refsOf table services p).availServicePerType = true := by
    rw [servicePlannerCanSatisfyRequest, List.all_eq_true]
    intro type htype
    rw [decide_eq_true_eq, BitVec.le_def, hreq type, ← hquotas]
    exact hsuffices type (List.mem_range.mp htype)
  have henough : Enough m req.serviceEntries
      (refsOf table (Svc.mk 0 0 0 services).services p).availServicePerType :=
    enough_of_satisfied haccepts hcounts hsatisfied
  obtain ⟨sources, hplan, -⟩ := planFrom_own henough
  have hregistry := planFor_withRegistry P m P.resourceQuota req p
  rw [hquotas, hplan] at hregistry
  have hsame : P.withRegistry (refsOf table services) = P := by
    rw [← hquotas]
    rfl
  rw [hsame] at hregistry
  obtain ⟨plan, hfor, -⟩ := Option.map_eq_some_iff.mp hregistry
  exact ⟨plan, hfor⟩

/-! ## One round -/

theorem Startable.start (h : Startable P s.mem p) {w : Installing} (hp : w.plan.pcId = p) :
    protoconStart P s id w = some (s.started id w) := by
  obtain ⟨htcb, d, hd, hsize⟩ := h
  rw [← hp] at htcb hd
  rw [protoconStart, hd]
  dsimp only
  rw [if_neg (Nat.not_lt.mpr hsize), htcb, if_neg (by decide)]

/-- Cothread `id` waits in a data file for protocon `p`, with `rounds` rounds to go. -/
structure Waits (t : State) (id : Nat) (info : PayloadInfo) (p rounds : Nat) (c : Cothread)
    (w : Installing) (svc : Nat) (r : Reader) : Prop where
  cothread : t.cothreads id = some c
  point : c.point = .installing w
  reader : w.reader = some (svc, r)
  target : w.plan.pcId = p
  branch : w.branch = .untargeted rounds
  info : w.info = info

/-- The installer goes on to the next data file, or the protocon is started. -/
theorem Started.continue (h : Started s₀ chosen s) {c : Cothread} {w : Installing}
    (hc : s.cothreads id = some c) (hp : w.plan.pcId = p) (hbranch : w.branch = .untargeted rounds)
    (hinfo : w.info = info) (hstart : Startable P s.mem p) :
    (∃ t c' w' svc r, protoconContinue P s id w = some (t, .blocked) ∧
        Started s₀ chosen t ∧ Waits t id info p rounds c' w' svc r) ∨
      ∃ t c', protoconContinue P s id w = some (t, .started) ∧
        Started s₀ (chosen ++ [p]) t ∧ t.cothreads id = some c' ∧ c'.point = .running := by
  have hext := serviceInstallerNext_extends s.mem w
  have hpoint := State.cothreads_setPoint (.installing (serviceInstallerNext s.mem w)) hc
  unfold protoconContinue
  dsimp only
  generalize serviceInstallerNext s.mem w = w' at hext hpoint
  have hp' : w'.plan.pcId = p := by rw [hext.plan, hp]
  cases hreader : w'.reader with
  | some file =>
    refine .inl ⟨_, _, w', file.1, file.2, rfl, h.store rfl rfl fun _ _ => rfl, hpoint, rfl,
      hreader, hp', hext.branch.trans hbranch, hext.info.trans hinfo⟩
  | none =>
    have hserialised : Started s₀ chosen
        ((s.setPoint id (.installing w')).serialiseXrtReq w') := h.store rfl rfl fun _ _ => rfl
    have hstarted : Started s₀ (chosen ++ [w'.plan.pcId])
        (((s.setPoint id (.installing w')).serialiseXrtReq w').started id w') :=
      hserialised.start w'
    rw [hp'] at hstarted
    have hready : Startable P ((s.setPoint id (.installing w')).serialiseXrtReq w').mem p := hstart
    rw [hready.start hp']
    exact .inr ⟨_, _, rfl, hstarted, State.cothreads_setPoint .running hpoint, rfl⟩

/-! ## The loop -/

/-- Where the deployment of `n` containers that began in `s₀` stands. -/
inductive Stage (P : Platform) (s₀ : State) (info : PayloadInfo) (id n : Nat) (t : State) : Prop
  | waiting {chosen rest : List Nat} {p rounds : Nat} {c : Cothread} {w : Installing}
      {svc : Nat} {r : Reader} (started : Started s₀ chosen t)
      (next : eligible P s₀ info = chosen ++ p :: rest) (left : chosen.length + (rounds + 1) = n)
      (waits : Waits t id info p rounds c w svc r)
  | returned {c : Cothread} (started : Started s₀ ((eligible P s₀ info).take n) t)
      (cothread : t.cothreads id = some c) (point : c.point = .ended)

theorem Stage.finish (h : Started s₀ chosen s) {n : Nat} {c : Cothread}
    (hc : s.cothreads id = some c) (hall : chosen = (eligible P s₀ info).take n) :
    Stage P s₀ info id n (s.finishCothread id) := by
  obtain ⟨d, hd⟩ : ∃ d, (monitorFinishDeployRequest s (some id)).cothreads id = some d := by
    refine ⟨{ c with notified := c.notified + 1 }, ?_⟩
    show Function.update s.cothreads id _ id = _
    rw [Function.update_self]
    show Option.map _ (s.cothreads id) = _
    rw [hc]
    rfl
  have hended : (s.finishCothread id).cothreads id =
      some { d with point := .ended, atEnd := some (false, s.deployResult) } := by
    show Function.update (monitorFinishDeployRequest s (some id)).cothreads id _ id = _
    rw [Function.update_self, hd]
    rfl
  exact .returned (hall ▸ h.store rfl rfl fun _ _ => rfl) hended rfl

/-- One more protocon has been started, and one round less is left. -/
theorem round_done {n : Nat} {all : List Nat} (hnext : all = chosen ++ p :: rest)
    (hleft : chosen.length + (rounds + 1) = n) :
    all = (chosen ++ [p]) ++ rest ∧ (chosen ++ [p]).length + rounds = n := by
  constructor
  · rw [hnext, List.append_assoc]
    rfl
  · rw [List.length_append, List.length_singleton]
    omega

/-- The rounds that are left, from a state in which the cothread runs. -/
theorem Ready.deployRounds (hready : Ready P s₀ info) {n : Nat} {c : Cothread}
    (h : Started s₀ chosen s) (heligible : eligible P s₀ info = chosen ++ rest)
    (hleft : chosen.length + rounds = n) (hc : s.cothreads id = some c)
    (hrun : c.point = .running) :
    ∃ t, deployRounds P id info rounds s = some t ∧ Stage P s₀ info id n t := by
  induction rounds generalizing s chosen rest c with
  | zero =>
    refine ⟨_, rfl, Stage.finish h hc ?_⟩
    rw [heligible, ← hleft, Nat.add_zero, List.take_left]
  | succ rounds ih =>
    obtain ⟨req, hparse, haccepts, hcounts, hreq⟩ :=
      h.memory.parse hready.entries hready.count
    have hselect := h.select heligible hreq
    rw [Monitor.deployRounds, protoconDeploy, protoconDeployWith, hparse]
    dsimp only
    rw [hselect]
    cases rest with
    | nil =>
      refine ⟨_, rfl, Stage.finish h hc ?_⟩
      rw [heligible, List.append_nil, List.take_of_length_le (by omega)]
    | cons p rest =>
      have hp : p ∈ eligible P s₀ info := by
        rw [heligible]
        exact List.mem_append_right _ List.mem_cons_self
      obtain ⟨hlt, hpassive, hsuffices⟩ := mem_eligible.mp hp
      have hcopies := h.memory.copiesInside (hready.copies p hlt hpassive)
      obtain ⟨plan, hplan⟩ := hready.plan haccepts hcounts hreq hsuffices
      obtain ⟨hpc, hbase⟩ := planFor_pcId hplan
      simp only [List.head?_cons, hplan]
      have hloaded : Started s₀ chosen
          (protoconPreInstantiate P s id info (.untargeted rounds) plan) := by
        refine h.store rfl rfl ?_
        show SameOutside s.mem (protoconLoadPayload P s.mem plan.pcId plan.pcBase _ _)
        rw [hpc, hbase]
        exact sameOutside_load hlt hcopies
      have hstart := hloaded.memory.startable hready.delegators (hready.startable p hlt hpassive)
      have hpoint : (protoconPreInstantiate P s id info (.untargeted rounds) plan).cothreads id =
          some _ := State.cothreads_setPoint (.installing _) hc
      rcases hloaded.continue hpoint (w := .begin P (protoconPreInstantiate P s id info
          (.untargeted rounds) plan).mem info (.untargeted rounds) plan) hpc rfl rfl hstart with
        ⟨t, c', w', svc, r, hblocked, hstarted, hwaits⟩ | ⟨t, c', hdone, hstarted, hc', hrun'⟩
      · rw [hblocked]
        exact ⟨t, rfl, .waiting hstarted heligible hleft hwaits⟩
      · rw [hdone]
        obtain ⟨hnext, hleft'⟩ := round_done heligible hleft
        exact ih hstarted hnext hleft' hc' hrun'

/-! ## The data files -/

/-- `sizeof(Elf64_Ehdr)` -/
def ehdrSize : Nat := 64

/-- The answer to cothread `id` does not make it free a buffer that is not in use, and what is
stored goes to the image of the protocon that is being installed, behind the ELF header. -/
def InOwnImage (id : Nat) (s : State) (answer : Completion) : Prop :=
  ∀ file ∈ s.blockedIn id,
    (∀ fd, file.2.phase = .abandoning fd → answer.bufferUsed = true) ∧
      ∀ st ∈ (file.2.resume answer).1,
        Within (containerImage file.1.plan.pcId) containerImageSize st ∧
          file.1.elfBase.toNat + ehdrSize ≤ st.1

/-- With the buffer in use the installer goes on. -/
theorem serviceInstallerResume_isSome {m : Mem} {w : Installing} {svc : Nat} {r : Reader}
    {answer : Completion} (h : ∀ fd, r.phase = .abandoning fd → answer.bufferUsed = true) :
    ∃ w', serviceInstallerResume m w svc r answer = some ((r.resume answer).1, w') := by
  have hnot : (r.resume answer).2 ≠ .asserted := by
    unfold Reader.resume Reader.opened Reader.afterRead
    cases hphase : r.phase with
    | opening | sizing fd | reading fd pos | closing fd pos =>
      dsimp only
      repeat' split
      all_goals exact fun h => by cases h
    | abandoning fd =>
      dsimp only
      rw [h fd hphase, if_pos rfl, if_pos rfl]
      exact fun h => by cases h
  rw [serviceInstallerResume]
  cases houtcome : r.resume answer with
  | mk stores outcome =>
    rw [houtcome] at hnot
    cases outcome with
    | waiting r => exact ⟨_, rfl⟩
    | returned size err => exact ⟨_, rfl⟩
    | asserted => exact absurd rfl hnot

theorem Ready.resume (hready : Ready P s₀ info) {n : Nat} {env : Env} {c : Cothread}
    {w : Installing} {svc : Nat} {r : Reader} {answer : Completion}
    (h : Started s₀ chosen s) (hnext : eligible P s₀ info = chosen ++ p :: rest)
    (hleft : chosen.length + (rounds + 1) = n) (hwaits : Waits s id info p rounds c w svc r)
    (hown : InOwnImage id s answer) :
    ∃ t, resumeCothread P env s id answer = some t ∧ Stage P s₀ info id n t := by
  have hp : p ∈ eligible P s₀ info := by
    rw [hnext]
    exact List.mem_append_right _ List.mem_cons_self
  obtain ⟨hlt, hpassive, -⟩ := mem_eligible.mp hp
  obtain ⟨hused, hstores⟩ := hown (w, r)
    (State.blockedIn_eq hwaits.cothread hwaits.point hwaits.reader)
  obtain ⟨w', hresume⟩ := @serviceInstallerResume_isSome s.mem w svc r answer hused
  have hext := serviceInstallerResume_extends hresume
  rw [resumeCothread, hwaits.cothread]
  dsimp only
  rw [hwaits.point]
  dsimp only
  rw [hwaits.reader]
  dsimp only
  rw [resumeInstalling, hresume]
  have hstored : Started s₀ chosen { s with mem := writes s.mem (r.resume answer).1 } :=
    h.store rfl rfl
      (sameOutside_writes hlt (fun st hst => hwaits.target ▸ (hstores st hst).1) s.mem)
  have hstart := hstored.memory.startable hready.delegators (hready.startable p hlt hpassive)
  have hbranch : w'.branch = .untargeted rounds := hext.branch.trans hwaits.branch
  have hinfo : w'.info = info := hext.info.trans hwaits.info
  dsimp only
  rcases hstored.continue hwaits.cothread (by rw [hext.plan, hwaits.target]) hbranch hinfo hstart
    with ⟨t, c', w'', svc', r', hblocked, hstarted, hwaits'⟩ | ⟨t, c', hdone, hstarted, hc', hrun⟩
  · rw [hblocked]
    exact ⟨t, rfl, .waiting hstarted hnext hleft hwaits'⟩
  · rw [hdone]
    dsimp only
    rw [hbranch, hinfo]
    obtain ⟨hnext', hleft'⟩ := round_done hnext hleft
    exact hready.deployRounds hstarted hnext' hleft' hc' hrun

end

/-! ## The deployment -/

/-- The only events are completions for cothread `id` that meet `ok`. -/
def ResumedOnly (ok : State → Completion → Prop) (id : Nat) (s : State) (e : Event) : Prop :=
  ∃ c env, e = .resume id c env ∧ ok s c

/-- An untargeted deployment of `n` containers, whose cothread `id` is only resumed by completions
that meet `ok`: until it has started what it can, it goes on with the next completion. -/
def DeploysSmallest (P : Platform) (env : Env) (ok : State → Completion → Prop) (s : State)
    (info : PayloadInfo) (id n : Nat) : Prop :=
  ∃ s₁, monitorCallDeploySecondHalf P env s id = some s₁ ∧
    ∀ t, Reaches (step P) (ResumedOnly ok id) s₁ t →
      (∃ c, t.cothreads id = some c ∧ c.point = .ended) ∧
          StartsSmallest s t (eligible P s info) n ∨
        t.Alive id ∧ ∀ c env', ok t c → ∃ t', step P t (.resume id c env') = some t'

/-- Cothread `id` begins an untargeted deployment of `n` containers in state `s`: the monitor is
initialised with the service table `svc`, the image `info` is accepted, and `protocon_start` meets
no assertion. -/
structure Begins (P : Platform) (svc : Svc) (s : State) (info : PayloadInfo) (id n : Nat) :
    Prop where
  initialised : P.Initialised svc
  running : ∃ c, s.cothreads id = some c ∧ c.point = .running
  targeted : s.deployRequest.targeted = false
  count : s.deployRequest.numReqPc.toNat = n
  positive : 1 ≤ n
  le : n ≤ P.numPc
  accepted : serviceManifestHeaderParse s.mem payloadStart = some info
  entries : info.serviceCount.toNat ≤ maxServiceEntries
  startable : ∀ p < pcChildMaxNum, s.lifecycle p = .passive → Startable P s.mem p

/-- The deployment stays inside what it is given: the image fits where it is copied from and to,
its section headers lie in the ELF file, and the service records are well formed.  On a machine
the monitor faults where it reads or writes elsewhere; the memory here has no end, so that a
read outside finds something. -/
structure Fits (P : Platform) (svc : Svc) (s : State) (info : PayloadInfo) : Prop where
  copies : ∀ p < pcChildMaxNum, s.lifecycle p = .passive → CopiesInside P s.mem info p
  sections : (read64 s.mem (info.headerPayload + 40)).toNat +
    shdrSize * (read16 s.mem (info.headerPayload + 60)).toNat ≤ info.elfPayloadSize.toNat
  records : WellFormed s.mem svc.services

section

variable {P : Platform} {svc : Svc} {s : State} {info : PayloadInfo} {id n : Nat}

theorem Begins.ready (h : Begins P svc s info id n) (hfits : Fits P svc s info) :
    Ready P s info where
  quotas := ⟨P.storage, svc.services, h.initialised.resourceQuota_eq⟩
  delegators _ hd := h.initialised.dlgTableBase_le hd
  entries := (serviceManifestHeaderParse_some h.accepted).2.1
  count := h.entries
  copies := hfits.copies
  startable := h.startable

/-- As long as the answers keep to the image that is being installed, an untargeted deployment
starts the smallest protocons it can. -/
theorem untargetedDeployment (h : Begins P svc s info id n) (hfits : Fits P svc s info)
    (env : Env) : DeploysSmallest P env (InOwnImage id) s info id n := by
  have hready := h.ready hfits
  obtain ⟨c, hc, hrun⟩ := h.running
  obtain ⟨s₁, hs₁, hstage⟩ := hready.deployRounds (Started.refl s)
    (List.nil_append _).symm (show ([] : List Nat).length + n = n from Nat.zero_add n) hc hrun
  have hcheck : monitorCheckDeployNum P s.deployRequest.numReqPc.toNat = true := by
    rw [monitorCheckDeployNum, h.count, Bool.and_eq_true, decide_eq_true_eq, decide_eq_true_eq]
    exact ⟨h.positive, h.le⟩
  refine ⟨s₁, ?_, fun t ht => ?_⟩
  · rw [monitorCallDeploySecondHalf, h.targeted, hcheck, h.accepted, h.count]
    exact hs₁
  have hreached : Stage P s info id n t := by
    refine ht.invariant hstage fun t e t' hstage hok hstep => ?_
    obtain ⟨answer, env', rfl, hown⟩ := hok
    cases hstage with
    | waiting started next left waits =>
      obtain ⟨t'', ht'', hstage'⟩ : ∃ t'', resumeCothread P env' t id answer = some t'' ∧
          Stage P s info id n t'' := hready.resume started next left waits hown
      obtain rfl := Option.some.inj (ht''.symm.trans hstep)
      exact hstage'
    | returned _ cothread point =>
      simp only [step, resumeCothread, cothread, point] at hstep
      cases hstep
  cases hreached with
  | waiting started next left waits =>
    refine .inr ⟨⟨_, waits.cothread, ?_⟩, fun answer env' hown => ?_⟩
    · rw [Cothread.alive, waits.point]
      rfl
    · obtain ⟨t', ht', -⟩ := hready.resume started next left waits hown
      exact ⟨t', ht'⟩
  | returned started cothread point =>
    refine .inl ⟨⟨_, cothread, point⟩, _, smallest_take (eligible_sorted _ s info) n, ?_⟩
    exact ⟨started.starts, started.lifecycle⟩

end

/-! ## Two protocons and an image that overwrites its own manifest -/

/-- A deployment of two containers of the payload in `m`. -/
def twoRounds (m : Mem) : State :=
  State.spawn
    { lifecycle := fun p => if p < 2 then .passive else .unset
      mem := m
      deployRequest := { numReqPc := 2 }
      deployRequestActive := true }

theorem lt_two_of_passive {m : Mem} {p : Nat} (h : (twoRounds m).lifecycle p = .passive) :
    p < 2 := by
  by_contra hge
  have hunset : (twoRounds m).lifecycle p = .unset := if_neg hge
  rw [hunset] at h
  cases h

theorem twoRounds_begins {m : Mem}
    (hparse : serviceManifestHeaderParse m payloadStart = some oneEntryInfo)
    (hfind : ∀ p < 2, (dlgFindDelegator m (smallPlatform 2).dlg p).any
      (fun d => (dlgRecordSizeOf m d).toNat ≤ maxRecordSize) = true) :
    Begins (smallPlatform 2) smallServices (twoRounds m) oneEntryInfo 0 2 where
  initialised := smallPlatform_initialised 2
  running := ⟨_, rfl, rfl⟩
  targeted := rfl
  count := rfl
  positive := by decide
  le := by decide
  accepted := hparse
  entries := by decide
  startable p _ hp := by
    have hlt := lt_two_of_passive hp
    obtain ⟨d, hd, hsize⟩ := (Option.any_eq_true _ _).mp (hfind p hlt)
    exact ⟨decide_eq_true hlt, d, hd, of_decide_eq_true hsize⟩

theorem twoRounds_fits {m : Mem}
    (hparse : serviceManifestHeaderParse m payloadStart = some oneEntryInfo)
    (hsections : (read64 m (payloadStart + 84)).toNat +
      shdrSize * (read16 m (payloadStart + 104)).toNat ≤ 272)
    (hrecords : WellFormed m smallServices.services) :
    Fits (smallPlatform 2) smallServices (twoRounds m) oneEntryInfo where
  copies p _ _ := by
    obtain ⟨hheader, -, hcount, hsize, hne⟩ := serviceManifestHeaderParse_some hparse
    have hsource : oneEntryInfo.elfRange ⊆ payloadRegion := by
      rw [elfRange_subset_iff hparse, ← hcount, ← hsize]
      decide
    have hbundle : ((smallPlatform 2).symBundle m p).length ≤ maxSymBundle := by
      show 4 ≤ maxSymBundle
      decide
    exact (copiesInside_iff hsource hne hbundle).mpr
      (show 48 + 4 + 272 ≤ containerImageSize by decide)
  sections := hsections
  records := hrecords

theorem untargetedDeployment_two :
    DeploysSmallest (smallPlatform 2) {} (InOwnImage 0) (twoRounds oneEntryMem) oneEntryInfo
      0 2 := by
  have hparse : serviceManifestHeaderParse oneEntryMem payloadStart = some oneEntryInfo := by
    decide +kernel
  have hbegins := twoRounds_begins hparse (by decide +kernel)
  exact untargetedDeployment hbegins
    (twoRounds_fits hparse (by decide +kernel) (by decide +kernel)) {}

/-- The data section of the image lies, by its file offset, over the type of the manifest's
entry. -/
def overwritingMem : Mem :=
  write oneEntryMem (payloadStart + 196) (toLE (2 ^ 64 - 0x4900001C) 8)

/-- The data file of protocon 0 asks for a service of type 1 from then on. -/
def overwritingRun : List Event :=
  [{ success := true, fd := 3 }, { success := true }, { success := true, data := [1, 0, 0, 0] },
    { success := true }, { success := true }].map fun c => .resume 0 c {}

def overwrittenState : Option State :=
  (monitorCallDeploySecondHalf (smallPlatform 2) {} (twoRounds overwritingMem) 0).bind fun s =>
    run (step (smallPlatform 2)) s overwritingRun

/-- Both protocons are eligible, and only the first is started. -/
theorem not_untargetedDeployment :
    ¬ ∀ (P : Platform) (svc : Svc) (s : State) (info : PayloadInfo) (id n : Nat),
      Begins P svc s info id n → Fits P svc s info →
        DeploysSmallest P {} (fun _ _ => True) s info id n := by
  intro hclaim
  have hparse : serviceManifestHeaderParse overwritingMem payloadStart = some oneEntryInfo := by
    decide +kernel
  have hbegins := twoRounds_begins hparse (by decide +kernel)
  obtain ⟨s₁, hs₁, hall⟩ := hclaim _ _ _ _ _ _ hbegins
    (twoRounds_fits hparse (by decide +kernel) (by decide +kernel))
  obtain ⟨t, ht⟩ : ∃ t, overwrittenState = some t := by
    refine Option.isSome_iff_exists.mp ?_
    decide +kernel
  have hended : ∀ t ∈ overwrittenState, ∀ c ∈ t.cothreads 0, c.point.live = false := by
    decide +kernel
  have hstarts : ∀ t ∈ overwrittenState, t.starts.length = 1 := by decide +kernel
  have heligible : eligible (smallPlatform 2) (twoRounds overwritingMem) oneEntryInfo = [0, 1] := by
    decide +kernel
  have hrun := ht
  rw [overwrittenState, hs₁, Option.bind_some] at hrun
  have hmeets : RunMeets (step (smallPlatform 2)) (ResumedOnly (fun _ _ => True) 0) s₁
      overwritingRun := by
    refine runMeets_of_forall _ (fun e he s => ?_) _
    obtain ⟨c, -, rfl⟩ := List.mem_map.mp he
    exact ⟨c, {}, rfl, trivial⟩
  have hreach := reaches_of_run hmeets hrun
  rcases hall t hreach with ⟨-, chosen, hsmallest, ⟨records, hrecords, hids⟩, -⟩ | ⟨⟨c, hc, ha⟩, -⟩
  · have hlength := hsmallest.length
    rw [heligible] at hlength
    have hstarted := hstarts t ht
    have hids' := congrArg List.length hids
    rw [List.length_map, List.length_reverse] at hids'
    rw [hrecords, List.length_append] at hstarted
    have hnone : (twoRounds overwritingMem).starts.length = 0 := rfl
    rw [hlength] at hids'
    simp only [List.length_cons, List.length_nil] at hids'
    omega
  · have hdead := hended t ht c hc
    rw [Cothread.alive, hdead] at ha
    exact Bool.noConfusion ha

end Monitor
end Carrels
