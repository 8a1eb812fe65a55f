/-
The registry of available services (`service/service_registry.c`).

The records of the service table are filed by the protocon they are for and by their type,
up to eight of a kind.  The protocon's number is taken from the record and used as an index
as it is; the number of protocons is a parameter of the function and plays no part in it.
-/
import Mathlib.Data.List.Induction
import Carrels.Monitor.ServiceTable
import Carrels.Monitor.State

namespace Carrels
namespace Monitor

open ByteMemory

/-! ## The registry -/

/-- `SVC_PER_TYPE_MAX_NUM` -/
abbrev svcPerTypeMaxNum : Nat := 8

/-- `pd_id` of the record at `p`. -/
def svcPdId (m : Mem) (p : Nat) : BitVec 64 := read64 m (p + 4)

/-- `service_type` of the record at `p`. -/
def svcServiceType (m : Mem) (p : Nat) : Nat := (m (p + 13)).toNat

/-- The end of the loop's body: the record becomes service number `idx` of its type. -/
def ResourceQuota.add (refs : ResourceQuota) (type service : Nat) : ResourceQuota :=
  let idx := refs.availServicePerType type
  { availServicePerType := Function.update refs.availServicePerType type (idx + 1)
    availServiceRefs := Function.update refs.availServiceRefs type
      (Function.update (refs.availServiceRefs type) idx.toNat (some service)) }

/-- The body of the loop of `service_registry_create`; `none` where it leaves
`protocon_states`. -/
def registerService (m : Mem) (states : Nat → ResourceQuota) (service : Nat) :
    Option (Nat → ResourceQuota) :=
  let type := svcServiceType m service
  if svcTypeMaxNum ≤ type then some states
  else
    let pcId := (svcPdId m service).toNat
    if pcChildMaxNum ≤ pcId then none
    else if svcPerTypeMaxNum ≤ ((states pcId).availServicePerType type).toNat then some states
    else some (Function.update states pcId ((states pcId).add type service))

/-- `service_registry_create` -/
def serviceRegistryCreate (m : Mem) (svcdbList : Option Svc) (states : Nat → ResourceQuota)
    (_pcNum : Nat) : Option (Nat → ResourceQuota) :=
  match svcdbList with
  | none => some states
  | some svc => svc.services.foldlM (registerService m) states

/-! ## What it computes -/

/-- The records of one type for protocon `pcId`, in the order of the table. -/
def recordsFor (m : Mem) (services : List Nat) (pcId type : Nat) : List Nat :=
  services.filter fun r =>
    svcServiceType m r < svcTypeMaxNum && (svcPdId m r).toNat == pcId && svcServiceType m r == type

/-- The first eight records of each type. -/
def refsOf (m : Mem) (services : List Nat) (pcId : Nat) : ResourceQuota where
  availServicePerType type :=
    BitVec.ofNat 32 (min svcPerTypeMaxNum (recordsFor m services pcId type).length)
  availServiceRefs type i := ((recordsFor m services pcId type).take svcPerTypeMaxNum)[i]?

/-- The record leads out of `protocon_states`. -/
def leavesStates (m : Mem) (service : Nat) : Bool :=
  svcServiceType m service < svcTypeMaxNum && pcChildMaxNum ≤ (svcPdId m service).toNat

theorem refsOf_nil (m : Mem) : refsOf m [] = fun _ => {} := by
  funext pcId
  simp [refsOf, recordsFor]

theorem recordsFor_append_of_eq (m : Mem) (services : List Nat) {r : Nat}
    (htype : svcServiceType m r < svcTypeMaxNum) :
    recordsFor m (services ++ [r]) (svcPdId m r).toNat (svcServiceType m r) =
      recordsFor m services (svcPdId m r).toNat (svcServiceType m r) ++ [r] := by
  simp [recordsFor, List.filter_append, htype]

theorem recordsFor_append_of_ne (m : Mem) (services : List Nat) {r pcId type : Nat}
    (h : ¬ (svcServiceType m r < svcTypeMaxNum ∧ (svcPdId m r).toNat = pcId ∧
      svcServiceType m r = type)) :
    recordsFor m (services ++ [r]) pcId type = recordsFor m services pcId type := by
  rw [recordsFor, List.filter_append, List.filter_cons_of_neg, List.filter_nil,
    List.append_nil, recordsFor]
  simpa [and_assoc] using h

theorem toNat_availServicePerType (m : Mem) (services : List Nat) (pcId type : Nat) :
    ((refsOf m services pcId).availServicePerType type).toNat =
      min svcPerTypeMaxNum (recordsFor m services pcId type).length := by
  show (BitVec.ofNat 32 _).toNat = _
  rw [BitVec.toNat_ofNat, Nat.mod_eq_of_lt]
  unfold svcPerTypeMaxNum
  omega

/-- A record of another protocon, or of no known type. -/
theorem refsOf_append_other (m : Mem) (services : List Nat) {r pcId : Nat}
    (h : ¬ (svcServiceType m r < svcTypeMaxNum ∧ (svcPdId m r).toNat = pcId)) :
    refsOf m (services ++ [r]) pcId = refsOf m services pcId := by
  have hsame : ∀ type, recordsFor m (services ++ [r]) pcId type =
      recordsFor m services pcId type :=
    fun type => recordsFor_append_of_ne m services fun h' => h ⟨h'.1, h'.2.1⟩
  simp only [refsOf, hsame]

section

variable {m : Mem} {services : List Nat} {r : Nat}

theorem refsOf_append_full (htype : svcServiceType m r < svcTypeMaxNum)
    (hfull : svcPerTypeMaxNum ≤
      (recordsFor m services (svcPdId m r).toNat (svcServiceType m r)).length) :
    refsOf m (services ++ [r]) (svcPdId m r).toNat = refsOf m services (svcPdId m r).toNat := by
  have hself := recordsFor_append_of_eq m services htype
  unfold refsOf
  congr 1
  · funext type
    by_cases heq : svcServiceType m r = type
    · subst heq
      rw [hself, List.length_append, Nat.min_eq_left (by omega), Nat.min_eq_left hfull]
    · rw [recordsFor_append_of_ne m services fun h => heq h.2.2]
  · funext type
    by_cases heq : svcServiceType m r = type
    · subst heq
      rw [hself, List.take_append_of_le_length hfull]
    · rw [recordsFor_append_of_ne m services fun h => heq h.2.2]

theorem refsOf_append_add (htype : svcServiceType m r < svcTypeMaxNum)
    (hroom : (recordsFor m services (svcPdId m r).toNat (svcServiceType m r)).length <
      svcPerTypeMaxNum) :
    refsOf m (services ++ [r]) (svcPdId m r).toNat =
      (refsOf m services (svcPdId m r).toNat).add (svcServiceType m r) r := by
  have hself := recordsFor_append_of_eq m services htype
  have hcount := toNat_availServicePerType m services (svcPdId m r).toNat (svcServiceType m r)
  rw [Nat.min_eq_right (Nat.le_of_lt hroom)] at hcount
  unfold ResourceQuota.add
  dsimp only
  rw [hcount]
  unfold refsOf
  congr 1
  · funext type
    by_cases heq : type = svcServiceType m r
    · subst heq
      show BitVec.ofNat 32 (min _ (recordsFor m (services ++ [r]) _ _).length) = _
      rw [Function.update_self, hself, List.length_append, List.length_singleton,
        Nat.min_eq_right hroom]
      show _ = BitVec.ofNat 32 (min _ (recordsFor m services _ _).length) + 1
      rw [Nat.min_eq_right (Nat.le_of_lt hroom), Nat.succ_eq_add_one, BitVec.ofNat_add]
      rfl
    · rw [Function.update_of_ne heq, recordsFor_append_of_ne m services fun h => heq h.2.2.symm]
  · funext type
    by_cases heq : type = svcServiceType m r
    · subst heq
      funext i
      show ((recordsFor m (services ++ [r]) _ _).take _)[i]? = _
      rw [Function.update_self, hself,
        List.take_of_length_le (by rw [List.length_append, List.length_singleton]; omega)]
      by_cases hi : i = (recordsFor m services (svcPdId m r).toNat (svcServiceType m r)).length
      · rw [hi, Function.update_self, List.getElem?_concat_length]
      · rw [Function.update_of_ne hi]
        show _ = ((recordsFor m services _ _).take _)[i]?
        rw [List.take_of_length_le (Nat.le_of_lt hroom)]
        rcases Nat.lt_or_gt_of_ne hi with hlt | hgt
        · rw [List.getElem?_append_left hlt]
        · have hlength : (recordsFor m services (svcPdId m r).toNat (svcServiceType m r) ++
              [r]).length ≤ i := by
            rw [List.length_append, List.length_singleton]
            omega
          rw [List.getElem?_eq_none hlength, List.getElem?_eq_none (Nat.le_of_lt hgt)]
    · rw [Function.update_of_ne heq, recordsFor_append_of_ne m services fun h => heq h.2.2.symm]

end

/-- One record, filed behind the ones before it. -/
theorem registerService_refsOf (m : Mem) (services : List Nat) (r : Nat) :
    registerService m (refsOf m services) r =
      if leavesStates m r then none else some (refsOf m (services ++ [r])) := by
  unfold registerService
  dsimp only
  by_cases hknown : svcServiceType m r < svcTypeMaxNum
  · rw [if_neg (by omega)]
    by_cases hleaves : pcChildMaxNum ≤ (svcPdId m r).toNat
    · have hout : leavesStates m r = true := by
        simp only [leavesStates, hknown, hleaves, decide_true, Bool.and_self]
      rw [if_pos hleaves, hout, if_pos rfl]
    · have hin : leavesStates m r = false := by
        simp only [leavesStates, hleaves, decide_false, Bool.and_false]
      rw [if_neg hleaves, hin, toNat_availServicePerType, if_neg Bool.false_ne_true]
      by_cases hfull : svcPerTypeMaxNum ≤
          (recordsFor m services (svcPdId m r).toNat (svcServiceType m r)).length
      · rw [if_pos (by omega)]
        congr 1
        funext pcId
        by_cases hpc : (svcPdId m r).toNat = pcId
        · rw [← hpc, refsOf_append_full hknown hfull]
        · exact (refsOf_append_other m services fun h => hpc h.2).symm
      · rw [if_neg (by omega)]
        congr 1
        funext pcId
        by_cases hpc : pcId = (svcPdId m r).toNat
        · rw [hpc, Function.update_self, refsOf_append_add hknown (by omega)]
        · rw [Function.update_of_ne hpc, refsOf_append_other m services fun h => hpc h.2.symm]
  · have hin : leavesStates m r = false := by
      simp only [leavesStates, hknown, decide_false, Bool.false_and]
    rw [if_pos (by omega), hin, if_neg Bool.false_ne_true]
    congr 1
    funext pcId
    exact (refsOf_append_other m services fun h => hknown h.1).symm

theorem foldlM_registerService (m : Mem) (services : List Nat) :
    services.foldlM (registerService m) (fun _ => {}) =
      if services.any (leavesStates m) then none else some (refsOf m services) := by
  induction services using List.reverseRecOn with
  | nil => rw [refsOf_nil]; rfl
  | append_singleton services r ih =>
    rw [List.foldlM_append, ih, List.any_append]
    cases hany : services.any (leavesStates m) with
    | true => rfl
    | false =>
      rw [if_neg Bool.false_ne_true, Bool.false_or, List.any_cons, List.any_nil, Bool.or_false,
        Option.bind_eq_bind, Option.bind_some, List.foldlM_cons,
        registerService_refsOf]
      cases leavesStates m r with
      | true => rfl
      | false => rfl

/-! ## Records of the protocons there are -/

/-- The record has a known type and is for one of `pcNum` protocons. -/
def counts (m : Mem) (pcNum service : Nat) : Bool :=
  svcServiceType m service < svcTypeMaxNum && (svcPdId m service).toNat < pcNum

/-- The registry made from zeroed quotas holds the first eight records of each protocon and
each type, and the other records might as well not be there. -/
def RecordsServices (m : Mem) (svc : Svc) (pcNum : Nat) : Prop :=
  ∃ states, serviceRegistryCreate m (some svc) (fun _ => {}) pcNum = some states ∧
    (∀ p < pcNum, ∀ t < svcTypeMaxNum,
      ((states p).availServicePerType t).toNat =
        min svcPerTypeMaxNum (recordsFor m svc.services p t).length ∧
      ∀ i, (states p).availServiceRefs t i =
        ((recordsFor m svc.services p t).take svcPerTypeMaxNum)[i]?) ∧
    serviceRegistryCreate m (some { svc with services := svc.services.filter (counts m pcNum) })
      (fun _ => {}) pcNum = some states

theorem serviceRegistryCreate_eq (m : Mem) (svc : Svc) (pcNum : Nat) :
    serviceRegistryCreate m (some svc) (fun _ => {}) pcNum =
      if svc.services.any (leavesStates m) then none else some (refsOf m svc.services) :=
  foldlM_registerService m svc.services

/-- Where only records of unknown types are left out, the registry is the same. -/
theorem refsOf_filter_counts {m : Mem} {services : List Nat} {pcNum : Nat}
    (h : ∀ r ∈ services, svcServiceType m r < svcTypeMaxNum → (svcPdId m r).toNat < pcNum) :
    refsOf m (services.filter (counts m pcNum)) = refsOf m services := by
  have hrecords : ∀ pcId type, recordsFor m (services.filter (counts m pcNum)) pcId type =
      recordsFor m services pcId type := by
    intro pcId type
    rw [recordsFor, List.filter_filter, recordsFor]
    refine List.filter_congr fun r hr => ?_
    by_cases htype : svcServiceType m r < svcTypeMaxNum
    · simp only [counts, htype, h r hr htype, decide_true, Bool.and_self, Bool.and_true]
    · simp only [htype, decide_false, Bool.false_and]
  funext pcId
  simp only [refsOf, hrecords]

/-- The registry is the one the table describes exactly when no record of a known type names
a protocon that does not exist. -/
theorem registryRecordsServices (m : Mem) (svc : Svc) {pcNum : Nat} (hnum : pcNum ≤ pcChildMaxNum) :
    RecordsServices m svc pcNum ↔
      ∀ r ∈ svc.services, svcServiceType m r < svcTypeMaxNum → (svcPdId m r).toNat < pcNum := by
  unfold RecordsServices
  simp only [serviceRegistryCreate_eq]
  constructor
  · rintro ⟨states, hcreate, -, hfiltered⟩ r hr htype
    rw [Option.ite_none_left_eq_some, Option.some_inj] at hcreate hfiltered
    by_contra hge
    have hmem : r ∈ recordsFor m svc.services (svcPdId m r).toNat (svcServiceType m r) := by
      rw [recordsFor, List.mem_filter]
      simp [hr, htype]
    have hnone : recordsFor m (svc.services.filter (counts m pcNum)) (svcPdId m r).toNat
        (svcServiceType m r) = [] := by
      rw [recordsFor, List.filter_eq_nil_iff]
      intro r' hr' hmatch
      have hcounts := (List.mem_filter.mp hr').2
      simp only [counts, Bool.and_eq_true, decide_eq_true_eq, beq_iff_eq] at hcounts hmatch
      omega
    -- The quota of the named protocon would have to be empty and not empty.
    have hcount := toNat_availServicePerType m svc.services (svcPdId m r).toNat
      (svcServiceType m r)
    rw [hcreate.2, ← hfiltered.2, toNat_availServicePerType, hnone, List.length_nil] at hcount
    have hpos := List.length_pos_of_mem hmem
    unfold svcPerTypeMaxNum at hcount
    omega
  · intro h
    have hstay : ∀ services : List Nat, (∀ r ∈ services, r ∈ svc.services) →
        ¬ services.any (leavesStates m) = true := by
      intro services hsub hany
      obtain ⟨r, hr, hleaves⟩ := List.any_eq_true.mp hany
      simp only [leavesStates, Bool.and_eq_true, decide_eq_true_eq] at hleaves
      have hlt := h r (hsub r hr) hleaves.1
      omega
    refine ⟨refsOf m svc.services, if_neg (hstay _ fun _ hr => hr), fun p _ t _ => ?_, ?_⟩
    · exact ⟨toNat_availServicePerType m svc.services p t, fun _ => rfl⟩
    · rw [if_neg (hstay _ fun _ hr => (List.mem_filter.mp hr).1), refsOf_filter_counts h]

/-! ## Small tables -/

/-- A record; a resource is its kind and its value. -/
def recordOf (pdId type : Nat) (path : List UInt8) (resources : List (Nat × Nat) := []) :
    List UInt8 :=
  toLE (22 + 9 * resources.length + path.length) 4 ++ toLE pdId 8 ++ [0, UInt8.ofNat type] ++
    toLE resources.length 4 ++ toLE path.length 4 ++
    (resources.flatMap fun r => toLE r.1 1 ++ toLE r.2 8) ++ path

/-- The service table of these records. -/
def tableOf (records : List (List UInt8)) : List UInt8 :=
  svcMagic ++ toLE 1 2 ++ toLE 0 2 ++ toLE records.length 4 ++
    toLE (20 + records.flatten.length) 4 ++ records.flatten

deriving instance DecidableEq for Svc

/-- Two services of type 0 and one of no known type, all for protocon `pdId`. -/
def threeRecords (pdId : Nat) : Mem :=
  ofList (tableOf [recordOf pdId 0 [], recordOf pdId 9 [], recordOf pdId 0 []])

def threeServices : Svc where
  version := 1
  serviceCount := 3
  totalSize := 86
  services := [20, 42, 64]

theorem registryRecordsServices_three : RecordsServices (threeRecords 1) threeServices 2 :=
  (registryRecordsServices (threeRecords 1) threeServices (by decide)).mpr (by decide +kernel)

/-- Services for protocon 2 of two. -/
theorem not_registryRecordsServices :
    ¬ ∀ (m : Mem) (base : Nat) (svc : Svc) (pcNum : Nat), svcParse m base = some svc →
      pcNum ≤ pcChildMaxNum → RecordsServices m svc pcNum := by
  intro hclaim
  have hparse : svcParse (threeRecords 2) 0 = some threeServices := by decide +kernel
  obtain ⟨states, hcreate, -, hfiltered⟩ := hclaim _ _ _ 2 hparse (by decide)
  rw [serviceRegistryCreate_eq, Option.ite_none_left_eq_some, Option.some_inj] at hcreate hfiltered
  have hfull : refsOf (threeRecords 2) [20, 42, 64] = states := hcreate.2
  have hkept : refsOf (threeRecords 2) ([20, 42, 64].filter (counts (threeRecords 2) 2)) =
      states := hfiltered.2
  have hsame := congrArg (fun refs => (refs 2).availServicePerType 0) (hfull.trans hkept.symm)
  exact absurd hsame (by decide +kernel)

end Monitor
end Carrels
