/-
The service table (`include/service/manifest.h`).

`svc_parse` steps over at most 64 records.  It computes the size a record should have in
32 bits, so besides the tables of the format it accepts some in which a record claims to be
2^32 bytes longer than it is; `Overflows` describes them.
-/
import Mathlib.Data.List.Basic
import Carrels.Lib.Bytes
import Carrels.Lib.Records

namespace Carrels
namespace Monitor

open ByteMemory Records

/-- `SVC_MAX_SERVICES` -/
def svcMaxServices : Nat := 64

/-- `SVC_HEADER_SIZE` -/
def svcHeaderSize : Nat := 20

/-- `SVC_SERVICE_HEADER_SIZE` -/
def svcServiceHeaderSize : Nat := 22

/-- `SVC_RESOURCE_SIZE` -/
def svcResourceSize : Nat := 9

/-- `SVC_VERSION` -/
def svcVersion : BitVec 16 := 1

def svcMagic : List UInt8 := bytes "OSSvc" ++ [0, 0, 0]

/-- `svc_t`; the services are addresses. -/
structure Svc where
  version : BitVec 16
  serviceCount : BitVec 32
  totalSize : BitVec 32
  services : List Nat

/-- `record_size` of the record at `p`. -/
def svcRecordSize (m : Mem) (p : Nat) : BitVec 32 := read32 m p

/-- `resource_count` of the record at `p`. -/
def svcResourceCount (m : Mem) (p : Nat) : BitVec 32 := read32 m (p + 14)

/-- `path_len` of the record at `p`. -/
def svcPathLen (m : Mem) (p : Nat) : BitVec 32 := read32 m (p + 18)

/-- `expected_size` of the record at `p`. -/
def svcExpectedSize (m : Mem) (p : Nat) : BitVec 32 :=
  BitVec.ofNat 32 svcServiceHeaderSize + svcResourceCount m p * BitVec.ofNat 32 svcResourceSize +
    svcPathLen m p

/-- The size of the record at `p`, if the parser accepts it. -/
def svcAcceptedSize (m : Mem) (p : Nat) : Option Nat :=
  if svcRecordSize m p != svcExpectedSize m p then none else some (svcRecordSize m p).toNat

/-- `svc_parse`; `none` is its `false`. -/
def svcParse (m : Mem) (base : Nat) : Option Svc :=
  if !memEq m base svcMagic then none
  else
    let version := read16 m (base + 8)
    let serviceCount := read32 m (base + 12)
    let totalSize := read32 m (base + 16)
    if version != svcVersion || svcMaxServices < serviceCount.toNat ||
        totalSize.toNat < svcHeaderSize then none
    else
      match walk svcServiceHeaderSize (base + totalSize.toNat) (svcAcceptedSize m)
        serviceCount.toNat (base + svcHeaderSize) with
      | none => none
      | some (services, p) =>
        if p = base + totalSize.toNat then
          some { version, serviceCount, totalSize, services }
        else none

/-- `svc_service_resource`; the offset is a product of 32-bit numbers. -/
def svcServiceResource (m : Mem) (service : Nat) (index : BitVec 32) : Option Nat :=
  if svcResourceCount m service ≤ index then none
  else some (service + svcServiceHeaderSize + (index * BitVec.ofNat 32 svcResourceSize).toNat)

/-- `svc_service_path` -/
def svcServicePath (m : Mem) (service : Nat) : Nat :=
  service + svcServiceHeaderSize +
    (svcResourceCount m service * BitVec.ofNat 32 svcResourceSize).toNat

/-- `svc_resource_t` -/
structure SvcResource where
  kind : BitVec 8
  value : BitVec 64

/-- The resource at address `a`. -/
def svcResourceAt (m : Mem) (a : Nat) : SvcResource where
  kind := BitVec.ofNat 8 (m a).toNat
  value := read64 m (a + 1)

/-- The resources of the record at `p`. -/
def svcResources (m : Mem) (p : Nat) : List SvcResource :=
  (List.range (svcResourceCount m p).toNat).filterMap fun i =>
    (svcServiceResource m p (BitVec.ofNat 32 i)).map (svcResourceAt m)

/-- The path of the record at `p`. -/
def svcPath (m : Mem) (p : Nat) : List UInt8 :=
  (List.range (svcPathLen m p).toNat).map fun i => m (svcServicePath m p + i)

/-! ## The format -/

/-- The size of the record at `p` over the natural numbers. -/
def naturalSize (m : Mem) (p : Nat) : Nat :=
  22 + 9 * (svcResourceCount m p).toNat + (svcPathLen m p).toNat

/-- The size of a record of the format. -/
def serviceSize (m : Mem) (p : Nat) : Option Nat :=
  if (svcRecordSize m p).toNat = naturalSize m p then some (svcRecordSize m p).toNat else none

/-- The size of a record that fits the format up to multiples of 2^32. -/
def serviceSizeMod (m : Mem) (p : Nat) : Option Nat :=
  if (svcRecordSize m p).toNat = naturalSize m p % 2 ^ 32 then some (svcRecordSize m p).toNat
  else none

/-- The header of a service table. -/
structure SvcHeader (m : Mem) (base : Nat) : Prop where
  magic : Holds m base svcMagic 8
  version : read16 m (base + 8) = 1
  count : (read32 m (base + 12)).toNat ≤ 64
  total : 20 ≤ (read32 m (base + 16)).toNat

/-- Records of these sizes, with their headers, fill the table. -/
def SvcRecords (size : Nat → Option Nat) (m : Mem) (base : Nat) (starts : List Nat) : Prop :=
  starts.length = (read32 m (base + 12)).toNat ∧
    Chain size (base + 20) starts (base + (read32 m (base + 16)).toNat) ∧
    ∀ p ∈ starts, p + 22 ≤ base + (read32 m (base + 16)).toNat

/-- The bytes from `base` on are a service table. -/
structure SvcFormat (m : Mem) (base : Nat) : Prop where
  header : SvcHeader m base
  records : ∃ starts, starts.length = (read32 m (base + 12)).toNat ∧
    Chain (serviceSize m) (base + 20) starts (base + (read32 m (base + 16)).toNat)

/-- Up to multiples of 2^32 the bytes from `base` on are a service table, and they are none
without them: some record is 2^32 bytes long or longer. -/
def Overflows (m : Mem) (base : Nat) : Prop :=
  SvcHeader m base ∧ ∃ starts, SvcRecords (serviceSizeMod m) m base starts ∧
    ∃ p ∈ starts, 2 ^ 32 ≤ naturalSize m p

/-- What the parser returns describes the table. -/
structure Svc.Describes (s : Svc) (m : Mem) (base : Nat) : Prop where
  version : s.version = read16 m (base + 8)
  count : s.serviceCount = read32 m (base + 12)
  total : s.totalSize = read32 m (base + 16)
  length : s.services.length = s.serviceCount.toNat
  /-- `services[i]` is the start of record `i`. -/
  starts : Chain (serviceSize m) (base + 20) s.services (base + s.totalSize.toNat)
  /-- A resource below the count of its record lies inside the record. -/
  resources : ∀ p ∈ s.services, ∀ index < svcResourceCount m p,
    ∃ a, svcServiceResource m p index = some a ∧ p + 22 ≤ a ∧
      a + 9 ≤ p + (svcRecordSize m p).toNat
  /-- The whole path lies inside the record. -/
  path : ∀ p ∈ s.services, p + 22 ≤ svcServicePath m p ∧
    svcServicePath m p + (svcPathLen m p).toNat ≤ p + (svcRecordSize m p).toNat

theorem svcAcceptedSize_eq (m : Mem) : svcAcceptedSize m = serviceSizeMod m := by
  funext p
  have hexpected : (svcExpectedSize m p).toNat = naturalSize m p % 2 ^ 32 := by
    unfold svcExpectedSize naturalSize svcServiceHeaderSize svcResourceSize
    simp only [BitVec.toNat_add, BitVec.toNat_mul, BitVec.toNat_ofNat]
    omega
  unfold svcAcceptedSize serviceSizeMod
  rw [← hexpected]
  by_cases h : svcRecordSize m p = svcExpectedSize m p
  · rw [h, if_pos rfl, if_neg (by simp)]
  · rw [if_pos (by simpa using h), if_neg fun hnat => h (BitVec.eq_of_toNat_eq hnat)]

/-- Where no record overflows, the two sizes are the same. -/
theorem serviceSize_eq {m : Mem} {p : Nat} (h : naturalSize m p < 2 ^ 32) :
    serviceSize m p = serviceSizeMod m p := by
  rw [serviceSize, serviceSizeMod, Nat.mod_eq_of_lt h]

/-- A record of the format is at least as long as its header and does not overflow. -/
theorem serviceSize_spec {m : Mem} {p k : Nat} (h : serviceSize m p = some k) :
    22 ≤ k ∧ naturalSize m p < 2 ^ 32 := by
  unfold serviceSize at h
  split at h
  case isTrue hsize =>
    rw [← Option.some.inj h, ← hsize]
    refine ⟨?_, (svcRecordSize m p).isLt⟩
    rw [hsize, naturalSize]
    omega
  case isFalse => cases h

/-- The records of a table of the format are records modulo 2^32. -/
theorem svcRecords_mod {m : Mem} {base : Nat} {starts : List Nat}
    (hlen : starts.length = (read32 m (base + 12)).toNat)
    (hchain : Chain (serviceSize m) (base + 20) starts (base + (read32 m (base + 16)).toNat)) :
    SvcRecords (serviceSizeMod m) m base starts := by
  refine ⟨hlen, hchain.congr fun p hp => ?_, fun p hp => ?_⟩
  all_goals
    obtain ⟨k, hk, -, hend⟩ := hchain.mem hp
    obtain ⟨hle, hlt⟩ := serviceSize_spec hk
  · exact (serviceSize_eq hlt).symm
  · omega

/-- The parser succeeds with the records it has stepped over, and with nothing else. -/
theorem svcParse_eq_some {m : Mem} {base : Nat} {s : Svc} :
    svcParse m base = some s ↔
      SvcHeader m base ∧ s.version = read16 m (base + 8) ∧ s.serviceCount = read32 m (base + 12) ∧
        s.totalSize = read32 m (base + 16) ∧
        SvcRecords (serviceSizeMod m) m base s.services := by
  have hmagic : memEq m base svcMagic = true ↔ Holds m base svcMagic 8 := memEq_iff
  have hwalk : ∀ starts, walk svcServiceHeaderSize (base + (read32 m (base + 16)).toNat)
        (serviceSizeMod m) (read32 m (base + 12)).toNat (base + 20) =
          some (starts, base + (read32 m (base + 16)).toNat) ↔
        SvcRecords (serviceSizeMod m) m base starts := fun starts => by
    rw [walk_eq_some, SvcRecords, svcServiceHeaderSize]
    exact ⟨fun h => ⟨h.1, h.2.1, h.2.2.1⟩, fun h => ⟨h.1, h.2.1, h.2.2, fun _ => Nat.le_refl _⟩⟩
  unfold svcParse svcMaxServices svcHeaderSize svcVersion
  rw [svcAcceptedSize_eq]
  constructor
  · intro h
    split at h
    case isTrue => cases h
    case isFalse hm =>
      dsimp only at h
      split at h
      case isTrue => cases h
      case isFalse hbounds =>
        split at h
        case h_1 => cases h
        case h_2 starts p hp =>
          split at h
          case isFalse => cases h
          case isTrue hend =>
            have hrecords := (hwalk starts).mp (hend ▸ hp)
            obtain rfl := Option.some.inj h
            simp only [Bool.or_eq_true, bne_iff_ne, decide_eq_true_eq, not_or,
              Decidable.not_not, Nat.not_lt] at hbounds
            exact ⟨⟨hmagic.mp (by simpa using hm), hbounds.1.1, hbounds.1.2, hbounds.2⟩, rfl, rfl,
              rfl, hrecords⟩
  · rintro ⟨⟨hm, hversion, hcount, htotal⟩, hv, hc, ht, hrecords⟩
    obtain ⟨version, count, total, starts⟩ := s
    obtain rfl : version = _ := hv
    obtain rfl : count = _ := hc
    obtain rfl : total = _ := ht
    rw [hmagic.mpr hm, if_neg (by simp), if_neg (by simp [hversion, hcount, htotal]),
      (hwalk starts).mpr hrecords]
    exact if_pos rfl

/-- The records of an accepted table start at different addresses, whether they overflow or
not. -/
theorem svcParse_nodup {m : Mem} {base : Nat} {s : Svc} (h : svcParse m base = some s) :
    s.services.Nodup := by
  obtain ⟨-, -, -, -, -, hchain, hroom⟩ := svcParse_eq_some.mp h
  refine (hchain.pairwise_lt fun p hp => ?_).imp Nat.ne_of_lt
  have hend := hroom p hp
  omega

/-- A resource and the path of a record of the format lie inside the record. -/
theorem svcServiceResource_inside {m : Mem} {p k : Nat} {index : BitVec 32}
    (hsize : serviceSize m p = some k) (hindex : index < svcResourceCount m p) :
    ∃ a, svcServiceResource m p index = some a ∧ p + 22 ≤ a ∧
      a + 9 ≤ p + (svcRecordSize m p).toNat := by
  refine ⟨_, if_neg (BitVec.not_le.mpr hindex), ?_⟩
  have hlt := (serviceSize_spec hsize).2
  unfold serviceSize at hsize
  split at hsize
  case isTrue hrecord =>
    rw [BitVec.lt_def] at hindex
    unfold naturalSize at hrecord hlt
    have hproduct : (index * BitVec.ofNat 32 svcResourceSize).toNat = 9 * index.toNat := by
      rw [BitVec.toNat_mul, BitVec.toNat_ofNat, svcResourceSize]
      omega
    rw [hproduct, svcServiceHeaderSize]
    omega
  case isFalse => cases hsize

theorem svcServicePath_inside {m : Mem} {p k : Nat} (hsize : serviceSize m p = some k) :
    p + 22 ≤ svcServicePath m p ∧
      svcServicePath m p + (svcPathLen m p).toNat ≤ p + (svcRecordSize m p).toNat := by
  have hlt := (serviceSize_spec hsize).2
  unfold serviceSize at hsize
  split at hsize
  case isTrue hrecord =>
    unfold naturalSize at hrecord hlt
    have hproduct : (svcResourceCount m p * BitVec.ofNat 32 svcResourceSize).toNat =
        9 * (svcResourceCount m p).toNat := by
      rw [BitVec.toNat_mul, BitVec.toNat_ofNat, svcResourceSize]
      omega
    rw [svcServicePath, hproduct, svcServiceHeaderSize]
    omega
  case isFalse => cases hsize

/-- What the installer reads of a record of the format is what its bytes say. -/
theorem svcRecord_congr {m m' : Mem} {p k : Nat} (hsize : serviceSize m p = some k)
    (h : AgreeOn p k m m') :
    svcPathLen m' p = svcPathLen m p ∧ svcResources m' p = svcResources m p := by
  have hheader := (serviceSize_spec hsize).1
  have hrecord : (svcRecordSize m p).toNat = k := by
    unfold serviceSize at hsize
    split at hsize
    · exact Option.some.inj hsize
    · cases hsize
  have hcount : svcResourceCount m' p = svcResourceCount m p :=
    (read32_congr (h.part (by omega) (by omega))).symm
  refine ⟨(read32_congr (h.part (by omega) (by omega))).symm, ?_⟩
  unfold svcResources
  rw [hcount]
  refine List.filterMap_congr fun i hi => ?_
  unfold svcServiceResource
  rw [hcount]
  by_cases hindex : BitVec.ofNat 32 i < svcResourceCount m p
  · obtain ⟨a, ha, hl, hr⟩ := svcServiceResource_inside hsize hindex
    unfold svcServiceResource at ha
    rw [ha, Option.map_some, Option.map_some, svcResourceAt, svcResourceAt,
      h a (by omega) (by omega), read64_congr (h.part (b := a + 1) (by omega) (by omega))]
  · rw [if_pos (BitVec.not_lt.mp hindex)]
    rfl

/-- `svc_parse` accepts exactly the service-table format and describes what it accepts. -/
def AcceptsFormat (m : Mem) (base : Nat) : Prop :=
  ((svcParse m base).isSome = true ↔ SvcFormat m base) ∧
    ∀ s, svcParse m base = some s → s.Describes m base

/-- A table that does not overflow is treated as the format says. -/
theorem acceptsFormat {m : Mem} {base : Nat} (h : ¬ Overflows m base) : AcceptsFormat m base := by
  have hnatural : ∀ s, svcParse m base = some s →
      s.services.length = (read32 m (base + 12)).toNat ∧
        Chain (serviceSize m) (base + 20) s.services (base + (read32 m (base + 16)).toNat) := by
    intro s hs
    obtain ⟨hheader, -, -, -, hlen, hchain, hroom⟩ := svcParse_eq_some.mp hs
    refine ⟨hlen, hchain.congr fun p hp => serviceSize_eq (Nat.lt_of_not_le fun hle => ?_)⟩
    exact h ⟨hheader, s.services, ⟨hlen, hchain, hroom⟩, p, hp, hle⟩
  refine ⟨⟨fun hsome => ?_, fun hformat => ?_⟩, fun s hs => ?_⟩
  · obtain ⟨s, hs⟩ := Option.isSome_iff_exists.mp hsome
    exact ⟨(svcParse_eq_some.mp hs).1, s.services, hnatural s hs⟩
  · obtain ⟨starts, hlen, hchain⟩ := hformat.records
    rw [Option.isSome_iff_exists]
    exact ⟨⟨_, _, _, starts⟩, svcParse_eq_some.mpr
      ⟨hformat.header, rfl, rfl, rfl, svcRecords_mod hlen hchain⟩⟩
  · obtain ⟨-, hversion, hcount, htotal, -⟩ := svcParse_eq_some.mp hs
    obtain ⟨hlen, hchain⟩ := hnatural s hs
    refine ⟨hversion, hcount, htotal, by rw [hlen, hcount], by rw [htotal]; exact hchain,
      fun p hp index hindex => ?_, fun p hp => ?_⟩
    all_goals obtain ⟨k, hk, -, -⟩ := hchain.mem hp
    · exact svcServiceResource_inside hk hindex
    · exact svcServicePath_inside hk

/-- `svc_parse` accepts exactly the service-table format, unless a record overflows. -/
theorem svcParse_exact_iff (m : Mem) (base : Nat) : AcceptsFormat m base ↔ ¬ Overflows m base := by
  refine ⟨fun haccepts hover => ?_, acceptsFormat⟩
  obtain ⟨hheader, starts, hrecords, p, hp, hle⟩ := hover
  have hparse : svcParse m base = some ⟨_, _, _, starts⟩ :=
    svcParse_eq_some.mpr ⟨hheader, rfl, rfl, rfl, hrecords⟩
  -- The records of a table of the format would be these, and none of them overflows.
  have hformat := haccepts.1.mp (by rw [hparse]; rfl)
  obtain ⟨starts', hlen, hchain⟩ := hformat.records
  obtain ⟨-, hmod, -⟩ := svcRecords_mod hlen hchain
  obtain ⟨rfl, -⟩ := hrecords.2.1.unique hmod (hlen.trans hrecords.1.symm)
  obtain ⟨k, hk, -, -⟩ := hchain.mem hp
  exact absurd hle (Nat.not_le.mpr (serviceSize_spec hk).2)

/-- Bytes behind the table play no role. -/
theorem svcParse_congr {m m' : Mem} {base : Nat}
    (h : AgreeOn base (max 20 (read32 m (base + 16)).toNat) m m') :
    svcParse m base = svcParse m' base := by
  have hversion : read16 m (base + 8) = read16 m' (base + 8) :=
    read16_congr (h.part (by omega) (by omega))
  have hcount : read32 m (base + 12) = read32 m' (base + 12) :=
    read32_congr (h.part (by omega) (by omega))
  have htotal : read32 m (base + 16) = read32 m' (base + 16) :=
    read32_congr (h.part (by omega) (by omega))
  have hmagic : memEq m base svcMagic = memEq m' base svcMagic :=
    memEq_congr (h.part (Nat.le_refl _) (show base + 8 ≤ _ by omega))
  have hwalk := walk_congr svcServiceHeaderSize (base + (read32 m (base + 16)).toNat)
    (svcAcceptedSize m) (svcAcceptedSize m') (base + svcHeaderSize)
    (read32 m (base + 12)).toNat fun q hq hend => by
      unfold svcServiceHeaderSize at hend
      have hfield : ∀ a, q ≤ a → a + 4 ≤ q + 22 → read32 m a = read32 m' a := fun a hl hr =>
        read32_congr (h.part (by omega) (by omega))
      unfold svcAcceptedSize svcExpectedSize svcRecordSize svcResourceCount svcPathLen
      rw [hfield q (Nat.le_refl q) (by omega), hfield (q + 14) (by omega) (by omega),
        hfield (q + 18) (by omega) (by omega)]
  unfold svcParse
  dsimp only
  rw [← hmagic, ← hversion, ← hcount, ← htotal, hwalk]

/-- A table of 47 bytes whose only record has 477218589 resources: nine times that number is
5 more than 2^32. -/
def overflowingTable : Mem :=
  write (fun _ => 0) 0 (svcMagic ++ toLE 1 4 ++ toLE 1 4 ++ toLE 47 4 ++
    (toLE 27 4 ++ toLE 0 10 ++ toLE 477218589 4 ++ toLE 0 4) ++ [1, 2, 3, 4, 5])

/-- `svc_parse` accepts the table, and the format does not. -/
theorem not_acceptsFormat : ¬ ∀ m base, AcceptsFormat m base := by
  intro h
  refine (svcParse_exact_iff overflowingTable 0).mp (h overflowingTable 0) ?_
  refine ⟨⟨memEq_iff.mp (by decide +kernel), by decide +kernel, by decide +kernel,
    by decide +kernel⟩, [20], ⟨by decide +kernel, ?_, by decide +kernel⟩, 20, by simp,
    by decide +kernel⟩
  exact .cons (k := 27) (by decide +kernel) .nil

end Monitor
end Carrels
