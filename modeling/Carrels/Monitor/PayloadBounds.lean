/-
Where the loader of a payload reads and writes.

The manifest's sizes come from the orchestrator.  `service_manifest_header_parse` compares
them with each other and not with the region the payload lies in, and nothing between it
and the copies of `protocon_load_payload` does.
-/
import Mathlib.Order.Interval.Set.Basic
import Carrels.Lib.Slices
import Carrels.Monitor.Step

namespace Carrels
namespace Monitor

open ByteMemory

/-! ## The ranges -/

/-- The region the orchestrator puts a payload in. -/
def payloadRegion : Set Nat := Set.Ico payloadStart (payloadStart + orcMonitorRegionSize)

/-- The slice of protocon `p` in the region of the container images. -/
def imageSlice (p : Nat) : Set Nat :=
  Set.Ico (containerImage p) (containerImage p + containerImageSize)

/-- The entries of the manifest. -/
def PayloadInfo.entryRange (info : PayloadInfo) : Set Nat :=
  Set.Ico info.serviceEntries
    (info.serviceEntries + manifestEntrySize * info.serviceCount.toNat)

/-- The bytes of the ELF file behind the manifest. -/
def PayloadInfo.elfRange (info : PayloadInfo) : Set Nat :=
  Set.Ico info.headerPayload (info.headerPayload + info.elfPayloadSize.toNat)

/-- The image header that `protocon_load_payload` stores at `dest`. -/
def headerRange (P : Platform) (dest : Nat) : Set Nat := Set.Ico dest (dest + P.imageHeaderSize)

/-- The target of its first `memcpy`. -/
def symRange (P : Platform) (m : Mem) (pcId dest : Nat) : Set Nat :=
  let symOffset := BitVec.ofNat 64 P.imageHeaderSize
  Set.Ico (dest + symOffset.toNat) (dest + symOffset.toNat + (P.symBundle m pcId).length)

/-- The target of its second `memcpy`. -/
def elfRange (P : Platform) (m : Mem) (pcId dest : Nat) (elfSize : BitVec 64) : Set Nat :=
  let elfOffset := BitVec.ofNat 64 P.imageHeaderSize +
    BitVec.ofNat 64 (P.symBundle m pcId).length
  Set.Ico (dest + elfOffset.toNat) (dest + elfOffset.toNat + elfSize.toNat)

/-- The loader leaves every other byte as it is. -/
theorem protoconLoadPayload_outside (P : Platform) (m : Mem) (pcId dest src : Nat)
    (elfSize : BitVec 64) {x : Nat} (hheader : x ∉ headerRange P dest)
    (hsym : x ∉ symRange P m pcId dest) (helf : x ∉ elfRange P m pcId dest elfSize) :
    protoconLoadPayload P m pcId dest src elfSize x = m x := by
  simp only [headerRange, symRange, elfRange, Set.mem_Ico, not_and, not_lt] at hheader hsym helf
  unfold protoconLoadPayload
  rw [copy, if_neg (fun h => absurd h.2 (Nat.not_lt.mpr (helf h.1)))]
  have hsym' : x < dest + (BitVec.ofNat 64 P.imageHeaderSize).toNat ∨
      dest + (BitVec.ofNat 64 P.imageHeaderSize).toNat + (P.symBundle m pcId).length ≤ x :=
    (Nat.lt_or_ge x _).imp_right hsym
  have hheader' : x < dest ∨ dest + P.imageHeaderSize ≤ x := (Nat.lt_or_ge x dest).imp_right hheader
  rw [write_of_outside hsym', write_of_outside (by rwa [P.length_imageHeader])]

/-- The largest symbol bundle. -/
def maxSymBundle : Nat := 0x1000

/-- The copies of an image stay in the payload region and in protocon `p`'s slice. -/
structure CopiesInside (P : Platform) (m : Mem) (info : PayloadInfo) (p : Nat) : Prop where
  source : info.elfRange ⊆ payloadRegion
  header : headerRange P (containerImage p) ⊆ imageSlice p
  sym : symRange P m p (containerImage p) ⊆ imageSlice p
  elf : elfRange P m p (containerImage p) info.elfPayloadSize ⊆ imageSlice p
  apart : Disjoint (symRange P m p (containerImage p))
    (elfRange P m p (containerImage p) info.elfPayloadSize)

/-- The payload can be loaded into any protocon. -/
structure Loadable (P : Platform) (m : Mem) (info : PayloadInfo) : Prop where
  entries : info.entryRange ⊆ payloadRegion
  elf : info.elfRange ⊆ payloadRegion
  copies : ∀ p < pcChildMaxNum, (P.symBundle m p).length ≤ maxSymBundle → CopiesInside P m info p

/-- The manifest and the ELF file fit in the payload region, and the ELF file fits behind the
header and the symbols of every protocon. -/
def SizesFit (P : Platform) (m : Mem) : Prop :=
  let count := (read32 m (payloadStart + 8)).toNat
  let elfSize := (read64 m (payloadStart + 16)).toNat
  manifestHeaderSize + manifestEntrySize * count + elfSize ≤ orcMonitorRegionSize ∧
    ∀ p < pcChildMaxNum, (P.symBundle m p).length ≤ maxSymBundle →
      P.imageHeaderSize + (P.symBundle m p).length + elfSize ≤ containerImageSize

/-! ## An accepted manifest -/

/-- What `service_manifest_header_parse` establishes. -/
theorem serviceManifestHeaderParse_some {m : Mem} {base : Nat} {info : PayloadInfo}
    (h : serviceManifestHeaderParse m base = some info) :
    info.headerPayload =
        base + manifestHeaderSize + manifestEntrySize * (read32 m (base + 8)).toNat ∧
      info.serviceEntries = base + manifestHeaderSize ∧
      info.serviceCount = read32 m (base + 8) ∧
      info.elfPayloadSize = read64 m (base + 16) ∧ info.elfPayloadSize ≠ 0 := by
  unfold serviceManifestHeaderParse at h
  cases hcheck : serviceManifestCheck m base with
  | false =>
    rw [hcheck, if_pos (by decide)] at h
    cases h
  | true =>
  rw [hcheck, if_neg (by decide)] at h
  dsimp only at h
  rw [Option.ite_none_left_eq_some, Option.ite_none_left_eq_some, Option.some_inj] at h
  obtain ⟨-, hsize, rfl⟩ := h
  have hmanifest : (read32 m (base + 12)).toNat =
      manifestHeaderSize + (read32 m (base + 8)).toNat * manifestEntrySize := by
    rw [serviceManifestCheck, Bool.and_eq_true] at hcheck
    exact of_decide_eq_true hcheck.2
  refine ⟨?_, rfl, rfl, rfl, hsize⟩
  show base + (read32 m (base + 12)).toNat = _
  rw [hmanifest, Nat.mul_comm, Nat.add_assoc]

/-! ## What the sizes decide -/

theorem elfRange_subset_iff {m : Mem} {info : PayloadInfo}
    (h : serviceManifestHeaderParse m payloadStart = some info) :
    info.elfRange ⊆ payloadRegion ↔
      manifestHeaderSize + manifestEntrySize * (read32 m (payloadStart + 8)).toNat +
        (read64 m (payloadStart + 16)).toNat ≤ orcMonitorRegionSize := by
  obtain ⟨hheader, -, -, hsize, hne⟩ := serviceManifestHeaderParse_some h
  have hpos : 0 < info.elfPayloadSize.toNat := BitVec.toNat_pos_of_ne_zero hne
  unfold PayloadInfo.elfRange payloadRegion
  rw [Set.Ico_subset_Ico_iff (by omega), hheader, ← hsize]
  omega

theorem entryRange_subset {m : Mem} {info : PayloadInfo}
    (h : serviceManifestHeaderParse m payloadStart = some info)
    (hsize : manifestHeaderSize + manifestEntrySize * (read32 m (payloadStart + 8)).toNat +
      (read64 m (payloadStart + 16)).toNat ≤ orcMonitorRegionSize) :
    info.entryRange ⊆ payloadRegion := by
  obtain ⟨-, hentries, hcount, -, -⟩ := serviceManifestHeaderParse_some h
  unfold PayloadInfo.entryRange payloadRegion
  rw [hentries, hcount]
  exact Set.Ico_subset_Ico (by omega) (by omega)

/-- The copies of one protocon's image: the ELF file has to fit behind the symbols. -/
theorem copiesInside_iff {P : Platform} {m : Mem} {info : PayloadInfo} {p : Nat}
    (hsource : info.elfRange ⊆ payloadRegion) (hne : info.elfPayloadSize ≠ 0)
    (hbundle : (P.symBundle m p).length ≤ maxSymBundle) :
    CopiesInside P m info p ↔
      P.imageHeaderSize + (P.symBundle m p).length + info.elfPayloadSize.toNat ≤
        containerImageSize := by
  have hpos : 0 < info.elfPayloadSize.toNat := BitVec.toNat_pos_of_ne_zero hne
  unfold maxSymBundle at hbundle
  -- No offset wraps where the header lies in the slice.
  have hoffsets : P.imageHeaderSize ≤ containerImageSize →
      (BitVec.ofNat 64 P.imageHeaderSize).toNat = P.imageHeaderSize ∧
        (BitVec.ofNat 64 P.imageHeaderSize + BitVec.ofNat 64 (P.symBundle m p).length).toNat =
          P.imageHeaderSize + (P.symBundle m p).length := by
    unfold containerImageSize
    intro hle
    rw [BitVec.toNat_add, BitVec.toNat_ofNat, BitVec.toNat_ofNat]
    omega
  constructor
  · rintro ⟨-, hheader, -, helf, -⟩
    have hle : P.imageHeaderSize ≤ containerImageSize := by
      by_contra hgt
      unfold headerRange imageSlice at hheader
      rw [Set.Ico_subset_Ico_iff (by omega)] at hheader
      omega
    unfold elfRange imageSlice at helf
    dsimp only at helf
    rw [(hoffsets hle).2, Set.Ico_subset_Ico_iff (by omega)] at helf
    omega
  · intro hfit
    obtain ⟨hsymOffset, helfOffset⟩ := hoffsets (by omega)
    have hsym : symRange P m p (containerImage p) =
        Set.Ico (containerImage p + P.imageHeaderSize)
          (containerImage p + P.imageHeaderSize + (P.symBundle m p).length) := by
      simp only [symRange, hsymOffset]
    have helf : elfRange P m p (containerImage p) info.elfPayloadSize =
        Set.Ico (containerImage p + (P.imageHeaderSize + (P.symBundle m p).length))
          (containerImage p + (P.imageHeaderSize + (P.symBundle m p).length) +
            info.elfPayloadSize.toNat) := by
      simp only [elfRange, helfOffset]
    refine ⟨hsource, Set.Ico_subset_Ico (by omega) (by omega), ?_, ?_, ?_⟩
    · rw [hsym]
      exact Set.Ico_subset_Ico (by omega) (by omega)
    · rw [helf]
      exact Set.Ico_subset_Ico (by omega) (by omega)
    · rw [hsym, helf, Set.Ico_disjoint_Ico]
      omega

/-- An accepted payload can be loaded into every protocon exactly when its sizes fit, which
the parser does not ask. -/
theorem acceptedPayload_loadable {P : Platform} {m : Mem} {info : PayloadInfo}
    (h : serviceManifestHeaderParse m payloadStart = some info) :
    Loadable P m info ↔ SizesFit P m := by
  obtain ⟨-, -, -, hsize, hne⟩ := serviceManifestHeaderParse_some h
  unfold SizesFit
  dsimp only
  rw [← elfRange_subset_iff h, ← hsize]
  constructor
  · intro hload
    refine ⟨hload.elf, fun p hp hbundle => ?_⟩
    exact (copiesInside_iff hload.elf hne hbundle).mp (hload.copies p hp hbundle)
  · rintro ⟨helf, hfit⟩
    refine ⟨entryRange_subset h ((elfRange_subset_iff h).mp helf), helf, fun p hp hbundle => ?_⟩
    exact (copiesInside_iff helf hne hbundle).mpr (hfit p hp hbundle)

/-! ## A payload without services -/

deriving instance DecidableEq for PayloadInfo

/-- A manifest without entries before `smallElf`, with this `elf_size`. -/
def sizedPayload (elfSize : Nat) : Mem :=
  writes smallStorage
    [(payloadStart, payloadOf []), (payloadStart + 16, toLE elfSize 8)]

def sizedInfo (elfSize : BitVec 64) : PayloadInfo where
  headerPayload := payloadStart + 24
  elfPayloadSize := elfSize
  serviceCount := 0
  serviceEntries := payloadStart + 24

theorem acceptedPayload_loadable_sized :
    Loadable (smallPlatform 2) (sizedPayload 272) (sizedInfo 272) := by
  have hparse : serviceManifestHeaderParse (sizedPayload 272) payloadStart =
      some (sizedInfo 272) := by
    decide +kernel
  have hfit : SizesFit (smallPlatform 2) (sizedPayload 272) := by
    refine ⟨by decide +kernel, fun p _ _ => ?_⟩
    show 48 + 4 + (read64 (sizedPayload 272) (payloadStart + 16)).toNat ≤ containerImageSize
    decide +kernel
  exact (acceptedPayload_loadable hparse).mpr hfit

/-- An ELF file of the size of the region, behind 24 bytes of manifest. -/
theorem not_acceptedPayload_loadable :
    ¬ ∀ (P : Platform) (m : Mem) (info : PayloadInfo),
      serviceManifestHeaderParse m payloadStart = some info → Loadable P m info := by
  intro hclaim
  have hparse : serviceManifestHeaderParse (sizedPayload 0x800000) payloadStart =
      some (sizedInfo 0x800000) := by
    decide +kernel
  have hlast := (hclaim (smallPlatform 2) _ _ hparse).elf
    (show payloadStart + 0x800000 ∈ (sizedInfo 0x800000).elfRange from
      ⟨by decide +kernel, by decide +kernel⟩)
  exact absurd hlast.2 (by decide +kernel)

end Monitor
end Carrels
