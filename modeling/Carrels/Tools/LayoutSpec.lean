/-
What the layout tool accepts, and the header it generates.

`Specified` says what a layout has to be without the order in which `validate_regions` finds out.
The page sizes of the tool are the powers of two.
-/
import Carrels.Lib.Words
import Carrels.Tools.VmLayout

namespace Carrels
namespace VmLayout

open Words Monitor
open scoped Computability

/-! ## The specification -/

/-- `[A-Z][A-Z0-9_]*` -/
def regionNames : Language Char :=
  letter (Set.Icc 'A' 'Z') * (letter (Set.Icc 'A' 'Z' ∪ Set.Icc '0' '9' ∪ {'_'}))∗

/-- The addresses of a region. -/
def Region.range (r : Region) : Set Int := Set.Ico r.base (r.base + r.size)

structure Specified (pageSize : Int) (regions : List Region) : Prop where
  name_mem : ∀ r ∈ regions, r.name.toList ∈ regionNames
  names_distinct : (regions.map Region.name).Nodup
  base : ∀ r ∈ regions, 0 ≤ r.base ∧ pageSize ∣ r.base
  size : ∀ r ∈ regions, 0 < r.size ∧ pageSize ∣ r.size
  fits : ∀ r ∈ regions, r.base + r.size ≤ 2 ^ 64 - 1
  apart : regions.Pairwise fun r r' => Disjoint r.range r'.range

/-! ## The header -/

/-- The field of a region in `monitor_vm_layout_t`.  The name of a checked region has no letters
beyond ASCII. -/
def Region.fieldName (r : Region) : String := r.name.toLower

def regionMacros (r : Region) : List String :=
  [s!"#define MONITOR_VM_{r.name}_BASE \\",
    s!"    ((uintptr_t)UINT64_C({hex r.base}))",
    "",
    s!"#define MONITOR_VM_{r.name}_SIZE \\",
    s!"    ((size_t)UINT64_C({hex r.size}))",
    "",
    s!"#define MONITOR_VM_{r.name}_END \\",
    s!"    ((uintptr_t)UINT64_C({hex (r.base + r.size)}))",
    ""]

def fieldDeclaration (r : Region) : String := s!"    monitor_vm_region_t {r.fieldName};"

def fieldInitializer (r : Region) : List String :=
  [s!"    .{r.fieldName} = \x7b",
    s!"        .base = MONITOR_VM_{r.name}_BASE,",
    s!"        .size = MONITOR_VM_{r.name}_SIZE,",
    "    \x7d,"]

/-- `generate_header`; `configName` is the name of the configuration file. -/
def generateHeader (pageSize : Int) (regions : List Region) (configName : String) : String :=
  "\n".intercalate (
    ["/*",
      " * Auto-generated file. Do not edit manually.",
      s!" * Source configuration: {configName}",
      " */",
      "",
      "#ifndef MONITOR_VM_LAYOUT_H",
      "#define MONITOR_VM_LAYOUT_H",
      "",
      "#include <stddef.h>",
      "#include <stdint.h>",
      "",
      "#define MONITOR_VM_PAGE_SIZE \\",
      s!"    ((size_t)UINT64_C({hex pageSize}))",
      "",
      "typedef struct monitor_vm_region \x7b",
      "    uintptr_t base;",
      "    size_t size;",
      "\x7d monitor_vm_region_t;",
      ""] ++
    regions.flatMap regionMacros ++
    ["typedef struct monitor_vm_layout \x7b"] ++
    regions.map fieldDeclaration ++
    ["\x7d monitor_vm_layout_t;",
      "",
      "static const monitor_vm_layout_t monitor_vm_layout = \x7b"] ++
    regions.flatMap fieldInitializer ++
    ["\x7d;",
      "",
      "static inline uintptr_t monitor_vm_region_base(",
      "    const monitor_vm_region_t *region,",
      "    size_t cid",
      ")",
      "\x7b",
      "    return region->base + cid * region->size;",
      "\x7d",
      "",
      "#endif /* MONITOR_VM_LAYOUT_H */",
      ""])

/-- `main` from the configuration module to the text it writes. -/
def layoutHeader (pyRepr : String → String) (config : ConfigModule) (configName : String) :
    Checked String := do
  let (pageSize, regions) ← checkedLayout pyRepr config
  return generateHeader pageSize regions configName

/-! ## Names -/

theorem isUpper_iff {c : Char} : c.isUpper = true ↔ c ∈ Set.Icc 'A' 'Z' := by
  simp [Char.isUpper, Char.le_def]

theorem isDigit_iff {c : Char} : c.isDigit = true ↔ c ∈ Set.Icc '0' '9' := by
  simp [Char.isDigit, Char.le_def]

theorem validRegionName_iff {name : String} :
    validRegionName name = true ↔ name.toList ∈ regionNames := by
  rw [validRegionName, regionNames, mem_letter_mul]
  simp only [mem_kstar_letter]
  cases hname : name.toList with
  | nil => simp
  | cons first rest =>
    simp only [Bool.and_eq_true, List.all_eq_true, Bool.or_eq_true, isUpper_iff, isDigit_iff,
      beq_iff_eq]
    constructor
    · rintro ⟨hfirst, hrest⟩
      exact ⟨first, hfirst, rest, hrest, rfl⟩
    · rintro ⟨first', hfirst, rest', hrest, heq⟩
      obtain ⟨rfl, rfl⟩ := List.cons.inj heq
      exact ⟨hfirst, hrest⟩

theorem not_isLower {c : Char} (h : c ∈ Set.Icc 'A' 'Z' ∪ Set.Icc '0' '9' ∪ {'_'}) :
    ¬ c.isLower = true := by
  have hle : ∀ d : Char, d ≤ 'Z' → ¬ d.isLower = true := by
    intro d hd hlower
    simp only [Char.isLower, Char.le_def, Bool.and_eq_true, decide_eq_true_eq] at hd hlower
    exact absurd (UInt32.le_trans hlower.1 hd) (by decide)
  rcases h with (h | h) | rfl
  · exact hle c h.2
  · exact hle c (h.2.trans (by decide))
  · decide

theorem not_isLower_of_mem {name : List Char} (h : name ∈ regionNames) :
    ∀ c ∈ name, ¬ c.isLower = true := by
  obtain ⟨first, hfirst, rest, hrest, rfl⟩ := mem_letter_mul.mp h
  refine List.forall_mem_cons.mpr ⟨not_isLower (.inl (.inl hfirst)), fun c hc => ?_⟩
  exact not_isLower (mem_kstar_letter.mp hrest c hc)

/-! ## The checks -/

theorem regionValid_iff {pageSize : Int} {r : Region} :
    r.Valid pageSize ↔ (0 ≤ r.base ∧ pageSize ∣ r.base) ∧ (0 < r.size ∧ pageSize ∣ r.size) ∧
      r.base + r.size ≤ 2 ^ 64 - 1 := by
  rw [Int.dvd_iff_emod_eq_zero, Int.dvd_iff_emod_eq_zero]
  constructor
  · intro h
    exact ⟨⟨h.base_nonneg, h.base_aligned⟩, ⟨h.size_pos, h.size_aligned⟩, h.end_le⟩
  · rintro ⟨⟨hbase, hbaseAligned⟩, ⟨hsize, hsizeAligned⟩, hend⟩
    exact ⟨hbase, hsize, hbaseAligned, hsizeAligned, hend⟩

variable (pyRepr : String → String)

theorem validateRegions_iff {pageSize : Int} {vmRegions : List PyValue} {regions : List Region}
    (hregions : List.Forall₂ PyValue.IsRegion vmRegions regions) :
    validateRegions pyRepr pageSize vmRegions = .ok () ↔ Specified pageSize regions := by
  rw [validateRegions_eq_ok]
  constructor
  · rintro ⟨regions', hregions', hall, hnames, hapart⟩
    obtain rfl := List.right_unique_forall₂' PyValue.IsRegion.unique hregions' hregions
    exact ⟨fun r hr => validRegionName_iff.mp (hall r hr).1, hnames,
      fun r hr => (regionValid_iff.mp (hall r hr).2).1,
      fun r hr => (regionValid_iff.mp (hall r hr).2).2.1,
      fun r hr => (regionValid_iff.mp (hall r hr).2).2.2, hapart⟩
  · intro h
    refine ⟨regions, hregions, fun r hr => ?_, h.names_distinct, h.apart⟩
    exact ⟨validRegionName_iff.mpr (h.name_mem r hr),
      regionValid_iff.mpr ⟨h.base r hr, h.size r hr, h.fits r hr⟩⟩

/-- Different regions have different fields. -/
theorem Specified.fieldNames_distinct {pageSize : Int} {regions : List Region}
    (h : Specified pageSize regions) : (regions.map Region.fieldName).Nodup := by
  have hnames := h.names_distinct
  rw [show regions.map Region.fieldName = (regions.map Region.name).map String.toLower by
    rw [List.map_map]; rfl]
  refine hnames.map_on fun name hname name' hname' heq => ?_
  obtain ⟨r, hr, rfl⟩ := List.mem_map.mp hname
  obtain ⟨r', hr', rfl⟩ := List.mem_map.mp hname'
  exact toLower_injOn (not_isLower_of_mem (h.name_mem r hr))
    (not_isLower_of_mem (h.name_mem r' hr')) heq

/-- The two checks of the page size. -/
theorem powerOfTwo_iff {n : Int} :
    (0 < n ∧ n.toNat &&& (n.toNat - 1) = 0) ↔ ∃ k : Nat, n = 2 ^ k := by
  constructor
  · rintro ⟨hpos, hand⟩
    obtain ⟨k, hk⟩ := (Nat.and_sub_one_eq_zero_iff_isPowerOfTwo (by omega)).mp hand
    refine ⟨k, ?_⟩
    rw [← Int.toNat_of_nonneg hpos.le, hk]
    push_cast
    rfl
  · rintro ⟨k, rfl⟩
    have hnat : ((2 : Int) ^ k).toNat = 2 ^ k := by
      rw [← Int.toNat_natCast (2 ^ k)]
      push_cast
      rfl
    refine ⟨by positivity, ?_⟩
    rw [hnat, Nat.and_sub_one_eq_zero_iff_isPowerOfTwo (by positivity)]
    exact ⟨k, rfl⟩

/-- `read_config` accepts the page sizes that are powers of two, and lists. -/
theorem readConfig_eq_ok {config : ConfigModule} {pageSize : Int} {vmRegions : List PyValue} :
    readConfig config = .ok (pageSize, vmRegions) ↔
      (∃ value, config.pageSize = some value ∧ value.int? = some pageSize) ∧
      (∃ k : Nat, pageSize = 2 ^ k) ∧ config.vmRegions = some (.list vmRegions) := by
  simp only [readConfig, expect_bind_eq_ok, ensure_bind_eq_ok]
  constructor
  · rintro ⟨value, hvalue, regions, hregions, n, hn, hpos, hand, h⟩
    split at h
    · obtain ⟨rfl, rfl⟩ := Prod.mk.inj (Except.ok.inj h)
      exact ⟨⟨value, hvalue, hn⟩, powerOfTwo_iff.mp ⟨hpos, hand⟩, hregions⟩
    · cases h
  · rintro ⟨⟨value, hvalue, hn⟩, hk, hregions⟩
    obtain ⟨hpos, hand⟩ := powerOfTwo_iff.mpr hk
    exact ⟨value, hvalue, _, hregions, pageSize, hn, hpos, hand, rfl⟩

theorem checkedLayout_eq_ok {config : ConfigModule} {pageSize : Int} {regions : List Region} :
    checkedLayout pyRepr config = .ok (pageSize, regions) ↔
      ∃ vmRegions, readConfig config = .ok (pageSize, vmRegions) ∧
        List.Forall₂ PyValue.IsRegion vmRegions regions ∧ Specified pageSize regions := by
  rw [checkedLayout, checked_bind_eq_ok]
  constructor
  · rintro ⟨⟨pageSize', vmRegions⟩, hread, h⟩
    obtain ⟨⟨⟩, hvalidate, h⟩ := checked_bind_eq_ok.mp h
    obtain ⟨rfl, rfl⟩ := Prod.mk.inj (Except.ok.inj h)
    obtain ⟨regions, hregions, -⟩ := (validateRegions_eq_ok pyRepr).mp hvalidate
    rw [readRegions_eq hregions]
    exact ⟨vmRegions, hread, hregions, (validateRegions_iff pyRepr hregions).mp hvalidate⟩
  · rintro ⟨vmRegions, hread, hregions, hspecified⟩
    refine ⟨(pageSize, vmRegions), hread, checked_bind_eq_ok.mpr ⟨(), ?_, ?_⟩⟩
    · exact (validateRegions_iff pyRepr hregions).mpr hspecified
    · rw [readRegions_eq hregions]
      rfl

/-- The configuration defines a page size and the list of these regions. -/
structure Configures (config : ConfigModule) (pageSize : Int) (regions : List Region) : Prop where
  page : ∃ value, config.pageSize = some value ∧ value.int? = some pageSize
  power : ∃ k : Nat, pageSize = 2 ^ k
  list : ∃ vmRegions, config.vmRegions = some (.list vmRegions) ∧
    List.Forall₂ PyValue.IsRegion vmRegions regions

/-- The tool writes a header for the layouts that are as specified, and for no others. -/
theorem layoutHeader_eq_ok {config : ConfigModule} {configName header : String} :
    layoutHeader pyRepr config configName = .ok header ↔
      ∃ pageSize regions, Configures config pageSize regions ∧ Specified pageSize regions ∧
        header = generateHeader pageSize regions configName := by
  rw [layoutHeader, checked_bind_eq_ok]
  constructor
  · rintro ⟨⟨pageSize, regions⟩, hchecked, h⟩
    obtain ⟨vmRegions, hread, hregions, hspecified⟩ := (checkedLayout_eq_ok pyRepr).mp hchecked
    obtain ⟨hpage, hpower, hlist⟩ := readConfig_eq_ok.mp hread
    exact ⟨pageSize, regions, ⟨hpage, hpower, vmRegions, hlist, hregions⟩, hspecified,
      (Except.ok.inj h).symm⟩
  · rintro ⟨pageSize, regions, ⟨hpage, hpower, vmRegions, hlist, hregions⟩, hspecified, rfl⟩
    refine ⟨(pageSize, regions), (checkedLayout_eq_ok pyRepr).mpr ?_, rfl⟩
    exact ⟨vmRegions, readConfig_eq_ok.mpr ⟨hpage, hpower, hlist⟩, hregions, hspecified⟩

/-- For every page size the tool has: the checks accept a list of regions exactly when it is as
specified, and then the fields of the header have different names. -/
theorem layoutChecker_exact (k : Nat) {vmRegions : List PyValue} {regions : List Region}
    (hregions : List.Forall₂ PyValue.IsRegion vmRegions regions) :
    (validateRegions pyRepr (2 ^ k) vmRegions = .ok () ↔ Specified (2 ^ k) regions) ∧
      (validateRegions pyRepr (2 ^ k) vmRegions = .ok () →
        (regions.map Region.fieldName).Nodup) := by
  have hiff : validateRegions pyRepr (2 ^ k) vmRegions = .ok () ↔ Specified (2 ^ k) regions :=
    validateRegions_iff pyRepr hregions
  exact ⟨hiff, fun haccepted => (hiff.mp haccepted).fieldNames_distinct⟩

theorem isRegion_regionDict (r : Region) : (regionDict r).IsRegion r := by
  refine ⟨_, rfl, fun key => ?_, rfl⟩
  simp only [requiredKeys, List.map_cons, List.map_nil, List.mem_cons, List.not_mem_nil]
  tauto

theorem layoutChecker_exact_shipped :
    Specified (2 ^ 12) shippedRegions ∧ (shippedRegions.map Region.fieldName).Nodup := by
  have hregions : List.Forall₂ PyValue.IsRegion (shippedRegions.map regionDict) shippedRegions :=
    List.forall₂_map_left_iff.mpr (List.forall₂_same.mpr fun r _ => isRegion_regionDict r)
  have haccepted : validateRegions id (2 ^ 12) (shippedRegions.map regionDict) = .ok () := by
    decide +kernel
  have hexact := layoutChecker_exact id 12 hregions
  exact ⟨hexact.1.mp haccepted, hexact.2 haccepted⟩

end VmLayout
end Carrels
