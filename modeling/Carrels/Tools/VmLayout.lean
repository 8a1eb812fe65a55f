/-
The layout tool (`tools/gen_vm_layout.py`) and the slices it gives to the protocons.

The tool checks a list of regions and writes a header with their bases and sizes and an
accessor.  The accessor and the system description (`meta/vspace.py`) take a region as the
slice of protocon 0 and put the slices of the other protocons behind it.  The checks look at
the first slice of a region only.
-/
import Mathlib.Data.Int.ConditionallyCompleteOrder
import Mathlib.Data.List.Sort
import Carrels.Lib.Slices
import Carrels.Monitor.State

namespace Carrels
namespace VmLayout

open Slices Monitor

/-! ## Values of the configuration -/

/-- The key of a dictionary. -/
inductive PyKey
  | str (s : String)
  | other
  deriving DecidableEq

/-- A value of the configuration module; floats, `None` and the rest are `other`. -/
inductive PyValue
  | int (n : Int)
  | bool (b : Bool)
  | str (s : String)
  | list (items : List PyValue)
  | dict (fields : List (PyKey × PyValue))
  | other

/-- `isinstance(value, int)`: a bool is an integer. -/
def PyValue.int? : PyValue → Option Int
  | .int n => some n
  | .bool b => some b.toNat
  | _ => none

/-- `isinstance(value, str)` -/
def PyValue.str? : PyValue → Option String
  | .str s => some s
  | _ => none

/-- What is raised; `interpreter` stands for the errors whose text is not the tool's. -/
inductive PyError
  | typeError (message : String)
  | valueError (message : String)
  | interpreter
  deriving DecidableEq

abbrev Checked := Except PyError

def ensure (p : Prop) [Decidable p] (e : PyError) : Checked Unit :=
  if p then .ok () else .error e

def expect {α : Type} (value : Option α) (e : PyError) : Checked α :=
  value.elim (.error e) .ok

@[simp]
theorem ensure_bind_eq_ok {α : Type} {p : Prop} [Decidable p] {e : PyError}
    {f : Unit → Checked α} {a : α} : (ensure p e >>= f) = .ok a ↔ p ∧ f () = .ok a := by
  by_cases h : p <;> simp [ensure, h, bind, Except.bind]

@[simp]
theorem expect_bind_eq_ok {α β : Type} {value : Option β} {e : PyError}
    {f : β → Checked α} {a : α} :
    (expect value e >>= f) = .ok a ↔ ∃ b, value = some b ∧ f b = .ok a := by
  cases value <;> simp [expect, bind, Except.bind]

theorem checked_bind_eq_ok {α β : Type} {x : Checked α} {f : α → Checked β} {b : β} :
    (x >>= f) = .ok b ↔ ∃ a, x = .ok a ∧ f a = .ok b := by
  cases x <;> simp [bind, Except.bind]

/-! ## The configuration -/

/-- The attributes of the configuration module, `none` where it does not define one. -/
structure ConfigModule where
  pageSize : Option PyValue
  vmRegions : Option PyValue

/-- `read_config` -/
def readConfig (config : ConfigModule) : Checked (Int × List PyValue) := do
  let pageSize ← expect config.pageSize (.valueError "config must define PAGE_SIZE")
  let vmRegions ← expect config.vmRegions (.valueError "config must define VM_REGIONS")
  let pageSize ← expect pageSize.int? (.typeError "PAGE_SIZE must be an integer")
  ensure (0 < pageSize) (.valueError "PAGE_SIZE must be positive")
  ensure (pageSize.toNat &&& (pageSize.toNat - 1) = 0)
    (.valueError "PAGE_SIZE must be a power of two")
  match vmRegions with
  | .list regions => .ok (pageSize, regions)
  | _ => .error (.typeError "VM_REGIONS must be a list")

/-- `VALID_REGION_NAME` -/
def validRegionName (name : String) : Bool :=
  match name.toList with
  | [] => false
  | first :: rest =>
    first.isUpper && rest.all fun c => c.isUpper || c.isDigit || c == '_'

def uint64Max : Int := 2 ^ 64 - 1

/-- `required_keys`, sorted. -/
def requiredKeys : List String := ["base", "name", "size"]

/-- `", ".join(sorted(keys))` -/
def joinKeys (keys : List PyKey) : Checked String :=
  match keys.mapM fun | .str s => some s | .other => none with
  | some names => .ok (", ".intercalate (names.insertionSort (· ≤ ·)))
  | none => .error .interpreter

/-- `0x{n:x}` -/
def hex (n : Int) : String := "0x" ++ String.ofList (Nat.toDigits 16 n.toNat)

/-- An entry of `VM_REGIONS` whose three fields have their types. -/
structure Region where
  name : String
  base : Int
  size : Int
  deriving DecidableEq

def Region.read? : PyValue → Option Region
  | .dict fields => do
    let name ← (fields.lookup (.str "name")).bind PyValue.str?
    let base ← (fields.lookup (.str "base")).bind PyValue.int?
    let size ← (fields.lookup (.str "size")).bind PyValue.int?
    return { name, base, size }
  | _ => none

/-! ## The checks

`pyRepr` is the interpreter's `repr` of a string. -/

variable (pyRepr : String → String)

/-- The checks of one region that do not depend on its place in the list. -/
def checkRegion (pageSize : Int) (region : Region) : Checked Unit := do
  let name := region.name
  let base := region.base
  let size := region.size
  ensure (0 ≤ base) (.valueError s!"{name}: base must be non-negative")
  ensure (0 < size) (.valueError s!"{name}: size must be positive")
  ensure (base ≤ uint64Max) (.valueError s!"{name}: base exceeds uint64_t")
  ensure (size ≤ uint64Max) (.valueError s!"{name}: size exceeds uint64_t")
  ensure (base % pageSize = 0) (.valueError s!"{name}: base {hex base} is not page aligned")
  ensure (size % pageSize = 0) (.valueError s!"{name}: size {hex size} is not page aligned")
  ensure (base + size ≤ uint64Max) (.valueError s!"{name}: address range overflows uint64_t")
  return ()

/-- The body of the first loop of `validate_regions`; the result is `names` after it. -/
def validateRegion (pageSize : Int) (names : List String) (index : Nat) (region : PyValue) :
    Checked (List String) :=
  match region with
  | .dict fields => do
    let missing := requiredKeys.filter fun key => (fields.lookup (.str key)).isNone
    let missingNames := ", ".intercalate missing
    ensure (missing = []) (.valueError s!"VM_REGIONS[{index}] is missing: {missingNames}")
    let unexpected := (fields.map Prod.fst).filter fun key => key ∉ requiredKeys.map .str
    let unexpectedNames ← joinKeys unexpected
    ensure (unexpected = [])
      (.valueError s!"VM_REGIONS[{index}] has unexpected keys: {unexpectedNames}")
    let name ← expect ((fields.lookup (.str "name")).bind PyValue.str?)
      (.typeError s!"VM_REGIONS[{index}].name must be a string")
    let nameRepr := pyRepr name
    ensure (validRegionName name)
      (.valueError s!"{nameRepr}: region name must match [A-Z][A-Z0-9_]*")
    ensure (name ∉ names) (.valueError s!"duplicate region name: {name}")
    let base ← expect ((fields.lookup (.str "base")).bind PyValue.int?)
      (.typeError s!"{name}: base must be an integer")
    let size ← expect ((fields.lookup (.str "size")).bind PyValue.int?)
      (.typeError s!"{name}: size must be an integer")
    checkRegion pageSize { name, base, size }
    return name :: names
  | _ => .error (.typeError s!"VM_REGIONS[{index}] must be a dictionary")

/-- The first loop of `validate_regions`, from one index on. -/
def validateEach (pageSize : Int) : List String → Nat → List PyValue → Checked Unit
  | _, _, [] => .ok ()
  | names, index, region :: rest => do
    let names ← validateRegion pyRepr pageSize names index region
    validateEach pageSize names (index + 1) rest

/-- The second loop of `validate_regions`, over the neighbours of the sorted list. -/
def checkOverlaps : List Region → Checked Unit
  | previous :: current :: rest => do
    let previousEnd := previous.base + previous.size
    let currentEnd := current.base + current.size
    let previousName := previous.name
    let currentName := current.name
    ensure (previousEnd ≤ current.base)
      (.valueError (s!"overlap: {previousName} [{hex previous.base}, {hex previousEnd}) and " ++
        s!"{currentName} [{hex current.base}, {hex currentEnd})"))
    checkOverlaps (current :: rest)
  | _ => .ok ()

/-- The dictionaries of an accepted list as the tool reads them again after the checks. -/
def readRegions (vmRegions : List PyValue) : List Region := vmRegions.filterMap Region.read?

/-- `validate_regions` -/
def validateRegions (pageSize : Int) (vmRegions : List PyValue) : Checked Unit := do
  validateEach pyRepr pageSize [] 0 vmRegions
  checkOverlaps ((readRegions vmRegions).insertionSort fun r r' => r.base ≤ r'.base)

/-- `main` between the configuration module and `generate_header`. -/
def checkedLayout (config : ConfigModule) : Checked (Int × List Region) := do
  let (pageSize, vmRegions) ← readConfig config
  validateRegions pyRepr pageSize vmRegions
  return (pageSize, readRegions vmRegions)

/-! ## Slices -/

/-- `monitor_vm_region_t` -/
structure MonitorVmRegion where
  base : UInt64
  size : UInt64

/-- The initializer of a region in the generated header. -/
def Region.header (r : Region) : MonitorVmRegion :=
  { base := .ofNat r.base.toNat, size := .ofNat r.size.toNat }

/-- `monitor_vm_region_base` of the generated header. -/
def monitorVmRegionBase (region : MonitorVmRegion) (cid : UInt64) : UInt64 :=
  region.base + cid * region.size

/-- `VSpace.region_base` of the system description. -/
def VSpace.regionBase (regions : List Region) (name : String) (index : Nat) : Option Int :=
  (regions.find? fun r => r.name = name).map fun r => r.base + index * r.size

/-- The addresses of the slice of protocon `c`. -/
def Region.slice (r : Region) (c : Nat) : Set Int := Slices.slice r.base r.size c

/-- Every slice is where the header and the system description put it, it ends below `2^64`,
and it has no address in common with another slice. -/
def SlicesApart (regions : List Region) : Prop :=
  ∀ r ∈ regions, ∀ c < pcChildMaxNum,
    VSpace.regionBase regions r.name c = some (r.base + c * r.size) ∧
    ((monitorVmRegionBase r.header (.ofNat c)).toNat : Int) = r.base + c * r.size ∧
    r.base + (c + 1 : Nat) * r.size < 2 ^ 64 ∧
    ∀ r' ∈ regions, ∀ c' < pcChildMaxNum, (r, c) ≠ (r', c') →
      Disjoint (r.slice c) (r'.slice c')

/-- There is room for the slices of all protocons before the end of the address space and
before the next region. -/
def RoomForSlices (regions : List Region) : Prop :=
  ∀ r ∈ regions, r.base + pcChildMaxNum * r.size < 2 ^ 64 ∧
    ∀ r' ∈ regions, r.base < r'.base → r.base + pcChildMaxNum * r.size ≤ r'.base

/-! ## What the checks establish -/

structure Region.Valid (pageSize : Int) (r : Region) : Prop where
  base_nonneg : 0 ≤ r.base
  size_pos : 0 < r.size
  base_aligned : r.base % pageSize = 0
  size_aligned : r.size % pageSize = 0
  end_le : r.base + r.size ≤ uint64Max

theorem checkRegion_eq_ok {pageSize : Int} {r : Region} :
    checkRegion pageSize r = .ok () ↔ r.Valid pageSize := by
  simp only [checkRegion, ensure_bind_eq_ok]
  constructor
  · rintro ⟨hbase, hsize, -, -, hbaseAligned, hsizeAligned, hend, -⟩
    exact ⟨hbase, hsize, hbaseAligned, hsizeAligned, hend⟩
  · intro h
    have hbase := h.base_nonneg
    have hsize := h.size_pos
    have hend := h.end_le
    exact ⟨hbase, hsize, by omega, by omega, h.base_aligned, h.size_aligned, hend, rfl⟩

/-- The keys of a dictionary are the required ones. -/
def HasKeys (fields : List (PyKey × PyValue)) : Prop :=
  ∀ key, key ∈ fields.map Prod.fst ↔ key ∈ requiredKeys.map PyKey.str

/-- A dictionary with the keys of a region and values of their types. -/
def PyValue.IsRegion (value : PyValue) (r : Region) : Prop :=
  ∃ fields, value = .dict fields ∧ HasKeys fields ∧ Region.read? value = some r

theorem lookup_isNone_iff {fields : List (PyKey × PyValue)} {key : PyKey} :
    (fields.lookup key).isNone = true ↔ key ∉ fields.map Prod.fst := by
  rw [Option.isNone_iff_eq_none, List.lookup_eq_none_iff, List.mem_map]
  constructor
  · rintro h ⟨p, hp, rfl⟩
    exact absurd (h p hp) (by simp)
  · intro h p hp
    exact bne_iff_ne.mpr fun heq => h ⟨p, hp, heq.symm⟩

theorem hasKeys_iff {fields : List (PyKey × PyValue)} :
    HasKeys fields ↔
      (requiredKeys.filter fun key => (fields.lookup (.str key)).isNone) = [] ∧
      ((fields.map Prod.fst).filter fun key => key ∉ requiredKeys.map .str) = [] := by
  rw [List.filter_eq_nil_iff, List.filter_eq_nil_iff]
  constructor
  · intro h
    refine ⟨fun key hkey hnone => ?_, fun key hkey => by simpa using (h key).mp hkey⟩
    exact lookup_isNone_iff.mp hnone ((h _).mpr (List.mem_map_of_mem hkey))
  · rintro ⟨hmissing, hunexpected⟩ key
    refine ⟨fun hkey => by simpa using hunexpected key hkey, fun hkey => ?_⟩
    obtain ⟨name, hname, rfl⟩ := List.mem_map.mp hkey
    exact not_not.mp fun hnot => hmissing name hname (lookup_isNone_iff.mpr hnot)

theorem Region.read?_dict_eq_some {fields : List (PyKey × PyValue)} {r : Region} :
    Region.read? (.dict fields) = some r ↔
      (fields.lookup (.str "name")).bind PyValue.str? = some r.name ∧
      (fields.lookup (.str "base")).bind PyValue.int? = some r.base ∧
      (fields.lookup (.str "size")).bind PyValue.int? = some r.size := by
  obtain ⟨name, base, size⟩ := r
  simp [Region.read?, Option.bind_eq_some_iff]

/-- One region: its fields have their types, it is valid, and its name is a new one. -/
theorem validateRegion_eq_ok {pageSize : Int} {names names' : List String} {index : Nat}
    {value : PyValue} :
    validateRegion pyRepr pageSize names index value = .ok names' ↔
      ∃ r, value.IsRegion r ∧ validRegionName r.name = true ∧ r.name ∉ names ∧
        r.Valid pageSize ∧ names' = r.name :: names := by
  cases value with
  | dict fields =>
    simp only [validateRegion, ensure_bind_eq_ok]
    constructor
    · rintro ⟨hmissing, h⟩
      obtain ⟨unexpectedNames, hnames, h⟩ := checked_bind_eq_ok.mp h
      change (ensure _ _ >>= _) = _ at h
      simp only [ensure_bind_eq_ok, expect_bind_eq_ok] at h
      obtain ⟨hunexpected, name, hname, hvalid, hnew, base, hbase, size, hsize, h⟩ := h
      obtain ⟨⟨⟩, hcheck, h⟩ := checked_bind_eq_ok.mp h
      refine ⟨{ name, base, size }, ⟨fields, rfl, hasKeys_iff.mpr ⟨hmissing, hunexpected⟩, ?_⟩,
        hvalid, hnew, checkRegion_eq_ok.mp hcheck, (Except.ok.inj h).symm⟩
      exact Region.read?_dict_eq_some.mpr ⟨hname, hbase, hsize⟩
    · rintro ⟨r, ⟨fields', hfields, hkeys, hread⟩, hvalid, hnew, hregion, rfl⟩
      obtain rfl := PyValue.dict.inj hfields
      obtain ⟨hmissing, hunexpected⟩ := hasKeys_iff.mp hkeys
      obtain ⟨hname, hbase, hsize⟩ := Region.read?_dict_eq_some.mp hread
      refine ⟨hmissing, checked_bind_eq_ok.mpr ⟨"", by rw [hunexpected]; rfl, ?_⟩⟩
      simp only [ensure_bind_eq_ok, expect_bind_eq_ok]
      refine ⟨hunexpected, r.name, hname, hvalid, hnew, r.base, hbase, r.size, hsize, ?_⟩
      exact checked_bind_eq_ok.mpr ⟨(), checkRegion_eq_ok.mpr hregion, rfl⟩
  | _ =>
    refine iff_of_false (fun h => ?_) fun h => ?_
    · cases h
    · obtain ⟨r, ⟨fields, hfields, -⟩, -⟩ := h
      cases hfields

/-- The first loop: what it has seen in `names` does not come again. -/
theorem validateEach_eq_ok {pageSize : Int} {values : List PyValue} {names : List String}
    {index : Nat} :
    validateEach pyRepr pageSize names index values = .ok () ↔
      ∃ regions, List.Forall₂ PyValue.IsRegion values regions ∧
        (∀ r ∈ regions, validRegionName r.name = true ∧ r.name ∉ names ∧ r.Valid pageSize) ∧
        (regions.map Region.name).Nodup := by
  induction values generalizing names index with
  | nil => simp [validateEach]
  | cons value values ih =>
    rw [validateEach, checked_bind_eq_ok]
    simp only [validateRegion_eq_ok, ih, List.forall₂_cons_left_iff]
    constructor
    · rintro ⟨-, ⟨r, hr, hname, hnew, hvalid, rfl⟩, regions, hregions, hrest, hnodup⟩
      refine ⟨r :: regions, ⟨r, regions, hr, hregions, rfl⟩, ?_, ?_⟩
      · refine List.forall_mem_cons.mpr ⟨⟨hname, hnew, hvalid⟩, fun r' hr' => ?_⟩
        obtain ⟨hname', hnew', hvalid'⟩ := hrest r' hr'
        exact ⟨hname', fun h => hnew' (List.mem_cons_of_mem _ h), hvalid'⟩
      · rw [List.map_cons, List.nodup_cons]
        refine ⟨fun hmem => ?_, hnodup⟩
        obtain ⟨r', hr', heq⟩ := List.mem_map.mp hmem
        exact (hrest r' hr').2.1 (heq ▸ List.mem_cons_self)
    · rintro ⟨-, ⟨r, regions, hr, hregions, rfl⟩, hall, hnodup⟩
      rw [List.map_cons, List.nodup_cons] at hnodup
      obtain ⟨⟨hname, hnew, hvalid⟩, hrest⟩ := List.forall_mem_cons.mp hall
      refine ⟨_, ⟨r, hr, hname, hnew, hvalid, rfl⟩, regions, hregions, fun r' hr' => ?_,
        hnodup.2⟩
      obtain ⟨hname', hnew', hvalid'⟩ := hrest r' hr'
      refine ⟨hname', fun h => ?_, hvalid'⟩
      rcases List.mem_cons.mp h with heq | h
      · exact hnodup.1 (heq ▸ List.mem_map_of_mem hr')
      · exact hnew' h

theorem checkOverlaps_eq_ok : ∀ {regions : List Region},
    checkOverlaps regions = .ok () ↔ regions.IsChain fun r r' => r.base + r.size ≤ r'.base
  | [] => by simp [checkOverlaps]
  | [r] => by simp [checkOverlaps]
  | r :: r' :: regions => by
    rw [List.isChain_cons_cons, checkOverlaps, ensure_bind_eq_ok, checkOverlaps_eq_ok]

/-- The second loop: any two regions are apart. -/
theorem checkOverlaps_sorted_eq_ok {regions : List Region} (hsize : ∀ r ∈ regions, 0 < r.size) :
    checkOverlaps (regions.insertionSort fun r r' => r.base ≤ r'.base) = .ok () ↔
      regions.Pairwise fun r r' => Disjoint (Set.Ico r.base (r.base + r.size))
        (Set.Ico r'.base (r'.base + r'.size)) := by
  rw [checkOverlaps_eq_ok]
  apply isChain_insertionSort_iff Region.base fun r => r.base + r.size
  intro r hr
  have := hsize r hr
  omega

theorem PyValue.IsRegion.unique : Relator.RightUnique PyValue.IsRegion := by
  rintro value r r' ⟨_, -, -, hr⟩ ⟨_, -, -, hr'⟩
  exact Option.some.inj (hr.symm.trans hr')

theorem readRegions_eq {values : List PyValue} {regions : List Region}
    (h : List.Forall₂ PyValue.IsRegion values regions) : readRegions values = regions := by
  induction h with
  | nil => rfl
  | cons hr _ ih =>
    obtain ⟨fields, -, -, hread⟩ := hr
    rw [readRegions, List.filterMap_cons_some hread, ← readRegions, ih]

theorem validateRegions_eq_ok {pageSize : Int} {values : List PyValue} :
    validateRegions pyRepr pageSize values = .ok () ↔
      ∃ regions, List.Forall₂ PyValue.IsRegion values regions ∧
        (∀ r ∈ regions, validRegionName r.name = true ∧ r.Valid pageSize) ∧
        (regions.map Region.name).Nodup ∧
        regions.Pairwise fun r r' => Disjoint (Set.Ico r.base (r.base + r.size))
          (Set.Ico r'.base (r'.base + r'.size)) := by
  rw [validateRegions, checked_bind_eq_ok]
  constructor
  · rintro ⟨⟨⟩, heach, hoverlaps⟩
    obtain ⟨regions, hregions, hall, hnodup⟩ := (validateEach_eq_ok pyRepr).mp heach
    rw [readRegions_eq hregions,
      checkOverlaps_sorted_eq_ok fun r hr => (hall r hr).2.2.size_pos] at hoverlaps
    exact ⟨regions, hregions, fun r hr => ⟨(hall r hr).1, (hall r hr).2.2⟩, hnodup, hoverlaps⟩
  · rintro ⟨regions, hregions, hall, hnodup, hdisjoint⟩
    refine ⟨(), (validateEach_eq_ok pyRepr).mpr ⟨regions, hregions, fun r hr => ?_, hnodup⟩, ?_⟩
    · exact ⟨(hall r hr).1, List.not_mem_nil, (hall r hr).2⟩
    · rw [readRegions_eq hregions]
      exact (checkOverlaps_sorted_eq_ok fun r hr => (hall r hr).2.size_pos).mpr hdisjoint

/-- What an accepted layout is. -/
structure Accepted (pageSize : Int) (regions : List Region) : Prop where
  valid : ∀ r ∈ regions, r.Valid pageSize
  names : (regions.map Region.name).Nodup
  ordered : ∀ r ∈ regions, ∀ r' ∈ regions, r ≠ r' →
    r.base + r.size ≤ r'.base ∨ r'.base + r'.size ≤ r.base

theorem checkedLayout_accepted {config : ConfigModule} {pageSize : Int} {regions : List Region}
    (h : checkedLayout pyRepr config = .ok (pageSize, regions)) : Accepted pageSize regions := by
  rw [checkedLayout] at h
  obtain ⟨⟨pageSize', vmRegions⟩, -, h⟩ := checked_bind_eq_ok.mp h
  obtain ⟨⟨⟩, hvalidate, h⟩ := checked_bind_eq_ok.mp h
  obtain ⟨rfl, rfl⟩ := Prod.mk.inj (Except.ok.inj h)
  obtain ⟨regions, hregions, hall, hnodup, hdisjoint⟩ := (validateRegions_eq_ok pyRepr).mp hvalidate
  rw [readRegions_eq hregions]
  refine ⟨fun r hr => (hall r hr).2, hnodup, fun r hr r' hr' hne => ?_⟩
  have hsize := (hall r hr).2.size_pos
  have hsize' := (hall r' hr').2.size_pos
  have : Std.Symm fun r r' : Region => Disjoint (Set.Ico r.base (r.base + r.size))
      (Set.Ico r'.base (r'.base + r'.size)) := ⟨fun _ _ h => h.symm⟩
  exact (ico_disjoint_iff (by omega) (by omega)).mp (hdisjoint.forall hr hr' hne)

namespace Accepted

variable {pageSize : Int} {regions : List Region}

theorem regionBase (h : Accepted pageSize regions) {r : Region} (hr : r ∈ regions) (c : Nat) :
    VSpace.regionBase regions r.name c = some (r.base + c * r.size) := by
  rcases hfind : regions.find? (fun r' => r'.name = r.name) with _ | r'
  · rw [List.find?_eq_none] at hfind
    exact absurd (hfind r hr) (by simp)
  · have hname : r'.name = r.name := by simpa using List.find?_some hfind
    have heq : r' = r :=
      List.inj_on_of_nodup_map h.names (List.mem_of_find?_eq_some hfind) hr hname
    rw [VSpace.regionBase, hfind, heq, Option.map_some]

/-- The accessor does not wrap where the slice ends below `2^64`. -/
theorem monitorVmRegionBase (h : Accepted pageSize regions) {r : Region} (hr : r ∈ regions)
    {c : Nat} (hc : c < pcChildMaxNum) (hend : r.base + (c + 1 : Nat) * r.size < 2 ^ 64) :
    ((VmLayout.monitorVmRegionBase r.header (.ofNat c)).toNat : Int) = r.base + c * r.size := by
  obtain ⟨base, hbase⟩ := Int.eq_ofNat_of_zero_le (h.valid r hr).base_nonneg
  obtain ⟨size, hsize⟩ := Int.eq_ofNat_of_zero_le (h.valid r hr).size_pos.le
  have hfit : base + c * size + size < 2 ^ 64 := by
    rw [hbase, hsize] at hend
    have hend' : ((base + (c + 1) * size : Nat) : Int) < 2 ^ 64 := by push_cast; exact_mod_cast hend
    have hnat : base + (c + 1) * size < 2 ^ 64 := by exact_mod_cast hend'
    rw [Nat.add_mul] at hnat
    omega
  unfold pcChildMaxNum at hc
  have hvalue : (VmLayout.monitorVmRegionBase r.header (.ofNat c)).toNat = base + c * size := by
    simp only [VmLayout.monitorVmRegionBase, Region.header, UInt64.toNat_add, UInt64.toNat_mul,
      UInt64.toNat_ofNat', hbase, hsize, Int.toNat_natCast]
    rw [Nat.mod_eq_of_lt (a := c) (by omega), Nat.mod_eq_of_lt (a := size) (by omega),
      Nat.mod_eq_of_lt (a := base) (by omega), Nat.mod_eq_of_lt (a := c * size) (by omega),
      Nat.mod_eq_of_lt (by omega)]
  rw [hvalue, hbase, hsize]
  push_cast
  rfl

theorem base_ne (h : Accepted pageSize regions) {r r' : Region} (hr : r ∈ regions)
    (hr' : r' ∈ regions) (hne : r ≠ r') : r.base ≠ r'.base := by
  have hsize := (h.valid r hr).size_pos
  have hsize' := (h.valid r' hr').size_pos
  rcases h.ordered r hr r' hr' hne with hle | hle
  · omega
  · omega

/-- Two different regions: their slices are apart when the span of one ends before the other
starts. -/
theorem slices_disjoint_iff (h : Accepted pageSize regions) {r r' : Region} (hr : r ∈ regions)
    (hr' : r' ∈ regions) :
    (∀ c < pcChildMaxNum, ∀ c' < pcChildMaxNum, Disjoint (r.slice c) (r'.slice c')) ↔
      r.base + pcChildMaxNum * r.size ≤ r'.base ∨ r'.base + pcChildMaxNum * r'.size ≤ r.base := by
  have hsize := (h.valid r hr).size_pos
  have hsize' := (h.valid r' hr').size_pos
  unfold pcChildMaxNum Region.slice
  rw [disjoint_iff_span hsize hsize', span, span]
  exact ico_disjoint_iff (by push_cast; omega) (by push_cast; omega)

theorem slicesApart_iff (h : Accepted pageSize regions) :
    SlicesApart regions ↔ RoomForSlices regions := by
  constructor
  · intro hapart r hr
    have hlast := (hapart r hr 15 (by decide)).2.2.1
    refine ⟨hlast, fun r' hr' hlt => ?_⟩
    have hne : r ≠ r' := by
      rintro rfl
      exact absurd hlt (lt_irrefl _)
    have hdisjoint := (h.slices_disjoint_iff hr hr').mp fun c hc c' hc' =>
      (hapart r hr c hc).2.2.2 r' hr' c' hc' fun heq => hne (congrArg Prod.fst heq)
    rcases hdisjoint with hle | hle
    · exact hle
    · have hsize' := (h.valid r' hr').size_pos
      have hmul : 0 ≤ (pcChildMaxNum : Int) * r'.size := by positivity
      omega
  · intro hroom r hr c hc
    have hsize := (h.valid r hr).size_pos
    have hend : r.base + (c + 1 : Nat) * r.size < 2 ^ 64 :=
      lt_of_le_of_lt (start_le_start hsize hc) (hroom r hr).1
    refine ⟨h.regionBase hr c, h.monitorVmRegionBase hr hc hend, hend, ?_⟩
    intro r' hr' c' hc' hne
    by_cases heq : r = r'
    · subst heq
      exact disjoint_of_ne hsize fun hcc => hne (by rw [hcc])
    · refine (h.slices_disjoint_iff hr hr').mpr ?_ c hc c' hc'
      rcases lt_or_gt_of_ne (h.base_ne hr hr' heq) with hlt | hgt
      · exact .inl ((hroom r hr).2 r' hr' hlt)
      · exact .inr ((hroom r' hr').2 r hr hgt)

end Accepted

/-- The slices of an accepted layout are apart exactly when there is room for sixteen slices
behind each base, which the tool does not check. -/
theorem acceptedLayout_slicesApart {config : ConfigModule} {pageSize : Int}
    {regions : List Region} (h : checkedLayout pyRepr config = .ok (pageSize, regions)) :
    SlicesApart regions ↔ RoomForSlices regions :=
  (checkedLayout_accepted pyRepr h).slicesApart_iff

def regionDict (r : Region) : PyValue :=
  .dict [(.str "name", .str r.name), (.str "base", .int r.base), (.str "size", .int r.size)]

def layoutConfig (pageSize : Int) (regions : List Region) : ConfigModule :=
  { pageSize := some (.int pageSize), vmRegions := some (.list (regions.map regionDict)) }

/-- The regions of `config/monitor_vm_layout.py`. -/
def shippedRegions : List Region :=
  [{ name := "LOADER_CONTEXT", base := 0x0FF40000, size := 0x1000 },
    { name := "TXLO_XRT_REQ", base := 0x0FF80000, size := 0x1000 },
    { name := "LOADER_METADATA", base := 0x0FFC0000, size := 0x1000 },
    { name := "LOADER_PROGRAM", base := 0x10000000, size := 0x00800000 },
    { name := "TRAMPOLINE_IMAGE", base := 0x30000000, size := 0x00800000 },
    { name := "CONTAINER_IMAGE", base := 0x50000000, size := 0x00800000 }]

theorem acceptedLayout_slicesApart_shipped : SlicesApart shippedRegions := by
  have haccepted : checkedLayout id (layoutConfig 0x1000 shippedRegions) =
      .ok (0x1000, shippedRegions) := by
    decide +kernel
  have hroom : RoomForSlices shippedRegions := by
    unfold RoomForSlices
    decide +kernel
  exact (acceptedLayout_slicesApart id haccepted).mpr hroom

/-- Two regions of one page each, in neighbouring pages. -/
def neighbours : List Region :=
  [{ name := "A", base := 0, size := 0x1000 }, { name := "B", base := 0x1000, size := 0x1000 }]

theorem not_acceptedLayout_slicesApart :
    ¬ ∀ (config : ConfigModule) (pageSize : Int) (regions : List Region),
      checkedLayout id config = .ok (pageSize, regions) → SlicesApart regions := by
  intro hclaim
  have haccepted : checkedLayout id (layoutConfig 0x1000 neighbours) = .ok (0x1000, neighbours) := by
    decide +kernel
  have hroom := (checkedLayout_accepted id haccepted).slicesApart_iff.mp (hclaim _ _ _ haccepted)
  unfold RoomForSlices at hroom
  exact absurd hroom (by decide +kernel)

end VmLayout
end Carrels
