/-
The image tool (`tools/service-helper.py`) and the monitor's manifest parser.

The tool puts a manifest in front of an ELF file: a header, and for each service its type,
the distance of its section from the entry point, and the section's size.  The monitor
loads these fields back.  The ELF library is a parameter; what the tool relies on is that
the sections it finds are sections of the file.
-/
import Mathlib.Algebra.Group.Int.Defs
import Mathlib.Data.List.Forall2
import Carrels.Monitor.Service

namespace Carrels
namespace ServiceHelper

open ByteMemory Monitor

/-! ## The manifest -/

/-- A value of a TOML document; numbers, booleans and dates are `other`. -/
inductive Toml
  | string (s : String)
  | array (items : List Toml)
  | table (fields : List (String × Toml))
  | other

/-- `service_types` -/
def serviceTypes : List (String × Int) :=
  [("dummy", -1), ("file_system", 0), ("device_serial", 1), ("device_ethernet", 2),
    ("device_timer", 3), ("device_i2c", 4), ("reserved", 5)]

/-- A service of the manifest. -/
structure Service where
  type : String
  target : String

/-- The body of the loop of `validate_manifest`. -/
def validateService : Toml → Option Service
  | .table fields =>
    if fields.length ≠ 2 then none
    else
      match fields.lookup "type", fields.lookup "target" with
      | some (.string type), some (.string target) =>
        if (serviceTypes.lookup type).isNone || target.isEmpty then none
        else some { type, target }
      | _, _ => none
  | _ => none

/-- `validate_manifest` on the parsed document; `none` is its error.  The keys of a table
are distinct. -/
def validateManifest : List (String × Toml) → Option (List Service)
  | [("service", .array (first :: rest))] => (first :: rest).mapM validateService
  | _ => none

/-! ## The ELF library -/

/-- A section as the library returns it. -/
structure Section where
  shAddr : Nat
  shSize : Nat

/-- An open file: `header["e_entry"]` and `get_section_by_name`. -/
structure ElfFile where
  eEntry : Nat
  getSectionByName : String → Option Section

/-- `ELFFile`; `none` where it raises an error. -/
abbrev ElfTools := List UInt8 → Option ElfFile

/-! ## The image -/

/-- A service with its section, as `resolve_service_offsets` returns it. -/
structure Resolved where
  type : Int
  offset : Int
  size : Int

/-- The body of the loop of `resolve_service_offsets`. -/
def resolveService (file : ElfFile) (service : Service) : Option Resolved := do
  let sec ← file.getSectionByName service.target
  let type ← serviceTypes.lookup service.type
  some { type, offset := sec.shAddr - file.eEntry, size := sec.shSize }

/-- `resolve_service_offsets` -/
def resolveServiceOffsets (tools : ElfTools) (elf : List UInt8) (services : List Service) :
    Option (List Resolved) :=
  (tools elf).bind fun file => services.mapM (resolveService file)

/-- `struct.pack` of an unsigned integer of `n` bytes; `none` is `struct.error`. -/
def pack (n : Nat) (v : Int) : Option (List UInt8) :=
  if 0 ≤ v ∧ v < 256 ^ n then some (toLE v.toNat n) else none

/-- `struct.pack` of a signed integer of `n` bytes. -/
def packSigned (n : Nat) (v : Int) : Option (List UInt8) :=
  if -(256 ^ n : Int) ≤ 2 * v ∧ 2 * v < 256 ^ n then some (toLE (v % 256 ^ n).toNat n) else none

/-- `svc.pack`, the format `<iQQ`. -/
def packService (s : Resolved) : Option (List UInt8) := do
  let type ← packSigned 4 s.type
  let offset ← pack 8 s.offset
  let size ← pack 8 s.size
  some (type ++ (offset ++ size))

/-- `serialize_services` -/
def serializeServices (services : List Resolved) : Option (List UInt8) :=
  (services.mapM packService).map List.flatten

/-- `hdr.size` -/
def hdrSize : Nat := 24

/-- `serialize_manifest`; the header has the format `<QIIQ`. -/
def serializeManifest (services : List Resolved) (elfSize : Nat) : Option (List UInt8) := do
  let dataServices ← serializeServices services
  let magic ← pack 8 manifestMagic.toNat
  let count ← pack 4 services.length
  let totalSize ← pack 4 (hdrSize + dataServices.length)
  let size ← pack 8 elfSize
  some ((magic ++ (count ++ (totalSize ++ size))) ++ dataServices)

/-- `image` -/
def image (elf : List UInt8) (services : List Resolved) : Option (List UInt8) :=
  (serializeManifest services elf.length).map (· ++ elf)

/-- The tool: the image it writes, or `none` when it fails. -/
def serviceHelper (tools : ElfTools) (manifest : List (String × Toml)) (elf : List UInt8) :
    Option (List UInt8) := do
  let services ← validateManifest manifest
  let resolved ← resolveServiceOffsets tools elf services
  image elf resolved

/-! ## ELF files -/

/-- The offset of section header `i`. -/
def shdrOffset (elf : List UInt8) (i : Nat) : Nat :=
  (read64 (ofList elf) 40).toNat + shdrSize * i

/-- `sh_addr` of section `i`. -/
def shAddr (elf : List UInt8) (i : Nat) : BitVec 64 := read64 (ofList elf) (shdrOffset elf i + 16)

/-- The offset of the name of section `i`. -/
def nameOffset (elf : List UInt8) (i : Nat) : Nat :=
  let names := shdrOffset elf (read16 (ofList elf) 62).toNat
  (read64 (ofList elf) (names + 24)).toNat + (read32 (ofList elf) (shdrOffset elf i)).toNat

/-- The bytes of a name and the zero behind them. -/
def cString (name : String) : List UInt8 := name.toUTF8.data.toList ++ [0]

/-- Section `i` of the file is called `name`. -/
structure SectionNamed (elf : List UInt8) (name : String) (i : Nat) : Prop where
  index : i < (read16 (ofList elf) 60).toNat
  name : memEq (ofList elf) (nameOffset elf i) (cString name) = true

/-- A 64-bit little-endian file whose section headers are present. -/
structure HasSections (elf : List UInt8) : Prop where
  header : 64 ≤ elf.length
  eIdent : memEq (ofList elf) 0 [0x7f, 0x45, 0x4c, 0x46, 2, 1] = true
  eShoff : read64 (ofList elf) 40 ≠ 0
  eShentsize : (read16 (ofList elf) 58).toNat = shdrSize
  eShnum : read16 (ofList elf) 60 ≠ 0
  eShstrndx : read16 (ofList elf) 62 ≠ 0 ∧ read16 (ofList elf) 62 < read16 (ofList elf) 60

/-- How the library reads a 64-bit little-endian file: the entry point is that of the
header, and a section it finds is one of the file, of that name. -/
structure ElfTools.Reads (tools : ElfTools) : Prop where
  entry : ∀ elf file, HasSections elf → tools elf = some file →
    file.eEntry = (read64 (ofList elf) 24).toNat
  named : ∀ elf file name sec, HasSections elf → tools elf = some file →
    file.getSectionByName name = some sec →
    ∃ i, SectionNamed elf name i ∧ sec.shAddr = (shAddr elf i).toNat

/-! ## What the monitor makes of an image -/

/-- The number of a service's type. -/
def Service.code (s : Service) : Int := (serviceTypes.lookup s.type).getD (-1)

/-- The type is one of `file_system`, ..., `device_i2c`. -/
def Service.supported (s : Service) : Bool := 0 ≤ s.code && s.code ≤ 4

/-- The address of manifest entry `j` of the image at `base`. -/
def entryAt (base j : Nat) : Nat := base + manifestHeaderSize + manifestEntrySize * j

/-- The monitor finds in the image at `base` what the manifest and the file say. -/
structure Agrees (elf : List UInt8) (services : List Service) (m : Mem) (base : Nat)
    (info : PayloadInfo) (req : ProtoconSvcReq) : Prop where
  serviceCount : info.serviceCount.toNat = services.length
  elfPayloadSize : info.elfPayloadSize.toNat = elf.length
  headerPayload : Holds m info.headerPayload elf elf.length
  /-- The entries are those of the supported services, in order. -/
  entries : req.serviceEntries = ((List.range services.length).filter fun j =>
    services[j]?.any Service.supported).map (entryAt base)
  types : ∀ j s, services[j]? = some s → (read32 m (entryAt base j)).toInt = s.code
  counts : ∀ type : Nat, (req.serviceCountPerType type).toNat =
    services.countP fun s => s.supported && s.code == (type : Int)
  /-- The address the installer patches is that of the section the manifest named. -/
  patched : ∀ j s, services[j]? = some s → ∃ i, SectionNamed elf s.target i ∧
    read64 m (entryAt base j + 4) + req.payloadEEntry = shAddr elf i

/-! ## The fields of an image -/

theorem mapM_some {α β : Type} {f : α → Option β} {xs : List α} {ys : List β}
    (h : xs.mapM f = some ys) :
    ys.length = xs.length ∧
      ∀ (j : Nat) (x : α), xs[j]? = some x → ∃ y, ys[j]? = some y ∧ f x = some y := by
  induction xs generalizing ys with
  | nil =>
    obtain rfl : ys = [] := by simpa using h.symm
    exact ⟨rfl, fun j x hx => nomatch hx⟩
  | cons x xs ih =>
    rw [List.mapM_cons] at h
    obtain ⟨y, hy, h⟩ := Option.bind_eq_some_iff.mp h
    obtain ⟨ys', hys, h⟩ := Option.bind_eq_some_iff.mp h
    obtain rfl := Option.some.inj h
    obtain ⟨hlen, hget⟩ := ih hys
    refine ⟨congrArg Nat.succ hlen, fun j x' hx' => ?_⟩
    cases j with
    | zero =>
      obtain rfl := Option.some.inj hx'
      exact ⟨y, rfl, hy⟩
    | succ j => exact hget j x' hx'

theorem pack_eq_some {n : Nat} {v : Int} {bs : List UInt8} (h : pack n v = some bs) :
    0 ≤ v ∧ v < 256 ^ n ∧ bs = toLE v.toNat n := by
  unfold pack at h
  split at h
  case isTrue hrange => exact ⟨hrange.1, hrange.2, (Option.some.inj h).symm⟩
  case isFalse => cases h

theorem readLE_pack {n v : Nat} {bs : List UInt8} (h : pack n v = some bs) {m : Mem} {a : Nat}
    (hm : Holds m a bs bs.length) : readLE m a n = v := by
  obtain ⟨-, hlt, rfl⟩ := pack_eq_some h
  rw [length_toLE] at hm
  rw [readLE_of_holds hm, Int.toNat_natCast, Nat.mod_eq_of_lt]
  exact Int.ofNat_lt.mp (by rw [Int.natCast_pow]; exact hlt)

theorem read32_pack {v : Nat} {bs : List UInt8} (h : pack 4 v = some bs) {m : Mem} {a : Nat}
    (hm : Holds m a bs bs.length) : (read32 m a).toNat = v := by
  have hlt := (pack_eq_some h).2.1
  rw [read32, readLE_pack h hm, BitVec.toNat_ofNat, Nat.mod_eq_of_lt (by omega)]

theorem read64_pack {v : Nat} {bs : List UInt8} (h : pack 8 v = some bs) {m : Mem} {a : Nat}
    (hm : Holds m a bs bs.length) : (read64 m a).toNat = v := by
  have hlt := (pack_eq_some h).2.1
  rw [read64, readLE_pack h hm, BitVec.toNat_ofNat, Nat.mod_eq_of_lt (by omega)]

/-- The manifest entry of a service: 20 bytes, of which the monitor loads its type and the
distance of its section. -/
theorem packService_spec {s : Resolved} {bs : List UInt8} (h : packService s = some bs) :
    bs.length = manifestEntrySize ∧ ∀ m a, Holds m a bs bs.length →
      (read32 m a).toInt = s.type ∧ ((read64 m (a + 4)).toNat : Int) = s.offset := by
  obtain ⟨type, htype, h⟩ := Option.bind_eq_some_iff.mp h
  obtain ⟨offset, hoffset, h⟩ := Option.bind_eq_some_iff.mp h
  obtain ⟨size, hsize, h⟩ := Option.bind_eq_some_iff.mp h
  obtain rfl := Option.some.inj h
  obtain ⟨-, -, rfl⟩ := pack_eq_some hsize
  obtain ⟨hpos, hlt, rfl⟩ := pack_eq_some hoffset
  unfold packSigned at htype
  split at htype
  case isFalse => cases htype
  case isTrue hrange =>
    obtain rfl := Option.some.inj htype
    refine ⟨by simp [length_toLE, manifestEntrySize], fun m a hm => ⟨?_, ?_⟩⟩
    · have hload := hm.left
      rw [length_toLE] at hload
      have hmod : 0 ≤ s.type % 256 ^ 4 ∧ s.type % 256 ^ 4 < 256 ^ 4 :=
        ⟨Int.emod_nonneg _ (by decide), Int.emod_lt_of_pos _ (by decide)⟩
      have hword : read32 m a = BitVec.ofInt 32 s.type := by
        rw [read32, readLE_of_holds hload]
        apply BitVec.eq_of_toNat_eq
        rw [BitVec.toNat_ofNat, BitVec.toNat_ofInt]
        omega
      rw [hword, BitVec.toInt_ofInt_eq_self (by decide) (by omega) (by omega)]
    · have hload := hm.right.left
      rw [length_toLE, length_toLE] at hload
      rw [read64, readLE_of_holds hload, BitVec.toNat_ofNat]
      omega

theorem code_of_lookup {s : Service} {type : Int} (h : serviceTypes.lookup s.type = some type) :
    s.code = type := by
  rw [Service.code, h]
  rfl

/-- The tool's answer to "is this type served" is the monitor's. -/
theorem serviceManifestCheckType_eq {w : BitVec 32} {s : Service} (h : w.toInt = s.code) :
    serviceManifestCheckType w = s.supported := by
  rw [serviceManifestCheckType, Service.supported, h, Bool.eq_iff_iff]
  simp only [Bool.and_eq_true, decide_eq_true_eq]
  omega

theorem length_flatten_of_length {w : Nat} {records : List (List UInt8)}
    (h : ∀ r ∈ records, r.length = w) : records.flatten.length = w * records.length := by
  induction records with
  | nil => rfl
  | cons r records ih =>
    rw [List.flatten_cons, List.length_append, h r List.mem_cons_self,
      ih fun r' hr' => h r' (List.mem_cons_of_mem _ hr'), List.length_cons, Nat.mul_succ,
      Nat.add_comm]

/-- The image at `base`: the header, one record for each service, and the file. -/
structure LaidOut (elf : List UInt8) (resolved : List Resolved) (m : Mem) (base : Nat) : Prop where
  magic : read64 m base = manifestMagic
  serviceCount : (read32 m (base + 8)).toNat = resolved.length
  manifestSize : (read32 m (base + 12)).toNat =
    manifestHeaderSize + resolved.length * manifestEntrySize
  elfSize : (read64 m (base + 16)).toNat = elf.length
  service : ∀ j s, resolved[j]? = some s → (read32 m (entryAt base j)).toInt = s.type ∧
    ((read64 m (entryAt base j + 4)).toNat : Int) = s.offset
  elf : Holds m (entryAt base resolved.length) elf elf.length

theorem image_laidOut {elf img : List UInt8} {resolved : List Resolved}
    (h : image elf resolved = some img) {m : Mem} {base : Nat}
    (hm : Holds m base img img.length) : LaidOut elf resolved m base := by
  obtain ⟨dataMf, hmf, rfl⟩ := Option.map_eq_some_iff.mp h
  obtain ⟨dataServices, hservices, hmf⟩ := Option.bind_eq_some_iff.mp hmf
  obtain ⟨magic, hmagic, hmf⟩ := Option.bind_eq_some_iff.mp hmf
  obtain ⟨count, hcount, hmf⟩ := Option.bind_eq_some_iff.mp hmf
  obtain ⟨total, htotal, hmf⟩ := Option.bind_eq_some_iff.mp hmf
  obtain ⟨size, hsize, hmf⟩ := Option.bind_eq_some_iff.mp hmf
  obtain rfl := Option.some.inj hmf
  obtain ⟨records, hrecords, rfl⟩ := Option.map_eq_some_iff.mp hservices
  obtain ⟨hlen, hget⟩ := mapM_some hrecords
  have hwidth : ∀ r ∈ records, r.length = manifestEntrySize := by
    intro r hr
    obtain ⟨j, hj⟩ := List.mem_iff_getElem?.mp hr
    have hlt : j < resolved.length := hlen ▸ (List.getElem?_eq_some_iff.mp hj).1
    obtain ⟨r', hr', hpack⟩ := hget j resolved[j] (List.getElem?_eq_getElem hlt)
    rw [hj, Option.some.injEq] at hr'
    exact hr' ▸ (packService_spec hpack).1
  have hflat := length_flatten_of_length hwidth
  have hw : ∀ {n v bs}, pack n v = some bs → bs.length = n := fun hpack => by
    rw [(pack_eq_some hpack).2.2, length_toLE]
  have hheader := hm.left.left
  have hhdr : (magic ++ (count ++ (total ++ size))).length = manifestHeaderSize := by
    simp only [List.length_append, hw hmagic, hw hcount, hw htotal, hw hsize, manifestHeaderSize]
  have hservicesAt := hm.left.right
  rw [hhdr] at hservicesAt
  have helf := hm.right
  rw [List.length_append, hhdr, hflat, hlen] at helf
  refine ⟨?_, ?_, ?_, ?_, fun j s hs => ?_, by rwa [entryAt, Nat.add_assoc]⟩
  · exact BitVec.eq_of_toNat_eq (read64_pack hmagic hheader.left)
  · exact read32_pack hcount (hw hmagic ▸ hheader.right.left)
  · have hload := hheader.right.right.left
    rw [hw hmagic, hw hcount, Nat.add_assoc] at hload
    have hsum : ((hdrSize : Int) + records.flatten.length) =
        ((hdrSize + records.flatten.length : Nat) : Int) := rfl
    rw [read32_pack (hsum ▸ htotal) hload, hflat, hlen, Nat.mul_comm]
    rfl
  · have hload := hheader.right.right.right
    rw [hw hmagic, hw hcount, hw htotal, Nat.add_assoc, Nat.add_assoc] at hload
    exact read64_pack hsize hload
  · obtain ⟨bs, hbs, hpack⟩ := hget j s hs
    exact (packService_spec hpack).2 m _ (hservicesAt.flatten hwidth hbs)

/-! ## The parser on an image -/

/-- What `service_manifest_header_parse` finds. -/
def imageInfo (m : Mem) (base services : Nat) : PayloadInfo where
  headerPayload := entryAt base services
  elfPayloadSize := read64 m (base + 16)
  serviceCount := read32 m (base + 8)
  serviceEntries := base + manifestHeaderSize

theorem serviceManifestHeaderParse_image {elf : List UInt8} {resolved : List Resolved} {m : Mem}
    {base : Nat} (h : LaidOut elf resolved m base) (helf : HasSections elf) :
    serviceManifestHeaderParse m base = some (imageInfo m base resolved.length) := by
  have hcheck : serviceManifestCheck m base = true := by
    simp only [serviceManifestCheck, h.magic, h.manifestSize, h.serviceCount, decide_true,
      Bool.and_self]
  have hpayload : base + (read32 m (base + 12)).toNat = entryAt base resolved.length := by
    rw [h.manifestSize, entryAt, Nat.mul_comm, Nat.add_assoc]
  have hheader := helf.header
  have hload : ∀ k n, k + n ≤ 64 → readLE m (entryAt base resolved.length + k) n =
      readLE (ofList elf) k n := fun k n hk => readLE_ofList h.elf (by omega)
  have h16 : ∀ k, k + 2 ≤ 64 → read16 m (entryAt base resolved.length + k) =
      read16 (ofList elf) k := fun k hk => by rw [read16, read16, hload k 2 hk]
  have h64 : ∀ k, k + 8 ≤ 64 → read64 m (entryAt base resolved.length + k) =
      read64 (ofList elf) k := fun k hk => by rw [read64, read64, hload k 8 hk]
  have hsize : read64 m (base + 16) ≠ 0 := by
    intro hzero
    have := h.elfSize
    rw [hzero, show (0 : BitVec 64).toNat = 0 from rfl] at this
    omega
  unfold serviceManifestHeaderParse
  rw [if_neg (by simp [hcheck])]
  dsimp only
  rw [hpayload, h64 40 (by omega), h16 60 (by omega), h16 62 (by omega), h16 58 (by omega),
    if_neg, if_neg hsize]
  · rfl
  · simp only [Bool.or_eq_true, decide_eq_true_eq, bne_iff_ne, not_or, Decidable.not_not,
      BitVec.not_le]
    exact ⟨⟨⟨⟨helf.eShoff, helf.eShnum⟩, helf.eShentsize⟩, helf.eShstrndx.1⟩, helf.eShstrndx.2⟩

/-- What `service_manifest_parse` makes of the image at `base`. -/
def imageReq (elf : List UInt8) (services : List Service) (base : Nat) : ProtoconSvcReq where
  serviceCountPerType type :=
    BitVec.ofNat 32 (services.countP fun s => s.supported && s.code == (type : Int))
  serviceEntries := ((List.range services.length).filter fun j =>
    services[j]?.any Service.supported).map (entryAt base)
  payloadEEntry := read64 (ofList elf) 24

/-- Counting entries by what they load is counting services. -/
theorem countP_entries {services : List Service} {base : Nat} {p : Nat → Bool}
    {q : Service → Bool} (h : ∀ (j : Nat) (s : Service), services[j]? = some s →
      p (entryAt base j) = q s) :
    ((List.range services.length).map (entryAt base)).countP p = services.countP q := by
  have hmap : (List.range services.length).map (fun j => p (entryAt base j)) = services.map q := by
    refine List.ext_getElem? fun j => ?_
    rw [List.getElem?_map, List.getElem?_map]
    by_cases hj : j < services.length
    · rw [List.getElem?_range hj, List.getElem?_eq_getElem hj, Option.map_some, Option.map_some,
        h j _ (List.getElem?_eq_getElem hj)]
    · rw [List.getElem?_eq_none (by simpa using hj), List.getElem?_eq_none (by simpa using hj)]
      rfl
  have hcount := congrArg (List.countP id) hmap
  rwa [List.countP_map, List.countP_map, Function.id_comp, Function.id_comp,
    ← Function.comp_def, ← List.countP_map] at hcount

theorem serviceManifestParse_image {elf : List UInt8} {resolved : List Resolved}
    {services : List Service} {m : Mem} {base : Nat} (h : LaidOut elf resolved m base)
    (hlen : resolved.length = services.length) (hmax : services.length ≤ maxServiceEntries)
    (helf : HasSections elf) (htypes : ∀ (j : Nat) (s : Service), services[j]? = some s →
      (read32 m (entryAt base j)).toInt = s.code) :
    serviceManifestParse m (imageInfo m base resolved.length) =
      some (imageReq elf services base) := by
  have haccepts : ∀ (j : Nat) (s : Service), services[j]? = some s →
      acceptsEntry m (entryAt base j) = s.supported := fun j s hs =>
    serviceManifestCheckType_eq (htypes j s hs)
  have hentries : (List.range (imageInfo m base resolved.length).serviceCount.toNat).map
      (fun i => (imageInfo m base resolved.length).serviceEntries + manifestEntrySize * i) =
        (List.range services.length).map (entryAt base) := by
    rw [show (imageInfo m base resolved.length).serviceCount.toNat = _ from h.serviceCount, hlen]
    rfl
  have hcounts : ∀ type : Nat, ((List.range services.length).map (entryAt base)).countP
      (fun e => acceptsEntry m e && (read32 m e).toNat == type) =
        services.countP fun s => s.supported && s.code == (type : Int) := by
    intro type
    refine countP_entries fun j s hs => ?_
    rw [haccepts j s hs]
    cases hsupported : s.supported with
    | false => rfl
    | true =>
      have hcode := htypes j s hs
      simp only [Service.supported, Bool.and_eq_true, decide_eq_true_eq] at hsupported
      rw [BitVec.toInt_eq_toNat_cond] at hcode
      rw [Bool.true_and, Bool.true_and, Bool.eq_iff_iff, beq_iff_eq, beq_iff_eq]
      split at hcode <;> omega
  have hfilter : ((List.range services.length).map (entryAt base)).filter (acceptsEntry m) =
      ((List.range services.length).filter fun j =>
        services[j]?.any Service.supported).map (entryAt base) := by
    rw [List.filter_map]
    refine congrArg (List.map (entryAt base)) (List.filter_congr fun j hj => ?_)
    have hget := List.getElem?_eq_getElem (List.mem_range.mp hj)
    rw [Function.comp_apply, haccepts j _ hget, hget, Option.any_some]
  have heentry : read64 m ((imageInfo m base resolved.length).headerPayload + 24) =
      read64 (ofList elf) 24 := by
    have hheader := helf.header
    rw [read64, read64]
    exact congrArg (BitVec.ofNat 64) (readLE_ofList h.elf (by omega))
  have hzero : ∀ v : BitVec 32, 0 + v = v := fun v => BitVec.zero_add v
  rw [serviceManifestParse, hentries, foldlM_addServiceEntry, Option.map_some]
  · simp only [hcounts, hfilter, heentry, List.nil_append, hzero, imageReq]
  · rw [List.length_nil, Nat.zero_add]
    exact Nat.le_trans List.countP_le_length (by simpa using hmax)

/-- The image tool and the monitor agree on the manifest format. -/
theorem serviceHelper_agrees {tools : ElfTools} (htools : tools.Reads)
    {manifest : List (String × Toml)} {services : List Service}
    (hservices : validateManifest manifest = some services) (hmax : services.length ≤ 16)
    {elf img : List UInt8} (helf : HasSections elf)
    (himg : serviceHelper tools manifest elf = some img) {m : Mem} {base : Nat}
    (hm : Holds m base img img.length) :
    ∃ info req, serviceManifestHeaderParse m base = some info ∧
      serviceManifestParse m info = some req ∧ Agrees elf services m base info req := by
  obtain ⟨services', hservices', himg⟩ := Option.bind_eq_some_iff.mp himg
  obtain rfl : services' = services := Option.some.inj (hservices'.symm.trans hservices)
  obtain ⟨resolved, hresolved, himage⟩ := Option.bind_eq_some_iff.mp himg
  obtain ⟨file, hfile, hresolved⟩ := Option.bind_eq_some_iff.mp hresolved
  obtain ⟨hlen, hget⟩ := mapM_some hresolved
  have hlaid := image_laidOut himage hm
  -- What each entry holds.
  have hentry : ∀ (j : Nat) (s : Service), services'[j]? = some s →
      (read32 m (entryAt base j)).toInt = s.code ∧ ∃ i, SectionNamed elf s.target i ∧
        read64 m (entryAt base j + 4) + read64 (ofList elf) 24 = shAddr elf i := by
    intro j s hs
    obtain ⟨r, hr, hresolve⟩ := hget j s hs
    obtain ⟨sec, hsec, hresolve⟩ := Option.bind_eq_some_iff.mp hresolve
    obtain ⟨type, htype, hresolve⟩ := Option.bind_eq_some_iff.mp hresolve
    obtain rfl := Option.some.inj hresolve
    obtain ⟨hword, hoffset⟩ := hlaid.service j _ hr
    obtain ⟨i, hi, haddr⟩ := htools.named elf file s.target sec helf hfile hsec
    refine ⟨hword.trans (code_of_lookup htype).symm, i, hi, BitVec.eq_of_toNat_eq ?_⟩
    rw [BitVec.toNat_add]
    dsimp only at hoffset
    rw [haddr, htools.entry elf file helf hfile] at hoffset
    have := (shAddr elf i).isLt
    omega
  refine ⟨_, _, serviceManifestHeaderParse_image hlaid helf,
    serviceManifestParse_image hlaid hlen hmax helf fun j s hs => (hentry j s hs).1, ?_⟩
  refine ⟨hlaid.serviceCount.trans hlen, hlaid.elfSize, hlaid.elf, rfl,
    fun j s hs => (hentry j s hs).1, fun type => ?_, fun j s hs => (hentry j s hs).2⟩
  have hle := List.countP_le_length (l := services')
    (p := fun s => s.supported && s.code == (type : Int))
  rw [imageReq, BitVec.toNat_ofNat, Nat.mod_eq_of_lt (by omega)]

/-! ## A small image -/

/-- A library that looks through the section headers. -/
def searchTools : ElfTools := fun elf => some
  { eEntry := (read64 (ofList elf) 24).toNat
    getSectionByName name :=
      ((List.range (read16 (ofList elf) 60).toNat).find? fun i =>
        memEq (ofList elf) (nameOffset elf i) (cString name)).map fun i =>
          { shAddr := (shAddr elf i).toNat
            shSize := (read64 (ofList elf) (shdrOffset elf i + 32)).toNat } }

theorem searchTools_reads : searchTools.Reads where
  entry elf file _ hfile := by rw [← Option.some.inj hfile]
  named elf file name sec _ hfile hsec := by
    rw [← Option.some.inj hfile] at hsec
    obtain ⟨i, hi, rfl⟩ := Option.map_eq_some_iff.mp hsec
    have hname := List.find?_some hi
    exact ⟨i, ⟨List.mem_range.mp (List.mem_of_find?_eq_some hi), hname⟩, rfl⟩

/-- An ELF file with entry point `0x1000` and a section `.data` at `0x1008`. -/
def dataElf : List UInt8 :=
  -- The file header.
  [0x7f, 0x45, 0x4c, 0x46, 2, 1] ++ List.replicate 18 0 ++ toLE 0x1000 8 ++
    List.replicate 8 0 ++ toLE 64 8 ++
  List.replicate 10 0 ++ toLE 64 2 ++ toLE 3 2 ++ toLE 2 2 ++
  -- The section headers: the null section, the data, the names.
  List.replicate 64 0 ++
  (toLE 1 4 ++ toLE 1 4 ++ toLE 0 8 ++ toLE 0x1008 8 ++ toLE 256 8 ++ toLE 4 8 ++
    List.replicate 24 0) ++
  (toLE 0 4 ++ toLE 3 4 ++ toLE 0 8 ++ toLE 0 8 ++ toLE 260 8 ++ toLE 7 8 ++
    List.replicate 24 0) ++
  [1, 2, 3, 4] ++ ([0] ++ bytes ".data" ++ [0])

/-- Two services, the second of a type the monitor does not serve. -/
def dataManifest : List (String × Toml) :=
  [("service", .array
    [.table [("type", .string "device_timer"), ("target", .string ".data")],
      .table [("target", .string ".data"), ("type", .string "reserved")]])]

/-- The services the tool reads from it. -/
def dataServices : List Service := (validateManifest dataManifest).get (by decide +kernel)

/-- The image the tool writes. -/
def dataImage : List UInt8 :=
  (serviceHelper searchTools dataManifest dataElf).get (by decide +kernel)

theorem serviceHelper_agrees_dataImage :
    ∃ info req, serviceManifestHeaderParse (ofList dataImage) 0 = some info ∧
      serviceManifestParse (ofList dataImage) info = some req ∧
      Agrees dataElf dataServices (ofList dataImage) 0 info req := by
  have helf : HasSections dataElf := by
    constructor <;> decide +kernel
  exact serviceHelper_agrees searchTools_reads (Option.some_get _).symm (by decide +kernel) helf
    (Option.some_get _).symm (holds_ofList dataImage)

end ServiceHelper
end Carrels
