/-
The delegation table (`include/monitor/delegation.h`).

`dlg_parse` steps over at most 16 records of 16 bytes and 22 for each resource.  It
accepts the tables of the format and no others, and it decides without a byte that lies
behind the table.
-/
import Carrels.Lib.Bytes
import Carrels.Lib.Records

namespace Carrels
namespace Monitor

open ByteMemory Records

/-- `DLG_MAX_DELEGATORS` -/
def dlgMaxDelegators : Nat := 16

/-- `DLG_HEADER_SIZE` -/
def dlgHeaderSize : Nat := 16

/-- `sizeof(dlg_resource_t)` -/
def dlgResourceSize : Nat := 22

/-- `sizeof(dlg_delegator_t)` -/
def dlgDelegatorHeaderSize : Nat := 16

def dlgMagic : List UInt8 := bytes "CapDelg" ++ [0]

/-- `dlg_header_t`; the delegators are addresses. -/
structure DlgHeader where
  delegatorCount : BitVec 32
  totalSize : BitVec 32
  delegators : List Nat

/-- `resource_count` of the record at `p`. -/
def dlgResourceCount (m : Mem) (p : Nat) : BitVec 16 := read16 m (p + 2)

/-- `record_size` of the record at `p`, if the parser accepts it. -/
def dlgRecordSize (m : Mem) (p : Nat) : Option Nat :=
  let recordSize := (read16 m p).toNat
  if recordSize < dlgDelegatorHeaderSize ||
      recordSize != dlgDelegatorHeaderSize + (dlgResourceCount m p).toNat * dlgResourceSize then none
  else some recordSize

/-- `dlg_parse`; `none` is its `false`. -/
def dlgParse (m : Mem) (base : Nat) : Option DlgHeader :=
  if !memEq m base dlgMagic then none
  else
    let delegatorCount := read32 m (base + 8)
    let totalSize := read32 m (base + 12)
    if dlgMaxDelegators < delegatorCount.toNat || totalSize.toNat < dlgHeaderSize then none
    else
      match walk dlgDelegatorHeaderSize (base + totalSize.toNat) (dlgRecordSize m)
        delegatorCount.toNat (base + dlgHeaderSize) with
      | none => none
      | some (delegators, p) =>
        if p = base + totalSize.toNat then some { delegatorCount, totalSize, delegators } else none

/-- `dlg_delegator_resource` -/
def dlgDelegatorResource (m : Mem) (delegator : Nat) (index : BitVec 16) : Option Nat :=
  if dlgResourceCount m delegator ≤ index then none
  else some (delegator + dlgDelegatorHeaderSize + index.toNat * dlgResourceSize)

/-- `record_size` of the record at `p`. -/
def dlgRecordSizeOf (m : Mem) (p : Nat) : BitVec 16 := read16 m p

/-- `pd_id` of the record at `p`. -/
def dlgPdId (m : Mem) (p : Nat) : BitVec 64 := read64 m (p + 8)

/-- `dlg_find_delegator` -/
def dlgFindDelegator (m : Mem) (delegators : List Nat) (pdId : Nat) : Option Nat :=
  delegators.find? fun p => (dlgPdId m p).toNat = pdId

/-! ## The format -/

/-- The size of a record of the format. -/
def delegatorSize (m : Mem) (p : Nat) : Option Nat :=
  if (read16 m p).toNat = 16 + 22 * (read16 m (p + 2)).toNat then some (read16 m p).toNat else none

/-- The bytes from `base` on are a delegation table. -/
structure DlgFormat (m : Mem) (base : Nat) : Prop where
  magic : Holds m base dlgMagic 8
  count : (read32 m (base + 8)).toNat ≤ 16
  total : 16 ≤ (read32 m (base + 12)).toNat
  records : ∃ starts, starts.length = (read32 m (base + 8)).toNat ∧
    Chain (delegatorSize m) (base + 16) starts (base + (read32 m (base + 12)).toNat)

/-- What the parser returns describes the table. -/
structure DlgHeader.Describes (d : DlgHeader) (m : Mem) (base : Nat) : Prop where
  count : d.delegatorCount = read32 m (base + 8)
  total : d.totalSize = read32 m (base + 12)
  length : d.delegators.length = d.delegatorCount.toNat
  /-- `delegators[i]` is the start of record `i`. -/
  starts : Chain (delegatorSize m) (base + 16) d.delegators (base + d.totalSize.toNat)
  /-- A resource below the count of its record lies inside the record. -/
  resources : ∀ p ∈ d.delegators, ∀ index < dlgResourceCount m p,
    ∃ a, dlgDelegatorResource m p index = some a ∧ p + 16 ≤ a ∧ a + 22 ≤ p + (read16 m p).toNat

theorem dlgRecordSize_eq (m : Mem) : dlgRecordSize m = delegatorSize m := by
  funext p
  unfold dlgRecordSize delegatorSize dlgResourceCount dlgDelegatorHeaderSize dlgResourceSize
  by_cases hsize : (read16 m p).toNat = 16 + 22 * (read16 m (p + 2)).toNat
  · rw [if_pos hsize]
    have hmul : 16 + 22 * (read16 m (p + 2)).toNat = 16 + (read16 m (p + 2)).toNat * 22 := by omega
    rw [if_neg]
    simp only [Bool.or_eq_true, decide_eq_true_eq, bne_iff_ne, not_or, Decidable.not_not]
    omega
  · rw [if_neg hsize, if_pos]
    simp only [Bool.or_eq_true, decide_eq_true_eq, bne_iff_ne]
    omega

theorem delegatorSize_le {m : Mem} {p k : Nat} (h : delegatorSize m p = some k) : 16 ≤ k := by
  unfold delegatorSize at h
  split at h
  · rw [← Option.some.inj h]
    omega
  · cases h

/-- The parser succeeds with the records it has stepped over, and with nothing else. -/
theorem dlgParse_eq_some {m : Mem} {base : Nat} {d : DlgHeader} :
    dlgParse m base = some d ↔
      Holds m base dlgMagic 8 ∧ (read32 m (base + 8)).toNat ≤ 16 ∧
        16 ≤ (read32 m (base + 12)).toNat ∧ d.delegatorCount = read32 m (base + 8) ∧
        d.totalSize = read32 m (base + 12) ∧
        d.delegators.length = (read32 m (base + 8)).toNat ∧
        Chain (delegatorSize m) (base + 16) d.delegators
          (base + (read32 m (base + 12)).toNat) := by
  have hmagic : memEq m base dlgMagic = true ↔ Holds m base dlgMagic 8 := memEq_iff
  have hwalk : ∀ starts, walk dlgDelegatorHeaderSize (base + (read32 m (base + 12)).toNat)
        (delegatorSize m) (read32 m (base + 8)).toNat (base + 16) =
          some (starts, base + (read32 m (base + 12)).toNat) ↔ _ := fun starts =>
    walk_eq_some_limit fun q k => delegatorSize_le
  unfold dlgParse dlgMaxDelegators dlgHeaderSize
  rw [dlgRecordSize_eq]
  constructor
  · intro h
    split at h
    case isTrue => cases h
    case isFalse hm =>
      dsimp only at h
      split at h
      case isTrue => cases h
      case isFalse hbounds =>
        split at h
        case h_1 => cases h
        case h_2 starts p hp =>
          split at h
          case isFalse => cases h
          case isTrue hend =>
            obtain ⟨hlen, hchain⟩ := (hwalk starts).mp (hend ▸ hp)
            obtain rfl := Option.some.inj h
            simp only [Bool.or_eq_true, decide_eq_true_eq, not_or, Nat.not_lt] at hbounds
            exact ⟨hmagic.mp (by simpa using hm), hbounds.1, hbounds.2, rfl, rfl, hlen, hchain⟩
  · rintro ⟨hm, hcount, htotal, hc, ht, hlen, hchain⟩
    obtain ⟨count, total, starts⟩ := d
    obtain rfl : count = _ := hc
    obtain rfl : total = _ := ht
    rw [hmagic.mpr hm, if_neg (by simp), if_neg (by simp [hcount, htotal]),
      (hwalk starts).mpr ⟨hlen, hchain⟩]
    exact if_pos rfl

theorem dlgDelegatorResource_inside {m : Mem} {p k : Nat} {index : BitVec 16}
    (hsize : delegatorSize m p = some k) (hindex : index < dlgResourceCount m p) :
    ∃ a, dlgDelegatorResource m p index = some a ∧ p + 16 ≤ a ∧
      a + 22 ≤ p + (read16 m p).toNat := by
  refine ⟨_, if_neg (BitVec.not_le.mpr hindex), ?_⟩
  unfold delegatorSize at hsize
  split at hsize
  case isTrue hrecord =>
    rw [BitVec.lt_def, dlgResourceCount] at hindex
    unfold dlgDelegatorHeaderSize dlgResourceSize
    omega
  case isFalse => cases hsize

/-- Bytes behind the table play no role. -/
theorem dlgParse_congr {m m' : Mem} {base : Nat}
    (h : AgreeOn base (max 16 (read32 m (base + 12)).toNat) m m') :
    dlgParse m base = dlgParse m' base := by
  have hcount : read32 m (base + 8) = read32 m' (base + 8) :=
    read32_congr (h.part (by omega) (by omega))
  have htotal : read32 m (base + 12) = read32 m' (base + 12) :=
    read32_congr (h.part (by omega) (by omega))
  have hmagic : memEq m base dlgMagic = memEq m' base dlgMagic :=
    memEq_congr (h.part (Nat.le_refl _) (show base + 8 ≤ _ by omega))
  have hwalk := walk_congr dlgDelegatorHeaderSize (base + (read32 m (base + 12)).toNat)
    (dlgRecordSize m) (dlgRecordSize m') (base + dlgHeaderSize)
    (read32 m (base + 8)).toNat fun q hq hend => by
      unfold dlgDelegatorHeaderSize at hend
      have hfield : ∀ a, q ≤ a → a + 2 ≤ q + 16 → read16 m a = read16 m' a := fun a hl hr =>
        read16_congr (h.part (by omega) (by omega))
      unfold dlgRecordSize dlgResourceCount
      rw [hfield q (Nat.le_refl q) (by omega), hfield (q + 2) (by omega) (by omega)]
  unfold dlgParse
  dsimp only
  rw [← hmagic, ← hcount, ← htotal, hwalk]

/-- `dlg_parse` accepts exactly the delegation format, describes the table it accepts, and
reads no byte that lies behind both the header and the table. -/
theorem dlgParse_exact (m : Mem) (base : Nat) :
    ((dlgParse m base).isSome = true ↔ DlgFormat m base) ∧
      (∀ d, dlgParse m base = some d → d.Describes m base) ∧
      ∀ m', AgreeOn base (max 16 (read32 m (base + 12)).toNat) m m' →
        dlgParse m' base = dlgParse m base := by
  refine ⟨⟨fun h => ?_, fun h => ?_⟩, fun d hd => ?_, fun m' hm' => (dlgParse_congr hm').symm⟩
  · obtain ⟨d, hd⟩ := Option.isSome_iff_exists.mp h
    obtain ⟨hmagic, hcount, htotal, -, -, hlen, hchain⟩ := dlgParse_eq_some.mp hd
    exact ⟨hmagic, hcount, htotal, d.delegators, hlen, hchain⟩
  · obtain ⟨starts, hlen, hchain⟩ := h.records
    rw [Option.isSome_iff_exists]
    exact ⟨⟨_, _, starts⟩,
      dlgParse_eq_some.mpr ⟨h.magic, h.count, h.total, rfl, rfl, hlen, hchain⟩⟩
  · obtain ⟨-, -, -, hcount, htotal, hlen, hchain⟩ := dlgParse_eq_some.mp hd
    refine ⟨hcount, htotal, by rw [hlen, hcount], by rw [htotal]; exact hchain, ?_⟩
    intro p hp index hindex
    obtain ⟨k, hk, -, -⟩ := hchain.mem hp
    exact dlgDelegatorResource_inside hk hindex

end Monitor
end Carrels
