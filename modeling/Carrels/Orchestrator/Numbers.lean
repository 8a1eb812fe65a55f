/-
The numbers on a line of the shell (`parse_u32_decimal` in `orchestrator.c`).

The text of an argument is the bytes before its NUL.  The function is here once more as the
machine runs it, in 32-bit words and with a log of its arithmetic; `parseU32Decimal` is what
the commands see of it.
-/
import Carrels.Lib.Numerals
import Carrels.Orchestrator.Shell

namespace Carrels
namespace Orchestrator

open ByteMemory Monitor Numerals Logged

/-! ## In words of the machine -/

/-- The body of the loop: the guard, then `value * 10U + digit`. -/
def pushWord (value digit : BitVec 32) : Logged (WordOp 32) (BitVec 32) := do
  let room ← (WordOp.sub 0xffffffff digit).run
  if room / 10 < value then attempt none
  else do
    let scaled ← (WordOp.mul value 10).run
    (WordOp.add scaled digit).run

/-- `digit = *text - '0'` and the rest of the loop's body. -/
def pushChar (value : BitVec 32) (c : UInt8) : Logged (WordOp 32) (BitVec 32) := do
  let digit ← (WordOp.sub (BitVec.ofNat 32 c.toNat) 48).run
  pushWord value digit

def decimalLoop (text : List UInt8) (value : BitVec 32) : Logged (WordOp 32) (BitVec 32) :=
  text.foldlM (fun value c => if IsDigit c then pushChar value c else attempt none) value

def parseU32DecimalLogged (text : List UInt8) : Logged (WordOp 32) (BitVec 32) :=
  if text = [] then attempt none else decimalLoop text 0

/-- `parse_u32_decimal`: what is returned and what `*value_out` is then. -/
def parseU32DecimalInto (text : List UInt8) (valueOut : BitVec 32) : Bool × BitVec 32 :=
  match (parseU32DecimalLogged text).result with
  | none => (false, valueOut)
  | some value => (true, value)

/-! ## One digit -/

variable {value digit : BitVec 32} {c : UInt8}

theorem room_lt_iff (hdigit : digit.toNat ≤ 9) :
    (0xffffffff - digit) / 10 < value ↔ (0xffffffff - digit.toNat) / 10 < value.toNat := by
  have hle : digit ≤ 0xffffffff := by
    rw [BitVec.le_def]
    exact hdigit.trans (by decide)
  rw [BitVec.lt_def, BitVec.toNat_udiv, BitVec.toNat_sub_of_le hle]
  rfl

/-- What the guard lets through fits into a word. -/
theorem fits_of_room (hdigit : digit.toNat ≤ 9)
    (hroom : ¬ (0xffffffff - digit) / 10 < value) :
    value.toNat * 10 < 2 ^ 32 ∧ (value * 10).toNat + digit.toNat < 2 ^ 32 := by
  rw [room_lt_iff hdigit] at hroom
  have hmul : value.toNat * (10 : BitVec 32).toNat < 2 ^ 32 := by
    show value.toNat * 10 < 2 ^ 32
    omega
  rw [BitVec.toNat_mul_of_lt hmul]
  show value.toNat * 10 < 2 ^ 32 ∧ value.toNat * 10 + digit.toNat < 2 ^ 32
  omega

theorem pushWord_exact (hdigit : digit.toNat ≤ 9) : (pushWord value digit).All WordOp.exact := by
  rw [pushWord, all_bind]
  refine ⟨(all_note _ _ _).mpr (decide_eq_true (hdigit.trans (by decide))), ?_⟩
  intro room hrun
  obtain rfl := Option.some.inj hrun
  split
  case isTrue => exact all_attempt _ _
  case isFalse hroom =>
    obtain ⟨hmul, hadd⟩ := fits_of_room hdigit hroom
    rw [all_bind]
    refine ⟨(all_note _ _ _).mpr (decide_eq_true hmul), ?_⟩
    intro scaled hrun
    obtain rfl := Option.some.inj hrun
    exact (all_note _ _ _).mpr (decide_eq_true hadd)

theorem pushWord_result (hdigit : digit.toNat ≤ 9) :
    (pushWord value digit).result.map BitVec.toNat =
      push 10 0xffffffff value.toNat digit.toNat := by
  have hresult : (pushWord value digit).result =
      if (0xffffffff - digit) / 10 < value then none else some (value * 10 + digit) := by
    rw [pushWord, result_bind, WordOp.run, result_note, Option.bind_some, WordOp.value]
    split
    · rfl
    · rfl
  rw [hresult, push]
  by_cases hroom : (0xffffffff - digit) / 10 < value
  · rw [if_pos hroom, if_pos ((room_lt_iff hdigit).mp hroom)]
    rfl
  · obtain ⟨hmul, hadd⟩ := fits_of_room hdigit hroom
    rw [if_neg hroom, if_neg (mt (room_lt_iff hdigit).mpr hroom), Option.map_some,
      BitVec.toNat_add_of_lt hadd, BitVec.toNat_mul_of_lt hmul]
    rfl

theorem toNat_char (hc : IsDigit c) :
    (48 : BitVec 32) ≤ BitVec.ofNat 32 c.toNat ∧
      (BitVec.ofNat 32 c.toNat - 48).toNat = digitValue c := by
  rw [IsDigit] at hc
  have hofNat : (BitVec.ofNat 32 c.toNat).toNat = c.toNat := by
    rw [BitVec.toNat_ofNat]
    omega
  have hle : (48 : BitVec 32) ≤ BitVec.ofNat 32 c.toNat := by
    rw [BitVec.le_def, hofNat]
    exact hc.1
  rw [BitVec.toNat_sub_of_le hle, hofNat]
  exact ⟨hle, rfl⟩

theorem pushChar_exact (hc : IsDigit c) : (pushChar value c).All WordOp.exact := by
  obtain ⟨hle, hdigit⟩ := toNat_char hc
  rw [pushChar, all_bind]
  refine ⟨(all_note _ _ _).mpr (decide_eq_true (BitVec.le_def.mp hle)), ?_⟩
  intro digit hrun
  obtain rfl := Option.some.inj hrun
  apply pushWord_exact
  rw [WordOp.value, hdigit]
  exact digitValue_le hc

theorem pushChar_result (hc : IsDigit c) :
    (pushChar value c).result.map BitVec.toNat =
      push 10 0xffffffff value.toNat (digitValue c) := by
  have hdigit := (toNat_char hc).2
  rw [pushChar, result_bind, WordOp.run, result_note, Option.bind_some, WordOp.value,
    pushWord_result, hdigit]
  rw [hdigit]
  exact digitValue_le hc

/-! ## The whole text -/

theorem decimalLoop_cons (c : UInt8) (text : List UInt8) (value : BitVec 32) :
    decimalLoop (c :: text) value =
      (if IsDigit c then pushChar value c else attempt none) >>= decimalLoop text :=
  List.foldlM_cons

theorem decimalLoop_exact (text : List UInt8) (value : BitVec 32) :
    (decimalLoop text value).All WordOp.exact := by
  induction text generalizing value with
  | nil => exact all_pure _ _
  | cons c text ih =>
    rw [decimalLoop_cons, all_bind]
    refine ⟨?_, fun next _ => ih next⟩
    split
    case isTrue hc => exact pushChar_exact hc
    case isFalse => exact all_attempt _ _

theorem decimalLoop_digits {text : List UInt8} {v : BitVec 32}
    (h : (decimalLoop text value).result = some v) : ∀ c ∈ text, IsDigit c := by
  induction text generalizing value with
  | nil =>
    intro c hc
    exact absurd hc List.not_mem_nil
  | cons c text ih =>
    rw [decimalLoop_cons, result_bind] at h
    obtain ⟨next, hnext, hrest⟩ := Option.bind_eq_some_iff.mp h
    split at hnext
    case isTrue hc => exact List.forall_mem_cons.mpr ⟨hc, ih hrest⟩
    case isFalse => cases hnext

theorem decimalLoop_result {text : List UInt8} (hdigits : ∀ c ∈ text, IsDigit c) :
    (decimalLoop text value).result.map BitVec.toNat =
      (text.map digitValue).foldlM (push 10 0xffffffff) value.toNat := by
  induction text generalizing value with
  | nil => rfl
  | cons c text ih =>
    obtain ⟨hc, hdigits⟩ := List.forall_mem_cons.mp hdigits
    rw [decimalLoop_cons, if_pos hc, result_bind, List.map_cons, List.foldlM_cons,
      ← pushChar_result hc, Option.bind_eq_bind, Option.bind_map, Option.map_bind]
    congr 1
    funext next
    exact ih hdigits

/-- The loop gives the number that its text denotes, whenever a word holds it. -/
theorem decimalLoop_eq_some {text : List UInt8} {v : BitVec 32} (hne : text ≠ []) :
    (decimalLoop text 0).result = some v ↔ Decimal text v.toNat := by
  have hread (hdigits : ∀ c ∈ text, IsDigit c) :
      (decimalLoop text 0).result = some v ↔
        Numerals.value 10 (text.map digitValue) = v.toNat := by
    have hsmall : ∀ d ∈ text.map digitValue, d ≤ 0xffffffff := by
      intro d hd
      obtain ⟨c, hc, rfl⟩ := List.mem_map.mp hd
      exact (digitValue_le (hdigits c hc)).trans (by decide)
    have hmax : v.toNat ≤ 0xffffffff := by
      have hlt := v.isLt
      omega
    have hinj : Function.Injective (Option.map (BitVec.toNat (w := 32))) :=
      Option.map_injective fun _ _ => BitVec.eq_of_toNat_eq
    rw [← hinj.eq_iff, decimalLoop_result hdigits]
    show List.foldlM _ 0 _ = some v.toNat ↔ _
    rw [foldlM_push (by decide) hsmall (Nat.zero_le _), Nat.zero_mul, Nat.zero_add]
    exact ⟨fun h => h.1.symm, fun h => ⟨h.symm, hmax⟩⟩
  constructor
  · intro h
    have hdigits := decimalLoop_digits h
    exact ⟨hne, hdigits, (hread hdigits).mp h⟩
  · intro h
    exact (hread h.digits).mpr h.value

variable {text : List UInt8}

theorem parseU32DecimalLogged_eq_some {v : BitVec 32} :
    (parseU32DecimalLogged text).result = some v ↔ Decimal text v.toNat := by
  rw [parseU32DecimalLogged]
  split
  case isTrue hnil =>
    constructor
    · intro h
      cases h
    · intro h
      exact absurd hnil h.ne_nil
  case isFalse hne => exact decimalLoop_eq_some hne

theorem parseU32DecimalLogged_exact : (parseU32DecimalLogged text).All WordOp.exact := by
  rw [parseU32DecimalLogged]
  split
  · exact all_attempt _ _
  · exact decimalLoop_exact text 0

theorem parseU32DecimalInto_cases (text : List UInt8) (valueOut : BitVec 32) :
    (∃ v, Decimal text v.toNat ∧ parseU32DecimalInto text valueOut = (true, v)) ∨
      (∀ n, Decimal text n → 2 ^ 32 ≤ n) ∧
        parseU32DecimalInto text valueOut = (false, valueOut) := by
  rw [parseU32DecimalInto]
  cases hresult : (parseU32DecimalLogged text).result with
  | some v => exact .inl ⟨v, parseU32DecimalLogged_eq_some.mp hresult, rfl⟩
  | none =>
    refine .inr ⟨?_, rfl⟩
    intro n h
    apply Nat.le_of_not_lt
    intro hlt
    have hn : (BitVec.ofNat 32 n).toNat = n := Nat.mod_eq_of_lt hlt
    rw [← hn, ← parseU32DecimalLogged_eq_some, hresult] at h
    cases h

theorem parseU32Decimal_exact (text : List UInt8) (valueOut : BitVec 32) :
    ((parseU32DecimalInto text valueOut).1 = true ↔ ∃ n, Decimal text n ∧ n ≤ 2 ^ 32 - 1) ∧
      (∀ n, Decimal text n → n ≤ 2 ^ 32 - 1 →
        (parseU32DecimalInto text valueOut).2.toNat = n) ∧
      ((parseU32DecimalInto text valueOut).1 = false →
        (parseU32DecimalInto text valueOut).2 = valueOut) ∧
      (parseU32DecimalLogged text).All WordOp.exact := by
  obtain ⟨v, hv, hinto⟩ | ⟨hlarge, hinto⟩ := parseU32DecimalInto_cases text valueOut
  · rw [hinto]
    refine ⟨⟨fun _ => ?_, fun _ => rfl⟩, ?_, nofun, parseU32DecimalLogged_exact⟩
    · have hlt := v.isLt
      exact ⟨v.toNat, hv, by omega⟩
    · intro n h _
      exact hv.unique h
  · rw [hinto]
    refine ⟨⟨nofun, ?_⟩, ?_, fun _ => rfl, parseU32DecimalLogged_exact⟩
    · rintro ⟨n, h, hle⟩
      have hlt := hlarge n h
      omega
    · intro n h hle
      have hlt := hlarge n h
      omega

/-- Four leading zeros, and the first number that no word holds. -/
theorem parseU32Decimal_exact_limit :
    (parseU32DecimalInto (bytes "00004294967295") 7).2.toNat = 4294967295 ∧
      (parseU32DecimalInto (bytes "4294967296") 7).2 = 7 :=
  ⟨(parseU32Decimal_exact (bytes "00004294967295") 7).2.1 4294967295
      (by decide +kernel) (by decide),
    (parseU32Decimal_exact (bytes "4294967296") 7).2.2.1 (by decide +kernel)⟩

/-! ## What the commands see -/

theorem digitOf_eq_some (hc : IsDigit c) : digitOf c = some (digitValue c) := if_pos hc

theorem digitOf_eq_none (hc : ¬ IsDigit c) : digitOf c = none := if_neg hc

theorem pushDigit_eq (hc : IsDigit c) (value : BitVec 32) :
    pushDigit value.toNat (digitValue c) = (pushChar value c).result.map BitVec.toNat :=
  (pushChar_result hc).symm

theorem parseDigits_eq (text : List UInt8) (value : BitVec 32) :
    parseDigits text value.toNat = (decimalLoop text value).result.map BitVec.toNat := by
  induction text generalizing value with
  | nil => rfl
  | cons c text ih =>
    rw [parseDigits, decimalLoop_cons, result_bind]
    by_cases hc : IsDigit c
    · rw [if_pos hc, digitOf_eq_some hc, Option.bind_eq_bind, Option.bind_some, pushDigit_eq hc,
        Option.bind_map, Option.map_bind]
      congr 1
      funext next
      exact ih next
    · rw [if_neg hc, digitOf_eq_none hc]
      rfl

theorem parseU32Decimal_eq :
    parseU32Decimal text = (parseU32DecimalLogged text).result.map BitVec.toNat := by
  rw [parseU32Decimal, parseU32DecimalLogged]
  split
  · rfl
  · exact parseDigits_eq text 0

theorem parseU32Decimal_eq_some {n : Nat} :
    parseU32Decimal text = some n ↔ Decimal text n ∧ n < 2 ^ 32 := by
  rw [parseU32Decimal_eq, Option.map_eq_some_iff]
  constructor
  · rintro ⟨v, hresult, rfl⟩
    exact ⟨parseU32DecimalLogged_eq_some.mp hresult, v.isLt⟩
  · rintro ⟨h, hlt⟩
    have hn : (BitVec.ofNat 32 n).toNat = n := Nat.mod_eq_of_lt hlt
    rw [← hn] at h
    exact ⟨BitVec.ofNat 32 n, parseU32DecimalLogged_eq_some.mpr h, hn⟩

/-- `stop`, `suspend` and `resume` pass on the number that their argument denotes. -/
theorem cmdPdControl_decimal {M : Type} (port : Port M) (s : State M) (name : List UInt8)
    (callId : BitVec 64) {n : Nat} (h : Decimal text n) (hlt : n < 2 ^ 32) :
    cmdPdControl port s [name, bytes "-i", text] callId =
      callMonitor port s [callId, BitVec.ofNat 64 n] := by
  rw [cmdPdControl, if_pos rfl, parseU32Decimal_eq_some.mpr ⟨h, hlt⟩]

end Orchestrator
end Carrels
