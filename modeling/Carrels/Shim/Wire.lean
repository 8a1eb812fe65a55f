/-
The objects of the shim on the wire (`wireObject` of `cri_stub.go`).

An object is 2536 bytes: eleven numbers, strings in fields of fixed sizes and two maps in
512 bytes each.  A Go map is the list of its entries in the order of the iteration that
encodes it, so a statement about every list without repeated keys is about every map and
every order.
-/
import Mathlib.Algebra.BigOperators.Group.List.Basic
import Carrels.Lib.Fields

namespace Carrels
namespace Shim

open ByteMemory Fields

/-! ## Objects -/

/-- The entries of a `map[string]string`. -/
abbrev GoMap := List (List UInt8 × List UInt8)

/-- `wireObject` -/
structure WireObject where
  cursor : BitVec 32 := 0
  present : BitVec 32 := 0
  attempt : BitVec 32 := 0
  state : BitVec 32 := 0
  exitCode : BitVec 32 := 0
  networkNS : BitVec 32 := 0
  ipcNS : BitVec 32 := 0
  pidNS : BitVec 32 := 0
  createdAt : BitVec 64 := 0
  startedAt : BitVec 64 := 0
  finishedAt : BitVec 64 := 0
  id : List UInt8 := []
  name : List UInt8 := []
  namespace_ : List UInt8 := []
  uid : List UInt8 := []
  labels : GoMap := []
  annotations : GoMap := []
  runtimeHandler : List UInt8 := []
  logDir : List UInt8 := []
  sandboxID : List UInt8 := []
  image : List UInt8 := []
  imageRef : List UInt8 := []
  logPath : List UInt8 := []
  reason : List UInt8 := []
  ip : List UInt8 := []
  deriving DecidableEq

/-- `fieldSizes` -/
def fieldSizes : List Nat := [64, 128, 64, 64, 512, 512, 64, 192, 64, 256, 256, 192, 64, 48]

/-! ## Strings and maps -/

/-- `putFixed` into a field of `n` zero bytes. -/
def putFixed (n : Nat) (s : List UInt8) : List UInt8 := pad n (s.take (n - 1))

/-- `getFixed` -/
def getFixed (src : List UInt8) : List UInt8 := untilZero src

/-- One entry of an encoded map. -/
def entryBytes (k v : List UInt8) : List UInt8 := toLE k.length 2 ++ (toLE v.length 2 ++ (k ++ v))

/-- The loop of `encodeMap` at place `p` of a field of `size` bytes: the bytes from there
and the number of entries. -/
def encodeEntries (size : Nat) : GoMap → Nat → List UInt8 × Nat
  | [], _ => ([], 0)
  | (k, v) :: rest, p =>
    if 65535 < k.length || 65535 < v.length || size < p + 4 + k.length + v.length then
      encodeEntries size rest p
    else
      let (bs, count) := encodeEntries size rest (p + 4 + k.length + v.length)
      (entryBytes k v ++ bs, count + 1)

/-- `encodeMap` into a field of `size` zero bytes. -/
def encodeMap (size : Nat) (m : GoMap) : List UInt8 :=
  let (bs, count) := encodeEntries size m 2
  pad size (toLE count 2 ++ bs)

/-- `m[k] = v` -/
def setKey (m : GoMap) (k v : List UInt8) : GoMap :=
  if m.any fun e => e.1 == k then m.map fun e => if e.1 == k then (k, v) else e
  else m ++ [(k, v)]

/-- The loop of `decodeMap` on the bytes from its place on. -/
def decodeEntries : Nat → List UInt8 → GoMap → GoMap
  | 0, _, m => m
  | n + 1, src, m =>
    if src.length < 4 then m
    else
      let kl := (read16 (ofList src) 0).toNat
      let vl := (read16 (ofList src) 2).toNat
      let src := src.drop 4
      if src.length < kl + vl then m
      else
        decodeEntries n (src.drop (kl + vl)) (setKey m (src.take kl) ((src.drop kl).take vl))

/-- `decodeMap` -/
def decodeMap (src : List UInt8) : GoMap :=
  if src.length < 2 then []
  else decodeEntries (read16 (ofList src) 0).toNat (src.drop 2) []

/-! ## Objects on the wire -/

/-- The sizes of the fields of an object, in their order. -/
def wireSizes : List Nat := List.replicate 8 4 ++ List.replicate 3 8 ++ fieldSizes

/-- The fields `marshal` writes one after the other. -/
def wireFields (o : WireObject) : List (List UInt8) :=
  [o.cursor, o.present, o.attempt, o.state, o.exitCode].map (fun v => toLE v.toNat 4) ++
    [o.networkNS, o.ipcNS, o.pidNS].map (fun v => toLE v.toNat 4) ++
    [o.createdAt, o.startedAt, o.finishedAt].map (fun v => toLE v.toNat 8) ++
    List.zipWith putFixed fieldSizes [o.id, o.name, o.namespace_, o.uid] ++
    [encodeMap 512 o.labels, encodeMap 512 o.annotations] ++
    List.zipWith putFixed (fieldSizes.drop 6)
      [o.runtimeHandler, o.logDir, o.sandboxID, o.image, o.imageRef, o.logPath, o.reason, o.ip]

/-- `marshal` -/
def marshal (o : WireObject) : List UInt8 := (wireFields o).flatten

/-- `unmarshalObject` -/
def unmarshalObject (b : List UInt8) : WireObject :=
  let f := split wireSizes b
  { cursor := u32 (field f 0), present := u32 (field f 1), attempt := u32 (field f 2)
    state := u32 (field f 3), exitCode := u32 (field f 4), networkNS := u32 (field f 5)
    ipcNS := u32 (field f 6), pidNS := u32 (field f 7), createdAt := u64 (field f 8)
    startedAt := u64 (field f 9), finishedAt := u64 (field f 10), id := getFixed (field f 11)
    name := getFixed (field f 12), namespace_ := getFixed (field f 13)
    uid := getFixed (field f 14), labels := decodeMap (field f 15)
    annotations := decodeMap (field f 16), runtimeHandler := getFixed (field f 17)
    logDir := getFixed (field f 18), sandboxID := getFixed (field f 19)
    image := getFixed (field f 20), imageRef := getFixed (field f 21)
    logPath := getFixed (field f 22), reason := getFixed (field f 23)
    ip := getFixed (field f 24) }

theorem length_wireFields (o : WireObject) : (wireFields o).map List.length = wireSizes := by
  simp [wireFields, wireSizes, fieldSizes, putFixed, encodeMap, length_toLE, length_pad]

theorem length_marshal (o : WireObject) : (marshal o).length = 2536 :=
  length_flatten_eq (length_wireFields o)

/-! ## What comes back -/

/-- A string that fits a field of `n` bytes with its zero. -/
structure StringFits (n : Nat) (s : List UInt8) : Prop where
  noZero : ∀ b ∈ s, b ≠ 0
  length_lt : s.length < n

/-- A map that fits a field of `n` bytes. -/
structure MapFits (n : Nat) (m : GoMap) : Prop where
  keys : (m.map Prod.fst).Nodup
  length_le : 2 + (m.map fun e => 4 + e.1.length + e.2.length).sum ≤ n

theorem stringFits_nil {n : Nat} (hn : 0 < n) : StringFits n [] := ⟨nofun, hn⟩

theorem getFixed_putFixed {n : Nat} {s : List UInt8} (h : StringFits n s) :
    getFixed (putFixed n s) = s := by
  have htake : s.take (n - 1) = s := List.take_of_length_le (Nat.le_sub_one_of_lt h.length_lt)
  rw [getFixed, putFixed, htake]
  exact untilZero_pad h.noZero (Nat.le_of_lt h.length_lt)

theorem getFixed_pad {n : Nat} {s : List UInt8} (h : StringFits n s) : getFixed (pad n s) = s :=
  untilZero_pad h.noZero (Nat.le_of_lt h.length_lt)

theorem encodeEntries_eq {size p : Nat} {m : GoMap}
    (h : p + (m.map fun e => 4 + e.1.length + e.2.length).sum ≤ size) (hsize : size ≤ 65535) :
    encodeEntries size m p = ((m.map fun e => entryBytes e.1 e.2).flatten, m.length) := by
  induction m generalizing p with
  | nil => rfl
  | cons e rest ih =>
    obtain ⟨k, v⟩ := e
    rw [List.map_cons, List.sum_cons] at h
    dsimp only at h
    have hfits : (65535 < k.length || 65535 < v.length || size < p + 4 + k.length + v.length) =
        false := by
      simp only [Bool.or_eq_false_iff, decide_eq_false_iff_not]
      omega
    rw [encodeEntries, hfits, if_neg Bool.false_ne_true, ih (by omega)]
    rfl

theorem setKey_new {m : GoMap} {k v : List UInt8} (h : k ∉ m.map Prod.fst) :
    setKey m k v = m ++ [(k, v)] := by
  refine if_neg fun hany => h ?_
  obtain ⟨e, he, hk⟩ := List.any_eq_true.mp hany
  exact List.mem_map.mpr ⟨e, he, eq_of_beq hk⟩

theorem length_entryBytes (k v : List UInt8) :
    (entryBytes k v).length = 4 + k.length + v.length := by
  simp only [entryBytes, List.length_append, length_toLE]
  omega

theorem read_entryBytes {k v : List UInt8} (hk : k.length ≤ 65535) (hv : v.length ≤ 65535)
    (rest : List UInt8) :
    (read16 (ofList (entryBytes k v ++ rest)) 0).toNat = k.length ∧
      (read16 (ofList (entryBytes k v ++ rest)) 2).toNat = v.length := by
  have hentry := (holds_ofList (entryBytes k v ++ rest)).left
  have hkey := hentry.left
  have hvalue := hentry.right.left
  rw [length_toLE] at hkey hvalue
  rw [length_toLE] at hvalue
  rw [read16, read16, readLE_of_holds hkey, readLE_of_holds hvalue, BitVec.toNat_ofNat,
    BitVec.toNat_ofNat]
  omega

/-- The loop reads the entries it is told to read, whatever follows them. -/
theorem decodeEntries_eq {m done : GoMap} (rest : List UInt8)
    (hkeys : ((done ++ m).map Prod.fst).Nodup)
    (hlen : (m.map fun e => 4 + e.1.length + e.2.length).sum ≤ 65535) :
    decodeEntries m.length ((m.map fun e => entryBytes e.1 e.2).flatten ++ rest) done =
      done ++ m := by
  induction m generalizing done with
  | nil => exact (List.append_nil done).symm
  | cons e m ih =>
    obtain ⟨k, v⟩ := e
    rw [List.map_cons, List.sum_cons] at hlen
    dsimp only at hlen
    have happend : done ++ (k, v) :: m = (done ++ [(k, v)]) ++ m := by
      rw [List.append_assoc, List.singleton_append]
    rw [happend] at hkeys ⊢
    have hnew : k ∉ done.map Prod.fst := by
      rw [List.map_append, List.map_append, List.nodup_append] at hkeys
      have hdone := (List.nodup_append.mp hkeys.1).2.2
      exact fun hmem => hdone k hmem k (List.mem_singleton_self k) rfl
    rw [List.map_cons, List.flatten_cons, List.append_assoc, List.length_cons]
    generalize (m.map fun e => entryBytes e.1 e.2).flatten ++ rest = tail at ih ⊢
    obtain ⟨hkl, hvl⟩ := read_entryBytes (k := k) (v := v) (by omega) (by omega) tail
    have hdrop : (entryBytes k v ++ tail).drop 4 = k ++ (v ++ tail) := by
      rw [entryBytes, ← List.append_assoc (toLE _ 2), List.append_assoc,
        show 4 = (toLE k.length 2 ++ toLE v.length 2).length by
          rw [List.length_append, length_toLE, length_toLE], List.drop_left, List.append_assoc]
    have hroom : ¬ (entryBytes k v ++ tail).length < 4 := by
      rw [List.length_append, length_entryBytes]
      omega
    have hbody : ¬ (k ++ (v ++ tail)).length < k.length + v.length := by
      rw [List.length_append, List.length_append]
      omega
    rw [decodeEntries, if_neg hroom, hkl, hvl, hdrop]
    dsimp only
    rw [if_neg hbody, List.take_left, List.drop_left, List.take_left, ← List.drop_drop,
      List.drop_left, List.drop_left, setKey_new hnew]
    exact ih hkeys (by omega)

theorem decodeMap_encodeMap {n : Nat} {m : GoMap} (h : MapFits n m) (hn : n ≤ 65535) :
    decodeMap (encodeMap n m) = m := by
  have hlen := h.length_le
  have hbytes : ((m.map fun e => entryBytes e.1 e.2).flatten).length =
      (m.map fun e => 4 + e.1.length + e.2.length).sum := by
    rw [List.length_flatten, List.map_map]
    exact congrArg List.sum (List.map_congr_left fun e _ => length_entryBytes e.1 e.2)
  have hcount : m.length ≤ (m.map fun e => 4 + e.1.length + e.2.length).sum := by
    rw [← List.length_map (fun e : List UInt8 × List UInt8 => 4 + e.1.length + e.2.length)]
    refine List.length_le_sum_of_one_le _ fun k hk => ?_
    obtain ⟨e, -, rfl⟩ := List.mem_map.mp hk
    omega
  rw [encodeMap, encodeEntries_eq hlen hn]
  dsimp only
  rw [pad_eq (by rw [List.length_append, length_toLE, hbytes]; exact hlen), List.append_assoc]
  generalize List.replicate _ (0 : UInt8) = rest
  have hread : (read16 (ofList (toLE m.length 2 ++
      ((m.map fun e => entryBytes e.1 e.2).flatten ++ rest))) 0).toNat = m.length := by
    have hfirst := (holds_ofList (toLE m.length 2 ++
      ((m.map fun e => entryBytes e.1 e.2).flatten ++ rest))).left
    rw [length_toLE] at hfirst
    rw [read16, readLE_of_holds hfirst, BitVec.toNat_ofNat]
    omega
  have hroom : ¬ (toLE m.length 2 ++
      ((m.map fun e => entryBytes e.1 e.2).flatten ++ rest)).length < 2 := by
    rw [List.length_append, length_toLE]
    omega
  rw [decodeMap, if_neg hroom, hread, List.drop_left' (length_toLE m.length 2)]
  exact decodeEntries_eq rest h.keys (by omega)

/-- The strings of an object fit their fields and its maps theirs. -/
structure WireObject.Fits (o : WireObject) : Prop where
  id : StringFits 64 o.id
  name : StringFits 128 o.name
  namespace_ : StringFits 64 o.namespace_
  uid : StringFits 64 o.uid
  labels : MapFits 512 o.labels
  annotations : MapFits 512 o.annotations
  runtimeHandler : StringFits 64 o.runtimeHandler
  logDir : StringFits 192 o.logDir
  sandboxID : StringFits 64 o.sandboxID
  image : StringFits 256 o.image
  imageRef : StringFits 256 o.imageRef
  logPath : StringFits 192 o.logPath
  reason : StringFits 64 o.reason
  ip : StringFits 48 o.ip

end Shim
end Carrels
