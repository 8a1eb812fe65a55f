/-
What an object loses on the wire.

A number comes back as it is and a string is cut to its field.  A map is packed greedily: an entry
that no longer fits is skipped and a later one may still get in, so what comes back depends on the
order of the iteration.  What has come back once fits, and is not cut again.
-/
import Mathlib.Data.List.TakeWhile
import Carrels.Shim.Wire

namespace Carrels
namespace Shim

open ByteMemory Fields

/-! ## Strings -/

/-- A string that was cut to a field of `n` bytes, and then at its first zero. -/
def cut (n : Nat) (s : List UInt8) : List UInt8 := untilZero (s.take (n - 1))

theorem getFixed_putFixed_cut {n : Nat} (hn : 0 < n) (s : List UInt8) :
    getFixed (putFixed n s) = cut n s := by
  have hlen : (s.take (n - 1)).length < n := by
    rw [List.length_take]
    omega
  rw [getFixed, putFixed, cut, untilZero_pad_of_lt hlen]

theorem stringFits_cut {n : Nat} (hn : 0 < n) (s : List UInt8) : StringFits n (cut n s) where
  noZero b hb := by simpa using List.mem_takeWhile_imp hb
  length_lt := by
    have hle := (List.takeWhile_prefix (p := (· != 0)) (l := s.take (n - 1))).length_le
    rw [List.length_take] at hle
    rw [cut, untilZero]
    omega

theorem cut_of_fits {n : Nat} {s : List UInt8} (h : StringFits n s) : cut n s = s := by
  rw [← getFixed_putFixed_cut (Nat.zero_lt_of_lt h.length_lt), getFixed_putFixed h]

/-! ## Maps -/

/-- The bytes of the entries. -/
def entriesSize (m : GoMap) : Nat := (m.map fun e => 4 + e.1.length + e.2.length).sum

/-- The entries `encodeMap` takes, from place `p` of a field of `size` bytes on. -/
def packed (size : Nat) : GoMap → Nat → GoMap
  | [], _ => []
  | (k, v) :: rest, p =>
    if 65535 < k.length || 65535 < v.length || size < p + 4 + k.length + v.length then
      packed size rest p
    else (k, v) :: packed size rest (p + 4 + k.length + v.length)

theorem encodeEntries_packed (size : Nat) (m : GoMap) (p : Nat) :
    encodeEntries size m p =
      (((packed size m p).map fun e => entryBytes e.1 e.2).flatten, (packed size m p).length) := by
  induction m generalizing p with
  | nil => rfl
  | cons e rest ih =>
    obtain ⟨k, v⟩ := e
    rw [encodeEntries, packed]
    split
    · exact ih p
    · rw [ih]
      rfl

theorem packed_sublist (size : Nat) (m : GoMap) (p : Nat) : (packed size m p).Sublist m := by
  induction m generalizing p with
  | nil => exact .slnil
  | cons e rest ih =>
    obtain ⟨k, v⟩ := e
    rw [packed]
    split
    · exact (ih p).cons _
    · exact (ih _).cons_cons _

theorem packed_size_le {size : Nat} (m : GoMap) {p : Nat} (hp : p ≤ size) :
    p + entriesSize (packed size m p) ≤ size := by
  induction m generalizing p with
  | nil => exact hp
  | cons e rest ih =>
    obtain ⟨k, v⟩ := e
    rw [packed]
    split
    case isTrue => exact ih hp
    case isFalse hfits =>
      simp only [Bool.or_eq_true, decide_eq_true_eq, not_or] at hfits
      have hrest := ih (p := p + 4 + k.length + v.length) (by omega)
      rw [entriesSize, List.map_cons, List.sum_cons]
      rw [entriesSize] at hrest
      dsimp only
      omega

theorem mapFits_packed {size : Nat} {m : GoMap} (hkeys : (m.map Prod.fst).Nodup)
    (hsize : 2 ≤ size) : MapFits size (packed size m 2) where
  keys := hkeys.sublist ((packed_sublist size m 2).map _)
  length_le := packed_size_le m hsize

theorem encodeMap_packed {size : Nat} (m : GoMap) (hsize : 2 ≤ size) (hle : size ≤ 65535) :
    encodeMap size (packed size m 2) = encodeMap size m := by
  rw [encodeMap, encodeMap, encodeEntries_packed size m,
    encodeEntries_eq (packed_size_le m hsize) hle]

theorem decodeMap_encodeMap_packed {size : Nat} {m : GoMap} (hkeys : (m.map Prod.fst).Nodup)
    (hsize : 2 ≤ size) (hle : size ≤ 65535) :
    decodeMap (encodeMap size m) = packed size m 2 := by
  rw [← encodeMap_packed m hsize hle]
  exact decodeMap_encodeMap (mapFits_packed hkeys hsize) hle

theorem packed_of_fits {size : Nat} {m : GoMap} (h : MapFits size m) (hle : size ≤ 65535) :
    packed size m 2 = m := by
  have hsize : 2 ≤ size := Nat.le_trans (Nat.le_add_right _ _) h.length_le
  rw [← decodeMap_encodeMap_packed h.keys hsize hle, decodeMap_encodeMap h hle]

/-! ## Objects -/

/-- What comes back of an object. -/
def WireObject.cut (o : WireObject) : WireObject :=
  { o with
    id := Shim.cut 64 o.id, name := Shim.cut 128 o.name, namespace_ := Shim.cut 64 o.namespace_
    uid := Shim.cut 64 o.uid, labels := packed 512 o.labels 2
    annotations := packed 512 o.annotations 2, runtimeHandler := Shim.cut 64 o.runtimeHandler
    logDir := Shim.cut 192 o.logDir, sandboxID := Shim.cut 64 o.sandboxID
    image := Shim.cut 256 o.image, imageRef := Shim.cut 256 o.imageRef
    logPath := Shim.cut 192 o.logPath, reason := Shim.cut 64 o.reason, ip := Shim.cut 48 o.ip }

/-- The maps of an object are maps. -/
structure WireObject.Keyed (o : WireObject) : Prop where
  labels : (o.labels.map Prod.fst).Nodup
  annotations : (o.annotations.map Prod.fst).Nodup

theorem unmarshalObject_marshal {o : WireObject} (h : o.Keyed) :
    unmarshalObject (marshal o) = o.cut := by
  have hsplit : split wireSizes (marshal o) = wireFields o := split_eq (length_wireFields o)
  have hmembers : wireFields o =
      [toLE o.cursor.toNat 4, toLE o.present.toNat 4, toLE o.attempt.toNat 4,
        toLE o.state.toNat 4, toLE o.exitCode.toNat 4, toLE o.networkNS.toNat 4,
        toLE o.ipcNS.toNat 4, toLE o.pidNS.toNat 4, toLE o.createdAt.toNat 8,
        toLE o.startedAt.toNat 8, toLE o.finishedAt.toNat 8, putFixed 64 o.id,
        putFixed 128 o.name, putFixed 64 o.namespace_, putFixed 64 o.uid,
        encodeMap 512 o.labels, encodeMap 512 o.annotations, putFixed 64 o.runtimeHandler,
        putFixed 192 o.logDir, putFixed 64 o.sandboxID, putFixed 256 o.image,
        putFixed 256 o.imageRef, putFixed 192 o.logPath, putFixed 64 o.reason,
        putFixed 48 o.ip] := rfl
  have hstring : ∀ {n : Nat}, 0 < n → ∀ s, getFixed (putFixed n s) = Shim.cut n s :=
    getFixed_putFixed_cut
  have hmap : ∀ m : GoMap, (m.map Prod.fst).Nodup →
      decodeMap (encodeMap 512 m) = packed 512 m 2 :=
    fun m hkeys => decodeMap_encodeMap_packed hkeys (by decide) (by decide)
  rw [unmarshalObject, hsplit, hmembers, WireObject.cut, WireObject.mk.injEq]
  exact ⟨u32_toLE _, u32_toLE _, u32_toLE _, u32_toLE _, u32_toLE _, u32_toLE _, u32_toLE _,
    u32_toLE _, u64_toLE _, u64_toLE _, u64_toLE _, hstring (by decide) _, hstring (by decide) _,
    hstring (by decide) _, hstring (by decide) _, hmap _ h.labels, hmap _ h.annotations,
    hstring (by decide) _, hstring (by decide) _, hstring (by decide) _, hstring (by decide) _,
    hstring (by decide) _, hstring (by decide) _, hstring (by decide) _, hstring (by decide) _⟩

theorem WireObject.fits_cut {o : WireObject} (h : o.Keyed) : o.cut.Fits where
  id := stringFits_cut (by decide) _
  name := stringFits_cut (by decide) _
  namespace_ := stringFits_cut (by decide) _
  uid := stringFits_cut (by decide) _
  labels := mapFits_packed h.labels (by decide)
  annotations := mapFits_packed h.annotations (by decide)
  runtimeHandler := stringFits_cut (by decide) _
  logDir := stringFits_cut (by decide) _
  sandboxID := stringFits_cut (by decide) _
  image := stringFits_cut (by decide) _
  imageRef := stringFits_cut (by decide) _
  logPath := stringFits_cut (by decide) _
  reason := stringFits_cut (by decide) _
  ip := stringFits_cut (by decide) _

theorem WireObject.cut_of_fits {o : WireObject} (h : o.Fits) : o.cut = o := by
  rw [cut, Shim.cut_of_fits h.id, Shim.cut_of_fits h.name, Shim.cut_of_fits h.namespace_,
    Shim.cut_of_fits h.uid, packed_of_fits h.labels (by decide),
    packed_of_fits h.annotations (by decide), Shim.cut_of_fits h.runtimeHandler,
    Shim.cut_of_fits h.logDir, Shim.cut_of_fits h.sandboxID, Shim.cut_of_fits h.image,
    Shim.cut_of_fits h.imageRef, Shim.cut_of_fits h.logPath, Shim.cut_of_fits h.reason,
    Shim.cut_of_fits h.ip]

/-! ## Orders of iteration -/

/-- The same object, with its maps in the order of another iteration. -/
structure Reordered (o o' : WireObject) : Prop where
  rest : o' = { o with labels := o'.labels, annotations := o'.annotations }
  labels : o'.labels.Perm o.labels
  annotations : o'.annotations.Perm o.annotations

/-- A map in another order has the same keys and the same size. -/
theorem keys_perm {m m' : GoMap} (h : m'.Perm m) (hkeys : (m.map Prod.fst).Nodup) :
    (m'.map Prod.fst).Nodup := (h.map Prod.fst).nodup_iff.mpr hkeys

theorem entriesSize_perm {m m' : GoMap} (h : m'.Perm m) : entriesSize m' = entriesSize m :=
  (h.map _).sum_eq

theorem Reordered.keyed {o o' : WireObject} (h : Reordered o o') (hkeyed : o.Keyed) :
    o'.Keyed :=
  ⟨keys_perm h.labels hkeyed.labels, keys_perm h.annotations hkeyed.annotations⟩

theorem mapFits_perm {n : Nat} {m m' : GoMap} (h : m'.Perm m) (hfits : MapFits n m) :
    MapFits n m' where
  keys := keys_perm h hfits.keys
  length_le := by
    have hsize := entriesSize_perm h
    rw [entriesSize, entriesSize] at hsize
    rw [hsize]
    exact hfits.length_le

theorem Reordered.fits {o o' : WireObject} (h : Reordered o o') (hfits : o.Fits) : o'.Fits := by
  rw [h.rest]
  exact { hfits with
    labels := mapFits_perm h.labels hfits.labels
    annotations := mapFits_perm h.annotations hfits.annotations }

/-! ## The round trip -/

/-- The eleven numbers of an object. -/
def WireObject.numbers (o : WireObject) : List (BitVec 32) × List (BitVec 64) :=
  ([o.cursor, o.present, o.attempt, o.state, o.exitCode, o.networkNS, o.ipcNS, o.pidNS],
    [o.createdAt, o.startedAt, o.finishedAt])

/-- The strings of an object, in the order of their fields. -/
def WireObject.strings (o : WireObject) : List (List UInt8) :=
  [o.id, o.name, o.namespace_, o.uid, o.runtimeHandler, o.logDir, o.sandboxID, o.image,
    o.imageRef, o.logPath, o.reason, o.ip]

/-- The fields of the strings: those of the two maps are left out. -/
def stringSizes : List Nat := fieldSizes.take 4 ++ fieldSizes.drop 6

/-- What comes back of a map. -/
structure LeftOf (m m' : GoMap) : Prop where
  keys : (m'.map Prod.fst).Nodup
  entries : ∀ e ∈ m', e ∈ m
  whole : 2 + (m.map fun e => 4 + e.1.length + e.2.length).sum ≤ 512 → m'.Perm m

/-- What comes back of an object. -/
structure ComesBack (o o' : WireObject) : Prop where
  numbers : o'.numbers = o.numbers
  strings : o'.strings =
    List.zipWith (fun n s => untilZero (s.take (n - 1))) stringSizes o.strings
  labels : LeftOf o.labels o'.labels
  annotations : LeftOf o.annotations o'.annotations

theorem leftOf_packed {m m' : GoMap} (h : m'.Perm m) (hkeys : (m.map Prod.fst).Nodup) :
    LeftOf m (packed 512 m' 2) where
  keys := (mapFits_packed (keys_perm h hkeys) (by decide)).keys
  entries e he := h.subset ((packed_sublist 512 m' 2).subset he)
  whole hwhole := by
    have hfits : MapFits 512 m' := mapFits_perm h ⟨hkeys, hwhole⟩
    rwa [packed_of_fits hfits (by decide)]

theorem comesBack_cut {o o' : WireObject} (h : Reordered o o') (hkeyed : o.Keyed) :
    ComesBack o o'.cut where
  numbers := by
    rw [h.rest]
    rfl
  strings := by
    rw [h.rest]
    rfl
  labels := leftOf_packed h.labels hkeyed.labels
  annotations := leftOf_packed h.annotations hkeyed.annotations

/-- The codec loses only what it must: an object comes back with its numbers, its strings cut to
their fields and what fits of its maps, in whatever order they are iterated; and what has come
back once comes back whole. -/
theorem codecRoundTrip {o o₁ o₂ : WireObject} (hkeyed : o.Keyed) (h₁ : Reordered o o₁)
    (h₂ : Reordered (unmarshalObject (marshal o₁)) o₂) :
    ComesBack o (unmarshalObject (marshal o₁)) ∧
      Reordered (unmarshalObject (marshal o₁)) (unmarshalObject (marshal o₂)) := by
  have hkeyed₁ := h₁.keyed hkeyed
  rw [unmarshalObject_marshal hkeyed₁] at h₂ ⊢
  refine ⟨comesBack_cut h₁ hkeyed, ?_⟩
  have hfits : o₂.Fits := h₂.fits (WireObject.fits_cut hkeyed₁)
  rw [unmarshalObject_marshal ⟨hfits.labels.keys, hfits.annotations.keys⟩,
    WireObject.cut_of_fits hfits]
  exact h₂

/-- An object with a name that is too long and labels that do not all fit. -/
def crowdedObject : WireObject :=
  { state := 1, name := List.replicate 200 97
    labels := [([1], List.replicate 300 2), ([3], List.replicate 300 4), ([5], [6])] }

theorem reordered_refl (o : WireObject) : Reordered o o := ⟨rfl, .refl _, .refl _⟩

theorem codecRoundTrip_crowdedObject :
    ComesBack crowdedObject (unmarshalObject (marshal crowdedObject)) ∧
      Reordered (unmarshalObject (marshal crowdedObject))
        (unmarshalObject (marshal (unmarshalObject (marshal crowdedObject)))) :=
  codecRoundTrip ⟨by decide, by decide⟩ (reordered_refl _) (reordered_refl _)

end Shim
end Carrels
