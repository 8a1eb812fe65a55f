/-
The peer list of `deploy` (`parse_peer_ports` and `print_peer_ports` in `orchestrator.c`).

The loops are here as the source nests them, the inner one over the digits of a port and the
outer one over the ports; `parsePorts` of the shell takes one character at a time.  A list is
described by `DecimalList`, which says nothing of how it is read.
-/
import Carrels.Lib.Mask
import Carrels.Orchestrator.Numbers

namespace Carrels
namespace Orchestrator

open ByteMemory Monitor Numerals BitMask

/-! ## Parsing -/

/-- The inner loop: the port, whether it has a digit, and what is left of the text. -/
def readPort : List UInt8 → BitVec 32 → Bool → Option (BitVec 32 × Bool × List UInt8)
  | [], port, hasDigit => some (port, hasDigit, [])
  | c :: cursor, port, hasDigit =>
    if IsDigit c then (pushChar port c).result.bind fun port => readPort cursor port true
    else some (port, hasDigit, c :: cursor)

theorem readPort_length {cursor rest : List UInt8} {port port' : BitVec 32}
    {hasDigit hasDigit' : Bool}
    (h : readPort cursor port hasDigit = some (port', hasDigit', rest)) :
    rest.length ≤ cursor.length := by
  induction cursor generalizing port hasDigit with
  | nil =>
    cases h
    exact Nat.le_refl _
  | cons c cursor ih =>
    rw [readPort] at h
    split at h
    · obtain ⟨next, -, hrest⟩ := Option.bind_eq_some_iff.mp h
      exact (ih hrest).trans (Nat.le_succ _)
    · cases h
      exact Nat.le_refl _

/-- The outer loop. -/
def peerLoop (cfg : Config) (targetPc : BitVec 32) (cursor : List UInt8)
    (peerMask : BitVec 32) : Option (BitVec 32) :=
  if cursor = [] then some peerMask
  else
    match _hread : readPort cursor 0 false with
    | none => none
    | some (port, hasDigit, rest) =>
      if hasDigit = false ∨ cfg.maxPorts ≤ port.toNat ∨ port = targetPc then none
      else
        let peerMask := peerMask ||| 1#32 <<< port.toNat
        match rest with
        | [] => some peerMask
        | c :: cursor =>
          if c ≠ 44 ∨ cursor = [] then none else peerLoop cfg targetPc cursor peerMask
termination_by cursor.length
decreasing_by exact readPort_length ‹_›

/-- What the pointers of the caller point to. -/
structure PeerOut where
  peerMask : BitVec 32
  peersAll : Bool
  deriving DecidableEq

/-- `parse_peer_ports`: what is returned and what the outputs are then. -/
def parsePeerPortsInto (cfg : Config) (text : List UInt8) (targetPc : BitVec 32)
    (out : PeerOut) : Bool × PeerOut :=
  if text = bytes "all" then (true, { peerMask := 0, peersAll := true })
  else
    match peerLoop cfg targetPc text 0 with
    | none => (false, out)
    | some peerMask => (true, { peerMask, peersAll := false })

/-! ## Printing -/

/-- The loop of `print_peer_ports`: what it prints, and whether nothing has been printed. -/
def printLoop (peerMask : BitVec 32) : List Nat → Bool → List UInt8 × Bool
  | [], first => ([], first)
  | port :: ports, first =>
    if peerMask &&& 1#32 <<< port = 0#32 then printLoop peerMask ports first
    else
      let (printed, first') := printLoop peerMask ports false
      (bytes (if first then "" else ",") ++ bytes (toString port) ++ printed, first')

/-- `print_peer_ports` -/
def printPeerPorts (cfg : Config) (peerMask : BitVec 32) : List UInt8 :=
  let (printed, first) := printLoop peerMask (List.range cfg.maxPorts) true
  printed ++ if first then bytes "none" else []

/-! ## One port -/

section

variable {cfg : Config} {targetPc mask : BitVec 32}

/-- The text does not go on with a digit. -/
def NoDigit (rest : List UInt8) : Prop := ∀ c ∈ rest.head?, ¬ IsDigit c

theorem readPort_append {word rest : List UInt8} (hdigits : ∀ c ∈ word, IsDigit c)
    (hrest : NoDigit rest) (port : BitVec 32) (hasDigit : Bool) :
    readPort (word ++ rest) port hasDigit = (decimalLoop word port).result.map
      fun port => (port, hasDigit || !word.isEmpty, rest) := by
  induction word generalizing port hasDigit with
  | nil =>
    have hflag : (hasDigit || !([] : List UInt8).isEmpty) = hasDigit := Bool.or_false _
    show _ = some (port, (hasDigit || !([] : List UInt8).isEmpty), rest)
    rw [List.nil_append, hflag]
    cases rest with
    | nil => rfl
    | cons c rest => rw [readPort, if_neg (hrest c rfl)]
  | cons c word ih =>
    obtain ⟨hc, hdigits⟩ := List.forall_mem_cons.mp hdigits
    rw [List.cons_append, readPort, decimalLoop_cons, if_pos hc, if_pos hc, Logged.result_bind]
    cases (pushChar port c).result with
    | none => rfl
    | some next =>
      show readPort (word ++ rest) next true = _
      rw [ih hdigits, Bool.true_or]
      show _ = ((decimalLoop word next).result.map fun port => (port, hasDigit || true, rest))
      rw [Bool.or_true]

theorem exists_word (text : List UInt8) :
    ∃ word rest, text = word ++ rest ∧ (∀ c ∈ word, IsDigit c) ∧ NoDigit rest := by
  induction text with
  | nil => exact ⟨[], [], rfl, nofun, nofun⟩
  | cons c text ih =>
    by_cases hc : IsDigit c
    · obtain ⟨word, rest, rfl, hdigits, hrest⟩ := ih
      exact ⟨c :: word, rest, rfl, List.forall_mem_cons.mpr ⟨hc, hdigits⟩, hrest⟩
    · refine ⟨[], c :: text, rfl, nofun, ?_⟩
      intro c' hc'
      obtain rfl := Option.some.inj hc'
      exact hc

/-- What the outer loop does after a port. -/
def afterPort (cfg : Config) (targetPc : BitVec 32) (rest : List UInt8) (peerMask : BitVec 32) :
    Option (BitVec 32) :=
  match rest with
  | [] => some peerMask
  | c :: cursor =>
    if c ≠ 44 ∨ cursor = [] then none else peerLoop cfg targetPc cursor peerMask

theorem peerLoop_eq {cursor : List UInt8} (hne : cursor ≠ []) :
    peerLoop cfg targetPc cursor mask =
      (readPort cursor 0 false).bind fun (port, hasDigit, rest) =>
        if hasDigit = false ∨ cfg.maxPorts ≤ port.toNat ∨ port = targetPc then none
        else afterPort cfg targetPc rest (mask ||| 1#32 <<< port.toNat) := by
  rw [peerLoop, if_neg hne]
  split
  case h_1 hread => rw [hread, Option.bind_none]
  case h_2 port hasDigit rest hread =>
    conv_rhs => rw [hread, Option.bind_some]
    cases rest with
    | nil => rfl
    | cons c cursor => rfl

/-- A port that may be listed. -/
def PeerPort (cfg : Config) (targetPc : BitVec 32) (port : Nat) : Prop :=
  port < cfg.maxPorts ∧ port ≠ targetPc.toNat

instance (cfg : Config) (targetPc : BitVec 32) (port : Nat) :
    Decidable (PeerPort cfg targetPc port) := inferInstanceAs (Decidable (_ ∧ _))

theorem PeerPort.lt {port : Nat} (h : PeerPort cfg targetPc port) : port < 32 :=
  Nat.lt_of_lt_of_le h.1 cfg.maxPorts_le

/-- One round of the outer loop: a numeral of a port, and what comes after it. -/
theorem peerLoop_append {word rest : List UInt8} {m : BitVec 32}
    (hdigits : ∀ c ∈ word, IsDigit c) (hrest : NoDigit rest) (hne : word ++ rest ≠ []) :
    peerLoop cfg targetPc (word ++ rest) mask = some m ↔
      ∃ port, Decimal word port ∧ PeerPort cfg targetPc port ∧
        afterPort cfg targetPc rest (mask ||| 1#32 <<< port) = some m := by
  rw [peerLoop_eq hne, readPort_append hdigits hrest, Option.bind_map, Option.bind_eq_some_iff]
  constructor
  · rintro ⟨port, hport, h⟩
    dsimp only [Function.comp] at h
    split at h
    case isTrue => cases h
    case isFalse hok =>
      simp only [not_or, Nat.not_le, Bool.not_eq_false, Bool.false_or] at hok
      obtain ⟨hword, hlt, htarget⟩ := hok
      have hne : word ≠ [] := by
        intro hnil
        rw [hnil] at hword
        cases hword
      refine ⟨port.toNat, (decimalLoop_eq_some hne).mp hport, ⟨hlt, ?_⟩, h⟩
      exact fun heq => htarget (BitVec.eq_of_toNat_eq heq)
  · rintro ⟨port, hdecimal, hport, h⟩
    have hn : (BitVec.ofNat 32 port).toNat = port :=
      Nat.mod_eq_of_lt (hport.lt.trans (by decide))
    rw [← hn] at hdecimal
    refine ⟨BitVec.ofNat 32 port, (decimalLoop_eq_some hdecimal.ne_nil).mpr hdecimal, ?_⟩
    have hflag : (false || !word.isEmpty) = true := by
      simp [hdecimal.ne_nil]
    dsimp only [Function.comp]
    rw [hn, hflag, if_neg, h]
    rintro (hfalse | hge | htarget)
    · cases hfalse
    · exact absurd hport.1 (Nat.not_lt.mpr hge)
    · apply hport.2
      rw [← htarget, hn]

/-! ## Lists of ports -/

/-- The mask with the ports of a list. -/
def addPorts (mask : BitVec 32) (ports : List Nat) : BitVec 32 :=
  ports.foldl (fun mask port => mask ||| 1#32 <<< port) mask

theorem not_isDigit_comma : ¬ IsDigit 44 := by decide

/-- What the outer loop makes of a list of numerals. -/
theorem peerLoop_of_list {text : List UInt8} {ports : List Nat} {m : BitVec 32}
    (h : DecimalList 44 text ports) :
    peerLoop cfg targetPc text mask = some m ↔
      (∀ port ∈ ports, PeerPort cfg targetPc port) ∧ m = addPorts mask ports := by
  induction h generalizing mask with
  | @one word port hport =>
    have hne : word ++ [] ≠ [] := by
      rw [List.append_nil]
      exact hport.ne_nil
    have hloop := @peerLoop_append cfg targetPc mask word [] m hport.digits nofun hne
    rw [List.append_nil] at hloop
    rw [hloop, List.forall_mem_singleton]
    constructor
    · rintro ⟨p, hp, hok, hm⟩
      obtain rfl := hp.unique hport
      exact ⟨hok, (Option.some.inj hm).symm⟩
    · rintro ⟨hok, rfl⟩
      exact ⟨port, hport, hok, rfl⟩
  | @more word text port ports hport hlist ih =>
    obtain ⟨c, rest, htext, -⟩ := hlist.exists_cons
    have hne : text ≠ [] := by
      rw [htext]
      exact List.cons_ne_nil c rest
    have hcomma : NoDigit (44 :: text) := by
      intro c hc
      obtain rfl := Option.some.inj hc
      exact not_isDigit_comma
    have hafter (mask : BitVec 32) :
        afterPort cfg targetPc (44 :: text) mask = peerLoop cfg targetPc text mask :=
      if_neg (by simp [hne])
    rw [peerLoop_append hport.digits hcomma (by simp), List.forall_mem_cons, and_assoc]
    constructor
    · rintro ⟨p, hp, hok, hm⟩
      obtain rfl := hp.unique hport
      rw [hafter, ih] at hm
      exact ⟨hok, hm⟩
    · rintro ⟨hok, hm⟩
      refine ⟨port, hport, hok, ?_⟩
      rw [hafter, ih]
      exact hm

/-- Whatever the outer loop accepts is a list of numerals. -/
theorem list_of_peerLoop {text : List UInt8} {mask m : BitVec 32} (hne : text ≠ [])
    (h : peerLoop cfg targetPc text mask = some m) : ∃ ports, DecimalList 44 text ports := by
  obtain ⟨word, rest, rfl, hdigits, hrest⟩ := exists_word text
  obtain ⟨port, hport, -, hafter⟩ := (peerLoop_append hdigits hrest hne).mp h
  cases rest with
  | nil =>
    rw [List.append_nil]
    exact ⟨[port], .one hport⟩
  | cons c text =>
    rw [afterPort] at hafter
    split at hafter
    case isTrue => cases hafter
    case isFalse hcomma =>
      rw [not_or, not_not] at hcomma
      obtain ⟨rfl, htext⟩ := hcomma
      obtain ⟨ports, hlist⟩ := list_of_peerLoop htext hafter
      exact ⟨port :: ports, .more hport hlist⟩
termination_by text.length
decreasing_by
  subst_vars
  simp only [List.length_append, List.length_cons]
  omega

/-- The text lists the ports; the empty text lists none. -/
def PeerList (text : List UInt8) (ports : List Nat) : Prop :=
  text = [] ∧ ports = [] ∨ DecimalList 44 text ports

theorem PeerList.peerLoop_eq_some {text : List UInt8} {ports : List Nat} {m : BitVec 32}
    (h : PeerList text ports) :
    peerLoop cfg targetPc text mask = some m ↔
      (∀ port ∈ ports, PeerPort cfg targetPc port) ∧ m = addPorts mask ports := by
  obtain ⟨rfl, rfl⟩ | hlist := h
  · rw [peerLoop, if_pos rfl, Option.some.injEq, eq_comm]
    exact ⟨fun hm => ⟨nofun, hm⟩, fun hm => hm.2⟩
  · exact peerLoop_of_list hlist

theorem PeerList.peerLoop_eq {text : List UInt8} {ports : List Nat} (h : PeerList text ports)
    (hports : ∀ port ∈ ports, PeerPort cfg targetPc port) :
    peerLoop cfg targetPc text mask = some (addPorts mask ports) :=
  h.peerLoop_eq_some.mpr ⟨hports, rfl⟩

theorem peerList_of_peerLoop {text : List UInt8} {m : BitVec 32}
    (h : peerLoop cfg targetPc text mask = some m) : ∃ ports, PeerList text ports := by
  by_cases hnil : text = []
  · exact ⟨[], .inl ⟨hnil, rfl⟩⟩
  · obtain ⟨ports, hlist⟩ := list_of_peerLoop hnil h
    exact ⟨ports, .inr hlist⟩

theorem has_addPorts {ports : List Nat} (h : ∀ port ∈ ports, PeerPort cfg targetPc port)
    (port : Nat) : Has (addPorts 0 ports) port ↔ port ∈ ports := by
  rw [addPorts, has_foldl_or_bit fun port hport => (h port hport).lt]
  exact or_iff_right (not_has_zero port)

/-- The members of the mask do not depend on how the text is taken for a list. -/
theorem PeerList.has_addPorts {text : List UInt8} {ports : List Nat} (h : PeerList text ports)
    (hports : ∀ port ∈ ports, PeerPort cfg targetPc port) (port : Nat) :
    Has (addPorts 0 ports) port ↔ ∃ ports, PeerList text ports ∧ port ∈ ports := by
  constructor
  · intro hport
    exact ⟨ports, h, (Orchestrator.has_addPorts hports port).mp hport⟩
  · rintro ⟨ports', h', hport⟩
    have hloop : peerLoop cfg targetPc text 0 = some (addPorts 0 ports) := h.peerLoop_eq hports
    obtain ⟨hports', hmask⟩ := h'.peerLoop_eq_some.mp hloop
    rw [hmask]
    exact (Orchestrator.has_addPorts hports' port).mpr hport

theorem PeerList.ne_all {text : List UInt8} {ports : List Nat} (h : PeerList text ports) :
    text ≠ bytes "all" := by
  obtain ⟨rfl, -⟩ | hlist := h
  · decide
  · obtain ⟨c, rest, rfl, hc⟩ := hlist.exists_cons
    intro hall
    obtain ⟨rfl, -⟩ := List.cons.inj hall
    exact absurd hc (by decide)

/-- The members of a mask, printed. -/
theorem printLoop_cases (peerMask : BitVec 32) (ports : List Nat) (first : Bool) :
    ports.filter peerMask.getLsbD = [] ∧ printLoop peerMask ports first = ([], first) ∨
      ∃ text, DecimalList 44 text (ports.filter peerMask.getLsbD) ∧
        printLoop peerMask ports first =
          (bytes (if first then "" else ",") ++ text, false) := by
  induction ports generalizing first with
  | nil => exact .inl ⟨rfl, rfl⟩
  | cons port ports ih =>
    rw [printLoop]
    by_cases hport : Has peerMask port
    · have hbit : peerMask &&& 1#32 <<< port ≠ 0#32 := by
        rw [Ne, and_bit_eq_zero_iff]
        exact not_not.mpr hport
      rw [List.filter_cons_of_pos hport, if_neg hbit]
      right
      obtain ⟨hnone, hprint⟩ | ⟨text, hlist, hprint⟩ := ih false
      · refine ⟨bytes (toString port), ?_, ?_⟩
        · rw [hnone]
          exact .one (decimal_toString port)
        · rw [hprint]
          dsimp only
          rw [List.append_nil]
      · refine ⟨bytes (toString port) ++ 44 :: text, .more (decimal_toString port) hlist, ?_⟩
        rw [hprint]
        dsimp only
        rw [List.append_assoc]
        rfl
    · rw [List.filter_cons_of_neg hport, if_pos ((and_bit_eq_zero_iff _ _).mpr hport)]
      exact ih first

theorem printPeerPorts_list {peerMask : BitVec 32} (hne : peerMask ≠ 0)
    (h : ∀ port, Has peerMask port → PeerPort cfg targetPc port) :
    DecimalList 44 (printPeerPorts cfg peerMask)
      ((List.range cfg.maxPorts).filter peerMask.getLsbD) := by
  rw [printPeerPorts]
  obtain ⟨hnone, -⟩ | ⟨text, hlist, hprint⟩ :=
    printLoop_cases peerMask (List.range cfg.maxPorts) true
  · exfalso
    apply hne
    apply eq_of_has
    intro port
    constructor
    · intro hport
      have hmem := List.mem_range.mpr (h port hport).1
      exact absurd hport (List.filter_eq_nil_iff.mp hnone port hmem)
    · intro hzero
      exact absurd hzero (not_has_zero port)
  · rw [hprint]
    show DecimalList 44 (text ++ []) _
    rw [List.append_nil]
    exact hlist

end

/-! ## What the shell sees -/

theorem parsePorts_digits {word : List UInt8} (hdigits : ∀ c ∈ word, IsDigit c)
    (cfg : Config) (targetPc : Nat) (rest : List UInt8) (value mask : BitVec 32) :
    parsePorts cfg targetPc (word ++ rest) (some value.toNat) mask =
      (decimalLoop word value).result.bind fun port =>
        parsePorts cfg targetPc rest (some port.toNat) mask := by
  induction word generalizing value with
  | nil => rfl
  | cons c word ih =>
    obtain ⟨hc, hdigits⟩ := List.forall_mem_cons.mp hdigits
    rw [List.cons_append, parsePorts, digitOf_eq_some hc, decimalLoop_cons, if_pos hc,
      Logged.result_bind]
    dsimp only
    rw [Option.getD_some, pushDigit_eq hc, Option.bind_eq_bind, Option.bind_map, Option.bind_assoc]
    congr 1
    funext next
    exact ih hdigits next

/-- Without its first digit there is no port to add. -/
theorem parsePorts_noDigit {text : List UInt8} (h : NoDigit text) (cfg : Config)
    (targetPc : Nat) (mask : BitVec 32) : parsePorts cfg targetPc text none mask = none := by
  cases text with
  | nil => rfl
  | cons c text =>
    rw [parsePorts, digitOf_eq_none (h c rfl)]
    dsimp only
    split
    · rfl
    · rfl

theorem addPort_some (cfg : Config) (targetPc port mask : BitVec 32) :
    addPort cfg targetPc.toNat (some port.toNat) mask =
      if cfg.maxPorts ≤ port.toNat ∨ port = targetPc then none
      else some (mask ||| 1#32 <<< port.toNat) := by
  simp only [addPort, BitVec.toNat_inj]

/-- A port has been read, and the text does not go on with a digit. -/
theorem parsePorts_after {cfg : Config} {targetPc mask : BitVec 32} {rest : List UInt8}
    (hrest : NoDigit rest) (port : BitVec 32)
    (hgo : ∀ text mask, rest = 44 :: text → text ≠ [] →
      parsePorts cfg targetPc.toNat text none mask = peerLoop cfg targetPc text mask) :
    parsePorts cfg targetPc.toNat rest (some port.toNat) mask =
      if cfg.maxPorts ≤ port.toNat ∨ port = targetPc then none
      else afterPort cfg targetPc rest (mask ||| 1#32 <<< port.toNat) := by
  cases rest with
  | nil => exact addPort_some cfg targetPc port mask
  | cons c text =>
    rw [parsePorts, digitOf_eq_none (hrest c rfl), addPort_some]
    dsimp only
    by_cases hcomma : c = 44
    · subst hcomma
      rw [if_pos rfl]
      split
      · rfl
      · rw [afterPort, Option.bind_eq_bind, Option.bind_some]
        by_cases hnil : text = []
        · subst hnil
          rfl
        · rw [if_neg (by simp [hnil])]
          exact hgo text _ rfl hnil
    · have hstop : c ≠ 44 ∨ text = [] := .inl hcomma
      rw [if_neg hcomma, afterPort, if_pos hstop, ite_self]

theorem parsePorts_eq {cfg : Config} {targetPc mask : BitVec 32} {text : List UInt8}
    (hne : text ≠ []) :
    parsePorts cfg targetPc.toNat text none mask = peerLoop cfg targetPc text mask := by
  obtain ⟨word, rest, rfl, hdigits, hrest⟩ := exists_word text
  rw [peerLoop_eq hne, readPort_append hdigits hrest, Option.bind_map]
  cases word with
  | nil =>
    rw [List.nil_append, parsePorts_noDigit hrest]
    rfl
  | cons c word =>
    -- The first digit is read from no port as it is from the port 0.
    have hfirst : parsePorts cfg targetPc.toNat (c :: word ++ rest) none mask =
        parsePorts cfg targetPc.toNat (c :: word ++ rest) (some (0 : BitVec 32).toNat) mask := by
      rw [List.cons_append, parsePorts, parsePorts,
        digitOf_eq_some (hdigits c List.mem_cons_self)]
      rfl
    rw [hfirst, parsePorts_digits hdigits]
    congr 1
    funext port
    have hflag : (false || !false) = false ∨ cfg.maxPorts ≤ port.toNat ∨ port = targetPc ↔
        cfg.maxPorts ≤ port.toNat ∨ port = targetPc := or_iff_right (by decide)
    dsimp only [Function.comp, List.isEmpty_cons]
    rw [if_congr hflag rfl rfl]
    apply parsePorts_after hrest
    intro text mask htext hnil
    exact parsePorts_eq hnil
termination_by text.length
decreasing_by
  subst_vars
  simp only [List.length_append, List.length_cons]
  omega

theorem parsePeerPortsInto_eq (cfg : Config) (text : List UInt8) (targetPc : BitVec 32)
    (out : PeerOut) :
    parsePeerPortsInto cfg text targetPc out =
      match parsePeerPorts cfg text targetPc.toNat with
      | none => (false, out)
      | some (peerMask, peersAll) => (true, { peerMask, peersAll }) := by
  rw [parsePeerPortsInto, parsePeerPorts]
  by_cases hall : text = bytes "all"
  · rw [if_pos hall, if_pos hall]
  rw [if_neg hall, if_neg hall]
  by_cases hnil : text = []
  · rw [if_pos hnil, hnil, peerLoop, if_pos rfl]
  rw [if_neg hnil, parsePorts_eq hnil]
  cases peerLoop cfg targetPc text 0 with
  | none => rfl
  | some mask => rfl

/-! ## What the text means -/

theorem parsePeerPortsInto_cases (cfg : Config) (text : List UInt8) (targetPc : BitVec 32)
    (out : PeerOut) :
    text = bytes "all" ∧
        parsePeerPortsInto cfg text targetPc out = (true, { peerMask := 0, peersAll := true }) ∨
      text ≠ bytes "all" ∧
        ((∃ ports, PeerList text ports ∧ (∀ port ∈ ports, PeerPort cfg targetPc port) ∧
            parsePeerPortsInto cfg text targetPc out =
              (true, { peerMask := addPorts 0 ports, peersAll := false })) ∨
          (∀ ports, PeerList text ports → ¬ ∀ port ∈ ports, PeerPort cfg targetPc port) ∧
            parsePeerPortsInto cfg text targetPc out = (false, out)) := by
  rw [parsePeerPortsInto]
  by_cases hall : text = bytes "all"
  · exact .inl ⟨hall, if_pos hall⟩
  · refine .inr ⟨hall, ?_⟩
    rw [if_neg hall]
    cases hloop : peerLoop cfg targetPc text 0 with
    | some mask =>
      obtain ⟨ports, hlist⟩ := peerList_of_peerLoop hloop
      obtain ⟨hports, rfl⟩ := hlist.peerLoop_eq_some.mp hloop
      exact .inl ⟨ports, hlist, hports, rfl⟩
    | none =>
      refine .inr ⟨?_, rfl⟩
      intro ports hlist hports
      rw [hlist.peerLoop_eq hports] at hloop
      cases hloop

/-- Parsed peers are ports other than the target. -/
theorem parsePeerPorts_ports {cfg : Config} {text : List UInt8} {targetPc peerMask : BitVec 32}
    {peersAll : Bool} (h : parsePeerPorts cfg text targetPc.toNat = some (peerMask, peersAll))
    {port : Nat} (hport : Has peerMask port) : PeerPort cfg targetPc port := by
  have hinto := parsePeerPortsInto_eq cfg text targetPc { peerMask := 0, peersAll := false }
  rw [h] at hinto
  obtain ⟨-, hall⟩ | ⟨-, ⟨ports, -, hports, hlist⟩ | ⟨-, hnone⟩⟩ :=
    parsePeerPortsInto_cases cfg text targetPc { peerMask := 0, peersAll := false }
  · cases hinto.symm.trans hall
    exact absurd hport (not_has_zero port)
  · cases hinto.symm.trans hlist
    exact hports port ((has_addPorts hports port).mp hport)
  · cases hinto.symm.trans hnone

/-- The peers that `deploy` stores are ports other than its own. -/
theorem deployArgs_peers {cfg : Config} {argv : List (List UInt8)} {args : DeployArgs}
    (h : deployArgs cfg argv = some args) {port : Nat} (hport : Has args.peerMask port) :
    PeerPort cfg args.pcId port := by
  rw [deployArgs.eq_def] at h
  split at h
  case h_2 => cases h
  case h_1 words a file pc id peers ports =>
    split at h
    case isFalse => cases h
    case isTrue =>
      split at h
      case isTrue => cases h
      case isFalse =>
        split at h
        case h_1 => cases h
        case h_2 pcId _ =>
          split at h
          case isTrue => cases h
          case isFalse hlt =>
            obtain ⟨⟨peerMask, peersAll⟩, hparse, rfl⟩ := Option.map_eq_some_iff.mp h
            have hbound := cfg.maxPorts_le
            have hpcId : (BitVec.ofNat 32 pcId).toNat = pcId := Nat.mod_eq_of_lt (by omega)
            rw [← hpcId] at hparse
            exact parsePeerPorts_ports hparse hport

theorem parsePeerPortsInto_print {cfg : Config} {targetPc peerMask : BitVec 32}
    (hne : peerMask ≠ 0) (h : ∀ port, Has peerMask port → PeerPort cfg targetPc port)
    (out : PeerOut) :
    parsePeerPortsInto cfg (printPeerPorts cfg peerMask) targetPc out =
      (true, { peerMask, peersAll := false }) := by
  have hlist : PeerList (printPeerPorts cfg peerMask) _ := .inr (printPeerPorts_list hne h)
  have hports : ∀ port ∈ (List.range cfg.maxPorts).filter peerMask.getLsbD,
      PeerPort cfg targetPc port := by
    intro port hport
    exact h port (List.mem_filter.mp hport).2
  have hmask : peerMask = addPorts 0 ((List.range cfg.maxPorts).filter peerMask.getLsbD) := by
    apply eq_of_has
    intro port
    rw [has_addPorts hports, List.mem_filter, List.mem_range]
    exact ⟨fun hport => ⟨(h port hport).1, hport⟩, fun hport => hport.2⟩
  rw [parsePeerPortsInto, if_neg hlist.ne_all, hlist.peerLoop_eq_some.mpr ⟨hports, hmask⟩]

theorem parsePeerPorts_exact (cfg : Config) (targetPc : BitVec 32) (out : PeerOut) :
    (∀ text returned out', parsePeerPortsInto cfg text targetPc out = (returned, out') →
      (returned = true ↔
        text = bytes "all" ∨
          ∃ ports, PeerList text ports ∧ ∀ port ∈ ports, PeerPort cfg targetPc port) ∧
      (returned = true →
        (out'.peersAll = true ↔ text = bytes "all") ∧
          ∀ port, Has out'.peerMask port ↔ ∃ ports, PeerList text ports ∧ port ∈ ports) ∧
      (returned = false → out' = out)) ∧
      ∀ peerMask, peerMask ≠ 0 → (∀ port, Has peerMask port → PeerPort cfg targetPc port) →
        parsePeerPortsInto cfg (printPeerPorts cfg peerMask) targetPc out =
          (true, { peerMask, peersAll := false }) := by
  refine ⟨?_, fun peerMask hne h => parsePeerPortsInto_print hne h out⟩
  intro text returned out' h
  obtain ⟨rfl, hinto⟩ | ⟨hall, ⟨ports, hlist, hports, hinto⟩ | ⟨hnone, hinto⟩⟩ :=
    parsePeerPortsInto_cases cfg text targetPc out
  · obtain ⟨rfl, rfl⟩ := Prod.mk.inj (hinto.symm.trans h)
    refine ⟨⟨fun _ => .inl rfl, fun _ => rfl⟩, fun _ => ⟨⟨fun _ => rfl, fun _ => rfl⟩, ?_⟩, nofun⟩
    intro port
    constructor
    · intro hzero
      exact absurd hzero (not_has_zero port)
    · rintro ⟨ports, hlist, -⟩
      exact absurd rfl hlist.ne_all
  · obtain ⟨rfl, rfl⟩ := Prod.mk.inj (hinto.symm.trans h)
    refine ⟨⟨fun _ => .inr ⟨ports, hlist, hports⟩, fun _ => rfl⟩, fun _ => ⟨⟨nofun, ?_⟩, ?_⟩, nofun⟩
    · intro h
      exact absurd h hall
    · exact hlist.has_addPorts hports
  · obtain ⟨rfl, rfl⟩ := Prod.mk.inj (hinto.symm.trans h)
    refine ⟨⟨nofun, ?_⟩, nofun, fun _ => rfl⟩
    rintro (h | ⟨ports, hlist, hports⟩)
    · exact absurd h hall
    · exact absurd hports (hnone ports hlist)

def eightPorts : Config := { maxPorts := 8, maxPorts_le := Nat.le_of_ble_eq_true rfl }

/-- A port twice, once with a leading zero; a comma at the end; ports that were printed. -/
theorem parsePeerPorts_exact_twice :
    (∀ port, Has (parsePeerPortsInto eightPorts (bytes "5,2,05") 3 ⟨9, true⟩).2.peerMask port ↔
        ∃ ports, PeerList (bytes "5,2,05") ports ∧ port ∈ ports) ∧
      (parsePeerPortsInto eightPorts (bytes "5,") 3 ⟨9, true⟩).2 = ⟨9, true⟩ ∧
      parsePeerPortsInto eightPorts (printPeerPorts eightPorts 0x24) 3 ⟨9, true⟩ =
        (true, ⟨0x24, false⟩) := by
  have hexact := parsePeerPorts_exact eightPorts 3 ⟨9, true⟩
  have htwice : (parsePeerPortsInto eightPorts (bytes "5,2,05") 3 ⟨9, true⟩).1 = true := by
    rw [parsePeerPortsInto_eq]
    decide +kernel
  have hcomma : (parsePeerPortsInto eightPorts (bytes "5,") 3 ⟨9, true⟩).1 = false := by
    rw [parsePeerPortsInto_eq]
    decide +kernel
  have hports : ∀ port < 32, Has (0x24 : BitVec 32) port → PeerPort eightPorts 3 port := by decide
  refine ⟨((hexact.1 (bytes "5,2,05") _ _ rfl).2.1 htwice).2,
    (hexact.1 (bytes "5,") _ _ rfl).2.2 hcomma, ?_⟩
  apply hexact.2 0x24 (by decide)
  intro port hport
  exact hports port (BitVec.lt_of_getLsbD hport) hport

end Orchestrator
end Carrels
