/-
The image and the arguments a loader hands to the monitor.

Three commands share one file name, one payload buffer and one set of arguments, and a
loader reads them when it gets that far.  `PayloadInv` says that they are what the
command of every live loader asked for, and that the buffer holds what the loader has
read of its file.  A loader keeps this, and so does a command as long as it asks for the
same as the loaders that are alive.
-/
import Carrels.Orchestrator.Step

namespace Carrels
namespace Orchestrator

open ByteMemory Monitor PicoVfs StepSystem

variable {M : Type}

/-! ## The statement -/

/-- The deploy call a command asks for. -/
def Command.message (c : Command) : Message :=
  if c.targeted then deployToProtoconMessage c.pcId c.peerMask c.peersAll
  else deployMessage c.count

/-- A deploy call hands over the file and the arguments of the command that spawned the
loader. -/
structure Issue.Faithful (files : FileSystem) (i : Issue) : Prop where
  image : ∃ bs, files.content i.command.file = some bs ∧ Holds i.buffer shared2 bs bs.length
  message : i.message = i.command.message

/-- The file server answers loaders honestly. -/
def LoaderPhase.Honest (files : FileSystem) (c : Completion) : LoaderPhase → Prop
  | .reading r => r.Honest files c
  | _ => True

instance (files : FileSystem) (c : Completion) :
    (phase : LoaderPhase) → Decidable (phase.Honest files c)
  | .reading r => inferInstanceAs (Decidable (r.Honest files c))
  | .ready | .ended => inferInstanceAs (Decidable True)

def HonestServer (files : FileSystem) (s : State M) : Event M → Prop
  | .fsReply k c => ∀ l ∈ s.loaders k, l.phase.Honest files c
  | _ => True

instance (files : FileSystem) (s : State M) : (e : Event M) → Decidable (HonestServer files s e)
  | .fsReply k c => inferInstanceAs (Decidable (∀ l ∈ s.loaders k, l.phase.Honest files c))
  | .shell _ _ | .request _ _ _ | .notifiedMonitor | .yield | .fsMounted | .imageProbed _
  | .monitor _ => inferInstanceAs (Decidable True)

/-! ## Commands that overwrite the request -/

/-- What a `deploy` with these arguments stores in the globals. -/
def DeployArgs.command (a : DeployArgs) : Command :=
  { targeted := true, file := a.file, pcId := a.pcId, peerMask := a.peerMask
    peersAll := a.peersAll }

/-- What a line of the shell stores in the globals. -/
def shellCommand (cfg : Config) (s : State M) (argv : List (List UInt8)) : Option Command :=
  if argv.head? = some (bytes "start") then
    (startArgs argv).map fun (file, count) => { targeted := false, file, count }
  else if argv.head? = some (bytes "deploy") ∧ s.deployPending = false then
    (deployArgs cfg argv).map DeployArgs.command
  else none

/-- What a CRI start of `file` stores in the globals; without a free slot it is the file
name only. -/
def slotCommand (cfg : Config) (s : State M) (file : List UInt8) : Command :=
  match freeSlot cfg s with
  | none =>
    { targeted := true, file, pcId := s.deployPcId, peerMask := s.deployPeerMask
      peersAll := s.deployPeersAll }
  | some slot => { targeted := true, file, pcId := BitVec.ofNat 32 slot }

/-- What a CRI start stores in the globals. -/
def criCommand (cfg : Config) (s : State M) (image : List UInt8) : Option Command :=
  if s.deployPending || !orchestratorCriImageExists s image then none
  else (imageToFilename image).map (slotCommand cfg s)

theorem criCommand_markStarted (cfg : Config) (s : State M) (i : Nat) (image : List UInt8) :
    criCommand cfg (markStarted s i) image = criCommand cfg s image := by
  obtain ⟨containers, timestamp, start, hs⟩ := markStarted_frame s i
  rw [hs]
  rfl

theorem criCommand_clear (cfg : Config) (s : State M) (image : List UInt8) :
    criCommand cfg { s with startAfterReply := none } image = criCommand cfg s image := rfl

/-- What an event stores in the globals. -/
def overwrites (cfg : Config) (s : State M) : Event M → Option Command
  | .shell argv _ => shellCommand cfg s argv
  | .request op request _ =>
    if CriOp.ofNumber op = some .startContainer then
      (find s.containers request.id).bind fun i => criCommand cfg s (s.containers i).image
    else none
  | _ => none

/-- The commands ask for the same file, and for the same call if they make the same. -/
structure SameRequest (c q : Command) : Prop where
  file : q.file = c.file
  message : q.targeted = c.targeted → q.message = c.message

instance (c q : Command) : Decidable (SameRequest c q) :=
  decidable_of_iff (q.file = c.file ∧ (q.targeted = c.targeted → q.message = c.message))
    ⟨fun h => ⟨h.1, h.2⟩, fun h => ⟨h.file, h.message⟩⟩

/-- What is stored in the globals is what every live loader was spawned for. -/
def KeepsLoaders (cfg : Config) (s : State M) (e : Event M) : Prop :=
  ∀ q ∈ overwrites cfg s e, ∀ k < s.spawned, ∀ l ∈ s.loaders k,
    l.phase.live = true → SameRequest l.command q

instance (cfg : Config) (s : State M) (e : Event M) : Decidable (KeepsLoaders cfg s e) :=
  inferInstanceAs (Decidable (∀ q ∈ overwrites cfg s e, ∀ k < s.spawned, ∀ l ∈ s.loaders k,
    l.phase.live = true → SameRequest l.command q))

/-! ## The invariant -/

structure LoaderOk (files : FileSystem) (s : State M) (l : Loader) : Prop where
  targeted : l.targeted = l.command.targeted
  file : s.fnameBuf = l.command.file
  message : loaderMessage s l = l.command.message
  reading : ∀ r, l.phase = .reading r → r.path = l.command.file ∧ r.Progress files shared2 s.mem

structure PayloadInv (files : FileSystem) (s : State M) : Prop where
  fresh : ∀ k, s.spawned ≤ k → s.loaders k = none
  loader : ∀ k l, s.loaders k = some l → l.phase.live = true → LoaderOk files s l
  issued : ∀ i ∈ s.issued, i.Faithful files

/-- `q` is stored in the globals, and perhaps a loader is spawned for it. -/
structure Overwritten (q : Command) (s s' : State M) : Prop where
  file : s'.fnameBuf = q.file
  message : ∀ l, loaderMessage s' l =
    if l.targeted = q.targeted then q.message else loaderMessage s l
  mem : s'.mem = s.mem
  issued : s'.issued = s.issued
  loaders : (s'.loaders = s.loaders ∧ s'.spawned = s.spawned) ∨
    ∃ c : Command, c.file = q.file ∧ c.targeted = q.targeted ∧ c.message = q.message ∧
      s'.loaders = Function.update s.loaders s.spawned
        (some { targeted := c.targeted, command := c }) ∧ s'.spawned = s.spawned + 1

namespace PayloadInv

variable {files : FileSystem} {cfg : Config} {port : Port M} {s s' : State M}

theorem congr (h : PayloadInv files s) (hloaders : s'.loaders = s.loaders)
    (hspawned : s'.spawned = s.spawned) (hfile : s'.fnameBuf = s.fnameBuf)
    (hmessage : ∀ l, loaderMessage s' l = loaderMessage s l) (hmem : s'.mem = s.mem)
    (hissued : s'.issued = s.issued) : PayloadInv files s' where
  fresh := by
    rw [hloaders, hspawned]
    exact h.fresh
  loader k l hl hlive := by
    rw [hloaders] at hl
    obtain ⟨ht, hf, hm, hr⟩ := h.loader k l hl hlive
    exact ⟨ht, hfile.trans hf, (hmessage l).trans hm, hmem ▸ hr⟩
  issued := by
    rw [hissued]
    exact h.issued

/-- A command that asks for the same as the live loaders overwrites the request. -/
theorem overwrite (h : PayloadInv files s) {q : Command}
    (hkeeps : ∀ k < s.spawned, ∀ l ∈ s.loaders k, l.phase.live = true → SameRequest l.command q)
    (hq : Overwritten q s s') : PayloadInv files s' := by
  have hold : ∀ k l, s.loaders k = some l → l.phase.live = true → LoaderOk files s' l := by
    intro k l hl hlive
    have hlt : k < s.spawned := by
      by_contra hge
      rw [h.fresh k (Nat.le_of_not_lt hge)] at hl
      cases hl
    obtain ⟨ht, hf, hm, hr⟩ := h.loader k l hl hlive
    obtain ⟨hfile, hmessage⟩ := hkeeps k hlt l hl hlive
    refine ⟨ht, hq.file.trans hfile, ?_, hq.mem ▸ hr⟩
    rw [hq.message]
    split
    case isTrue heq => exact hmessage (heq.symm.trans ht)
    case isFalse => exact hm
  obtain ⟨hloaders, hspawned⟩ | ⟨c, hfile, htargeted, hmessage, hloaders, hspawned⟩ := hq.loaders
  · refine ⟨?_, fun k l hl => hold k l (hloaders ▸ hl), hq.issued ▸ h.issued⟩
    rw [hloaders, hspawned]
    exact h.fresh
  · refine ⟨fun k hk => ?_, fun k l hl hlive => ?_, hq.issued ▸ h.issued⟩
    · rw [hspawned] at hk
      rw [hloaders, Function.update_of_ne (by omega)]
      exact h.fresh k (by omega)
    · by_cases hk : k = s.spawned
      · rw [hloaders, hk, Function.update_self] at hl
        obtain rfl := Option.some.inj hl
        refine ⟨rfl, hq.file.trans hfile.symm, ?_, fun r hr => nomatch hr⟩
        rw [hq.message, if_pos htargeted, hmessage]
      · rw [hloaders, Function.update_of_ne hk] at hl
        exact hold k l hl hlive

/-! ### Loaders -/

theorem setPhase (h : PayloadInv files s) {k : Nat} {l : Loader} {phase : LoaderPhase}
    (hl : s.loaders k = some l) (hlive : l.phase.live = true)
    (hreading : ∀ r, phase = .reading r → r.path = l.command.file ∧ r.Progress files shared2 s.mem) :
    PayloadInv files (s.setPhase k phase) where
  fresh j hj := by
    have hne : j ≠ k := by
      rintro rfl
      rw [h.fresh j hj] at hl
      cases hl
    rw [State.setPhase_of_ne _ _ hne]
    exact h.fresh j hj
  loader j l' hl' hlive' := by
    by_cases hj : j = k
    · rw [hj, State.setPhase_self phase hl] at hl'
      obtain rfl := Option.some.inj hl'
      obtain ⟨ht, hf, hm, -⟩ := h.loader k l hl hlive
      exact ⟨ht, hf, hm, hreading⟩
    · rw [State.setPhase_of_ne _ _ hj] at hl'
      obtain ⟨ht, hf, hm, hr⟩ := h.loader j l' hl' hlive'
      exact ⟨ht, hf, hm, hr⟩
  issued := h.issued

theorem startLoader (h : PayloadInv files s) (k : Nat) : PayloadInv files (startLoader s k) := by
  rw [Orchestrator.startLoader]
  split
  case h_1 => exact h
  case h_2 l hl =>
    split
    case h_1 hready =>
      split
      case isTrue =>
        have hlive : l.phase.live = true := by rw [hready]; rfl
        refine h.setPhase hl hlive fun r hr => ?_
        obtain rfl := LoaderPhase.reading.inj hr
        exact ⟨(h.loader k l hl hlive).file, Reader.progress_start files shared2 s.mem s.fnameBuf⟩
      case isFalse => exact h
    case h_2 => exact h

theorem yield (h : PayloadInv files s) : PayloadInv files (yield s) := by
  rw [Orchestrator.yield]
  induction List.range s.spawned generalizing s with
  | nil => exact h
  | cons k ks ih => exact ih (h.startLoader k)

theorem abandonDeploy (h : PayloadInv files s) : PayloadInv files (abandonDeploy s) := by
  obtain ⟨containers, timestamp, slots, hs⟩ := abandonDeploy_frame s
  rw [hs]
  exact h.congr rfl rfl rfl (fun _ => rfl) rfl rfl

theorem handOver (h : PayloadInv files s) {l : Loader}
    (himage : ∃ bs, files.content l.command.file = some bs ∧ Holds s.mem shared2 bs bs.length)
    (hmessage : loaderMessage s l = l.command.message) (hs : handOver port s l = some s') :
    PayloadInv files s' := by
  obtain ⟨m, reply, -, hs⟩ := handOver_cases hs
  have hrecord : PayloadInv files { recordIssue s l with monitor := m } := by
    refine ⟨h.fresh, fun k l hl hlive => ?_, fun i hi => ?_⟩
    · obtain ⟨ht, hf, hm, hr⟩ := h.loader k l hl hlive
      exact ⟨ht, hf, hm, hr⟩
    · obtain rfl | hi := List.mem_cons.mp hi
      · exact ⟨himage, hmessage⟩
      · exact h.issued i hi
  obtain ⟨-, -, rfl⟩ | ⟨-, rfl⟩ := hs
  · exact hrecord.abandonDeploy
  · exact hrecord

theorem store (h : PayloadInv files s) {k : Nat} {l : Loader} {r : Reader} {c : Completion}
    (hl : s.loaders k = some l) (hr : l.phase = .reading r) (hc : r.Honest files c) :
    PayloadInv files { s with mem := writes s.mem (r.resume c).1 } := by
  have hlive : l.phase.live = true := by rw [hr]; rfl
  obtain ⟨hpath, hprogress⟩ := (h.loader k l hl hlive).reading r hr
  refine ⟨h.fresh, fun j l' hl' hlive' => ?_, h.issued⟩
  obtain ⟨ht, hf, hm, hreading⟩ := h.loader j l' hl' hlive'
  refine ⟨ht, hf, hm, fun r' hr' => ?_⟩
  obtain ⟨hpath', hprogress'⟩ := hreading r' hr'
  have hfile : l'.command.file = l.command.file := hf.symm.trans (h.loader k l hl hlive).file
  exact ⟨hpath', hprogress'.other (hpath'.trans (hfile.trans hpath.symm)) hprogress hc⟩

theorem resumeLoader (h : PayloadInv files s) {k : Nat} {c : Completion}
    (hhonest : ∀ l ∈ s.loaders k, l.phase.Honest files c)
    (hs : resumeLoader port s k c = some s') : PayloadInv files s' := by
  obtain ⟨l, r, hl, hr, hs⟩ := resumeLoader_cases hs
  have hlive : l.phase.live = true := by rw [hr]; rfl
  have hc : r.Honest files c := by
    have := hhonest l hl
    rwa [hr] at this
  have hstore := h.store hl hr hc
  obtain ⟨-, -, hmessage, hreading⟩ := h.loader k l hl hlive
  obtain ⟨hpath, hprogress⟩ := hreading r hr
  obtain ⟨r', hr', rfl⟩ | ⟨size, err, hreturned, hs⟩ := hs
  · obtain ⟨hpath', hprogress'⟩ := hprogress.waiting hc hr'
    refine hstore.setPhase hl hlive fun r₂ hr₂ => ?_
    obtain rfl := LoaderPhase.reading.inj hr₂
    exact ⟨hpath'.trans hpath, hprogress'⟩
  · have hended := hstore.setPhase hl hlive (fun r₂ (hr₂ : LoaderPhase.ended = .reading r₂) =>
      nomatch hr₂)
    rw [finishLoader] at hs
    cases err with
    | true =>
      obtain rfl := Option.some.inj hs
      split
      · exact hended.abandonDeploy
      · exact hended
    | false =>
      obtain ⟨bs, hbs, hholds⟩ := hprogress.returned hreturned
      exact hended.handOver ⟨bs, hpath ▸ hbs, hholds⟩ hmessage hs

/-! ### Commands -/

theorem cmdStart (h : PayloadInv files s) {spawnOk : Bool} {argv : List (List UInt8)}
    (hname : argv.head? = some (bytes "start"))
    (hkeeps : KeepsLoaders cfg s (.shell argv spawnOk)) :
    PayloadInv files (cmdStart s spawnOk argv) := by
  rw [Orchestrator.cmdStart]
  split
  case h_1 => exact h
  case h_2 file count hargs =>
    have hq : ({ targeted := false, file, count } : Command) ∈
        overwrites cfg s (.shell argv spawnOk) := by
      rw [overwrites, shellCommand, if_pos hname, hargs]
      rfl
    refine h.overwrite (hkeeps _ hq) ⟨?_, fun l => ?_, ?_, ?_, ?_⟩
    · split <;> rfl
    · cases ht : l.targeted <;> split <;> simp [loaderMessage, ht, Command.message, State.spawnLoader]
    · split <;> rfl
    · split <;> rfl
    · split
      · exact Or.inr ⟨{ targeted := false, file, count }, rfl, rfl, rfl, rfl, rfl⟩
      · exact Or.inl ⟨rfl, rfl⟩

theorem cmdDeploy (h : PayloadInv files s) {spawnOk : Bool} {argv : List (List UInt8)}
    (hname : argv.head? = some (bytes "deploy"))
    (hkeeps : KeepsLoaders cfg s (.shell argv spawnOk)) :
    PayloadInv files (cmdDeploy cfg s spawnOk argv) := by
  have hstart : argv.head? ≠ some (bytes "start") := by
    rw [hname]
    decide
  rw [Orchestrator.cmdDeploy]
  split
  case h_1 => exact h
  case h_2 args hargs =>
    split
    case isTrue => exact h
    case isFalse hpending =>
      have hq : args.command ∈ overwrites cfg s (.shell argv spawnOk) := by
        rw [overwrites, shellCommand, if_neg hstart,
          if_pos ⟨hname, Bool.eq_false_iff.mpr hpending⟩, hargs]
        rfl
      dsimp only
      split
      · refine yield (h.overwrite (hkeeps _ hq) ⟨rfl, fun l => ?_, rfl, rfl, ?_⟩)
        · cases ht : l.targeted <;>
            simp [loaderMessage, ht, Command.message, DeployArgs.command, State.spawnLoader]
        · exact Or.inr ⟨args.command, rfl, rfl, rfl, rfl, rfl⟩
      · refine h.overwrite (hkeeps _ hq) ⟨rfl, fun l => ?_, rfl, rfl, Or.inl ⟨rfl, rfl⟩⟩
        cases ht : l.targeted <;> simp [loaderMessage, ht, Command.message, DeployArgs.command]

theorem orchestratorCriStart (h : PayloadInv files s) {spawnOk : Bool} {image owner : List UInt8}
    {result : Option (BitVec 32)}
    (hkeeps : ∀ q ∈ criCommand cfg s image, ∀ k < s.spawned, ∀ l ∈ s.loaders k,
      l.phase.live = true → SameRequest l.command q)
    (hs : orchestratorCriStart cfg spawnOk s image owner = (s', result)) :
    PayloadInv files s' := by
  obtain ⟨-, rfl⟩ | ⟨file, hcheck, hfile, hs⟩ := orchestratorCriStart_cases hs
  · exact h
  replace hkeeps := hkeeps (slotCommand cfg s file) (by
    rw [criCommand, hcheck, if_neg Bool.false_ne_true, hfile]
    rfl)
  obtain ⟨-, hslot, rfl⟩ | ⟨slot, hslot, hs⟩ := hs
  · rw [slotCommand, hslot] at hkeeps
    refine h.overwrite hkeeps ⟨rfl, fun l => ?_, rfl, rfl, Or.inl ⟨rfl, rfl⟩⟩
    cases ht : l.targeted <;> simp [loaderMessage, ht, Command.message]
  · rw [slotCommand, hslot] at hkeeps
    obtain ⟨-, rfl⟩ | ⟨-, rfl⟩ := hs
    · refine h.overwrite hkeeps ⟨rfl, fun l => ?_, rfl, rfl, Or.inl ⟨rfl, rfl⟩⟩
      cases ht : l.targeted <;> simp [loaderMessage, ht, Command.message, criRequest,
        State.claimSlot, State.setSlot, State.clearSlot]
    · refine yield (h.overwrite hkeeps ⟨rfl, fun l => ?_, rfl, rfl, Or.inr ⟨
        { targeted := true, file, pcId := BitVec.ofNat 32 slot, container := some owner },
        rfl, rfl, rfl, rfl, rfl⟩⟩)
      cases ht : l.targeted <;> simp [loaderMessage, ht, Command.message, criRequest,
        State.claimSlot, State.setSlot, State.spawnLoader]

theorem startAfterReply (h : PayloadInv files s) {spawnOk : Bool} {i : Nat}
    (hkeeps : ∀ q ∈ criCommand cfg s (s.containers i).image, ∀ k < s.spawned, ∀ l ∈ s.loaders k,
      l.phase.live = true → SameRequest l.command q) :
    PayloadInv files (startAfterReply cfg spawnOk s i) := by
  have hcleared : PayloadInv files { s with startAfterReply := none } :=
    h.congr rfl rfl rfl (fun _ => rfl) rfl rfl
  rw [← criCommand_clear] at hkeeps
  obtain ⟨t, ⟨hs, heq⟩ | ⟨id, hs, heq⟩⟩ := startAfterReply_cases cfg spawnOk s i
  all_goals
    rw [heq]
    exact (hcleared.orchestratorCriStart hkeeps hs).congr rfl rfl rfl (fun _ => rfl) rfl rfl

theorem processRequest (h : PayloadInv files s) {spawnOk : Bool} {op : BitVec 16}
    {request response : CriObject} {result : CriResult}
    (hkeeps : KeepsLoaders cfg s (.request op request spawnOk))
    (hs : processRequest cfg port spawnOk s op request = some (s', response, result)) :
    PayloadInv files s' := by
  by_cases hop : CriOp.ofNumber op = some .startContainer
  · obtain ⟨-, rfl⟩ | ⟨i, hi, rfl⟩ := processRequest_start hop hs
    · exact h
    · have hmarked : PayloadInv files (markStarted s i) := by
        obtain ⟨containers, timestamp, start, hs⟩ := markStarted_frame s i
        rw [hs]
        exact h.congr rfl rfl rfl (fun _ => rfl) rfl rfl
      refine hmarked.startAfterReply fun q hq => hkeeps q ?_
      have himage : ((markStarted s i).containers i).image = (s.containers i).image := by
        simp [markStarted, State.setContainer, State.tick]
      rw [criCommand_markStarted, himage] at hq
      rw [overwrites, if_pos hop, hi]
      exact hq
  · obtain ⟨m, containers, sandboxes, images, nextId, timestamp, slots, -, rfl⟩ :=
      processRequest_frame hop hs
    exact h.congr rfl rfl rfl (fun _ => rfl) rfl rfl

theorem step_preserves (h : PayloadInv files s) {e : Event M} (hserver : HonestServer files s e)
    (hkeeps : KeepsLoaders cfg s e) (hs : step cfg port s e = some s') : PayloadInv files s' := by
  cases e with
  | shell argv spawnOk =>
    obtain ⟨hname, rfl⟩ | ⟨hname, rfl⟩ | ⟨m, -, rfl⟩ := shellExecute_cases hs
    · exact h.cmdStart hname hkeeps
    · exact h.cmdDeploy hname hkeeps
    · exact h.congr rfl rfl rfl (fun _ => rfl) rfl rfl
  | request op request spawnOk =>
    obtain ⟨⟨s₁, response, result⟩, hreq, rfl⟩ := Option.map_eq_some_iff.mp hs
    exact h.processRequest hkeeps hreq
  | fsReply k c => exact h.resumeLoader hserver hs
  | notifiedMonitor =>
    rw [step, notifiedMonitor] at hs
    split at hs
    · obtain ⟨m, reply, -, ⟨-, rfl⟩ | ⟨-, hs⟩⟩ := printDeployResult_cases hs
      · exact h.congr rfl rfl rfl (fun _ => rfl) rfl rfl
      · obtain ⟨m, containers, timestamp, slots, -, rfl⟩ := takeDeployResult_frame hs
        exact h.congr rfl rfl rfl (fun _ => rfl) rfl rfl
    · obtain rfl := Option.some.inj hs
      exact h
  | yield =>
    obtain rfl := Option.some.inj hs
    exact h.yield
  | fsMounted | imageProbed | monitor =>
    obtain rfl := Option.some.inj hs
    exact h.congr rfl rfl rfl (fun _ => rfl) rfl rfl

theorem init (files : FileSystem) (m : M) : PayloadInv files ({ monitor := m } : State M) where
  fresh _ _ := rfl
  loader _ _ hl := nomatch hl
  issued _ hi := nomatch hi

end PayloadInv

/-! ## The calls -/

def sixteenPorts : Config := { maxPorts := 16, maxPorts_le := by decide }

/-- A monitor that accepts every call. -/
def acceptingPort : Port Unit where
  call _ _ := some ((), {})

/-- `deploy -a a -pc 3 -peers all` comes while the loader of `start a 1` reads the file; both
loaders read it and hand it over. -/
def loadedRun : List (Event Unit) :=
  [.fsMounted, .shell [bytes "start", bytes "a", bytes "1"] true, .yield,
    .fsReply 0 { success := true, fd := 1 },
    .shell [bytes "deploy", bytes "-a", bytes "a", bytes "-pc", bytes "3", bytes "-peers",
      bytes "all"] true,
    .fsReply 1 { success := true, fd := 2 }, .fsReply 0 { success := true },
    .fsReply 1 { success := true }, .fsReply 1 { success := true, data := [97] },
    .fsReply 0 { success := true, data := [97] }, .fsReply 0 { success := true },
    .fsReply 0 { success := true }, .fsReply 1 { success := true },
    .fsReply 1 { success := true }]

def loadedState : State Unit :=
  (run (step sixteenPorts acceptingPort) { monitor := () } loadedRun).get (by decide +kernel)

/-- `start b 2` comes while the loader of `start a 1` waits to close its file, and its
loader has stored its file by then. -/
def overtakenRun : List (Event Unit) :=
  [.fsMounted, .shell [bytes "start", bytes "a", bytes "1"] true, .yield,
    .fsReply 0 { success := true, fd := 1 }, .fsReply 0 { success := true },
    .fsReply 0 { success := true, data := [97] }, .fsReply 0 { success := true },
    .shell [bytes "start", bytes "b", bytes "2"] true, .yield,
    .fsReply 1 { success := true, fd := 2 }, .fsReply 1 { success := true },
    .fsReply 1 { success := true, data := [98, 98] }, .fsReply 0 { success := true }]

end Orchestrator
end Carrels
