import RoLauncher.Autopot.Scan
import RoLauncher.Threads.Pool

/-!
# The memory scanner (`tools/autopot/scanner.rs`)

A scan takes a generation, marks the scanner with it, works with the lock
released, and publishes what it found if the mark is still its own. The
processes, their memory and the sessions on them may change at any time.

The scanner keeps, beside its state, who took each generation, what became of
the state, which scans have returned, and which of them did not find their
session when they looked for it a second time.
-/

namespace RoLauncher.Autopot

open Presence (mapLabelMatches mapScanNeedles)
open RoLauncher.Threads

/-! ## The world -/

structure ProcessIdentity where
  pid : UInt32
  startTime : UInt64
  deriving DecidableEq, Repr

inductive MemoryAccess where
  | processVmReadv
  | procMem
  | noReadableWritableRegion
  | outsideSupervisor
  | yamaDenied
  | processExitedOrReused
  | backendError
  deriving DecidableEq, Repr

def MemoryAccess.usable : MemoryAccess → Bool
  | .processVmReadv | .procMem => true
  | _ => false

def memoryAccessLabel : MemoryAccess → String
  | .processVmReadv => "Disponible mediante process_vm_readv"
  | .procMem => "Disponible mediante /proc/<pid>/mem"
  | .noReadableWritableRegion => "Sin región legible/escribible para preflight"
  | .outsideSupervisor => "Proceso fuera del supervisor"
  | .yamaDenied => "Permiso denegado por Yama"
  | .processExitedOrReused => "Proceso terminado o PID reutilizado"
  | .backendError => "Backend de memoria no disponible"

def memoryRelayAction : String :=
  "Cierra las instancias antiguas y relanza el juego desde RO-Launcher."

def memoryStartError (access : MemoryAccess) : String :=
  s!"{memoryAccessLabel access} {memoryRelayAction}"

def memorySessionMissing : String :=
  "Sesión de memoria no registrada; cierra el juego y relánzalo desde RO-Launcher."

/-- What the reader of a process answers at one moment; its errors as their texts. -/
structure ProcMemoryReader where
  scanWritableU32 : UInt32 → Except String (List UInt32)
  findAllWritableBytes : List UInt8 → Except String (List UInt32)
  readU32 : UInt32 → Except String UInt32
  readString : UInt32 → Nat → Except String String
  probeStats : UInt32 → Except String (UInt32 × UInt32 × UInt32 × UInt32)

/-- A registered session. Each has a number of its own. -/
structure MemorySession where
  number : Nat
  identity : ProcessIdentity
  deriving DecidableEq, Repr

structure World where
  /-- The registry. -/
  sessions : ProcessIdentity → Option Nat
  access : Nat → MemoryAccess
  alive : ProcessIdentity → Bool
  reader : ProcessIdentity → ProcMemoryReader
  /-- A blocking task that ends now ends unexpectedly. -/
  joinError : Option String

/-! ## The scanner's state -/

inductive ScanKind where
  | hp (lastValue : UInt32)
  | level (lastValue : UInt32)
  | map (lastMap : String)
  deriving DecidableEq, Repr

structure ScanSession where
  identity : ProcessIdentity
  candidates : List UInt32
  kind : ScanKind
  anchors : List UInt32
  deriving DecidableEq, Repr

inductive ScanState where
  | idle
  | scanning (generation : Nat)
  | ready (session : ScanSession)
  deriving DecidableEq, Repr

inductive ScanEvent where
  | reserved (generation : Nat)
  | published (generation : Nat) (next : ScanState)
  | cancelled
  deriving DecidableEq, Repr

structure Scanner where
  state : ScanState
  nextGeneration : Nat
  world : World
  /-- The thread that took a generation. -/
  owner : Nat → Option Nat
  history : List ScanEvent
  returned : List Nat
  missed : List Nat

namespace Scanner

def new (world : World) : Scanner where
  state := .idle
  nextGeneration := 1
  world := world
  owner _ := none
  history := []
  returned := []
  missed := []

def take (thread : Nat) (s : Scanner) : Scanner :=
  { s with
    nextGeneration := s.nextGeneration + 1
    owner := Function.update s.owner s.nextGeneration (some thread) }

def current (s : Scanner) (generation : Nat) : Bool := s.state = .scanning generation

def reserve (generation : Nat) (s : Scanner) : Scanner :=
  { s with state := .scanning generation, history := .reserved generation :: s.history }

def publish (generation : Nat) (next : ScanState) (s : Scanner) : Scanner :=
  { s with state := next, history := .published generation next :: s.history }

def cancel (s : Scanner) : Scanner := { s with state := .idle, history := .cancelled :: s.history }

def setWorld (s : Scanner) (world : World) : Scanner := { s with world }

def setReturned (generation : Nat) (s : Scanner) : Scanner :=
  { s with returned := generation :: s.returned }

def setMissed (generation : Nat) (s : Scanner) : Scanner :=
  { s with missed := generation :: s.missed }

/-- The process of a session was found to be gone. -/
def exited (session : MemorySession) (s : Scanner) : Scanner :=
  s.setWorld { s.world with
    access := Function.update s.world.access session.number .processExitedOrReused }

end Scanner

abbrev ScanTask := Task Scanner String

/-! ## Sessions -/

def verifyProcessIdentity (identity : ProcessIdentity) : ScanTask Bool :=
  Task.read fun s => s.world.alive identity

def requireSession (identity : ProcessIdentity) : ScanTask MemorySession := do
  match ← (Task.read fun s => s.world.sessions identity : ScanTask (Option Nat)) with
  | none => .fail memorySessionMissing
  | some number => do
    let access ← Task.read fun s => s.world.access number
    if access.usable then .ret ⟨number, identity⟩ else .fail (memoryStartError access)

def ensureIdentity (session : MemorySession) : ScanTask Unit := do
  if ← verifyProcessIdentity session.identity then .ret ()
  else do
    Task.modify (Scanner.exited session)
    .fail "memory read failed at 0x0: proceso terminado o PID reutilizado"

/-- A read of the session: the process is checked before and after it. -/
def reading {α : Type} (session : MemorySession) (f : ProcMemoryReader → Except String α) :
    ScanTask α := do
  ensureIdentity session
  let answer ← Task.read fun s => f (s.world.reader session.identity)
  let value ← Task.ofExcept answer
  ensureIdentity session
  .ret value

namespace MemorySession

def scanWritableU32 (session : MemorySession) (value : UInt32) : ScanTask (List UInt32) :=
  reading session (·.scanWritableU32 value)

def findAllWritableBytes (session : MemorySession) (needle : List UInt8) : ScanTask (List UInt32) :=
  reading session (·.findAllWritableBytes needle)

def readU32 (session : MemorySession) (address : UInt32) : ScanTask UInt32 :=
  reading session (·.readU32 address)

def readString (session : MemorySession) (address : UInt32) (maxLen : Nat) : ScanTask String :=
  reading session (·.readString address maxLen)

def probeStats (session : MemorySession) (hpBase : UInt32) :
    ScanTask (UInt32 × UInt32 × UInt32 × UInt32) := reading session (·.probeStats hpBase)

end MemorySession

/-- `filter_map` over reads. -/
def collect {α β : Type} (f : α → ScanTask (Option β)) : List α → ScanTask (List β)
  | [] => .ret []
  | a :: rest => do
    let found ← f a
    let others ← collect f rest
    .ret (found.toList ++ others)

/-- A read whose failure is no more than a missing value. -/
def readOk {α : Type} (read : ScanTask α) : ScanTask (Option α) := do
  let answer ← (read.attempt : ScanTask (Except String α))
  .ret answer.toOption

def MemorySession.refineU32Candidates (session : MemorySession) (candidates : List UInt32)
    (value : UInt32) : ScanTask (List UInt32) :=
  collect (fun address => do
    let read ← readOk (session.readU32 address)
    .ret (if read = some value then some address else none)) candidates

/-! ## What is detected -/

structure DetectedMemoryLayout where
  hpBase : String
  currentHp : UInt32
  maxHp : UInt32
  currentSp : UInt32
  maxSp : UInt32
  statusBuffer : String
  deriving DecidableEq, Repr

structure DetectedLevelAddress where
  levelAddress : String
  jobLevelAddress : Option String
  currentLevel : UInt32
  deriving DecidableEq, Repr

structure DetectedMapAddress where
  mapAddress : String
  mapName : String
  deriving DecidableEq, Repr

structure ScanProgress (δ : Type) where
  pid : UInt32
  candidateCount : Nat
  confirmed : Option δ

abbrev MemoryScanProgress := ScanProgress DetectedMemoryLayout
abbrev LevelScanProgress := ScanProgress DetectedLevelAddress
abbrev MapScanProgress := ScanProgress DetectedMapAddress

@[irreducible]
def checkedAdd (a b : UInt32) : Option UInt32 :=
  if a.toNat + b.toNat < UInt32.size then some (a + b) else none

def detectLayout (session : MemorySession) (hpBase expectedHp : UInt32) :
    ScanTask (Option DetectedMemoryLayout) :=
  match checkedAdd hpBase 0x474 with
  | none => .ret none
  | some statusBuffer => do
    match ← readOk (session.probeStats hpBase) with
    | none => .ret none
    | some (currentHp, maxHp, currentSp, maxSp) =>
      if currentHp ≠ expectedHp ∨ maxHp < currentHp ∨ maxHp = 0 ∨ maxSp < currentSp ∨ maxSp = 0 then
        .ret none
      else
        .ret (some ⟨formatAddress hpBase, currentHp, maxHp, currentSp, maxSp,
          formatAddress statusBuffer⟩)

def detectJobLevel (session : MemorySession) (levelAddress : UInt32) : ScanTask (Option String) :=
  match checkedAdd levelAddress 8 with
  | none => .ret none
  | some address => do
    let job ← readOk (session.readU32 address)
    .ret (if job.any fun job => 1 ≤ job && job ≤ maxLevel then some (formatAddress address) else none)

def detectLevelAddress (session : MemorySession) (levelAddress currentLevel : UInt32) :
    ScanTask (Option DetectedLevelAddress) := do
  if (← readOk (session.readU32 levelAddress)) = some currentLevel then do
    let jobLevelAddress ← detectJobLevel session levelAddress
    .ret (some ⟨formatAddress levelAddress, jobLevelAddress, currentLevel⟩)
  else .ret none

/-! ## Generations -/

def takeGeneration (thread : Nat) : ScanTask Nat :=
  Task.fetch (fun s => s.nextGeneration) (Scanner.take thread)

/-- The scan of a generation, to its return. -/
def returning {α : Type} (generation : Nat) (scan : ScanTask α) : ScanTask α := do
  let result ← (scan.attempt : ScanTask (Except String α))
  Task.modify (Scanner.setReturned generation)
  Task.ofExcept result

def reserveScan (generation : Nat) (requireIdle : Bool) : ScanTask Unit :=
  .step (fun _ => true)
    (fun s => if requireIdle ∧ s.state ≠ .idle then s else s.reserve generation)
    fun s =>
      if requireIdle ∧ s.state ≠ .idle then
        .fail "Ya hay una búsqueda de memoria en curso; cancélala primero"
      else .ret ()

def finishIfCurrent (generation : Nat) (next : ScanState) : ScanTask Unit :=
  .step (fun _ => true) (fun s => if s.current generation then s.publish generation next else s)
    fun s => if s.current generation then .ret () else .fail "El escaneo fue cancelado"

/-- The scan ends without candidates. -/
def giveUp {α : Type} (generation : Nat) (error : String) : ScanTask α := do
  finishIfCurrent generation .idle
  .fail error

/-- The scan fails after a blocking task, which has ended, or has ended unexpectedly. -/
def spawnBlocking {α : Type} (work : ScanTask α) : ScanTask (Except String (Except String α)) := do
  let result ← (work.attempt : ScanTask (Except String α))
  match ← (Task.read fun s => s.world.joinError : ScanTask (Option String)) with
  | some error => .ret (.error error)
  | none => .ret (.ok result)

/-! ## The first scan -/

def foundState (session : List UInt32 → ScanSession) : Except String (List UInt32) → ScanState
  | .ok [] => .idle
  | .ok candidates => .ready (session candidates)
  | .error _ => .idle

/-- What `begin`, `begin_level` and `begin_map` do with the candidates. -/
def beginScan (generation : Nat) (work : ScanTask (List UInt32)) (session : List UInt32 → ScanSession)
    (scanner absent : String) : ScanTask Nat := do
  match ← spawnBlocking work with
  | .error error => giveUp generation s!"{scanner} terminó inesperadamente: {error}"
  | .ok found => do
    finishIfCurrent generation (foundState session found)
    match found with
    | .ok [] => .fail absent
    | .ok candidates => .ret candidates.length
    | .error error => .fail error

def begin (thread : Nat) (identity : ProcessIdentity) (currentHp : UInt32) :
    ScanTask MemoryScanProgress := do
  Task.ofExcept (validateHp currentHp)
  let session ← requireSession identity
  let generation ← takeGeneration thread
  returning generation do
    reserveScan generation true
    let count ← beginScan generation (session.scanWritableU32 currentHp)
      (fun candidates => ⟨identity, candidates, .hp currentHp, []⟩) "El escáner de memoria"
      s!"No se encontró el valor de HP {currentHp} en la memoria escribible del cliente"
    .ret ⟨identity.pid, count, none⟩

def beginLevel (thread : Nat) (identity : ProcessIdentity) (currentLevel : UInt32)
    (nameAddress hpBase : Option UInt32) : ScanTask LevelScanProgress := do
  Task.ofExcept (validateLevel currentLevel)
  let session ← requireSession identity
  let generation ← takeGeneration thread
  returning generation do
    reserveScan generation true
    let anchors := [nameAddress, hpBase].reduceOption
    let count ← beginScan generation
      (do
        let candidates ← session.scanWritableU32 currentLevel
        .ret (narrowScanCandidates candidates anchors))
      (fun candidates => ⟨identity, candidates, .level currentLevel, anchors⟩) "El escáner de nivel"
      s!"No se encontró el nivel {currentLevel} cerca de HP/nombre en la memoria escribible"
    .ret ⟨identity.pid, count, none⟩

def findNeedles (session : MemorySession) : List (List UInt8) → ScanTask (List UInt32)
  | [] => .ret []
  | needle :: rest => do
    let found ← session.findAllWritableBytes needle
    let others ← findNeedles session rest
    .ret (found ++ others)

def beginMap (thread : Nat) (identity : ProcessIdentity) (mapName : String)
    (nameAddress hpBase levelAddress : Option UInt32) : ScanTask MapScanProgress := do
  let mapName ← Task.ofExcept (normalizeScanMap mapName)
  let session ← requireSession identity
  let generation ← takeGeneration thread
  returning generation do
    reserveScan generation true
    match mapScanNeedles mapName with
    | none => .fail "El nombre del mapa no es válido"
    | some needles => do
      let anchors := [nameAddress, hpBase, levelAddress].reduceOption
      let count ← beginScan generation
        (do
          let candidates ← findNeedles session needles
          .ret (narrowScanCandidates candidates.mergeSort.eraseReps anchors))
        (fun candidates => ⟨identity, candidates, .map mapName, anchors⟩) "El escáner de mapa"
        s!"No se encontró '{mapName}' en la memoria escribible del cliente"
      .ret ⟨identity.pid, count, none⟩

/-! ## The next scans -/

/-- What a refinement has to do with the candidates that are there. -/
inductive Refines where
  | changed
  | unchanged
  | other
  deriving DecidableEq, Repr

/-- The candidates are taken over, or stay where they are. -/
def takeSession (generation : Nat) (refines : ScanKind → Refines) (unchanged absent : String) :
    ScanTask ScanSession :=
  .step (fun _ => true)
    (fun s =>
      match s.state with
      | .ready session => if refines session.kind = .changed then s.reserve generation else s
      | _ => s)
    fun s =>
      match s.state with
      | .ready session =>
        match refines session.kind with
        | .changed => .ret session
        | .unchanged => .fail unchanged
        | .other => .fail absent
      | .idle => .fail absent
      | .scanning _ => .fail "Ya hay un escaneo de memoria en curso"

/-- The session is looked for again, and the scanner is not reset when it is gone. -/
def requireOwnSession (generation : Nat) (identity : ProcessIdentity) : ScanTask MemorySession := do
  match ← ((requireSession identity).attempt : ScanTask (Except String MemorySession)) with
  | .ok session => .ret session
  | .error error => do
    Task.modify (Scanner.setMissed generation)
    .fail error

/-- What `refine`, `refine_level` and `refine_map` do with the candidates they took over. -/
def refineScan {α β : Type} (generation : Nat) (session : ScanSession)
    (work : MemorySession → ScanTask α) (scanner : String) (publish : α → ScanTask β) : ScanTask β := do
  if ← verifyProcessIdentity session.identity then do
    let memorySession ← requireOwnSession generation session.identity
    match ← spawnBlocking (work memorySession) with
    | .error error => giveUp generation s!"{scanner} terminó inesperadamente: {error}"
    | .ok (.error error) => giveUp generation error
    | .ok (.ok found) => publish found
  else giveUp generation "El proceso del juego cambió durante el escaneo; vuelve a empezar"

def refine (thread : Nat) (currentHp : UInt32) : ScanTask MemoryScanProgress := do
  Task.ofExcept (validateHp currentHp)
  let generation ← takeGeneration thread
  returning generation do
    let session ← takeSession generation
      (fun
        | .hp lastValue => if lastValue ≠ currentHp then .changed else .unchanged
        | _ => .other)
      "El HP no cambió. Pierde o recupera HP antes de continuar"
      "Primero inicia una búsqueda con el HP actual"
    refineScan generation session
      (fun memorySession => do
        let candidates ← memorySession.refineU32Candidates session.candidates currentHp
        let layouts ← collect (fun address => detectLayout memorySession address currentHp) candidates
        .ret (candidates, layouts))
      "El escáner de memoria"
      fun
      | ([], _) => giveUp generation
          s!"Ninguna dirección candidata cambió al HP {currentHp}; vuelve a iniciar la búsqueda"
      | (_, []) => giveUp generation
          "Se encontró el HP, pero ninguna dirección tiene el bloque esperado HP máximo/SP. Este cliente usa otro layout"
      | (_, [confirmed]) => do
        finishIfCurrent generation .idle
        .ret ⟨session.identity.pid, 1, some confirmed⟩
      | (_, layouts) => do
        let candidates := layouts.filterMap fun layout => parseAddress layout.hpBase
        finishIfCurrent generation (.ready ⟨session.identity, candidates, .hp currentHp, []⟩)
        .ret ⟨session.identity.pid, candidates.length, none⟩

/-- What `refine_level` and `refine_map` do with what they found. -/
def publishRefined {δ : Type} (generation : Nat) (next : ScanSession) (absent : String) :
    List UInt32 × Option δ → ScanTask (ScanProgress δ)
  | ([], _) => giveUp generation absent
  | (_, some confirmed) => do
    finishIfCurrent generation .idle
    .ret ⟨next.identity.pid, 1, some confirmed⟩
  | (candidates, none) => do
    finishIfCurrent generation (.ready { next with candidates })
    .ret ⟨next.identity.pid, candidates.length, none⟩

def refineLevel (thread : Nat) (currentLevel : UInt32) : ScanTask LevelScanProgress := do
  Task.ofExcept (validateLevel currentLevel)
  let generation ← takeGeneration thread
  returning generation do
    let session ← takeSession generation
      (fun
        | .level lastValue => if lastValue ≠ currentLevel then .changed else .unchanged
        | _ => .other)
      "El nivel no cambió. Sube de nivel antes de continuar"
      "Primero inicia una búsqueda con el nivel actual"
    refineScan generation session
      (fun memorySession => do
        let candidates ← memorySession.refineU32Candidates session.candidates currentLevel
        let confirmed ←
          match resolveAfterCompare candidates session.anchors with
          | none => (.ret none : ScanTask (Option DetectedLevelAddress))
          | some address => detectLevelAddress memorySession address currentLevel
        .ret (candidates, confirmed))
      "El escáner de nivel"
      (publishRefined generation { session with kind := .level currentLevel }
        s!"Ninguna dirección candidata cambió al nivel {currentLevel}; vuelve a iniciar la búsqueda")

/-- The addresses that held the map before and hold the new one. -/
def changedMaps (memorySession : MemorySession) (expected previousMap : String)
    (candidates : List UInt32) : ScanTask (List (UInt32 × String)) :=
  collect (fun address => do
    let raw ← readOk (memorySession.readString address maxMapLen)
    .ret ((raw.filter fun raw => mapLabelMatches raw expected && !mapLabelMatches raw previousMap).map
      fun raw => (address, raw))) candidates

def refineMap (thread : Nat) (mapName : String) : ScanTask MapScanProgress := do
  let mapName ← Task.ofExcept (normalizeScanMap mapName)
  let generation ← takeGeneration thread
  returning generation do
    let session ← takeSession generation
      (fun
        | .map lastMap => if lastMap ≠ mapName then .changed else .unchanged
        | _ => .other)
      "El mapa no cambió. Cambia de mapa antes de continuar"
      "Primero inicia una búsqueda con el mapa actual"
    let previousMap :=
      match session.kind with
      | .map lastMap => lastMap
      | _ => mapName
    refineScan generation session
      (fun memorySession => do
        let changed ← changedMaps memorySession mapName previousMap session.candidates
        let confirmed := (resolveMapAfterCompare changed session.anchors).map fun address =>
          (⟨formatAddress address, mapName⟩ : DetectedMapAddress)
        .ret (changed.map (·.1), confirmed))
      "El escáner de mapa"
      (publishRefined generation { session with kind := .map mapName }
        s!"Ninguna dirección candidata cambió a '{mapName}'; vuelve a iniciar la búsqueda")

def cancel : ScanTask Unit := do
  Task.modify fun s => { s with nextGeneration := s.nextGeneration + 1 }
  Task.modify Scanner.cancel

/-- The calls at the scanner, and what else happens in the world, at any time. -/
inductive ScanEntry : Nat → Scanner → ScanTask Unit → Prop
  | begin {n : Nat} {s : Scanner} (identity : ProcessIdentity) (currentHp : UInt32) :
      ScanEntry n s (begin n identity currentHp).discard
  | refine {n : Nat} {s : Scanner} (currentHp : UInt32) : ScanEntry n s (refine n currentHp).discard
  | beginLevel {n : Nat} {s : Scanner} (identity : ProcessIdentity) (currentLevel : UInt32)
      (nameAddress hpBase : Option UInt32) :
      ScanEntry n s (beginLevel n identity currentLevel nameAddress hpBase).discard
  | refineLevel {n : Nat} {s : Scanner} (currentLevel : UInt32) :
      ScanEntry n s (refineLevel n currentLevel).discard
  | beginMap {n : Nat} {s : Scanner} (identity : ProcessIdentity) (mapName : String)
      (nameAddress hpBase levelAddress : Option UInt32) :
      ScanEntry n s (beginMap n identity mapName nameAddress hpBase levelAddress).discard
  | refineMap {n : Nat} {s : Scanner} (mapName : String) : ScanEntry n s (refineMap n mapName).discard
  | cancel {n : Nat} {s : Scanner} : ScanEntry n s cancel
  | world {n : Nat} {s : Scanner} (world : World) :
      ScanEntry n s (Task.modify fun s => s.setWorld world)

abbrev ScanRun := PoolRun ScanEntry

end RoLauncher.Autopot
