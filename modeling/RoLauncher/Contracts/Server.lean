import Mathlib.Data.List.Forall2
import RoLauncher.Contracts.Launch

/-!
# Server configurations on both sides (`shared/contracts.ts`, `models/server.rs`)

The rest of `validateServerConfig` and of `ServerConfig::validate`, around the
launch configuration. The tools of a server have validators of their own, which
the interface does not run.
-/

namespace RoLauncher.Contracts

open RoLauncher.Text

namespace Frontend

/-! ## The interface -/

/-- What a code point may become in lower case. -/
structure Lowered (n : Nat) (lower : Units) : Prop where
  ascii : n < 128 → lower = [UInt16.ofNat (if 65 ≤ n ∧ n ≤ 90 then n + 32 else n)]
  /-- Some other characters have ASCII letters in lower case, but none of these. -/
  other : 128 ≤ n → lower ≠ [] ∧ ∀ u ∈ lower, u ∉ units ".exe"

/-- `toLowerCase`, code point by code point; what one becomes may depend on the others. -/
structure LowerCase where
  groups : List Nat → List Units
  lowered : ∀ points, List.Forall₂ Lowered points (groups points)

def LowerCase.toLowerCase (lower : LowerCase) (value : Units) : Units :=
  (lower.groups (codePoints value)).flatten

structure InstallationBinding where
  installationId : Units
  prefixPath : Units
  prefixFingerprint : Units

structure ServerConfig (Tools : Type) where
  id : Units
  name : Units
  executablePath : Units
  patcherPath : Option Units
  winePrefix : Option Units
  prefixMode : Option Units
  runner : Option Units
  installation : Option InstallationBinding
  launch : Option LaunchConfig
  tools : Tools

def isHexUnit (u : UInt16) : Bool :=
  (48 ≤ u.toNat && u.toNat ≤ 57) || (65 ≤ u.toNat && u.toNat ≤ 70) || (97 ≤ u.toNat && u.toNat ≤ 102)

/-- `/^[0-9a-f]{8}-[0-9a-f]{4}-[0-9a-f]{4}-[0-9a-f]{4}-[0-9a-f]{12}$/i`. -/
def isUuid (value : Units) : Bool :=
  value.length = 36 && value.zipIdx.all fun unit =>
    if unit.2 = 8 ∨ unit.2 = 13 ∨ unit.2 = 18 ∨ unit.2 = 23 then unit.1 = 0x2d else isHexUnit unit.1

/-- `/^[0-9a-f]{64}$/i`. -/
def isFingerprint (value : Units) : Bool := value.length = 64 && value.all isHexUnit

def isBoundToInstallation (binding : InstallationBinding) (runner : Option Units) : Bool :=
  isUuid binding.installationId && binding.prefixPath.head? = some 0x2f &&
    binding.prefixPath ≠ [0x2f] && isFingerprint binding.prefixFingerprint &&
    (runner.map trim).getD [] ≠ []

def hasExeExtension (lower : LowerCase) (path : Units) : Bool :=
  (units ".exe").isSuffixOf (lower.toLowerCase (trim path))

def isAbsolutePrefix (winePrefix : Units) : Bool :=
  (trim winePrefix).head? = some 0x2f && trim winePrefix ≠ [0x2f]

/-- Checked where a launch configuration is there. -/
def validateServerLaunch (launch : LaunchConfig) (patcherPath : Option Units) : Option Units :=
  (validateLaunchConfig launch).or <|
    if effectiveLaunchStrategy launch = units "patcher" ∧ patcherPath.getD [] = [] then
      some (units "El inicio mediante patcher requiere configurar patcherPath")
    else none

def validateServerConfig {Tools : Type} (lower : LowerCase) (server : ServerConfig Tools) :
    Option Units :=
  if server.installation.any fun binding => !isBoundToInstallation binding server.runner then
    some (units "El servidor instalado debe conservar su runner y entorno de instalación")
  else if trim server.id = [] ∨ server.id.length > 128 then
    some (units "El identificador del servidor no es válido")
  else if trim server.name = [] ∨ server.name.length > 80 then
    some (units "El nombre debe tener entre 1 y 80 caracteres")
  else if !hasExeExtension lower server.executablePath then
    some (units "El ejecutable del cliente debe ser un archivo .exe")
  else if server.patcherPath.any fun path => !hasExeExtension lower path then
    some (units "El patcher debe ser un archivo .exe")
  else if server.winePrefix.any fun winePrefix => trim winePrefix = [] then
    some (units "El WINEPREFIX no puede estar vacío")
  else if server.winePrefix.any fun winePrefix => !isAbsolutePrefix winePrefix then
    some (units "El WINEPREFIX personalizado debe ser una ruta absoluta y no puede ser /")
  else if server.prefixMode.any fun mode =>
      mode ≠ units "shared" ∧ mode ≠ units "isolated" ∧ mode ≠ units "custom" then
    some (units "El modo de WINEPREFIX no es válido")
  else if server.prefixMode = some (units "custom") ∧ server.winePrefix.isNone then
    some (units "El modo de prefijo custom requiere un WINEPREFIX")
  else if (server.prefixMode = some (units "shared") ∨ server.prefixMode = some (units "isolated")) ∧
      server.winePrefix.isSome then
    some (units "winePrefix sólo puede definirse cuando prefixMode es custom o legacy")
  else if server.runner.any fun runner => trim runner = [] then
    some (units "El runner no puede estar vacío")
  else if server.prefixMode = some (units "shared") ∧ server.runner.getD [] ≠ [] then
    some (units "Un runner por servidor requiere un prefijo aislado o custom")
  else server.launch.bind fun launch => validateServerLaunch launch server.patcherPath

end Frontend

namespace Backend

/-! ## The backend -/

inductive Component where
  | rootDir
  | curDir
  | parentDir
  | normal (name : List Char)
  deriving DecidableEq, Repr

/-- `Path::components`: a dot counts only where a relative path begins with it. -/
def components (path : List Char) : List Component :=
  (if path.head? = some '/' then [.rootDir] else []) ++
    (path.splitOn '/').zipIdx.filterMap fun part =>
      if part.1 = [] then none
      else if part.1 = ['.'] then if part.2 = 0 then some .curDir else none
      else if part.1 = ['.', '.'] then some .parentDir
      else some (.normal part.1)

def isAbsolute (path : List Char) : Bool := path.head? = some '/'

/-- `Path::parent` is `None`. -/
def hasNoParent (path : List Char) : Bool :=
  components path = [] || components path = [.rootDir]

inductive PrefixMode where
  | shared
  | isolated
  | custom
  deriving DecidableEq, Repr

structure InstallationBinding where
  installationId : String
  prefixPath : String
  prefixFingerprint : String
  deriving DecidableEq, Repr

structure ServerConfig (Tools : Type) where
  id : String
  name : String
  executablePath : String
  patcherPath : Option String
  winePrefix : Option String
  prefixMode : Option PrefixMode
  runner : Option String
  installation : Option InstallationBinding
  launch : LaunchConfig
  tools : Tools

def absolutePath (value : String) : Except String Unit :=
  if !isAbsolute value.toList || value = "/" || value.toList.contains '\x00' ||
      value.utf8ByteSize > 4096 || trim value ≠ value.toList ||
      (components value.toList).contains .parentDir then
    .error "Selecciona una ruta absoluta válida"
  else .ok ()

def isAsciiHexdigit (c : Char) : Bool :=
  (48 ≤ c.toNat && c.toNat ≤ 57) || (65 ≤ c.toNat && c.toNat ≤ 70) || (97 ≤ c.toNat && c.toNat ≤ 102)

/-- `uuid::Uuid::parse_str` is not part of the repository. -/
def InstallationBinding.validate (parseUuid : String → Bool) (binding : InstallationBinding) :
    Except String Unit :=
  if !parseUuid binding.installationId then .error "El identificador de instalación no es válido"
  else do
    absolutePath binding.prefixPath
    if binding.prefixFingerprint.utf8ByteSize ≠ 64 ∨
        binding.prefixFingerprint.toList.all isAsciiHexdigit = false then
      .error "La identidad del entorno de instalación no es válida"

def validateNonEmpty (label value : String) : Except String Unit :=
  if trim value = [] then .error (label ++ " no puede estar vacío") else .ok ()

def validateRequired (label value : String) (maxLen : Nat) : Except String Unit := do
  validateNonEmpty label value
  if value.length > maxLen then
    .error (label ++ " no puede superar " ++ toString maxLen ++ " caracteres")

def toAsciiLowercase (c : Char) : Char :=
  if 65 ≤ c.toNat ∧ c.toNat ≤ 90 then Char.ofNat (c.toNat + 32) else c

def validateExePath (label path : String) : Except String Unit := do
  validateNonEmpty label path
  if !(['.', 'e', 'x', 'e'].isSuffixOf (path.toList.map toAsciiLowercase)) then
    .error (label ++ " debe apuntar a un archivo .exe")

/-- `HOME` is compared as a path; there may be none. -/
def validateCustomPrefixPath (home : Option String) (value : String) : Except String Unit :=
  let path := trim value
  if !isAbsolute path then .error "El WINEPREFIX personalizado debe usar una ruta absoluta"
  else if hasNoParent path then
    .error "El WINEPREFIX personalizado no puede ser la raíz del sistema"
  else if home.any fun home => components path = components home.toList then
    .error "El WINEPREFIX personalizado no puede ser el directorio personal"
  else .ok ()

section

variable {Tools : Type} (parseUuid : String → Bool) (home : Option String)
  (validateTools : Tools → Except String Unit)

def ServerConfig.validateInstallation (server : ServerConfig Tools) : Except String Unit :=
  match server.installation with
  | none => .ok ()
  | some installation => do
    installation.validate parseUuid
    if server.runner.all fun runner => trim runner = [] then
      .error "Un servidor instalado debe conservar su runner"

def ServerConfig.validatePatcher (server : ServerConfig Tools) : Except String Unit :=
  match server.patcherPath with
  | none => .ok ()
  | some path => validateExePath "El patcher" path

def ServerConfig.validatePrefix (server : ServerConfig Tools) : Except String Unit :=
  match server.winePrefix with
  | none => .ok ()
  | some winePrefix => do
    validateNonEmpty "El WINEPREFIX" winePrefix
    validateCustomPrefixPath home winePrefix

def ServerConfig.validateMode (server : ServerConfig Tools) : Except String Unit :=
  match server.prefixMode with
  | some .custom =>
    if server.winePrefix.isNone then .error "El modo de prefijo custom requiere un WINEPREFIX"
    else .ok ()
  | some .shared | some .isolated =>
    if server.winePrefix.isSome then
      .error "winePrefix sólo puede definirse cuando prefixMode es custom o legacy"
    else .ok ()
  | none => .ok ()

def ServerConfig.validateRunner (server : ServerConfig Tools) : Except String Unit :=
  match server.runner with
  | none => .ok ()
  | some runner => do
    validateNonEmpty "El runner" runner
    if server.prefixMode = some .shared then
      .error "Un runner por servidor requiere un prefijo aislado o custom"

def ServerConfig.validateLaunch (server : ServerConfig Tools) : Except String Unit := do
  server.launch.validate
  if server.launch.strategy = .patcher ∧ server.patcherPath.isNone then
    .error "El inicio mediante patcher requiere configurar patcherPath"

def ServerConfig.validate (server : ServerConfig Tools) : Except String Unit := do
  validateRequired "El identificador del servidor" server.id 128
  validateRequired "El nombre del servidor" server.name 80
  validateExePath "El ejecutable del cliente" server.executablePath
  server.validateInstallation parseUuid
  server.validatePatcher
  server.validatePrefix home
  server.validateMode
  server.validateRunner
  server.validateLaunch
  validateTools server.tools

end

end Backend

/-! ## In between -/

/-- A string that may be missing. -/
def receivedOption (value : Option Units) : Option (Option String) :=
  match value with
  | none => some none
  | some value => (fromUnits value).map some

def receivedMode (mode : Option Units) : Option (Option Backend.PrefixMode) :=
  match mode with
  | none => some none
  | some name =>
    if name = units "shared" then some (some .shared)
    else if name = units "isolated" then some (some .isolated)
    else if name = units "custom" then some (some .custom)
    else none

def receivedInstallation (binding : Option Frontend.InstallationBinding) :
    Option (Option Backend.InstallationBinding) :=
  match binding with
  | none => some none
  | some binding => do
    let installationId ← fromUnits binding.installationId
    let prefixPath ← fromUnits binding.prefixPath
    let prefixFingerprint ← fromUnits binding.prefixFingerprint
    some (some ⟨installationId, prefixPath, prefixFingerprint⟩)

/-- A launch configuration that is left out is the default. -/
def receivedServerLaunch : Option Frontend.LaunchConfig → Option Backend.LaunchConfig
  | none => some .default
  | some launch => receivedLaunch launch

/-- What the backend reads of the object, if it does. -/
def receivedServer {Tools : Type} (server : Frontend.ServerConfig Tools) :
    Option (Backend.ServerConfig Tools) := do
  let id ← fromUnits server.id
  let name ← fromUnits server.name
  let executablePath ← fromUnits server.executablePath
  let patcherPath ← receivedOption server.patcherPath
  let winePrefix ← receivedOption server.winePrefix
  let prefixMode ← receivedMode server.prefixMode
  let runner ← receivedOption server.runner
  let installation ← receivedInstallation server.installation
  let launch ← receivedServerLaunch server.launch
  some ⟨id, name, executablePath, patcherPath, winePrefix, prefixMode, runner, installation, launch,
    server.tools⟩

end RoLauncher.Contracts
