import RoLauncher.Text.Template
import RoLauncher.Text.Utf16

/-!
# Launch arguments on both sides (`shared/contracts.ts`, `models/launch.rs`)

The interface checks a launch configuration before it sends it, over strings
of UTF-16 units; the backend checks what it receives, over strings of
characters. Both read the fields of the argument templates. What is sent is the
same text, unless a string has half of a surrogate pair on its own: then the
backend does not even read it (`LaunchConfig.received`).
-/

namespace RoLauncher.Contracts

open RoLauncher.Text

/-! ## The interface -/

namespace Frontend

def maxLaunchArguments : Nat := 64
def maxLaunchArgumentLength : Nat := 4096
def maxLaunchTotalLength : Nat := 16384
def maxLaunchFields : Nat := 16
def maxLaunchFieldKeyLength : Nat := 32

/-- `WhiteSpace` and `LineTerminator` of the language. -/
def isSpace (unit : UInt16) : Bool :=
  (9 ≤ unit.toNat && unit.toNat ≤ 13) || unit.toNat = 0x20 || unit.toNat = 0xA0 ||
    unit.toNat = 0x1680 || (0x2000 ≤ unit.toNat && unit.toNat ≤ 0x200A) || unit.toNat = 0x2028 ||
    unit.toNat = 0x2029 || unit.toNat = 0x202F || unit.toNat = 0x205F || unit.toNat = 0x3000 ||
    unit.toNat = 0xFEFF

def trim (value : Units) : Units := trimBy isSpace value

def codePointLength (value : Units) : Nat := (codePoints value).length

def containsControlCharacter (value : Units) : Bool :=
  (codePoints value).any fun code => code ≤ 0x1f || (0x7f ≤ code && code ≤ 0x9f)

def isLetter (unit : UInt16) : Bool :=
  (65 ≤ unit.toNat && unit.toNat ≤ 90) || (97 ≤ unit.toNat && unit.toNat ≤ 122)

def isKeyUnit (unit : UInt16) : Bool :=
  isLetter unit || (48 ≤ unit.toNat && unit.toNat ≤ 57) || unit.toNat = 95 || unit.toNat = 45

/-- `/^[A-Za-z][A-Za-z0-9_-]*$/`. -/
def isKey : Units → Bool
  | [] => false
  | unit :: rest => isLetter unit && rest.all isKeyUnit

def validateLaunchFieldKey (key : Units) : Option Units :=
  if !isKey key || key.length > maxLaunchFieldKeyLength then
    some (units "La clave de lanzamiento '$\x7b" ++ key ++
      units "\x7d' no es válida; usa una letra inicial y hasta 32 letras, números, '_' o '-'")
  else none

/-- `indexOf` from a position on. -/
def indexOf (value pattern : Units) (position : Nat) : Option Nat :=
  (find pattern (value.drop position)).map (position + ·)

def slice (value : Units) (start stop : Nat) : Units := (value.take stop).drop start

/-- A field that was not seen before is added, if there is room. -/
def addField (fields : List Units) (key : Units) : Except Units (List Units) :=
  if key ∈ fields then .ok fields
  else if fields.length ≥ maxLaunchFields then
    .error (units "Los argumentos no pueden usar más de 16 campos")
  else .ok (fields ++ [key])

/-- The loop over one argument. Each round takes something of it, which bounds their number. -/
def collectArgument (argument : Units) (index : Nat) :
    Nat → Nat → List Units → Except Units (List Units)
  | 0, _, fields => .ok fields
  | bound + 1, cursor, fields =>
    match indexOf argument (units "$\x7b") cursor with
    | none => .ok fields
    | some start =>
      match indexOf argument (units "\x7d") (start + 2) with
      | none =>
        .error (units "El argumento " ++ units (toString (index + 1)) ++
          units " contiene un campo de lanzamiento sin cerrar")
      | some stop =>
        match validateLaunchFieldKey (slice argument (start + 2) stop) with
        | some keyError => .error keyError
        | none => do
          let fields ← addField fields (slice argument (start + 2) stop)
          collectArgument argument index bound (stop + 1) fields

def collectFrom : Nat → List Units → List Units → Except Units (List Units)
  | _, [], fields => .ok fields
  | index, argument :: args, fields => do
    let fields ← collectArgument argument index (argument.length + 1) 0 fields
    collectFrom (index + 1) args fields

def collectLaunchFields (args : List Units) : Except Units (List Units) := collectFrom 0 args []

def extractLaunchFields (args : List Units) : Except Units (List Units) := collectLaunchFields args

/-- The loop of `validateArgumentList`. -/
def checkArguments (label : Units) : Nat → Nat → List Units → Option Units
  | _, _, [] => none
  | index, totalLength, argument :: args =>
    let named := units "El argumento " ++ label ++ units " " ++ units (toString (index + 1))
    if trim argument = [] then some (named ++ units " no puede estar vacío")
    else if containsControlCharacter argument then
      some (named ++ units " contiene un carácter de control")
    else if codePointLength argument > maxLaunchArgumentLength then
      some (named ++ units " no puede superar 4096 caracteres")
    else if totalLength + codePointLength argument > maxLaunchTotalLength then
      some (units "Los argumentos " ++ label ++ units " no pueden superar 16384 caracteres en total")
    else checkArguments label (index + 1) (totalLength + codePointLength argument) args

def validateArgumentList (label : Units) : Option (List Units) → Option Units
  | none => none
  | some args =>
    if args.length > maxLaunchArguments then
      some (units "Los argumentos " ++ label ++ units " no pueden superar 64 elementos")
    else
      (checkArguments label 0 0 args).or <|
        match collectLaunchFields args with
        | .ok _ => none
        | .error error => some error

/-- A launch configuration, as it is typed or read from anywhere. -/
structure LaunchConfig where
  strategy : Option Units
  gameArgs : Option (List Units)
  patcherArgs : Option (List Units)
  requireWebview2 : Option Bool
  /-- Keys of the object that the type does not have. -/
  otherKeys : List Units

def effectiveLaunchStrategy (launch : LaunchConfig) : Units := launch.strategy.getD (units "direct")

def validateLaunchConfig (launch : LaunchConfig) : Option Units :=
  if launch.otherKeys ≠ [] then
    some (units "La configuración de lanzamiento contiene campos desconocidos: " ++
      (launch.otherKeys.intersperse (units ", ")).flatten)
  else if effectiveLaunchStrategy launch ≠ units "direct" ∧
      effectiveLaunchStrategy launch ≠ units "patcher" then
    some (units "La estrategia de lanzamiento no es válida")
  else
    (validateArgumentList (units "del juego") launch.gameArgs).or
      (validateArgumentList (units "del patcher") launch.patcherArgs)

def requiredLaunchFields : Option LaunchConfig → Except Units (List Units)
  | none => .ok []
  | some launch =>
    collectLaunchFields <|
      if effectiveLaunchStrategy launch = units "patcher" then launch.patcherArgs.getD []
      else launch.gameArgs.getD []

end Frontend

/-! ## The backend -/

namespace Backend

def maxLaunchArguments : Nat := 64
def maxLaunchArgumentLength : Nat := 4096
def maxLaunchTotalLength : Nat := 16384
def maxLaunchFields : Nat := 16
def maxLaunchFieldKeyLength : Nat := 32

/-- `char::is_whitespace`. -/
def isWhitespace (c : Char) : Bool :=
  (9 ≤ c.toNat && c.toNat ≤ 13) || c.toNat = 0x20 || c.toNat = 0x85 || c.toNat = 0xA0 ||
    c.toNat = 0x1680 || (0x2000 ≤ c.toNat && c.toNat ≤ 0x200A) || c.toNat = 0x2028 ||
    c.toNat = 0x2029 || c.toNat = 0x202F || c.toNat = 0x205F || c.toNat = 0x3000

def trim (value : String) : List Char := trimBy isWhitespace value.toList

/-- `char::is_control`. -/
def isControl (c : Char) : Bool := c.toNat ≤ 0x1f || (0x7f ≤ c.toNat && c.toNat ≤ 0x9f)

def containsControlCharacter (value : String) : Bool := value.toList.any isControl

def isAsciiAlphabetic (c : Char) : Bool :=
  (65 ≤ c.toNat && c.toNat ≤ 90) || (97 ≤ c.toNat && c.toNat ≤ 122)

def isAsciiAlphanumeric (c : Char) : Bool :=
  isAsciiAlphabetic c || (48 ≤ c.toNat && c.toNat ≤ 57)

def validateFieldKey (key : String) : Except String Unit :=
  let validStart := key.toList.head?.any isAsciiAlphabetic
  let validRest := key.toList.tail.all fun c => isAsciiAlphanumeric c || c = '_' || c = '-'
  if !validStart || !validRest || key.utf8ByteSize > maxLaunchFieldKeyLength then
    .error ("La clave de lanzamiento '$\x7b" ++ key ++
      "\x7d' no es válida; usa una letra inicial y hasta 32 letras, números, '_' o '-'")
  else .ok ()

/-- The loop of `template_fields`, from the cursor on. -/
def templateFieldsFrom (index : Nat) : Nat → List Char → Except String (List String)
  | 0, _ => .ok []
  | bound + 1, argument =>
    match find ['$', '\x7b'] argument with
    | none => .ok []
    | some start =>
      match find ['\x7d'] (argument.drop (start + 2)) with
      | none => .error ("El argumento " ++ toString (index + 1) ++
          " contiene un campo de lanzamiento sin cerrar")
      | some length => do
        let key := String.ofList ((argument.drop (start + 2)).take length)
        validateFieldKey key
        let fields ← templateFieldsFrom index bound (argument.drop (start + 2 + length + 1))
        .ok (key :: fields)

def templateFields (argument : String) (index : Nat) : Except String (List String) :=
  templateFieldsFrom index (argument.length + 1) argument.toList

def addField (fields : List String) (key : String) : Except String (List String) :=
  if key ∈ fields then .ok fields
  else if fields.length ≥ maxLaunchFields then
    .error "Los argumentos no pueden usar más de 16 campos"
  else .ok (fields ++ [key])

def extractFrom : Nat → List String → List String → Except String (List String)
  | _, [], fields => .ok fields
  | index, argument :: args, fields => do
    let keys ← templateFields argument index
    let fields ← keys.foldlM addField fields
    extractFrom (index + 1) args fields

def extractLaunchFields (args : List String) : Except String (List String) := extractFrom 0 args []

/-- The loop of `validate_argument_list`. -/
def checkArguments (label : String) : Nat → Nat → List String → Except String Unit
  | _, _, [] => .ok ()
  | index, totalLength, argument :: args => do
    let named := "El argumento " ++ label ++ " " ++ toString (index + 1)
    if trim argument = [] then .error (named ++ " no puede estar vacío")
    else if containsControlCharacter argument then
      .error (named ++ " contiene un carácter de control")
    else if argument.length > maxLaunchArgumentLength then
      .error (named ++ " no puede superar 4096 caracteres")
    else if totalLength + argument.length > maxLaunchTotalLength then
      .error ("Los argumentos " ++ label ++ " no pueden superar 16384 caracteres en total")
    else do
      let _ ← templateFields argument index
      checkArguments label (index + 1) (totalLength + argument.length) args

def validateArgumentList (label : String) (args : List String) : Except String Unit :=
  if args.length > maxLaunchArguments then
    .error ("Los argumentos " ++ label ++ " no pueden superar 64 elementos")
  else do
    checkArguments label 0 0 args
    let _ ← extractLaunchFields args
    .ok ()

inductive LaunchStrategy where
  | direct
  | patcher
  deriving DecidableEq, Repr

structure LaunchConfig where
  strategy : LaunchStrategy
  gameArgs : List String
  patcherArgs : List String
  requireWebview2 : Bool
  deriving DecidableEq, Repr

namespace LaunchConfig

/-- `LaunchConfig::default`. -/
def default : LaunchConfig := ⟨.direct, [], [], false⟩

def activeArgs (launch : LaunchConfig) : List String :=
  match launch.strategy with
  | .direct => launch.gameArgs
  | .patcher => launch.patcherArgs

def validate (launch : LaunchConfig) : Except String Unit := do
  validateArgumentList "del juego" launch.gameArgs
  validateArgumentList "del patcher" launch.patcherArgs

end LaunchConfig

end Backend

/-! ## In between -/

/-- A list of strings that arrives. -/
def receivedArgs (args : List Units) : Option (List String) := args.mapM fromUnits

def receivedStrategy (strategy : Option Units) : Option Backend.LaunchStrategy :=
  match strategy with
  | none => some .direct
  | some name =>
    if name = units "direct" then some .direct
    else if name = units "patcher" then some .patcher
    else none

/-- What the backend reads of the object, if it does: it denies unknown fields. -/
def receivedLaunch (launch : Frontend.LaunchConfig) : Option Backend.LaunchConfig := do
  guard (launch.otherKeys = [])
  let strategy ← receivedStrategy launch.strategy
  let gameArgs ← receivedArgs (launch.gameArgs.getD [])
  let patcherArgs ← receivedArgs (launch.patcherArgs.getD [])
  some ⟨strategy, gameArgs, patcherArgs, launch.requireWebview2.getD false⟩

end RoLauncher.Contracts
