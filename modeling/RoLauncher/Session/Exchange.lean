import RoLauncher.Session.Wire

/-!
# Launcher and supervisor on one wire

What the launcher sends and does not refuse, the supervisor reads line by line
as it was sent, in whatever pieces it arrives. What the supervisor says in reply
is the identifier of a request, the program it names, or a text of its own: with
identifiers that leave some room (`Short`; those of the launcher are UUIDs), no
event is over the bound. An identifier that fills a request comes back in an
event that is too long.
-/

namespace RoLauncher.Session.Wire

open Text Text.Json

/-! ## All that is written is printed -/

theorem changeText_printed (change : EnvironmentChange) : Printed (changeText change) := by
  apply object_printed
  intro field mem
  simp only [List.mem_cons, List.not_mem_nil, or_false] at mem
  rcases mem with rfl | rfl
  · exact quote_printed _
  · cases change.value with
    | none =>
      have null : Printed "null" := by decide
      exact null
    | some value => exact quote_printed value

theorem array_map_printed {α : Type} {items : List α} {write : α → String}
    (printed : ∀ item, Printed (write item)) : Printed (array (items.map write)) := by
  apply array_printed
  intro item mem
  obtain ⟨a, -, rfl⟩ := List.mem_map.mp mem
  exact printed a

theorem specText_printed (spec : ProcessSpec) : Printed (specText spec) := by
  apply object_printed
  intro field mem
  simp only [List.mem_cons, List.not_mem_nil, or_false] at mem
  rcases mem with rfl | rfl | rfl | rfl
  · exact quote_printed _
  · exact array_map_printed quote_printed
  · exact quote_printed _
  · exact array_map_printed changeText_printed

theorem nullable_printed {α : Type} {write : α → String} (printed : ∀ a, Printed (write a))
    (value : Option α) : Printed (nullable write value) := by
  cases value with
  | none =>
    have null : Printed "null" := by decide
    exact null
  | some a => exact printed a

theorem requestText_printed (request : SessionRequest) : Printed (requestText request) := by
  cases request with
  | hello protocolVersion =>
    apply object_printed
    simp only [List.forall_mem_cons, List.not_mem_nil, false_implies, implies_true, and_true]
    exact ⟨quote_printed _, repr_printed _⟩
  | launch requestId spec =>
    apply object_printed
    simp only [List.forall_mem_cons, List.not_mem_nil, false_implies, implies_true, and_true]
    exact ⟨quote_printed _, quote_printed _, specText_printed _⟩
  | shutdown requestId shutdownSpec graceMs =>
    apply object_printed
    simp only [List.forall_mem_cons, List.not_mem_nil, false_implies, implies_true, and_true]
    exact ⟨quote_printed _, quote_printed _, specText_printed _, repr_printed _⟩

theorem eventText_printed (event : SessionEvent) : Printed (eventText event) := by
  cases event with
  | launchAccepted requestId controllerPid controllerStartTime =>
    apply object_printed
    simp only [List.forall_mem_cons, List.not_mem_nil, false_implies, implies_true, and_true]
    exact ⟨quote_printed _, quote_printed _, repr_printed _, repr_printed _⟩
  | shutdownAccepted requestId =>
    apply object_printed
    simp only [List.forall_mem_cons, List.not_mem_nil, false_implies, implies_true, and_true]
    exact ⟨quote_printed _, quote_printed _⟩
  | controllerExited requestId controllerPid exitCode signal =>
    apply object_printed
    simp only [List.forall_mem_cons, List.not_mem_nil, false_implies, implies_true, and_true]
    exact ⟨quote_printed _, quote_printed _, repr_printed _, nullable_printed int_printed _,
      nullable_printed int_printed _⟩
  | error requestId stage errno message =>
    apply object_printed
    simp only [List.forall_mem_cons, List.not_mem_nil, false_implies, implies_true, and_true]
    exact ⟨quote_printed _, nullable_printed quote_printed _, quote_printed _,
      nullable_printed int_printed _, quote_printed _⟩
  | stopped =>
    apply object_printed
    simp only [List.forall_mem_cons, List.not_mem_nil, false_implies, implies_true, and_true]
    exact quote_printed _

theorem outputText_printed (output : Output) : Printed (outputText output) := by
  cases output with
  | ready protocolVersion supervisorPid prefixText subreaper =>
    apply object_printed
    simp only [List.forall_mem_cons, List.not_mem_nil, false_implies, implies_true, and_true]
    refine ⟨quote_printed _, repr_printed _, repr_printed _, quote_printed _, ?_⟩
    cases subreaper with
    | false =>
      have no : Printed "false" := by decide
      exact no
    | true =>
      have yes : Printed "true" := by decide
      exact yes
  | idle =>
    apply object_printed
    simp only [List.forall_mem_cons, List.not_mem_nil, false_implies, implies_true, and_true]
    exact quote_printed _
  | event event => exact eventText_printed event

/-! ## The lines of the requests -/

/-- What has begun in front of a line is the front of it. -/
theorem line_of_piece {piece rest line more : List UInt8} (begun : newline ∉ piece)
    (whole : piece ++ rest = line ++ newline :: more) :
    ∃ back, line = piece ++ back ∧ rest = back ++ newline :: more := by
  rcases List.append_eq_append_iff.mp whole with ⟨back, same, rest_⟩ | ⟨later, same, rest_⟩
  · exact ⟨back, same, rest_⟩
  · cases later with
    | nil =>
      rw [List.append_nil] at same
      exact ⟨[], by rw [same, List.append_nil], rest_.symm⟩
    | cons byte later =>
      rw [List.cons_append] at rest_
      cases rest_
      rw [same] at begun
      exact absurd (List.mem_append_right _ List.mem_cons_self) begun

/-- Arrivals that hold lines within the bound never forget a part of one. -/
theorem reported_of_lines {lines : List (List UInt8)} (clean : ∀ line ∈ lines, newline ∉ line)
    (short : ∀ line ∈ lines, line.length ≤ maxMessageBytes) {piece : List UInt8}
    (begun : newline ∉ piece) {arrivals : List (Option UInt8)}
    (whole : piece ++ arrivals.reduceOption = lines.flatMap fun line => line ++ [newline]) :
    Reported false piece.length arrivals := by
  induction arrivals generalizing piece lines with
  | nil =>
    intro never
    cases never
  | cons tick rest ih =>
    cases tick with
    | none =>
      rw [List.reduceOption_cons_of_none] at whole
      have small : piece.length ≤ maxMessageBytes := by
        cases lines with
        | nil =>
          rw [(List.append_eq_nil_iff.mp whole).1]
          exact Nat.zero_le _
        | cons line lines =>
          rw [List.flatMap_cons, List.append_assoc, List.singleton_append] at whole
          obtain ⟨back, rfl, -⟩ := line_of_piece begun whole
          have bound := short _ List.mem_cons_self
          rw [List.length_append] at bound
          omega
      rw [Reported, if_neg (Nat.not_lt.mpr small)]
      exact ih clean short begun whole
    | some byte =>
      rw [List.reduceOption_cons_of_some] at whole
      rw [Reported]
      split
      next ends =>
        constructor
        · intro never
          cases never
        cases lines with
        | nil =>
          have none := (List.append_eq_nil_iff.mp whole).2
          cases none
        | cons line lines =>
          rw [List.flatMap_cons, List.append_assoc, List.singleton_append] at whole
          obtain ⟨back, rfl, rest_⟩ := line_of_piece begun whole
          cases back with
          | nil =>
            rw [List.nil_append] at rest_
            have later : rest.reduceOption = lines.flatMap fun line => line ++ [newline] :=
              (List.cons.inj rest_).2
            exact @ih lines (fun line mem => clean line (List.mem_cons_of_mem _ mem))
              (fun line mem => short line (List.mem_cons_of_mem _ mem)) [] List.not_mem_nil later
          | cons first back =>
            rw [List.cons_append] at rest_
            have same : byte = first := (List.cons.inj rest_).1
            apply absurd _ (clean _ List.mem_cons_self)
            rw [← ends, same]
            exact List.mem_append_right _ List.mem_cons_self
      next other =>
        have more : (piece ++ [byte]).length = piece.length + 1 := List.length_append
        rw [← more]
        apply ih clean short
        · rw [List.mem_append, not_or]
          refine ⟨begun, ?_⟩
          intro mem
          exact other (List.mem_singleton.mp mem).symm
        · rw [List.append_assoc, List.singleton_append]
          exact whole

theorem frames_of_lines {texts : List String} (printed : ∀ text ∈ texts, Printed text)
    (some : ∀ text ∈ texts, text ≠ "")
    (short : ∀ text ∈ texts, text.utf8ByteSize ≤ maxMessageBytes) :
    frames (texts.flatMap lineBytes) = texts.map .ok := by
  induction texts with
  | nil => rfl
  | cons text texts ih =>
    have here := List.mem_cons_self (a := text) (l := texts)
    have clean : newline ∉ encode text.toList := newline_not_mem_encode (printed text here)
    have bound := short text here
    have blank : text.isEmpty = false := by
      simp [some text here]
    rw [List.flatMap_cons, lineBytes, List.append_assoc, List.singleton_append, frames_piece clean,
      pieceFrames, if_neg (by rw [length_lineBytes]; omega), fromUtf8_encode,
      ih (fun t mem => printed t (List.mem_cons_of_mem _ mem))
        (fun t mem => some t (List.mem_cons_of_mem _ mem))
        (fun t mem => short t (List.mem_cons_of_mem _ mem))]
    simp [blank]

/-- **The supervisor reads what the launcher sends**, in whatever pieces it arrives. -/
theorem delivered_lines {texts : List String} (printed : ∀ text ∈ texts, Printed text)
    (some : ∀ text ∈ texts, text ≠ "")
    (short : ∀ text ∈ texts, text.utf8ByteSize ≤ maxMessageBytes) {input : List Arrival}
    (sent : stream input = texts.flatMap lineBytes) :
    (BoundedLineReader.new input).delivered = texts.map .ok := by
  rw [← frames_of_lines printed some short, ← sent]
  apply (delivered_eq_frames_iff input).mpr
  have lines : [] ++ (ticks input).reduceOption =
      (texts.map fun text => encode text.toList).flatMap fun line => line ++ [newline] := by
    rw [List.nil_append, reduceOption_ticks, sent, List.flatMap_map]
    rfl
  apply @reported_of_lines _ ?_ ?_ [] List.not_mem_nil _ lines
  · intro line mem
    obtain ⟨text, inTexts, rfl⟩ := List.mem_map.mp mem
    exact newline_not_mem_encode (printed text inTexts)
  · intro line mem
    obtain ⟨text, inTexts, rfl⟩ := List.mem_map.mp mem
    rw [length_lineBytes]
    exact short text inTexts

/-! ## What the supervisor says -/

inductive Syscall where
  | pipe2
  | openDevNull
  | fork
  deriving DecidableEq, Repr

def Syscall.failed : Syscall → String
  | pipe2 => "pipe2 failed"
  | openDevNull => "open /dev/null failed"
  | fork => "fork failed"

/-- `LaunchControllerError::syscall`. -/
def syscallError (strerror : Int32 → String) (call : Syscall) (errno : Int32) :
    LaunchControllerError :=
  ⟨call.failed ++ ": " ++ strerror errno, some errno.toInt⟩

/-- `launch_controller`, up to what the system calls make of it. -/
def launchController (strerror : Int32 → String) (spec : ProcessSpec) (mergedEnv : Environment)
    (spawn : Except (Syscall × Int32) UInt32) : Except LaunchControllerError UInt32 :=
  if containsNul spec.program then .error ⟨"program contains NUL", none⟩
  else if spec.args.any containsNul then .error ⟨"arg contains NUL", none⟩
  else if containsNul spec.cwd then .error ⟨"cwd contains NUL", none⟩
  else if mergedEnv.any fun key value => containsNul key || containsNul value then
    .error ⟨"env contains NUL", none⟩
  else
    match spawn with
    | .error (call, errno) => .error (syscallError strerror call errno)
    | .ok controllerPid => .ok controllerPid

/-- What stays the same in a session. -/
structure Setting where
  codec : Codec
  strerror : Int32 → String
  ownedPrefix : Files.Place
  base : Environment

/-- What one request meets: the files at both validations, the system calls, the
start time of the new process, and the time. -/
structure Meeting where
  host : Host
  hostAgain : Host
  spawn : Except (Syscall × Int32) UInt32
  startTime : Option UInt64
  now : Nat

namespace SessionRequest

def requestId : SessionRequest → Option String
  | hello _ => none
  | launch requestId _ => some requestId
  | shutdown requestId _ _ => some requestId

/-- A hello has no spec; none is looked at. -/
def spec : SessionRequest → ProcessSpec
  | hello _ => ⟨"", [], "", []⟩
  | launch _ spec => spec
  | shutdown _ shutdownSpec _ => shutdownSpec

/-- The request without its spec. -/
def plain : SessionRequest → Session.SessionRequest
  | hello _ => .hello
  | launch requestId _ => .launch requestId
  | shutdown requestId _ graceMs => .shutdown requestId graceMs.toNat

end SessionRequest

namespace Setting

variable (setting : Setting)

def outcome (spec : ProcessSpec) (meeting : Meeting) : Outcome where
  validated := (validateSpecForLaunch meeting.host spec setting.ownedPrefix setting.base).map
    fun _ => ()
  validatedAgain := (validateSpecForLaunch meeting.hostAgain spec setting.ownedPrefix
    setting.base).map fun _ => ()
  forked := launchController setting.strerror spec (merge setting.base spec.env) meeting.spawn
  startTime := meeting.startTime
  now := meeting.now

/-- The main loop at a line. -/
def readLine (line : String) (meeting : Meeting) (sup : Supervisor) : Supervisor :=
  match setting.codec.request line with
  | .error e => sup.readLine (.error e) (setting.outcome ⟨"", [], "", []⟩ meeting)
  | .ok request => sup.readLine (.ok request.plain) (setting.outcome request.spec meeting)

def PROTOCOL_VERSION : UInt16 := 1

/-- `handshake`, at its first line. -/
def handshake (supervisorPid : UInt32) (line : String) : Output :=
  match setting.codec.request line with
  | .error e => .event (.error none "handshake" none ("invalid JSON: " ++ e))
  | .ok (.hello protocolVersion) =>
    if protocolVersion ≠ PROTOCOL_VERSION then
      .event (.error none "handshake" none
        ("unsupported protocol version " ++ protocolVersion.toNat.repr))
    else .ready PROTOCOL_VERSION supervisorPid (placeText setting.ownedPrefix) true
  | .ok _ => .event (.error none "handshake" none "first request must be Hello")

end Setting

/-- An `i32`, if there is one. -/
def IsCode (code : Option Int) : Prop := ∀ n, code = some n → n.natAbs ≤ 2 ^ 31

def Coded : Reaping → Prop
  | .reaped _ exitCode signal => IsCode exitCode ∧ IsCode signal
  | _ => True

/-- What happens to a supervisor between two lines. -/
inductive Turn (sup : Supervisor) : Supervisor → Prop
  | forced (now : Nat) : Turn sup (sup.beginForcedShutdown now)
  | drain {reapings : List Reaping} (coded : ∀ reaping ∈ reapings, Coded reaping) :
      Turn sup (Supervisor.drainReapEvents reapings sup)
  | advance {before behind : List Reaping} (now later : Nat)
      (coded : ∀ reaping ∈ before, Coded reaping) (coded' : ∀ reaping ∈ behind, Coded reaping) :
      Turn sup (sup.advanceShutdown before now later behind)
  | adopted (pid : UInt32) : Turn sup { sup with children := pid :: sup.children }
  | exit : Turn sup (sup.emit .stopped)

/-- A supervisor that has heard these lines since the handshake. -/
inductive Heard (setting : Setting) : List String → Supervisor → Prop
  | start : Heard setting [] .new
  | line {lines : List String} {sup : Supervisor} (text : String) (meeting : Meeting) :
      Heard setting lines sup → Heard setting (lines ++ [text]) (setting.readLine text meeting sup)
  | turn {lines : List String} {sup sup' : Supervisor} :
      Heard setting lines sup → Turn sup sup' → Heard setting lines sup'

/-- What a supervisor may write that is sent these lines. -/
inductive Said (setting : Setting) (lines : List String) : Output → Prop
  | handshake (supervisorPid : UInt32) (first : String) : lines.head? = some first →
      Said setting lines (setting.handshake supervisorPid first)
  | idle : Said setting lines .idle
  | reply {heard : List String} {sup : Supervisor} {event : SessionEvent} :
      heard <+: lines.tail → Heard setting heard sup → event ∈ sup.events →
      Said setting lines (.event event)

/-! ## How long events are -/

/-- An event that the launcher reads. -/
def Fit (event : SessionEvent) : Prop := (eventText event).utf8ByteSize ≤ maxMessageBytes

/-- An identifier that leaves room for the rest of an event. -/
def Short (requestId : String) : Prop := (escape requestId).utf8ByteSize + 512 ≤ maxMessageBytes

def Brief (message : String) : Prop := (escape message).utf8ByteSize ≤ 300

theorem size_code {code : Option Int} (small : IsCode code) :
    (nullable intText code).utf8ByteSize ≤ 11 := by
  cases code with
  | none => decide
  | some n => exact size_int_le (by decide) (Nat.lt_of_le_of_lt (small n rfl) (by decide))

theorem size_error (requestId : Option String) (stage : String) (errno : Option Int)
    (message : String) :
    (eventText (.error requestId stage errno message)).utf8ByteSize =
      62 + (nullable quote requestId).utf8ByteSize + (escape stage).utf8ByteSize +
        (nullable intText errno).utf8ByteSize + (escape message).utf8ByteSize := by
  have key1 : (escape "type").utf8ByteSize = 4 := size_escape_ofList _
  have key2 : (escape "requestId").utf8ByteSize = 9 := size_escape_ofList _
  have key3 : (escape "stage").utf8ByteSize = 5 := size_escape_ofList _
  have key4 : (escape "errno").utf8ByteSize = 5 := size_escape_ofList _
  have key5 : (escape "message").utf8ByteSize = 7 := size_escape_ofList _
  have kind : (escape "error").utf8ByteSize = 5 := size_escape_ofList _
  rw [eventText, size_object (List.cons_ne_nil _ _)]
  simp only [List.map_cons, List.map_nil, List.sum_cons, List.sum_nil, size_quote, key1, key2, key3,
    key4, key5, kind]
  omega

theorem fit_error {requestId stage message : String} {errno : Option Int} (short : Short requestId)
    (stage_ : (escape stage).utf8ByteSize ≤ 10) (code : IsCode errno) (brief : Brief message) :
    Fit (.error (some requestId) stage errno message) := by
  have number := size_code code
  have id : (nullable quote (some requestId)).utf8ByteSize = (escape requestId).utf8ByteSize + 2 :=
    size_quote requestId
  unfold Fit
  rw [size_error, id]
  unfold Short at short
  unfold Brief at brief
  omega

theorem fit_anonymous {stage message : String} (stage_ : (escape stage).utf8ByteSize ≤ 10)
    (brief : (escape message).utf8ByteSize ≤ 1000) : Fit (.error none stage none message) := by
  have null : (nullable quote none).utf8ByteSize = 4 := by decide
  have null' : (nullable intText none).utf8ByteSize = 4 := by decide
  have bound : maxMessageBytes = 1048576 := rfl
  unfold Fit
  rw [size_error, null, null']
  omega

theorem fit_launchAccepted {requestId : String} (short : Short requestId) (pid : UInt32)
    (start : UInt64) : Fit (.launchAccepted requestId pid start) := by
  have key1 : (escape "type").utf8ByteSize = 4 := size_escape_ofList _
  have key2 : (escape "requestId").utf8ByteSize = 9 := size_escape_ofList _
  have key3 : (escape "controllerPid").utf8ByteSize = 13 := size_escape_ofList _
  have key4 : (escape "controllerStartTime").utf8ByteSize = 19 := size_escape_ofList _
  have kind : (escape "launchAccepted").utf8ByteSize = 14 := size_escape_ofList _
  have pid_ : pid.toNat.repr.utf8ByteSize ≤ 10 :=
    size_repr_le (by decide) (Nat.lt_trans pid.toNat_lt (by decide))
  have start_ : start.toNat.repr.utf8ByteSize ≤ 20 :=
    size_repr_le (by decide) (Nat.lt_trans start.toNat_lt (by decide))
  unfold Fit
  rw [eventText, size_object (List.cons_ne_nil _ _)]
  simp only [List.map_cons, List.map_nil, List.sum_cons, List.sum_nil, size_quote, key1, key2, key3,
    key4, kind]
  unfold Short at short
  omega

theorem fit_shutdownAccepted {requestId : String} (short : Short requestId) :
    Fit (.shutdownAccepted requestId) := by
  have key1 : (escape "type").utf8ByteSize = 4 := size_escape_ofList _
  have key2 : (escape "requestId").utf8ByteSize = 9 := size_escape_ofList _
  have kind : (escape "shutdownAccepted").utf8ByteSize = 16 := size_escape_ofList _
  unfold Fit
  rw [eventText, size_object (List.cons_ne_nil _ _)]
  simp only [List.map_cons, List.map_nil, List.sum_cons, List.sum_nil, size_quote, key1, key2, kind]
  unfold Short at short
  omega

theorem fit_controllerExited {requestId : String} (short : Short requestId) (pid : UInt32)
    {exitCode signal : Option Int} (code : IsCode exitCode) (code' : IsCode signal) :
    Fit (.controllerExited requestId pid exitCode signal) := by
  have key1 : (escape "type").utf8ByteSize = 4 := size_escape_ofList _
  have key2 : (escape "requestId").utf8ByteSize = 9 := size_escape_ofList _
  have key3 : (escape "controllerPid").utf8ByteSize = 13 := size_escape_ofList _
  have key4 : (escape "exitCode").utf8ByteSize = 8 := size_escape_ofList _
  have key5 : (escape "signal").utf8ByteSize = 6 := size_escape_ofList _
  have kind : (escape "controllerExited").utf8ByteSize = 16 := size_escape_ofList _
  have pid_ : pid.toNat.repr.utf8ByteSize ≤ 10 :=
    size_repr_le (by decide) (Nat.lt_trans pid.toNat_lt (by decide))
  have number := size_code code
  have number' := size_code code'
  unfold Fit
  rw [eventText, size_object (List.cons_ne_nil _ _)]
  simp only [List.map_cons, List.map_nil, List.sum_cons, List.sum_nil, size_quote, key1, key2, key3,
    key4, key5, kind]
  unfold Short at short
  omega

theorem fit_stopped : Fit .stopped := by
  unfold Fit
  decide

/-! ## What errors say -/

/-- The texts of the supervisor about a spec that name nothing of it. -/
def plainMessages : List String :=
  [ValidationError.emptyEnvKey.message, ValidationError.invalidEnvKey.message,
    ValidationError.duplicateEnvKey.message, ValidationError.envValueContainsNul.message,
    ValidationError.tooManyArgs.message, ValidationError.missingWinePrefix.message,
    ValidationError.multipleWinePrefix.message, ValidationError.winePrefixUnset.message,
    "program must be an absolute path", "cwd must be an absolute path",
    "cwd inaccessible: file name contained an unexpected NUL byte",
    "cwd inaccessible: No such file or directory (os error 2)",
    "cwd inaccessible: Not a directory (os error 20)",
    "cwd inaccessible: Too many levels of symbolic links (os error 40)",
    "cwd inaccessible: File exists (os error 17)", "cwd must be a directory",
    "WINEPREFIX missing after merge", "WINEPREFIX path could not be canonicalized",
    "WINEPREFIX does not match owned prefix", "STEAM_COMPAT_DATA_PATH could not be canonicalized",
    "STEAM_COMPAT_DATA_PATH does not match owned prefix"]

theorem plainMessages_brief : ∀ message ∈ plainMessages, (escape message).utf8ByteSize ≤ 100 := by
  unfold plainMessages
  simp only [List.forall_mem_cons, List.not_mem_nil, false_implies, implies_true, and_true]
  and_intros
  all_goals
    apply size_escape_le
    decide

theorem message_mem (e : ValidationError) : e.message ∈ plainMessages := by
  cases e <;> simp [plainMessages]

variable {host : Host} {spec : ProcessSpec} {ownedPrefix : Files.Place} {base env : Environment}
  {message : String}

theorem metadata_error (failed : metadata host spec.cwd = .error message) :
    "cwd inaccessible: " ++ message ∈ plainMessages := by
  unfold metadata at failed
  split_ifs at failed with nul
  · cases failed
    simp [plainMessages]
  · split at failed
    next => cases failed
    next errno _ =>
      cases failed
      cases errno <;> simp [plainMessages, errnoText]

theorem checkPrefix_error (failed : checkPrefix host ownedPrefix env = .error message) :
    message ∈ plainMessages := by
  unfold checkPrefix at failed
  split at failed
  next =>
    cases failed
    simp [plainMessages]
  next =>
    split at failed
    next =>
      cases failed
      simp [plainMessages]
    next =>
      split at failed
      next =>
        cases failed
        simp [plainMessages]
      next =>
        split at failed
        next => cases failed
        next =>
          split at failed
          next =>
            cases failed
            simp [plainMessages]
          next =>
            split at failed
            next =>
              cases failed
              simp [plainMessages]
            next => cases failed

/-- A refusal names the program of a spec that is well formed, or nothing. -/
theorem validateSpecForLaunch_error
    (failed : validateSpecForLaunch host spec ownedPrefix base = .error message) :
    message ∈ plainMessages ∨
      WellFormed spec ∧ message = "program is not executable: " ++ spec.program := by
  unfold validateSpecForLaunch at failed
  split at failed
  next e _ =>
    cases failed
    exact Or.inl (message_mem e)
  next valid =>
    split at failed
    next =>
      cases failed
      left
      simp [plainMessages]
    split at failed
    next =>
      cases failed
      exact Or.inr ⟨(validateProcessSpecStructure_ok spec).mp valid, rfl⟩
    split at failed
    next =>
      cases failed
      left
      simp [plainMessages]
    split at failed
    next e inaccessible =>
      cases failed
      exact Or.inl (metadata_error inaccessible)
    next =>
      split at failed
      next =>
        cases failed
        left
        simp [plainMessages]
      next => exact Or.inl (checkPrefix_error failed)

theorem brief_of_plain (plain : message ∈ plainMessages) : Brief message := by
  have := plainMessages_brief message plain
  unfold Brief
  omega

/-! ## A message that names the program is no longer than the request -/

theorem size_change_ge (change : EnvironmentChange) :
    (escape change.key).utf8ByteSize + 21 ≤ (changeText change).utf8ByteSize := by
  have key1 : (escape "key").utf8ByteSize = 3 := size_escape_ofList _
  have key2 : (escape "value").utf8ByteSize = 5 := size_escape_ofList _
  have value : 2 ≤ (nullable quote change.value).utf8ByteSize := by
    cases change.value with
    | none => decide
    | some value =>
      have := size_quote value
      have same : nullable quote (some value) = quote value := rfl
      rw [same]
      omega
  rw [changeText, size_object (List.cons_ne_nil _ _)]
  simp only [List.map_cons, List.map_nil, List.sum_cons, List.sum_nil, size_quote, key1, key2]
  omega

theorem size_spec_ge (wellFormed : WellFormed spec) :
    (escape spec.program).utf8ByteSize + 73 ≤ (specText spec).utf8ByteSize := by
  have key1 : (escape "program").utf8ByteSize = 7 := size_escape_ofList _
  have key2 : (escape "args").utf8ByteSize = 4 := size_escape_ofList _
  have key3 : (escape "cwd").utf8ByteSize = 3 := size_escape_ofList _
  have key4 : (escape "env").utf8ByteSize = 3 := size_escape_ofList _
  have owned : (escape "WINEPREFIX").utf8ByteSize = 10 := size_escape_ofList _
  obtain ⟨change, mem, named⟩ := List.mem_map.mp wellFormed.winePrefix
  have entry := size_change_ge change
  have item := size_item_le (List.mem_map_of_mem (f := changeText) mem)
  have args : 2 ≤ (array (spec.args.map quote)).utf8ByteSize := size_array_ge _
  rw [named, owned] at entry
  rw [specText, size_object (List.cons_ne_nil _ _)]
  simp only [List.map_cons, List.map_nil, List.sum_cons, List.sum_nil, size_quote, key1, key2, key3,
    key4]
  omega

theorem size_launch (requestId : String) (spec : ProcessSpec) :
    (requestText (.launch requestId spec)).utf8ByteSize =
      40 + (escape requestId).utf8ByteSize + (specText spec).utf8ByteSize := by
  have key1 : (escape "type").utf8ByteSize = 4 := size_escape_ofList _
  have key2 : (escape "requestId").utf8ByteSize = 9 := size_escape_ofList _
  have key3 : (escape "spec").utf8ByteSize = 4 := size_escape_ofList _
  have kind : (escape "launch").utf8ByteSize = 6 := size_escape_ofList _
  rw [requestText, size_object (List.cons_ne_nil _ _)]
  simp only [List.map_cons, List.map_nil, List.sum_cons, List.sum_nil, size_quote, key1, key2, key3,
    kind]
  omega

theorem size_shutdown (requestId : String) (spec : ProcessSpec) (graceMs : UInt64) :
    61 + (escape requestId).utf8ByteSize + (specText spec).utf8ByteSize ≤
      (requestText (.shutdown requestId spec graceMs)).utf8ByteSize := by
  have key1 : (escape "type").utf8ByteSize = 4 := size_escape_ofList _
  have key2 : (escape "requestId").utf8ByteSize = 9 := size_escape_ofList _
  have key3 : (escape "shutdownSpec").utf8ByteSize = 12 := size_escape_ofList _
  have key4 : (escape "graceMs").utf8ByteSize = 7 := size_escape_ofList _
  have kind : (escape "shutdown").utf8ByteSize = 8 := size_escape_ofList _
  rw [requestText, size_object (List.cons_ne_nil _ _)]
  simp only [List.map_cons, List.map_nil, List.sum_cons, List.sum_nil, size_quote, key1, key2, key3,
    key4, kind]
  omega

/-! ## Replies to a request that was sent -/

theorem isCode_none : IsCode none := by
  intro n never
  cases never

/-- The refusal of a spec fits when the request it stands in does. -/
theorem fit_refusal {requestId stage : String} (short : Short requestId)
    (stage_ : (escape stage).utf8ByteSize ≤ 10)
    (sent : 40 + (escape requestId).utf8ByteSize + (specText spec).utf8ByteSize ≤ maxMessageBytes)
    (failed : validateSpecForLaunch host spec ownedPrefix base = .error message) :
    Fit (.error (some requestId) stage none message) := by
  rcases validateSpecForLaunch_error failed with plain | ⟨wellFormed, rfl⟩
  · exact fit_error short stage_ isCode_none (brief_of_plain plain)
  · have whole := size_spec_ge wellFormed
    have words : (escape "program is not executable: ").utf8ByteSize = 27 := size_escape_ofList _
    have null : (nullable intText none).utf8ByteSize = 4 := by decide
    have id : (nullable quote (some requestId)).utf8ByteSize =
        (escape requestId).utf8ByteSize + 2 := size_quote requestId
    unfold Fit
    rw [size_error, id, null, escape_append, String.utf8ByteSize_append, words]
    omega

/-- So does a refusal that is reported without the request. -/
theorem fit_refusal_again {requestId : String}
    (sent : 61 + (escape requestId).utf8ByteSize + (specText spec).utf8ByteSize ≤ maxMessageBytes)
    (failed : validateSpecForLaunch host spec ownedPrefix base = .error message) :
    Fit (.error none "protocol" none ("invalid request: " ++ message)) := by
  have stage : (escape "protocol").utf8ByteSize = 8 := size_escape_ofList _
  have invalid : (escape "invalid request: ").utf8ByteSize = 17 := size_escape_ofList _
  rcases validateSpecForLaunch_error failed with plain | ⟨wellFormed, rfl⟩
  · have := plainMessages_brief message plain
    apply fit_anonymous (by omega)
    rw [escape_append, String.utf8ByteSize_append, invalid]
    omega
  · have whole := size_spec_ge wellFormed
    have words : (escape "program is not executable: ").utf8ByteSize = 27 := size_escape_ofList _
    have null : (nullable intText none).utf8ByteSize = 4 := by decide
    have null' : (nullable quote none).utf8ByteSize = 4 := by decide
    unfold Fit
    rw [size_error, null, null', stage, escape_append, String.utf8ByteSize_append, invalid,
      escape_append, String.utf8ByteSize_append, words]
    omega

theorem launchController_error {strerror : Int32 → String}
    (texts : ∀ errno, (escape (strerror errno)).utf8ByteSize ≤ 256)
    {spawn : Except (Syscall × Int32) UInt32} {err : LaunchControllerError}
    (failed : launchController strerror spec env spawn = .error err) :
    Brief err.message ∧ IsCode err.errno := by
  have nul : ∀ text ∈ ["program contains NUL", "arg contains NUL", "cwd contains NUL",
      "env contains NUL"], Brief text := by
    unfold Brief
    decide
  unfold launchController at failed
  split at failed
  next =>
    cases failed
    exact ⟨nul _ (by simp), isCode_none⟩
  split at failed
  next =>
    cases failed
    exact ⟨nul _ (by simp), isCode_none⟩
  split at failed
  next =>
    cases failed
    exact ⟨nul _ (by simp), isCode_none⟩
  split at failed
  next =>
    cases failed
    exact ⟨nul _ (by simp), isCode_none⟩
  split at failed
  next call errno =>
    cases failed
    constructor
    · have colon : (escape ": ").utf8ByteSize = 2 := size_escape_ofList _
      have named : (escape call.failed).utf8ByteSize ≤ 21 := by cases call <;> decide
      have text := texts errno
      unfold Brief syscallError
      rw [escape_append, String.utf8ByteSize_append, escape_append, String.utf8ByteSize_append, colon]
      omega
    · intro n same
      cases same
      have low := Int32.le_toInt errno
      have high := Int32.toInt_lt errno
      omega
  next => cases failed

/-! ## A supervisor whose events all fit -/

structure Fits (sup : Supervisor) : Prop where
  events : ∀ event ∈ sup.events, Fit event
  ids : ∀ pid id, sup.pidToRequest.lookup pid = some id → Short id

namespace Fits

variable {sup : Supervisor} {event : SessionEvent} {requestId : String}

theorem new : Fits .new where
  events := by
    intro event never
    cases never
  ids := by
    intro pid id never
    cases never

theorem emit (h : Fits sup) (fit : Fit event) : Fits (sup.emit event) where
  events := by
    intro event' mem
    rcases List.mem_append.mp mem with mem | mem
    · exact h.events event' mem
    · rw [List.mem_singleton.mp mem]
      exact fit
  ids := h.ids

theorem spawned (h : Fits sup) (short : Short requestId) (pid : UInt32) (isShutdown : Bool) :
    Fits (sup.spawned pid requestId isShutdown) where
  events := h.events
  ids := by
    intro pid' id named
    have look : (sup.pidToRequest.insert pid requestId).lookup pid' = some id := named
    rw [Tables.Table.lookup_insert_of] at look
    split at look
    next =>
      cases look
      exact short
    next => exact h.ids pid' id look

theorem beginForcedShutdown (h : Fits sup) (now : Nat) : Fits (sup.beginForcedShutdown now) := by
  unfold Supervisor.beginForcedShutdown
  split
  next => exact h
  next => exact ⟨h.events, h.ids⟩

/-- The supervisor's own texts. -/
theorem validation (h : Fits sup) (short : Short requestId) {message : String}
    (brief : Brief message) : Fits (sup.emitValidationError (some requestId) message) := by
  apply h.emit
  exact fit_error short (size_escape_le (by decide)) isCode_none brief

theorem handleLaunch (h : Fits sup) (short : Short requestId) {outcome : Outcome}
    (refused : ∀ message, outcome.validated = .error message →
      Fit (.error (some requestId) "validation" none message))
    (failed : ∀ err, outcome.forked = .error err → Brief err.message ∧ IsCode err.errno) :
    Fits (sup.handleLaunch requestId outcome).2 := by
  unfold Supervisor.handleLaunch
  split
  next => exact h.validation short (by unfold Brief; exact size_escape_le (by decide))
  split
  next => exact h.validation short (by unfold Brief; exact size_escape_le (by decide))
  have known : Fits { sup with requestIds := requestId :: sup.requestIds } := ⟨h.events, h.ids⟩
  dsimp only
  split
  next => exact known.validation short (by unfold Brief; exact size_escape_le (by decide))
  split
  next message invalid => exact known.emit (refused message invalid)
  split
  next err unforked =>
    obtain ⟨brief, code⟩ := failed err unforked
    exact known.emit (fit_error short (size_escape_le (by decide)) code brief)
  next pid forked =>
    have running := known.spawned short pid false
    split
    next => exact ⟨running.events, running.ids⟩
    next start _ =>
      have counted : Fits { (Supervisor.spawned pid requestId false
          { sup with requestIds := requestId :: sup.requestIds }) with
          inFlight := sup.inFlight + 1 } := ⟨running.events, running.ids⟩
      exact counted.emit (fit_launchAccepted short pid start)

theorem handleShutdown (h : Fits sup) (short : Short requestId) (graceMs : Nat) {outcome : Outcome}
    (refused : ∀ message, outcome.validated = .error message →
      Fit (.error (some requestId) "shutdown" none message))
    (failed : ∀ err, outcome.forked = .error err → Brief err.message ∧ IsCode err.errno) :
    Fits (sup.handleShutdown requestId graceMs outcome).2 := by
  unfold Supervisor.handleShutdown
  split
  next => exact h.validation short (by unfold Brief; exact size_escape_le (by decide))
  split
  next => exact h.validation short (by unfold Brief; exact size_escape_le (by decide))
  split
  next => exact h.validation short (by unfold Brief; exact size_escape_le (by decide))
  have known : Fits { sup with
      requestIds := requestId :: sup.requestIds
      phase := .stopping
      shutdownRequestId := some requestId
      shutdownGraceMs := clampGraceMs graceMs } := ⟨h.events, h.ids⟩
  dsimp only
  split
  next message invalid => exact (known.emit (refused message invalid)).beginForcedShutdown _
  split
  next => exact known
  split
  next pid forked =>
    have running := known.spawned short pid true
    have timed : Fits { (Supervisor.spawned pid requestId true { sup with
        requestIds := requestId :: sup.requestIds
        phase := .stopping
        shutdownRequestId := some requestId
        shutdownGraceMs := clampGraceMs graceMs }) with
        shutdownDeadline := some (outcome.now + clampGraceMs graceMs) } :=
      ⟨running.events, running.ids⟩
    exact timed.emit (fit_shutdownAccepted short)
  next err unforked =>
    obtain ⟨brief, code⟩ := failed err unforked
    exact (known.emit (fit_error short (size_escape_le (by decide)) code brief)).beginForcedShutdown _

/-- An error that ends `handle_line` is one of two: an identity that cannot be
read, or a spec that validates once and not twice. -/
theorem handleLine_error {request : Session.SessionRequest} {outcome : Outcome} {e : String}
    (failed : (sup.handleLine (.ok request) outcome).1 = .error e) :
    e = "failed to capture unreaped controller identity" ∨
      (∃ id grace, request = .shutdown id grace) ∧ outcome.validatedAgain = .error e := by
  cases request with
  | hello => cases failed
  | launch id =>
    left
    have launched : (sup.handleLaunch id outcome).1 = .error e := failed
    unfold Supervisor.handleLaunch at launched
    split at launched
    next => cases launched
    split at launched
    next => cases launched
    dsimp only at launched
    split at launched
    next => cases launched
    split at launched
    next => cases launched
    split at launched
    next => cases launched
    split at launched
    next =>
      cases launched
      rfl
    next => cases launched
  | shutdown id grace =>
    right
    refine ⟨⟨id, grace, rfl⟩, ?_⟩
    have stopped : (sup.handleShutdown id grace outcome).1 = .error e := failed
    unfold Supervisor.handleShutdown at stopped
    split at stopped
    next => cases stopped
    split at stopped
    next => cases stopped
    split at stopped
    next => cases stopped
    dsimp only at stopped
    split at stopped
    next => cases stopped
    split at stopped
    next message invalid =>
      cases stopped
      exact invalid
    split at stopped
    next => cases stopped
    next => cases stopped

/-- A request whose replies fit keeps the events fitting. -/
theorem readLine_plain {request : Session.SessionRequest} {outcome : Outcome}
    (handled : Fits (sup.handleLine (.ok request) outcome).2)
    (again : ∀ id grace message, request = .shutdown id grace →
      outcome.validatedAgain = .error message →
        Fit (.error none "protocol" none ("invalid request: " ++ message))) :
    Fits (sup.readLine (.ok request) outcome) := by
  unfold Supervisor.readLine
  cases result : sup.handleLine (.ok request) outcome with
  | mk answer sup' =>
    rw [result] at handled
    cases answer with
    | ok _ => exact handled
    | error e =>
      apply handled.emit
      have failed : (sup.handleLine (.ok request) outcome).1 = .error e := by rw [result]
      rcases handleLine_error failed with rfl | ⟨⟨id, grace, same⟩, invalid⟩
      · exact fit_anonymous (size_escape_le (by decide)) (by decide)
      · exact again id grace e same invalid

theorem reap (h : Fits sup) (pid : UInt32) {exitCode signal : Option Int} (code : IsCode exitCode)
    (code' : IsCode signal) : Fits (sup.reap pid exitCode signal) := by
  unfold Supervisor.reap
  dsimp only
  split
  next => exact ⟨h.events, h.ids⟩
  next id named =>
    have short := h.ids pid id named
    have dropped : ∀ pid' id', (sup.pidToRequest.erase pid).lookup pid' = some id' → Short id' := by
      intro pid' id' look
      rw [Tables.Table.lookup_erase_of] at look
      split at look
      next => cases look
      next => exact h.ids pid' id' look
    split
    next => exact ⟨h.events, dropped⟩
    next =>
      refine ⟨?_, dropped⟩
      intro event mem
      rcases List.mem_append.mp mem with mem | mem
      · exact h.events event mem
      · rw [List.mem_singleton.mp mem]
        exact fit_controllerExited short pid code code'

theorem drain {reapings : List Reaping} (h : Fits sup)
    (coded : ∀ reaping ∈ reapings, Coded reaping) :
    Fits (Supervisor.drainReapEvents reapings sup) := by
  induction reapings generalizing sup with
  | nil => exact h
  | cons reaping reapings ih =>
    have later : ∀ reaping ∈ reapings, Coded reaping :=
      fun reaping mem => coded reaping (List.mem_cons_of_mem _ mem)
    cases reaping with
    | adopted pid =>
      have adopted : Fits { sup with children := pid :: sup.children } := ⟨h.events, h.ids⟩
      exact ih adopted later
    | reaped pid exitCode signal =>
      obtain ⟨code, code'⟩ := coded _ List.mem_cons_self
      exact ih (h.reap pid code code') later
    | nothing => exact ⟨h.events, h.ids⟩
    | echild => exact ⟨h.events, h.ids⟩

theorem turn {sup' : Supervisor} (h : Fits sup) (turn : Turn sup sup') : Fits sup' := by
  cases turn with
  | forced now => exact h.beginForcedShutdown now
  | drain coded => exact h.drain coded
  | @advance before behind now later coded coded' =>
    unfold Supervisor.advanceShutdown
    split
    next => exact h
    have drained := h.drain coded
    dsimp only
    split
    next => exact ⟨drained.events, drained.ids⟩
    have last : ∀ sup'' : Supervisor, Fits sup'' →
        Fits (if sup''.termSentAt.isSome ∧ sup''.lastWaitEchild then { sup'' with phase := .stopped }
          else sup'') := by
      intro sup'' fits
      split
      next => exact ⟨fits.events, fits.ids⟩
      next => exact fits
    apply last
    apply Fits.drain _ coded'
    split <;> split <;> exact ⟨drained.events, drained.ids⟩
  | adopted pid => exact ⟨h.events, h.ids⟩
  | exit => exact h.emit fit_stopped

/-- One request that was sent, under an identifier that leaves room. -/
theorem readLine {setting : Setting} {request : SessionRequest} (h : Fits sup)
    (texts : ∀ errno, (escape (setting.strerror errno)).utf8ByteSize ≤ 256)
    (short : ∀ id, request.requestId = some id → Short id)
    (sent : (requestText request).utf8ByteSize ≤ maxMessageBytes)
    (decodes : setting.codec.request (requestText request) = .ok request) (meeting : Meeting) :
    Fits (setting.readLine (requestText request) meeting sup) := by
  unfold Setting.readLine
  rw [decodes]
  dsimp only
  have launched : ∀ spec err, (setting.outcome spec meeting).forked = .error err →
      Brief err.message ∧ IsCode err.errno := fun spec err failed =>
    launchController_error texts failed
  have refusedOf : ∀ {host : Host} {spec : ProcessSpec} {message : String},
      (validateSpecForLaunch host spec setting.ownedPrefix setting.base).map (fun _ => ()) =
        .error message →
      validateSpecForLaunch host spec setting.ownedPrefix setting.base = .error message := by
    intro host spec message failed
    cases valid : validateSpecForLaunch host spec setting.ownedPrefix setting.base with
    | ok env =>
      rw [valid] at failed
      cases failed
    | error e =>
      rw [valid] at failed
      cases failed
      rfl
  cases request with
  | hello protocolVersion =>
    apply readLine_plain
    · have rejected : Fits (sup.emitValidationError none "second Hello rejected") :=
        h.emit (fit_anonymous (size_escape_le (by decide)) (by decide))
      exact rejected.beginForcedShutdown _
    · intro id grace message never
      cases never
  | launch id spec =>
    have size := size_launch id spec
    apply readLine_plain
    · apply h.handleLaunch (short id rfl) _ (launched spec)
      intro message refused
      apply fit_refusal (short id rfl) (size_escape_le (by decide)) (by omega) (refusedOf refused)
    · intro id grace message never
      cases never
  | shutdown id spec graceMs =>
    have size := size_shutdown id spec graceMs
    apply readLine_plain
    · apply h.handleShutdown (short id rfl) _ _ (launched spec)
      intro message refused
      apply fit_refusal (short id rfl) (size_escape_le (by decide)) (by omega) (refusedOf refused)
    · intro id' grace message _ refused
      have room : 61 + (escape id).utf8ByteSize + (specText spec).utf8ByteSize ≤ maxMessageBytes := by
        omega
      exact fit_refusal_again room (refusedOf refused)

end Fits

/-! ## Agreement -/

/-- What is promised of a session: the supervisor gets every request as it was
sent, however it arrives, and the launcher every event as it was emitted. -/
structure Agree (setting : Setting) (requests : List SessionRequest) : Prop where
  heard : ∀ input, stream input = requests.flatMap (fun request => lineBytes (requestText request)) →
    (BoundedLineReader.new input).delivered.map (fun line => line.map setting.codec.request) =
      requests.map fun request => .ok (.ok request)
  told : ∀ outputs : List Output, (∀ output ∈ outputs, Said setting (requests.map requestText) output) →
    (∀ output ∈ outputs, setting.codec.output (outputText output) = .ok output) →
    readEvents setting.codec (outputs.flatMap emit) = outputs.map .ok

variable {setting : Setting} {requests : List SessionRequest}

theorem object_ne_empty {fields : List (String × String)} (some : fields ≠ []) :
    object fields ≠ "" := by
  intro empty
  have size := size_object some
  rw [empty] at size
  have none : "".utf8ByteSize = 0 := rfl
  omega

theorem requestText_ne_empty (request : SessionRequest) : requestText request ≠ "" := by
  cases request with
  | hello _ => exact object_ne_empty (List.cons_ne_nil _ _)
  | launch _ _ => exact object_ne_empty (List.cons_ne_nil _ _)
  | shutdown _ _ _ => exact object_ne_empty (List.cons_ne_nil _ _)

theorem outputText_ne_empty (output : Output) : outputText output ≠ "" := by
  cases output with
  | ready _ _ _ _ => exact object_ne_empty (List.cons_ne_nil _ _)
  | idle => exact object_ne_empty (List.cons_ne_nil _ _)
  | event event => cases event <;> exact object_ne_empty (List.cons_ne_nil _ _)

theorem sendRequest_ok {request : SessionRequest} {bytes : List UInt8}
    (sent : sendRequest request = .ok bytes) :
    (requestText request).utf8ByteSize ≤ maxMessageBytes ∧ bytes = lineBytes (requestText request) := by
  unfold sendRequest at sent
  split at sent
  next => cases sent
  next short =>
    cases sent
    exact ⟨Nat.le_of_not_lt short, rfl⟩

theorem sendRequest_of_size {request : SessionRequest}
    (short : (requestText request).utf8ByteSize ≤ maxMessageBytes) :
    ∃ bytes, sendRequest request = .ok bytes := by
  unfold sendRequest
  rw [if_neg (Nat.not_lt.mpr short)]
  exact ⟨_, rfl⟩

/-- What the supervisor gets. -/
theorem heard_of_sent (sent : ∀ request ∈ requests, ∃ bytes, sendRequest request = .ok bytes)
    (decodes : ∀ request ∈ requests,
      setting.codec.request (requestText request) = .ok request) {input : List Arrival}
    (stream_ : stream input = requests.flatMap fun request => lineBytes (requestText request)) :
    (BoundedLineReader.new input).delivered.map (fun line => line.map setting.codec.request) =
      requests.map fun request => .ok (.ok request) := by
  have lines : stream input = (requests.map requestText).flatMap lineBytes := by
    rw [stream_, List.flatMap_map]
  rw [delivered_lines _ _ _ lines, List.map_map, List.map_map]
  · apply List.map_congr_left
    intro request mem
    have decoded := decodes request mem
    simp only [Function.comp_apply, Except.map, decoded]
  · intro text mem
    obtain ⟨request, -, rfl⟩ := List.mem_map.mp mem
    exact requestText_printed request
  · intro text mem
    obtain ⟨request, -, rfl⟩ := List.mem_map.mp mem
    exact requestText_ne_empty request
  · intro text mem
    obtain ⟨request, inRequests, rfl⟩ := List.mem_map.mp mem
    obtain ⟨bytes, done⟩ := sent request inRequests
    exact (sendRequest_ok done).1

/-- Along a session with such requests the events fit. -/
theorem fits_of_heard (texts : ∀ errno, (escape (setting.strerror errno)).utf8ByteSize ≤ 256)
    {lines : List String} {sup : Supervisor}
    (requested : ∀ line ∈ lines, ∃ request, line = requestText request ∧
      (requestText request).utf8ByteSize ≤ maxMessageBytes ∧
      setting.codec.request (requestText request) = .ok request ∧
      ∀ id, request.requestId = some id → Short id) (heard : Heard setting lines sup) : Fits sup := by
  induction heard with
  | start => exact Fits.new
  | @line lines sup text meeting before ih =>
    obtain ⟨request, rfl, size, decodes, short⟩ := requested text (by simp)
    apply Fits.readLine _ texts short size decodes
    exact ih fun line mem => requested line (List.mem_append_left _ mem)
  | turn before turn ih => exact (ih requested).turn turn

theorem fit_handshake {first : SessionRequest}
    (decodes : setting.codec.request (requestText first) = .ok first)
    (path : (escape (placeText setting.ownedPrefix)).utf8ByteSize ≤ 65536) (pid : UInt32) :
    (outputText (setting.handshake pid (requestText first))).utf8ByteSize ≤ maxMessageBytes := by
  unfold Setting.handshake
  rw [decodes]
  have other : Fit (.error none "handshake" none "first request must be Hello") :=
    fit_anonymous (size_escape_le (by decide)) (by decide)
  cases first with
  | launch _ _ => exact other
  | shutdown _ _ _ => exact other
  | hello protocolVersion =>
    dsimp only
    split
    next =>
      apply fit_anonymous (size_escape_le (by decide))
      have words : (escape "unsupported protocol version ").utf8ByteSize = 29 := size_escape_ofList _
      have number : protocolVersion.toNat.repr.utf8ByteSize ≤ 5 :=
        size_repr_le (by decide) (Nat.lt_trans protocolVersion.toNat_lt (by decide))
      rw [escape_append, String.utf8ByteSize_append, words, escape_repr]
      omega
    next =>
      have key1 : (escape "type").utf8ByteSize = 4 := size_escape_ofList _
      have key2 : (escape "protocolVersion").utf8ByteSize = 15 := size_escape_ofList _
      have key3 : (escape "supervisorPid").utf8ByteSize = 13 := size_escape_ofList _
      have key4 : (escape "prefix").utf8ByteSize = 6 := size_escape_ofList _
      have key5 : (escape "subreaper").utf8ByteSize = 9 := size_escape_ofList _
      have kind : (escape "ready").utf8ByteSize = 5 := size_escape_ofList _
      have yes : "true".utf8ByteSize = 4 := rfl
      have version : Setting.PROTOCOL_VERSION.toNat.repr.utf8ByteSize = 1 := by decide
      have number : pid.toNat.repr.utf8ByteSize ≤ 10 :=
        size_repr_le (by decide) (Nat.lt_trans pid.toNat_lt (by decide))
      have bound : maxMessageBytes = 1048576 := rfl
      rw [outputText, size_object (List.cons_ne_nil _ _)]
      simp only [List.map_cons, List.map_nil, List.sum_cons, List.sum_nil, size_quote, key1, key2,
        key3, key4, key5, kind, if_true, yes, version]
      omega

theorem agree_of_short (sent : ∀ request ∈ requests, ∃ bytes, sendRequest request = .ok bytes)
    (short : ∀ request ∈ requests, ∀ id, request.requestId = some id → Short id)
    (decodes : ∀ request ∈ requests,
      setting.codec.request (requestText request) = .ok request)
    (texts : ∀ errno, (escape (setting.strerror errno)).utf8ByteSize ≤ 256)
    (path : (escape (placeText setting.ownedPrefix)).utf8ByteSize ≤ 65536) :
    Agree setting requests := by
  constructor
  · intro input stream_
    exact heard_of_sent sent decodes stream_
  · intro outputs said reads
    apply readEvents_emit _ _ _ reads
    · intro output _
      exact outputText_printed output
    · intro output _
      exact outputText_ne_empty output
    · intro output mem
      cases said output mem with
      | handshake pid first head =>
        cases requests with
        | nil => cases head
        | cons request requests =>
          cases head
          exact fit_handshake (decodes request List.mem_cons_self) path pid
      | idle =>
        have small : (outputText .idle).utf8ByteSize ≤ 100 := by decide
        exact Nat.le_trans small (by decide)
      | reply before heard inEvents =>
        apply (fits_of_heard texts _ heard).events _ inEvents
        intro line mem
        have inLines := List.mem_of_mem_tail (before.subset mem)
        obtain ⟨request, inRequests, rfl⟩ := List.mem_map.mp inLines
        obtain ⟨bytes, done⟩ := sent request inRequests
        exact ⟨request, rfl, (sendRequest_ok done).1, decodes request inRequests,
          short request inRequests⟩

/-- **Launcher and supervisor agree on the wire** if the identifiers of the
requests leave room for the rest of an event. -/
theorem wire_agreement (sent : ∀ request ∈ requests, ∃ bytes, sendRequest request = .ok bytes)
    (short : ∀ request ∈ requests, ∀ id, request.requestId = some id → Short id)
    (decodes : ∀ request ∈ requests,
      setting.codec.request (requestText request) = .ok request)
    (texts : ∀ errno, (escape (setting.strerror errno)).utf8ByteSize ≤ 256)
    (path : (escape (placeText setting.ownedPrefix)).utf8ByteSize ≤ 65536) :
    Agree setting requests :=
  agree_of_short sent short decodes texts path

/-- A launch as the launcher sends it, behind its hello. -/
def sampleLaunch : SessionRequest :=
  .launch "550e8400-e29b-41d4-a716-446655440000"
    ⟨"/wine", ["game.exe"], "/p", [⟨"WINEPREFIX", some "/p"⟩]⟩

/-- What comes back: the handshake, the game's start and its end, and that nothing is left. -/
def sampleOutputs : List Output :=
  [.ready 1 4242 "/p" true,
    .event (.launchAccepted "550e8400-e29b-41d4-a716-446655440000" 4243 77),
    .event (.controllerExited "550e8400-e29b-41d4-a716-446655440000" 4243 (some 0) none),
    .idle]

def sampleSetting : Setting where
  codec :=
    { request := fun text =>
        if text = requestText sampleLaunch then .ok sampleLaunch else .ok (.hello 1)
      output := fun text =>
        match sampleOutputs.find? fun output => outputText output = text with
        | some output => .ok output
        | none => .error "expected value at line 1 column 1" }
  strerror := fun _ => "Resource temporarily unavailable (os error 11)"
  ownedPrefix := ["p"]
  base := ∅

def sampleMeeting : Meeting where
  host := smallHost
  hostAgain := smallHost
  spawn := .ok 4243
  startTime := some 77
  now := 0

theorem said_sampleOutputs :
    ∀ output ∈ sampleOutputs,
      Said sampleSetting ([.hello 1, sampleLaunch].map requestText) output := by
  have started : Heard sampleSetting ([] ++ [requestText sampleLaunch])
      (sampleSetting.readLine (requestText sampleLaunch) sampleMeeting .new) :=
    .line _ sampleMeeting .start
  have coded : ∀ reaping ∈ [Reaping.reaped 4243 (some 0) none], Coded reaping := by
    intro reaping mem
    obtain rfl := List.mem_singleton.mp mem
    refine ⟨?_, ?_⟩
    · rintro _ ⟨⟩
      decide
    · intro _ never
      cases never
  have ended := started.turn (.drain coded)
  intro output mem
  simp only [sampleOutputs, List.mem_cons, List.not_mem_nil, or_false] at mem
  rcases mem with rfl | rfl | rfl | rfl
  · exact .handshake 4242 (requestText (.hello 1)) rfl
  · exact .reply (List.prefix_refl _) started (by decide +kernel)
  · exact .reply (List.prefix_refl _) ended (by decide +kernel)
  · exact .idle

theorem wire_agreement_sampleLaunch :
    Agree sampleSetting [.hello 1, sampleLaunch] ∧
    readEvents sampleSetting.codec (sampleOutputs.flatMap emit) = sampleOutputs.map .ok := by
  have agree : Agree sampleSetting [.hello 1, sampleLaunch] := by
    apply wire_agreement
    · intro request mem
      simp only [List.mem_cons, List.not_mem_nil, or_false] at mem
      rcases mem with rfl | rfl
      · exact sendRequest_of_size (by decide)
      · exact sendRequest_of_size (by decide +kernel)
    · intro request mem id named
      simp only [List.mem_cons, List.not_mem_nil, or_false] at mem
      rcases mem with rfl | rfl
      · cases named
      · cases named
        unfold Short
        decide
    · intro request mem
      simp only [List.mem_cons, List.not_mem_nil, or_false] at mem
      have other : requestText (.hello 1) ≠ requestText sampleLaunch := by decide
      rcases mem with rfl | rfl
      · simp [sampleSetting, other]
      · simp [sampleSetting]
    · intro errno
      have size : (escape "Resource temporarily unavailable (os error 11)").utf8ByteSize ≤ 256 := by
        decide
      exact size
    · decide
  have decodes : ∀ output ∈ sampleOutputs,
      sampleSetting.codec.output (outputText output) = .ok output := by
    decide +kernel
  exact ⟨agree, agree.told sampleOutputs said_sampleOutputs decodes⟩

/-! ## An identifier that fills its request -/

section Overlong

variable {requestId : String}

/-- A launch of nothing. -/
def emptyLaunch (requestId : String) : SessionRequest := .launch requestId ⟨"", [], "", []⟩

/-- What the supervisor says to it. -/
def refusal (requestId : String) : SessionEvent :=
  .error (some requestId) "validation" none "ProcessSpec must include WINEPREFIX"

def echoSetting (requestId : String) : Setting where
  codec :=
    { request := fun text =>
        if text = requestText (emptyLaunch requestId) then .ok (emptyLaunch requestId)
        else .ok (.hello 1)
      output := fun _ => .ok (.event (refusal requestId)) }
  strerror := fun _ => ""
  ownedPrefix := ["p"]
  base := ∅

theorem echo_decodes (requestId : String) :
    (echoSetting requestId).codec.request (requestText (emptyLaunch requestId)) =
      .ok (emptyLaunch requestId) := by
  simp [echoSetting]

def meeting : Meeting where
  host := smallHost
  hostAgain := smallHost
  spawn := .error (.fork, 11)
  startTime := none
  now := 0

theorem size_emptyLaunch (requestId : String) :
    (requestText (emptyLaunch requestId)).utf8ByteSize = 82 + (escape requestId).utf8ByteSize := by
  have spec : (specText ⟨"", [], "", []⟩).utf8ByteSize = 42 := by decide
  rw [emptyLaunch, size_launch, spec]
  omega

theorem size_refusal (requestId : String) :
    (eventText (refusal requestId)).utf8ByteSize = 113 + (escape requestId).utf8ByteSize := by
  have id : (nullable quote (some requestId)).utf8ByteSize =
      (escape requestId).utf8ByteSize + 2 := size_quote requestId
  have null : (nullable intText none).utf8ByteSize = 4 := by decide
  have stage : (escape "validation").utf8ByteSize = 10 := size_escape_ofList _
  have words : (escape "ProcessSpec must include WINEPREFIX").utf8ByteSize = 35 := by
    decide
  rw [refusal, size_error, id, null, stage, words]
  omega

/-- The refusal is said of the launch. -/
theorem said_refusal (requestId : String) :
    Said (echoSetting requestId) ([.hello 1, emptyLaunch requestId].map requestText)
      (.event (refusal requestId)) := by
  have heard : Heard (echoSetting requestId) ([] ++ [requestText (emptyLaunch requestId)])
      ((echoSetting requestId).readLine (requestText (emptyLaunch requestId)) meeting .new) :=
    .line _ meeting .start
  apply Said.reply (List.prefix_refl _) heard
  unfold Setting.readLine
  rw [echo_decodes]
  exact List.mem_singleton.mpr rfl

/-- It comes back in an event that is too long. -/
theorem not_agree_of_long (long : maxMessageBytes < 113 + (escape requestId).utf8ByteSize) :
    ¬ Agree (echoSetting requestId) [.hello 1, emptyLaunch requestId] := by
  intro agree
  have told := agree.told [.event (refusal requestId)]
    (by
      intro output mem
      rw [List.mem_singleton.mp mem]
      exact said_refusal requestId)
    (by
      intro output mem
      rw [List.mem_singleton.mp mem]
      rfl)
  have long_ : maxMessageBytes < (outputText (.event (refusal requestId))).utf8ByteSize := by
    have size := size_refusal requestId
    have same : outputText (.event (refusal requestId)) = eventText (refusal requestId) := rfl
    rw [same]
    omega
  have ends := @readEvents_long (echoSetting requestId).codec _ (outputText_printed _) long_ []
  rw [List.append_nil] at ends
  rw [List.flatMap_singleton, ends] at told
  cases told

end Overlong

theorem size_letters (n : Nat) :
    (escape (String.ofList (List.replicate n 'a'))).utf8ByteSize = n := by
  have letter : ∀ c ∈ List.replicate n 'a', c = 'a' := by
    intro c mem
    exact List.eq_of_mem_replicate mem
  rw [escape_plain, size_of_ascii, List.length_replicate]
  · intro c mem
    rw [letter c mem]
    decide
  · intro c mem
    rw [letter c mem]
    decide

/-- As many letters as a launch of nothing has room for. -/
def longId : String := String.ofList (List.replicate 1048494 'a')

theorem size_longId : (escape longId).utf8ByteSize = 1048494 := size_letters _

/-- Both requests are sent and decode, and the answer ends the session. -/
theorem long_identifier_ends_session :
    (∀ request ∈ [.hello 1, emptyLaunch longId], ∃ bytes, sendRequest request = .ok bytes) ∧
      (∀ request ∈ [.hello 1, emptyLaunch longId],
        (echoSetting longId).codec.request (requestText request) = .ok request) ∧
      ¬ Agree (echoSetting longId) [.hello 1, emptyLaunch longId] := by
  have size := size_emptyLaunch longId
  rw [size_longId] at size
  have hello : (requestText (.hello 1)).utf8ByteSize = 36 := by decide
  have bound : maxMessageBytes = 1048576 := rfl
  refine ⟨?_, ?_, ?_⟩
  · intro request mem
    simp only [List.mem_cons, List.not_mem_nil, or_false] at mem
    rcases mem with rfl | rfl
    · exact sendRequest_of_size (by rw [hello, bound]; decide)
    · exact sendRequest_of_size (by rw [size, bound])
  · intro request mem
    simp only [List.mem_cons, List.not_mem_nil, or_false] at mem
    rcases mem with rfl | rfl
    · have other : requestText (.hello 1) ≠ requestText (emptyLaunch longId) := by
        intro same
        rw [← same, hello] at size
        exact absurd size (by decide)
      simp [echoSetting, other]
    · exact echo_decodes longId
  · apply not_agree_of_long
    rw [size_longId, bound]
    decide

end RoLauncher.Session.Wire
