import RoLauncher.Text.JsonText
import RoLauncher.Session.Environment
import RoLauncher.Session.Supervisor

/-!
# The lines between launcher and supervisor

Requests and events as they are written on the pipes, and the two places that
bound them: `sendRequest` (`runner_sessions/protocol.rs`) refuses a request that
is too long, and `readBoundedLine` gives the session up at an event that is.
`EventWriter::emit` of the supervisor (`ro-sessiond/src/protocol.rs`) bounds
nothing. Reading JSON is left to a `Codec`.
-/

namespace RoLauncher.Session.Wire

open Text Text.Json

/-! ## Messages -/

inductive SessionRequest where
  | hello (protocolVersion : UInt16)
  | launch (requestId : String) (spec : ProcessSpec)
  | shutdown (requestId : String) (shutdownSpec : ProcessSpec) (graceMs : UInt64)
  deriving DecidableEq, Repr

/-- What the supervisor writes: the handshake, replies and exits, and that
nothing is left to wait for. -/
inductive Output where
  | ready (protocolVersion : UInt16) (supervisorPid : UInt32) (prefixText : String)
      (subreaper : Bool)
  | idle
  | event (event : SessionEvent)
  deriving DecidableEq, Repr

def changeText (change : EnvironmentChange) : String :=
  object [("key", quote change.key), ("value", nullable quote change.value)]

def specText (spec : ProcessSpec) : String :=
  object [("program", quote spec.program), ("args", array (spec.args.map quote)),
    ("cwd", quote spec.cwd), ("env", array (spec.env.map changeText))]

def requestText : SessionRequest → String
  | .hello protocolVersion =>
    object [("type", quote "hello"), ("protocolVersion", protocolVersion.toNat.repr)]
  | .launch requestId spec =>
    object [("type", quote "launch"), ("requestId", quote requestId), ("spec", specText spec)]
  | .shutdown requestId shutdownSpec graceMs =>
    object [("type", quote "shutdown"), ("requestId", quote requestId),
      ("shutdownSpec", specText shutdownSpec), ("graceMs", graceMs.toNat.repr)]

def intText (n : Int) : String := toString n

def eventText : SessionEvent → String
  | .launchAccepted requestId controllerPid controllerStartTime =>
    object [("type", quote "launchAccepted"), ("requestId", quote requestId),
      ("controllerPid", controllerPid.toNat.repr),
      ("controllerStartTime", controllerStartTime.toNat.repr)]
  | .shutdownAccepted requestId =>
    object [("type", quote "shutdownAccepted"), ("requestId", quote requestId)]
  | .controllerExited requestId controllerPid exitCode signal =>
    object [("type", quote "controllerExited"), ("requestId", quote requestId),
      ("controllerPid", controllerPid.toNat.repr), ("exitCode", nullable intText exitCode),
      ("signal", nullable intText signal)]
  | .error requestId stage errno message =>
    object [("type", quote "error"), ("requestId", nullable quote requestId),
      ("stage", quote stage), ("errno", nullable intText errno), ("message", quote message)]
  | .stopped => object [("type", quote "stopped")]

def outputText : Output → String
  | .ready protocolVersion supervisorPid prefixText subreaper =>
    object [("type", quote "ready"), ("protocolVersion", protocolVersion.toNat.repr),
      ("supervisorPid", supervisorPid.toNat.repr), ("prefix", quote prefixText),
      ("subreaper", if subreaper then "true" else "false")]
  | .idle => object [("type", quote "idle")]
  | .event event => eventText event

/-- How the two sides read JSON. -/
structure Codec where
  request : String → Except String SessionRequest
  output : String → Except String Output

/-! ## Writing and reading lines -/

def lineBytes (text : String) : List UInt8 := encode text.toList ++ [newline]

/-- `send_request`, up to the write. -/
def sendRequest (request : SessionRequest) : Except SessionError (List UInt8) :=
  if maxMessageBytes < (requestText request).utf8ByteSize then
    .error ⟨"request exceeds MAX_MESSAGE_BYTES"⟩
  else .ok (lineBytes (requestText request))

/-- `EventWriter::emit`. -/
def emit (output : Output) : List UInt8 := lineBytes (outputText output)

/-- `String::from_utf8_lossy`. -/
def fromUtf8Lossy (bytes : List UInt8) : String :=
  String.ofList ((decodeLossy id bytes).map Prod.fst)

/-- `read_bounded_line`, with what it has read of the line, and what is left. -/
def readBoundedLine (buf : List UInt8) : List UInt8 → Except SessionError (Option String) × List UInt8
  | [] =>
    if buf.length ≤ maxMessageBytes then
      (.ok (if buf = [] then none else some (fromUtf8Lossy buf)), [])
    else (.error ⟨"event line exceeds MAX_MESSAGE_BYTES"⟩, [])
  | byte :: bytes =>
    if buf.length ≤ maxMessageBytes then
      if byte = newline then (.ok (some (fromUtf8Lossy buf)), bytes)
      else readBoundedLine (buf ++ [byte]) bytes
    else (.error ⟨"event line exceeds MAX_MESSAGE_BYTES"⟩, byte :: bytes)

theorem readBoundedLine_shorter {buf bytes rest : List UInt8} {line : String}
    (read : readBoundedLine buf bytes = (.ok (some line), rest)) :
    rest.length < buf.length + bytes.length := by
  induction bytes generalizing buf with
  | nil =>
    unfold readBoundedLine at read
    split at read
    next =>
      split at read
      next => cases read
      next nonempty =>
        cases read
        have := List.length_pos_iff.mpr nonempty
        simpa using this
    next => cases read
  | cons byte bytes ih =>
    unfold readBoundedLine at read
    split at read
    next =>
      split at read
      next =>
        cases read
        rw [List.length_cons]
        omega
      next =>
        have := ih read
        rw [List.length_append, List.length_singleton] at this
        rw [List.length_cons]
        omega
    next => cases read

/-- The events that the launcher dispatches, and the error that ends the session. -/
def readEvents (codec : Codec) (bytes : List UInt8) : List (Except SessionError Output) :=
  match _read : readBoundedLine [] bytes with
  | (.error e, _) => [.error e]
  | (.ok none, _) => []
  | (.ok (some line), rest) =>
    if line = "" then readEvents codec rest
    else
      match codec.output line with
      | .error e => [.error ⟨"invalid event JSON: " ++ e⟩]
      | .ok event => .ok event :: readEvents codec rest
termination_by bytes.length
decreasing_by
  all_goals
    have := readBoundedLine_shorter _read
    simpa using this

/-! ## Lines come through -/

theorem length_lineBytes (text : String) : (encode text.toList).length = text.utf8ByteSize :=
  (utf8ByteSize_eq text).symm

theorem fromUtf8Lossy_encode (text : String) : fromUtf8Lossy (encode text.toList) = text := by
  obtain ⟨parts, read, chars, -⟩ :=
    @decodeLossy_text _ id (encode text.toList) [] text.toList (List.map_id _)
  rw [List.append_nil] at read
  have nothing : decodeLossy id ([] : List UInt8) = [] := decodeFrom_nil 0
  rw [nothing, List.append_nil] at read
  rw [fromUtf8Lossy, read, chars, String.ofList_toList]

theorem fromUtf8_encode (text : String) : fromUtf8 (encode text.toList) = some text := by
  have bytes : (⟨(encode text.toList).toArray⟩ : ByteArray) = text.toByteArray := by
    rw [← String.utf8Encode_toList, List.utf8Encode]
    apply ByteArray.ext
    rw [List.data_toByteArray]
    rfl
  rw [fromUtf8, bytes, String.fromUTF8?, dif_pos text.isValidUTF8]
  rfl

/-- What is read of a line whose bytes are not ended yet. -/
theorem readBoundedLine_bytes {line : List UInt8} (clean : newline ∉ line) (buf rest : List UInt8)
    (short : buf.length + line.length ≤ maxMessageBytes) :
    readBoundedLine buf (line ++ newline :: rest) = (.ok (some (fromUtf8Lossy (buf ++ line))), rest) := by
  induction line generalizing buf with
  | nil =>
    rw [List.nil_append, readBoundedLine, if_pos (by simpa using short), if_pos rfl, List.append_nil]
  | cons byte line ih =>
    rw [List.length_cons] at short
    rw [List.mem_cons, not_or] at clean
    rw [List.cons_append, readBoundedLine, if_pos (by omega), if_neg (Ne.symm clean.1), ih clean.2]
    · rw [List.append_assoc, List.singleton_append]
    · rw [List.length_append, List.length_singleton]
      omega

theorem readBoundedLine_over {line : List UInt8} (clean : newline ∉ line) (buf rest : List UInt8)
    (small : buf.length ≤ maxMessageBytes + 1) (long : maxMessageBytes < buf.length + line.length) :
    (readBoundedLine buf (line ++ rest)).1 = .error ⟨"event line exceeds MAX_MESSAGE_BYTES"⟩ := by
  induction line generalizing buf with
  | nil =>
    rw [List.length_nil] at long
    rw [List.nil_append]
    cases rest with
    | nil => rw [readBoundedLine, if_neg (by omega)]
    | cons byte rest => rw [readBoundedLine, if_neg (by omega)]
  | cons byte line ih =>
    rw [List.length_cons] at long
    rw [List.mem_cons, not_or] at clean
    rw [List.cons_append, readBoundedLine]
    split
    next room =>
      rw [if_neg (Ne.symm clean.1)]
      apply ih clean.2
      · rw [List.length_append, List.length_singleton]
        omega
      · rw [List.length_append, List.length_singleton]
        omega
    next => rfl

/-- A line within the bound is read as it was written. -/
theorem readBoundedLine_line {text : String} (printed : Printed text)
    (short : text.utf8ByteSize ≤ maxMessageBytes) (rest : List UInt8) :
    readBoundedLine [] (lineBytes text ++ rest) = (.ok (some text), rest) := by
  have clean : newline ∉ encode text.toList := newline_not_mem_encode printed
  rw [lineBytes, List.append_assoc, List.singleton_append, readBoundedLine_bytes clean, List.nil_append,
    fromUtf8Lossy_encode]
  rw [length_lineBytes]
  simpa using short

/-- A line over the bound ends the session. -/
theorem readBoundedLine_long {text : String} (printed : Printed text)
    (long : maxMessageBytes < text.utf8ByteSize) (rest : List UInt8) :
    (readBoundedLine [] (lineBytes text ++ rest)).1 =
      .error ⟨"event line exceeds MAX_MESSAGE_BYTES"⟩ := by
  have clean : newline ∉ encode text.toList := newline_not_mem_encode printed
  rw [lineBytes, List.append_assoc]
  apply readBoundedLine_over clean _ _ (Nat.zero_le _)
  rw [length_lineBytes]
  simpa using long

/-- The launcher reads every output that its codec reads and that is not too long. -/
theorem readEvents_emit {codec : Codec} {outputs : List Output}
    (printed : ∀ output ∈ outputs, Printed (outputText output))
    (some : ∀ output ∈ outputs, outputText output ≠ "")
    (short : ∀ output ∈ outputs, (outputText output).utf8ByteSize ≤ maxMessageBytes)
    (decodes : ∀ output ∈ outputs, codec.output (outputText output) = .ok output) :
    readEvents codec (outputs.flatMap emit) = outputs.map .ok := by
  induction outputs with
  | nil =>
    have ended : readBoundedLine [] [] = (.ok none, []) := rfl
    rw [List.flatMap_nil, readEvents]
    split
    next read =>
      rw [ended] at read
      cases read
    next => rfl
    next read =>
      rw [ended] at read
      cases read
  | cons output outputs ih =>
    have here := List.mem_cons_self (a := output) (l := outputs)
    have line := readBoundedLine_line (printed output here) (short output here)
      (outputs.flatMap emit)
    have later := ih (fun o mem => printed o (List.mem_cons_of_mem _ mem))
      (fun o mem => some o (List.mem_cons_of_mem _ mem))
      (fun o mem => short o (List.mem_cons_of_mem _ mem))
      (fun o mem => decodes o (List.mem_cons_of_mem _ mem))
    rw [List.flatMap_cons, emit, readEvents]
    split
    next read =>
      rw [line] at read
      cases read
    next read =>
      rw [line] at read
      cases read
    next read =>
      rw [line] at read
      cases read
      rw [if_neg (some output here), decodes output here]
      dsimp only
      rw [later, List.map_cons]

/-- The launcher gives up at an output that is too long. -/
theorem readEvents_long {codec : Codec} {output : Output} (printed : Printed (outputText output))
    (long : maxMessageBytes < (outputText output).utf8ByteSize) (rest : List UInt8) :
    readEvents codec (emit output ++ rest) =
      [.error ⟨"event line exceeds MAX_MESSAGE_BYTES"⟩] := by
  have line := readBoundedLine_long printed long rest
  rw [emit, readEvents]
  split
  next read =>
    rw [read] at line
    cases line
    rfl
  next read =>
    rw [read] at line
    cases line
  next read =>
    rw [read] at line
    cases line

end RoLauncher.Session.Wire
