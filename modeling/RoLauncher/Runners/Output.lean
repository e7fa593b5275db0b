import Mathlib.Data.List.Sort
import Mathlib.Logic.Function.Basic
import RoLauncher.Text.Lossy
import RoLauncher.Text.Masking

/-!
# What a runner says (`ro-sessiond/src/process.rs`, `runner_sessions/diagnostics.rs`)

Every launch has two streams of its own, each with a forwarder that cuts it
into labelled lines and writes them to the supervisor's stderr. The launcher
reads that line by line, and takes the sensitive values of all launches so far
out of a line before it goes to the log and to the diagnostics of the
operations that listen.

Every byte carries its place in its stream and every character the bytes it was
read from. No function looks at either: they say what a character of the log
was in the stream.
-/

namespace RoLauncher.Runners

open RoLauncher.Text

inductive Channel where
  | stdout
  | stderr
  deriving DecidableEq, Repr

/-- One of the two streams of a launch. The launches of a session count from 0. -/
structure Stream where
  launch : Nat
  channel : Channel
  deriving DecidableEq, Repr

/-- A byte of a stream, and its place there. -/
abbrev Byte := UInt8 × Stream × Nat

/-- A character, and the bytes it was read from: none, if the launcher wrote it. -/
abbrev Traced := Char × List Byte

/-- Text of the launcher's own. -/
def plain (text : String) : List Traced := text.toList.map fun c => (c, [])

/-- Bytes at their places, from `start` on. -/
def tag (stream : Stream) (start : Nat) (bytes : List UInt8) : List Byte :=
  (bytes.zipIdx start).map fun byte => (byte.1, stream, byte.2)

/-! ## The supervisor -/

def newline : UInt8 := 10

def runnerLineMax : Nat := 64 * 1024

/-- One `spawn_stream_forwarder`. -/
structure Forwarder where
  carry : List Byte
  continuation : Bool
  closed : Bool
  /-- Everything that was read. -/
  received : List UInt8

def Forwarder.new : Forwarder := ⟨[], false, false, []⟩

/-- A line to write: whether it continues another one, and its bytes. -/
abbrev Segment := Bool × List Byte

/-- The first loop of `flush_runner_carry`: complete lines. -/
def flushLines : Nat → Bool → List Byte → List Segment × Bool × List Byte
  | 0, continuation, carry => ([], continuation, carry)
  | bound + 1, continuation, carry =>
    match carry.dropWhile fun byte => byte.1 ≠ newline with
    | [] => ([], continuation, carry)
    | _ :: rest =>
      let flushed := flushLines bound false rest
      ((continuation, carry.takeWhile fun byte => byte.1 ≠ newline) :: flushed.1, flushed.2)

/-- The second one: what is too long for a line. -/
def flushChunks : Nat → Bool → List Byte → List Segment × Bool × List Byte
  | 0, continuation, carry => ([], continuation, carry)
  | bound + 1, continuation, carry =>
    if carry.length > runnerLineMax then
      let flushed := flushChunks bound true (carry.drop runnerLineMax)
      ((continuation, carry.take runnerLineMax) :: flushed.1, flushed.2)
    else ([], continuation, carry)

/-- Each round takes something away, so the length of the carry bounds their number. -/
def flushRunnerCarry (continuation : Bool) (carry : List Byte) : List Segment × Bool × List Byte :=
  let lines := flushLines carry.length continuation carry
  let chunks := flushChunks lines.2.2.length lines.2.1 lines.2.2
  (lines.1 ++ chunks.1, chunks.2)

def label (channel : Channel) (continuation : Bool) : String :=
  (match channel with
    | .stdout => "[runner:stdout]"
    | .stderr => "[runner:stderr]") ++ if continuation then "[cont] " else " "

/-- `emit_runner_line`: a line of the supervisor's stderr. -/
def emitRunnerLine (stream : Stream) (segment : Segment) : List Traced :=
  plain (label stream.channel segment.1) ++ decodeLossy Prod.fst segment.2

namespace Forwarder

/-- The lines that a read makes it write. -/
def read (f : Forwarder) (stream : Stream) (bytes : List UInt8) : List (List Traced) × Forwarder :=
  if f.closed then ([], f)
  else
    let flushed := flushRunnerCarry f.continuation (f.carry ++ tag stream f.received.length bytes)
    (flushed.1.map (emitRunnerLine stream), ⟨flushed.2.2, flushed.2.1, false, f.received ++ bytes⟩)

/-- The end of the stream. -/
def close (f : Forwarder) (stream : Stream) : List (List Traced) × Forwarder :=
  if f.closed then ([], f)
  else
    (if f.carry = [] then [] else [emitRunnerLine stream (f.continuation, f.carry)],
      ⟨[], f.continuation, true, f.received⟩)

end Forwarder

/-! ## Redaction -/

def mask : List Traced := plain "<redacted>"

/-- `Vec::dedup`. -/
def dedup : List String → List String
  | a :: b :: rest => if a = b then dedup (b :: rest) else a :: dedup (b :: rest)
  | values => values

/-- Longest first; the sort is stable. -/
def orderedValues (values : List String) : List String :=
  dedup ((values.filter fun value => value ≠ "").insertionSort fun a b =>
    b.utf8ByteSize ≤ a.utf8ByteSize)

def redactSensitiveValues (line : List Traced) (values : List String) : List Traced :=
  replaceAll Prod.fst mask ((orderedValues values).map String.toList) line

def mergeRedactions (current incoming : List String) : List String :=
  (incoming.filter fun value => value ≠ "").foldl
    (fun current value => if value ∈ current then current else current ++ [value]) current

/-! ## The launcher -/

def stripPrefix (start : String) (line : List Traced) : Option (List Traced) :=
  if startsWith Prod.fst start.toList line then some (line.drop start.length) else none

def containsText (needle : String) (line : List Traced) : Bool :=
  line.tails.any (startsWith Prod.fst needle.toList)

def shouldLogLine (line : List Traced) : Bool :=
  !containsText "fixme:" line && !containsText "libEGL warning" line

def runnerStdoutPrefix : String := "[runner:stdout] "
def runnerStderrPrefix : String := "[runner:stderr] "
def sessionLogPrefix : String := "[Session] "

/-- `handle_stderr_line`: what goes to the log. -/
def handleStderrLine (line : List Traced) (redactions : List String) : Option (List Traced) :=
  match stripPrefix runnerStdoutPrefix line with
  | some rest =>
    let line := redactSensitiveValues rest redactions
    if shouldLogLine line then some line else none
  | none =>
    match stripPrefix runnerStderrPrefix line with
    | some rest =>
      let line := redactSensitiveValues rest redactions
      if shouldLogLine line then some line else none
    | none =>
      let line := redactSensitiveValues line redactions
      if line ≠ [] then some (plain sessionLogPrefix ++ line) else none

/-- `RunnerOutputHub::record`: what goes to every diagnostic that listens. -/
def recordLine (line : List Traced) (redactions : List String) : Option (List Traced) :=
  match (stripPrefix runnerStderrPrefix line).or (stripPrefix runnerStdoutPrefix line) with
  | none => none
  | some line =>
    if line = [] ∨ !shouldLogLine line then none
    else some ((redactSensitiveValues line redactions).take 1024)

structure FailureOutput where
  firstError : Option (List Traced)
  tail : List (List Traced)

def FailureOutput.new : FailureOutput := ⟨none, []⟩

def FailureOutput.record (output : FailureOutput) (line : List Traced) : FailureOutput where
  firstError :=
    if output.firstError.isNone && containsText "ERROR:" line then some line else output.firstError
  tail :=
    let tail := output.tail ++ [line]
    if tail.length > 8 then tail.drop 1 else tail

/-- The lines that `annotate` shows. -/
def FailureOutput.lines (output : FailureOutput) : List (List Traced) :=
  output.firstError.toList ++ output.tail.filter fun line =>
    some (line.map Prod.fst) ≠ output.firstError.map (List.map Prod.fst)

/-! ## A session -/

/-- A line that was handled, and the values that were known then. -/
structure Handled where
  values : List String
  line : List Traced

/-- Where it went: to the log, and to whoever listens. -/
def Handled.emitted (h : Handled) : List (List Traced) :=
  (handleStderrLine h.line h.values).toList ++ (recordLine h.line h.values).toList

structure Session where
  redactions : List String
  /-- How many controllers the supervisor has launched. -/
  launched : Nat
  /-- What a stream's forwarder holds: nothing, as long as its launch has not come. -/
  forwarder : Stream → Forwarder
  /-- Lines of the supervisor's stderr that the launcher did not read yet. -/
  pipe : List (List Traced)
  subscribers : List FailureOutput
  history : List Handled

inductive Event where
  /-- `launch` merges its values before the supervisor hears of it. -/
  | launch (redactions : List String)
  /-- `launch_controller`: the pipes of one more launch, and a forwarder for each. -/
  | spawn
  | read (stream : Stream) (bytes : List UInt8)
  | close (stream : Stream)
  /-- A line of the supervisor itself. -/
  | supervisor (line : String)
  | subscribe
  | unsubscribe (subscriber : Nat)
  /-- The launcher takes the next line. -/
  | handle

namespace Session

def new : Session := ⟨[], 0, fun _ => .new, [], [], []⟩

/-- `next_line` drops the carriage return of a line. -/
def withoutReturn (line : List Traced) : List Traced :=
  if line.getLast?.map Prod.fst = some '\r' then line.dropLast else line

/-- What a forwarder did. -/
def forwarded (s : Session) (stream : Stream) (done : List (List Traced) × Forwarder) : Session :=
  { s with
    forwarder := Function.update s.forwarder stream done.2
    pipe := s.pipe ++ done.1 }

/-- The line goes to the log and to every subscriber. -/
def handled (s : Session) (line : List Traced) (rest : List (List Traced)) : Session :=
  { s with
    pipe := rest
    subscribers := s.subscribers.map fun output =>
      ((recordLine line s.redactions).map output.record).getD output
    history := s.history ++ [⟨s.redactions, line⟩] }

def perform (s : Session) : Event → Session
  | .launch incoming => { s with redactions := mergeRedactions s.redactions incoming }
  | .spawn => { s with launched := s.launched + 1 }
  | .read stream bytes =>
    if stream.launch < s.launched then
      s.forwarded stream ((s.forwarder stream).read stream bytes)
    else s
  | .close stream =>
    if stream.launch < s.launched then
      s.forwarded stream ((s.forwarder stream).close stream)
    else s
  | .supervisor line => { s with pipe := s.pipe ++ [plain line] }
  | .subscribe => { s with subscribers := s.subscribers ++ [.new] }
  | .unsubscribe subscriber => { s with subscribers := s.subscribers.eraseIdx subscriber }
  | .handle =>
    match s.pipe with
    | [] => s
    | line :: rest => s.handled (withoutReturn line) rest

def run (events : List Event) : Session := events.foldl perform new

/-- What a stream of the runner said. -/
def streamOf (s : Session) (stream : Stream) : List UInt8 := (s.forwarder stream).received

end Session

end RoLauncher.Runners
