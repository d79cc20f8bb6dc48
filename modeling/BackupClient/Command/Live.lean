import BackupClient.Cancellation
import BackupClient.Command.Output
import BackupClient.Command.Supervisor
import BackupClient.Shell.Machine
import BackupClient.Time.Instant

/-!
Runs of processes on a host, under a supervisor.

Time is counted in nanoseconds.  It stands still while a process can go on and then jumps to the next
moment at which one wakes up, the run is cancelled or the supervisor loses its patience.
-/

namespace BackupClient

/-- When a run is cancelled: at a moment, or once a number of lines was read. -/
inductive LiveCancellation where
  | never
  | at (moment : Nat)
  | afterLines (count : Nat)
  deriving DecidableEq, Repr

/-- How processes are started on a host: the files and which of them are programs, the grace, and whether
requests to stop a group reach it. -/
structure LiveSetting where
  tree : Files.Tree
  executables : List (List Char)
  grace : Duration
  broken : Bool
  deriving DecidableEq

structure LiveRun where
  host : Shell.Host
  supervisor : Supervisor
  mode : RunMode
  broken : Bool
  cancellation : LiveCancellation
  cancelled : Bool
  requests : List SupervisorRequest
  notices : List Notice

/-- How a run ended: its result, what the process wrote, what was asked for, what was told, the latest
first, and the moment. -/
structure LiveEnd where
  result : Except RunError ExitState
  stdout : List UInt8
  stderr : List UInt8
  requests : List SupervisorRequest
  notices : List Notice
  moment : Nat

namespace LiveEnd

def lines (ended : LiveEnd) : List String :=
  deliveredLines [ended.stderr]

def output (ended : LiveEnd) : Except RunError CommandOutput :=
  ended.result.map fun exit => ⟨exit, outputText ended.stdout, outputText ended.stderr⟩

def immediate (result : Except RunError ExitState) (moment : Nat) : LiveEnd :=
  ⟨result, [], [], [], [], moment⟩

end LiveEnd

def stdoutBuffer : Nat := 0

def stderrBuffer : Nat := 1

def firstProcess : Nat := 4242

/-- Where programs are looked for where the environment does not tell. -/
def standardPath : List Char :=
  "/bin:/usr/bin".toList

namespace LiveRun

/-- Start a process, or tell why it cannot be started. -/
def start (setting : LiveSetting) (mode : RunMode) (spec : CommandSpec) (now : Nat) :
    Except String LiveRun := do
  let texts :=
    spec.program :: spec.arguments ++ spec.environment.flatMap fun (name, value) => [name, value]
  if texts.any (·.toList.contains (Char.ofNat 0)) then
    .error "nul byte found in provided data"
  else
    let blank : Shell.Scope := ⟨[], spec.program.toList, [], 0, firstProcess, none⟩
    let scope :=
      spec.environment.foldl
        (fun scope (name, value) => (scope.set name.toList value.toList).publish name.toList) blank
    let host : Shell.Host :=
      ⟨now, [], firstProcess + 1, [[], []], setting.tree, setting.executables⟩
    let path := host.pathOf ((scope.value? "PATH".toList).getD standardPath) spec.program.toList
    let program ←
      if path.contains '/' then host.program? path else .error Files.FileError.notFound.message
    let stdout : Shell.Sink :=
      match mode with
      | .buffered => .buffer stdoutBuffer
      | .streaming => .null
    let process : Shell.Process :=
      { number := firstProcess, parent := 0, scope := scope, frames := [], functions := []
        descriptors := [(0, .null), (1, stdout), (2, .buffer stderrBuffer)], handlers := []
        pending := [], replaceable := false, strict := false, state := .running }
    let process := host.become process path program (spec.arguments.map String.toList)
    .ok
      { host := { host with processes := [process] }
        supervisor := .start firstProcess setting.grace.nanos Timer.lastMoment, mode := mode
        broken := setting.broken, cancellation := .never, cancelled := false, requests := []
        notices := [] }

def outputEnded (run : LiveRun) : Bool :=
  !run.host.isOpen stderrBuffer && (run.mode = .streaming || !run.host.isOpen stdoutBuffer)

def exitCode? (run : LiveRun) : Option (Option Int) :=
  ((run.host.find? run.supervisor.process).bind Shell.Process.ended?).map Shell.Ended.code?

def lineCount (run : LiveRun) : Nat :=
  ((run.host.bufferBytes stderrBuffer).filter (· = lineFeed)).length

def cancellationDue (run : LiveRun) : Bool :=
  match run.cancellation with
  | .never => false
  | .at moment => moment ≤ run.host.now
  | .afterLines count => count ≤ run.lineCount

def event? (run : LiveRun) : Option SupervisorEvent :=
  let supervisor := run.supervisor
  if supervisor.output.isNone ∧ run.outputEnded then some (.outputEnded none)
  else
    match if supervisor.exit.isNone then run.exitCode? else none with
    | some code => some (.exited (.ok code))
    | none =>
        if ¬ run.cancelled ∧ run.cancellationDue then some .cancelled
        else if supervisor.deadline?.any (· ≤ run.host.now) then some .tick
        else none

def obey (run : LiveRun) (request : SupervisorRequest) : LiveRun :=
  let host :=
    match request with
    | .terminate _ =>
        if run.broken then run.host else run.host.signalAll Shell.interruptSignal
    | .forceKill _ => if run.broken then run.host else run.host.signalAll Shell.killSignal
    | .killAlone process => (run.host.signal process Shell.killSignal).2
  { run with host := host, requests := request :: run.requests }

def happen (run : LiveRun) (event : SupervisorEvent) : LiveRun :=
  let (requests, supervisor) := run.supervisor.step run.host.now event
  let cancelled :=
    match event with
    | .cancelled => true
    | _ => run.cancelled
  let notices := (run.supervisor.notice? supervisor).toList ++ run.notices
  requests.foldl obey
    { run with supervisor := supervisor, cancelled := cancelled, notices := notices }

def nextMoment? (run : LiveRun) : Option Nat :=
  let cancellation :=
    match run.cancellation with
    | .at moment => if run.cancelled then none else some moment
    | _ => none
  ([run.host.nextWake?, cancellation, run.supervisor.deadline?].filterMap id).filter
    (run.host.now < ·) |>.min?

def stepsPerMoment : Nat := 200000

def carryOn (fuel : Nat) (run : LiveRun) : LiveRun :=
  match fuel with
  | 0 => run
  | fuel + 1 =>
      let run := { run with host := run.host.settle stepsPerMoment }
      if run.supervisor.result?.isSome then run
      else
        match run.event? with
        | some event => carryOn fuel (run.happen event)
        | none =>
            match run.nextMoment? with
            | some moment => carryOn fuel { run with host := { run.host with now := moment } }
            | none => carryOn fuel run

def finish (run : LiveRun) : LiveEnd where
  result := run.supervisor.result?.getD (.error (.wait ""))
  stdout := run.host.bufferBytes stdoutBuffer
  stderr := run.host.bufferBytes stderrBuffer
  requests := run.requests
  notices := run.notices
  moment := run.host.now

end LiveRun

/-- Run a process to its end.  One that is cancelled before it begins is not started. -/
def CommandSpec.runLive (spec : CommandSpec) (fuel : Nat) (setting : LiveSetting) (mode : RunMode)
    (now : Nat) (cancelledBefore : Bool) (cancellation : LiveCancellation) : LiveEnd :=
  if cancelledBefore then .immediate (.ok (ExitState.stopped none)) now
  else
    match LiveRun.start setting mode spec now with
    | .error reason => .immediate (.error (.spawn spec.program reason)) now
    | .ok run => (LiveRun.carryOn fuel { run with cancellation := cancellation }).finish

end BackupClient
