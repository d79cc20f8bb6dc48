import BackupClient.Shell.Builtin
import BackupClient.Shell.Expansion
import BackupClient.Shell.Signal

/-!
Processes that run shell scripts, with what they share: files, buffers between them, and the time.

A process is a stack of what it still has to do.  It takes one step after the other until it has to wait,
for a moment or for another process, or until it ends.
-/

namespace BackupClient.Shell

inductive Sink where
  | null
  | buffer (index : Nat)
  | file (path : List Char)
  deriving DecidableEq, Repr

/-- What a process does about a signal: it passes over it, perhaps because it was told to from the start,
or it carries out a script. -/
inductive Handler where
  | ignore (fromStart : Bool)
  | action (source : List Char)
  deriving DecidableEq, Repr

inductive Ended where
  | exited (code : Nat)
  | signalled (number : Nat)
  deriving DecidableEq, Repr

def Ended.code? : Ended → Option Int
  | .exited code => some code
  | .signalled _ => none

def Ended.status : Ended → Nat
  | .exited code => code
  | .signalled number => 128 + number

/-- What a process waits for, if it does not run or has ended: a moment, another process, perhaps until a
signal comes, or some processes. -/
inductive ProcessState where
  | running
  | sleeping (wake : Nat)
  | waiting (process : Nat) (interruptible : Bool)
  | waitingAll (processes : List Nat)
  | ended (result : Ended)
  deriving DecidableEq, Repr

inductive Frame where
  | command (command : Command)
  | afterLeft (whenTrue : Bool) (right : Command)
  | negate
  | choose (body otherwise : Command)
  | loopDecide (whileTrue : Bool) (test body : Command) (last : Nat)
  | loopNext (whileTrue : Bool) (test body : Command)
  | eachNext (name : List Char) (items : List (List Char)) (body : Command)
  | restore (descriptors : List (Nat × Sink))
  | leave (arguments : List (List Char))
  | plug (buffer : Nat) (command : Command)
  | pipeRight (buffer : Nat) (right : Command)
  | setStatus (status : Nat)
  | program (words : List (List Char))

/-- A process.  It may be replaceable, so that its last command takes its place, and strict, so that the
first failure ends it. -/
structure Process where
  number : Nat
  parent : Nat
  scope : Scope
  frames : List Frame
  functions : List (List Char × Command)
  descriptors : List (Nat × Sink)
  handlers : List (Nat × Handler)
  pending : List Nat
  replaceable : Bool
  strict : Bool
  state : ProcessState

structure Host where
  now : Nat
  processes : List Process
  nextNumber : Nat
  buffers : List (List (List UInt8))
  tree : Files.Tree
  executables : List (List Char)

namespace Process

def ended? (process : Process) : Option Ended :=
  match process.state with
  | .ended result => some result
  | _ => none

def push (process : Process) (frames : List Frame) : Process :=
  { process with frames := frames ++ process.frames }

def withStatus (process : Process) (status : Nat) : Process :=
  { process with scope := { process.scope with status := status } }

def finish (process : Process) (result : Ended) : Process :=
  { process with state := .ended result, frames := [] }

def sink? (process : Process) (descriptor : Nat) : Option Sink :=
  (process.descriptors.find? (·.1 = descriptor)).map (·.2)

def connect (process : Process) (descriptor : Nat) (sink : Option Sink) : Process :=
  { process with
    descriptors :=
      (sink.toList.map fun sink => (descriptor, sink)) ++
        process.descriptors.filter (·.1 ≠ descriptor) }

def handler? (process : Process) (signal : Nat) : Option Handler :=
  (process.handlers.find? (·.1 = signal)).map (·.2)

def handle (process : Process) (signal : Nat) (handler : Option Handler) : Process :=
  if process.handler? signal = some (.ignore true) then process
  else
    { process with
      handlers :=
        (handler.toList.map fun handler => (signal, handler)) ++
          process.handlers.filter (·.1 ≠ signal) }

def ignoredOnly (fromStart : Bool) (handlers : List (Nat × Handler)) : List (Nat × Handler) :=
  handlers.filterMap fun (signal, handler) =>
    match handler with
    | .ignore fixed => some (signal, .ignore (fixed || fromStart))
    | .action _ => none

def receive (process : Process) (signal : Nat) : Process :=
  if process.ended?.isSome then process
  else if signal = killSignal then process.finish (.signalled signal)
  else
    match process.handler? signal with
    | some (.ignore _) => process
    | some (.action _) => { process with pending := process.pending ++ [signal] }
    | none => if isHarmless signal then process else process.finish (.signalled signal)

def holds (process : Process) (buffer : Nat) : Bool :=
  process.ended?.isNone &&
    (process.descriptors.any (·.2 = .buffer buffer) ||
      process.frames.any fun frame =>
        match frame with
        | .restore descriptors => descriptors.any (·.2 = .buffer buffer)
        | _ => false)

end Process

namespace Host

def find? (host : Host) (number : Nat) : Option Process :=
  host.processes.find? (·.number = number)

def put (host : Host) (process : Process) : Host :=
  { host with
    processes :=
      host.processes.map fun other => if other.number = process.number then process else other }

def forget (host : Host) (number : Nat) : Host :=
  { host with processes := host.processes.filter (·.number ≠ number) }

def add (host : Host) (make : Nat → Process) : Nat × Host :=
  (host.nextNumber,
    { host with
      processes := host.processes ++ [make host.nextNumber], nextNumber := host.nextNumber + 1 })

def addBuffer (host : Host) (bytes : List UInt8) : Nat × Host :=
  (host.buffers.length, { host with buffers := host.buffers ++ [[bytes]] })

def bufferBytes (host : Host) (index : Nat) : List UInt8 :=
  ((host.buffers[index]?).getD []).reverse.flatten

def setBuffer (host : Host) (index : Nat) (bytes : List UInt8) : Host :=
  { host with buffers := host.buffers.set index [bytes] }

def writeTo (host : Host) (sink : Option Sink) (bytes : List UInt8) : Host :=
  match sink with
  | some (.buffer index) =>
      { host with buffers := host.buffers.modify index fun pieces => bytes :: pieces }
  | some (.file path) =>
      let before := (host.tree.read path).toOption.getD []
      { host with tree := host.tree.install path (.file (before ++ bytes)) }
  | _ => host

def write (host : Host) (process : Process) (descriptor : Nat) (bytes : List UInt8) : Host :=
  host.writeTo (process.sink? descriptor) bytes

def readAll (host : Host) (process : Process) : List UInt8 × Host :=
  match process.sink? 0 with
  | some (.buffer index) => (host.bufferBytes index, host.setBuffer index [])
  | _ => ([], host)

/-- Take one line of a process's input.  The answer is whether its end was there. -/
def readLine (host : Host) (process : Process) : Bool × List UInt8 × Host :=
  match process.sink? 0 with
  | some (.buffer index) =>
      let bytes := host.bufferBytes index
      let line := bytes.takeWhile (· ≠ 10)
      (line.length < bytes.length, line, host.setBuffer index (bytes.drop (line.length + 1)))
  | _ => (false, [], host)

def signal (host : Host) (number signal : Nat) : Bool × Host :=
  match host.find? number with
  | some process => (true, host.put (process.receive signal))
  | none => (false, host)

def signalAll (host : Host) (signal : Nat) : Host :=
  { host with processes := host.processes.map (·.receive signal) }

def isOpen (host : Host) (buffer : Nat) : Bool :=
  host.processes.any (·.holds buffer)

def children (host : Host) (number : Nat) : List Nat :=
  (host.processes.filter fun process => process.parent = number && process.ended?.isNone).map
    (·.number)

def isOver (host : Host) (number : Nat) : Bool :=
  match host.find? number with
  | some process => process.ended?.isSome
  | none => true

end Host

end BackupClient.Shell
