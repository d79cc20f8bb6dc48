import BackupClient.Shell.Host
import BackupClient.Shell.Parser
import BackupClient.Shell.Substitution

/-!
The steps of processes.
-/

namespace BackupClient.Shell

namespace Host

def complain (host : Host) (process : Process) (line : Nat) (text : String) : Host :=
  host.write process 2 (bytesOf (process.scope.title ++ ": ".toList ++
    Text.Decimal.digits line ++ ": ".toList ++ text.toList ++ ['\n']))

def abort (host : Host) (process : Process) (line : Nat) (text : String) : Host :=
  (host.complain process line text).put (process.finish (.exited 2))

def fork (host : Host) (process : Process) (command : Command) (change : Process → Process) :
    Nat × Host :=
  host.add fun number =>
    change
      { process with
        number := number, parent := process.number, frames := [.command command], pending := []
        handlers := Process.ignoredOnly false process.handlers, replaceable := true
        state := .running }

def forkAndWait (host : Host) (process : Process) (command : Command)
    (change : Process → Process) : Host :=
  let (number, host) := host.fork process command change
  host.put { process with state := .waiting number false }

def redirect (host : Host) (process : Process) (redirect : Redirect) :
    Except String (Host × Process) := do
  let (text, scope) ← process.scope.text redirect.target.word
  let process := { process with scope := scope }
  let opened (sink : Sink) : Process := process.connect redirect.descriptor (some sink)
  match redirect.target with
  | .document _ =>
      let (buffer, host) := host.addBuffer (bytesOf text)
      .ok (host, opened (.buffer buffer))
  | .source _ =>
      if text = "/dev/null".toList then .ok (host, opened .null)
      else
        match host.tree.read text with
        | .ok bytes =>
            let (buffer, host) := host.addBuffer bytes
            .ok (host, opened (.buffer buffer))
        | .error _ => .error ("cannot open " ++ String.ofList text ++ ": No such file")
  | .sink _ appending =>
      match String.ofList text with
      | "/dev/null" => .ok (host, opened .null)
      | "/dev/stdout" => .ok (host, process.connect redirect.descriptor (process.sink? 1))
      | "/dev/stderr" => .ok (host, process.connect redirect.descriptor (process.sink? 2))
      | _ =>
          if host.tree.isDirectory text then
            .error ("cannot create " ++ String.ofList text ++ ": Is a directory")
          else
            let isThere := (host.tree.read text).toOption.isSome
            let tree :=
              if appending ∧ isThere then host.tree else host.tree.install text (.file [])
            .ok ({ host with tree := tree }, opened (.file text))
  | .copy _ =>
      if text = ['-'] then .ok (host, process.connect redirect.descriptor none)
      else
        match process.sink? (Text.Decimal.value text) with
        | some sink => .ok (host, opened sink)
        | none => .error (String.ofList text ++ ": Bad file descriptor")

def redirectAll (host : Host) (process : Process) :
    List Redirect → Except String (Host × Process)
  | [] => .ok (host, process)
  | redirect :: rest => do
      let (host, process) ← host.redirect process redirect
      host.redirectAll process rest

def utilities : List String :=
  ["cat", "echo", "printf", "test", "[", "true", "false", "seq", "env", "printenv", "head", "tr",
    "wc", "yes"]

def baseName (path : List Char) : List Char :=
  (path.reverse.takeWhile (· ≠ '/')).reverse

def isSystemPath (path : List Char) : Bool :=
  ["/bin", "/usr/bin"].any fun directory =>
    path.take directory.length = directory.toList ∧
      path = directory.toList ++ '/' :: baseName path

def shells : List String :=
  ["sh", "dash", "bash"]

inductive Program where
  | shell
  | sleeper
  | utility (name : String)
  | script (source : List Char)

def interpreter (source : List Char) : List Char :=
  let line := (source.drop 2).takeWhile (· ≠ '\n')
  (line.dropWhile (· = ' ')).takeWhile (· ≠ ' ')

def isShellPath (path : List Char) : Bool :=
  isSystemPath path && shells.contains (String.ofList (baseName path))

def program? (host : Host) (path : List Char) : Except String Program :=
  let resolved :=
    match host.tree.resolve path with
    | .ok place => place.flatMap fun name => '/' :: name
    | .error _ => path
  let name := String.ofList (baseName resolved)
  if isShellPath resolved then .ok .shell
  else if isSystemPath resolved ∧ name = "sleep" then .ok .sleeper
  else if isSystemPath resolved ∧ utilities.contains name then .ok (.utility name)
  else
    match host.tree.inspect path with
    | .error error => .error error.message
    | .ok (.file content) =>
        let source := Text.Utf8.decodeLossy content
        if !host.executables.contains path then .error "Permission denied (os error 13)"
        else if !"#!".toList.isPrefixOf source then .error "Exec format error (os error 8)"
        else if isShellPath (interpreter source) then .ok (.script source)
        else .error Files.FileError.notFound.message
    | .ok _ => .error "Permission denied (os error 13)"

def pathOf (host : Host) (searched : List Char) (name : List Char) : List Char :=
  if name.contains '/' then name
  else
    let directories := (String.ofList searched).splitOn ":"
    let paths := directories.map fun directory => directory.toList ++ '/' :: name
    (paths.find? fun path => (host.program? path).toOption.isSome).getD name

/-- Begin to run a script in a process, with its title and arguments. -/
def becomeScript (process : Process) (source title : List Char) (arguments : List (List Char))
    (replaceable : Bool) : Process :=
  let frames : List Frame :=
    match parse? source with
    | some command => [.command command]
    | none => [.setStatus 2]
  { process with
    scope :=
      { process.scope with
        title := title, arguments := arguments, shellNumber := process.number, status := 0
        lastBackground := none, bindings := process.scope.bindings.filter (·.exported) }
    frames := frames, functions := [], replaceable := replaceable }

/-- Begin to run a shell in a process, which runs the script that its arguments name. -/
def becomeShell (host : Host) (process : Process) (path : List Char) (words : List (List Char)) :
    Process :=
  match words with
  | ['-', 'c'] :: source :: arguments =>
      becomeScript process source (arguments.headD path) arguments.tail true
  | file :: arguments =>
      let source := ((host.tree.readText file).toOption).getD []
      becomeScript process source file arguments false
  | [] => becomeScript process [] path [] false

/-- Let a process become a program, whatever it did before. -/
def become (host : Host) (process : Process) (path : List Char) (program : Program)
    (words : List (List Char)) : Process :=
  let process :=
    { process with
      handlers := Process.ignoredOnly true process.handlers, pending := [], state := .running }
  match program with
  | .shell => host.becomeShell process path words
  | .sleeper =>
      let nanos := (words.filterMap sleepNanos?).foldl (· + ·) 0
      { process.withStatus 0 with frames := [], state := .sleeping (host.now + nanos) }
  | .utility name => { process with frames := [.program (name.toList :: words)] }
  | .script source => becomeScript process source path words false

def countUp (first last : Int) : List Int :=
  (List.range (last - first + 1).toNat).map fun (step : Nat) => first + step

/-- The bytes of a file, of which some never end: the first of them, up to a number. -/
def fileBytes (host : Host) (limit : Nat) (path : List Char) : Option (List UInt8) :=
  if path = "/dev/zero".toList then some (List.replicate limit 0)
  else if path = "/dev/null".toList then some []
  else (host.tree.read path).toOption

def inputBytes (host : Host) (process : Process) (limit : Nat) (path : Option (List Char)) :
    List UInt8 × Host :=
  match path with
  | some path => ((host.fileBytes limit path).getD [], host)
  | none => host.readAll process

def variableLine (entry : Variable) : List Char :=
  entry.name ++ '=' :: entry.value ++ ['\n']

/-- As many bytes as are taken of an output that never ends. -/
def endlessBytes : Nat := 1048576

def runUtility (host : Host) (process : Process) (name : String) (words : List (List Char)) :
    Nat × Host :=
  match name with
  | "true" => (0, host)
  | "false" => (1, host)
  | "echo" => (0, host.write process 1 (echoBytes words))
  | "printf" =>
      match words with
      | [] => (2, host)
      | format :: rest =>
          (0, host.write process 1 (printfBytes format rest.length.succ rest))
  | "test" => (testStatus host.tree words, host)
  | "[" =>
      if words.getLast? = some [']'] then (testStatus host.tree words.dropLast, host) else (2, host)
  | "cat" =>
      if words.isEmpty ∨ words = [['-']] then
        let (bytes, host) := host.readAll process
        (0, host.write process 1 bytes)
      else
        words.foldl
          (fun (status, host) path =>
            match host.tree.read path with
            | .ok bytes => (status, host.write process 1 bytes)
            | .error _ =>
                (1, host.write process 2
                  (bytesOf ("cat: ".toList ++ path ++ ": No such file or directory\n".toList))))
          (0, host)
  | "seq" =>
      let (first, last) : Int × Int :=
        match words.map argumentNumber with
        | [last] => (1, last)
        | first :: last :: _ => (first, last)
        | [] => (1, 0)
      let lines := (countUp first last).flatMap fun number => Text.Decimal.ofInt number ++ ['\n']
      (0, host.write process 1 (bytesOf lines))
  | "head" =>
      let (count, inBytes, rest) : Nat × Bool × List (List Char) :=
        match words with
        | ['-', 'c'] :: count :: rest => (Text.Decimal.value count, true, rest)
        | ['-', 'n'] :: count :: rest => (Text.Decimal.value count, false, rest)
        | ('-' :: 'c' :: count) :: rest => (Text.Decimal.value count, true, rest)
        | ('-' :: 'n' :: count) :: rest => (Text.Decimal.value count, false, rest)
        | ('-' :: count) :: rest => (Text.Decimal.value count, false, rest)
        | rest => (10, false, rest)
      let (bytes, host) := host.inputBytes process count rest.head?
      (0, host.write process 1 (if inBytes then bytes.take count else firstLines count bytes))
  | "tr" =>
      let (bytes, host) := host.readAll process
      (0, host.write process 1 (translate words bytes))
  | "wc" =>
      let path := (words.filter fun word => word.head? ≠ some '-').head?
      let (bytes, host) := host.inputBytes process 0 path
      let count :=
        if words.contains "-l".toList then (bytes.filter (· = 10)).length else bytes.length
      (0, host.write process 1 (bytesOf (Text.Decimal.digits count ++ ['\n'])))
  | "yes" =>
      let line := bytesOf ((if words.isEmpty then ['y'] else [' '].intercalate words) ++ ['\n'])
      (0, host.write process 1 (List.replicate (endlessBytes / line.length) line).flatten)
  | "env" | "printenv" =>
      let exported :=
        (process.scope.bindings.filter (·.exported)).mergeSort
          fun left right => String.ofList left.name ≤ String.ofList right.name
      match words with
      | name :: _ =>
          match exported.find? (·.name = name) with
          | some found => (0, host.write process 1 (bytesOf (found.value ++ ['\n'])))
          | none => (1, host)
      | [] => (0, host.write process 1 (bytesOf (exported.flatMap variableLine)))
  | _ => (127, host)

def killSignalOf : List (List Char) → Option (Nat × List (List Char))
  | ['-', 's'] :: name :: rest => (signalNumber? name).map fun number => (number, rest)
  | ['-', '-'] :: rest => some (terminateSignal, rest)
  | ('-' :: name) :: rest => (signalNumber? name).map fun number => (number, rest)
  | rest => some (terminateSignal, rest)

/-- Send a signal to the processes that words name.  The answer is the status. -/
def killAll (host : Host) (signal : Nat) (words : List (List Char)) : Nat × Host :=
  words.foldl
    (fun (status, host) word =>
      match integer? word with
      | some number =>
          if number ≤ 0 then (status, host.signalAll signal)
          else
            let (isThere, host) := host.signal number.toNat signal
            (if isThere then status else 1, host)
      | none => (1, host))
    (0, host)

def trap (process : Process) (words : List (List Char)) : Process :=
  match words with
  | ['-'] :: signals =>
      (signals.filterMap signalNumber?).foldl (fun process signal => process.handle signal none)
        process
  | action :: signals =>
      let handler : Handler := if action.isEmpty then .ignore false else .action action
      (signals.filterMap signalNumber?).foldl
        (fun process signal => process.handle signal (some handler)) process
  | [] => process

/-- Drop what there is to do down to the nearest loop, which is kept or not. -/
def leaveLoop (keep : Bool) (process : Process) : List Frame → Process
  | [] => process
  | frame :: rest =>
      match frame with
      | .loopDecide .. | .loopNext .. | .eachNext .. =>
          { process with frames := if keep then frame :: rest else rest }
      | .restore descriptors => leaveLoop keep { process with descriptors := descriptors } rest
      | _ => leaveLoop keep process rest

def leaveFunction (process : Process) : List Frame → Process
  | [] => { process with frames := [] }
  | frame :: rest =>
      match frame with
      | .leave _ => { process with frames := frame :: rest }
      | .restore descriptors => leaveFunction { process with descriptors := descriptors } rest
      | _ => leaveFunction process rest

def setWord (exporting : Bool) (scope : Scope) (word : List Char) : Scope :=
  let name := word.takeWhile (· ≠ '=')
  let scope :=
    if word.contains '=' then scope.set name (word.drop (name.length + 1)) else scope
  if exporting then scope.publish name else scope

def numberOr (word : Option (List Char)) (missing : Nat) : Nat :=
  match word.bind integer? with
  | some number => (number % 256).toNat
  | none => missing

/-- Cut a line into the values of variables, the last of which gets the rest. -/
def assignLine (scope : Scope) (line : List Char) : List (List Char) → Scope
  | [] => scope
  | [name] =>
      let trimmed := line.dropWhile (· = ' ')
      scope.set name (trimmed.reverse.dropWhile (· = ' ')).reverse
  | name :: names =>
      let trimmed := line.dropWhile (· = ' ')
      let value := trimmed.takeWhile (· ≠ ' ')
      assignLine (scope.set name value) (trimmed.drop value.length) names

def isTested (process : Process) : Bool :=
  process.frames.any fun frame =>
    match frame with
    | .afterLeft .. | .negate | .choose .. | .loopDecide .. => true
    | _ => false

/-- End a strict process that has failed where nothing looks at it. -/
def checkFailure (process : Process) : Process :=
  if process.strict ∧ process.scope.status ≠ 0 ∧ ¬ isTested process then
    { process with frames := [] }
  else process

def done (host : Host) (process : Process) (status : Nat) : Host :=
  host.put (process.withStatus status)

/-- Carry a command out that changes the shell itself, if the name is that of one.  The process comes
without the frame of the command. -/
def runSpecial? (host : Host) (process : Process) (name : String) (words : List (List Char)) :
    Option Host :=
  let scope := process.scope
  match name with
  | ":" => some (host.done process 0)
  | "exit" =>
      let process := process.withStatus (numberOr words.head? scope.status)
      some (host.put { process with frames := [] })
  | "return" =>
      some (host.put
        (leaveFunction (process.withStatus (numberOr words.head? scope.status)) process.frames))
  | "break" => some (host.put (leaveLoop false (process.withStatus 0) process.frames))
  | "continue" => some (host.put (leaveLoop true (process.withStatus 0) process.frames))
  | "trap" => some (host.done (trap process words) 0)
  | "kill" =>
      let (status, killed) :=
        match killSignalOf words with
        | some (signal, rest) => killAll (host.put process) signal rest
        | none => (1, host.put process)
      match killed.find? process.number with
      | some process =>
          some (if process.ended?.isSome then killed else killed.done process status)
      | none => some killed
  | "wait" =>
      let awaited :=
        if words.isEmpty then host.children process.number else words.map Text.Decimal.value
      match words, awaited with
      | _ :: _, [number] =>
          some (host.put { process.withStatus 127 with state := .waiting number true })
      | _, _ => some (host.put { process.withStatus 0 with state := .waitingAll awaited })
  | "read" =>
      let names := words.filter fun word => word.head? ≠ some '-'
      let (isWhole, line, host) := host.readLine process
      let scope := assignLine scope (Text.Utf8.decodeLossy line) names
      some (host.done { process with scope := scope } (if isWhole then 0 else 1))
  | "shift" =>
      let arguments := scope.arguments.drop (numberOr words.head? 1)
      some (host.done { process with scope := { scope with arguments := arguments } } 0)
  | "set" =>
      let (strict, arguments) :=
        match words with
        | ['-', '-'] :: rest => (process.strict, rest)
        | ('-' :: flags) :: rest =>
            (process.strict || flags.contains 'e', if rest.isEmpty then scope.arguments else rest)
        | ('+' :: flags) :: _ => (process.strict && !flags.contains 'e', scope.arguments)
        | _ => (process.strict, words)
      some (host.done
        { process with strict := strict, scope := { scope with arguments := arguments } } 0)
  | "export" => some (host.done { process with scope := words.foldl (setWord true) scope } 0)
  | "readonly" | "local" =>
      some (host.done { process with scope := words.foldl (setWord false) scope } 0)
  | "unset" => some (host.done { process with scope := words.foldl Scope.unset scope } 0)
  | "cd" | "umask" | "ulimit" => some (host.done process 0)
  | "eval" =>
      match parse? (Scope.joinWords words) with
      | some command => some (host.put ((process.withStatus 0).push [.command command]))
      | none => some (host.put (process.finish (.exited 2)))
  | "." =>
      match words.head?.bind fun path => (host.tree.readText path).toOption.bind parse? with
      | some command => some (host.put ((process.withStatus 0).push [.command command]))
      | none => some (host.put (process.finish (.exited 2)))
  | _ => none

def shellPath : List Char :=
  "/usr/local/sbin:/usr/local/bin:/usr/sbin:/usr/bin:/sbin:/bin".toList

/-- Start a program for a process, or let the process become it if that has nothing else to do.  A
complaint begins with the command by which that was asked for. -/
def launch (host : Host) (process : Process) (line : Nat) (replaces : Bool) (asked : String)
    (name : List Char) (words : List (List Char)) : Host :=
  let path := host.pathOf ((process.scope.value? "PATH".toList).getD shellPath) name
  match if path.contains '/' then host.program? path else .error "" with
  | .error reason =>
      let (text, status) :=
        if reason.startsWith "Permission denied" then (": Permission denied", 126)
        else (": not found", 127)
      let host := host.complain process line (asked ++ String.ofList name ++ text)
      host.done (if replaces then { process with frames := [] } else process) status
  | .ok program =>
      if replaces then host.put (host.become process path program words)
      else
        let (number, forked) := host.fork process .nothing id
        let forked :=
          match forked.find? number with
          | some child => forked.put (forked.become child path program words)
          | none => forked
        forked.put { process with state := .waiting number false }

def isLast (process : Process) : Bool :=
  process.replaceable && process.handlers.all (fun (_, handler) =>
      match handler with
      | .ignore _ => true
      | .action _ => false) &&
    process.frames.all fun frame =>
      match frame with
      | .command (.sequence []) => true
      | _ => false

def withVariables (process : Process) (changes : List (List Char × List Char)) : Process :=
  { process with
    scope :=
      changes.foldl (fun scope (name, value) => (scope.set name value).publish name)
        process.scope }

/-- Carry out the words of a command whose redirects are in force.  The process comes without the frame of
the command, and with the descriptors that it had before. -/
def runWords (host : Host) (process : Process) (line : Nat)
    (before : List (Nat × Sink)) (changes : List (List Char × List Char)) (name : List Char)
    (words : List (List Char)) : Host :=
  let restoring :=
    if process.descriptors = before then process else process.push [.restore before]
  match process.functions.find? (·.1 = name) with
  | some (_, body) =>
      let called := restoring.push [.command body, .leave process.scope.arguments]
      host.put { called with scope := { called.scope with arguments := words } }
  | none =>
      match String.ofList name, words with
      | "exec", [] => host.done process 0
      | "exec", program :: words =>
          host.launch (withVariables process changes) line true "exec: " program words
      | "command", name :: words =>
          match host.runSpecial? restoring (String.ofList name) words with
          | some host => host
          | none => host.launch restoring line false "" name words
      | text, _ =>
          match host.runSpecial? restoring text words with
          | some host => host
          | none =>
              if utilities.contains text then
                let (status, host) := host.runUtility (withVariables process changes) text words
                host.done { process with descriptors := before } status
              else if changes.isEmpty then
                if isLast process then host.launch process line true "" name words
                else host.launch restoring line false "" name words
              else
                let (number, forked) :=
                  host.fork restoring .nothing fun child => withVariables child changes
                let forked :=
                  match forked.find? number with
                  | some child =>
                      forked.launch { child with frames := [] } line true "" name words
                  | none => forked
                forked.put { restoring with state := .waiting number false }

def assignmentValues (scope : Scope) :
    List (List Char × Word) → Except String (List (List Char × List Char) × Scope)
  | [] => .ok ([], scope)
  | (name, word) :: rest => do
      let (value, scope) ← scope.text word
      let (others, scope) ← assignmentValues (scope.set name value) rest
      .ok ((name, value) :: others, scope)

def runSimple (host : Host) (process : Process) (command : SimpleCommand) : Host :=
  match process.scope.allFields command.words with
  | .error text => host.abort process command.line text
  | .ok (fields, scope) =>
      match assignmentValues scope command.assignments with
      | .error text => host.abort process command.line text
      | .ok (changes, assigned) =>
          let before := process.descriptors
          let kept := if fields.isEmpty then assigned else scope
          match host.redirectAll { process with scope := kept } command.redirects with
          | .error text => (host.complain process command.line text).done process 2
          | .ok (host, redirected) =>
              match fields with
              | [] =>
                  let status := if command.hasCaptured then process.scope.status else 0
                  host.done { redirected with descriptors := before } status
              | name :: words =>
                  host.runWords redirected command.line before changes name words

def chooseArm (scope : Scope) (text : List Char) : List (List Word × Command) → Command
  | [] => .nothing
  | (patterns, body) :: rest =>
      if patterns.any fun word =>
          match scope.pattern word with
          | .ok pattern => matchMarked pattern text
          | .error _ => false
      then body
      else chooseArm scope text rest

/-- Begin a command that has no commands in its words.  The process comes without its frame. -/
def begin (host : Host) (process : Process) (command : Command) : Host :=
  match command with
  | .simple command =>
      let host := host.runSimple process command
      match host.find? process.number with
      | some after =>
          if after.state = .running ∧ after.frames.length = process.frames.length then
            host.put (checkFailure after)
          else host
      | none => host
  | .sequence commands => host.put (process.push (commands.map .command))
  | .subshell body => host.forkAndWait process body id
  | .redirected body redirects =>
      match host.redirectAll process redirects with
      | .error text => (host.complain process 1 text).done process 2
      | .ok (host, redirected) =>
          host.put (redirected.push [.command body, .restore process.descriptors])
  | .conditional test body otherwise =>
      host.put (process.push [.command test, .choose body otherwise])
  | .loop whileTrue test body =>
      host.put (process.push [.command test, .loopDecide whileTrue test body 0])
  | .each name items body =>
      match items with
      | none => host.put ((process.withStatus 0).push [.eachNext name process.scope.arguments body])
      | some words =>
          match process.scope.allFields words with
          | .error text => host.abort process 1 text
          | .ok (fields, scope) =>
              host.put (({ process with scope := scope }.withStatus 0).push
                [.eachNext name fields body])
  | .choice subject arms =>
      match process.scope.text subject with
      | .error text => host.abort process 1 text
      | .ok (text, scope) =>
          let process := { process with scope := scope }.withStatus 0
          host.put (process.push [.command (chooseArm scope text arms)])
  | .both whenTrue left right =>
      host.put (process.push [.command left, .afterLeft whenTrue right])
  | .negated body => host.put (process.push [.command body, .negate])
  | .pipe left right =>
      let (buffer, host) := host.addBuffer []
      host.forkAndWait (process.push [.pipeRight buffer right]) left
        (·.connect 1 (some (.buffer buffer)))
  | .background body =>
      let (number, host) :=
        host.fork process body fun child =>
          ((child.connect 0 (some .null)).handle interruptSignal (some (.ignore true))).handle
            quitSignal (some (.ignore true))
      host.put
        { process.withStatus 0 with
          scope := { process.scope with status := 0, lastBackground := some number } }
  | .define name body =>
      host.done { process with functions := (name, body) :: process.functions } 0

def capturedText (bytes : List UInt8) : List Char :=
  ((Text.Utf8.decodeLossy bytes).reverse.dropWhile (· = '\n')).reverse

/-- Go on with the top of what there is to do.  The process comes without that frame. -/
def resume (host : Host) (process : Process) (frame : Frame) : Host :=
  let status := process.scope.status
  match frame with
  | .command command =>
      match command.source? with
      | none => host.begin process command
      | some source =>
          let (buffer, host) := host.addBuffer []
          let body := (parse? source).getD .nothing
          host.forkAndWait (process.push [.plug buffer command]) body
            (·.connect 1 (some (.buffer buffer)))
  | .afterLeft whenTrue right =>
      if (status = 0) = whenTrue then host.put (process.push [.command right]) else host.put process
  | .negate => host.done process (if status = 0 then 1 else 0)
  | .choose body otherwise =>
      let chosen := if status = 0 then body else otherwise
      host.put ((process.withStatus 0).push [.command chosen])
  | .loopDecide whileTrue test body last =>
      if (status = 0) = whileTrue then
        host.put (process.push [.command body, .loopNext whileTrue test body])
      else host.done process last
  | .loopNext whileTrue test body =>
      host.put (process.push [.command test, .loopDecide whileTrue test body status])
  | .eachNext name items body =>
      match items with
      | [] => host.put process
      | item :: rest =>
          let process := { process with scope := process.scope.set name item }
          host.put (process.push [.command body, .eachNext name rest body])
  | .restore descriptors => host.put { process with descriptors := descriptors }
  | .leave arguments =>
      host.put { process with scope := { process.scope with arguments := arguments } }
  | .plug buffer command =>
      host.put (process.push [.command (command.plug (capturedText (host.bufferBytes buffer)))])
  | .pipeRight buffer right =>
      host.forkAndWait process right (·.connect 0 (some (.buffer buffer)))
  | .setStatus status => host.done process status
  | .program [] => host.put process
  | .program (name :: words) =>
      let (status, host) := host.runUtility process (String.ofList name) words
      host.done process status

/-- A process has nothing more to do: it carries out what it has arranged for its end, then ends. -/
def close (host : Host) (process : Process) : Host :=
  match process.handler? 0 with
  | some (.action source) =>
      let body := (parse? source).getD .nothing
      host.put ((process.handle 0 none).push
        [.command body, .setStatus process.scope.status])
  | _ => host.put (process.finish (.exited process.scope.status))

def deliver (host : Host) (process : Process) (signal : Nat) : Host :=
  match process.handler? signal with
  | some (.action source) =>
      let body := (parse? source).getD .nothing
      host.put (process.push [.command body, .setStatus process.scope.status])
  | _ => host.put process

def step (host : Host) (process : Process) : Host :=
  match process.pending with
  | signal :: rest => host.deliver { process with pending := rest } signal
  | [] =>
      match process.frames with
      | [] => host.close process
      | frame :: rest => host.resume { process with frames := rest } frame

def collect (host : Host) (process : Process) (number : Nat) : Host :=
  match (host.find? number).bind Process.ended? with
  | none => host.put { process with state := .running }
  | some ended =>
      let process := { process.withStatus ended.status with state := .running }
      let process :=
        match process.frames with
        | .plug .. :: _ => process
        | .pipeRight .. :: _ => process
        | _ => checkFailure process
      let host := (host.forget number).put process
      match ended with
      | .signalled signal =>
          let text := signalText signal
          if text.isEmpty then host else host.write process 2 (bytesOf (text.toList ++ ['\n']))
      | .exited _ => host

/-- What a process can do now, if it can do anything. -/
def advance? (host : Host) (process : Process) : Option Host :=
  match process.state with
  | .running => some (host.step process)
  | .sleeping wake =>
      if wake ≤ host.now then some (host.put { process with state := .running }) else none
  | .waiting number interruptible =>
      if host.isOver number then some (host.collect process number)
      else if interruptible ∧ ¬ process.pending.isEmpty then
        some (host.put { process with state := .running })
      else none
  | .waitingAll numbers =>
      if numbers.all host.isOver ∨ ¬ process.pending.isEmpty then
        some (host.put { process with state := .running })
      else none
  | .ended _ => none

/-- Let all processes go on until each waits or has ended, or until they have taken many steps. -/
def settle (host : Host) : Nat → Host
  | 0 => host
  | steps + 1 =>
      match host.processes.findSome? host.advance? with
      | some host => settle host steps
      | none => host

def nextWake? (host : Host) : Option Nat :=
  (host.processes.filterMap fun process =>
    match process.state with
    | .sleeping wake => some wake
    | _ => none).min?

end Host

end BackupClient.Shell
