import BackupClient.Text.Decimal

/-!
Signals by number and name.
-/

namespace BackupClient.Shell

/-- The names of signals with their numbers and what a shell prints about a process that one ended.  The
number zero stands for the end of the shell itself. -/
def signalTable : List (String × Nat × String) :=
  [("EXIT", 0, ""), ("HUP", 1, "Hangup"), ("INT", 2, ""), ("QUIT", 3, "Quit"),
    ("ABRT", 6, "Aborted"), ("KILL", 9, "Killed"), ("USR1", 10, "User defined signal 1"),
    ("SEGV", 11, "Segmentation fault"), ("USR2", 12, "User defined signal 2"), ("PIPE", 13, ""),
    ("ALRM", 14, "Alarm clock"), ("TERM", 15, "Terminated"), ("CHLD", 17, ""), ("CONT", 18, "")]

def interruptSignal : Nat := 2

def quitSignal : Nat := 3

def killSignal : Nat := 9

/-- The signal that is sent where none is named. -/
def terminateSignal : Nat := 15

def signalNumber? (text : List Char) : Option Nat :=
  let bare := if "SIG".toList.isPrefixOf text then text.drop 3 else text
  match Text.Decimal.value? bare with
  | some number => some number
  | none => (signalTable.find? (·.1.toList = bare)).map (·.2.1)

def signalText (number : Nat) : String :=
  ((signalTable.find? (·.2.1 = number)).map (·.2.2)).getD ""

/-- Does a process pass over a signal for which it has made no arrangement? -/
def isHarmless (number : Nat) : Bool :=
  number = 0 || number = 17 || number = 18

end BackupClient.Shell
