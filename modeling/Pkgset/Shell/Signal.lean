import Pkgset.Text.Decimal

/-!
# Signals

The names of signals, the words that tell that one has ended a process, and the order
in which they are listed. The exit of a shell counts as signal zero.
-/

namespace Pkgset.Shell.Signal

/-- The signals with their names and the words that tell of them. -/
def named : List (Nat × String × String) := [
  (1, "HUP", "Hangup"), (2, "INT", "Interrupt"), (3, "QUIT", "Quit"), (4, "ILL", "Illegal instruction"),
  (5, "TRAP", "Trace/breakpoint trap"), (6, "ABRT", "Aborted"), (7, "BUS", "Bus error"),
  (8, "FPE", "Floating point exception"), (9, "KILL", "Killed"), (10, "USR1", "User defined signal 1"),
  (11, "SEGV", "Segmentation fault"), (12, "USR2", "User defined signal 2"), (13, "PIPE", "Broken pipe"),
  (14, "ALRM", "Alarm clock"), (15, "TERM", "Terminated"), (16, "16", "Stack fault"), (17, "CHLD", "Child exited"),
  (18, "CONT", "Continued"), (19, "STOP", "Stopped (signal)"), (20, "TSTP", "Stopped"),
  (21, "TTIN", "Stopped (tty input)"), (22, "TTOU", "Stopped (tty output)"), (23, "URG", "Urgent I/O condition"),
  (24, "XCPU", "CPU time limit exceeded"), (25, "XFSZ", "File size limit exceeded"),
  (26, "VTALRM", "Virtual timer expired"), (27, "PROF", "Profiling timer expired"), (28, "WINCH", "Window changed"),
  (29, "IO", "I/O possible"), (30, "PWR", "Power failure"), (31, "SYS", "Bad system call"),
  (32, "32", "Unknown signal 32"), (33, "33", "Unknown signal 33")]

/-- The first signal of those that are known by their distance from it, and the last. -/
def firstReal : Nat := 34

/-- The last signal. -/
def last : Nat := 64

/-- What counts as a signal when a command fails. -/
def trouble : Nat := 65

/-- The name of a signal. -/
def name (signal : Nat) : String :=
  match named.lookup signal with
  | some (name, _) => name
  | none =>
    if signal = 0 then "EXIT"
    else if signal = trouble then "ERR"
    else if signal = firstReal then "RTMIN"
    else if signal = last then "RTMAX"
    else if signal < 50 then "RTMIN+" ++ String.ofList (Decimal.digits (signal - firstReal))
    else "RTMAX-" ++ String.ofList (Decimal.digits (last - signal))

/-- The words that tell that a signal has ended a process. -/
def wording (signal : Nat) : String :=
  match named.lookup signal with
  | some (_, wording) => wording
  | none => "Real-time signal " ++ String.ofList (Decimal.digits (signal - firstReal))

/-- The signal of a name. -/
def ofName? (text : String) : Option Nat :=
  if text.toUpper = "EXIT" then some 0
  else ((List.range last).map (· + 1)).find? fun signal => name signal = text.toUpper

/-- The signal that a number or a name stands for. -/
def ofText? (text : String) : Option Nat :=
  if text ≠ "" && text.all Char.isDigit then
    let n := Decimal.ofDigits text.toList
    if n ≤ last then some n else none
  else ofName? text

end Pkgset.Shell.Signal
