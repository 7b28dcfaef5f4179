/-! Programs that are started from files: why one cannot be started, and what one leaves that has
ended. -/
namespace DocSite.Files

/-- Why a program could not be started. -/
inductive StartFailure where
  | notFound
  | permissionDenied
  | notExecutable
  /-- A parameter holds the NUL character, which ends a value in an environment. -/
  | nulInParameter
  | other (message : String)
  deriving Repr, DecidableEq, Inhabited

def StartFailure.message : StartFailure → String
  | .notFound => "No such file or directory (os error 2)"
  | .permissionDenied => "Permission denied (os error 13)"
  | .notExecutable => "Exec format error (os error 8)"
  | .nulInParameter => "nul byte found in provided data"
  | .other message => message

inductive ExitStatus where
  | code (n : Nat)
  | signal (n : Nat) (dumped : Bool)
  deriving Repr, DecidableEq, Inhabited

namespace ExitStatus

def signalNames : List String :=
  ["SIGHUP", "SIGINT", "SIGQUIT", "SIGILL", "SIGTRAP", "SIGABRT", "SIGBUS", "SIGFPE", "SIGKILL",
    "SIGUSR1", "SIGSEGV", "SIGUSR2", "SIGPIPE", "SIGALRM", "SIGTERM", "SIGSTKFLT", "SIGCHLD",
    "SIGCONT", "SIGSTOP", "SIGTSTP", "SIGTTIN", "SIGTTOU", "SIGURG", "SIGXCPU", "SIGXFSZ",
    "SIGVTALRM", "SIGPROF", "SIGWINCH", "SIGIO", "SIGPWR", "SIGSYS"]

def succeeded (s : ExitStatus) : Bool := s == .code 0

def message : ExitStatus → String
  | .code n => s!"exit status: {n}"
  | .signal n dumped =>
    let core := if dumped then " (core dumped)" else ""
    match signalNames[n - 1]? with
    | some name => s!"signal: {n} ({name}){core}"
    | none => s!"signal: {n}{core}"

end ExitStatus

/-- What a program leaves when it has ended. -/
structure Execution where
  output : ByteArray
  error : ByteArray
  status : ExitStatus

end DocSite.Files
