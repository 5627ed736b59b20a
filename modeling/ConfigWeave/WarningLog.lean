namespace ConfigWeave

inductive LogLevel where
  | debug
  | info
  | warn
  | error
deriving DecidableEq, Repr

/-- An event that is shown to the host. -/
structure LogEvent where
  level : LogLevel
  origin : Option String
  message : String
deriving DecidableEq, Repr

/-- A warning, how often it was given, and who gave it first. -/
structure Occurrences where
  message : String
  count : Nat
  origin : String
deriving DecidableEq, Repr

/-- The warnings that have not been shown yet, in the order in which they were first given. -/
structure WarningLog where
  entries : List Occurrences
deriving Repr

namespace WarningLog

def empty : WarningLog := ⟨[]⟩

/-- Counts a warning among those that have been given. -/
def countIn (origin message : String) : List Occurrences → List Occurrences
  | [] => [⟨message, 1, origin⟩]
  | entry :: rest =>
    if entry.message = message then { entry with count := entry.count + 1 } :: rest
    else entry :: countIn origin message rest

/-- Counts a warning. The first one to give it is kept as its origin. -/
def warn (log : WarningLog) (origin message : String) : WarningLog :=
  ⟨countIn origin message log.entries⟩

/-- The distinct warnings. -/
def tracked (log : WarningLog) : List String :=
  log.entries.map Occurrences.message

/-- How often a warning was given. -/
def count (log : WarningLog) (message : String) : Nat :=
  match log.entries.find? fun entry => entry.message = message with
  | some entry => entry.count
  | none => 0

def total (log : WarningLog) : Nat :=
  log.entries.foldr (fun entry rest => entry.count + rest) 0

end WarningLog

/-- A warning with the number of times it was given, if that is not one. -/
def Occurrences.line (entry : Occurrences) : String :=
  let message := entry.message
  let count := entry.count
  if count = 1 then message else s!"{message} ({count} times)"

def Occurrences.event (entry : Occurrences) : LogEvent :=
  ⟨.warn, some entry.origin, entry.line⟩

namespace WarningLog

/-- What is shown when the log is emptied, one line for every distinct warning. -/
def flushed (log : WarningLog) : List LogEvent :=
  log.entries.map Occurrences.event

/-- A summary of all warnings, if there are any. -/
def summary (log : WarningLog) : List LogEvent :=
  let total := log.total
  let distinct := log.entries.length
  if total = 0 then [] else [⟨.warn, none, s!"{total} warnings ({distinct} distinct)"⟩]

/-- What is shown when the log is closed. -/
def closed (log : WarningLog) : List LogEvent :=
  log.summary ++ log.flushed

def lines (log : WarningLog) : List String :=
  log.entries.map Occurrences.line

end WarningLog

/-- Who reports, and about which file. -/
structure Logger where
  origin : String
  source : Option String
deriving Repr

/-- The name under which a logger reports. -/
def Logger.text (logger : Logger) : String :=
  let origin := logger.origin
  match logger.source with
  | some source => s!"{origin} ({source})"
  | none => origin

/-- What is shown at once. Warnings are counted in a log instead. -/
def Logger.event (logger : Logger) (level : LogLevel) (message : String) : LogEvent :=
  ⟨level, some logger.text, message⟩

/-- What a log is asked to do. -/
inductive LogRequest where
  | warn (origin message : String)
  /-- A warning that a logger gives under its own name. -/
  | report (logger : Logger) (message : String)
  | tracked
  | count (message : String)
  | flush
  | close
deriving Repr

inductive LogAnswer where
  | done
  | messages (messages : List String)
  | count (count : Nat)
  | lines (lines : List String)
deriving DecidableEq, Repr

/-- What a request gives back, and what it shows to the host. -/
structure LogResponse where
  answer : LogAnswer
  shown : List LogEvent
deriving DecidableEq, Repr

namespace WarningLog

/-- Carries out a request. Flushing and closing leave nothing behind. -/
def respond (log : WarningLog) : LogRequest → LogResponse × WarningLog
  | .warn origin message => (⟨.done, []⟩, log.warn origin message)
  | .report logger message => (⟨.done, []⟩, log.warn logger.text message)
  | .tracked => (⟨.messages log.tracked, []⟩, log)
  | .count message => (⟨.count (log.count message), []⟩, log)
  | .flush => (⟨.lines log.lines, log.flushed⟩, .empty)
  | .close => (⟨.lines log.lines, log.closed⟩, .empty)

/-- Carries out requests one after the other. -/
def respondAll (log : WarningLog) : List LogRequest → List LogResponse × WarningLog
  | [] => ([], log)
  | request :: rest =>
    let (response, log) := log.respond request
    let (later, last) := log.respondAll rest
    (response :: later, last)

/-- What is shown when the log goes away. -/
def dropped (log : WarningLog) : List LogEvent :=
  (log.respond .flush).1.shown

end WarningLog

end ConfigWeave
