import ScriptDelta.Path

/-! # Log events

What a run reports on the way. An event has a level, and a log shows the events up to a level, each
as a line with the part of the program that it comes from, a message and the fields with their
values.
-/

namespace ScriptDelta

/-- What a run reports. -/
inductive Event where
  /-- A body was not closed; the offset is that of its header. -/
  | bodyNotClosed (key : String) (offset : Nat)
  /-- A text was searched. -/
  | scanFinished (definitions bytes : Nat)
  /-- Both files of a pair were searched, and the ignored definitions left out. -/
  | scannedPair (tag : String) (old new : Nat)
  /-- A file of a pair does not exist. -/
  | missingFile (tag : String) (path : Path)
  /-- The reports of a pair were written. -/
  | wroteReports (tag : String) (patch brief : Path)
  /-- The summary was written. -/
  | wroteSummary (path : Path)
deriving DecidableEq

/-- How much an event matters. -/
inductive Level where
  | error
  | warn
  | info
  | debug
  | trace
deriving DecidableEq

namespace Level

/-- The rank of a level; what matters most comes first. -/
def rank : Level → Nat
  | .error => 0
  | .warn => 1
  | .info => 2
  | .debug => 3
  | .trace => 4

/-- The name of a level as a user writes it. -/
def name : Level → String
  | .error => "error"
  | .warn => "warn"
  | .info => "info"
  | .debug => "debug"
  | .trace => "trace"

/-- The name of a level in a log. -/
def label : Level → String
  | .error => "ERROR"
  | .warn => "WARN"
  | .info => "INFO"
  | .debug => "DEBUG"
  | .trace => "TRACE"

/-- The level of a name. -/
def ofName? (text : String) : Option Level :=
  [Level.error, .warn, .info, .debug, .trace].find? fun level => level.name == text

end Level

namespace Event

/-- The level of an event. -/
def level : Event → Level
  | .bodyNotClosed .. | .scanFinished .. | .scannedPair .. => .debug
  | .missingFile .. => .warn
  | .wroteReports .. | .wroteSummary .. => .info

/-- The part of the program that an event comes from. -/
def source : Event → String
  | .bodyNotClosed .. | .scanFinished .. => "methoddiff::scanner"
  | .scannedPair .. | .missingFile .. | .wroteReports .. | .wroteSummary .. => "methoddiff::pairs"

/-- What happened. -/
def message : Event → String
  | .bodyNotClosed .. => "body not closed before end of text"
  | .scanFinished .. => "scan finished"
  | .scannedPair .. => "scanned pair"
  | .missingFile .. => "missing file, skipping pair"
  | .wroteReports .. => "wrote pair reports"
  | .wroteSummary .. => "wrote summary"

/-- The fields of an event. -/
def fields : Event → List (String × String)
  | .bodyNotClosed key offset => [("key", key), ("offset", toString offset)]
  | .scanFinished definitions bytes =>
    [("definitions", toString definitions), ("bytes", toString bytes)]
  | .scannedPair tag old new =>
    [("tag", tag), ("old_definitions", toString old), ("new_definitions", toString new)]
  | .missingFile tag path => [("tag", tag), ("path", path.text)]
  | .wroteReports tag patch brief =>
    [("tag", tag), ("json", patch.text), ("markdown", brief.text)]
  | .wroteSummary path => [("path", path.text)]

/-- The event is shown in a log up to a level. -/
def isShownAt (event : Event) (limit : Level) : Bool :=
  event.level.rank ≤ limit.rank

/-- The line of an event in a log. -/
def line (event : Event) : String :=
  event.level.label ++ " " ++ event.source ++ ": " ++
    " ".intercalate (event.message :: event.fields.map fun (name, value) => name ++ "=" ++ value)

end Event

end ScriptDelta
