import ConfigWeave.Session

namespace ConfigWeave

/-- What loads share that are run one after the other: a cache and a log, and the included files of which the host
has been told in the current load. -/
structure LoadContext extends Session where
  notified : List Path

namespace LoadContext

/-- Tells the host of an included file, once per file and load. -/
def notify (context : LoadContext) (file : Path) : List Path × LoadContext :=
  if context.notified.any (file == ·) then ([], context)
  else ([file], { context with notified := context.notified ++ [file] })

/-- What the host is told on an effect, and what the effect leaves behind. -/
def record (context : LoadContext) : Effect → List Path × LoadContext
  | .included file => context.notify file
  | effect => ([], { context with toSession := context.toSession.record effect })

def recordAll (context : LoadContext) : List Effect → List Path × LoadContext
  | [] => ([], context)
  | effect :: rest =>
    let (first, context) := context.record effect
    let (later, context) := context.recordAll rest
    (first ++ later, context)

/-- Loads a main document. Besides the result there is what the host is told of. Only a load that finds the document
forgets of what the host was told before. -/
def load (context : LoadContext) (main : Path) : Except ComposeError Value × List Path × LoadContext :=
  match context.files.canonical main with
  | .error cause => (.error (.unreadable main cause), [], context)
  | .ok _ =>
    let run := context.toWorld.load main
    let (told, after) := { context with notified := [] }.recordAll run.trace
    (run.result, told, after)

end LoadContext

end ConfigWeave
