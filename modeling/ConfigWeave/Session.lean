import ConfigWeave.Compose.Document
import ConfigWeave.WarningLog

namespace ConfigWeave

/-- The files that were included, each once. -/
def includedFiles (effects : List Effect) : List Path :=
  effects.foldl (fun files effect =>
    match effect with
    | .included file => if files.any (file == ·) then files else files ++ [file]
    | _ => files) []

/-- The name under which the composition of a file gives warnings. -/
def Logger.ofFile (file : Path) : Logger :=
  ⟨"yamlcomposer", some file.text⟩

/-- Loads that share a cache and a log. -/
structure Session extends World where
  log : WarningLog

namespace Session

def ofWorld (world : World) : Session :=
  ⟨world, .empty⟩

/-- What an effect leaves behind. -/
def record (session : Session) : Effect → Session
  | .warned file message => { session with log := session.log.warn (Logger.ofFile file).text message }
  | .opened file => { session with cache := (session.cache.fetch session.files file).2 }
  | .included _ => session

/-- Loads a main document. Besides the result there are the files that it includes. -/
def load (session : Session) (main : Path) : Except ComposeError Value × List Path × Session :=
  let run := session.toWorld.load main
  (run.result, includedFiles run.trace, run.trace.foldl record session)

end Session

end ConfigWeave
