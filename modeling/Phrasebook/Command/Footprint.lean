import Phrasebook.Command.Invocation
import Phrasebook.Project

namespace Phrasebook.Command

/-- The paths that a project names. -/
def projectPaths (fs : FileSystem) (project : Path) : List Path :=
  match Project.load fs project with
  | .ok p => p.source :: p.languages.map (·.destination)
  | .error _ => []

/-- The paths that a request reads or writes. -/
def Request.footprint (fs : FileSystem) : Request → List Path
  | .compile r => r.project :: r.input.toList ++ r.report.toList ++ projectPaths fs r.project
  | .check r => [r.input]

end Phrasebook.Command
