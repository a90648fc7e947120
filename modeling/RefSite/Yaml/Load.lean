import RefSite.Yaml.Compose
import RefSite.Yaml.Scanner
import RefSite.Yaml.Tie

namespace RefSite.Yaml

/-- The value of the only document of a text; nothing if there is none. -/
def load (s : String) : Except Failure Value :=
  match compose? (tokens s) with
  | .error f => .error f
  | .ok none => .ok .null
  | .ok (some (g, root)) => valueOfGraph g root

end RefSite.Yaml
