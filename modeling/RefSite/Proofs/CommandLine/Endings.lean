import RefSite.CommandLine.Program
import RefSite.Proofs.Site.Faults
import RefSite.Proofs.Site.Writing

namespace RefSite

namespace Site

variable {Event : Type} {s : Site Event} {output : Path} {disk : Disk}
  {active : Option (Feature.Active Event)} {f : Failure} {r r' : Run Event}

end Site

namespace CommandLine

variable {Event : Type} {e : Environment Event} {d : Disk} {texts : List String} {a : Arguments}
  {files : List Path} {site : Site Event} {output : Path} {ending : Ending} {f : Failure}

namespace Ending

end Ending

end CommandLine

end RefSite
