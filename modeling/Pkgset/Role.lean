import Pkgset.Json.Document

/-!
# Roles of package-set entries
-/

namespace Pkgset

/-- What an entry is for: it runs while building, it is linked, or it is made for
    the target machine. -/
inductive Role where
  | tool | library | artifact
  deriving DecidableEq, Repr, Inhabited

namespace Role

/-- The role's name. -/
def name : Role → String
  | .tool => "tool"
  | .library => "library"
  | .artifact => "artifact"

/-- The role's name as inspection texts show it. -/
def title : Role → String
  | .tool => "Tool"
  | .library => "Library"
  | .artifact => "Artifact"

/-- Reads a role's name. -/
def parse? (text : String) : Option Role := [tool, library, artifact].find? (·.name = text)

/-- Reads a role out of a JSON document. -/
def ofDocument? (document : Json.Document) : Option Role := document.variant?.bind parse?

end Role
end Pkgset
