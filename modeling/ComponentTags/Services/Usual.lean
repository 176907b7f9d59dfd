import ComponentTags.Services
import ComponentTags.Yaml

/-!
# The services of the program

The services that the program runs with: the YAML reader and the schema checker of the library, and a system that
refuses nothing but paths that cannot be.
-/

namespace ComponentTags

/-- The failure of a document that breaks off. -/
def Yaml.Fault.documentFault : Fault → DocumentFault
  | malformed => .malformed
  | codePoint e => .failure (.codePoint e)
  | numeral e => .failure (.numeral e)
  | moment e => .failure (.moment e)

namespace Services

/-- No file has a null character in its path. -/
def nullObstacle (path : Path) : Option Obstacle :=
  if path.text.toList.contains '\x00' then some (.foreign "ValueError" "embedded null byte") else none

instance usual : Services where
  readDocument text := (Yaml.read text).mapError Yaml.Fault.documentFault
  issues schema v := .ok (schema.issues v)
  jsonDepth := 970
  lookObstacle _ := none
  readObstacle := nullObstacle
  openObstacle := nullObstacle
  writeObstacle _ _ := none
  printObstacle _ _ := none

end Services

end ComponentTags
