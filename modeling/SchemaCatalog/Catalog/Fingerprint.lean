import SchemaCatalog.Catalog.Writer
import SchemaCatalog.Digest.Blake3

/-!
# The fingerprint of a catalog
-/

namespace SchemaCatalog

/-- The digest of the canonical text: catalogs with the same objects in the same order have
the same fingerprint. -/
def Catalog.fingerprint (c : Catalog) : String := Digest.ofText c.render

end SchemaCatalog
