import IdentityLint.Config.Encoding
import IdentityLint.Toml.Document

/-!
Configuration files.
-/

namespace IdentityLint.Config

/-- In configuration files, a list that stands for a record may have surplus items. -/
def tomlLists : Value.ListForm := ⟨true⟩

/-- The configuration that the text of a configuration file spells; `none` if the text is not
well formed or a setting has the wrong type. -/
def ofToml? (text : String) : Option Config := (Toml.parse? text).bind (ofValue? tomlLists)

end IdentityLint.Config
