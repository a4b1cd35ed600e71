import NodeGroups.Config.Codec
import NodeGroups.Toml.Document

/-!
# Loading the configuration

A configuration from a TOML text or from the content of a file. A configuration that is loaded
has been validated.
-/

namespace NodeGroups.ProviderConfig

/-- Reads a TOML text as a configuration without checking what it says. -/
def ofToml? (text : String) : Option ProviderConfig :=
  (Toml.parse? text).bind (ofDatum? .ignored)

/-- Reads a TOML text as a configuration. -/
def ofToml (text : String) : Except ConfigError ProviderConfig :=
  match ofToml? text with
  | none => .error .malformed
  | some c => c.validate.map fun _ ↦ c

/-- Reads the content of a file as a configuration, `none` being the content of a file that does
not exist. The content must be a text in UTF-8. -/
def ofFile (content : Option ByteArray) : Except ConfigError ProviderConfig :=
  match content with
  | none => .error (.unreadable "there is no such file")
  | some bytes =>
    match String.fromUTF8? bytes with
    | none => .error (.unreadable "the content is not a text")
    | some text => ofToml text

end NodeGroups.ProviderConfig
