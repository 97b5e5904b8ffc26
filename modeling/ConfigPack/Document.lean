import ConfigPack.ConfigError
import ConfigPack.Json.Reader
import ConfigPack.Json5.Reader
import ConfigPack.Path
import ConfigPack.Toml.Reader
import ConfigPack.Yaml.Reader

/-!
# Documents in files

The extension of a file says how its text is read as a document.
-/

namespace ConfigPack.Document

/-- The document that the text of a file holds. -/
def parse (path text : String) : Except ConfigError Json :=
  match Path.lowerExtension path with
  | "json" => (Json.parse text).mapError fun e => .parse path "json" (some (e.message text))
  | "json5" => (Json5.parse text).mapError fun _ => .parse path "json5" none
  | "yaml" => (Yaml.parseDocument text).mapError fun _ => .parse path "yaml" none
  | "yml" => (Yaml.parseDocument text).mapError fun _ => .parse path "yaml" none
  | "toml" => (Toml.parse text).mapError fun _ => .parse path "toml" none
  | other => .error (.parse path "unknown" (some s!"unsupported manifest extension '.{other}'"))

end ConfigPack.Document
