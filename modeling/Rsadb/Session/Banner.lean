import Rsadb.Error
import Rsadb.Library.Text

/-! The identity string of the connect exchange. Text is kept as its UTF-8
bytes: every delimiter of the format is a single ASCII byte. -/
namespace Rsadb

/-- Features this crate announces in its own banner. -/
def HOST_FEATURES : Bytes :=
  ascii "shell_v2,cmd,stat_v2,ls_v2,apex,abb,abb_exec,fixed_push_mkdir,fixed_push_symlink_timestamp"

/-- A parsed banner. The properties are an ordered map, as in the source. -/
structure Banner where
  kind : Bytes
  properties : Std.ExtTreeMap Bytes Bytes
  features : List Bytes
  deriving DecidableEq

namespace Banner

/-- Fold one `key=value` pair into a banner. -/
def addPair (banner : Banner) (pair : Bytes) : Banner :=
  let (key, value) := (Text.splitOnce (ascii "=") pair).getD (pair, [])
  if key = ascii "features" then
    { banner with features := (value.splitOn 0x2C).filter (· ≠ []) }
  else { banner with properties := banner.properties.insert key value }

/-- Parse a banner. Unknown shapes yield an empty banner rather than an error. -/
def parse (text : Bytes) : Banner :=
  let text := Text.trimEnd 0 text
  let (kind, rest) := (Text.splitOnce (ascii "::") text).getD (text, [])
  ((rest.splitOn 0x3B).filter (· ≠ [])).foldl addPair ⟨kind, ∅, []⟩

/-- The banner this crate sends. -/
def host : Bytes := ascii "host::features=" ++ HOST_FEATURES

/-- Serialise back to the wire form. -/
def toWire (banner : Banner) : Bytes :=
  let props := banner.properties.toList.map fun (k, v) => k ++ ascii "=" ++ v ++ ascii ";"
  let features :=
    if banner.features = [] then [] else ascii "features=" ++ List.intercalate (ascii ",") banner.features
  banner.kind ++ ascii "::" ++ props.flatten ++ features

end Banner
end Rsadb
