import TrafficKey.Yaml.Reader
import TrafficKey.Yaml.Writer

/-!
# The YAML library

What the program uses of a YAML library: reading the value of a text, and writing a value as a text. The
program is stated for every library; the reader and the writer of this project are one of them.
-/

namespace TrafficKey.Yaml

/-- A YAML library. -/
structure Library where
  /-- the value of a text -/
  load : String → Except ReadFault Data
  /-- the text of a value, with its last line end -/
  dump : Data → String

/-- The reader and the writer of this project. -/
def library : Library where
  load := read
  dump := fun d => render d ++ "\n"

end TrafficKey.Yaml
