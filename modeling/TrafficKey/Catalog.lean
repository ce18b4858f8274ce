import TrafficKey.Table
import TrafficKey.Text.Quoted

/-!
# The catalog of key names

The key names that a definition may use, each with a description. The built-in catalog covers the IP
headers; more names can be added as data.
-/

namespace TrafficKey

/-- A key name of the catalog. -/
structure KeyName where
  name : String
  description : String := ""
deriving DecidableEq, Repr

instance : Named KeyName := ⟨KeyName.name⟩

/-- A key name as debug output shows it; its description is left out. -/
def KeyName.debugText (k : KeyName) : String :=
  "KeyNameToken(name=" ++ Text.quoted k.name ++ ")"

/-- The known key names. -/
abbrev Catalog := Table KeyName

namespace Catalog

/-- The key names that are always there. -/
def builtinNames : List KeyName := [
  ⟨"ipsource", "IPv4 source address"⟩,
  ⟨"ipdestination", "IPv4 destination address"⟩,
  ⟨"ip6_offset", "IPv6 header offset from start of packet"⟩,
  ⟨"ip6tos", "type of service bits"⟩,
  ⟨"ip6ecn", "explicit congestion notification bits"⟩,
  ⟨"ip6dscp", "differentiated services code point"⟩,
  ⟨"ip6dscpname", "differentiated services code point name"⟩,
  ⟨"ip6flowlabel", "flow label"⟩,
  ⟨"ip6ttl", "time to live"⟩,
  ⟨"ip6source", "IPv6 source address"⟩,
  ⟨"ip6destination", "IPv6 destination address"⟩,
  ⟨"ip6bytes", "payload bytes"⟩,
  ⟨"ip6extensions", "list of next header values for extension headers"⟩,
  ⟨"ip6fragoffset", "fragment offset"⟩,
  ⟨"ip6fragm", "fragment m flag"⟩,
  ⟨"ip6nexthdr", "next header"⟩]

/-- The built-in catalog. -/
def builtin : Catalog := ⟨builtinNames, by decide⟩

/-- A catalog in one line. -/
def summary (c : Catalog) : String :=
  "KeyNameCatalog(" ++ toString c.size ++ " names)"

end Catalog

end TrafficKey
