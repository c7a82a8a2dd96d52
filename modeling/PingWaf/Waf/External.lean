import PingWaf.Lib.Net

/-!
# Foreign crates

What the engine takes from crates outside the repository, as parameters of the model: the
`flate2` readers, `serde_json`, the base64 engine, `regex` and `ipnet`.
-/

namespace PingWaf.Waf

/-- What a decompressing reader does on an input: the bytes it yields, then a clean end of the
stream (`ok`) or an error. -/
structure Stream where
  bytes : List UInt8
  ok : Bool

/-- A parsed JSON value. Numbers carry their printed form; the members of an object stand in the
order in which the parser's map iterates. -/
inductive Json where
  | null
  | bool (b : Bool)
  | number (text : String)
  | string (s : String)
  | array (items : List Json)
  | object (members : List (String × Json))

def Json.get : Json → String → Option Json
  | .object members, key => (members.find? fun m => m.1 = key).map (·.2)
  | _, _ => none

def Json.asStr : Json → Option String
  | .string s => some s
  | _ => none

def Json.asI64 : Json → Option Int
  | .number text => Text.parseI64 text
  | _ => none

structure Crates where
  /-- `flate2::read::GzDecoder`, `ZlibDecoder` and `DeflateDecoder`. -/
  gzDecoder : List UInt8 → Stream
  zlibDecoder : List UInt8 → Stream
  deflateDecoder : List UInt8 → Stream
  /-- `serde_json::from_str`. -/
  jsonFromStr : String → Option Json
  /-- The base64 engine with trailing bits allowed. -/
  b64Decode : String → Option (List UInt8)
  /-- `regex::Regex::is_match`, the automaton named by its pattern. -/
  regexIsMatch : String → String → Bool
  /-- `ipnet::IpNet::from_str`. -/
  ipNetFromStr : String → Option Net.IpNet

def Crates.inert : Crates where
  gzDecoder _ := ⟨[], false⟩
  zlibDecoder _ := ⟨[], false⟩
  deflateDecoder _ := ⟨[], false⟩
  jsonFromStr _ := none
  b64Decode _ := none
  regexIsMatch _ _ := false
  ipNetFromStr _ := none

end PingWaf.Waf
