import PingWaf.Lib.Net
import PingWaf.Waf.External

/-!
# Subscribed address groups

The control plane fetches a list of ranges and keeps the entries whose text before the slash is an
address.
-/

namespace PingWaf.Server

open Text Net Waf

def beforeSlash (s : String) : String := (splitChar '/' s).headD s

def validRange (line : String) : Option String :=
  let trimmed := trim line
  if trimmed = "" then none
  else if (IpAddr.fromStr (beforeSlash trimmed)).isSome then some trimmed else none

def jsonStrings : Option Json → List String
  | some (.array items) => items.filterMap Json.asStr
  | _ => []

def jsonItems : Option Json → List String
  | some (.array items) =>
    items.filterMap fun item => ((item.get "ip_prefix").or (item.get "ip")).bind Json.asStr
  | _ => []

/-- The raw entries: a plain array, and the two layouts of the Cloudflare document. -/
def jsonEntries (json : Json) : List String :=
  let result := (json.get "result").getD json
  jsonStrings (some json) ++ jsonStrings (result.get "ipv4_cidrs") ++
    jsonStrings (result.get "ipv6_cidrs") ++ jsonItems (result.get "items")

/-- The lines that are not blank and not comments. A carriage return is trimmed with the rest. -/
def textLines (body : String) : List String :=
  ((splitChar '\n' body).map trim).filter fun line => line ≠ "" && !hasPrefix line "#"

def jsonRanges (json : Json) : Except String (List String) :=
  let ranges := (jsonEntries json).filterMap validRange
  if ranges.isEmpty then .error "no IP ranges found in the JSON source" else .ok ranges

def trimStart (s : String) : String := String.ofList (trimStartList isWhitespace s.toList)

def looksJson (body : String) : Bool :=
  hasPrefix (trimStart body) "\x7b" || hasPrefix (trimStart body) "["

/-- `fromStr` is `serde_json::from_str`. -/
def parseSubscription (fromStr : String → Option Json) (body : String) :
    Except String (List String) :=
  if looksJson body then
    match fromStr (trimStart body) with
    | some json => jsonRanges json
    | none => .error "source looks like JSON but does not parse"
  else
    let ranges := (textLines body).filterMap validRange
    if ranges.isEmpty then .error "source returned no IP ranges" else .ok ranges

end PingWaf.Server
