import PingWaf.Waf.Normalize.Body

/-!
# Request normalization

`normalizeRequest` splits a request into the flat list of decoded values that the detectors scan:
the path, the query pairs, the headers and cookies, and the members of the body, followed by the
values that base64 unwrapping exposes, cut to `maxDecodedValues` entries of at most
`maxDecodedValueLen` octets.

A parser of the source pushes into a shared vector. Here it returns the values it pushes, in order.
-/

namespace PingWaf.Waf

open Text

inductive ValueSource where
  | queryParam
  | header
  | cookie
  | body
  | path
  deriving DecidableEq

def ValueSource.asStr : ValueSource → String
  | .queryParam => "query"
  | .header => "header"
  | .cookie => "cookie"
  | .body => "body"
  | .path => "path"

/-- A normalized field of the request; `field` tells a discrete input from a body blob. -/
structure DecodedValue where
  source : ValueSource
  name : String
  decoded : String
  field : Bool

/-- How values are decoded: the percent-layer budget and the escape pass of the strict level. -/
structure DecodeOpts where
  maxDecodeLayers : Nat
  decodeEscapes : Bool

def DecodeOpts.value (o : DecodeOpts) (s : String) : String :=
  decodeValue s o.maxDecodeLayers o.decodeEscapes

def DecodeOpts.form (o : DecodeOpts) (s : String) : String :=
  decodeValueForm s o.maxDecodeLayers o.decodeEscapes

def jsonMaxDepth : Nat := 6
def jsonMaxValueLen : Nat := 4096
def jsonMaxValues : Nat := 64
def maxQueryParams : Nat := 256
def maxDecodedValues : Nat := 2048
def maxDecodedValueLen : Nat := 8 * 1024
def maxMultipartParts : Nat := 64
def b64MaxDepth : Nat := 2
def b64MaxValueLen : Nat := 16384

/-! ## JSON -/

def looksLikeJson (text : String) : Bool :=
  match trimStartList isWhitespace text.toList with
  | '\x7b' :: _ => true
  | '[' :: _ => true
  | _ => false

def stripQuotes (s : String) : String :=
  match s.toList with
  | q :: rest =>
    if (q = '\'' ∨ q = '"') ∧ rest.getLast? = some q then String.ofList rest.dropLast else s
  | [] => s

/-- The serialized JSON a string holds, if it is not empty, not too long, and parses. -/
def nestedJson (c : Crates) (s : String) : Option Json :=
  if s = "" ∨ jsonMaxValueLen < byteLen s then none
  else
    let stripped := stripQuotes (trim s)
    if looksLikeJson stripped then c.jsonFromStr stripped else none

def childPath (path k : String) : String := if path = "" then k else path ++ "." ++ k

def bodyField (name decoded : String) : DecodedValue := ⟨.body, name, decoded, true⟩

section

variable (c : Crates) (o : DecodeOpts)

def pushCounted (name decoded : String) (count : Nat) : List DecodedValue × Nat :=
  ([bodyField name decoded], count + 1)

/-- The members of a JSON value as fields, with the count of the walk they belong to. The first
argument is what is left of the depth budget, `jsonMaxDepth - depth`; a string member that is
itself serialized JSON is unpacked in place, by a walk with a count of its own. -/
def walkJson : Nat → Json → String → Nat → List DecodedValue × Nat
  | left, value, path, count =>
    if jsonMaxValues ≤ count then ([], count)
    else
      match value with
      | .string s =>
        if s = "" ∨ jsonMaxValueLen < byteLen s then ([], count)
        else
          let nested := match left with
            | 0 => []
            | left + 1 =>
              match nestedJson c s with
              | some v => (walkJson left v path 0).1
              | none => []
          if nested ≠ [] then (nested, count + 1) else pushCounted path (o.value s) count
      | .array items =>
        match left with
        | 0 => ([], count)
        | left + 1 =>
          items.zipIdx.foldl (fun st item =>
            let r := walkJson left item.1 (path ++ "[" ++ toString item.2 ++ "]") st.2
            (st.1 ++ r.1, r.2)) ([], count)
      | .object members =>
        match left with
        | 0 => ([], count)
        | left + 1 =>
          members.foldl (fun st member =>
            let r := walkJson left member.2 (childPath path member.1) st.2
            (st.1 ++ r.1, r.2)) ([], count)
      | .number n => pushCounted path n count
      | .bool b => pushCounted path (toString b) count
      | .null => ([], count)

/-- The members of a string that is serialized JSON, walked from depth one; the caller pushes them
in place of the string unless there are none. -/
def unpackStringJson (s path : String) : List DecodedValue :=
  match nestedJson c s with
  | some v => (walkJson c o (jsonMaxDepth - 1) v path 0).1
  | none => []

def unpackJson (body : String) : List DecodedValue :=
  if jsonMaxValueLen * 64 < byteLen body then []
  else
    match c.jsonFromStr body with
    | some root => (walkJson c o jsonMaxDepth root "" 0).1
    | none => []

/-! ## Pairs -/

def splitPair (pair : String) : String × String := (splitOnce '=' pair).getD (pair, "")

/-- What a pair of a query or of a form body pushes: the members of a value that is serialized
JSON, or else the key (unless it is empty or long) and the value. -/
def pairValues (source : ValueSource) (pair : String) : List DecodedValue :=
  let key := o.form (splitPair pair).1
  let val := o.form (splitPair pair).2
  let members := if val = "" then [] else unpackStringJson c o val key
  if members ≠ [] then members
  else
    (if key ≠ "" ∧ byteLen key ≤ 1024 then [⟨source, "", key, true⟩] else []) ++
      [⟨source, key, val, true⟩]

/-- The pairs of a query that are looked at: the first `maxQueryParams` pieces, if not empty. -/
def queryPairs (query : String) : List String :=
  if query = "" then [] else ((splitChar '&' query).take maxQueryParams).filter (· ≠ "")

def queryParams (query : String) : List (String × String) :=
  (queryPairs query).map fun pair => (o.form (splitPair pair).1, o.form (splitPair pair).2)

def parseQuery (query : String) : List DecodedValue :=
  (queryPairs query).flatMap (pairValues c o .queryParam)

def formPairs (body : String) : List String :=
  if body = "" then [] else (splitChar '&' body).filter (· ≠ "")

def parseFormBody (body : String) : List DecodedValue :=
  (formPairs body).flatMap (pairValues c o .body)

/-! ## Headers and cookies -/

def skipHeaders : List String :=
  ["cookie", "authorization", "proxy-authorization", "content-length", "transfer-encoding"]

def parseCookies (header : String) : List (String × String) :=
  (((splitChar ';' header).map trim).filter (· ≠ "")).map fun pair =>
    let kv := match splitOnce '=' pair with
      | some (k, v) => (trim k, trim v)
      | none => (pair, "")
    (multiDecode kv.1 o.maxDecodeLayers, o.value kv.2)

/-- What a header line pushes: its cookies, its decoded value, or nothing for a skipped name. -/
def headerValues (h : String × String) : List DecodedValue :=
  if eqIgnoreAsciiCase h.1 "cookie" then
    (parseCookies o h.2).map fun kv => ⟨.cookie, kv.1, kv.2, true⟩
  else if skipHeaders.any (eqIgnoreAsciiCase h.1) then []
  else [⟨.header, h.1, o.value h.2, true⟩]

def requestCookies (headers : Headers) : List (String × String) :=
  (headers.filter fun h => eqIgnoreAsciiCase h.1 "cookie").flatMap fun h => parseCookies o h.2

/-! ## Multipart -/

def splitSubGo (sep : List Char) : Nat → List Char → List Char → List (List Char)
  | _, [], cur => [cur.reverse]
  | n + 1, _ :: cs, cur => splitSubGo sep n cs cur
  | 0, c :: cs, cur =>
    if sep.isPrefixOf (c :: cs) then cur.reverse :: splitSubGo sep (sep.length - 1) cs []
    else splitSubGo sep 0 cs (c :: cur)

def stripPrefixList (pre l : List Char) : List Char :=
  if pre.isPrefixOf l then l.drop pre.length else l

def stripSuffixList (suf l : List Char) : List Char :=
  if suf.isSuffixOf l then l.take (l.length - suf.length) else l

def takeBytes : Nat → List Char → List Char
  | _, [] => []
  | budget, d :: ds => if d.utf8Size ≤ budget then d :: takeBytes (budget - d.utf8Size) ds else []

/-- A text cut at the last character boundary within `maxDecodedValueLen` octets. -/
def capText (s : String) : String :=
  if maxDecodedValueLen < byteLen s then String.ofList (takeBytes maxDecodedValueLen s.toList)
  else s

/-- The `boundary` parameter of a multipart content type. -/
def multipartBoundary (contentType : String) : Option String :=
  ((splitChar ';' contentType).drop 1).findSome? fun param =>
    (splitOnce '=' param).bind fun kv =>
      if eqIgnoreAsciiCase (trim kv.1) "boundary" then
        let value := trimMatches '"' (trim kv.2)
        if value = "" then none else some value
      else none

/-- The lines of a text; a carriage return belongs to the line feed it stands before. -/
def lines (text : List Char) : List (List Char) :=
  let pieces := text.splitOn '\n'
  pieces.dropLast.map (stripSuffixList ['\r']) ++ pieces.getLast?.toList

/-- The `name` attribute in the head of a part. -/
def multipartPartName (head : String) : String :=
  let name := (lines head.toList).findSome? fun line =>
    -- the search runs over the lower-cased line, the slice over the original one
    (splitOnceSub "name=".toList (line.map asciiLowerChar)).map fun p =>
      let rest := trimStartList isWhitespace (line.drop (p.1.length + 5))
      (stripPrefixList ['"'] rest).takeWhile (· != '"')
  String.ofList (name.getD [])

/-- The field of one part: none for the empty and closing pieces, for files and for binary
parts. -/
def multipartPart (part : List Char) : Option DecodedValue :=
  let part := stripPrefixList ['\r', '\n'] part
  if part = [] ∨ ['-', '-'].isPrefixOf part then none
  else
    ((splitOnceSub ['\r', '\n', '\r', '\n'] part).or (splitOnceSub ['\n', '\n'] part)).bind
      fun hc =>
        let headLower := String.ofList (hc.1.map asciiLowerChar)
        if hasSub headLower "filename=" then none
        else if hasSub headLower "content-type:" && !hasSub headLower "text/"
            && !hasSub headLower "json" && !hasSub headLower "xml" then none
        else
          let content := stripSuffixList ['\n'] (stripSuffixList ['\r', '\n'] hc.2)
          some (bodyField (multipartPartName (String.ofList hc.1))
            (o.form (capText (String.ofList content))))

def multipartFields (contentType text : String) : List DecodedValue :=
  match multipartBoundary contentType with
  | none => []
  | some boundary =>
    ((splitSubGo ("--" ++ boundary).toList 0 text.toList []).take maxMultipartParts).filterMap
      (multipartPart o)

/-! ## Bodies -/

/-- What a body pushes, by content type: parts and a blob, form pairs, a blob and JSON members, or
a blob alone. -/
def bodyValues (contentType text : String) : List DecodedValue :=
  let ctype := toAsciiLowercase contentType
  let blob : DecodedValue := ⟨.body, "", o.value text, false⟩
  if hasSub ctype "multipart/form-data" then multipartFields o contentType text ++ [blob]
  else if hasSub ctype "application/x-www-form-urlencoded" then parseFormBody c o text
  else if hasSub ctype "json" || looksLikeJson text then blob :: unpackJson c o text
  else [blob]

/-! ## Base64 -/

def isB64Char (d : Char) : Bool := isAsciiAlphanumeric d || d == '+' || d == '/' || d == '='

def isAsciiControl (d : Char) : Bool := d.toNat < 0x20 || d.toNat == 0x7F

def isBareControl (d : Char) : Bool :=
  isAsciiControl d && d != '\t' && d != '\n' && d != '\r'

def isPrintableByte (b : UInt8) : Bool :=
  (0x21 ≤ b && b ≤ 0x7E) || b == 32 || b == 9 || b == 10 || b == 12 || b == 13

/-- The text a value that is base64 as a whole decodes to, if nine tenths of it are printable. -/
def b64DecodeValue (s : List Char) : Option String :=
  if !s.all isB64Char then none
  else
    let core := trimEndList (· == '=') s
    let pad := (4 - core.length % 4) % 4
    if core.length < 12 ∨ pad = 3 then none
    else
      (c.b64Decode (String.ofList (core ++ List.replicate pad '='))).bind fun raw =>
        (utf8Decode raw).bind fun text =>
          if (raw.filter isPrintableByte).length * 10 < raw.length * 9 then none else some text

/-- The layers inside an unwrapped value, control characters blanked; none when nothing usable is
left. -/
def b64Inner (decoded : String) : Option String :=
  let decoded := if hasSub decoded "\\u" || hasSub decoded "\\x" then decodeEscapes decoded
    else decoded
  let decoded := if hasPercent decoded || hasSub decoded "&#" then o.value decoded else decoded
  if decoded = "" ∨ b64MaxValueLen < byteLen decoded then none
  else some (String.ofList (decoded.toList.map fun d => if isBareControl d then ' ' else d))

/-- What one value of a layer unwraps to: JSON members (with a second try after blanking every
control character), or the decoded text. -/
def b64Values (v : DecodedValue) : List DecodedValue :=
  match (b64DecodeValue c v.decoded.toList).bind (b64Inner o) with
  | none => []
  | some decoded =>
    let name := if v.name = "" then "b64" else v.name ++ ".b64"
    let whole : List DecodedValue := [⟨v.source, name, decoded, true⟩]
    if looksLikeJson decoded then
      let members := unpackStringJson c o decoded name
      if members ≠ [] then members
      else if decoded.toList.any isAsciiControl then
        let stripped := String.ofList (decoded.toList.map fun d => if isAsciiControl d then ' ' else d)
        let members := unpackStringJson c o stripped name
        if members ≠ [] then members else whole
      else whole
    else whole

def isB64Candidate (v : DecodedValue) : Bool :=
  v.field && 10 ≤ byteLen v.decoded && byteLen v.decoded ≤ b64MaxValueLen
    && v.decoded.toList.all isB64Char

def expandLayers : Nat → List DecodedValue → List DecodedValue
  | 0, _ => []
  | depth + 1, layer =>
    let next := (layer.filter isB64Candidate).flatMap (b64Values c o)
    next ++ expandLayers depth next

def expandBase64 (values : List DecodedValue) : List DecodedValue :=
  values ++ expandLayers c o b64MaxDepth values

/-- The base64 runs of a text between matching quotes, at most four of them, decoded. -/
def quotedRuns : Nat → Nat → List Char → List String
  | _, _, [] => []
  | skip + 1, pushed, _ :: cs => quotedRuns skip pushed cs
  | 0, pushed, q :: cs =>
    if 4 ≤ pushed then []
    else if q = '"' ∨ q = '\'' then
      let run := cs.takeWhile isB64Char
      if 16 ≤ run.length ∧ cs[run.length]? = some q then
        match b64DecodeValue c run with
        | some d => d :: quotedRuns (run.length + 1) (pushed + 1) cs
        | none => quotedRuns (run.length + 1) pushed cs
      else quotedRuns (max run.length 1) pushed cs
    else quotedRuns 0 pushed cs

def isQuotedCandidate (v : DecodedValue) : Bool :=
  v.field && !hasSub v.name ".b64" && 16 ≤ byteLen v.decoded
    && (v.decoded.toList.contains '"' || v.decoded.toList.contains '\'')

def expandB64Substrings (values : List DecodedValue) : List DecodedValue :=
  if o.decodeEscapes then
    values ++ (values.filter isQuotedCandidate).flatMap fun v =>
      (quotedRuns c 0 0 v.decoded.toList).map fun d =>
        ⟨v.source, if v.name = "" then "b64q" else v.name ++ ".b64q", d, true⟩
  else values

/-! ## The whole request -/

def parsedValues (rawPath rawQuery : String) (headers : Headers) (bodyText : Option String) :
    List DecodedValue :=
  let contentType := (headerValue headers "content-type").getD ""
  ⟨.path, "", multiDecode rawPath o.maxDecodeLayers, true⟩ :: parseQuery c o rawQuery ++
    headers.flatMap (headerValues o) ++
    (match bodyText with
      | some text => bodyValues c o contentType text
      | none => [])

def capValues (values : List DecodedValue) : List DecodedValue :=
  (values.take maxDecodedValues).map fun v => { v with decoded := capText v.decoded }

structure NormalizedRequest where
  method : String
  path : String
  fullUri : String
  queryParams : List (String × String)
  headers : Headers
  bodyText : Option String
  bodyInspection : BodyInspection
  cookies : List (String × String)
  decodedValues : List DecodedValue

def toAsciiUppercase (s : String) : String :=
  String.ofList (s.toList.map fun d => if 'a' ≤ d ∧ d ≤ 'z' then Char.ofNat (d.toNat - 32) else d)

def normalizeRequest (method rawPath rawQuery : String) (headers : Headers)
    (body : Option (List UInt8)) : NormalizedRequest :=
  let path := normalizePath (multiDecode rawPath o.maxDecodeLayers)
  let params := queryParams o rawQuery
  let decodedBody := body.map (decodeBody c headers)
  { method := toAsciiUppercase method
    path := path
    fullUri := if params = [] then path
      else path ++ "?" ++ "&".intercalate (params.map fun kv => kv.1 ++ "=" ++ kv.2)
    queryParams := params
    headers := headers
    bodyText := decodedBody.map (·.text)
    bodyInspection := (decodedBody.map (·.inspection)).getD .inspected
    cookies := requestCookies o headers
    decodedValues := capValues (expandB64Substrings c o (expandBase64 c o
      (parsedValues c o rawPath rawQuery headers (decodedBody.map (·.text))))) }

end

namespace NormalizedRequest

variable (r : NormalizedRequest)

def header (name : String) : Option String := headerValue r.headers name

def host : String := ((r.header "host").or (r.header ":authority")).getD ""

def userAgent : String := (r.header "user-agent").getD ""

end NormalizedRequest

end PingWaf.Waf
