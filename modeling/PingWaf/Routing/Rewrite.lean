import PingWaf.Plugin.Rewrite
import PingWaf.Routing.Location

/-!
# Path rewriting of a location

A location may rewrite the path of a request by a pattern and, on the copy that goes to the
upstream, strip its own path or put a fixed path in its place. Each of these, and the removal of a
query parameter, writes a new request target and has it read as a URI.
-/

namespace PingWaf.Routing

open Text Plugin

/-! ## Foreign parsers -/

/-- The leftmost match of a pattern: the text around it, the replacement with its references to
groups filled in, and the values of the named groups. -/
structure Captures where
  before : String
  after : String
  expand : String → String
  name : String → Option String

structure RewriteParsers where
  captures : String → String → Option Captures
  captureNames : String → List String
  parseUri : String → Option Uri

/-! ## Configuration -/

def maxRewritePathLen : Nat := 2048

def validateRewritePath (value : String) : Except String Unit :=
  if value = "" then .ok ()
  else if trim value = "" then .error "rewrite_path must not be blank"
  else if maxRewritePathLen < byteLen value then
    .error ("rewrite_path must be at most " ++ toString maxRewritePathLen ++ " bytes")
  else
    match value.toList.find? fun ch => ch == '?' || ch == '#' || isWhitespace ch || isControl ch with
    | some bad =>
      .error ("rewrite_path must not contain '" ++ String.ofList [bad] ++
        "' (query, fragment, whitespace and control characters are not allowed)")
    | none =>
      if hasPrefix value "/" then .ok ()
      else .error ("rewrite_path '" ++ value ++ "' must start with '/'")

/-- A path that `Location::new` keeps. -/
def IsRewritePath (value : String) : Prop := value ≠ "" ∧ validateRewritePath value = .ok ()

/-- `"<regex> <replacement>"`. -/
structure RegexRewrite where
  re : String
  value : String

def RegexRewrite.matchAll (rw : RegexRewrite) : Bool := rw.re == ".*"

def RegexRewrite.hasVariables (rw : RegexRewrite) : Bool := rw.value.toList.contains '$'

structure PathRewrite where
  pathSelector : PathSelector
  regRewrite : Option RegexRewrite
  stripPrefix : Bool
  rewritePath : Option { value // IsRewritePath value }

def PathRewrite.pathPrefix (l : PathRewrite) : Option String :=
  match l.pathSelector with
  | .startsWith value => some value
  | _ => none

/-! ## New targets -/

def withQuery (path : String) : Option String → String
  | none => path
  | some query => path ++ "?" ++ query

def strippedPath (path : String) (pre rewrite : Option String) : Option String :=
  let newPath :=
    match rewrite with
    | some rewrite => some rewrite
    | none => (pre.bind (Routing.stripPrefix path)).map fun rest =>
        if rest = "" then "/" else if hasPrefix rest "/" then rest else "/" ++ rest
  newPath.filter (· ≠ path)

abbrev Variables := Table String String

def isNameChar (ch : Char) : Bool := isAsciiAlphanumeric ch || ch == '_'

/-- A turn for each `$`, so as many turns as there are characters are enough. -/
def interpolateNames (vars : Variables) : Nat → List Char → List Char
  | 0, rest => rest
  | n + 1, rest =>
    match splitOnceList '$' rest with
    | none => rest
    | some (before, after) =>
      let name := after.takeWhile isNameChar
      let value :=
        if name = [] then ['$']
        else ((vars.lookup (String.ofList name)).map String.toList).getD ('$' :: name)
      before ++ value ++ interpolateNames vars n (after.dropWhile isNameChar)

def interpolateVariables (template : String) (vars : Variables) : String :=
  String.ofList (interpolateNames vars template.toList.length template.toList)

section

variable (c : RewriteParsers)

def RegexRewrite.hasNamedCaptures (rw : RegexRewrite) : Bool := !(c.captureNames rw.re).isEmpty

def RegexRewrite.replacement (rw : RegexRewrite) (vars : Option Variables) : String :=
  match vars with
  | some vars =>
    if rw.hasVariables && vars.size ≠ 0 then interpolateVariables rw.value vars else rw.value
  | none => rw.value

/-- The path that a pattern rewrites to, with the match; none where it does not match. -/
def RegexRewrite.newPath (rw : RegexRewrite) (vars : Option Variables) (path : String) :
    Option (String × Option Captures) :=
  if rw.matchAll then some (rw.replacement vars, none)
  else (c.captures rw.re path).map fun found =>
    (found.before ++ found.expand (rw.replacement vars) ++ found.after, some found)

def RegexRewrite.keep (rw : RegexRewrite) (captures : Option Captures) (vars : Option Variables) :
    Option Variables :=
  match captures with
  | none => vars
  | some found =>
    if rw.hasNamedCaptures c then
      (c.captureNames rw.re).foldl
        (fun vars name => match found.name name with
          | some value => some ((vars.getD ∅).insert name value)
          | none => vars) vars
    else vars

/-! ## The four functions -/

def setTarget (r : RequestHeader) (target : String) : RequestHeader × Bool :=
  match c.parseUri target with
  | some uri => (r.setUri uri, true)
  | none => (r, false)

def setRequestPath (r : RequestHeader) (newPath : String) : RequestHeader × Bool :=
  setTarget c r (withQuery newPath r.query)

/-- The new path for the upstream. Only a target in origin form has a path to rewrite. -/
def PathRewrite.upstreamPath (l : PathRewrite) (path : String) : Option String :=
  if l.rewritePath.isNone && !l.stripPrefix then none
  else if hasPrefix path "/" then
    strippedPath path l.pathPrefix (l.rewritePath.map Subtype.val)
  else none

def PathRewrite.rewriteUpstreamPath (l : PathRewrite) (r : RequestHeader) : RequestHeader :=
  match l.upstreamPath r.path with
  | none => r
  | some newPath => (setRequestPath c r newPath).1

/-- The path that the location's pattern rewrites the request's to, if it is another one. -/
def PathRewrite.rewritten (l : PathRewrite) (vars : Option Variables) (path : String) :
    Option (RegexRewrite × String × Option Captures) :=
  l.regRewrite.bind fun rw =>
    ((rw.newPath c vars path).filter fun new => new.1 ≠ path).map fun new => (rw, new)

/-- `Location::rewrite`. A path that does not read as a URI still counts as rewritten. -/
def PathRewrite.rewrite (l : PathRewrite) (r : RequestHeader) (vars : Option Variables) :
    RequestHeader × Option Variables × Bool :=
  match l.rewritten c vars r.path with
  | none => (r, vars, false)
  | some (rw, newPath, captures) =>
    ((setTarget c r (withQuery newPath r.query)).1, rw.keep c captures vars, true)

/-- The query without a parameter; a separator goes before an item only if something is there. -/
def withoutParam (query name : String) : String :=
  (splitChar '&' query).foldl
    (fun kept item =>
      if itemKey item = name then kept
      else if kept = "" then item
      else kept ++ "&" ++ item) ""

/-- `remove_query_from_header`; false where the new target does not read as a URI. -/
def removeQueryFromHeader (r : RequestHeader) (name : String) : RequestHeader × Bool :=
  match r.query with
  | none => (r, true)
  | some query => setTarget c r (joinTarget r.path (withoutParam query name))

end

end PingWaf.Routing
