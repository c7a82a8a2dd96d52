import PingWaf.Lib.Target
import PingWaf.Plugin.Request

/-!
# The rewrite plugin

Rules that edit a request before it goes on: an optional condition and a list of operations on the
headers, the path and the query. Header operations take effect at once; the path and the query are
collected and put into the request in one go at the end.
-/

namespace PingWaf.Plugin

open Text Waf

/-! ## URIs -/

/-- What is read from a `http::Uri`. -/
structure Uri where
  host : Option String
  path : String
  query : Option String

def Uri.origin (target : String) : Uri := ⟨none, (readTarget target).1, (readTarget target).2⟩

/-- `http::Uri::from_str` reads a text that starts with a slash in origin form. -/
def ReadsOrigin (parseUri : String → Option Uri) : Prop :=
  ∀ text u, hasPrefix text "/" = true → parseUri text = some u → u = .origin text

def originUri (text : String) : Option Uri :=
  if hasPrefix text "/" then some (.origin text) else none

theorem readsOrigin_originUri : ReadsOrigin originUri := by
  intro text u hslash h
  unfold originUri at h
  rw [if_pos hslash] at h
  exact (Option.some.inj h).symm

def RequestHeader.setUri (r : RequestHeader) (u : Uri) : RequestHeader :=
  { r with uriHost := u.host, path := u.path, query := u.query }

/-! ## Header edits -/

def insertLine (name : String) (value : List UInt8) : List HeaderLine → List HeaderLine
  | [] => [⟨name, value⟩]
  | l :: lines =>
    if l.name = name then ⟨name, value⟩ :: lines.filter fun l => l.name ≠ name
    else l :: insertLine name value lines

section

variable {p : String → Bool} {name : String}

theorem insertLine_same {l : HeaderLine} (h : l.name = name) (value : List UInt8)
    (lines : List HeaderLine) : insertLine name value (l :: lines) =
      ⟨name, value⟩ :: lines.filter fun l => l.name ≠ name :=
  if_pos h

theorem insertLine_other {l : HeaderLine} (h : l.name ≠ name) (value : List UInt8)
    (lines : List HeaderLine) :
    insertLine name value (l :: lines) = l :: insertLine name value lines :=
  if_neg h

theorem filter_filter_ne (h : p name = false) (lines : List HeaderLine) :
    (lines.filter fun l => l.name ≠ name).filter (fun l => p l.name) =
      lines.filter fun l => p l.name := by
  rw [List.filter_filter]
  refine List.filter_congr fun x _ => ?_
  by_cases hx : x.name = name
  · simp [hx, h]
  · simp [hx]

theorem filter_insertLine_neg (h : p name = false) (value : List UInt8) (lines : List HeaderLine) :
    (insertLine name value lines).filter (fun l => p l.name) = lines.filter fun l => p l.name := by
  induction lines with
  | nil => simp [insertLine, h]
  | cons l lines ih =>
    by_cases hl : l.name = name
    · have hpl : p l.name = false := hl ▸ h
      simp only [insertLine_same hl, List.filter_cons, h, hpl, Bool.false_eq_true, if_false]
      exact filter_filter_ne h lines
    · simp only [insertLine_other hl, List.filter_cons, ih]

end

def appendLine (name : String) (value : List UInt8) (lines : List HeaderLine) : List HeaderLine :=
  let tail := lines.reverse.takeWhile fun l => l.name ≠ name
  if tail.length = lines.length then lines ++ [⟨name, value⟩]
  else lines.take (lines.length - tail.length) ++ ⟨name, value⟩ :: tail.reverse

def RequestHeader.insertHeader (r : RequestHeader) (name value : String) : RequestHeader :=
  { r with headers := insertLine name (utf8Encode value) r.headers }

def RequestHeader.appendHeader (r : RequestHeader) (name value : String) : RequestHeader :=
  { r with headers := appendLine name (utf8Encode value) r.headers }

def RequestHeader.hasHeader (r : RequestHeader) (name : String) : Bool :=
  r.headers.any fun l => l.name = name

def RequestHeader.removeHeader (r : RequestHeader) (name : String) : RequestHeader :=
  { r with headers := r.headers.filter fun l => l.name ≠ name }

/-! ## Conditions -/

inductive CondField where
  | path | fullUri | query | method | host | clientIp | country | status
  | header (name : String)
  deriving DecidableEq

inductive CondOp where
  | eq | ne | contains | notContains | startsWith | endsWith | matches_ | notMatches
  | lt | le | gt | ge | in_ | notIn | exists_ | notExists
  deriving DecidableEq

def CondOp.isNegated : CondOp → Bool
  | .ne | .notContains | .notMatches | .notIn | .notExists => true
  | _ => false

inductive CondValue where
  | str (s : String)
  | num (n : Int)
  | regex (pattern : String)
  | set (items : List String)

inductive CondExpr where
  | field (field : CondField) (op : CondOp) (value : Option CondValue)
  | and (a b : CondExpr)
  | or (a b : CondExpr)
  | not (inner : CondExpr)

inductive FieldVal where
  | str (s : String)
  | num (n : Int)
  | missing

structure CondCtx where
  method : String
  path : String
  fullUri : String
  query : String
  host : String
  clientIp : String
  country : String
  status : Nat
  headers : List HeaderLine

def CondCtx.header (ctx : CondCtx) (name : String) : Option String :=
  (ctx.headers.find? fun l => l.name = toAsciiLowercase name).bind HeaderLine.toStr

def resolveField (field : CondField) (ctx : CondCtx) : FieldVal :=
  match field with
  | .path => .str ctx.path
  | .fullUri => .str ctx.fullUri
  | .query => .str ctx.query
  | .method => .str ctx.method
  | .host => .str ctx.host
  | .clientIp => .str ctx.clientIp
  | .country => if ctx.country = "" then .missing else .str ctx.country
  | .status => .num ctx.status
  | .header name =>
    match ctx.header name with
    | some v => .str v
    | none => .missing

def CondOp.negateIf (op : CondOp) (positive : Bool) : Bool :=
  match op with
  | .ne | .notIn | .notContains | .notMatches => !positive
  | _ => positive

def CondOp.compare (op : CondOp) (n m : Int) : Bool :=
  op.negateIf <| match op with
    | .eq | .ne | .in_ | .notIn => n == m
    | .lt => n < m
    | .le => n ≤ m
    | .gt => n > m
    | .ge => n ≥ m
    | _ => false

def applyNumber (n : Int) (op : CondOp) (value : CondValue) : Bool :=
  match value with
  | .num m => op.compare n m
  | .str s =>
    match parseI64 s with
    | some m => op.compare n m
    | none => op.isNegated
  | .set items => op.negateIf (items.contains (toString n))
  | .regex _ => op.isNegated

def applyText (regexIsMatch : String → String → Bool) (raw : String) (op : CondOp)
    (value : CondValue) : Bool :=
  match op, value with
  | .eq, .str v => raw == v
  | .ne, .str v => raw != v
  | .contains, .str v => hasSub raw v
  | .notContains, .str v => !hasSub raw v
  | .startsWith, .str v => hasPrefix raw v
  | .endsWith, .str v => hasSuffix raw v
  | .matches_, .regex p => regexIsMatch p raw
  | .notMatches, .regex p => !regexIsMatch p raw
  | .in_, .set items => items.any (· == raw)
  | .notIn, .set items => !items.any (· == raw)
  | .in_, .str v => raw == v
  | .notIn, .str v => raw != v
  | .lt, .str v => raw.toList < v.toList
  | .le, .str v => raw.toList ≤ v.toList
  | .gt, .str v => v.toList < raw.toList
  | .ge, .str v => v.toList ≤ raw.toList
  | _, _ => false

def applyCondOp (regexIsMatch : String → String → Bool) (fv : FieldVal) (op : CondOp)
    (value : Option CondValue) : Bool :=
  match fv with
  | .missing => op.isNegated
  | .str _ | .num _ =>
    if op = .exists_ then true
    else if op = .notExists then false
    else match value with
      | none => op.isNegated
      | some value =>
        match fv with
        | .num n => applyNumber n op value
        | .str raw => applyText regexIsMatch raw op value
        | .missing => op.isNegated

def CondExpr.evaluate (regexIsMatch : String → String → Bool) (ctx : CondCtx) : CondExpr → Bool
  | .and a b => a.evaluate regexIsMatch ctx && b.evaluate regexIsMatch ctx
  | .or a b => a.evaluate regexIsMatch ctx || b.evaluate regexIsMatch ctx
  | .not inner => !inner.evaluate regexIsMatch ctx
  | .field f op value => applyCondOp regexIsMatch (resolveField f ctx) op value

def CondExpr.usesCountry : CondExpr → Bool
  | .field f _ _ => f == .country
  | .and a b | .or a b => a.usesCountry || b.usesCountry
  | .not inner => inner.usesCountry

/-! ## Interpolation -/

structure InterpVars where
  requestId : String
  clientIp : String
  host : String
  path : String
  method : String

def InterpVars.substitute (vars : InterpVars) (key : List Char) : List Char :=
  match String.ofList key with
  | "request_id" => vars.requestId.toList
  | "client_ip" => vars.clientIp.toList
  | "host" => vars.host.toList
  | "path" => vars.path.toList
  | "method" => vars.method.toList
  | _ => ['$', '\x7b'] ++ key ++ ['\x7d']

/-- Every turn passes over a placeholder, so as many turns as there are characters are enough. -/
def interpolateLoop (vars : InterpVars) : Nat → List Char → List Char
  | 0, rest => rest
  | n + 1, rest =>
    match splitOnceSub ['$', '\x7b'] rest with
    | none => rest
    | some (before, after) =>
      match splitOnceList '\x7d' after with
      | some (key, rest) => before ++ vars.substitute key ++ interpolateLoop vars n rest
      | none => rest

def interpolate (value : String) (vars : InterpVars) : String :=
  String.ofList (interpolateLoop vars value.toList.length value.toList)

/-! ## Queries -/

def queryItems (query : String) : List String := (splitChar '&' query).filter (· ≠ "")

def itemKey (item : String) : String := (splitChar '=' item).headD item

def setQueryParam (query name value : String) : String :=
  let parts := (queryItems query).map fun item =>
    if itemKey item = name then name ++ "=" ++ value else item
  let found := (queryItems query).any fun item => itemKey item = name
  "&".intercalate (if found then parts else parts ++ [name ++ "=" ++ value])

def removeQueryParam (query name : String) : String :=
  "&".intercalate ((queryItems query).filter fun item => itemKey item ≠ name)

/-! ## Operations -/

inductive CompiledOperation where
  | setHeader (name value : String)
  | addHeader (name value : String)
  | removeHeader (name : String)
  | setPath (value : String)
  | regexReplacePath (pattern replacement : String)
  | setQueryParam (name value : String)
  | removeQueryParam (name : String)
  | setStatusCode (code : Nat)
  deriving DecidableEq

inductive RewriteDirection where
  | request
  | response
  deriving DecidableEq

structure CompiledRewriteRule where
  condition : Option CondExpr
  direction : RewriteDirection
  operations : List CompiledOperation

structure RewriteCrates where
  /-- `regex::Regex::replace_all`, the automaton named by its pattern. -/
  regexReplaceAll : (pattern replacement text : String) → String
  regexIsMatch : (pattern text : String) → Bool
  /-- `HeaderValue::from_str` accepts the text. -/
  headerValueOk : String → Bool
  /-- `http::Uri::from_str`. -/
  parseUri : String → Option Uri

structure Edits where
  header : RequestHeader
  changed : Bool
  newPath : Option String
  queryOps : List CompiledOperation

section

variable (rc : RewriteCrates) (vars : InterpVars)

def applyOp (st : Edits) (op : CompiledOperation) : Edits :=
  match op with
  | .setHeader name value =>
    if rc.headerValueOk (interpolate value vars) then
      { st with header := st.header.insertHeader name (interpolate value vars), changed := true }
    else st
  | .addHeader name value =>
    if rc.headerValueOk (interpolate value vars) then
      { st with header := st.header.appendHeader name (interpolate value vars), changed := true }
    else st
  | .removeHeader name =>
    if st.header.hasHeader name then
      { st with header := st.header.removeHeader name, changed := true }
    else st
  | .setPath value => { st with newPath := some (interpolate value vars), changed := true }
  | .regexReplacePath pattern replacement =>
    let current := st.newPath.getD st.header.path
    let replaced := rc.regexReplaceAll pattern replacement current
    if replaced ≠ current then { st with newPath := some replaced, changed := true } else st
  | .setQueryParam .. | .removeQueryParam .. => { st with queryOps := st.queryOps ++ [op] }
  | .setStatusCode _ => st

def applyQueryOp (query : String) : CompiledOperation → String
  | .setQueryParam name value => setQueryParam query name value
  | .removeQueryParam name => removeQueryParam query name
  | _ => query

def commit (st : Edits) : RequestHeader :=
  if st.changed && (st.newPath.isSome || !st.queryOps.isEmpty) then
    let path := st.newPath.getD st.header.path
    let query := st.queryOps.foldl applyQueryOp (st.header.query.getD "")
    match rc.parseUri (joinTarget path query) with
    | some uri => st.header.setUri uri
    | none => st.header
  else st.header

/-- `apply_request_ops`: the request after the rule, and whether anything changed. -/
def applyRequestOps (rule : CompiledRewriteRule) (r : RequestHeader) : RequestHeader × Bool :=
  let st := rule.operations.foldl (applyOp rc vars) ⟨r, false, none, []⟩
  (commit rc st, st.changed)

end

/-! ## The request phase -/

structure RewriteFacts where
  requestId : Option String
  clientIp : String
  lookupCountry : String → Option String

def interpVars (r : RequestHeader) (facts : RewriteFacts) : InterpVars where
  requestId := facts.requestId.getD ""
  clientIp := facts.clientIp
  host := (getHost r).getD ""
  path := r.path
  method := r.method

def pathAndQuery (r : RequestHeader) : String :=
  match r.query with
  | some query => r.path ++ "?" ++ query
  | none => r.path

def conditionsUseCountry (rules : List CompiledRewriteRule) : Bool :=
  rules.any fun rule => (rule.condition.map CondExpr.usesCountry).getD false

def ruleMatches (rc : RewriteCrates) (host clientIp country : String) (r : RequestHeader)
    (rule : CompiledRewriteRule) : Bool :=
  match rule.condition with
  | none => true
  | some cond => cond.evaluate rc.regexIsMatch
      { method := r.method
        path := r.path
        fullUri := pathAndQuery r
        query := r.query.getD ""
        host := host
        clientIp := clientIp
        country := country
        status := 0
        headers := r.headers }

/-- One turn of the loop over the rules. Host, country and placeholders are those of the request as
it came in. -/
def rewriteStep (rc : RewriteCrates) (vars : InterpVars) (country : String)
    (st : RequestHeader × Bool) (rule : CompiledRewriteRule) : RequestHeader × Bool :=
  if rule.direction = .request ∧ ruleMatches rc vars.host vars.clientIp country st.1 rule = true then
    let (r, changed) := applyRequestOps rc vars rule st.1
    (r, st.2 || changed)
  else st

/-- `handle_request` in the step of the plugin, with the rules of the host: the request that goes
on, and whether it was modified. -/
def rewriteRequest (rc : RewriteCrates) (facts : RewriteFacts) (rules : List CompiledRewriteRule)
    (r : RequestHeader) : RequestHeader × Bool :=
  let country := if conditionsUseCountry rules then (facts.lookupCountry facts.clientIp).getD ""
    else ""
  rules.foldl (rewriteStep rc (interpVars r facts) country) (r, false)

end PingWaf.Plugin
