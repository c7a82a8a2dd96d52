import PingWaf.Plugin.SubFilterBody

/-!
# Response rewriting

The response phase of the rewrite plugin: matching rules edit the status and the headers, and their
body operations are collected. The body is buffered, and the operations are applied to its octets as
they came.
-/

namespace PingWaf.Plugin

open Text

inductive BodySearch where
  | literal (search : String)
  | regex (regex : BytesRegex)

inductive BodyOperation where
  | replace (search : BodySearch) (replacement : String) (greedy : Bool)
  | set (content : String)

structure ResponseRule extends CompiledRewriteRule where
  bodyOperations : List BodyOperation

/-! ## The body -/

def replaceFirstLiteral (search replacement : List UInt8) : List UInt8 → List UInt8
  | [] => []
  | b :: data =>
    if search.isPrefixOf (b :: data) then replacement ++ (b :: data).drop search.length
    else b :: replaceFirstLiteral search replacement data

section

variable (c : Replacing)

def BodyOperation.apply (data : List UInt8) : BodyOperation → List UInt8
  | .replace (.regex regex) replacement greedy =>
    if greedy then c.regexReplaceAll regex data (utf8Encode replacement)
    else c.regexReplace regex data (utf8Encode replacement)
  | .replace (.literal search) replacement greedy =>
    if search = "" then data
    else if greedy then c.replace (utf8Encode search) (utf8Encode replacement) data
    else replaceFirstLiteral (utf8Encode search) (utf8Encode replacement) data
  | .set content => utf8Encode content

def applyBodyOps (ops : List BodyOperation) (data : List UInt8) : List UInt8 :=
  ops.foldl (BodyOperation.apply c) data

structure RewriteBodyReplacer where
  ops : List BodyOperation
  buffer : List UInt8

def RewriteBodyReplacer.handle (r : RewriteBodyReplacer) (body : Option (List UInt8))
    (endOfStream : Bool) : Option (List UInt8) × RewriteBodyReplacer :=
  let r := { r with buffer := r.buffer ++ body.getD [] }
  if endOfStream then (some (applyBodyOps c r.ops r.buffer), r) else (body.map fun _ => [], r)

def RewriteBodyReplacer.emit (r : RewriteBodyReplacer) (chunks : List (Option (List UInt8))) :
    List (List UInt8) :=
  Chunks.emit (RewriteBodyReplacer.handle c) r chunks

end

/-! ## The header -/

structure ResponseHead where
  status : Nat
  headers : List HeaderLine

/-- The loop over the rules: the header so far, whether anything changed, the body operations. -/
structure ResponseEdits where
  head : ResponseHead
  modified : Bool
  bodyOps : List BodyOperation

section

variable (rc : RewriteCrates) (vars : InterpVars)

def applyResponseOp (st : ResponseEdits) (op : CompiledOperation) : ResponseEdits :=
  match op with
  | .setHeader name value =>
    let v := interpolate value vars
    if rc.headerValueOk v then
      { st with
        head := { st.head with headers := insertLine name (utf8Encode v) st.head.headers }
        modified := true }
    else st
  | .addHeader name value =>
    let v := interpolate value vars
    if rc.headerValueOk v then
      { st with
        head := { st.head with headers := appendLine name (utf8Encode v) st.head.headers }
        modified := true }
    else st
  | .removeHeader name =>
    if st.head.headers.any fun l => l.name = name then
      { st with
        head := { st.head with headers := removeLines name st.head.headers }
        modified := true }
    else st
  | .setStatusCode code =>
    -- `StatusCode::from_u16`
    if 100 ≤ code ∧ code < 1000 then
      { st with head := { st.head with status := code }, modified := true }
    else st
  | _ => st

/-- The rule is for responses and its condition holds of the request and the upstream's status. -/
def responseRuleMatches (host clientIp country : String) (status : Nat) (r : RequestHeader)
    (rule : ResponseRule) : Bool :=
  decide (rule.direction = .response) &&
    match rule.condition with
    | none => true
    | some cond => cond.evaluate rc.regexIsMatch
        { method := r.method
          path := r.path
          fullUri := pathAndQuery r
          query := r.query.getD ""
          host := host
          clientIp := clientIp
          country := country
          status := status
          headers := r.headers }

def applyResponseRule (st : ResponseEdits) (rule : ResponseRule) : ResponseEdits :=
  let st := rule.operations.foldl (applyResponseOp rc vars) st
  { st with bodyOps := st.bodyOps ++ rule.bodyOperations }

end

section

variable (rc : RewriteCrates) (facts : RewriteFacts) (rules : List ResponseRule) (r : RequestHeader)

def matchingRules (status : Nat) : List ResponseRule :=
  let country :=
    if conditionsUseCountry (rules.map (·.toCompiledRewriteRule)) then
      (facts.lookupCountry facts.clientIp).getD ""
    else ""
  rules.filter (responseRuleMatches rc ((getHost r).getD "") facts.clientIp country status r)

/-- `handle_response`: the header that goes on, and the body operations. -/
def rewriteResponse (upstream : ResponseHead) : ResponseHead × List BodyOperation :=
  let st := (matchingRules rc facts rules r upstream.status).foldl
    (applyResponseRule rc (interpVars r facts)) ⟨upstream, false, []⟩
  if st.bodyOps.isEmpty then (st.head, [])
  else
    ({ st.head with
        headers := insertLine "transfer-encoding" (utf8Encode "chunked")
          (removeLines "content-length" st.head.headers) }, st.bodyOps)

/-- A response with its chunks: without body operations the chunks go on as they are. -/
def rewriteExchange (c : Replacing) (upstream : ResponseHead) (chunks : List (Option (List UInt8))) :
    ResponseHead × List (List UInt8) :=
  match rewriteResponse rc facts rules r upstream with
  | (head, []) => (head, chunks.map (·.getD []))
  | (head, ops) => (head, RewriteBodyReplacer.emit c ⟨ops, []⟩ chunks)

end

/-! ## The client -/

/-- One coding of a `Content-Encoding` list by its registered name. -/
def codingName (part : String) : String :=
  let name := toAsciiLowercase (trim part)
  if name = "x-gzip" then "gzip" else if name = "x-compress" then "compress" else name

def codings (headers : List HeaderLine) : List String :=
  (((headers.filter fun l => l.name = "content-encoding").flatMap fun l =>
    splitChar ',' (latin1 l.value)).map codingName).filter fun name => name ≠ "" ∧ name ≠ "identity"

structure ContentDecoder where
  decode : List String → List UInt8 → Option (List UInt8)
  plain : ∀ raw, decode [] raw = some raw

end PingWaf.Plugin
