import PingWaf.Waf.Rule
import PingWaf.Waf.Normalize.Request

/-!
# Stage 1: signatures and structural detectors

The first stage runs the signature automaton and the structural detectors over every decoded
value, and over the resolved path. Each hit adds to the score breakdown, leaves a record and a
surface, and may set the critical flag of the fast path. Hits in the monitored categories or
stacks keep scoring into the aggregate, but neither into the blocking subset nor into the flag.

The detectors themselves (the needle table behind the automaton and the text shapes) are a
parameter of the model.
-/

namespace PingWaf.Waf

open Text

structure SignaturePattern where
  id : String
  category : AttackCategory
  severity : Nat
  stack : StackSet
  needle : String
  deriving DecidableEq

instance : Inhabited SignaturePattern := ⟨⟨"", .sqlInjection, 1, .generic, ""⟩⟩

structure SignatureHit where
  pattern : Nat
  category : AttackCategory
  severity : Nat
  offset : Nat
  length : Nat

structure AhoMatch where
  pattern : Nat
  start : Nat
  stop : Nat

/-- The active needle table, its automaton, and the text shapes the stage asks about. -/
structure Detectors where
  patterns : List SignaturePattern
  findIter : String → List AhoMatch
  detectSqli : String → Bool × String
  detectXss : String → Bool × String
  detectDeserShape : String → Option String
  detectExprInjection : String → Option String
  detectJsCall : String → Bool
  xssMarkupShaped : String → Bool
  xssScriptUriHtmlShaped : String → Bool
  xssScriptTagShaped : String → Bool → Bool
  sqliUnionStatementShaped : String → Bool
  sqliIntoFileStatementShaped : String → Bool
  sqliTautologyStatementShaped : String → Bool
  tautologySitsInProse : String → Bool
  crlfHeaderInjectionShaped : String → Bool
  pathTautologySegment : String → Bool
  ptDoubleExecExtension : String → Bool
  ciBacktickInterleaved : String → Bool
  ciChrChain : String → Bool
  ssrfProtocolSmuggling : String → Bool
  ptRemoteBackslashInclude : String → Bool

def Detectors.silent : Detectors where
  patterns := []
  findIter _ := []
  detectSqli _ := (false, "")
  detectXss _ := (false, "")
  detectDeserShape _ := none
  detectExprInjection _ := none
  detectJsCall _ := false
  xssMarkupShaped _ := false
  xssScriptUriHtmlShaped _ := false
  xssScriptTagShaped _ _ := false
  sqliUnionStatementShaped _ := false
  sqliIntoFileStatementShaped _ := false
  sqliTautologyStatementShaped _ := false
  tautologySitsInProse _ := false
  crlfHeaderInjectionShaped _ := false
  pathTautologySegment _ := false
  ptDoubleExecExtension _ := false
  ciBacktickInterleaved _ := false
  ciChrChain _ := false
  ssrfProtocolSmuggling _ := false
  ptRemoteBackslashInclude _ := false

namespace Detectors

variable (d : Detectors)

def pattern (idx : Nat) : SignaturePattern := d.patterns.getD idx default

def patternId (idx : Nat) : String := (d.pattern idx).id

def extendsRun (b : Option UInt8) : Bool :=
  match b with
  | some b => (48 ≤ b && b ≤ 57) || b == 46
  | none => false

def ipLiteralBoundaryOk (haystack : String) (start stop : Nat) : Bool :=
  let bytes := utf8Encode haystack
  (start == 0 || !extendsRun bytes[start - 1]?) &&
    (bytes.length ≤ stop || !extendsRun bytes[stop]?)

def isDigitsAndDots (needle : String) : Bool :=
  needle.toList.all fun ch => isAsciiDigit ch || ch == '.'

def matchCounts (haystack : String) (m : AhoMatch) : Bool :=
  let p := d.pattern m.pattern
  !(p.category == .ssrf && isDigitsAndDots p.needle
    && !ipLiteralBoundaryOk haystack m.start m.stop)

def scanInto (haystack : String) : List SignatureHit :=
  if haystack = "" then []
  else
    ((d.findIter haystack).filter (d.matchCounts haystack)).foldl (fun hits m =>
      if hits.any (·.pattern == m.pattern) then hits
      else
        let p := d.pattern m.pattern
        hits ++ [⟨m.pattern, p.category, p.severity, m.start, m.stop - m.start⟩]) []

end Detectors

/-! ## Records -/

inductive Surface where
  | query
  | header
  | body
  | path
  deriving DecidableEq

def Surface.asStr : Surface → String
  | .query => "query"
  | .header => "header"
  | .body => "body"
  | .path => "path"

def Surface.of : ValueSource → Surface
  | .queryParam | .cookie => .query
  | .header => .header
  | .body => .body
  | .path => .path

inductive HitRec where
  | sig (pattern severity : Nat) (source name : String) (monitored : Bool)
  | lib (kind fingerprint source name : String) (monitored : Bool)
  | expr (container source name : String) (monitored : Bool)

structure Stage1 where
  breakdown : ScoreBreakdown
  recs : List HitRec
  surfaces : List Surface
  criticalHit : Bool

def Stage1.init : Stage1 := ⟨.clean, [], [], false⟩

/-- One scored hit: the new breakdown, its record, its surface, and whether it is critical. -/
def Stage1.push (st : Stage1) (breakdown : ScoreBreakdown) (rec : HitRec) (surface : Surface)
    (critical : Bool) : Stage1 :=
  { breakdown := breakdown
    recs := st.recs ++ [rec]
    surfaces := st.surfaces ++ [surface]
    criticalHit := st.criticalHit || critical }

def fieldStrongMaxLen : Nat := 256

/-! ## The engine's configuration -/

/-- The detection engine. The monitor sets hold what is downgraded to monitor-only. -/
structure WafEngine where
  rules : List CompiledRule
  scorer : AnomalyScorer
  mode : WafMode
  level : WafLevel
  stackSet : StackSet
  maxDecodeLayers : Nat
  fastPathBlockOnCritical : Bool
  monitorCategories : CategorySet
  monitorStacks : StackSet
  monitorManagedRules : List String
  monitorCustomRules : List String

namespace WafEngine

variable (e : WafEngine)

/-- A stage-1 hit is downgraded, by its category or by its (not language-agnostic) stack. -/
def hitMonitored (category : AttackCategory) (stack : StackSet) : Bool :=
  e.monitorCategories.containsCategory category ||
    (!stack.exceptGeneric.isEmpty && e.monitorStacks.intersects stack.exceptGeneric)

/-- A rule is downgraded: a custom one by the explicit set only, a managed one by its id, its
family or its stacks. -/
def ruleMonitored (rule : CompiledRule) : Bool :=
  if !rule.isManaged then e.monitorCustomRules.contains rule.id
  else if e.monitorManagedRules.contains rule.id then true
  else
    match managedRuleCategory rule with
    | some category =>
      e.monitorCategories.containsCategory category ||
        (!rule.stackSet.exceptGeneric.isEmpty && e.monitorStacks.intersects rule.stackSet)
    | none => false

def effectiveParanoia : Nat :=
  if e.level.isStrict then max e.scorer.paranoiaLevel 3 else e.scorer.paranoiaLevel

def decodeOpts : DecodeOpts := ⟨e.maxDecodeLayers, e.level.isStrict⟩

/-! ## One value -/

section

variable (d : Detectors)

/-- A detector hit on a value: scored in its category, recorded under a kind and a fingerprint. -/
def libHit (v : DecodedValue) (category : AttackCategory) (severity : Nat) (critical : Bool)
    (kind fingerprint : String) (st : Stage1) : Stage1 :=
  let monitored := e.hitMonitored category .generic
  st.push (e.scorer.addCategoryHitEx st.breakdown category severity monitored)
    (.lib kind fingerprint v.source.asStr v.name monitored) (.of v.source)
    (critical && !monitored)

/-- `libHit` when the detector fired. -/
def libHitIf (fired : Bool) (v : DecodedValue) (category : AttackCategory) (severity : Nat)
    (critical : Bool) (kind fingerprint : String) (st : Stage1) : Stage1 :=
  if fired then e.libHit v category severity critical kind fingerprint st else st

def isReflectedFamily : AttackCategory → Bool
  | .sqlInjection | .xss | .commandInjection => true
  | _ => false

def isCommandFamily : AttackCategory → Bool
  | .commandInjection | .deserialization => true
  | _ => false

def isInjectionCompany : AttackCategory → Bool
  | .commandInjection | .pathTraversal | .deserialization | .ssrf => true
  | _ => false

def isMetaHeader (v : DecodedValue) : Bool :=
  v.source == .header
    && (eqIgnoreAsciiCase v.name "referer" || eqIgnoreAsciiCase v.name "user-agent")
    && !d.xssMarkupShaped v.decoded

def isWeakBody (v : DecodedValue) : Bool :=
  v.source == .body
    && (!v.field || (fieldStrongMaxLen < byteLen v.decoded && !e.level.isStrict))

/-- The needles that are prose on this value: script markup that cannot execute, and SQL phrases
without statement structure. -/
def isSearchPhrase (v : DecodedValue) (pid : String) : Bool :=
  let needle := v.decoded
  let collectedJsUri :=
    (pid == "XSS-007" && v.source == .body && !d.xssScriptUriHtmlShaped needle)
      || (pid == "XSS-001" && !d.xssScriptTagShaped needle (v.source != .body))
  ((pid == "SQL-001" || pid == "SQL-002") && !d.sqliUnionStatementShaped needle)
    || ((pid == "SQL-008" || pid == "SQL-009") && !d.sqliIntoFileStatementShaped needle)
    || collectedJsUri

def sigWeight (v : DecodedValue) (injectionCompany : Bool) (hit : SignatureHit) : Nat × Bool :=
  let reflected := isReflectedFamily hit.category
  let weak := (isMetaHeader d v && reflected) || (e.isWeakBody v && reflected)
  if weak then (min hit.severity 2, false)
  else if hit.category == .crlfInjection
      && ((v.source != .body && d.crlfHeaderInjectionShaped v.decoded) || injectionCompany) then
    (hit.severity, true)
  else if e.level.isStrict && v.source != .path && isCommandFamily hit.category then
    (hit.severity, true)
  else (hit.severity, 5 ≤ hit.severity)

/-- One signature hit on a value. A command shape inside the path keeps its aggregate score but
stays out of the family sub-score. -/
def sigHit (v : DecodedValue) (injectionCompany : Bool) (st : Stage1) (hit : SignatureHit) :
    Stage1 :=
  let monitored := e.hitMonitored hit.category (d.pattern hit.pattern).stack
  let w := e.sigWeight d v injectionCompany hit
  if isSearchPhrase d v (d.patternId hit.pattern) then st
  else
    let breakdown :=
      if v.source == .path && isCommandFamily hit.category then
        e.scorer.addSeverityHitEx st.breakdown w.1 monitored
      else e.scorer.addCategoryHitEx st.breakdown hit.category w.1 monitored
    st.push breakdown (.sig hit.pattern w.1 v.source.asStr v.name monitored) (.of v.source)
      (w.2 && !monitored)

def sqliSearchPhrase (needle fp : String) : Bool :=
  (hasSub fp "union-select" && !d.sqliUnionStatementShaped needle)
    || (hasSub fp "into-file" && !d.sqliIntoFileStatementShaped needle)
    || (hasSub fp "tautology" && 32 < byteLen needle && !hasSub fp "comment-terminator"
      && !d.sqliTautologyStatementShaped needle && d.tautologySitsInProse needle)
    || (hasSub fp "quote-keyword" && 256 < byteLen needle)

def xssCollected (v : DecodedValue) (fp : String) : Bool :=
  (hasSub fp "js-uri" && v.source == .body && !d.xssScriptUriHtmlShaped v.decoded)
    || (hasSub fp "script-tag" && !d.xssScriptTagShaped v.decoded (v.source != .body))

def deserWeight (v : DecodedValue) : Nat × Bool :=
  let weak := isMetaHeader d v
    || (v.source == .body && (!v.field || fieldStrongMaxLen < byteLen v.decoded)
      && !e.level.isStrict)
  if weak then (2, false) else if e.level.isStrict then (5, true) else (4, false)

def exprHit (v : DecodedValue) (container : String) (st : Stage1) : Stage1 :=
  let monitored := e.hitMonitored .templateInjection .generic
  st.push (e.scorer.addExprHitEx st.breakdown monitored)
    (.expr container v.source.asStr v.name monitored) (.of v.source) (!monitored)

def strictExpr (v : DecodedValue) (st : Stage1) : Stage1 :=
  if e.level.isStrict then
    match d.detectExprInjection v.decoded with
    | some container => e.exprHit v container st
    | none =>
      if d.detectJsCall v.decoded && (v.field || v.source != .body) then e.exprHit v "js-call" st
      else st
  else st

def pathDetectors (v : DecodedValue) (st : Stage1) : Stage1 :=
  let onPath := v.source == .path
  let st := e.libHitIf (onPath && d.pathTautologySegment v.decoded) v .sqlInjection 5 true
    "libinjection-sqli" "path-segment-tautology" st
  let st := e.libHitIf (onPath && 2 ≤ v.decoded.toList.count '\x60') v .commandInjection 5 true
    "ci-shape" "path-backticks" st
  e.libHitIf (onPath && d.ptDoubleExecExtension v.decoded) v .pathTraversal 5 true
    "pt-shape" "double-exec-extension" st

def inputDetectors (v : DecodedValue) (st : Stage1) : Stage1 :=
  let needle := v.decoded
  let weak := isMetaHeader d v || e.isWeakBody v
  let sev := if weak then 2 else 5
  let sqli := d.detectSqli needle
  let st := e.libHitIf (sqli.1 && !sqliSearchPhrase d needle sqli.2) v .sqlInjection sev (!weak)
    "libinjection-sqli" sqli.2 st
  let xss := d.detectXss needle
  let st := e.libHitIf (xss.1 && !xssCollected d v xss.2) v .xss sev (!weak)
    "libinjection-xss" xss.2 st
  let deser := d.detectDeserShape needle
  let w := e.deserWeight d v
  let st := e.libHitIf deser.isSome v .deserialization w.1 w.2 "deser-shape" (deser.getD "") st
  let st := e.libHitIf (d.ciBacktickInterleaved needle) v .commandInjection 5 true
    "ci-shape" "backtick-interleaved" st
  let st := e.libHitIf (d.ciChrChain needle) v .commandInjection 5 true
    "ci-shape" "chr-codepoint-chain" st
  let st := e.libHitIf (d.ssrfProtocolSmuggling needle) v .ssrf 5 true
    "ssrf-shape" "protocol-smuggling" st
  let st := e.libHitIf (d.ptRemoteBackslashInclude needle) v .pathTraversal 5 true
    "pt-shape" "remote-backslash-include" st
  e.strictExpr d v st

def scanValue (st : Stage1) (v : DecodedValue) : Stage1 :=
  if v.decoded = "" then st
  else
    let hits := d.scanInto v.decoded
    let company := e.level.isStrict && hits.any fun h => isInjectionCompany h.category
    let st := hits.foldl (e.sigHit d v company) st
    let st := e.pathDetectors d v st
    if v.source == .path then st else e.inputDetectors d v st

def pathSigHit (path : String) (st : Stage1) (hit : SignatureHit) : Stage1 :=
  if d.patternId hit.pattern == "XSS-001" && !d.xssScriptTagShaped path true then st
  else
    let critical := 5 ≤ hit.severity || (e.level.isStrict && hit.category == .crlfInjection)
    let monitored := e.hitMonitored hit.category (d.pattern hit.pattern).stack
    let breakdown :=
      if isCommandFamily hit.category then
        e.scorer.addSeverityHitEx st.breakdown hit.severity monitored
      else e.scorer.addCategoryHitEx st.breakdown hit.category hit.severity monitored
    st.push breakdown (.sig hit.pattern hit.severity "path" "" monitored) .path
      (critical && !monitored)

def stage1 (normalized : NormalizedRequest) : Stage1 :=
  (d.scanInto normalized.path).foldl (e.pathSigHit d normalized.path)
    (normalized.decodedValues.foldl (e.scanValue d) .init)

end

end WafEngine

end PingWaf.Waf
