import PingWaf.Waf.Stage1

/-!
# Inspection

A request is normalized and scanned by stage 1; allow rules are tried first; a critical stage-1 hit
may short-circuit to a block; the remaining rules run in order over two score snapshots; and the
forced action of a rule, the anomaly threshold and the aggregate score decide the verdict.
-/

namespace PingWaf.Waf

open Text

structure RequestData where
  method : String
  path : String
  query : String
  headers : Headers
  body : Option (List UInt8)
  clientIp : String
  countryCode : Option String
  scheme : String

structure RuleRec where
  id : String
  name : String
  action : RuleAction
  severity : Nat
  monitored : Bool

/-! ## The scan budget -/

structure ScanBudget where
  limit : Nat
  used : Nat

/-- There is room for an inspection of so many octets; a larger one counts as the whole budget. -/
def ScanBudget.admits (b : ScanBudget) (bytes : Nat) : Bool := b.used + min bytes b.limit ≤ b.limit

def estimatedScanBytes (q : RequestData) : Nat :=
  let headerBytes := (q.headers.map fun h => byteLen h.1 + byteLen h.2).sum
  let bodyBytes := match q.body with
    | none => 0
    | some [] => 0
    | some b => min (max (b.length * 8) (4 * 1024)) (4 * 1024 * 1024)
  byteLen q.path + byteLen q.query + headerBytes + bodyBytes

/-! ## Texts -/

/-- A fragment of attacker text for the log: no control characters, at most eighty characters. -/
def detailText (value : String) : String :=
  String.ofList ((value.toList.filter fun ch => !isControl ch).take 80)

def distinctSurfaces (surfaces : List Surface) : List Surface :=
  [Surface.query, .header, .body, .path].filter surfaces.contains

def surfacesMarker (surfaces : List Surface) : Option String :=
  match distinctSurfaces surfaces with
  | [] => none
  | unique => some ("[" ++ ",".intercalate (unique.map Surface.asStr) ++ "]")

def monitoredSuffix (monitored : Bool) : String := if monitored then " [monitored]" else ""

def HitRec.matchedId (d : Detectors) : HitRec → String
  | .sig pattern .. => d.patternId pattern
  | .lib kind .. => kind
  | .expr .. => "EXPR-INJ"

def HitRec.detail (d : Detectors) : HitRec → String
  | .sig pattern severity source name monitored =>
    let p := d.pattern pattern
    p.id ++ " [" ++ p.category.asStr ++ " sev=" ++ toString severity ++ "] in " ++ source ++ " '"
      ++ detailText name ++ "'" ++ monitoredSuffix monitored
  | .lib kind fingerprint source name monitored =>
    kind ++ " [" ++ fingerprint ++ "] in " ++ source ++ " '" ++ detailText name ++ "'"
      ++ monitoredSuffix monitored
  | .expr container source name monitored =>
    "expr-injection [" ++ container ++ "] in " ++ source ++ " '" ++ detailText name ++ "'"
      ++ monitoredSuffix monitored

def RuleRec.detail (r : RuleRec) : String :=
  r.id ++ " [" ++ detailText r.name ++ "] rule_action=" ++ r.action.asStr ++ " sev="
    ++ toString r.severity ++ monitoredSuffix r.monitored

def matchedFrom (d : Detectors) (recs : List HitRec) (rules : List RuleRec) : List String :=
  recs.map (HitRec.matchedId d) ++ rules.map (·.id)

def detailsFrom (d : Detectors) (recs : List HitRec) (rules : List RuleRec) : List String :=
  recs.map (HitRec.detail d) ++ rules.map RuleRec.detail

def enforceActionStr : WafAction → String
  | .pass => "pass"
  | .monitor => "monitor"
  | .block => "block"
  | .challenge => "challenge"

def ScoreClass.reason : ScoreClass → String
  | .clean => "clean"
  | .likelyClean => "likely-clean"
  | .likelyAttack => "likely-attack"
  | .attack => "attack"

def dedupFirst (ids : List String) : List String :=
  ids.foldl (fun seen id => if seen.contains id then seen else seen ++ [id]) []

namespace WafEngine

variable (c : Crates) (d : Detectors) (e : WafEngine)

/-! ## Contexts -/

def fullContext (q : RequestData) (n : NormalizedRequest) (b : ScoreBreakdown) : EvalContext :=
  { method := n.method
    path := n.path
    fullUri := n.fullUri
    host := n.host
    userAgent := n.userAgent
    body := n.bodyText
    headers := n.headers
    cookies := n.cookies
    parsedIp := Net.IpAddr.fromStr q.clientIp
    countryCode := q.countryCode
    ssl := eqIgnoreAsciiCase q.scheme "https"
    wafScore := b.total
    wafScoreSqli := b.sqliScore
    wafScoreXss := b.xssScore
    wafScoreRce := b.rceScore }

def blockContext (ctx : EvalContext) (b : ScoreBreakdown) : EvalContext :=
  { ctx with
    wafScore := b.blockTotal
    wafScoreSqli := b.blockSqliScore
    wafScoreXss := b.blockXssScore
    wafScoreRce := b.blockRceScore }

structure Contexts where
  full : EvalContext
  blocking : EvalContext

/-! ## Rules -/

def isActive (rule : CompiledRule) : Bool :=
  rule.enabled && rule.paranoiaLevel ≤ e.effectiveParanoia && e.stackSet.contains rule.stackSet

def allows (ctx : Contexts) (rule : CompiledRule) : Bool :=
  e.isActive rule && rule.action == .allow && evaluate c ctx.full rule.expression

def fires (ctx : Contexts) (rule : CompiledRule) : Bool :=
  e.isActive rule && rule.action != .allow &&
    evaluate c (if rule.isManaged then ctx.blocking else ctx.full) rule.expression

structure Stage2 where
  breakdown : ScoreBreakdown
  ruleRecs : List RuleRec
  forced : Option WafAction
  enforcedBlock : Option String
  enforcedChallenge : Option String

def Stage2.init (b : ScoreBreakdown) : Stage2 := ⟨b, [], none, none, none⟩

def applyRule (st : Stage2) (rule : CompiledRule) : Stage2 :=
  let monitored := e.ruleMonitored rule
  let st := { st with
    ruleRecs := st.ruleRecs ++ [⟨rule.id, rule.name, rule.action, rule.severity, monitored⟩] }
  match rule.action with
  | .allow => st
  | .log => { st with breakdown := e.scorer.addSeverityHit st.breakdown rule.severity }
  | .block =>
    let st := { st with
      breakdown := e.scorer.addSeverityHitEx st.breakdown rule.severity monitored }
    if monitored then st
    else { st with
      forced := some .block
      enforcedBlock := st.enforcedBlock.or (some rule.id) }
  | .challenge | .jsChallenge =>
    let st := { st with
      breakdown := e.scorer.addSeverityHitEx st.breakdown rule.severity monitored }
    if monitored || st.forced == some .block then st
    else { st with
      forced := some .challenge
      enforcedChallenge := st.enforcedChallenge.or (some rule.id) }

def stage2Step (ctx : Contexts) (st : Stage2) (rule : CompiledRule) : Stage2 :=
  if e.fires c ctx rule then e.applyRule st rule else st

def stage2 (ctx : Contexts) (rules : List CompiledRule) (b : ScoreBreakdown) : Stage2 :=
  rules.foldl (e.stage2Step c ctx) (.init b)

/-! ## The verdict -/

/-- The verdict around an action: monitor mode turns an enforcing action into `monitor` and says
so in the details. -/
def finalizeVerdict (b : ScoreBreakdown) (matched : List String) (enforced : Option String)
    (details : List String) (requested : WafAction) (reason : String) (surfaces : List Surface) :
    WafVerdict :=
  let b := { b with overallClass := e.scorer.classify b.blockTotal }
  let downgrade := e.mode == .monitor && requested.isEnforcing
  let action := if downgrade then .monitor else requested
  let text := if details = [] then reason else reason ++ ": " ++ "; ".intercalate details
  let text := match distinctSurfaces surfaces with
    | [] => text
    | first :: rest => text ++ "; surface=" ++ first.asStr ++ "; surfaces="
        ++ ",".intercalate ((first :: rest).map Surface.asStr)
  let text := if downgrade then
      text ++ "; downgraded=true would_enforce=" ++ enforceActionStr requested
        ++ " cause=site-mode-monitor"
    else text
  { action := action
    score := b.totalU8
    matchedRules := dedupFirst matched
    enforcedRuleId := if action = .monitor then none else enforced
    details := text
    breakdown := b }

def allowVerdict (s1 : Stage1) (rule : CompiledRule) : WafVerdict :=
  { action := .pass
    score := s1.breakdown.totalU8
    matchedRules := matchedFrom d s1.recs [] ++ [rule.id]
    enforcedRuleId := none
    details := "allow-rule matched: " ++ rule.id ++ " [" ++ rule.name ++ "]" ++
      ((surfacesMarker s1.surfaces).map (" " ++ ·)).getD ""
    breakdown := s1.breakdown }

def criticalVerdict (s1 : Stage1) (inspection : BodyInspection) : WafVerdict :=
  e.finalizeVerdict s1.breakdown (matchedFrom d s1.recs []) none
    (detailsFrom d s1.recs [] ++ inspection.detail.toList) .block "stage1-critical" s1.surfaces

/-- A forced action wins over the threshold, the threshold over the mere presence of a hit. -/
def finalAction (s2 : Stage2) : WafAction :=
  match s2.forced with
  | some a => a
  | none =>
    if e.scorer.shouldBlock s2.breakdown.blockTotal then .block
    else if 0 < s2.breakdown.total then .monitor
    else .pass

def enforcedRule (s2 : Stage2) : Option String :=
  match s2.forced with
  | some .block => s2.enforcedBlock
  | some .challenge => s2.enforcedChallenge
  | _ => none

def scoredVerdict (s1 : Stage1) (s2 : Stage2) (inspection : BodyInspection) : WafVerdict :=
  let action := e.finalAction s2
  if action = .pass then { WafVerdict.pass with details := inspection.detail.getD "" }
  else
    e.finalizeVerdict s2.breakdown (matchedFrom d s1.recs s2.ruleRecs) (enforcedRule s2)
      (detailsFrom d s1.recs s2.ruleRecs ++ inspection.detail.toList) action
      (e.scorer.classify s2.breakdown.blockTotal).reason s1.surfaces

def judge (rules : List CompiledRule) (ctx : Contexts) (s1 : Stage1)
    (inspection : BodyInspection) : WafVerdict :=
  match rules.find? (e.allows c ctx) with
  | some rule => allowVerdict d s1 rule
  | none =>
    if e.fastPathBlockOnCritical && s1.criticalHit then e.criticalVerdict d s1 inspection
    else e.scoredVerdict d s1 (e.stage2 c ctx rules s1.breakdown) inspection

def normalize (q : RequestData) : NormalizedRequest :=
  normalizeRequest c e.decodeOpts q.method q.path q.query q.headers q.body

def contexts (q : RequestData) (n : NormalizedRequest) (b : ScoreBreakdown) : Contexts :=
  let full := fullContext q n b
  ⟨full, blockContext full b⟩

def inspectReserved (q : RequestData) : WafVerdict :=
  if e.mode = .off then .pass
  else
    let n := e.normalize c q
    let s1 := e.stage1 d n
    e.judge c d e.rules (contexts q n s1.breakdown) s1 n.bodyInspection

def inspectWithoutBody (q : RequestData) : WafVerdict :=
  let v := e.inspectReserved c d { q with body := none }
  { v with
    matchedRules := v.matchedRules ++ ["scan_budget_body_skipped"]
    details := (if v.details = "" then v.details else v.details ++ "; ") ++
      "body skipped: concurrent scan budget exhausted" }

def inspect (budget : ScanBudget) (q : RequestData) : WafVerdict :=
  if e.mode = .off then .pass
  else if budget.admits (estimatedScanBytes q) then e.inspectReserved c d q
  else e.inspectWithoutBody c d q

end WafEngine

end PingWaf.Waf
