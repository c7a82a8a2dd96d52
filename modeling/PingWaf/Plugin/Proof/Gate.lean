import PingWaf.Plugin.Proof.Layers
import PingWaf.Plugin.Proof.HeaderScan

/-!
# The site-wide basic-auth gate

Any denial by the access restrictions other than a basic-auth rule switches the gate off. Where such
a denial does not stop the request, after a solved or waived challenge and in observation mode,
nothing asks for the credential.
-/

namespace PingWaf.Plugin

open Text Net Waf Pipeline

section

variable (e : Edge) (site : ResolvedSite) (q : Incoming)

/-- The engine's verdict is turned into a refusal because the body's encoding was not undone. -/
def encodingRefused (k : VerdictContext) : Bool :=
  (e.engineFor k.choice).any fun engine => e.plugin.encodedBodyPolicy = .reject &&
    hasSub (engine.inspect e.services.crates e.services.detectors e.budget q.data).details
      "body=uninspected"

def poolRefuses (k : VerdictContext) (t : StageTables) : Bool :=
  wantsBody e k.context && !(q.data.method == "POST" && q.data.path == verifyEndpoint) &&
    hasBody q.header &&
    (siteSaturated e t k.siteId ||
      deferredBodyMaxEntries e.plugin.maxBodySize ≤ (relievePressure e t q.now).deferredBody.size)

/-- The plugin's own engine is the one in charge, and it is off. -/
def engineOff : Bool :=
  match site.choice with
  | .base => e.plugin.mode = .off
  | _ => false

/-- Nothing behind the gate stops a request in observation mode. -/
def observedThrough (st : EdgeState) : Bool :=
  engineOff e site ||
    (!(!bypasses e site q .waf && encodingRefused e q (verdictContext e site q)) &&
      !poolRefuses e q (verdictContext e site q) st.stage)

/-- A denial that is not a basic-auth rule took the gate away and then let the request go. -/
def GateMissed (st : EdgeState) : Prop :=
  ∃ d, accessOutcome e site q = .denied d ∧ d.basicAuth = false ∧
    ((site.observe = false ∧ d.challenge = true ∧
        (bypasses e site q .challenge = true ∨ q.cleared e.services = true)) ∨
      (site.observe = true ∧ observedThrough e site q st = true))

end

/-! ## Behind the gate -/

section

variable (e : Edge) (site : ResolvedSite) (q : Incoming)

theorem enforceVerdict_observe {k : VerdictContext} (ho : k.observe = true) (id : String) :
    (∃ r, (enforceVerdict e k id q.data).outcome = .respond r) ↔ encodingRefused e q k = true := by
  unfold enforceVerdict encodingRefused
  cases e.engineFor k.choice with
  | none => cases k.choice <;> simp
  | some engine =>
    simp only [Option.any_some]
    generalize engine.inspect e.services.crates e.services.detectors e.budget q.data = verdict
    unfold enforce
    split_ifs with h
    · simpa using h
    · cases verdict.action <;> simp <;> simpa using h

theorem wafLayer_observe (ho : site.observe = true) (s : Vars) :
    if !bypasses e site q .waf && encodingRefused e q (verdictContext e site q) then
      ∃ r, (wafLayer e site q s).answer = some (.respond r)
    else (wafLayer e site q s).answer = none ∧ (wafLayer e site q s).state.edge = s.edge := by
  have hv := enforceVerdict_observe e q (k := verdictContext e site q) ho q.requestId
  unfold wafLayer
  cases hb : bypasses e site q .waf with
  | true => simp
  | false =>
    cases hr : encodingRefused e q (verdictContext e site q) with
    | true =>
      obtain ⟨r, h⟩ := hv.mpr hr
      simp [h]
    | false =>
      cases h : (enforceVerdict e (verdictContext e site q) q.requestId q.data).outcome with
      | respond r => exact absurd (hv.mp ⟨r, h⟩) (by simp [hr])
      | skipped | continue_ => simp [h]

theorem stageRequest_refused (k : VerdictContext) (t : StageTables) :
    (stageRequest e k q t).1 = .refused ↔ poolRefuses e q k t = true := by
  unfold stageRequest poolRefuses
  cases wantsBody e k.context <;> cases hasBody q.header <;>
    cases (q.data.method == "POST" && q.data.path == verifyEndpoint) <;> simp <;> split_ifs <;> simp_all

theorem stageLayer_forwards (s : Vars) :
    ∃ a, (stageLayer e site q s).answer = some a ∧
      (a.forwards = !poolRefuses e q (verdictContext e site q) s.edge.stage) := by
  have hr := stageRequest_refused e q (verdictContext e site q) s.edge.stage
  refine ⟨stageAnswer (stageRequest e (verdictContext e site q) q s.edge.stage).1 s.outcome, rfl, ?_⟩
  generalize (stageRequest e (verdictContext e site q) q s.edge.stage).1 = decision at hr ⊢
  cases hp : poolRefuses e q (verdictContext e site q) s.edge.stage with
  | true => rw [hr.mpr hp]; rfl
  | false =>
    have hn : decision ≠ .refused := fun h => by simp [hr.mp h] at hp
    cases decision <;> first | exact absurd rfl hn | (cases s.outcome <;> rfl)

def innerLayers : List EdgeLayer :=
  [aiLayer e site q, botLayer e site q, rateLayer e site q, offLayer e site, wafLayer e site q,
    stageLayer e site q]

theorem engineLayers_observe (ho : site.observe = true) (s : Vars) :
    ∃ a, (run [offLayer e site, wafLayer e site q, stageLayer e site q] s).answer = some a ∧
      a.forwards = observedThrough e site q s.edge := by
  unfold observedThrough
  cases hoff : engineOff e site with
  | true =>
    refine ⟨.skipped, ?_, by simp [RequestPluginResult.forwards]⟩
    have hans : (offLayer e site s).answer = some .skipped := by
      unfold engineOff at hoff
      unfold offLayer
      cases hc : site.choice <;> simp_all
    rw [run_cons_answer hans]
  | false =>
    have hnext : offLayer e site s = next s {} := by
      unfold engineOff at hoff
      unfold offLayer
      cases hc : site.choice <;> simp_all
    rw [run_cons_next (by rw [hnext]; rfl), hnext]
    have hw := wafLayer_observe e site q ho s
    cases hr : (!bypasses e site q .waf && encodingRefused e q (verdictContext e site q)) with
    | true =>
      obtain ⟨r, hans⟩ := (if_pos hr).mp hw
      exact ⟨.respond r, by rw [next_state, run_cons_answer hans],
        by simp [RequestPluginResult.forwards]⟩
    | false =>
      rw [if_neg (by simp [hr])] at hw
      obtain ⟨a, ha, hf⟩ := stageLayer_forwards e site q
        (wafLayer e site q s).state
      refine ⟨a, ?_, by simpa [hw.2] using hf⟩
      rw [next_state, run_cons_next hw.1, run_cons_answer ha]

/-- In observation mode a request that has passed the gate is stopped by the engine's encoding
check or by a full body stage, and by nothing else. -/
theorem innerLayers_observe (ho : site.observe = true) (s : Vars) :
    ∃ a, (run (innerLayers e site q) s).answer = some a ∧
      a.forwards = observedThrough e site q s.edge := by
  obtain ⟨hai, hai'⟩ := aiLayer_observe e site q s ho
  obtain ⟨hbot, hbot'⟩ := botLayer_observe e site q s ho
  obtain ⟨hrate, rate, hrate'⟩ := rateLayer_observe e site q s ho
  unfold innerLayers
  rw [run_cons_next hai, hai', run_cons_next hbot, hbot', run_cons_next hrate, hrate']
  exact engineLayers_observe e site q ho _

/-! ## The gate -/

theorem layers_eq : layers e site q =
    earlyLayers e site q ++ accessLayer e site q :: gateLayer e site q :: innerLayers e site q := rfl

theorem handleRequest_of_reaches {st : EdgeState} {s : Vars} {a : RequestPluginResult}
    (hr : Reaches (earlyLayers e site q) (startVars st) s)
    (ha : (run (accessLayer e site q :: gateLayer e site q :: innerLayers e site q) s).answer =
      some a) : (handleRequest e site q st).1 = a := by
  simp only [handleRequest, requestPhase]
  rw [layers_eq, (run_append_of_reaches hr).1, ha]
  rfl

theorem gate_answers (s : Vars) (h : ∀ d, accessOutcome e site q = .denied d → d.basicAuth = true)
    (hg : gateRequired e site q (accessOutcome e site q) = true)
    (ha : authenticated e site q = false) :
    ∃ r, (run (accessLayer e site q :: gateLayer e site q :: innerLayers e site q) s).answer =
      some (.respond r) := by
  have hacc := accessLayer_next e site q s h
  obtain ⟨r, hr⟩ := gateLayer_shut e site q { s with access := accessOutcome e site q } hg ha
  refine ⟨r, ?_⟩
  rw [run_cons_next (by rw [hacc]; rfl), hacc, next_state, run_cons_answer hr]

/-- **A site-wide basic-auth gate stops a request without a valid credential, unless a denial that
is not a basic-auth rule took the gate away and let the request go: as a challenge the client had
solved or a path exception waives, or in observation mode.** -/
theorem site_wide_gate_holds_iff (st : EdgeState) (s : Vars) (g : BasicAuthGate)
    (hgate : site.gate = some g) (hwide : g.siteWide = true)
    (hreach : Reaches (earlyLayers e site q) (startVars st) s)
    (hcred : authenticated e site q = false) (hallow : accessOutcome e site q ≠ .allowed)
    (hexc : bypasses e site q .basicAuth = false) :
    (handleRequest e site q st).1.forwards = false ↔ ¬GateMissed e site q st := by
  obtain rfl := state_of_inert (earlyLayers_inert e site q) hreach
  cases hacc : accessOutcome e site q with
  | allowed => exact absurd hacc hallow
  | noMatch =>
    obtain ⟨r, hr⟩ := gate_answers e site q (startVars st)
      (by simp [hacc]) (by simp [gateRequired, hacc, hgate, hwide, hexc]) hcred
    rw [handleRequest_of_reaches e site q hreach hr]
    simp [RequestPluginResult.forwards, GateMissed, hacc]
  | denied d =>
    cases hb : d.basicAuth with
    | true =>
      obtain ⟨r, hr⟩ := gate_answers e site q (startVars st)
        (by simp [hacc, hb]) (by simp [gateRequired, hacc, hb, hexc]) hcred
      rw [handleRequest_of_reaches e site q hreach hr]
      simp [RequestPluginResult.forwards, GateMissed, hacc, hb]
    | false =>
      cases ho : site.observe with
      | false =>
        have hans := accessLayer_deny e site q (startVars st) hacc hb ho
        rw [handleRequest_of_reaches e site q hreach (by rw [run_cons_answer hans]), denyRequest_forwards]
        simp [GateMissed, hacc, hb, ho]
      | true =>
        have hobs := accessLayer_observe e site q (startVars st) hacc hb ho
        have hopen := gateLayer_open e site q
          { startVars st with access := .denied d } (by simp [gateRequired, hb])
        obtain ⟨a, ha, hf⟩ := innerLayers_observe e site q ho
          { startVars st with access := .denied d }
        rw [handleRequest_of_reaches e site q (a := a) hreach, hf]
        · simp [GateMissed, hacc, hb, ho, startVars]
        · rw [run_cons_next (by rw [hobs]; rfl), hobs, next_state,
            run_cons_next (by rw [hopen]; rfl), hopen, next_state, ha]

end

/-! ## A challenge that opens the gate -/

/-- Services that know nothing, except that every clearance cookie is good. -/
def quietServices : Services where
  crates := .inert
  detectors := .silent
  lookupAsn _ := none
  base64Decode _ := none
  dnsVerify _ _ := .unknown
  validateClearance _ _ := true

def quietEdge : Edge where
  services := quietServices
  plugin :=
    { pluginStep := .earlyRequest
      engine := WafEngine.bare 5 []
      mode := .block
      inspectBody := false
      maxBodySize := 65536
      bodyStageTimeoutSecs := 30
      bodyStagePolicy := .balanced
      encodedBodyPolicy := .inspectWire }
  agent := none
  budget := WafEngine.freeBudget

def quietState : EdgeState := ⟨⟨∅, 0⟩, .empty⟩

def wideGate : BasicAuthGate where
  siteWide := true
  realm := defaultBasicRealm
  credentials := [utf8Encode "user:secret"]
  hideCredentials := false
  usable := by simp

/-- A site without a rule of its own. -/
def bareContext : SiteContext where
  policy := ⟨[], none⟩
  bot := none
  aiBots := []
  rateLimits := none
  mtls := none
  basicAuth := none
  ruleNames := ∅
  paused := false
  observationMode := false
  wafMode := some .block
  inspectBody := false
  bodyStageTimeoutSecs := 0
  pathExceptions := none

def gatedSite (rules : List IpRule) (observe : Bool) : ResolvedSite where
  choice := .base
  siteId := "site"
  context := some { bareContext with
    policy := ⟨rules, none⟩, basicAuth := some wideGate, observationMode := observe }
  servesLogin := false

def clientRule (action : IpRuleAction) : IpRule :=
  ⟨"r1", "office", action, ⟨[], [.v4 0xC0000201#32]⟩⟩

def getWith (headers : List HeaderLine) : Incoming where
  step := .earlyRequest
  requestId := "1"
  header := ⟨"GET", some "example.com", "/", none, headers⟩
  facts := anyClient
  peer := none
  now := 0
  unixNow := 0

def clearanceLine : HeaderLine := ⟨"cookie", utf8Encode "__pingwaf_clearance=x"⟩

/-- With a clearance the challenge rule opens the gate; so does a block rule in observation mode. -/
theorem gate_opened_by_other_rules :
    (handleRequest quietEdge (gatedSite [clientRule .challenge] false) (getWith [clearanceLine])
        quietState).1 = .continue_ ∧
      (handleRequest quietEdge (gatedSite [clientRule .block] true) (getWith [])
        quietState).1 = .continue_ ∧
      (handleRequest quietEdge (gatedSite [] false) (getWith [clearanceLine]) quietState).1 =
        .respond (.basicAuthPage "Restricted" "site-wide basic authentication") := by
  decide +kernel

/-- A challenge rule leaves the gate shut as long as its challenge is not solved. -/
theorem gate_stands_behind_challenge :
    (handleRequest quietEdge (gatedSite [clientRule .challenge] false) (getWith [])
      quietState).1.forwards = false :=
  (site_wide_gate_holds_iff quietEdge (gatedSite [clientRule .challenge] false) (getWith [])
    quietState _ wideGate rfl rfl ⟨by decide +kernel, rfl⟩ (by decide +kernel) (by decide +kernel)
    (by decide +kernel)).mpr
    (by
      rintro ⟨d, -, -, ⟨-, -, hwaived | hcleared⟩ | ⟨hobserve, -⟩⟩
      · exact absurd hwaived (by decide +kernel)
      · exact absurd hcleared (by decide +kernel)
      · exact absurd hobserve (by decide))

end PingWaf.Plugin
