import PingWaf.Plugin.Proof.Gate

/-!
# Challenges that do not stop the request

A rule of the access, AI crawler, bot or rate limit layer may demand a challenge that the client has
already solved or that a path exception waives. An enforcing site then forwards the request past the
layers behind it.
-/

namespace PingWaf.Plugin

open Text Net Waf Pipeline

/-- The layers whose rules may demand a challenge. -/
inductive ChallengeLayer where
  | access | aiBot | bot | rateLimit

/-- Its place among the layers. -/
def ChallengeLayer.index : ChallengeLayer → Nat
  | .access => 6
  | .aiBot => 8
  | .bot => 9
  | .rateLimit => 10

/-! ## The site without the rule -/

/-- The policy without the rule that decides about the address. -/
def AccessPolicy.withoutDeciding (p : AccessPolicy) (addr : Option IpAddr) : AccessPolicy :=
  match addr.bind fun a => p.ipRules.find? fun r => r.ranges.isMatchAddr a with
  | some _ => { p with ipRules := p.ipRules.eraseP fun r => addr.any r.ranges.isMatchAddr }
  | none => { p with geo := none }

def ratePolicyOf (rules : List CompiledRateRule) : Option RateLimitPolicy :=
  if h : rules = [] then none else some ⟨rules, h⟩

/-- The demand for a challenge is met by a clearance or waived by a path exception. -/
def ChallengeExempt (e : Edge) (site : ResolvedSite) (q : Incoming) : Prop :=
  q.cleared e.services = true ∨ bypasses e site q .challenge = true

/-- A rule of the layer demands a challenge from which the request is exempt; `site'` is the site
without that rule. -/
inductive Exempted (e : Edge) (q : Incoming) (rate : RateState) (site : ResolvedSite) :
    ChallengeLayer → ResolvedSite → Prop
  | access {s : SiteContext} {d : Denial} (hs : site.context = some s)
      (hb : bypasses e site q .access = false) (hd : accessOutcome e site q = .denied d)
      (hc : d.challenge = true) (hx : ChallengeExempt e site q) :
      Exempted e q rate site .access
        { site with context := some { s with policy := s.policy.withoutDeciding q.addr } }
  | aiBot {s : SiteContext} {r : AiBotRule} (hs : site.context = some s)
      (hr : aiRule e site q = some r) (ha : r.action = .block) (hc : r.denial.challenge = true)
      (hx : ChallengeExempt e site q) :
      Exempted e q rate site .aiBot
        { site with context := some { s with aiBots := s.aiBots.erase r } }
  | bot {s : SiteContext} {d : Denial} (hs : site.context = some s)
      (hd : botDecision e site q = .deny d) (hc : d.challenge = true)
      (hx : ChallengeExempt e site q) :
      Exempted e q rate site .bot { site with context := some { s with bot := none } }
  /-- The rule trips, and a path exception waives its challenge. -/
  | rateTrip {s : SiteContext} {p : RateLimitPolicy} {before after : List CompiledRateRule}
      {r : CompiledRateRule} (hs : site.context = some s) (hp : rateLimits e site q = some p)
      (hr : p.rules = before ++ r :: after) (ha : r.action = .challenge)
      (hn : (evaluateRules e.services (rateInput e q p) before rate []).1.deny = none)
      (ht : (evaluateRules e.services (rateInput e q p) (before ++ [r]) rate []).1.deny.isSome)
      (hx : bypasses e site q .challenge = true) :
      Exempted e q rate site .rateLimit
        { site with context := some { s with rateLimits := ratePolicyOf (before ++ after) } }
  /-- The client has solved the challenge, and the rule does not count it. -/
  | rateClear {s : SiteContext} {p : RateLimitPolicy} {before after : List CompiledRateRule}
      {r : CompiledRateRule} (hs : site.context = some s) (hp : rateLimits e site q = some p)
      (hr : p.rules = before ++ r :: after) (ha : r.action = .challenge)
      (hm : r.applies e.services (rateInput e q p) = true) (hx : q.cleared e.services = true) :
      Exempted e q rate site .rateLimit
        { site with context := some { s with rateLimits := ratePolicyOf (before ++ after) } }

section

variable (e : Edge) (site site' : ResolvedSite) (q : Incoming)

/-- What the layers behind `which` did, and what became of the request. A layer that was not reached
has no entry; whether the request was forwarded past it or refused ahead of it is in the answer. -/
def laterOutcomes (which : ChallengeLayer) (st : EdgeState) :
    List (Report × Option RequestPluginResult) × Option RequestPluginResult :=
  ((requestPhase e site q st).trace.drop (which.index + 1), (requestPhase e site q st).answer)

/-- The rate limit rule that stops the request. -/
def rateTrip (rate : RateState) : Option RateTripped :=
  (rateLimits e site q).bind fun p => (p.evaluate e.services (rateInput e q p) rate).1.deny

/-- The rule's exemption leaves the later layers and the answer as they are without the rule. -/
def Harmless (rate : RateState) : ChallengeLayer → Prop
  | .access =>
    if site.observe then
      -- a gate the rest of the policy would have put up is left out
      ¬(gateRequired e site' q (accessOutcome e site' q) = true ∧
        (authenticated e site q = false ∨ site.gate.any (·.hideCredentials) = true))
    -- the rest of the policy demands a challenge as well
    else ∃ d, accessOutcome e site' q = .denied d ∧ d.challenge = true
  | .aiBot => True
  | .bot => site.observe = true
  | .rateLimit =>
    site.observe = true ∨ q.cleared e.services = true ∨
      (rateTrip e site' q rate).any (·.challenge) = true

end

/-! ## Variables the inner layers do not read -/

section

variable (e : Edge) (site : ResolvedSite) (q : Incoming)

def botLater : List EdgeLayer :=
  [rateLayer e site q, offLayer e site, wafLayer e site q, stageLayer e site q]

def rateLater : List EdgeLayer :=
  [offLayer e site, wafLayer e site q, stageLayer e site q]

def Vars.setAccess (a : PolicyOutcome) (s : Vars) : Vars := { s with access := a }

def Vars.setRate (r : RateState) (s : Vars) : Vars := { s with edge := { s.edge with rate := r } }

theorem aiLayer_frames (f : Vars → Vars) : Frames f (aiLayer e site q) := by
  intro s
  unfold aiLayer
  cases aiRule e site q with
  | none => exact ⟨rfl, rfl⟩
  | some r =>
    dsimp only
    cases r.action <;> cases site.observe <;> exact ⟨rfl, rfl⟩

theorem botLayer_frames (f : Vars → Vars) : Frames f (botLayer e site q) := by
  intro s
  unfold botLayer
  cases botDecision e site q with
  | deny _ => cases site.observe <;> exact ⟨rfl, rfl⟩
  | _ => exact ⟨rfl, rfl⟩

theorem offLayer_frames (f : Vars → Vars) : Frames f (offLayer e site) := by
  intro s
  unfold offLayer
  cases site.choice with
  | base => dsimp only; split_ifs <;> exact ⟨rfl, rfl⟩
  | _ => exact ⟨rfl, rfl⟩

theorem rateLayer_frames (a : PolicyOutcome) : Frames (Vars.setAccess a) (rateLayer e site q) := by
  intro s
  unfold rateLayer
  cases rateLimits e site q with
  | none => exact ⟨rfl, rfl⟩
  | some p =>
    simp only [Vars.setAccess]
    cases (p.evaluate e.services (rateInput e q p) s.edge.rate).1.deny with
    | none => exact ⟨rfl, rfl⟩
    | some _ =>
      cases site.observe with
      | true => exact ⟨rfl, rfl⟩
      | false =>
        simp only [tripAnswer, Bool.false_eq_true, if_false]
        split_ifs <;> exact ⟨rfl, rfl⟩

theorem wafLayer_frames {f : Vars → Vars}
    (hf : ∀ s o, { f s with outcome := o } = f { s with outcome := o }) :
    Frames f (wafLayer e site q) := by
  intro s
  unfold wafLayer
  cases bypasses e site q .waf with
  | true => exact ⟨rfl, hf s _⟩
  | false =>
    simp only [Bool.false_eq_true, if_false]
    cases (enforceVerdict e (verdictContext e site q) q.requestId q.data).outcome with
    | respond _ => exact ⟨rfl, rfl⟩
    | _ => exact ⟨rfl, hf s _⟩

theorem innerLayers_frames (a : PolicyOutcome) :
    ∀ l ∈ innerLayers e site q, Frames (Vars.setAccess a) l := by
  simp only [innerLayers, List.mem_cons, List.not_mem_nil, or_false]
  rintro l (rfl | rfl | rfl | rfl | rfl | rfl)
  · exact aiLayer_frames e site q _
  · exact botLayer_frames e site q _
  · exact rateLayer_frames e site q a
  · exact offLayer_frames e site _
  · exact wafLayer_frames e site q fun _ _ => rfl
  · exact fun _ => ⟨rfl, rfl⟩

theorem engineLayers_frames (r : RateState) :
    ∀ l ∈ rateLater e site q, Frames (Vars.setRate r) l := by
  simp only [rateLater, List.mem_cons, List.not_mem_nil, or_false]
  rintro l (rfl | rfl | rfl)
  · exact offLayer_frames e site _
  · exact wafLayer_frames e site q fun _ _ => rfl
  · exact fun _ => ⟨rfl, rfl⟩

end

/-! ## Rate limit rules one by one -/

section

variable (v : Services) (q : RateInput)

/-- One rule of the evaluation: go on with the next rule, or stop. -/
def ruleStep (r : CompiledRateRule) (s : RateState) (logged : List RateTripped) :
    (RateState × List RateTripped) ⊕ (RateOutcome × RateState) :=
  if !r.applies v q then .inl (s, logged)
  else if r.action = .allow then .inr (⟨none, logged⟩, s)
  else if r.action = .challenge && q.cleared then .inl (s, logged)
  else
    let (s, trips) := r.count v q s
    if !trips then .inl (s, logged)
    else
      let tripped := rateTripped r (r.retryAfter q.now)
      if r.action = .log then .inl (s, logged ++ [tripped]) else .inr (⟨some tripped, logged⟩, s)

theorem evaluateRules_cons (r : CompiledRateRule) (rest : List CompiledRateRule) (s : RateState)
    (logged : List RateTripped) :
    evaluateRules v q (r :: rest) s logged =
      match ruleStep v q r s logged with
      | .inl (s, logged) => evaluateRules v q rest s logged
      | .inr out => out := by
  rw [evaluateRules]
  simp only [ruleStep]
  split_ifs <;> rfl

theorem evaluateRules_skip {r : CompiledRateRule} (ha : r.action = .challenge)
    (hc : q.cleared = true) (before after : List CompiledRateRule) (s : RateState)
    (logged : List RateTripped) :
    evaluateRules v q (before ++ r :: after) s logged =
      evaluateRules v q (before ++ after) s logged := by
  induction before generalizing s logged with
  | nil =>
    have hstep : ruleStep v q r s logged = .inl (s, logged) := by simp [ruleStep, ha, hc]
    rw [List.nil_append, evaluateRules_cons, hstep, List.nil_append]
  | cons x _ ih =>
    rw [List.cons_append, List.cons_append, evaluateRules_cons, evaluateRules_cons]
    cases ruleStep v q x s logged with
    | inl next => exact ih next.1 next.2
    | inr _ => rfl

theorem evaluateRules_clearance (b : Bool) {rules : List CompiledRateRule}
    (h : ∀ r ∈ rules, r.action ≠ .challenge) (s : RateState) (logged : List RateTripped) :
    evaluateRules v { q with cleared := b } rules s logged = evaluateRules v q rules s logged := by
  induction rules generalizing s logged with
  | nil => rfl
  | cons r _ ih =>
    have hr : r.action ≠ .challenge := h r List.mem_cons_self
    have hstep : ruleStep v { q with cleared := b } r s logged = ruleStep v q r s logged := by
      simp [ruleStep, hr]
      rfl
    rw [evaluateRules_cons, evaluateRules_cons, hstep]
    cases ruleStep v q r s logged with
    | inl next => exact ih (fun x hx => h x (List.mem_cons_of_mem _ hx)) next.1 next.2
    | inr _ => rfl

theorem evaluateRules_deny_append {xs : List CompiledRateRule} (ys : List CompiledRateRule)
    {s : RateState} {logged : List RateTripped}
    (h : (evaluateRules v q xs s logged).1.deny.isSome) :
    evaluateRules v q (xs ++ ys) s logged = evaluateRules v q xs s logged := by
  induction xs generalizing s logged with
  | nil => simp [evaluateRules] at h
  | cons x _ ih =>
    rw [List.cons_append, evaluateRules_cons, evaluateRules_cons]
    rw [evaluateRules_cons] at h
    cases hx : ruleStep v q x s logged with
    | inl _ =>
      rw [hx] at h
      exact ih h
    | inr _ => rfl

end

/-! ## The two runs -/

section

variable (e : Edge) (site : ResolvedSite) (q : Incoming)

/-- The layers in front of one. -/
def layersBefore (which : ChallengeLayer) : List EdgeLayer := (layers e site q).take which.index

variable {e site q} {st : EdgeState} {t : Vars}

theorem laterOutcomes_eq (which : ChallengeLayer) (l : EdgeLayer) (post : List EdgeLayer)
    (hl : layers e site q = layersBefore e site q which ++ l :: post)
    (hi : (layersBefore e site q which).length = which.index)
    (hr : Reaches (layersBefore e site q which) (startVars st) t) :
    laterOutcomes e site q which st = (l t).andThen post := by
  rw [laterOutcomes, requestPhase, hl, ← hi]
  exact later_of_reaches hr

/-- A demand that is met or waived lets the request go, a block does not. -/
theorem denyRequest_exempt {d : Denial} {skip : Bool} (eventType : String)
    (hx : skip = true ∨ q.cleared e.services = true) :
    (denyRequest e site.siteId q d skip eventType).2 = .continue_ ↔ d.challenge = true := by
  unfold denyRequest
  cases d.challenge <;> cases skip <;> simp_all

/-! ### Access restrictions -/

theorem accessLayer_observe_state (ho : site.observe = true) (s : Vars) :
    (accessLayer e site q s).answer = none ∧
      (accessLayer e site q s).state = s.setAccess (accessOutcome e site q) := by
  unfold accessLayer
  cases accessOutcome e site q with
  | denied d => cases hb : d.basicAuth <;> simp [hb, ho, Vars.setAccess]
  | _ => exact ⟨rfl, rfl⟩

variable {a : PolicyOutcome} {d : Denial} {site' : ResolvedSite} {p : RateLimitPolicy}
  {r : CompiledRateRule}

theorem gate_trace_next {s : Vars} {rep : Report}
    (hg : gateLayer e site q (s.setAccess a) = next (s.setAccess a) rep) :
    (run (gateLayer e site q :: innerLayers e site q) (s.setAccess a)).trace =
      (rep, none) :: (run (innerLayers e site q) s).trace := by
  rw [run_cons_next (by rw [hg]; rfl), hg, next_state, next_entry,
    run_frame (innerLayers_frames e site q a)]

theorem gate_trace_open (h : gateRequired e site q a = false) (s : Vars) :
    (run (gateLayer e site q :: innerLayers e site q) (s.setAccess a)).trace =
      ({}, none) :: (run (innerLayers e site q) s).trace :=
  gate_trace_next (gateLayer_open e site q (s.setAccess a) h)

theorem gate_trace_passed (h : gateRequired e site q a = true) (ha : authenticated e site q = true)
    (s : Vars) :
    (run (gateLayer e site q :: innerLayers e site q) (s.setAccess a)).trace =
      ({ hidesCredentials := site.gate.any (·.hideCredentials) }, none) ::
        (run (innerLayers e site q) s).trace :=
  gate_trace_next (by simp [gateLayer, Vars.setAccess, h, ha])

theorem gate_trace_shut (h : gateRequired e site q a = true) (ha : authenticated e site q = false)
    (s : Vars) :
    ∃ rep r, (run (gateLayer e site q :: innerLayers e site q) (s.setAccess a)).trace =
      [(rep, some r)] := by
  obtain ⟨r, hr⟩ := gateLayer_shut e site q (s.setAccess a) h ha
  exact ⟨_, .respond r, by rw [run_cons_answer hr, Step.entry, hr]⟩

theorem gate_trace_eq_iff {a b : PolicyOutcome} (ha : gateRequired e site q a = false) (s : Vars) :
    (run (gateLayer e site q :: innerLayers e site q) (s.setAccess a)).trace =
        (run (gateLayer e site q :: innerLayers e site q) (s.setAccess b)).trace ↔
      ¬(gateRequired e site q b = true ∧
        (authenticated e site q = false ∨ site.gate.any (·.hideCredentials) = true)) := by
  rw [gate_trace_open ha]
  cases hb : gateRequired e site q b with
  | false => simp [gate_trace_open hb]
  | true =>
    cases hv : authenticated e site q with
    | true => simp [gate_trace_passed hb hv]
    | false =>
      obtain ⟨rep, r, ht⟩ := gate_trace_shut hb hv s
      simp [ht]

theorem IpRule.outcome_exclusive {r : IpRule} {ip : String} (h : r.outcome ip = .denied d)
    (hc : d.challenge = true) : d.basicAuth = false := by
  unfold IpRule.outcome at h
  cases ha : r.action <;> simp only [ha, PolicyOutcome.denied.injEq, reduceCtorEq] at h <;>
    subst h <;> simp_all

theorem GeoRule.outcome_exclusive {v : Services} {g : GeoRule} {addr : Option IpAddr}
    {country : Option String} (h : g.outcome v addr country = .denied d) (hc : d.challenge = true) :
    d.basicAuth = false := by
  simp only [GeoRule.outcome] at h
  split at h
  · cases h
  · obtain rfl := PolicyOutcome.denied.inj h
    have hone := g.oneAction
    simp_all

theorem basicAuth_of_challenge (h : accessOutcome e site q = .denied d) (hc : d.challenge = true) :
    d.basicAuth = false := by
  unfold accessOutcome AccessPolicy.evaluate at h
  split at h
  · cases h
  split at h
  · cases h
  split at h
  · exact IpRule.outcome_exclusive h hc
  split at h
  · cases h
  · exact GeoRule.outcome_exclusive h hc

theorem laterOutcomes_access (hr : Reaches (layersBefore e site q .access) (startVars st) t) :
    laterOutcomes e site q .access st =
      (accessLayer e site q t).andThen (gateLayer e site q :: innerLayers e site q) :=
  laterOutcomes_eq .access _ _ rfl rfl hr

theorem access_transparent_iff
    (hpre : layersBefore e site' q .access = layersBefore e site q .access)
    (hlater : ∀ s, (run (gateLayer e site' q :: innerLayers e site' q) s).trace =
      (run (gateLayer e site q :: innerLayers e site q) s).trace)
    (hreq : gateRequired e site' q = gateRequired e site q) (hobs : site'.observe = site.observe)
    (hbyp : bypasses e site' q .challenge = bypasses e site q .challenge)
    (hd : accessOutcome e site q = .denied d) (hc : d.challenge = true)
    (hx : ChallengeExempt e site q)
    (hr : Reaches (layersBefore e site q .access) (startVars st) t) :
    laterOutcomes e site q .access st = laterOutcomes e site' q .access st ↔
      Harmless e site site' q t.edge.rate .access := by
  have hb := basicAuth_of_challenge hd hc
  rw [laterOutcomes_access hr, laterOutcomes_access (hpre ▸ hr)]
  unfold Harmless
  cases ho : site.observe with
  | true =>
    have ho' : site'.observe = true := hobs.trans ho
    obtain ⟨hn, hst⟩ := accessLayer_observe_state (e := e) (q := q) ho t
    obtain ⟨hn', hst'⟩ := accessLayer_observe_state (e := e) (q := q) ho' t
    rw [andThen_next hn, andThen_next hn', outcome_eq_iff, hlater, hst, hst', if_pos rfl,
      gate_trace_eq_iff (by rw [hd]; simp [gateRequired, hb]), hreq]
  | false =>
    have ho' : site'.observe = false := hobs.trans ho
    rw [andThen_answer (accessLayer_deny e site q t hd hb ho),
      (denyRequest_exempt "ip_geo" hx.symm).mpr hc, if_neg (by simp)]
    by_cases hdeny : ∃ d', accessOutcome e site' q = .denied d' ∧ d'.basicAuth = false
    · obtain ⟨d', hd', hb'⟩ := hdeny
      rw [andThen_answer (accessLayer_deny e site' q t hd' hb' ho'), hbyp, Prod.mk.injEq,
        Option.some.injEq, eq_comm (a := RequestPluginResult.continue_),
        denyRequest_exempt "ip_geo" hx.symm]
      simp [hd']
    · have hbasic : ∀ d', accessOutcome e site' q = .denied d' → d'.basicAuth = true := by
        intro d' hd'
        by_contra hb'
        exact hdeny ⟨d', hd', by simpa using hb'⟩
      rw [accessLayer_next e site' q t hbasic, andThen_next (next_answer _ _)]
      refine iff_of_false (fun h => outcome_cons_ne _ _ _ _ h.symm) ?_
      rintro ⟨d', hd', hc'⟩
      exact hdeny ⟨d', hd', basicAuth_of_challenge hd' hc'⟩

/-! ### Bots -/

theorem laterOutcomes_bot (hr : Reaches (layersBefore e site q .bot) (startVars st) t) :
    laterOutcomes e site q .bot st = (botLayer e site q t).andThen (botLater e site q) :=
  laterOutcomes_eq .bot _ _ rfl rfl hr

theorem bot_transparent_iff (hpre : layersBefore e site' q .bot = layersBefore e site q .bot)
    (hlater : ∀ s, (run (botLater e site' q) s).trace = (run (botLater e site q) s).trace)
    (hd : botDecision e site q = .deny d) (hd' : botDecision e site' q = .pass)
    (hr : Reaches (layersBefore e site q .bot) (startVars st) t) :
    laterOutcomes e site q .bot st = laterOutcomes e site' q .bot st ↔
      Harmless e site site' q t.edge.rate .bot := by
  have hpass : botLayer e site' q t = next t {} := by simp [botLayer, hd']
  rw [laterOutcomes_bot hr, laterOutcomes_bot (hpre ▸ hr), hpass, andThen_next (next_answer _ _)]
  unfold Harmless
  cases ho : site.observe with
  | true =>
    obtain ⟨hn, hst⟩ := botLayer_observe e site q t ho
    rw [andThen_next hn, outcome_eq_iff, hlater, hst]
    simp
  | false =>
    have hans : (botLayer e site q t).answer =
        some (denyRequest e site.siteId q d (bypasses e site q .challenge) "bot").2 := by
      simp [botLayer, hd, ho]
    rw [andThen_answer hans]
    exact iff_of_false (fun h => outcome_cons_ne _ _ _ _ h.symm) Bool.false_ne_true

/-! ### Rate limits -/

theorem laterOutcomes_rate (hr : Reaches (layersBefore e site q .rateLimit) (startVars st) t) :
    laterOutcomes e site q .rateLimit st = (rateLayer e site q t).andThen (rateLater e site q) :=
  laterOutcomes_eq .rateLimit _ _ rfl rfl hr

/-- How a rule that stops the request is answered. -/
def tripResult (e : Edge) (site : ResolvedSite) (q : Incoming) (t : RateTripped) :
    RequestPluginResult :=
  if t.challenge && bypasses e site q .challenge then .continue_
  else if t.challenge then .respond (.challengePage (originalUrl q.data) q.host)
  else .respond (.rateLimitPage t.detail t.retryAfter)

theorem tripAnswer_spec (t : RateTripped) (logged : List SecurityEvent) (s : Vars) :
    (tripAnswer e site q t logged s).answer = some (tripResult e site q t) ∧
      (tripAnswer e site q t logged s).state = s := by
  unfold tripAnswer tripResult
  dsimp only
  split_ifs <;> exact ⟨rfl, rfl⟩

theorem rateLayer_spec (e : Edge) (site : ResolvedSite) (q : Incoming) (s : Vars) :
    (rateLayer e site q s).answer = (if site.observe then none
        else (rateTrip e site q s.edge.rate).map (tripResult e site q)) ∧
      ∃ rate, (rateLayer e site q s).state = s.setRate rate := by
  unfold rateLayer rateTrip
  cases rateLimits e site q with
  | none => exact ⟨by simp, s.edge.rate, rfl⟩
  | some p =>
    simp only [Option.bind_some]
    cases (p.evaluate e.services (rateInput e q p) s.edge.rate).1.deny with
    | none => exact ⟨by simp, _, rfl⟩
    | some _ =>
      cases site.observe with
      | true => exact ⟨by simp, _, rfl⟩
      | false =>
        simp only [Bool.false_eq_true, if_false, tripAnswer_spec]
        exact ⟨rfl, _, rfl⟩

theorem rate_transparent_iff
    (hpre : layersBefore e site' q .rateLimit = layersBefore e site q .rateLimit)
    (hlater : ∀ s, (run (rateLater e site' q) s).trace = (run (rateLater e site q) s).trace)
    (hobs : site'.observe = site.observe)
    (hbyp : bypasses e site' q .challenge = bypasses e site q .challenge)
    (hden : if q.cleared e.services then
        rateTrip e site q t.edge.rate = rateTrip e site' q t.edge.rate
      else bypasses e site q .challenge = true ∧
        ∃ trip, rateTrip e site q t.edge.rate = some trip ∧ trip.challenge = true)
    (hr : Reaches (layersBefore e site q .rateLimit) (startVars st) t) :
    laterOutcomes e site q .rateLimit st = laterOutcomes e site' q .rateLimit st ↔
      Harmless e site site' q t.edge.rate .rateLimit := by
  obtain ⟨hans, rate, hst⟩ := rateLayer_spec e site q t
  obtain ⟨hans', rate', hst'⟩ := rateLayer_spec e site' q t
  have hresult : tripResult e site' q = tripResult e site q := by
    funext trip
    rw [tripResult, tripResult, hbyp]
  -- where both runs go on, they agree
  have hboth (hn : (rateLayer e site q t).answer = none)
      (hn' : (rateLayer e site' q t).answer = none) :
      (rateLayer e site q t).andThen (rateLater e site q) =
        (rateLayer e site' q t).andThen (rateLater e site' q) := by
    rw [andThen_next hn, andThen_next hn', outcome_eq_iff, hlater, hst, hst',
      run_frame (engineLayers_frames e site q rate), run_frame (engineLayers_frames e site q rate')]
  rw [laterOutcomes_rate hr, laterOutcomes_rate (hpre ▸ hr)]
  rw [hobs, hresult] at hans'
  unfold Harmless
  cases ho : site.observe with
  | true =>
    rw [ho, if_pos rfl] at hans hans'
    exact iff_of_true (hboth hans hans') (.inl rfl)
  | false =>
    rw [ho, if_neg (by simp)] at hans hans'
    cases hc : q.cleared e.services with
    | true =>
      rw [hc, if_pos rfl] at hden
      refine iff_of_true ?_ (.inr (.inl rfl))
      rw [hden] at hans
      cases htrip : rateTrip e site' q t.edge.rate with
      | none => exact hboth (by rw [hans, htrip]; rfl) (by rw [hans', htrip]; rfl)
      | some _ =>
        rw [htrip] at hans hans'
        rw [andThen_answer hans, andThen_answer hans']
    | false =>
      rw [hc, if_neg (by simp)] at hden
      obtain ⟨hskip, trip, htrip, hdemand⟩ := hden
      rw [htrip, Option.map_some] at hans
      rw [andThen_answer hans]
      cases htrip' : rateTrip e site' q t.edge.rate with
      | none =>
        rw [htrip', Option.map_none] at hans'
        rw [andThen_next hans']
        exact iff_of_false (fun h => outcome_cons_ne _ _ _ _ h.symm) (by simp)
      | some trip' =>
        rw [htrip', Option.map_some] at hans'
        rw [andThen_answer hans']
        cases hdemand' : trip'.challenge <;> simp [tripResult, hskip, hdemand, hdemand']

/-- What the last rule adds to rules that stop nothing is its own. -/
theorem evaluateRules_concat_deny {v : Services} {i : RateInput} {before : List CompiledRateRule}
    {rate : RateState} {logged : List RateTripped} {trip : RateTripped}
    (hn : (evaluateRules v i before rate logged).1.deny = none)
    (ht : (evaluateRules v i (before ++ [r]) rate logged).1.deny = some trip) :
    trip.challenge = (r.action == .challenge) := by
  induction before generalizing rate logged with
  | nil =>
    rw [List.nil_append, evaluateRules_cons] at ht
    unfold ruleStep at ht
    dsimp only at ht
    split_ifs at ht <;> simp only [evaluateRules, reduceCtorEq, Option.some.injEq] at ht
    rw [← ht]
    rfl
  | cons x _ ih =>
    rw [List.cons_append, evaluateRules_cons] at ht
    rw [evaluateRules_cons] at hn
    cases hx : ruleStep v i x rate logged with
    | inl _ =>
      rw [hx] at hn ht
      exact ih hn ht
    | inr _ =>
      rw [hx] at hn ht
      rw [hn] at ht
      cases ht

theorem rateTrip_of_trip {before after : List CompiledRateRule} {rate : RateState}
    (hp : rateLimits e site q = some p) (hr : p.rules = before ++ r :: after)
    (ha : r.action = .challenge)
    (hn : (evaluateRules e.services (rateInput e q p) before rate []).1.deny = none)
    (ht : (evaluateRules e.services (rateInput e q p) (before ++ [r]) rate []).1.deny.isSome) :
    ∃ trip, rateTrip e site q rate = some trip ∧ trip.challenge = true := by
  have happ : p.rules = (before ++ [r]) ++ after := by simp [hr]
  obtain ⟨trip, htrip⟩ := Option.isSome_iff_exists.mp ht
  refine ⟨trip, ?_, (evaluateRules_concat_deny hn htrip).trans (by rw [ha]; rfl)⟩
  rw [rateTrip, hp, Option.bind_some, RateLimitPolicy.evaluate, happ,
    evaluateRules_deny_append _ _ _ ht, htrip]

theorem not_cleared_of_trip {before after : List CompiledRateRule} {rate : RateState}
    (hr : p.rules = before ++ r :: after) (ha : r.action = .challenge)
    (hn : (evaluateRules e.services (rateInput e q p) before rate []).1.deny = none)
    (ht : (evaluateRules e.services (rateInput e q p) (before ++ [r]) rate []).1.deny.isSome) :
    q.cleared e.services = false := by
  by_contra hc
  have hcl : (rateInput e q p).cleared = true := by simpa [rateInput, hr, ha] using hc
  rw [evaluateRules_skip _ _ ha hcl, List.append_nil, hn] at ht
  cases ht

theorem rateTrip_of_clear {before after : List CompiledRateRule} (rate : RateState)
    (hp : rateLimits e site q = some p)
    (hp' : rateLimits e site' q = ratePolicyOf (before ++ after))
    (hr : p.rules = before ++ r :: after) (ha : r.action = .challenge)
    (hx : q.cleared e.services = true) : rateTrip e site q rate = rateTrip e site' q rate := by
  have hcl : (rateInput e q p).cleared = true := by simp [rateInput, hr, ha, hx]
  rw [rateTrip, hp, Option.bind_some, RateLimitPolicy.evaluate, hr,
    evaluateRules_skip _ _ ha hcl, rateTrip, hp', ratePolicyOf]
  split_ifs with hne
  · simp [hne, evaluateRules]
  · rw [Option.bind_some, RateLimitPolicy.evaluate]
    by_cases hany : ∃ x ∈ before ++ after, x.action = .challenge
    · have heq : rateInput e q ⟨before ++ after, hne⟩ = rateInput e q p := by
        have hcl' : (before ++ after).any (fun x => decide (x.action = .challenge)) = true := by
          simpa [or_and_right, exists_or] using hany
        simp [rateInput, hcl', hr, ha]
      rw [heq]
    · have hno : ∀ x ∈ before ++ after, x.action ≠ .challenge := fun x hx hc => hany ⟨x, hx, hc⟩
      exact congrArg (fun out => out.1.deny)
        (evaluateRules_clearance e.services (rateInput e q p)
          (rateInput e q ⟨before ++ after, hne⟩).cleared hno rate []).symm

/-! ### The theorem -/

theorem stageRequest_decision {k k' : VerdictContext}
    (hw : wantsBody e k'.context = wantsBody e k.context) (hi : inspects e k' = inspects e k)
    (hid : k'.siteId = k.siteId) (tables : StageTables) :
    (stageRequest e k' q tables).1 = (stageRequest e k q tables).1 := by
  simp only [stageRequest, hw, hi, hid]
  split_ifs <;> rfl

theorem stageLayer_entry_eq (s : Vars) :
    (stageLayer e site q s).entry =
      ({ stage := (stageRequest e (verdictContext e site q) q s.edge.stage).1 },
        some (stageAnswer (stageRequest e (verdictContext e site q) q s.edge.stage).1 s.outcome)) :=
  rfl

theorem stageLayer_entry (hw : wantsBody e site'.context = wantsBody e site.context)
    (hi : inspects e (verdictContext e site' q) = inspects e (verdictContext e site q))
    (hid : site'.siteId = site.siteId) (s : Vars) :
    (stageLayer e site' q s).entry = (stageLayer e site q s).entry := by
  rw [stageLayer_entry_eq, stageLayer_entry_eq, stageRequest_decision hw hi hid]

/-- **Where a rule demands a challenge from which the request is exempt, the later layers and the
answer are what they are without the rule exactly when: at the access layer, the rest of the policy
demands a challenge too or, in observation mode, puts up no gate that would have asked or hidden; at
the bot layer, the site observes; at the rate limit layer, the site observes, the client holds a
clearance, or another rule trips that demands a challenge.** -/
theorem challenge_exemption_transparent_iff {which : ChallengeLayer} {site' : ResolvedSite}
    (hr : Reaches (layersBefore e site q which) (startVars st) t)
    (hx : Exempted e q t.edge.rate site which site') :
    laterOutcomes e site q which st = laterOutcomes e site' q which st ↔
      Harmless e site site' q t.edge.rate which := by
  obtain ⟨choice, id, context, login⟩ := site
  cases hx with
  | access hs _ hd hc hx =>
    obtain rfl : context = _ := hs
    refine access_transparent_iff rfl (trace_concat_congr [_, _, _, _, _, _] _ _ ?_) rfl rfl rfl hd
      hc hx hr
    exact stageLayer_entry rfl rfl rfl
  | aiBot _ _ _ hc _ => exact absurd hc (by simp [AiBotRule.denial])
  | bot hs hd _ _ =>
    obtain rfl : context = _ := hs
    refine bot_transparent_iff rfl (trace_concat_congr [_, _, _] _ _ ?_) hd ?_ hr
    · exact stageLayer_entry rfl rfl rfl
    · unfold botDecision
      split_ifs <;> rfl
  | rateTrip hs hp hrules ha hn ht hx =>
    obtain rfl : context = _ := hs
    refine rate_transparent_iff rfl (trace_concat_congr [_, _] _ _ ?_) rfl rfl ?_ hr
    · exact stageLayer_entry rfl rfl rfl
    · rw [not_cleared_of_trip hrules ha hn ht, if_neg (by simp)]
      exact ⟨hx, rateTrip_of_trip hp hrules ha hn ht⟩
  | @rateClear c p before after r hs hp hrules ha hm hx =>
    obtain rfl : context = some c := hs
    have hnb : ¬bypasses e ⟨choice, id, some c, login⟩ q .rateLimit = true := by
      intro hb
      simp [rateLimits, hb] at hp
    refine rate_transparent_iff rfl (trace_concat_congr [_, _] _ _ ?_) rfl rfl ?_ hr
    · exact stageLayer_entry rfl rfl rfl
    · rw [if_pos hx]
      exact rateTrip_of_clear _ hp (if_neg hnb) hrules ha hx

end

/-! ## A solved challenge and an observed one -/

/-- On an enforcing site behind a gate, a solved challenge takes the request past every layer that
is still to come; without the rule the gate answers. -/
theorem solved_challenge_skips_layers :
    ∃ site', Exempted quietEdge (getWith [clearanceLine]) quietState.rate
        (gatedSite [clientRule .challenge] false) .access site' ∧
      laterOutcomes quietEdge (gatedSite [clientRule .challenge] false) (getWith [clearanceLine])
        .access quietState = ([], some .continue_) ∧
      laterOutcomes quietEdge site' (getWith [clearanceLine]) .access quietState =
        ([({}, some (.respond
            (.basicAuthPage "Restricted" "site-wide basic authentication")))],
          some (.respond (.basicAuthPage "Restricted" "site-wide basic authentication"))) := by
  have hd : accessOutcome quietEdge (gatedSite [clientRule .challenge] false)
      (getWith [clearanceLine]) = .denied
        ⟨"r1", "office", "client ip 192.0.2.1 matched challenge rule 'office'", true, false⟩ := by
    decide +kernel
  exact ⟨_, .access rfl (by decide +kernel) hd rfl (.inl (by decide +kernel)),
    by decide +kernel, by decide +kernel⟩

def botSite (bot : Option BotPolicy) : ResolvedSite :=
  ⟨.base, "site", some { bareContext with bot, observationMode := true }, false⟩

def challengeBots : BotPolicy := ⟨[], .challenge, [], false⟩

/-- In observation mode the bot rule leaves the later layers alone. -/
theorem observed_bot_challenge_transparent :
    laterOutcomes quietEdge (botSite (some challengeBots)) (getWith [clearanceLine]) .bot
        quietState =
      laterOutcomes quietEdge (botSite none) (getWith [clearanceLine]) .bot quietState := by
  have hd : botDecision quietEdge (botSite (some challengeBots)) (getWith [clearanceLine]) =
      .deny ⟨"bot_protection", "Bot protection", "the request carries no user agent", true,
        false⟩ := by
    decide +kernel
  have hx (rate : RateState) : Exempted quietEdge (getWith [clearanceLine]) rate
      (botSite (some challengeBots)) .bot (botSite none) :=
    .bot rfl hd rfl (.inl (by decide +kernel))
  have hr : (run (layersBefore quietEdge (botSite (some challengeBots)) (getWith [clearanceLine])
      .bot) (startVars quietState)).answer = none := by
    decide +kernel
  have hobs : (botSite (some challengeBots)).observe = true := rfl
  exact (challenge_exemption_transparent_iff ⟨hr, rfl⟩ (hx _)).mpr hobs

end PingWaf.Plugin
