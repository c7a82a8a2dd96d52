import PingWaf.Plugin.Handle

/-!
# What each layer can do

One lemma per layer of the request phase: when it answers, and which of the shared variables it
touches. Observation mode takes the answer away from every layer between the access restrictions
and the engine.
-/

namespace PingWaf.Plugin

open Text Net Waf Pipeline

section

variable (e : Edge) (site : ResolvedSite) (q : Incoming)

/-! ## Ahead of the access restrictions -/

def Inert (l : EdgeLayer) : Prop := ∀ s, (l s).state = s

theorem frontDoor_inert : Inert (frontDoor e site q) := by
  intro s
  unfold frontDoor
  split_ifs <;> rfl

theorem pausedLayer_inert : Inert (pausedLayer site) := by
  intro s
  unfold pausedLayer
  split_ifs <;> rfl

theorem failClosedLayer_inert : Inert (failClosedLayer e site q) := by
  intro s
  unfold failClosedLayer
  split <;> rfl

theorem ipBanLayer_inert : Inert (ipBanLayer e site q) := by
  intro s
  simp only [ipBanLayer]
  split
  · rfl
  · split_ifs <;> rfl

theorem pathExceptionLayer_inert : Inert (pathExceptionLayer e site q) := by
  intro s
  unfold pathExceptionLayer
  split <;> rfl

theorem mtlsLayer_inert : Inert (mtlsLayer e site q) := by
  intro s
  unfold mtlsLayer
  split <;> rfl

theorem earlyLayers_inert : ∀ l ∈ earlyLayers e site q, Inert l := by
  simp only [earlyLayers, List.mem_cons, List.not_mem_nil, or_false]
  rintro l (rfl | rfl | rfl | rfl | rfl | rfl)
  · exact frontDoor_inert e site q
  · exact pausedLayer_inert site
  · exact failClosedLayer_inert e site q
  · exact ipBanLayer_inert e site q
  · exact pathExceptionLayer_inert e site q
  · exact mtlsLayer_inert e site q

theorem state_of_inert {ls : List EdgeLayer} (h : ∀ l ∈ ls, Inert l) {s t : Vars}
    (hr : Reaches ls s t) : t = s := by
  induction ls generalizing s with
  | nil => exact (reaches_nil.mp hr).symm
  | cons l _ ih =>
    have hs : (l s).state = s := h l List.mem_cons_self s
    have ht := (reaches_cons.mp hr).2
    rw [hs] at ht
    exact ih (fun l' hl' => h l' (List.mem_cons_of_mem _ hl')) ht

end

/-! ## Denials -/

theorem denyRequest_forwards (e : Edge) (siteId : String) (q : Incoming) (d : Denial) (skip : Bool)
    (eventType : String) :
    (denyRequest e siteId q d skip eventType).2.forwards =
      (d.challenge && (skip || q.cleared e.services)) := by
  unfold denyRequest
  cases d.challenge <;> cases skip <;> cases q.cleared e.services <;> rfl

section

variable (e : Edge) (site : ResolvedSite) (q : Incoming) (s : Vars)

/-! ## The access restrictions and the gate -/

theorem accessLayer_next (h : ∀ d, accessOutcome e site q = .denied d → d.basicAuth = true) :
    accessLayer e site q s = next { s with access := accessOutcome e site q } {} := by
  unfold accessLayer
  cases ha : accessOutcome e site q with
  | noMatch | allowed => rfl
  | denied d => simp [h d ha]

theorem accessLayer_observe {d : Denial} (h : accessOutcome e site q = .denied d)
    (hb : d.basicAuth = false) (ho : site.observe = true) :
    accessLayer e site q s =
      next { s with access := .denied d } { events := observedDenial e site q d "ip_geo" } := by
  simp [accessLayer, h, hb, ho]

theorem accessLayer_deny {d : Denial} (h : accessOutcome e site q = .denied d)
    (hb : d.basicAuth = false) (ho : site.observe = false) :
    (accessLayer e site q s).answer =
      some (denyRequest e site.siteId q d (bypasses e site q .challenge) "ip_geo").2 := by
  simp [accessLayer, h, hb, ho]

theorem gateLayer_open (h : gateRequired e site q s.access = false) :
    gateLayer e site q s = next s {} := by
  simp [gateLayer, h]

theorem gateLayer_shut (h : gateRequired e site q s.access = true)
    (ha : authenticated e site q = false) :
    ∃ r, (gateLayer e site q s).answer = some (.respond r) := by
  simp [gateLayer, h, ha]

/-! ## Observation mode -/

theorem aiLayer_observe (ho : site.observe = true) :
    (aiLayer e site q s).answer = none ∧ (aiLayer e site q s).state = s := by
  unfold aiLayer
  cases aiRule e site q with
  | none => exact ⟨rfl, rfl⟩
  | some rule => cases ha : rule.action <;> simp [ha, ho]

theorem botLayer_observe (ho : site.observe = true) :
    (botLayer e site q s).answer = none ∧ (botLayer e site q s).state = s := by
  unfold botLayer
  cases botDecision e site q <;> simp [ho]

theorem rateLayer_observe (ho : site.observe = true) :
    (rateLayer e site q s).answer = none ∧
      ∃ rate, (rateLayer e site q s).state = { s with edge := { s.edge with rate := rate } } := by
  unfold rateLayer
  cases rateLimits e site q with
  | none => exact ⟨rfl, s.edge.rate, rfl⟩
  | some p =>
    cases hd : (p.evaluate e.services (rateInput e q p) s.edge.rate).1.deny <;> simp [hd, ho]

end

end PingWaf.Plugin
