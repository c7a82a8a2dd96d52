import PingWaf.Upstream.Breaker

/-!
# What an open and a half-open breaker lets through

An open breaker stays as it is until its time is up (`run_opened`). The probe count of a half-open
breaker is the number of requests that its episode accepted (`probesSent_run`).
-/

namespace PingWaf.Upstream

open Once

variable {cfg : CircuitBreakerConfig} {s : BackendCircuitState} {c : Call} {calls : List Call}

/-! ## One call -/

inductive Called (cfg : CircuitBreakerConfig) (s : BackendCircuitState) (c : Call) : Prop where
  /-- The breaker stays as it is; a closed one may accept. -/
  | stays (hstep : callStep cfg s c = s)
      (haccepted : s.currentState ≠ .closed → accepted cfg s c = false)
  /-- It opens, by a failure or for lack of answers. -/
  | trips (hs : s.currentState ≠ .opened) (hstate : (callStep cfg s c).currentState = .opened)
      (huntil : (callStep cfg s c).data.openUntil = c.now + cfg.openDuration)
      (haccepted : accepted cfg s c = false)
  /-- The first probe. -/
  | begins (hs : s.currentState = .opened) (htime : s.data.openUntil ≤ c.now)
      (hstate : (callStep cfg s c).currentState = .halfOpen)
      (hprobes : (callStep cfg s c).data.probesSent = 1) (haccepted : accepted cfg s c = true)
  /-- One probe more. -/
  | probe (hs : s.currentState = .halfOpen)
      (hstate : (callStep cfg s c).currentState = .halfOpen)
      (hprobes : (callStep cfg s c).data.probesSent = s.data.probesSent + 1)
      (hroom : s.data.probesSent < cfg.halfOpenConsecutiveSuccessThreshold)
      (haccepted : accepted cfg s c = true)
  /-- It closes. -/
  | closes (hs : s.currentState = .halfOpen) (hstate : (callStep cfg s c).currentState = .closed)
      (haccepted : accepted cfg s c = false)

theorem called_ask (cfg : CircuitBreakerConfig) (s : BackendCircuitState) (now : Nat) :
    Called cfg s (.ask now) := by
  cases hs : s.currentState with
  | closed =>
    refine .stays ?_ fun hopen => absurd hs hopen
    simp [callStep, isBackendAcceptable, hs]
  | opened =>
    by_cases htime : s.data.openUntil ≤ now
    · refine .begins hs htime ?_ ?_ ?_ <;>
        simp [callStep, accepted, isBackendAcceptable, checkOpenState, hs, htime]
    · refine .stays ?_ fun _ => ?_ <;>
        simp [callStep, accepted, isBackendAcceptable, checkOpenState, hs, htime]
  | halfOpen =>
    by_cases hlate : s.data.halfOpenUntil ≤ now
    · refine .trips (by simp [hs]) ?_ ?_ ?_ <;>
        simp [callStep, accepted, isBackendAcceptable, checkHalfOpenState, hs, hlate, Call.now]
    · by_cases hroom : s.data.probesSent < cfg.halfOpenConsecutiveSuccessThreshold
      · refine .probe hs ?_ ?_ hroom ?_ <;>
          simp [callStep, accepted, isBackendAcceptable, checkHalfOpenState, hs, hlate, hroom]
      · refine .stays ?_ fun _ => ?_ <;>
          simp [callStep, accepted, isBackendAcceptable, checkHalfOpenState, hs, hlate, hroom]

theorem called_update (cfg : CircuitBreakerConfig) (s : BackendCircuitState) (now : Nat)
    (failure : Bool) (stats : BackendStats) : Called cfg s (.update now failure stats) := by
  cases failure with
  | false =>
    by_cases hcloses : s.currentState = .halfOpen ∧
        cfg.halfOpenConsecutiveSuccessThreshold ≤ stats.consecutive.successes
    · refine .closes hcloses.1 ?_ rfl
      simp [callStep, updateStateAfterRequest, hcloses]
    · refine .stays ?_ fun _ => rfl
      simp only [callStep, updateStateAfterRequest, Bool.false_eq_true, if_false, if_neg hcloses]
  | true =>
    cases hs : s.currentState with
    | opened =>
      refine .stays ?_ fun _ => rfl
      simp [callStep, updateStateAfterRequest, hs]
    | halfOpen =>
      refine .trips (by simp [hs]) ?_ ?_ rfl <;>
        simp [callStep, updateStateAfterRequest, hs, BreakerStateData.new, Call.now]
    | closed =>
      by_cases htrips : tripsOn cfg stats = true
      · refine .trips (by simp [hs]) ?_ ?_ rfl <;>
          simp [callStep, updateStateAfterRequest, hs, htrips, BreakerStateData.new, Call.now]
      · refine .stays ?_ fun _ => rfl
        simp [callStep, updateStateAfterRequest, hs, htrips]

theorem called (cfg : CircuitBreakerConfig) (s : BackendCircuitState) (c : Call) :
    Called cfg s c := by
  cases c with
  | ask now => exact called_ask cfg s now
  | update now failure stats => exact called_update cfg s now failure stats

/-! ## Open -/

theorem trips_openUntil (h : Trips cfg s c) :
    (callStep cfg s c).data.openUntil = c.now + cfg.openDuration := by
  obtain ⟨hbefore, hafter⟩ := h
  cases called cfg s c with
  | stays hstep _ =>
    rw [hstep] at hafter
    exact absurd hafter hbefore
  | trips _ _ huntil _ => exact huntil
  | begins hs _ _ _ _ => exact absurd hs hbefore
  | probe _ hstate _ _ _ | closes _ hstate _ =>
    rw [hstate] at hafter
    cases hafter

theorem callStep_opened (hs : s.currentState = .opened) (hc : c.now < s.data.openUntil) :
    callStep cfg s c = s ∧ accepted cfg s c = false := by
  cases called cfg s c with
  | stays hstep haccepted => exact ⟨hstep, haccepted (by simp [hs])⟩
  | trips hs' _ _ _ => exact absurd hs hs'
  | begins _ htime _ _ _ => exact absurd hc (Nat.not_lt.mpr htime)
  | probe hs' _ _ _ _ | closes hs' _ _ =>
    rw [hs] at hs'
    cases hs'

theorem run_opened (hs : s.currentState = .opened)
    (hcalls : ∀ c ∈ calls, c.now < s.data.openUntil) : runCalls cfg s calls = s := by
  unfold runCalls
  induction calls with
  | nil => rfl
  | cons c _ ih =>
    rw [List.foldl_cons, (callStep_opened hs (hcalls c List.mem_cons_self)).1]
    exact ih fun c' hc' => hcalls c' (List.mem_cons_of_mem c hc')

/-! ## Half-open -/

/-- The probe count is that of at least the first probe and within the limit. -/
def ProbesOk (cfg : CircuitBreakerConfig) (s : BackendCircuitState) : Prop :=
  s.currentState = .halfOpen →
    1 ≤ s.data.probesSent ∧ s.data.probesSent ≤ max 1 cfg.halfOpenConsecutiveSuccessThreshold

theorem probed_of_halfOpen (h : (callStep cfg s c).currentState = .halfOpen) :
    (s.currentState = .opened ∧ accepted cfg s c = true ∧
        (callStep cfg s c).data.probesSent = 1) ∨
      (s.currentState = .halfOpen ∧ accepted cfg s c = true ∧
        (callStep cfg s c).data.probesSent = s.data.probesSent + 1 ∧
        s.data.probesSent < cfg.halfOpenConsecutiveSuccessThreshold) ∨
      (s.currentState = .halfOpen ∧ accepted cfg s c = false ∧
        (callStep cfg s c).data.probesSent = s.data.probesSent) := by
  cases called cfg s c with
  | stays hstep haccepted =>
    rw [hstep] at h ⊢
    exact .inr (.inr ⟨h, haccepted (by simp [h]), rfl⟩)
  | trips _ hstate _ _ =>
    rw [hstate] at h
    cases h
  | begins hs _ _ hprobes haccepted => exact .inl ⟨hs, haccepted, hprobes⟩
  | probe hs _ hprobes hroom haccepted => exact .inr (.inl ⟨hs, haccepted, hprobes, hroom⟩)
  | closes _ hstate _ =>
    rw [hstate] at h
    cases h

theorem ProbesOk.step (h : ProbesOk cfg s) (c : Call) : ProbesOk cfg (callStep cfg s c) := by
  intro hhalf
  rcases probed_of_halfOpen hhalf with ⟨-, -, hprobes⟩ | ⟨-, -, hprobes, hroom⟩ | ⟨hs, -, hprobes⟩
  · omega
  · omega
  · rw [hprobes]
    exact h hs

theorem ProbesOk.run (h : ProbesOk cfg s) (calls : List Call) :
    ProbesOk cfg (runCalls cfg s calls) :=
  List.foldlRecOn calls (callStep cfg) h fun _ h c _ => h.step c

theorem probesOk_run (cfg : CircuitBreakerConfig) (start : Nat) (calls : List Call) :
    ProbesOk cfg (runCalls cfg (.new start) calls) :=
  ProbesOk.run (s := .new start) (fun h => nomatch h) calls

/-- The call leaves the breaker half open. -/
def LeadsHalfOpen (cfg : CircuitBreakerConfig) (s : BackendCircuitState) (c : Call) : Prop :=
  (callStep cfg s c).currentState = .halfOpen

theorem probesSent_run (hs : s.currentState = .halfOpen)
    (h : Along (callStep cfg) (LeadsHalfOpen cfg) s calls) :
    (runCalls cfg s calls).data.probesSent =
      s.data.probesSent + hits (callStep cfg) (accepted cfg) s calls := by
  induction calls generalizing s with
  | nil => rfl
  | cons c calls ih =>
    have hrest : (runCalls cfg s (c :: calls)).data.probesSent = _ := ih h.1 h.2
    rw [hrest, hits]
    rcases probed_of_halfOpen h.1 with
      ⟨hs', -, -⟩ | ⟨-, haccepted, hprobes, -⟩ | ⟨-, haccepted, hprobes⟩
    · rw [hs] at hs'
      cases hs'
    · rw [hprobes, haccepted, if_pos rfl]
      omega
    · rw [hprobes, haccepted]
      simp

theorem run_halfOpen (hs : s.currentState = .halfOpen)
    (h : Along (callStep cfg) (LeadsHalfOpen cfg) s calls) :
    (runCalls cfg s calls).currentState = .halfOpen := by
  induction calls generalizing s with
  | nil => exact hs
  | cons _ _ ih => exact ih h.1 h.2

theorem ProbesOk.hits_le (h : ProbesOk cfg s)
    (hcalls : Along (callStep cfg) (LeadsHalfOpen cfg) s calls) :
    hits (callStep cfg) (accepted cfg) s calls ≤
      max 1 cfg.halfOpenConsecutiveSuccessThreshold := by
  cases calls with
  | nil => exact Nat.zero_le _
  | cons c calls =>
    have hend := ((h.step c).run calls (run_halfOpen hcalls.1 hcalls.2)).2
    rw [probesSent_run hcalls.1 hcalls.2] at hend
    rw [hits]
    rcases probed_of_halfOpen hcalls.1 with
      ⟨-, haccepted, hprobes⟩ | ⟨-, haccepted, hprobes, -⟩ | ⟨-, haccepted, -⟩
    · rw [haccepted, if_pos rfl]
      omega
    · rw [haccepted, if_pos rfl]
      omega
    · rw [haccepted]
      simp only [Bool.false_eq_true, if_false]
      omega

theorem accepted_leadsHalfOpen (hs : s.currentState = .halfOpen)
    (h : accepted cfg s c = true) : LeadsHalfOpen cfg s c := by
  cases called cfg s c with
  | stays _ haccepted =>
    rw [haccepted (by simp [hs])] at h
    cases h
  | trips _ _ _ haccepted =>
    rw [haccepted] at h
    cases h
  | begins _ _ hstate _ _ | probe _ hstate _ _ _ => exact hstate
  | closes _ _ haccepted =>
    rw [haccepted] at h
    cases h

/-! ## Histories -/

/-- The clock does not go back. -/
def Clocked (calls : List Call) : Prop := (calls.map Call.now).Pairwise (· ≤ ·)

instance (calls : List Call) : Decidable (Clocked calls) :=
  inferInstanceAs (Decidable (List.Pairwise _ _))

theorem Clocked.le_of_append {pre post : List Call} (h : Clocked (pre ++ c :: post)) :
    ∀ c' ∈ pre, c'.now ≤ c.now := by
  unfold Clocked at h
  rw [List.map_append, List.pairwise_append] at h
  exact fun c' hc' => h.2.2 _ (List.mem_map_of_mem hc') _ (List.mem_map_of_mem List.mem_cons_self)

theorem rejects_after_trip {trip : Call} {between : List Call} (htrip : Trips cfg s trip)
    (hclock : ∀ c' ∈ between, c'.now ≤ c.now) (hc : c.now < trip.now + cfg.openDuration) :
    accepted cfg (runCalls cfg s (trip :: between)) c = false := by
  have huntil := trips_openUntil htrip
  have hrun : runCalls cfg s (trip :: between) = callStep cfg s trip :=
    run_opened htrip.2 fun c' hc' => huntil ▸ Nat.lt_of_le_of_lt (hclock c' hc') hc
  rw [hrun]
  exact (callStep_opened htrip.2 (huntil ▸ hc)).2

theorem runCalls_append (s : BackendCircuitState) (calls calls' : List Call) :
    runCalls cfg s (calls ++ calls') = runCalls cfg (runCalls cfg s calls) calls' :=
  List.foldl_append

/-- In any history with a clock that never goes back, nothing is accepted for the open duration
after the breaker trips, and each half-open episode accepts at most as many requests as successes
are needed to close, or one; the call that ends the episode accepts none. -/
theorem breaker_discipline (cfg : CircuitBreakerConfig) (start : Nat) (calls : List Call)
    (hclock : Clocked calls) :
    (∀ pre trip between c post, calls = pre ++ trip :: between ++ c :: post →
      Trips cfg (runCalls cfg (.new start) pre) trip → c.now < trip.now + cfg.openDuration →
      accepted cfg (runCalls cfg (.new start) (pre ++ trip :: between)) c = false) ∧
    (∀ pre episode post, calls = pre ++ episode ++ post →
      Along (callStep cfg) (LeadsHalfOpen cfg) (runCalls cfg (.new start) pre) episode →
      hits (callStep cfg) (accepted cfg) (runCalls cfg (.new start) pre) episode ≤
        max 1 cfg.halfOpenConsecutiveSuccessThreshold) ∧
    (∀ pre c post, calls = pre ++ c :: post →
      (runCalls cfg (.new start) pre).currentState = .halfOpen →
      ¬ LeadsHalfOpen cfg (runCalls cfg (.new start) pre) c →
      accepted cfg (runCalls cfg (.new start) pre) c = false) := by
  refine ⟨?_, ?_, ?_⟩
  · rintro pre trip between c post rfl htrip hc
    have hbefore : ∀ c' ∈ between, c'.now ≤ c.now := fun c' hc' =>
      hclock.le_of_append c' (List.mem_append_right pre (List.mem_cons_of_mem trip hc'))
    rw [runCalls_append]
    exact rejects_after_trip htrip hbefore hc
  · rintro pre episode post - hepisode
    exact (probesOk_run cfg start pre).hits_le hepisode
  · rintro pre c post - hhalf hends
    cases haccepted : accepted cfg (runCalls cfg (.new start) pre) c with
    | false => rfl
    | true => exact absurd (accepted_leadsHalfOpen hhalf haccepted) hends

def touchyConfig : CircuitBreakerConfig := ⟨1, 0, 1, 2, 10⟩

def failedOnce : BackendStats := ⟨⟨1, 0⟩, ⟨0, 0⟩⟩

/-- A failure at 5 trips the breaker, it is asked at 14 and at 15, when the first probe goes out. -/
theorem touchy_discipline :
    let pre : List Call := [.ask 1]
    let calls := pre ++ .update 5 true failedOnce :: [] ++ .ask 14 :: [.ask 15]
    Trips touchyConfig (runCalls touchyConfig (.new 0) pre) (.update 5 true failedOnce) ∧
      accepted touchyConfig
        (runCalls touchyConfig (.new 0) (pre ++ .update 5 true failedOnce :: [])) (.ask 14) = false ∧
      (runCalls touchyConfig (.new 0) calls).currentState = .halfOpen := by
  have htrip : Trips touchyConfig (runCalls touchyConfig (.new 0) [.ask 1])
      (.update 5 true failedOnce) := by
    constructor <;> decide +kernel
  exact ⟨htrip, (breaker_discipline touchyConfig 0
    [.ask 1, .update 5 true failedOnce, .ask 14, .ask 15] (by decide +kernel)).1 [.ask 1]
      (.update 5 true failedOnce) [] (.ask 14) [.ask 15] rfl htrip (by decide +kernel),
    by decide +kernel⟩

end PingWaf.Upstream
