import PingWaf.Plugin.Limit

/-!
# In-flight limits over whole runs

The increments that are out are the guards that live, in every run (`guards_balances`). A second
in-flight limiter takes the place of a request's guard; where no request meets one, no limiter has
more requests past it than it allows (`inflight_limits_hold`).
-/

namespace PingWaf.Plugin

open Pool Passage Counts

/-- The plugin call ahead is that of an in-flight limiter at its step. -/
def Passage.atInflight (limiters : Nat → Limiter) (t : Passage) : Bool :=
  match t.ahead with
  | [] => false
  | (step, id) :: _ => step = (limiters id).pluginStep && (limiters id).counting = .inflight

/-- A request comes to an in-flight limiter without the guard of another one. -/
def Unguarded (limiters : Nat → Limiter) : LimitMove → Counts → Passage → Prop
  | .plugin _, _, t => t.atInflight limiters = true → t.ctx.guard = none
  | .finish, _, _ => True

instance (limiters : Nat → Limiter) : ∀ move counts t, Decidable (Unguarded limiters move counts t)
  | .plugin _, _, t => inferInstanceAs (Decidable (t.atInflight limiters = true → _))
  | .finish, _, _ => .isTrue trivial

section

variable {limiters : Nat → Limiter} {estimate : Counts → Guard → Int} {counts : Counts}
  {t : Passage} {p : State Counts Passage}

/-! ## Counters -/

theorem Counts.add_apply (counts : Counts) (g g' : Guard) (d : Int) :
    counts.add g d g' = counts g' + if g' = g then d else 0 := by
  unfold add
  split <;> simp

theorem Counts.dropGuard_apply (counts : Counts) (guard : Option Guard) (g : Guard) :
    counts.dropGuard guard g + (guard == some g).toNat = counts g := by
  cases guard with
  | none => simp [dropGuard]
  | some g' =>
    by_cases h : g' = g
    · simp [dropGuard, add_apply, h]
    · simp [dropGuard, add_apply, h, Ne.symm h]

/-! ## One plugin call -/

inductive Visited (limiters : Nat → Limiter) (estimate : Counts → Guard → Int) (counts : Counts)
    (t : Passage) : Counts × Passage → Prop where
  /-- No in-flight limiter is at work. -/
  | uncounted (ahead : List (PluginStep × Nat)) (passed : List Guard)
      (hpassed : ∀ g, (limiters g.limiter).counting = .inflight → (g ∈ passed ↔ g ∈ t.passed)) :
      Visited limiters estimate counts t (counts, { t with ahead, passed })
  /-- An in-flight limiter counts the request and turns it away. -/
  | refused (g : Guard) (hat : t.atInflight limiters = true) :
      Visited limiters estimate counts t
        ((counts.add g 1).dropGuard t.ctx.guard,
          { t with ctx := { t.ctx with guard := some g }, ahead := [] })
  /-- An in-flight limiter counts the request and lets it pass. -/
  | passed (g : Guard) (ahead : List (PluginStep × Nat)) (hat : t.atInflight limiters = true)
      (hmax : (estimate (counts.add g 1) g : Rat) ≤ (limiters g.limiter).max) :
      Visited limiters estimate counts t
        ((counts.add g 1).dropGuard t.ctx.guard,
          { t with ctx := { t.ctx with guard := some g }, ahead, passed := g :: t.passed })

theorem Limiter.check_ok {l : Limiter} {value : Rat} (h : l.check value = .ok ()) :
    value ≤ l.max := by
  unfold Limiter.check at h
  split at h
  · cases h
  · rename_i hle
    exact Rat.not_lt.mp hle

theorem Passage.visit_visited (limiters : Nat → Limiter) (estimate : Counts → Guard → Int)
    (sight : Sight) (counts : Counts) (t : Passage) :
    Visited limiters estimate counts t (t.visit limiters estimate sight counts) := by
  unfold visit
  split
  · exact .uncounted t.ahead t.passed fun _ _ => Iff.rfl
  · rename_i step id rest hahead
    unfold Limiter.handleRequest
    dsimp only
    by_cases hstep : step = (limiters id).pluginStep
    · rw [if_neg (not_not.mpr hstep)]
      unfold Limiter.incr
      cases hcounting : (limiters id).counting with
      | rate =>
        -- A rate limiter leaves no guard.
        cases hcheck : (limiters id).check ((limiters id).rateValue sight.rate) with
        | error _ => exact .uncounted [] t.passed fun _ _ => Iff.rfl
        | ok _ =>
          refine .uncounted rest (_ :: t.passed) fun g hg => ?_
          rw [List.mem_cons, or_iff_right]
          rintro rfl
          rw [hcounting] at hg
          cases hg
      | inflight =>
        have hat : t.atInflight limiters = true := by
          simp [atInflight, hahead, hstep, hcounting]
        dsimp only
        generalize hg : (⟨id, (limiters id).limitKey sight.header t.ctx⟩ : Guard) = g
        cases hcheck : (limiters id).check (estimate (counts.add g 1) g) with
        | error _ => exact .refused g hat
        | ok _ =>
          subst hg
          exact .passed _ rest hat (Limiter.check_ok hcheck)
    · rw [if_pos hstep]
      exact .uncounted rest t.passed fun _ _ => Iff.rfl

/-! ## Guards and increments -/

/-- The request holds the guard. -/
def Passage.holds (g : Guard) (t : Passage) : Bool := t.ctx.guard == some g

theorem balance_counted (counts : Counts) (guard : Option Guard) (g g' : Guard) :
    (counts.add g' 1).dropGuard guard g + (guard == some g).toNat =
      counts g + (some g' == some g).toNat := by
  rw [dropGuard_apply, add_apply]
  by_cases h : g' = g
  · simp [h]
  · simp [h, Ne.symm h]

theorem guards_balances (limiters : Nat → Limiter) (estimate : Counts → Guard → Int)
    (ok : LimitMove → Counts → Passage → Prop) (J : Nat → Counts → Passage → Prop) (g : Guard) :
    Balances (limits limiters estimate) ok J (fun counts => counts g) (Passage.holds g) where
  env := nofun
  start _ _ := rfl
  step move counts _ t _ _ := by
    cases move with
    | finish => exact (dropGuard_apply counts t.ctx.guard g).trans (Int.add_zero _).symm
    | plugin sight =>
      have hvisit := t.visit_visited limiters estimate sight counts
      show (t.visit limiters estimate sight counts).1 g + (t.holds g).toNat =
        counts g + ((t.visit limiters estimate sight counts).2.holds g).toNat
      generalize t.visit limiters estimate sight counts = out at hvisit ⊢
      cases hvisit with
      | uncounted _ _ _ => rfl
      | refused g' _ | passed g' _ _ _ => exact balance_counted counts t.ctx.guard g g'

/-! ## Guards and requests that passed -/

/-- A request that passed an in-flight limiter and has not ended holds that limiter's guard. -/
def Guarded (limiters : Nat → Limiter) (_ : Nat) (_ : Counts) (t : Passage) : Prop :=
  ∀ g, (limiters g.limiter).counting = .inflight → t.past g = true → t.ctx.guard = some g

theorem Passage.past_iff (t : Passage) (g : Guard) :
    t.past g = true ↔ t.ended = false ∧ g ∈ t.passed := by
  simp [past]

theorem Guarded.visit {i : Nat} {sight : Sight} (hok : Unguarded limiters (.plugin sight) counts t)
    (h : Guarded limiters i counts t) :
    Guarded limiters i (t.visit limiters estimate sight counts).1
      (t.visit limiters estimate sight counts).2 := by
  have hvisit := t.visit_visited limiters estimate sight counts
  generalize t.visit limiters estimate sight counts = out at hvisit ⊢
  intro g hg hpast
  rw [past_iff] at hpast
  -- Before the call the request had no guard, so it had passed no in-flight limiter.
  have hnone : t.atInflight limiters = true → t.ended = false → g ∉ t.passed := by
    intro hat hended hmem
    have hguard := h g hg ((t.past_iff g).mpr ⟨hended, hmem⟩)
    rw [hok hat] at hguard
    cases hguard
  cases hvisit with
  | uncounted _ _ hpassed =>
    exact h g hg ((t.past_iff g).mpr ⟨hpast.1, (hpassed g hg).mp hpast.2⟩)
  | refused _ hat => exact absurd hpast.2 (hnone hat hpast.1)
  | passed _ _ hat _ =>
    rcases List.mem_cons.mp hpast.2 with rfl | hmem
    · rfl
    · exact absurd hmem (hnone hat hpast.1)

theorem guarded_rule (limiters : Nat → Limiter) (estimate : Counts → Guard → Int) :
    Rule (limits limiters estimate) (Unguarded limiters) (fun _ => True) (Guarded limiters) where
  env := nofun
  env_task := nofun
  start _ _ _ _ _ _ hpast := by cases hpast
  step _ _ _ _ _ _ _ := trivial
  step_task move _ _ _ hok _ h := by
    cases move with
    | plugin _ => exact h.visit hok
    | finish => exact fun _ _ hpast => by cases hpast
  others _ _ _ _ _ _ _ h := h

/-! ## Runs -/

/-- The guards are those of their limiters, and the counts count them. -/
structure Sound (limiters : Nat → Limiter) (p : State Counts Passage) : Prop where
  guarded : Holds (fun _ => True) (Guarded limiters) p
  balanced : ∀ g, Balanced (fun counts => counts g) (Passage.holds g) p

theorem sound_noRequests (limiters : Nat → Limiter) : Sound limiters noRequests :=
  ⟨⟨trivial, nofun⟩, fun _ => rfl⟩

theorem Sound.act {a : Act Empty Arrival LimitMove} (ha : OnTurn (Unguarded limiters) p a)
    (h : Sound limiters p) : Sound limiters (Pool.act (limits limiters estimate) p a) :=
  ⟨(guarded_rule limiters estimate).act h.guarded ha, fun g =>
    (guards_balances limiters estimate _ _ g).act h.guarded ha (h.balanced g)⟩

theorem Sound.count_eq (h : Sound limiters p) (g : Guard) :
    p.shared g = tally (Passage.holds g) p :=
  h.balanced g

theorem Sound.nonneg (h : Sound limiters p) (g : Guard) : 0 ≤ p.shared g := by
  rw [h.count_eq]
  exact Int.natCast_nonneg _

variable {g : Guard}

theorem Sound.past_le (h : Sound limiters p) (hg : (limiters g.limiter).counting = .inflight) :
    (tally (Passage.past g) p : Int) ≤ p.shared g := by
  rw [h.count_eq]
  refine Int.ofNat_le.mpr (tally_mono fun i t ht hpast => ?_)
  exact beq_iff_eq.mpr (h.guarded.task i t ht g hg hpast)

/-- No more requests are past the limiter than it allows. -/
def WithinMax (limiters : Nat → Limiter) (g : Guard) (p : State Counts Passage) : Prop :=
  0 < tally (Passage.past g) p → (tally (Passage.past g) p : Rat) ≤ (limiters g.limiter).max

instance (limiters : Nat → Limiter) (g : Guard) (p : State Counts Passage) :
    Decidable (WithinMax limiters g p) :=
  inferInstanceAs (Decidable (_ → _))

theorem WithinMax.of_le {p p' : State Counts Passage} (h : WithinMax limiters g p)
    (hle : tally (Passage.past g) p' ≤ tally (Passage.past g) p) : WithinMax limiters g p' :=
  fun hpos => Rat.le_trans (Rat.natCast_le_natCast.mpr hle) (h (Nat.lt_of_lt_of_le hpos hle))

theorem room_of_newly_past {move : LimitMove} (hg : (limiters g.limiter).counting = .inflight)
    (hold : t.past g = false)
    (hnew : ((limits limiters estimate).step move counts t).2.past g = true) :
    (estimate (counts.add g 1) g : Rat) ≤ (limiters g.limiter).max := by
  cases move with
  | finish => cases hnew
  | plugin sight =>
    have hvisit := t.visit_visited limiters estimate sight counts
    change (t.visit limiters estimate sight counts).2.past g = true at hnew
    generalize t.visit limiters estimate sight counts = out at hvisit hnew
    rw [past_iff] at hnew
    have hfresh : t.ended = false → g ∉ t.passed := by
      intro hended hmem
      rw [(t.past_iff g).mpr ⟨hended, hmem⟩] at hold
      cases hold
    cases hvisit with
    | uncounted _ _ hpassed =>
      exact absurd ((hpassed g hg).mp hnew.2) (hfresh hnew.1)
    | refused _ _ => exact absurd hnew.2 (hfresh hnew.1)
    | passed _ _ _ hmax =>
      rcases List.mem_cons.mp hnew.2 with rfl | hmem
      · exact hmax
      · exact absurd hmem (hfresh hnew.1)

theorem Sound.past_lt_estimate (h : Sound limiters p) (hlaw : NoUnderestimate estimate)
    (hg : (limiters g.limiter).counting = .inflight) :
    (tally (Passage.past g) p : Int) + 1 ≤ estimate (p.shared.add g 1) g := by
  have hnonneg : ∀ g', 0 ≤ p.shared.add g 1 g' := by
    intro g'
    have := h.nonneg g'
    rw [add_apply]
    split <;> omega
  have hcount := hlaw (p.shared.add g 1) g hnonneg
  have hpast := h.past_le hg
  rw [add_apply, if_pos rfl] at hcount
  omega

theorem WithinMax.act {a : Act Empty Arrival LimitMove} (hlaw : NoUnderestimate estimate)
    (hg : (limiters g.limiter).counting = .inflight) (hsound : Sound limiters p)
    (h : WithinMax limiters g p) :
    WithinMax limiters g (Pool.act (limits limiters estimate) p a) := by
  cases a with
  | env e => cases e
  | spawn _ =>
    refine h.of_le (Nat.le_of_eq ?_)
    rw [tally_spawn]
    rfl
  | turn i move =>
    cases ht : p.tasks[i]? with
    | none => exact (act_turn_none ht move).symm ▸ h
    | some t =>
      have htally := tally_turn (S := limits limiters estimate) ht move (past g)
      by_cases hnewly : t.past g = false ∧
          ((limits limiters estimate).step move p.shared t).2.past g = true
      · -- One request more is past the limiter, which counted it first.
        rw [hnewly.1, hnewly.2, Bool.toNat_false, Bool.toNat_true, Nat.add_zero] at htally
        intro _
        have hroom := room_of_newly_past hg hnewly.1 hnewly.2
        have hestimate := hsound.past_lt_estimate hlaw hg
        refine Rat.le_trans ?_ hroom
        rw [htally, ← Rat.intCast_natCast]
        exact Rat.intCast_le_intCast.mpr (by omega)
      · have hless : (((limits limiters estimate).step move p.shared t).2.past g).toNat ≤
            (t.past g).toNat := by
          revert hnewly
          cases t.past g <;> cases ((limits limiters estimate).step move p.shared t).2.past g <;>
            simp
        exact h.of_le (by omega)

/-- Over any run in which no request comes to an in-flight limiter with the guard of another one,
an in-flight limiter counts at least the requests past it and lets no more than its maximum be
there at once. -/
theorem inflight_limits_hold (limiters : Nat → Limiter) {estimate : Counts → Guard → Int}
    (hlaw : NoUnderestimate estimate) {acts : List (Act Empty Arrival LimitMove)}
    (hacts : Turns (limits limiters estimate) (Unguarded limiters) noRequests acts)
    (g : Guard) (hg : (limiters g.limiter).counting = .inflight) :
    let p := run (limits limiters estimate) noRequests acts
    (tally (Passage.past g) p : Int) ≤ p.shared g ∧ p.shared g ≤ estimate p.shared g ∧
      WithinMax limiters g p := by
  have hrun : Sound limiters (run (limits limiters estimate) noRequests acts) ∧
      WithinMax limiters g (run (limits limiters estimate) noRequests acts) :=
    run_keeps (G := fun p => Sound limiters p ∧ WithinMax limiters g p)
      (fun p a ha hp => ⟨hp.1.act ha, hp.2.act hlaw hg hp.1⟩) hacts
      ⟨sound_noRequests limiters, fun hpos => absurd hpos (Nat.lt_irrefl 0)⟩
  exact ⟨hrun.1.past_le hg, hlaw _ g hrun.1.nonneg, hrun.2⟩

end

/-! ## Two in-flight limiters -/

def inflightByIp (max : Rat) : Limiter where
  tag := .ip
  max := max
  key := ""
  counting := .inflight
  pluginStep := .request
  weight := 1 / 2
  stepOk := .inl rfl

/-- One request at once by the first limiter, ten by the others. -/
def oneThenTen : Nat → Limiter
  | 0 => inflightByIp 1
  | _ => inflightByIp 10

def exactEstimate (counts : Counts) (g : Guard) : Int := counts g

theorem exactEstimate_law : NoUnderestimate exactEstimate := fun _ _ _ => Int.le_refl _

def plainSight : Sight := ⟨⟨"GET", none, "/", none, []⟩, ⟨0, 0, 10⟩⟩

/-- A request arrives as number `i` and goes through its whole chain. -/
def arriveAndPass (i : Nat) (chain : List Nat) : List (Act Empty Arrival LimitMove) :=
  .spawn ⟨chain, "10.0.0.1"⟩ ::
    List.replicate (3 * chain.length) (.turn i (.plugin plainSight))

/-- With one limiter in the chain the second request is turned away. -/
theorem lone_limiter_holds :
    let acts := arriveAndPass 0 [0] ++ arriveAndPass 1 [0]
    let p := run (limits oneThenTen exactEstimate) noRequests acts
    tally (Passage.past ⟨0, "10.0.0.1"⟩) p = 1 ∧ WithinMax oneThenTen ⟨0, "10.0.0.1"⟩ p := by
  refine ⟨by decide +kernel, ?_⟩
  exact (inflight_limits_hold oneThenTen exactEstimate_law (by decide +kernel) ⟨0, "10.0.0.1"⟩
    (by decide)).2.2

/-- With two, the guard of the second limiter takes the place of the first one's: two requests are
past the first limiter, which allows one and counts none. -/
theorem second_limiter_releases_first :
    let acts := arriveAndPass 0 [0, 1] ++ arriveAndPass 1 [0, 1]
    let p := run (limits oneThenTen exactEstimate) noRequests acts
    tally (Passage.past ⟨0, "10.0.0.1"⟩) p = 2 ∧ p.shared ⟨0, "10.0.0.1"⟩ = 0 ∧
      ¬ WithinMax oneThenTen ⟨0, "10.0.0.1"⟩ p := by
  decide +kernel

end PingWaf.Plugin
