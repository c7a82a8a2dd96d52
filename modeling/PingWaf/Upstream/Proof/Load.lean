import PingWaf.Upstream.Load

/-!
# Load counters over whole runs

A request is taken off the upstream that its context names at the end, which is the one it was
counted on as long as no later attempt finds another (`SameUpstream`). A reload between two attempts
is enough to break that.
-/

namespace PingWaf.Upstream

open Pool InflightCounters

/-- An attempt of a request that is counted already finds the upstream it was counted on, or
none. -/
def SameUpstream : Phase → Loads → UpstreamCtx → Prop
  | .attempt _, s, t =>
    t.countedOn.all fun on => (t.target s.provider).all fun u => u == on.1
  | _, _, _ => True

instance : ∀ phase s t, Decidable (SameUpstream phase s t)
  | .attempt _, _, _ => inferInstanceAs (Decidable (_ = true))
  | .override _, _, _ => .isTrue trivial
  | .log, _, _ => .isTrue trivial

section

variable {instances : Nat → UpstreamInstance} {s : Loads} {t : UpstreamCtx} {u v : Nat}
  {addr a : String} {out : Loads × UpstreamCtx}

/-! ## Counters -/

theorem processing_count (s : Loads) (u v : Nat) (addr : String) :
    (s.count instances u addr).processing v = s.processing v + (u == v).toNat := by
  unfold Loads.count
  by_cases h : v = u
  · simp [h]
  · simp [h, Ne.symm h]

theorem processing_release (s : Loads) (u v : Nat) (addr : String) :
    ((s.completed u).release instances u addr).processing v + (u == v).toNat =
      s.processing v := by
  have hrelease : ∀ s : Loads, (s.release instances u addr).processing = s.processing := by
    intro s
    unfold Loads.release
    split
    · rfl
    · split <;> rfl
  rw [hrelease]
  unfold Loads.completed
  by_cases h : v = u
  · simp [h]
  · simp [h, Ne.symm h]

theorem getD_acquire (counts : InflightCounters) (addr a : String) :
    (counts.acquire addr a).getD 0 = (counts a).getD 0 + (addr == a).toNat := by
  unfold acquire
  by_cases h : a = addr
  · simp [h]
  · simp [h, Ne.symm h]

theorem getD_release {counts : InflightCounters} (hentry : (counts addr).isSome = true)
    (a : String) : (counts.release addr a).getD 0 + (addr == a).toNat = (counts a).getD 0 := by
  obtain ⟨count, hcount⟩ := Option.isSome_iff_exists.mp hentry
  unfold release
  rw [hcount]
  by_cases h : a = addr
  · simp [h, hcount]
  · simp [h, Ne.symm h]

theorem beq_samePeer (v : Nat) (addr a : String) : ((v, addr) == (v, a)) = (addr == a) := by
  rw [Bool.eq_iff_iff]
  simp

theorem inflightCount_count (hv : (instances v).leastConnections = true) (s : Loads) (u : Nat)
    (addr a : String) :
    (s.count instances u addr).inflightCount v a =
      s.inflightCount v a + ((u, addr) == (v, a)).toNat := by
  unfold Loads.inflightCount Loads.count
  by_cases h : v = u
  · subst h
    simp [hv, getD_acquire, beq_samePeer]
  · by_cases hu : (instances u).leastConnections = true <;> simp [h, hu, Ne.symm h]

theorem inflightCount_release (hv : (instances v).leastConnections = true) (haddr : addr ≠ "")
    (hentry : (instances u).leastConnections = true → (s.inflight u addr).isSome = true)
    (a : String) :
    ((s.completed u).release instances u addr).inflightCount v a +
      ((u, addr) == (v, a)).toNat = s.inflightCount v a := by
  unfold Loads.inflightCount Loads.release
  rw [if_neg haddr]
  by_cases h : v = u
  · subst h
    simp [hv, Loads.completed, getD_release (hentry hv), beq_samePeer]
  · by_cases hu : (instances u).leastConnections = true <;>
      simp [h, hu, Ne.symm h, Loads.completed]

theorem inflight_count_isSome (s : Loads) (u : Nat) (addr : String)
    (h : (s.inflight v a).isSome = true) :
    ((s.count instances u addr).inflight v a).isSome = true := by
  unfold Loads.count acquire
  by_cases hu : (instances u).leastConnections = true
  · by_cases hv : v = u
    · subst hv
      by_cases ha : a = addr <;> simp [hu, ha, h]
    · simp [hu, hv, h]
  · simp [hu, h]

theorem inflight_counted_isSome (hu : (instances u).leastConnections = true) (s : Loads)
    (addr : String) : ((s.count instances u addr).inflight u addr).isSome = true := by
  simp [Loads.count, acquire, hu]

theorem inflight_release_isSome (s : Loads) (u : Nat) (addr : String)
    (h : (s.inflight v a).isSome = true) :
    ((s.release instances u addr).inflight v a).isSome = true := by
  unfold Loads.release
  split
  · exact h
  split
  · by_cases hv : v = u
    · subst hv
      unfold release
      split
      · by_cases ha : a = addr
        · simp [ha]
        · simpa [ha] using h
      · simpa using h
    · simpa [hv] using h
  · exact h

theorem inflight_advance_isSome (phase : Phase) (s : Loads) (t : UpstreamCtx)
    (h : (s.inflight v a).isSome = true) :
    ((t.advance instances phase s).1.inflight v a).isSome = true := by
  unfold UpstreamCtx.advance
  split
  · exact h
  cases phase with
  | override _ => exact h
  | attempt _ =>
    dsimp only [upstreamPeer]
    split
    · exact h
    split
    · exact h
    split
    · exact h
    · exact inflight_count_isSome s _ _ h
  | log =>
    dsimp only [logging]
    split
    · exact h
    · refine inflight_release_isSome _ _ _ ?_
      split <;> exact h

/-! ## One phase of a request -/

structure Paired (instances : Nat → UpstreamInstance) (s : Loads) (t : UpstreamCtx) : Prop where
  ended : t.ended = true → t.countedOn = none
  uncounted : t.ended = false → t.countedOn = none →
    t.processingCounted = false ∧ t.inflightAddress = none ∧ t.address = ""
  counted : ∀ u addr, t.countedOn = some (u, addr) →
    t.processingCounted = true ∧ t.upstreamInstance = some u ∧ t.inflightAddress = some addr
  entry : ∀ u addr, t.countedOn = some (u, addr) → addr ≠ "" ∧
    ((instances u).leastConnections = true → (s.inflight u addr).isSome = true)

inductive Moved (instances : Nat → UpstreamInstance) (s : Loads) (t : UpstreamCtx) :
    Loads × UpstreamCtx → Prop where
  | kept (t' : UpstreamCtx) (hon : t'.countedOn = t.countedOn) (hpaired : Paired instances s t') :
      Moved instances s t (s, t')
  | counted (t' : UpstreamCtx) (u : Nat) (addr : String) (hnone : t.countedOn = none)
      (hon : t'.countedOn = some (u, addr))
      (hpaired : Paired instances (s.count instances u addr) t') :
      Moved instances s t (s.count instances u addr, t')
  | takenOff (t' : UpstreamCtx) (u : Nat) (addr : String) (hon : t.countedOn = some (u, addr))
      (hnone : t'.countedOn = none)
      (hpaired : Paired instances ((s.completed u).release instances u addr) t') :
      Moved instances s t ((s.completed u).release instances u addr, t')

theorem upstreamPeer_moved {peer : Option PeerAddress} (hok : SameUpstream (.attempt peer) s t)
    (hended : t.ended = false) (h : Paired instances s t) :
    Moved instances s t (upstreamPeer instances peer s t) := by
  unfold upstreamPeer
  cases htarget : t.target s.provider with
  | none => exact .kept t rfl h
  | some u =>
    -- A counted request finds the upstream it was counted on.
    have hsame : ∀ v addr, t.countedOn = some (v, addr) → u = v := by
      intro v addr hon
      simpa [SameUpstream, hon, htarget] using hok
    have hfound : ∀ v addr, t.countedOn = some (v, addr) →
        t.processingCounted = true ∧ some u = some v ∧ t.inflightAddress = some addr :=
      fun v addr hon =>
        ⟨(h.counted v addr hon).1, congrArg some (hsame v addr hon), (h.counted v addr hon).2.2⟩
    cases peer with
    | none => exact .kept _ rfl ⟨h.ended, h.uncounted, hfound, h.entry⟩
    | some addr =>
      dsimp only
      rcases Option.eq_none_or_eq_some t.countedOn with hcounted | ⟨on, hcounted⟩
      · rw [if_neg (by simp [h.uncounted hended hcounted])]
        refine .counted _ u addr hcounted rfl ⟨?_, ?_, ?_, ?_⟩
        · intro hend
          rw [hended] at hend
          cases hend
        · intro _ hnone
          cases hnone
        · rintro v a ⟨⟩
          exact ⟨rfl, rfl, rfl⟩
        · rintro v a ⟨⟩
          exact ⟨addr.2, fun hu => inflight_counted_isSome hu s addr.1⟩
      · rw [if_pos (h.counted on.1 on.2 hcounted).1]
        refine .kept _ rfl ⟨h.ended, ?_, hfound, h.entry⟩
        intro _ hnone
        rw [show t.countedOn = none from hnone] at hcounted
        cases hcounted

theorem paired_ended {t' : UpstreamCtx} (hended : t'.ended = true) (hnone : t'.countedOn = none)
    (s' : Loads) : Paired instances s' t' := by
  refine ⟨fun _ => hnone, ?_, ?_, ?_⟩
  · intro hgoing
    rw [hended] at hgoing
    cases hgoing
  all_goals
    intro v a hon
    rw [hnone] at hon
    cases hon

theorem logging_moved (hended : t.ended = false) (h : Paired instances s t) :
    Moved instances s t (logging instances s t) := by
  unfold logging
  dsimp only
  rcases Option.eq_none_or_eq_some t.countedOn with hcounted | ⟨on, hcounted⟩
  · obtain ⟨hprocessing, haddress, hblank⟩ := h.uncounted hended hcounted
    rcases Option.eq_none_or_eq_some t.upstreamInstance with hinstance | ⟨u, hinstance⟩
    · rw [hinstance]
      exact .kept _ hcounted.symm (paired_ended rfl rfl s)
    · -- Nothing was counted, and the blank address releases nothing.
      have hsame : s.release instances u "" = s := if_pos rfl
      rw [hinstance]
      dsimp only
      rw [hprocessing, haddress, hblank, Option.getD_none, if_neg Bool.false_ne_true, hsame]
      exact .kept _ hcounted.symm (paired_ended rfl rfl s)
  · obtain ⟨hprocessing, hinstance, haddress⟩ := h.counted on.1 on.2 hcounted
    rw [hinstance]
    dsimp only
    rw [hprocessing, haddress, Option.getD_some, if_pos rfl]
    exact .takenOff _ on.1 on.2 hcounted rfl (paired_ended rfl rfl _)

theorem advance_moved {phase : Phase} (hok : SameUpstream phase s t) (h : Paired instances s t) :
    Moved instances s t (t.advance instances phase s) := by
  unfold UpstreamCtx.advance
  by_cases hended : t.ended = true
  · rw [if_pos hended]
    exact .kept t rfl h
  · have hgoing : t.ended = false := Bool.not_eq_true _ ▸ hended
    rw [if_neg hended]
    cases phase with
    | override _ => exact .kept _ rfl ⟨h.ended, h.uncounted, h.counted, h.entry⟩
    | attempt _ => exact upstreamPeer_moved hok hgoing h
    | log => exact logging_moved hgoing h

/-! ## Runs -/

theorem Moved.paired (h : Moved instances s t out) : Paired instances out.1 out.2 := by
  cases h with
  | kept _ _ hpaired | counted _ _ _ _ _ hpaired | takenOff _ _ _ _ _ hpaired => exact hpaired

theorem paired_rule (instances : Nat → UpstreamInstance) :
    Rule (loads instances) SameUpstream (fun _ => True) (fun _ => Paired instances) where
  env _ _ _ := trivial
  env_task _ _ _ _ _ h := ⟨h.ended, h.uncounted, h.counted, h.entry⟩
  start _ _ _ _ := ⟨nofun, fun _ _ => ⟨rfl, rfl, rfl⟩, nofun, nofun⟩
  step _ _ _ _ _ _ _ := trivial
  step_task _ _ _ _ hok _ h := (advance_moved hok h).paired
  others phase s t _ _ _ _ h := by
    refine ⟨h.ended, h.uncounted, h.counted, fun u addr hon => ⟨(h.entry u addr hon).1, ?_⟩⟩
    exact fun hu => inflight_advance_isSome phase s t ((h.entry u addr hon).2 hu)

theorem processing_balances (instances : Nat → UpstreamInstance) (v : Nat) :
    Balances (loads instances) SameUpstream (fun _ => Paired instances) (fun s => s.processing v)
      (UpstreamCtx.on v) where
  env _ _ := rfl
  start _ _ := rfl
  step phase s _ t hok h := by
    have hmoved := advance_moved hok h
    show (t.advance instances phase s).1.processing v + (t.on v).toNat =
      s.processing v + ((t.advance instances phase s).2.on v).toNat
    generalize t.advance instances phase s = out at hmoved ⊢
    unfold UpstreamCtx.on
    cases hmoved with
    | kept _ hon _ => rw [hon]
    | counted _ _ _ hnone hon _ =>
      rw [processing_count, hnone, hon]
      exact Int.add_zero _
    | takenOff _ u addr hon hnone _ =>
      have hrelease : ((s.completed u).release instances u addr).processing v + (u == v).toNat =
        s.processing v := processing_release s u v addr
      rw [hnone, hon]
      exact hrelease.trans (Int.add_zero _).symm

theorem inflight_balances {instances : Nat → UpstreamInstance} {v : Nat}
    (hv : (instances v).leastConnections = true) (a : String) :
    Balances (loads instances) SameUpstream (fun _ => Paired instances)
      (fun s => s.inflightCount v a) (UpstreamCtx.onPeer v a) where
  env _ _ := rfl
  start _ _ := rfl
  step phase s _ t hok h := by
    have hmoved := advance_moved hok h
    show (t.advance instances phase s).1.inflightCount v a + (t.onPeer v a).toNat =
      s.inflightCount v a + ((t.advance instances phase s).2.onPeer v a).toNat
    generalize t.advance instances phase s = out at hmoved ⊢
    unfold UpstreamCtx.onPeer
    cases hmoved with
    | kept _ hon _ => rw [hon]
    | counted _ _ _ hnone hon _ =>
      rw [inflightCount_count hv, hnone, hon]
      exact Int.add_zero _
    | takenOff _ u addr hon hnone _ =>
      have hrelease := inflightCount_release hv (h.entry u addr hon).1 (h.entry u addr hon).2 a
      rw [hnone, hon]
      exact hrelease.trans (Int.add_zero _).symm

theorem settled_of_balanced {amount : Loads → Int} {holds : UpstreamCtx → Bool}
    {p : State Loads UpstreamCtx} (h : Pool.Balanced amount holds p)
    (hpaired : Holds (fun _ => True) (fun _ => Paired instances) p)
    (hholds : ∀ t, t.countedOn = none → holds t = false) :
    0 ≤ amount p.shared ∧ ((∀ t ∈ p.tasks, t.ended = true) → amount p.shared = 0) := by
  unfold Pool.Balanced at h
  rw [h]
  refine ⟨Int.natCast_nonneg _, fun hended => ?_⟩
  rw [tally_eq_zero fun i t ht => ?_, Int.ofNat_zero]
  exact hholds t ((hpaired.task i t ht).ended (hended t (List.mem_of_getElem? ht)))

/-- In every run, with any reloads, in which no attempt of a counted request finds another upstream
than the one it was counted on: an upstream's counter is the number of requests counted on it, and
a peer's counter the number of those counted on that peer; they are never negative and zero once
every request has ended. -/
theorem load_counters_balance (instances : Nat → UpstreamInstance) (provider : String → Option Nat)
    {acts : List (Act (String → Option Nat) Routed Phase)}
    (hacts : Turns (loads instances) SameUpstream (noLoad provider) acts) (u : Nat)
    (addr : String) :
    let p := run (loads instances) (noLoad provider) acts
    (p.shared.processing u = tally (UpstreamCtx.on u) p ∧ 0 ≤ p.shared.processing u ∧
      ((∀ t ∈ p.tasks, t.ended = true) → p.shared.processing u = 0)) ∧
    ((instances u).leastConnections = true →
      p.shared.inflightCount u addr = tally (UpstreamCtx.onPeer u addr) p ∧
        0 ≤ p.shared.inflightCount u addr ∧
        ((∀ t ∈ p.tasks, t.ended = true) → p.shared.inflightCount u addr = 0)) := by
  have hstart : Holds (fun _ => True) (fun _ => Paired instances) (noLoad provider) :=
    ⟨trivial, nofun⟩
  have hpaired := (paired_rule instances).run hacts hstart
  constructor
  · have hbalanced := (processing_balances instances u).run (paired_rule instances) hacts hstart rfl
    exact ⟨hbalanced,
      settled_of_balanced hbalanced hpaired fun t ht => by simp [UpstreamCtx.on, ht]⟩
  · intro hu
    have hbalanced := (inflight_balances hu addr).run (paired_rule instances) hacts hstart rfl
    exact ⟨hbalanced,
      settled_of_balanced hbalanced hpaired fun t ht => by simp [UpstreamCtx.onPeer, ht]⟩

end

/-! ## A reload between two attempts -/

/-- Every upstream is called `app` and balances by least connections. -/
def appInstances (_ : Nat) : UpstreamInstance := ⟨"app", true⟩

def appProvider (u : Nat) (name : String) : Option Nat := if name = "app" then some u else none

def appPeer : PeerAddress := ⟨"10.0.0.7:80", by decide⟩

/-- A request makes two attempts; `between` happens before the second. -/
def twoAttempts (between : List (Act (String → Option Nat) Routed Phase)) :
    List (Act (String → Option Nat) Routed Phase) :=
  [.spawn ⟨some "app", []⟩, .turn 0 (.attempt (some appPeer))] ++ between ++
    [.turn 0 (.attempt (some appPeer))]

/-- Without a reload the request is counted once while it is under way. -/
theorem retried_request_counted_once :
    let p := run (loads appInstances) (noLoad (appProvider 0)) (twoAttempts [])
    p.shared.processing 0 = tally (UpstreamCtx.on 0) p ∧ p.shared.processing 0 = 1 :=
  have hacts : Turns (loads appInstances) SameUpstream (noLoad (appProvider 0))
      (twoAttempts []) := by
    decide +kernel
  ⟨(load_counters_balance appInstances (appProvider 0) hacts 0 "").1.1, by decide +kernel⟩

/-- With a reload before the second attempt and every request ended, the first upstream is left with
one request and the second with less than none. -/
theorem reload_unbalances_counters :
    let p := run (loads appInstances) (noLoad (appProvider 0))
      (twoAttempts [.env (appProvider 1)] ++ [.turn 0 .log])
    (∀ t ∈ p.tasks, t.ended = true) ∧ p.shared.processing 0 = 1 ∧ p.shared.processing 1 = -1 ∧
      p.shared.inflightCount 0 appPeer = 1 := by
  decide +kernel

end PingWaf.Upstream
