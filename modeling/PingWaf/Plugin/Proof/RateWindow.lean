import PingWaf.Lib.Window
import PingWaf.Plugin.Proof.Gate

/-!
# The rate limit guarantee

A run interleaves calls of `RateLimitPolicy.evaluate` and sweeps on one table of counters. `Accounts`
ties the counter of a key to the history of that key: it has counted every request of its window
that passed, and it outlives both its window and its ban, so that no sweep forgets one that matters.
-/

namespace PingWaf.Plugin

open Text Net Waf FixedWindow List CompiledRateRule

/-! ## The history of a key -/

/-- A rule was reached by a request and counted it, or stopped it because of a ban. -/
structure Look where
  rule : CompiledRateRule
  key : String
  now : Nat
  trips : Bool
  /-- The rule trips by the count, which starts a ban, and not because of an earlier one. -/
  exceeds : Bool

/-- The counter the rule finds for the request, moved to the request's window. -/
def CompiledRateRule.found (v : Services) (r : CompiledRateRule) (q : RateInput)
    (s : RateState) : RateCounter :=
  (((s.sweep q.now).counters.lookup (r.counterKey v q)).getD ⟨r.window q.now, 0, 0, 0⟩).roll
    (r.window q.now) q.now

def CompiledRateRule.look (v : Services) (r : CompiledRateRule) (q : RateInput)
    (s : RateState) : Look where
  rule := r
  key := r.counterKey v q
  now := q.now
  trips := (r.count v q s).2
  exceeds := (r.count v q s).2 && !decide (q.now < (r.found v q s).blockedUntil)

/-- The rules that a call of `evaluateRules` reaches, in order. -/
def looks (v : Services) (q : RateInput) : List CompiledRateRule → RateState → List Look
  | [], _ => []
  | r :: rest, s =>
    if !r.applies v q then looks v q rest s
    else if r.action = .allow then []
    else if r.action = .challenge && q.cleared then looks v q rest s
    else
      r.look v q s ::
        if (r.count v q s).2 && r.action ≠ .log then [] else looks v q rest (r.count v q s).1

def Look.mark (l : Look) : Mark := ⟨l.now, !l.trips, l.exceeds⟩

def marks (r : CompiledRateRule) (k : String) (ls : List Look) : List Mark :=
  (ls.filter fun l => l.rule = r ∧ l.key = k).map Look.mark

variable {r : CompiledRateRule} {k : String} {ls : List Look} {now : Nat}

theorem marks_append (r : CompiledRateRule) (k : String) (ls ls' : List Look) :
    marks r k (ls ++ ls') = marks r k ls ++ marks r k ls' := by
  simp [marks]

variable {l : Look} {now' : Nat} {x : Mark} {t : RateRun}

theorem marks_concat_of_ne (h : ¬ (l.rule = r ∧ l.key = k)) :
    marks r k (ls ++ [l]) = marks r k ls := by
  rw [marks_append, marks, marks, filter_cons_of_neg (by simpa using h)]
  simp

theorem marks_concat_self (hr : l.rule = r) (hk : l.key = k) :
    marks r k (ls ++ [l]) = marks r k ls ++ [l.mark] := by
  rw [marks_append, marks, marks, filter_cons_of_pos (by simp [hr, hk])]
  simp

/-! ## The invariant of a counter -/

/-- The counter of a key accounts for the history of the key at a point in time. -/
structure Accounts (r : CompiledRateRule) (hist : List Mark) (now : Nat) (e : RateCounter) :
    Prop where
  window_le : e.window ≤ r.window now
  count_le : e.count ≤ u32Max
  /-- Every request of the counter's window that passed was counted, and none passed later. -/
  passed_le : passedIn r.periodSecs e.window hist ≤ e.count
  later : ∀ w, e.window < w → passedIn r.periodSecs w hist = 0
  /-- A ban is on the counter, or over. -/
  bans : ∀ x ∈ hist, x.bans = true →
    x.now + r.mitigationSecs ≤ e.blockedUntil ∨ x.now + r.mitigationSecs ≤ now
  /-- The counter outlives its window and its ban. -/
  window_expires : e.count = 0 ∨ (e.window + 1) * r.periodSecs ≤ e.expiresAt
  ban_expires : e.blockedUntil ≤ e.expiresAt ∨ e.blockedUntil ≤ now

/-- The counter of a key without a history. -/
def CompiledRateRule.fresh (r : CompiledRateRule) (now : Nat) : RateCounter :=
  ⟨r.window now, 0, 0, 0⟩

variable {hist : List Mark} {e : RateCounter}

theorem window_mono (r : CompiledRateRule) {now now' : Nat} (h : now ≤ now') :
    r.window now ≤ r.window now' :=
  Nat.div_le_div_right h

theorem lt_window_end (r : CompiledRateRule) (now : Nat) :
    now < (r.window now + 1) * r.periodSecs := by
  unfold window
  rw [Nat.mul_comm]
  exact Nat.lt_mul_div_succ now r.periodPos

theorem accounts_fresh_iff : Accounts r hist now (r.fresh now) ↔
    (∀ w, r.window now ≤ w → passedIn r.periodSecs w hist = 0) ∧
      ∀ x ∈ hist, x.bans = true → x.now + r.mitigationSecs ≤ now := by
  constructor
  · intro h
    refine ⟨fun w hw => ?_, fun x hx hb => ?_⟩
    · rcases Nat.eq_or_lt_of_le hw with rfl | hlt
      · exact Nat.le_zero.mp h.passed_le
      · exact h.later w hlt
    · rcases h.bans x hx hb with hle | hle
      · have hzero : (r.fresh now).blockedUntil = 0 := rfl
        omega
      · exact hle
  · rintro ⟨hw, hb⟩
    exact ⟨Nat.le_refl _, Nat.zero_le _, (hw _ (Nat.le_refl _)).le, fun w hlt => hw w hlt.le,
      fun x hx hx' => .inr (hb x hx hx'), .inl rfl, .inr (Nat.zero_le _)⟩

theorem Accounts.mono (h : Accounts r hist now e) (hle : now ≤ now') : Accounts r hist now' e := by
  refine { h with window_le := ?_, bans := ?_, ban_expires := ?_ }
  · exact h.window_le.trans (window_mono r hle)
  · intro x hx hb
    rcases h.bans x hx hb with h' | h'
    · exact .inl h'
    · exact .inr (h'.trans hle)
  · rcases h.ban_expires with h' | h'
    · exact .inl h'
    · exact .inr (h'.trans hle)

theorem Accounts.forget (h : Accounts r hist now e) (hx : e.expiresAt ≤ now) :
    Accounts r hist now (r.fresh now) := by
  have hend := lt_window_end r now
  rw [accounts_fresh_iff]
  refine ⟨fun w hw => ?_, fun x hx' hb => ?_⟩
  · rcases Nat.eq_or_lt_of_le (h.window_le.trans hw) with heq | hlt
    · -- the counter's own window is still running, so it has counted nothing
      rcases h.window_expires with hz | hexp
      · have := h.passed_le
        rw [heq] at this
        omega
      · exfalso
        have hwin : e.window = r.window now := by
          have := h.window_le
          omega
        rw [hwin] at hexp
        omega
    · exact h.later w hlt
  · have := h.ban_expires
    have := h.bans x hx' hb
    omega

theorem Accounts.getD_mono {o : Option RateCounter} (h : Accounts r hist now (o.getD (r.fresh now)))
    (hle : now ≤ now') : Accounts r hist now' (o.getD (r.fresh now')) := by
  cases o with
  | some _ => exact h.mono hle
  | none =>
    rw [Option.getD_none, accounts_fresh_iff] at h ⊢
    exact ⟨fun w hw => h.1 w ((window_mono r hle).trans hw), fun x hx hb => (h.2 x hx hb).trans hle⟩

theorem Accounts.filter {o : Option RateCounter} (h : Accounts r hist now (o.getD (r.fresh now))) :
    Accounts r hist now ((o.filter fun e => now < e.expiresAt).getD (r.fresh now)) := by
  cases o with
  | none => exact h
  | some e =>
    by_cases hx : now < e.expiresAt
    · simpa [Option.filter, hx] using h
    · have := Accounts.forget h (by simpa using hx)
      simpa [Option.filter, hx] using this

theorem Accounts.roll (h : Accounts r hist now e) :
    Accounts r hist now (e.roll (r.window now) now) := by
  unfold RateCounter.roll
  split
  · exact h
  · next hne =>
    have hlt : e.window < r.window now := lt_of_le_of_ne h.window_le hne
    refine ⟨Nat.le_refl _, Nat.zero_le _, (h.later _ hlt).le, fun w hw => h.later w (hlt.trans hw),
      fun x hx hb => ?_, .inl rfl, ?_⟩
    · have := h.bans x hx hb
      dsimp only
      split <;> omega
    · have := h.ban_expires
      dsimp only
      split <;> omega

/-! ## One look -/

theorem roll_window (e : RateCounter) (w now : Nat) : (e.roll w now).window = w := by
  unfold RateCounter.roll
  split
  · next h => exact h
  · rfl

theorem hit_cases (r : CompiledRateRule) (e : RateCounter) (now : Nat) :
    let e' := e.roll (r.window now) now
    let c := { e' with
      count := satAdd u32Max e'.count 1
      expiresAt := (r.window now + 1) * r.periodSecs + r.mitigationSecs }
    (now < e'.blockedUntil ∧ r.hit e now = (e', true)) ∨
    (e'.blockedUntil ≤ now ∧ c.count ≤ r.threshold ∧ r.hit e now = (c, false)) ∨
    (e'.blockedUntil ≤ now ∧ r.threshold < c.count ∧ r.hit e now =
      (if 0 < r.mitigationSecs then { c with blockedUntil := now + r.mitigationSecs } else c,
        true)) := by
  intro e' c
  by_cases hb : now < e'.blockedUntil
  · exact .inl ⟨hb, by simp only [hit, e', if_pos hb]⟩
  · by_cases hc : r.threshold < c.count
    · refine .inr (.inr ⟨by omega, hc, ?_⟩)
      simp only [hit]
      rw [if_neg hb, if_pos hc]
    · refine .inr (.inl ⟨by omega, by omega, ?_⟩)
      simp only [hit]
      rw [if_neg hb, if_neg hc]

theorem Accounts.banned (h : Accounts r hist now e) (hx : x.passed = false) (hb : x.bans = false) :
    Accounts r (hist ++ [x]) now e := by
  refine { h with passed_le := ?_, later := fun w hw => ?_, bans := fun y hy hbans => ?_ }
  · rw [passedIn_stop hx]
    exact h.passed_le
  · rw [passedIn_stop hx]
    exact h.later w hw
  · rcases mem_append.mp hy with hy | hy
    · exact h.bans y hy hbans
    · rw [mem_singleton.mp hy, hb] at hbans
      cases hbans

theorem Accounts.counted {until_ : Nat} (h : Accounts r hist now e) (hw : e.window = r.window now)
    (hnow : x.now = now) (hfree : e.blockedUntil ≤ now)
    (hpass : x.passed = true → e.count + 1 ≤ satAdd u32Max e.count 1)
    (hlow : until_ ≤ now + r.mitigationSecs)
    (hban : x.bans = true → now + r.mitigationSecs ≤ max now until_) :
    Accounts r (hist ++ [x]) now
      ⟨e.window, satAdd u32Max e.count 1, until_,
        (r.window now + 1) * r.periodSecs + r.mitigationSecs⟩ := by
  have hend := lt_window_end r now
  have hcount : e.count ≤ satAdd u32Max e.count 1 := satAdd.le_add_left h.count_le 1
  have hxw : x.now / r.periodSecs = e.window := by rw [hnow, hw]; rfl
  refine ⟨h.window_le, satAdd.le_top _ _ _, ?_, fun w hlt => ?_, fun y hy hbans => ?_, .inr ?_,
    .inl ?_⟩
  · have hle := h.passed_le
    rw [passedIn_concat]
    dsimp only
    split
    · next hx =>
      have := hpass hx.1
      omega
    · omega
  · have hne : x.now / r.periodSecs ≠ w := by
      dsimp only at hlt
      omega
    rw [passedIn_other hne]
    exact h.later w hlt
  · dsimp only
    rcases mem_append.mp hy with hy | hy
    · have := h.bans y hy hbans
      omega
    · obtain rfl := mem_singleton.mp hy
      have := hban hbans
      omega
  · dsimp only
    rw [hw]
    omega
  · dsimp only
    omega

theorem hit_kept (ht : r.threshold < u32Max) (h : Accounts r hist now e)
    (hl : Limited r.periodSecs r.threshold r.mitigationSecs hist) (hnow : x.now = now)
    (hp : x.passed = !(r.hit e now).2)
    (hb : x.bans = ((r.hit e now).2 && !decide (now < (e.roll (r.window now) now).blockedUntil))) :
    Accounts r (hist ++ [x]) now (r.hit e now).1 ∧
      Limited r.periodSecs r.threshold r.mitigationSecs (hist ++ [x]) := by
  have hroll := h.roll
  have hwin := roll_window e (r.window now) now
  rcases hit_cases r e now with ⟨hban, heq⟩ | ⟨hfree, hc, heq⟩ | ⟨hfree, hc, heq⟩
  · -- stopped by a ban
    rw [heq] at hp hb ⊢
    have hb' : x.bans = false := by simpa [hban] using hb
    exact ⟨hroll.banned hp hb', hl.stop hp⟩
  · -- let through
    rw [heq] at hp hb ⊢
    have hb' : x.bans = false := hb
    dsimp only at hc
    have hsat : satAdd u32Max (e.roll (r.window now) now).count 1 =
        (e.roll (r.window now) now).count + 1 := satAdd.eq_add_of_lt (by omega)
    refine ⟨hroll.counted hwin hnow hfree (fun _ => hsat.ge) (by omega) (by simp [hb']), ?_⟩
    refine hl.pass ?_ fun y hy hbans => ?_
    · have hle := hroll.passed_le
      have hxw : x.now / r.periodSecs = (e.roll (r.window now) now).window := by
        rw [hnow, hwin]; rfl
      rw [hxw]
      omega
    · have := hroll.bans y hy hbans
      omega
  · -- over the threshold
    rw [heq] at hp hb ⊢
    have hp' : x.passed = false := hp
    refine ⟨?_, hl.stop hp'⟩
    split
    · exact hroll.counted hwin hnow hfree (by simp [hp']) (Nat.le_refl _) (fun _ => by omega)
    · exact hroll.counted hwin hnow hfree (by simp [hp']) (by omega) (fun _ => by omega)

/-! ## One call -/

/-- The history of a rule and a key keeps the limit, and the table accounts for it. -/
structure Kept (r : CompiledRateRule) (k : String) (ls : List Look)
    (counters : Table String RateCounter) (now : Nat) : Prop where
  limited : Limited r.periodSecs r.threshold r.mitigationSecs (marks r k ls)
  account : Accounts r (marks r k ls) now ((counters.lookup k).getD (r.fresh now))

variable {counters : Table String RateCounter} {v : Services} {q : RateInput} {s : RateState}

theorem kept_empty (r : CompiledRateRule) (k : String) (now : Nat) : Kept r k [] ∅ now := by
  refine ⟨limited_nil _ _ _, ?_⟩
  rw [AList.lookup_empty, Option.getD_none, accounts_fresh_iff]
  exact ⟨fun _ _ => rfl, fun x hx => absurd hx not_mem_nil⟩

theorem Kept.mono (h : Kept r k ls counters now) (hle : now ≤ now') :
    Kept r k ls counters now' :=
  ⟨h.limited, h.account.getD_mono hle⟩

theorem Kept.retain (h : Kept r k ls counters now) :
    Kept r k ls (counters.retain fun _ e => now < e.expiresAt) now := by
  refine ⟨h.limited, ?_⟩
  rw [Table.lookup_retain]
  exact h.account.filter

theorem Kept.sweep (h : Kept r k ls s.counters now) :
    Kept r k ls (s.sweep now).counters now := by
  unfold RateState.sweep
  split
  · exact h.retain
  · exact h

theorem count_kept {r' : CompiledRateRule} (ht : r.threshold < u32Max)
    (hsep : r'.counterKey v q = k → r' = r) (h : Kept r k ls s.counters q.now) :
    Kept r k (ls ++ [r'.look v q s]) (r'.count v q s).1.counters q.now := by
  have hs := h.sweep
  by_cases hk : r'.counterKey v q = k
  · obtain rfl := hsep hk
    subst hk
    have hit := hit_kept ht hs.account hs.limited (x := (r'.look v q s).mark) rfl rfl rfl
    rw [← marks_concat_self (r := r') (k := r'.counterKey v q) (l := r'.look v q s) rfl rfl] at hit
    refine ⟨hit.2, ?_⟩
    have hins : (r'.count v q s).1.counters.lookup (r'.counterKey v q) =
        some (r'.hit (((s.sweep q.now).counters.lookup (r'.counterKey v q)).getD
          (r'.fresh q.now)) q.now).1 :=
      AList.lookup_insert _
    rw [hins]
    exact hit.1
  · have hmarks : marks r k (ls ++ [r'.look v q s]) = marks r k ls :=
      marks_concat_of_ne fun hl => hk hl.2
    have hins : (r'.count v q s).1.counters.lookup k = (s.sweep q.now).counters.lookup k :=
      AList.lookup_insert_ne (Ne.symm hk)
    exact ⟨hmarks ▸ hs.limited, by rw [hmarks, hins]; exact hs.account⟩

theorem looks_kept (ht : r.threshold < u32Max) (rules : List CompiledRateRule)
    (logged : List RateTripped) (hsep : ∀ r' ∈ rules, r'.counterKey v q = k → r' = r)
    (h : Kept r k ls s.counters q.now) :
    Kept r k (ls ++ looks v q rules s) (evaluateRules v q rules s logged).2.counters q.now := by
  induction rules generalizing s ls logged with
  | nil => simpa [looks, evaluateRules] using h
  | cons r' rest ih =>
    have hrest : ∀ r'' ∈ rest, r''.counterKey v q = k → r'' = r :=
      fun r'' hr'' => hsep r'' (mem_cons_of_mem _ hr'')
    have hcount := count_kept ht (hsep r' mem_cons_self) h
    unfold looks evaluateRules
    split
    · exact ih logged hrest h
    split
    · simpa using h
    split
    · exact ih logged hrest h
    · rw [append_cons]
      dsimp only
      by_cases htrip : (r'.count v q s).2 = true
      · by_cases hlog : r'.action = .log
        · simp only [htrip, hlog]
          exact ih _ hrest hcount
        · simpa [htrip, hlog] using hcount
      · simp only [Bool.not_eq_true] at htrip
        simp only [htrip]
        exact ih logged hrest hcount

theorem looks_spec (rules : List CompiledRateRule) (logged : List RateTripped)
    (hl : l ∈ looks v q rules s) : l.rule ∈ rules ∧ (∃ s', l = l.rule.look v q s') ∧
      (l.trips = true → l.rule.action ≠ .log → (evaluateRules v q rules s logged).1.deny =
        some (rateTripped l.rule (l.rule.retryAfter q.now))) := by
  induction rules generalizing s logged with
  | nil => cases hl
  | cons r' rest ih =>
    have hrest {s logged} (hl : l ∈ looks v q rest s) :=
      And.imp_left (mem_cons_of_mem r') (ih (s := s) logged hl)
    unfold looks at hl
    unfold evaluateRules
    split at hl
    · next h1 => rw [if_pos h1]; exact hrest hl
    · next h1 =>
      rw [if_neg h1]
      split at hl
      · cases hl
      · next h2 =>
        rw [if_neg h2]
        split at hl
        · next h3 => rw [if_pos h3]; exact hrest hl
        · next h3 =>
          rw [if_neg h3]
          dsimp only
          rcases mem_cons.mp hl with rfl | hl
          · refine ⟨mem_cons_self, ⟨s, rfl⟩, fun htrip hlog => ?_⟩
            have htrip' : (r'.count v q s).2 = true := htrip
            have hlog' : r'.action ≠ .log := hlog
            rw [htrip', if_neg (by simp), if_neg hlog']
            rfl
          · split at hl
            · cases hl
            · next h4 =>
              by_cases htrip : (r'.count v q s).2 = true
              · have hlog : r'.action = .log := by simpa [htrip] using h4
                rw [htrip, if_neg (by simp), if_pos hlog]
                exact hrest hl
              · rw [if_pos (by simpa using htrip)]
                exact hrest hl

/-! ## Counter keys -/

theorem foldl_key_toList (chars : List RateChar) (key : String) :
    ∃ t, (chars.foldl (fun key ch => key ++ "\x1f" ++ ch.value v q) key).toList = key.toList ++ t ∧
      (t = [] ∨ t.head? = some '\x1f') := by
  induction chars generalizing key with
  | nil => exact ⟨[], by simp, .inl rfl⟩
  | cons ch _ ih =>
    obtain ⟨t, ht, -⟩ := ih (key ++ "\x1f" ++ ch.value v q)
    refine ⟨'\x1f' :: ((ch.value v q).toList ++ t), ?_, .inr rfl⟩
    rw [foldl_cons, ht]
    simp

theorem counterKey_takeWhile (hid : '\x1f' ∉ r.id.toList) (v : Services) (q : RateInput) :
    (r.counterKey v q).toList.takeWhile (· ≠ '\x1f') = r.id.toList := by
  obtain ⟨t, ht, hsep⟩ := foldl_key_toList (v := v) (q := q) r.chars r.id
  have hall : ∀ c ∈ r.id.toList, decide (c ≠ '\x1f') = true := by
    intro c hc
    simp only [decide_eq_true_eq]
    rintro rfl
    exact hid hc
  rw [counterKey, ht, takeWhile_append_of_pos hall]
  rcases hsep with rfl | hsep
  · simp
  · cases t with
    | nil => cases hsep
    | cons c _ =>
      obtain rfl : c = '\x1f' := by simpa using hsep
      simp

/-! ## Runs -/

/-- A call of `evaluate`: the policy, the request and the state it finds. -/
structure RateCall where
  services : Services
  policy : RateLimitPolicy
  input : RateInput
  state : RateState

def RateCall.looks (c : RateCall) : List Look :=
  Plugin.looks c.services c.input c.policy.rules c.state

def RateCall.outcome (c : RateCall) : RateOutcome :=
  (c.policy.evaluate c.services c.input c.state).1

/-- The request reaches the rule and is counted, or stopped, under the key. -/
def RateCall.reaches (c : RateCall) (r : CompiledRateRule) (k : String) : Bool :=
  c.looks.any fun l => l.rule = r ∧ l.key = k

/-- The rule trips on the key in the call. -/
def RateCall.trips (c : RateCall) (r : CompiledRateRule) (k : String) : Bool :=
  c.looks.any fun l => (l.rule = r ∧ l.key = k) ∧ l.exceeds = true

/-- The rule denies the call. -/
def RateCall.deniedBy (c : RateCall) (r : CompiledRateRule) : Bool :=
  c.outcome.deny = some (rateTripped r (r.retryAfter c.input.now))

/-- A step on the shared counters: a call of some policy, which brings the time of its own last
sweep, or a sweep of the expired counters. -/
inductive RateOp where
  | evaluate (v : Services) (p : RateLimitPolicy) (q : RateInput) (lastGcSweep : Nat)
  | sweep (now : Nat)

def RateOp.time : RateOp → Nat
  | .evaluate _ _ q _ => q.now
  | .sweep now => now

def RateOp.rules : RateOp → List CompiledRateRule
  | .evaluate _ p _ _ => p.rules
  | .sweep _ => []

/-- The counters, and every call so far with the state it found. -/
structure RateRun where
  counters : Table String RateCounter
  calls : List RateCall

def RateRun.step (t : RateRun) : RateOp → RateRun
  | .evaluate v p q lastGcSweep =>
    ⟨(p.evaluate v q ⟨t.counters, lastGcSweep⟩).2.counters,
      t.calls ++ [⟨v, p, q, ⟨t.counters, lastGcSweep⟩⟩]⟩
  | .sweep now => ⟨t.counters.retain fun _ e => now < e.expiresAt, t.calls⟩

/-- The run from an empty table. -/
def rateRun (ops : List RateOp) : RateRun := ops.foldl RateRun.step ⟨∅, []⟩

/-- Rules as the control plane hands them out: an id is a UUID and names one rule, and a threshold
is far below the ceiling of a counter. -/
structure Issued (rules : List CompiledRateRule) : Prop where
  ids : ∀ r ∈ rules, ∀ r' ∈ rules, r.id = r'.id → r = r'
  plain : ∀ r ∈ rules, '\x1f' ∉ r.id.toList
  threshold_lt : ∀ r ∈ rules, r.threshold < u32Max

theorem step_kept (ht : r.threshold < u32Max) (op : RateOp)
    (hsep : ∀ v q, ∀ r' ∈ op.rules, r'.counterKey v q = k → r' = r)
    (h : Kept r k (t.calls.flatMap RateCall.looks) t.counters op.time) :
    Kept r k ((t.step op).calls.flatMap RateCall.looks) (t.step op).counters op.time := by
  cases op with
  | evaluate v p q lastGcSweep =>
    have := looks_kept (s := ⟨t.counters, lastGcSweep⟩) ht p.rules [] (hsep v q) h
    simpa [RateRun.step, RateCall.looks, RateLimitPolicy.evaluate, RateOp.time] using this
  | sweep _ => exact h.retain

theorem foldl_kept (ht : r.threshold < u32Max) (ops : List RateOp)
    (hsep : ∀ op ∈ ops, ∀ v q, ∀ r' ∈ op.rules, r'.counterKey v q = k → r' = r)
    (hclock : (ops.map RateOp.time).Pairwise (· ≤ ·)) (hfirst : ∀ op ∈ ops, now ≤ op.time)
    (h : Kept r k (t.calls.flatMap RateCall.looks) t.counters now) :
    ∃ now', Kept r k ((ops.foldl RateRun.step t).calls.flatMap RateCall.looks)
      (ops.foldl RateRun.step t).counters now' := by
  induction ops generalizing t now with
  | nil => exact ⟨now, h⟩
  | cons op _ ih =>
    rw [map_cons, pairwise_cons] at hclock
    have hop := h.mono (hfirst op mem_cons_self)
    have hstep := step_kept ht op (hsep op mem_cons_self) hop
    refine ih (fun op' h' => hsep op' (mem_cons_of_mem _ h')) hclock.2 ?_ hstep
    intro op' h'
    exact hclock.1 _ (mem_map_of_mem h')

theorem run_limited (ht : r.threshold < u32Max) {ops : List RateOp}
    (hsep : ∀ op ∈ ops, ∀ v q, ∀ r' ∈ op.rules, r'.counterKey v q = k → r' = r)
    (hclock : (ops.map RateOp.time).Pairwise (· ≤ ·)) :
    Limited r.periodSecs r.threshold r.mitigationSecs
      (marks r k ((rateRun ops).calls.flatMap RateCall.looks)) := by
  have hstart : Kept r k ((⟨∅, []⟩ : RateRun).calls.flatMap RateCall.looks) ∅ 0 := kept_empty r k 0
  obtain ⟨now', h⟩ := foldl_kept ht ops hsep hclock (fun _ _ => Nat.zero_le _) hstart
  exact h.limited

theorem step_calls {op : RateOp} {c : RateCall} (hc : c ∈ (t.step op).calls) :
    c ∈ t.calls ∨ c.policy.rules = op.rules := by
  cases op with
  | evaluate _ _ _ _ =>
    rcases mem_append.mp hc with hc | hc
    · exact .inl hc
    · rw [mem_singleton.mp hc]
      exact .inr rfl
  | sweep _ => exact .inl hc

theorem run_rules (ops : List RateOp) {c : RateCall} (hc : c ∈ (ops.foldl RateRun.step t).calls) :
    c ∈ t.calls ∨ ∃ op ∈ ops, c.policy.rules = op.rules := by
  induction ops generalizing t with
  | nil => exact .inl hc
  | cons op _ ih =>
    rcases ih hc with hc | ⟨op', ho, hr⟩
    · rcases step_calls hc with hc | hr
      · exact .inl hc
      · exact .inr ⟨op, mem_cons_self, hr⟩
    · exact .inr ⟨op', mem_cons_of_mem _ ho, hr⟩

/-! ## The guarantee -/

variable {c : RateCall}

theorem mem_marks : x ∈ marks r k ls ↔
    ∃ l ∈ ls, (l.rule = r ∧ l.key = k) ∧ l.mark = x := by
  simp [marks, and_assoc]

theorem marks_flatMap (r : CompiledRateRule) (k : String) (calls : List RateCall) :
    marks r k (calls.flatMap RateCall.looks) = calls.flatMap fun c => marks r k c.looks := by
  induction calls with
  | nil => rfl
  | cons _ _ ih => rw [flatMap_cons, marks_append, ih, flatMap_cons]

theorem RateCall.look_spec (hl : l ∈ c.looks) :
    l.rule ∈ c.policy.rules ∧ l.key = l.rule.counterKey c.services c.input ∧
      l.now = c.input.now ∧ (l.exceeds = true → l.trips = true) ∧
      (l.trips = true → l.rule.action ≠ .log → c.deniedBy l.rule = true) := by
  obtain ⟨hmem, ⟨s', hs'⟩, hdeny⟩ := looks_spec c.policy.rules [] hl
  refine ⟨hmem, by rw [hs']; rfl, by rw [hs']; rfl, fun h => ?_, fun ht hlog => ?_⟩
  · rw [hs'] at h ⊢
    exact (Bool.and_eq_true_iff.mp h).1
  · exact decide_eq_true (hdeny ht hlog)

theorem RateCall.look_of_reaches (h : c.reaches r k = true) :
    ∃ l ∈ c.looks, l.rule = r ∧ l.key = k := by
  obtain ⟨l, hl, hat⟩ := any_eq_true.mp h
  exact ⟨l, hl, of_decide_eq_true hat⟩

theorem RateCall.look_of_trips (h : c.trips r k = true) :
    ∃ l ∈ c.looks, (l.rule = r ∧ l.key = k) ∧ l.exceeds = true := by
  obtain ⟨l, hl, hat⟩ := any_eq_true.mp h
  exact ⟨l, hl, of_decide_eq_true hat⟩

theorem Issued.key_owner {ops : List RateOp} (hi : Issued (ops.flatMap RateOp.rules))
    (hc : c ∈ (rateRun ops).calls) (hreach : c.reaches r k = true) :
    r.threshold < u32Max ∧
      ∀ op ∈ ops, ∀ v q, ∀ r' ∈ op.rules, r'.counterKey v q = k → r' = r := by
  obtain ⟨l, hl, rfl, rfl⟩ := c.look_of_reaches hreach
  obtain ⟨hmem, hkey, -⟩ := c.look_spec hl
  obtain ⟨op, hop, hrules⟩ : ∃ op ∈ ops, c.policy.rules = op.rules := by
    rcases run_rules ops hc with h | h
    · cases h
    · exact h
  have hr : l.rule ∈ ops.flatMap RateOp.rules := mem_flatMap.mpr ⟨op, hop, hrules ▸ hmem⟩
  refine ⟨hi.threshold_lt _ hr, fun op' hop' v q r' hr' hk => ?_⟩
  have hr'' : r' ∈ ops.flatMap RateOp.rules := mem_flatMap.mpr ⟨op', hop', hr'⟩
  -- both rules spell their id at the front of the key
  have hid := counterKey_takeWhile (hi.plain r' hr'') v q
  rw [hk, hkey, counterKey_takeWhile (hi.plain _ hr)] at hid
  exact hi.ids r' hr'' _ hr (String.toList_injective hid.symm)

theorem calls_window_le (henf : r.action ≠ .log) {calls : List RateCall}
    (h : Limited r.periodSecs r.threshold r.mitigationSecs
      (marks r k (calls.flatMap RateCall.looks))) (w : Nat) :
    calls.countP (fun c => c.reaches r k && r.window c.input.now == w && !c.deniedBy r) ≤
      r.threshold := by
  have hle := h.window w
  rw [marks_flatMap] at hle
  refine le_trans (countP_le_countP_flatMap _ fun c _ hcond => ?_) hle
  simp only [Bool.and_eq_true, Bool.not_eq_true', beq_iff_eq] at hcond
  obtain ⟨⟨hreach, hw⟩, hden⟩ := hcond
  obtain ⟨l, hl, rfl, rfl⟩ := c.look_of_reaches hreach
  obtain ⟨-, -, hnow, -, hdeny⟩ := c.look_spec hl
  refine ⟨l.mark, mem_marks.mpr ⟨l, hl, ⟨rfl, rfl⟩, rfl⟩, ?_⟩
  have htrip : l.trips = false := by
    by_contra hne
    rw [hdeny (by simpa using hne) henf] at hden
    cases hden
  have hwin : l.now / l.rule.periodSecs = w := by rw [hnow]; exact hw
  simp [Look.mark, htrip, hwin]

theorem calls_banned (henf : r.action ≠ .log) {calls : List RateCall}
    (h : Limited r.periodSecs r.threshold r.mitigationSecs
      (marks r k (calls.flatMap RateCall.looks))) :
    calls.Pairwise fun c c' => c.trips r k = true → c'.reaches r k = true →
      c'.input.now < c.input.now + r.mitigationSecs → c'.deniedBy r = true := by
  have hpair := h.banned
  rw [marks_flatMap, pairwise_flatMap] at hpair
  refine hpair.2.imp fun {c c'} hcc htrip hreach hlt => ?_
  obtain ⟨l, hl, hat, hex⟩ := c.look_of_trips htrip
  obtain ⟨l', hl', hat'⟩ := c'.look_of_reaches hreach
  obtain ⟨-, -, hnow, -⟩ := c.look_spec hl
  obtain ⟨-, -, hnow', -, hdeny⟩ := c'.look_spec hl'
  have hstop := hcc l.mark (mem_marks.mpr ⟨l, hl, hat, rfl⟩) l'.mark
    (mem_marks.mpr ⟨l', hl', hat', rfl⟩) hex (by rw [← hnow, ← hnow'] at hlt; exact hlt)
  have htrips : l'.trips = true := by simpa [Look.mark] using hstop
  exact hat'.1 ▸ hdeny htrips (hat'.1.symm ▸ henf)

/-- In every run, an enforcing rule lets at most its threshold of requests of a key through in an
aligned window, and a key on which it trips by the count is denied from then on for the whole
mitigation time. -/
theorem rate_limit_guarantee (ops : List RateOp) (hissued : Issued (ops.flatMap RateOp.rules))
    (hclock : (ops.map RateOp.time).Pairwise (· ≤ ·)) (r : CompiledRateRule)
    (henf : r.action = .challenge ∨ r.action = .block) (k : String) :
    (∀ w, (rateRun ops).calls.countP
      (fun c => c.reaches r k && r.window c.input.now == w && !c.deniedBy r) ≤ r.threshold) ∧
    (∀ c ∈ (rateRun ops).calls, c.trips r k = true → c.deniedBy r = true) ∧
    (rateRun ops).calls.Pairwise fun c c' => c.trips r k = true → c'.reaches r k = true →
      c'.input.now < c.input.now + r.mitigationSecs → c'.deniedBy r = true := by
  have hlog : r.action ≠ .log := by
    rcases henf with h | h <;> rw [h] <;> decide
  have hlim : Limited r.periodSecs r.threshold r.mitigationSecs
      (marks r k ((rateRun ops).calls.flatMap RateCall.looks)) := by
    by_cases hex : ∃ c ∈ (rateRun ops).calls, c.reaches r k = true
    · obtain ⟨c, hc, hreach⟩ := hex
      obtain ⟨ht, hsep⟩ := hissued.key_owner hc hreach
      exact run_limited ht hsep hclock
    · -- the key was never looked at
      have hnone : marks r k ((rateRun ops).calls.flatMap RateCall.looks) = [] := by
        refine eq_nil_iff_forall_not_mem.mpr fun x hx => ?_
        obtain ⟨l, hl, hat, -⟩ := mem_marks.mp hx
        obtain ⟨c, hc, hl⟩ := mem_flatMap.mp hl
        exact hex ⟨c, hc, any_eq_true.mpr ⟨l, hl, decide_eq_true hat⟩⟩
      rw [hnone]
      exact limited_nil _ _ _
  refine ⟨calls_window_le hlog hlim, fun c _ htrip => ?_, calls_banned hlog hlim⟩
  obtain ⟨l, hl, ⟨rfl, -⟩, hexc⟩ := c.look_of_trips htrip
  obtain ⟨-, -, -, htrips, hdeny⟩ := c.look_spec hl
  exact hdeny (htrips hexc) hlog

/-- One request a minute for each host, and a ban of two minutes. -/
def oneAMinute : CompiledRateRule :=
  ⟨"8f14e45f", "strict", none, none, [.host], 60, 1, 120, .block, by decide⟩

def strictPolicy : RateLimitPolicy := ⟨[oneAMinute], List.cons_ne_nil _ _⟩

def requestAt (now : Nat) : RateInput :=
  ⟨⟨"GET", "/", "", [], none, "192.0.2.1", none, "https"⟩, "a.example", none, false, now⟩

/-- The second request trips the rule; the ban holds in the next window and after a sweep. -/
def strictRun : List RateOp :=
  [.evaluate quietServices strictPolicy (requestAt 30) 0,
    .evaluate quietServices strictPolicy (requestAt 31) 0,
    .sweep 90,
    .evaluate quietServices strictPolicy (requestAt 100) 0]

theorem rate_limit_guarantee_strict :
    ((rateRun strictRun).calls.map fun c => (c.trips oneAMinute "8f14e45f\x1fa.example",
      c.deniedBy oneAMinute)) = [(false, false), (true, true), (false, true)] ∧
    (rateRun strictRun).calls.countP (fun c => c.reaches oneAMinute "8f14e45f\x1fa.example" &&
      oneAMinute.window c.input.now == 0 && !c.deniedBy oneAMinute) ≤ 1 := by
  refine ⟨by decide +kernel, ?_⟩
  refine (rate_limit_guarantee strictRun ⟨?_, ?_, ?_⟩ (by decide) oneAMinute (.inr rfl)
    "8f14e45f\x1fa.example").1 0
  · intro r hr r' hr' _
    have hall : ∀ r ∈ strictRun.flatMap RateOp.rules, r = oneAMinute := by decide +kernel
    rw [hall r hr, hall r' hr']
  · decide +kernel
  · decide +kernel

end PingWaf.Plugin
