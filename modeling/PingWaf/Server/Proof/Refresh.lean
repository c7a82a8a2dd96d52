import PingWaf.Server.Refresh

/-!
# A refresh token is exchanged once

The row of an exchanged token stays until the clock has passed the expiry of the token. A request
that comes to its insert by then finds the row. `OnceClaimed` is that argument as an invariant.
-/

namespace PingWaf.Server

open Pool Refreshing

variable {f : TokenForeign} {token jti : String} {claims : Claims}

/-! ## One step -/

theorem verifyRefreshToken_payload {now : Nat} {c : Claims}
    (h : verifyRefreshToken f token now = .ok c) : f.payload token = some c := by
  unfold verifyRefreshToken at h
  cases hd : verifyToken f token now with
  | error _ => simp [hd, bind, Except.bind] at h
  | ok _ =>
    simp only [hd, bind, Except.bind] at h
    split at h
    · cases h
    · exact f.decode_payload _ _ _ _ (hd.trans h)

inductive RefreshTurn (f : TokenForeign) (s : RefreshStore) (token : String) :
    RefreshPhase → RefreshStore → RefreshPhase → Prop
  | refuses (phase : RefreshPhase) (message : String) :
      RefreshTurn f s token phase s (.refused message)
  | verifies {c : Claims} (u : String) (h : f.payload token = some c) :
      RefreshTurn f s token .arrived s (.verified c u)
  | unmarked {c : Claims} (u : String) (h : c.jti = none) :
      RefreshTurn f s token (.verified c u) s .issuing
  | marks {c : Claims} {j : String} (u : String) (h : c.jti = some j) :
      RefreshTurn f s token (.verified c u) s (.claiming c u j (recordedExpiry c s.clock))
  | prunes (succeeds : Bool) (c : Claims) (u j : String) (e : Nat) :
      RefreshTurn f s token (.claiming c u j e) (s.prune succeeds) (.inserting c u j e)
  | inserts (c : Claims) (u : String) {j : String} (e : Nat) (h : s.rows.any (·.jti = j) = false) :
      RefreshTurn f s token (.inserting c u j e)
        { s with rows := s.rows ++ [⟨j, u, e, s.clock⟩] } .issuing
  | leaves (c : Claims) (u j : String) (e : Nat) (message : String) :
      RefreshTurn f s token (.inserting c u j e)
        { s with rows := s.rows ++ [⟨j, u, e, s.clock⟩] } (.refused message)
  | issues : RefreshTurn f s token .issuing s .succeeded
  | stays : RefreshTurn f s token .succeeded s .succeeded

theorem step_refreshTurn (f : TokenForeign) (input : RefreshInput) (s : RefreshStore)
    (token : String) (phase : RefreshPhase) :
    RefreshTurn f s token phase (phase.step f input s token).1 (phase.step f input s token).2 := by
  unfold RefreshPhase.step
  cases phase with
  | arrived =>
    dsimp only
    cases hv : verifyRefreshToken f token (s.clock / microseconds) with
    | error _ => exact .refuses _ _
    | ok c =>
      dsimp only
      cases f.parseUuid c.sub with
      | error _ => exact .refuses _ _
      | ok u => exact .verifies u (verifyRefreshToken_payload hv)
  | verified c u =>
    dsimp only
    cases input.account.bind (checkAccount c) with
    | error _ => exact .refuses _ _
    | ok _ =>
      dsimp only
      cases hj : c.jti with
      | none => exact .unmarked u hj
      | some _ => exact .marks u hj
  | claiming c u j e => exact .prunes _ c u j e
  | inserting c u j e =>
    dsimp only [RefreshStore.insert]
    cases hrow : s.rows.any (·.jti = j) <;> rcases input.insertError with _ | ⟨message, _ | _⟩
    · exact .inserts c u e hrow
    · exact .refuses _ _
    · exact .leaves c u j e message
    · exact .refuses _ _
    · exact .refuses _ _
    · exact .refuses _ _
  | issuing =>
    dsimp only
    cases input.issued with
    | error _ => exact .refuses _ _
    | ok _ => exact .issues
  | succeeded => exact .stays
  | refused _ => exact .refuses _ _

/-! ## What a request carries -/

/-- The claims that a request carries are those of the token it presents. -/
def RefreshPhase.Carries (jti : String) (claims : Claims) : RefreshPhase → Prop
  | .verified c _ => c = claims
  | .claiming c _ j e => c = claims ∧ j = jti ∧
      (claims.exp ≤ maxTimestamp → e = claims.exp * microseconds)
  | .inserting c _ j e => c = claims ∧ j = jti ∧
      (claims.exp ≤ maxTimestamp → e = claims.exp * microseconds)
  | _ => True

section Step

variable {s s' : RefreshStore} {phase phase' : RefreshPhase}

theorem RefreshTurn.carries (h : RefreshTurn f s token phase s' phase')
    (hpayload : f.payload token = some claims) (hjti : claims.jti = some jti)
    (hphase : phase.Carries jti claims) : phase'.Carries jti claims := by
  cases h with
  | refuses => trivial
  | verifies _ h => exact Option.some.inj (h.symm.trans hpayload)
  | unmarked _ _ => trivial
  | marks _ h =>
    obtain rfl := hphase
    refine ⟨rfl, Option.some.inj (h.symm.trans hjti), fun hdate => ?_⟩
    rw [recordedExpiry, if_pos hdate]
  | prunes _ _ _ _ => exact hphase
  | inserts | leaves | issues | stays => trivial

def Kept (jti : String) (claims : Claims) (s : RefreshStore) : Prop :=
  claims.exp * microseconds < s.clock ∨
    ∃ r ∈ s.rows, r.jti = jti ∧ r.expiresAt = claims.exp * microseconds

theorem kept_prune (h : Kept jti claims s) (succeeds : Bool) :
    Kept jti claims (s.prune succeeds) := by
  obtain hclock | ⟨r, hr, hrjti, hexpires⟩ := h
  · exact .inl hclock
  · by_cases hclock : claims.exp * microseconds < s.clock
    · exact .inl hclock
    · refine .inr ⟨r, ?_, hrjti, hexpires⟩
      unfold RefreshStore.prune
      dsimp only
      split
      · -- The row has not expired, so the pruning leaves it.
        refine List.mem_filter.mpr ⟨hr, ?_⟩
        simpa [hexpires] using hclock
      · exact hr

theorem kept_append (h : Kept jti claims s) (row : UsedToken) :
    Kept jti claims { s with rows := s.rows ++ [row] } := by
  obtain hclock | ⟨r, hr, hrjti, hexpires⟩ := h
  · exact .inl hclock
  · exact .inr ⟨r, List.mem_append_left _ hr, hrjti, hexpires⟩

theorem RefreshTurn.kept (h : RefreshTurn f s token phase s' phase') (hs : Kept jti claims s) :
    Kept jti claims s' := by
  cases h with
  | prunes succeeds => exact kept_prune hs succeeds
  | inserts | leaves => exact kept_append hs _
  | _ => exact hs

theorem kept_event (e : RefreshEvent) (h : Kept jti claims s) : Kept jti claims (e.apply s) := by
  cases e with
  | advance _ =>
    obtain hclock | hrow := h
    · exact .inl (Nat.lt_of_lt_of_le hclock (Nat.le_add_right _ _))
    · exact .inr hrow
  | restart => exact h

def RefreshPhase.claimed : RefreshPhase → Bool
  | .issuing => true
  | .succeeded => true
  | _ => false

theorem RefreshTurn.claim (h : RefreshTurn f s token phase s' phase')
    (hjti : claims.jti = some jti) (hphase : phase.Carries jti claims)
    (hintime : Refreshing.late s ⟨token, phase⟩ = false) (hnew : phase.claimed = false)
    (hclaimed : phase'.claimed = true) : ¬ Kept jti claims s ∧ Kept jti claims s' := by
  cases h with
  | refuses | verifies => cases hclaimed
  | unmarked _ h =>
    obtain rfl := hphase
    rw [h] at hjti
    cases hjti
  | marks | prunes => cases hclaimed
  | @inserts c u j e hrow =>
    obtain ⟨rfl, rfl, hexpires⟩ := hphase
    simp only [late, hrow, Bool.not_false, Bool.and_true, Bool.or_eq_false_iff,
      decide_eq_false_iff_not, Nat.not_lt] at hintime
    refine ⟨?_, .inr ⟨_, List.mem_append_right _ (List.mem_singleton_self _), rfl,
      hexpires hintime.1⟩⟩
    rintro (hclock | ⟨r, hr, hrjti, -⟩)
    · omega
    · have := List.any_eq_false.mp hrow r hr
      simp [hrjti] at this
  | leaves => cases hclaimed
  | issues | stays => cases hnew

end Step

/-! ## Runs -/

def Refreshing.claimed (token : String) (t : Refreshing) : Bool :=
  t.token = token && t.phase.claimed

/-- At most one request has claimed the token, and its row is there as long as it counts. -/
structure OnceClaimed (token jti : String) (claims : Claims)
    (p : Pool.State RefreshStore Refreshing) : Prop where
  carries : ∀ (i : Nat) t, p.tasks[i]? = some t → t.token = token → t.phase.Carries jti claims
  once : Pool.tally (Refreshing.claimed token) p ≤ 1
  kept : 0 < Pool.tally (Refreshing.claimed token) p → Kept jti claims p.shared

theorem OnceClaimed.turn (hpayload : f.payload token = some claims) (hjti : claims.jti = some jti)
    {p : Pool.State RefreshStore Refreshing} (h : OnceClaimed token jti claims p) {i : Nat}
    {t : Refreshing} (ht : p.tasks[i]? = some t) (input : RefreshInput)
    (hintime : t.token = token → t.late p.shared = false) :
    OnceClaimed token jti claims (Pool.act (refreshes f) p (.turn i input)) := by
  have hturn := step_refreshTurn f input p.shared t.token t.phase
  have htally := tally_turn (S := refreshes f) ht input (claimed token)
  have hshared : (act (refreshes f) p (.turn i input)).shared =
      (t.phase.step f input p.shared t.token).1 := by
    rw [act_turn_some ht]
    rfl
  have hnext : ((refreshes f).step input p.shared t).2 =
      ⟨t.token, (t.phase.step f input p.shared t.token).2⟩ := rfl
  rw [hnext] at htally
  generalize (t.phase.step f input p.shared t.token).1 = s' at hturn hshared
  generalize hphase' : (t.phase.step f input p.shared t.token).2 = phase' at hturn htally
  have hcarries : t.token = token → phase'.Carries jti claims := by
    intro htoken
    subst htoken
    exact hturn.carries hpayload hjti (h.carries i t ht rfl)
  -- A request claims the token only as the first.
  have hfirst : t.claimed token = false → claimed token ⟨t.token, phase'⟩ = true →
      tally (claimed token) p = 0 ∧ Kept jti claims s' := by
    intro hnew hclaimed
    simp only [claimed, Bool.and_eq_true, decide_eq_true_eq] at hclaimed
    obtain ⟨rfl, hclaimed⟩ := hclaimed
    simp only [claimed, decide_true, Bool.true_and] at hnew
    obtain ⟨hgone, hkept⟩ := hturn.claim hjti (h.carries i t ht rfl) (hintime rfl) hnew hclaimed
    refine ⟨?_, hkept⟩
    by_contra hpos
    exact hgone (h.kept (Nat.pos_of_ne_zero hpos))
  refine ⟨fun j u hu hua => ?_, ?_, fun hpos => ?_⟩
  · obtain ⟨rfl, rfl⟩ | ⟨-, hin⟩ := tasks_turn ht hu
    · rw [hnext, hphase']
      exact hcarries hua
    · exact h.carries j u hin hua
  · have := h.once
    cases hold : t.claimed token <;> cases hnew : claimed token ⟨t.token, phase'⟩ <;>
      simp only [hold, hnew, Bool.toNat_true, Bool.toNat_false] at htally <;>
      first
        | omega
        | (have hclock := (hfirst hold hnew).1; omega)
  · rw [hshared]
    cases hold : t.claimed token <;> cases hnew : claimed token ⟨t.token, phase'⟩ <;>
      simp only [hold, hnew, Bool.toNat_true, Bool.toNat_false] at htally
    · exact hturn.kept (h.kept (by omega))
    · exact (hfirst hold hnew).2
    · exact hturn.kept (h.kept (by omega))
    · exact hturn.kept (h.kept (by omega))

theorem OnceClaimed.act (hpayload : f.payload token = some claims) (hjti : claims.jti = some jti)
    {p : Pool.State RefreshStore Refreshing} {a : Pool.Act RefreshEvent String RefreshInput}
    (ha : Pool.OnTurn (InTime token) p a) (h : OnceClaimed token jti claims p) :
    OnceClaimed token jti claims (Pool.act (refreshes f) p a) := by
  cases a with
  | env e => exact ⟨h.carries, h.once, fun hpos => kept_event e (h.kept hpos)⟩
  | spawn call =>
    have htally := tally_spawn (S := refreshes f) (claimed token) p call
    have hfresh : claimed token ((refreshes f).start call p.shared) = false := by
      simp [refreshes, claimed, RefreshPhase.claimed]
    rw [hfresh, Bool.toNat_false, Nat.add_zero] at htally
    refine ⟨fun i t ht hta => ?_, htally ▸ h.once, fun hpos => h.kept (htally ▸ hpos)⟩
    obtain hin | ⟨-, rfl⟩ := tasks_spawn ht
    · exact h.carries i t hin hta
    · trivial
  | turn i input =>
    cases ht : p.tasks[i]? with
    | none => exact (act_turn_none ht input).symm ▸ h
    | some t => exact h.turn hpayload hjti ht input (ha t ht)

/-- In a run in which no request inserts a row for the token late, at most one request that presents
the token gets a new pair. -/
theorem refresh_exchanged_once (f : TokenForeign) (token jti : String) (claims : Claims)
    (hpayload : f.payload token = some claims) (hjti : claims.jti = some jti) (s : RefreshStore)
    (acts : List (Pool.Act RefreshEvent String RefreshInput))
    (h : Pool.Turns (refreshes f) (InTime token) ⟨s, []⟩ acts) :
    Pool.tally (Refreshing.exchanged token) (Pool.run (refreshes f) ⟨s, []⟩ acts) ≤ 1 := by
  have hstart : OnceClaimed token jti claims ⟨s, []⟩ := ⟨nofun, Nat.zero_le _, nofun⟩
  have hrun := Pool.run_keeps (G := OnceClaimed token jti claims)
    (fun p a ha hp => hp.act hpayload hjti ha) h hstart
  refine (Pool.tally_mono fun i t _ hexchanged => ?_).trans hrun.once
  simp only [Refreshing.exchanged, Bool.and_eq_true, decide_eq_true_eq] at hexchanged
  simp [Refreshing.claimed, RefreshPhase.claimed, hexchanged]

/-! ## A token in use -/

def sampleClaims : Claims :=
  ⟨"u1", "ops@example.com", "admin", 1000, 400, issuer, tokenTypeRefresh, 0, some "j1"⟩

/-- A decoder that knows one token. -/
def sampleDecode (v : Validation) (token : String) (now : Nat) : Except JwtError Claims :=
  if token ≠ "t1" ∨ v.issuer ≠ issuer then .error .invalidSignature
  else if sampleClaims.exp + v.leeway < now then .error .expired
  else .ok sampleClaims

theorem sampleDecode_payload (v : Validation) (token : String) (now : Nat) (claims : Claims)
    (h : sampleDecode v token now = .ok claims) : some sampleClaims = some claims := by
  unfold sampleDecode at h
  split at h
  · cases h
  split at h
  · cases h
  · exact congrArg some (Except.ok.inj h)

def sampleForeign : TokenForeign where
  payload _ := some sampleClaims
  decode := sampleDecode
  decode_payload := sampleDecode_payload
  parseUuid := .ok

def sampleInput : RefreshInput := ⟨.ok (some ⟨"u1", false, 0, "admin"⟩), true, none, .ok ()⟩

def refreshSteps (i : Nat) : List (Pool.Act RefreshEvent String RefreshInput) :=
  List.replicate 5 (.turn i sampleInput)

/-- The token is exchanged ten seconds before its expiry and presented again five seconds later. -/
def presentedAgain : List (Pool.Act RefreshEvent String RefreshInput) :=
  .spawn "t1" :: refreshSteps 0 ++ .env (.advance (5 * microseconds)) :: .env .restart ::
    .spawn "t1" :: refreshSteps 1

def sampleStore : RefreshStore := ⟨990 * microseconds, [], 0⟩

theorem presented_again_refused :
    Pool.Turns (refreshes sampleForeign) (InTime "t1") ⟨sampleStore, []⟩ presentedAgain ∧
      Pool.tally (Refreshing.exchanged "t1")
        (Pool.run (refreshes sampleForeign) ⟨sampleStore, []⟩ presentedAgain) ≤ 1 :=
  ⟨by decide +kernel,
    refresh_exchanged_once sampleForeign "t1" "j1" sampleClaims rfl rfl sampleStore presentedAgain
      (by decide +kernel)⟩

/-- The token is exchanged before its expiry and presented again within the leeway behind it. The
claim of the second request is the first in a new process, so it prunes the row. -/
def presentedInLeeway : List (Pool.Act RefreshEvent String RefreshInput) :=
  .spawn "t1" :: refreshSteps 0 ++ .env (.advance (15 * microseconds)) :: .env .restart ::
    .spawn "t1" :: refreshSteps 1

theorem exchanged_twice_in_leeway :
    ¬ Pool.tally (Refreshing.exchanged "t1")
        (Pool.run (refreshes sampleForeign) ⟨sampleStore, []⟩ presentedInLeeway) ≤ 1 := by
  decide +kernel

end PingWaf.Server
