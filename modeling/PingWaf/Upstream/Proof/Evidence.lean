import PingWaf.Upstream.Breaker

/-!
# What closes a half-open breaker

The counter of consecutive successes is not that of an episode. Where no other success gets into it
while the breaker is not closed, only the successes of the episode's own requests close the breaker
(`Fresh.step`). Otherwise late answers to requests from before it tripped can.
-/

namespace PingWaf.Upstream

open Once

/-- The newest outcomes in a row that are successes of the episode's requests. -/
def freshRun (episode : Nat) (outcomes : List Evidence) : Nat :=
  (outcomes.takeWhile fun o => !o.failure && o.episode == some episode).length

/-- While the breaker is not closed, a success is that of a request of the current half-open
episode, and an episode that ends for lack of answers had no success. -/
def Attributed (conf : UpstreamConf) (b : Backend) : Event → Prop
  | .ask now =>
    b.breaker.currentState = .halfOpen → b.breaker.data.halfOpenUntil ≤ now →
      b.counters.successes = 0
  | .finish request _ outcome _ =>
    b.sent[request]?.all fun sent =>
      sent.answered || outcome.isFailure conf.failureStatusCodes ||
        b.breaker.currentState = .closed ||
        (b.breaker.currentState = .halfOpen && sent.episode = some b.episode)
  | _ => True

instance (conf : UpstreamConf) (b : Backend) : ∀ e, Decidable (Attributed conf b e)
  | .ask now => inferInstanceAs (Decidable (_ → b.breaker.data.halfOpenUntil ≤ now → _))
  | .finish _ _ _ _ => inferInstanceAs (Decidable (_ = true))
  | .fallback => .isTrue trivial
  | .forget => .isTrue trivial

/-- The counter of successes holds nothing but those of the current episode. -/
structure Fresh (b : Backend) : Prop where
  opened : b.breaker.currentState = .opened → b.counters.successes = 0
  halfOpen : b.breaker.currentState = .halfOpen →
    b.counters.successes ≤ freshRun b.episode b.outcomes

variable {conf : UpstreamConf} {b : Backend} {e : Event} {events : List Event}

theorem fresh_new (now : Nat) : Fresh (.new now) where
  opened hs := by cases hs
  halfOpen hs := by cases hs

theorem Fresh.of_zero (h : b.counters.successes = 0) : Fresh b :=
  ⟨fun _ => h, fun _ => h ▸ Nat.zero_le _⟩

theorem Fresh.of_closed (h : b.breaker.currentState = .closed) : Fresh b where
  opened hs := by rw [h] at hs; cases hs
  halfOpen hs := by rw [h] at hs; cases hs

theorem Fresh.of_halfOpen (h : b.breaker.currentState = .halfOpen)
    (hle : b.counters.successes ≤ freshRun b.episode b.outcomes) : Fresh b where
  opened hs := by rw [h] at hs; cases hs
  halfOpen _ := hle

/-! ## The breaker is asked -/

theorem ask_halfOpen {now : Nat} (hs : b.breaker.currentState = .halfOpen) :
    (b.ask conf now).episode = b.episode ∧
      (b.ask conf now).breaker.currentState =
        if b.breaker.data.halfOpenUntil ≤ now then .opened else .halfOpen := by
  refine ⟨by simp [Backend.ask, hs], ?_⟩
  simp only [Backend.ask, isBackendAcceptable, hs, checkHalfOpenState]
  split
  · rfl
  · split
    · rfl
    · exact hs

theorem Fresh.ask {now : Nat} (hok : Attributed conf b (.ask now)) (h : Fresh b) :
    Fresh (b.ask conf now) := by
  cases hs : b.breaker.currentState with
  | closed =>
    refine .of_closed ?_
    simp [Backend.ask, isBackendAcceptable, hs]
  | opened => exact .of_zero (h.opened hs)
  | halfOpen =>
    obtain ⟨hepisode, hstate⟩ : (b.ask conf now).episode = b.episode ∧ _ := ask_halfOpen hs
    by_cases hlate : b.breaker.data.halfOpenUntil ≤ now
    · exact .of_zero (hok hs hlate)
    · rw [if_neg hlate] at hstate
      refine .of_halfOpen hstate ?_
      rw [hepisode]
      exact h.halfOpen hs

/-! ## A request ends -/

section Finish

variable {request now : Nat} {outcome : Outcome} {window : WindowStats} {tag : Option Nat}

theorem finish_of_sent (hsent : b.sent[request]? = some ⟨tag, false⟩) :
    b.finish conf request now outcome window =
      { b with
        counters := b.counters.record (outcome.isFailure conf.failureStatusCodes)
        breaker := updateStateAfterRequest conf.breaker now
          (outcome.isFailure conf.failureStatusCodes)
          ⟨b.counters.record (outcome.isFailure conf.failureStatusCodes), window⟩ b.breaker
        sent := b.sent.set request ⟨tag, true⟩
        outcomes := ⟨tag, outcome.isFailure conf.failureStatusCodes⟩ :: b.outcomes } := by
  unfold Backend.finish
  rw [hsent]

theorem finish_or (b : Backend) (request : Nat) :
    (∃ tag, b.sent[request]? = some ⟨tag, false⟩) ∨
      ∀ conf now outcome window, b.finish conf request now outcome window = b := by
  unfold Backend.finish
  cases hsent : b.sent[request]? with
  | none => exact .inr fun _ _ _ _ => rfl
  | some sent =>
    obtain ⟨tag, answered⟩ := sent
    cases answered with
    | false => exact .inl ⟨tag, rfl⟩
    | true => exact .inr fun _ _ _ _ => rfl

theorem Attributed.of_success (hok : Attributed conf b (.finish request now outcome window))
    (hsent : b.sent[request]? = some ⟨tag, false⟩)
    (hsuccess : outcome.isFailure conf.failureStatusCodes = false) :
    b.breaker.currentState = .closed ∨
      b.breaker.currentState = .halfOpen ∧ tag = some b.episode := by
  unfold Attributed at hok
  simpa [hsent, hsuccess] using hok

theorem Fresh.success (h : Fresh b) (hs : b.breaker.currentState = .halfOpen) :
    (b.counters.record false).successes ≤
      freshRun b.episode (⟨some b.episode, false⟩ :: b.outcomes) := by
  have hrecord : (b.counters.record false).successes ≤ b.counters.successes + 1 := Nat.mod_le _ _
  have hfresh := h.halfOpen hs
  have hcons : freshRun b.episode (⟨some b.episode, false⟩ :: b.outcomes) =
      freshRun b.episode b.outcomes + 1 := by
    simp [freshRun]
  omega

theorem Fresh.finish (hok : Attributed conf b (.finish request now outcome window))
    (h : Fresh b) : Fresh (b.finish conf request now outcome window) := by
  rcases finish_or b request with ⟨tag, hsent⟩ | hsame
  · rw [finish_of_sent hsent]
    cases hsuccess : outcome.isFailure conf.failureStatusCodes with
    | true => exact .of_zero rfl
    | false =>
      rcases hok.of_success hsent hsuccess with hs | ⟨hs, rfl⟩
      · refine .of_closed ?_
        simp [updateStateAfterRequest, hs]
      · -- The breaker closes on this success or waits for more.
        by_cases hcloses : conf.breaker.halfOpenConsecutiveSuccessThreshold ≤
            (b.counters.record false).successes
        · refine .of_closed ?_
          simp [updateStateAfterRequest, hs, hcloses]
        · refine .of_halfOpen ?_ (h.success hs)
          simp [updateStateAfterRequest, hs, hcloses]
  · rw [hsame]
    exact h

theorem Fresh.closes_finish (hok : Attributed conf b (.finish request now outcome window))
    (h : Fresh b) (hs : b.breaker.currentState = .halfOpen)
    (hclosed : (b.finish conf request now outcome window).breaker.currentState = .closed) :
    max 1 conf.breaker.halfOpenConsecutiveSuccessThreshold ≤
      freshRun b.episode (b.finish conf request now outcome window).outcomes := by
  rcases finish_or b request with ⟨tag, hsent⟩ | hsame
  · rw [finish_of_sent hsent] at hclosed ⊢
    cases hsuccess : outcome.isFailure conf.failureStatusCodes with
    | true => simp [hsuccess, updateStateAfterRequest, hs] at hclosed
    | false =>
      rcases hok.of_success hsent hsuccess with hs' | ⟨-, rfl⟩
      · rw [hs] at hs'
        cases hs'
      · have hthreshold : conf.breaker.halfOpenConsecutiveSuccessThreshold ≤
            (b.counters.record false).successes := by
          by_contra hless
          simp [hsuccess, updateStateAfterRequest, hs, hless] at hclosed
        have hone : 1 ≤ freshRun b.episode (⟨some b.episode, false⟩ :: b.outcomes) := by
          simp [freshRun]
        exact max_le hone (hthreshold.trans (h.success hs))
  · rw [hsame, hs] at hclosed
    cases hclosed

end Finish

/-! ## Histories -/

theorem Fresh.step (hok : Attributed conf b e) (h : Fresh b) : Fresh (b.step conf e) := by
  cases e with
  | ask _ => exact h.ask hok
  | fallback => exact ⟨h.opened, h.halfOpen⟩
  | finish _ _ _ _ => exact h.finish hok
  | forget => exact .of_zero rfl

theorem Fresh.closes (hok : Attributed conf b e) (h : Fresh b)
    (hs : b.breaker.currentState = .halfOpen)
    (hclosed : (b.step conf e).breaker.currentState = .closed) :
    max 1 conf.breaker.halfOpenConsecutiveSuccessThreshold ≤
      freshRun b.episode (b.step conf e).outcomes := by
  cases e with
  | ask now =>
    have hstate : (b.ask conf now).breaker.currentState = _ := (ask_halfOpen hs).2
    rw [show (b.ask conf now).breaker.currentState = .closed from hclosed] at hstate
    split at hstate <;> cases hstate
  | fallback =>
    rw [show b.breaker.currentState = .closed from hclosed] at hs
    cases hs
  | finish _ _ _ _ => exact h.closes_finish hok hs hclosed
  | forget =>
    rw [show b.breaker.currentState = .closed from hclosed] at hs
    cases hs

/-- In any history in which, while the breaker is not closed, successes come from requests of the
current half-open episode only and no episode with a success ends for lack of answers, a half-open
breaker closes only on successes in a row of its episode's own requests, at least as many as
configured and at least one. -/
theorem fresh_evidence_closes (conf : UpstreamConf) (start : Nat) (events : List Event) (e : Event)
    (hevents : Along (Backend.step conf) (Attributed conf) (.new start) (events ++ [e]))
    (hhalf : ((Backend.new start).run conf events).breaker.currentState = .halfOpen)
    (hclosed : ((Backend.new start).run conf (events ++ [e])).breaker.currentState = .closed) :
    max 1 conf.breaker.halfOpenConsecutiveSuccessThreshold ≤
      freshRun ((Backend.new start).run conf events).episode
        ((Backend.new start).run conf (events ++ [e])).outcomes := by
  obtain ⟨hbefore, hok⟩ := hevents.of_append
  have hfresh : Fresh ((Backend.new start).run conf events) :=
    hbefore.keeps (fun _ _ hok h => h.step hok) (fresh_new start)
  have hlast : (Backend.new start).run conf (events ++ [e]) =
      ((Backend.new start).run conf events).step conf e := by
    unfold Backend.run
    rw [List.foldl_append]
    rfl
  rw [hlast] at hclosed ⊢
  exact hfresh.closes hok.1 hhalf hclosed

def touchyUpstream : UpstreamConf := ⟨⟨1, 0, 1, 2, 10⟩, []⟩

def ended (request now status : Nat) : Event := .finish request now (.response status) ⟨0, 0⟩

/-- Two probes succeed. -/
theorem two_probes_close :
    let events := [.ask 0, ended 0 1 500, .ask 11, .ask 12, ended 1 13 200]
    ((Backend.new 0).run touchyUpstream (events ++ [ended 2 14 200])).breaker.currentState =
        .closed ∧
      max 1 2 ≤ freshRun ((Backend.new 0).run touchyUpstream events).episode
        ((Backend.new 0).run touchyUpstream (events ++ [ended 2 14 200])).outcomes :=
  ⟨by decide +kernel, fresh_evidence_closes touchyUpstream 0
    [.ask 0, ended 0 1 500, .ask 11, .ask 12, ended 1 13 200] (ended 2 14 200) (by decide +kernel)
    (by decide +kernel) (by decide +kernel)⟩

/-- Two requests from before the trip are answered while the breaker is half-open: it closes without
a success of its probe. And an episode that ended for lack of answers leaves its one success to the
next, which closes on its first. -/
theorem stale_evidence_closes :
    let late := [.ask 0, .ask 0, .ask 0, ended 0 1 500, .ask 11, ended 1 12 200]
    let left := [.ask 0, ended 0 1 500, .ask 11, .ask 12, ended 1 13 200, .ask 21, .ask 31]
    let closing (events : List Event) (e : Event) : Option Nat :=
      let before := (Backend.new 0).run touchyUpstream events
      let after := (Backend.new 0).run touchyUpstream (events ++ [e])
      if before.breaker.currentState = .halfOpen ∧ after.breaker.currentState = .closed then
        some (freshRun before.episode after.outcomes)
      else none
    closing late (ended 2 13 200) = some 0 ∧ closing left (ended 3 32 200) = some 1 := by
  decide +kernel

end PingWaf.Upstream
