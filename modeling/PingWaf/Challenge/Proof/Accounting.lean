import PingWaf.Lib.Once
import PingWaf.Challenge.Plugin

/-!
# The accounted size of the pending challenges

The plugin keeps a count of bytes beside the table of pending challenges. A store adds the new entry
to it, but leaves in it the entry of the same request that it overwrites. The count is exact in every
state of a run if and only if no step overwrites: `accounting_exact_iff`.
-/

namespace PingWaf.Challenge

open Table Once ChallengeState

/-- What the stored entries really hold. -/
def ChallengeState.heldBytes (st : ChallengeState) : Nat := st.pending.total fun _ p => p.bytes

/-- The operations on the pending challenges. -/
inductive PendingOp where
  | store (requestId siteId originalUrl nonce : String) (now : Int)
  | peek (requestId : String) (now : Int)
  | verify (p : ChallengePlugin) (c : Primitives) (q : Visit)
  | sweep (now : Int)

def PendingOp.step (st : ChallengeState) : PendingOp → ChallengeState
  | .store requestId siteId originalUrl nonce now =>
    storePending requestId siteId originalUrl nonce now st
  | .peek requestId now => (peekPending requestId now st).2
  | .verify p c q => (p.handleVerify c q st).2
  | .sweep now => sweepPending now st

def PendingOp.run (st : ChallengeState) (ops : List PendingOp) : ChallengeState :=
  ops.foldl PendingOp.step st

/-! ## Storing -/

/-- The entry that is to be stored; a long URL gives way to the root. -/
def freshPending (siteId originalUrl nonce : String) (now : Int) : PendingChallenge :=
  let url := if pendingMaxUrlBytes < originalUrl.utf8ByteSize then "/" else originalUrl
  let entry : PendingChallenge := ⟨nonce, siteId, url, now, 0⟩
  { entry with bytes := entry.size }

/-- There is no room for the entry. -/
def Refuses (st : ChallengeState) (entry : PendingChallenge) : Prop :=
  pendingMaxEntries ≤ st.pending.size ∨ pendingMaxBytes < st.pendingBytes + entry.bytes

instance (st : ChallengeState) (entry : PendingChallenge) : Decidable (Refuses st entry) :=
  inferInstanceAs (Decidable (_ ∨ _))

theorem storePending_eq (requestId siteId originalUrl nonce : String) (now : Int)
    (st : ChallengeState) :
    storePending requestId siteId originalUrl nonce now st =
      let st := collectPending now st
      let entry := freshPending siteId originalUrl nonce now
      if Refuses st entry then st
      else { st with
        pending := st.pending.insert requestId entry
        pendingBytes := st.pendingBytes + entry.bytes } := by
  unfold storePending
  dsimp only
  by_cases hfull : pendingMaxEntries ≤ (collectPending now st).pending.size
  · rw [if_pos hfull, if_pos (.inl hfull)]
  · rw [if_neg hfull]
    by_cases hbytes : pendingMaxBytes <
        (collectPending now st).pendingBytes + (freshPending siteId originalUrl nonce now).bytes
    · rw [if_pos (show Refuses _ _ from .inr hbytes)]
      exact if_pos hbytes
    · rw [if_neg (show ¬ Refuses _ _ from not_or.mpr ⟨hfull, hbytes⟩)]
      exact if_neg hbytes

/-- The step stores an entry for a request that has one in the table. -/
def PendingOp.Overwrites (st : ChallengeState) : PendingOp → Prop
  | .store requestId siteId originalUrl nonce now =>
    ¬ Refuses (collectPending now st) (freshPending siteId originalUrl nonce now) ∧
      ((collectPending now st).pending.lookup requestId).isSome = true
  | _ => False

instance (st : ChallengeState) : DecidablePred (PendingOp.Overwrites st)
  | .store _ _ _ _ _ => inferInstanceAs (Decidable (_ ∧ _))
  | .peek _ _ => inferInstanceAs (Decidable False)
  | .verify _ _ _ => inferInstanceAs (Decidable False)
  | .sweep _ => inferInstanceAs (Decidable False)

/-! ## The steps -/

/-- The count is at least what the table holds, and every entry has a size. -/
structure Covers (st : ChallengeState) : Prop where
  held : st.heldBytes ≤ st.pendingBytes
  sized : st.pending.Each fun _ p => 0 < p.bytes

def ChallengeState.excess (st : ChallengeState) : Nat := st.pendingBytes - st.heldBytes

theorem heldBytes_erase (st : ChallengeState) (requestId : String) {p : PendingChallenge}
    (h : st.pending.lookup requestId = some p) :
    total (st.pending.erase requestId) (fun _ p => p.bytes) + p.bytes = st.heldBytes := by
  have herase := total_erase st.pending (fun _ p => p.bytes) requestId
  rw [weight_of_some h] at herase
  exact herase

section

variable {st : ChallengeState}

theorem heldBytes_removePending (h : Covers st) (requestId : String) :
    Covers (removePending requestId st) ∧ (removePending requestId st).excess = st.excess := by
  unfold removePending
  cases hlookup : st.pending.lookup requestId with
  | none => exact ⟨h, rfl⟩
  | some _ =>
    have herase := heldBytes_erase st requestId hlookup
    have hheld := h.held
    refine ⟨⟨?_, h.sized.erase requestId⟩, ?_⟩
    · simp only [heldBytes] at *
      omega
    · simp only [excess, heldBytes] at *
      omega

theorem sweepPending_exact (h : Covers st) (now : Int) :
    Covers (sweepPending now st) ∧ (sweepPending now st).excess = 0 :=
  ⟨⟨Nat.le_refl _, h.sized.retain _⟩, Nat.sub_self _⟩

theorem collectPending_covers (h : Covers st) (now : Int) :
    Covers (collectPending now st) ∧ (collectPending now st).excess ≤ st.excess := by
  unfold collectPending
  split
  · dsimp only
    have hticked : Covers { st with gcTick := st.gcTick + 1 } := ⟨h.held, h.sized⟩
    split
    · obtain ⟨hcovers, hexcess⟩ := sweepPending_exact hticked now
      exact ⟨hcovers, by rw [hexcess]; exact Nat.zero_le _⟩
    · exact ⟨hticked, Nat.le_refl _⟩
  · exact ⟨h, Nat.le_refl _⟩

def overwrittenBytes (st : ChallengeState) (requestId : String) : Nat :=
  st.pending.weight (fun _ p => p.bytes) requestId

theorem insert_covers (h : Covers st) (requestId : String) {entry : PendingChallenge}
    (hentry : 0 < entry.bytes) :
    let st' := { st with
      pending := st.pending.insert requestId entry
      pendingBytes := st.pendingBytes + entry.bytes }
    Covers st' ∧ st'.excess = st.excess + overwrittenBytes st requestId := by
  have herase := total_erase st.pending (fun _ p => p.bytes) requestId
  have hinsert := total_insert st.pending (fun _ p => p.bytes) requestId entry
  have hheld := h.held
  refine ⟨⟨?_, h.sized.insert hentry⟩, ?_⟩
  · simp only [heldBytes] at *
    omega
  · simp only [excess, heldBytes, overwrittenBytes] at *
    omega

theorem freshPending_sized (siteId originalUrl nonce : String) (now : Int) :
    0 < (freshPending siteId originalUrl nonce now).bytes := by
  simp only [freshPending, PendingChallenge.size, pendingRecordSize]
  omega

theorem overwrittenBytes_pos (h : Covers st) {requestId : String}
    (hsome : (st.pending.lookup requestId).isSome = true) : 0 < overwrittenBytes st requestId := by
  obtain ⟨p, hp⟩ := Option.isSome_iff_exists.mp hsome
  rw [overwrittenBytes, weight_of_some hp]
  exact h.sized requestId p hp

variable (st) in
theorem handleVerify_tables (p : ChallengePlugin) (c : Primitives) (q : Visit) :
    ∃ used, (p.handleVerify c q st).2 = { st with used := used } ∨
      ∃ requestId, (p.handleVerify c q st).2 = removePending requestId { st with used := used } := by
  unfold ChallengePlugin.handleVerify
  cases q.form c with
  | none => exact ⟨st.used, .inl rfl⟩
  | some form =>
    dsimp only
    unfold peekPending
    cases livePending form.requestId q.moment.unix st with
    | none => exact ⟨st.used, .inr ⟨form.requestId, rfl⟩⟩
    | some _ =>
      dsimp only
      cases p.engine.verifySolutionForPending c _ q.tls q.moment st.used with
      | mk result used =>
        cases result with
        | failed _ => exact ⟨used, .inl rfl⟩
        | success _ _ => exact ⟨used, .inr ⟨form.requestId, rfl⟩⟩

theorem step_covers (h : Covers st) (op : PendingOp) :
    Covers (op.step st) ∧ (¬ op.Overwrites st → (op.step st).excess ≤ st.excess) ∧
      (op.Overwrites st → 0 < (op.step st).excess) := by
  cases op with
  | store requestId siteId originalUrl nonce now =>
    obtain ⟨hcovers, hexcess⟩ := collectPending_covers h now
    have hentry := freshPending_sized siteId originalUrl nonce now
    obtain ⟨hinserted, hexcess'⟩ := insert_covers hcovers requestId hentry
    simp only [PendingOp.step, storePending_eq, PendingOp.Overwrites]
    by_cases hrefuse : Refuses (collectPending now st) (freshPending siteId originalUrl nonce now)
    · simp only [hrefuse, if_true, not_true, false_and, not_false_iff, false_implies, and_true,
        true_implies]
      exact ⟨hcovers, hexcess⟩
    · simp only [hrefuse, if_false, not_false_iff, true_and, hexcess']
      refine ⟨hinserted, fun hnone => ?_, fun hsome => ?_⟩
      · have hzero : overwrittenBytes (collectPending now st) requestId = 0 := by
          have hlookup : (collectPending now st).pending.lookup requestId = none := by
            simpa using hnone
          rw [overwrittenBytes, weight, hlookup]
          rfl
        omega
      · have hpos := overwrittenBytes_pos hcovers hsome
        omega
  | peek requestId now =>
    simp only [PendingOp.step, PendingOp.Overwrites, peekPending, not_false_iff, true_implies,
      false_implies, and_true]
    cases livePending requestId now st with
    | some _ => exact ⟨h, Nat.le_refl _⟩
    | none =>
      obtain ⟨hcovers, hexcess⟩ := heldBytes_removePending h requestId
      exact ⟨hcovers, hexcess.le⟩
  | verify p c q =>
    simp only [PendingOp.step, PendingOp.Overwrites, not_false_iff, true_implies, false_implies,
      and_true]
    obtain ⟨used, hsame | ⟨requestId, hremoved⟩⟩ := handleVerify_tables st p c q
    · rw [hsame]
      exact ⟨⟨h.held, h.sized⟩, Nat.le_refl _⟩
    · have hused : Covers { st with used := used } := ⟨h.held, h.sized⟩
      obtain ⟨hcovers, hexcess⟩ := heldBytes_removePending hused requestId
      rw [hremoved]
      exact ⟨hcovers, hexcess.le⟩
  | sweep now =>
    simp only [PendingOp.step, PendingOp.Overwrites, not_false_iff, true_implies, false_implies,
      and_true]
    obtain ⟨hcovers, hexcess⟩ := sweepPending_exact h now
    exact ⟨hcovers, by rw [hexcess]; exact Nat.zero_le _⟩

end

/-! ## Runs -/

/-- What the count is for: it is the size of the table, no removal takes it below zero, and an entry
is refused for its size only if it does not fit. -/
structure Accounted (st : ChallengeState) : Prop where
  exact : st.pendingBytes = st.heldBytes
  fits : st.pending.Each fun _ p => p.bytes ≤ st.pendingBytes
  refused : ∀ now entry, (collectPending now st).pending.size < pendingMaxEntries →
    Refuses (collectPending now st) entry →
      pendingMaxBytes < (collectPending now st).heldBytes + entry.bytes

variable {st : ChallengeState}

theorem Covers.bytes_le (h : Covers st) : st.pending.Each fun _ p => p.bytes ≤ st.pendingBytes := by
  intro requestId p hp
  have herase := heldBytes_erase st requestId hp
  have hheld := h.held
  omega

theorem Covers.exact (h : Covers st) (hexcess : st.excess = 0) :
    st.pendingBytes = st.heldBytes := by
  have hheld := h.held
  unfold excess at hexcess
  omega

theorem Covers.accounted (h : Covers st) (hexcess : st.excess = 0) : Accounted st := by
  refine ⟨h.exact hexcess, h.bytes_le, fun now entry hroom hrefuse => ?_⟩
  obtain ⟨hcovers, hle⟩ := collectPending_covers h now
  rw [← hcovers.exact (by omega)]
  exact hrefuse.resolve_left (Nat.not_le.mpr hroom)

theorem covers_start (hempty : st.pending = ∅) : Covers st := by
  have hnone : ∀ id, st.pending.lookup id = none := fun id => by rw [hempty, AList.lookup_empty]
  refine ⟨?_, by rw [hempty]; exact each_empty⟩
  rw [heldBytes, total_eq_zero hnone]
  exact Nat.zero_le _

theorem accounted_step_iff (h : Covers st) (hacc : Accounted st) (op : PendingOp) :
    Accounted (op.step st) ↔ ¬ op.Overwrites st := by
  obtain ⟨hcovers, hle, hpos⟩ := step_covers h op
  have hexcess : st.excess = 0 := by rw [excess, hacc.exact, Nat.sub_self]
  constructor
  · intro hnext hover
    have hexact := hnext.exact
    have hahead := hpos hover
    unfold excess at hahead
    omega
  · intro hover
    have hle := hle hover
    exact hcovers.accounted (by omega)

/-- From an empty table, the accounts are right in every state of a run exactly if no step of the run
stores an entry over another one. -/
theorem accounting_exact_iff {st : ChallengeState} (hempty : st.pending = ∅)
    (hzero : st.pendingBytes = 0) (ops : List PendingOp) :
    (∀ done, done <+: ops → Accounted (PendingOp.run st done)) ↔
      Along PendingOp.step (fun st op => ¬ op.Overwrites st) st ops := by
  have hstart : Covers st := covers_start hempty
  have hexcess : st.excess = 0 := by rw [ChallengeState.excess, hzero, Nat.zero_sub]
  exact forall_states_iff (fun st op h => (step_covers h op).1)
    (fun st op h hacc => accounted_step_iff h hacc op) hstart (hstart.accounted hexcess)

def idleState : ChallengeState := ⟨∅, 0, ∅, ∅, 0⟩

def shopChallenge (requestId : String) : PendingOp := .store requestId "shop" "/" "nonce" 1000

theorem distinct_requests_accounted :
    idleState.pending = ∅ ∧ idleState.pendingBytes = 0 ∧
      ∀ done, done <+: [shopChallenge "r1", shopChallenge "r2"] →
        Accounted (PendingOp.run idleState done) :=
  ⟨rfl, rfl, (accounting_exact_iff rfl rfl _).mpr (by decide +kernel)⟩

/-- The request is challenged twice; the table holds one entry, the count has two. -/
theorem repeated_request_counted_twice :
    (PendingOp.run idleState [shopChallenge "r1", shopChallenge "r1"]).pendingBytes = 196 ∧
      (PendingOp.run idleState [shopChallenge "r1", shopChallenge "r1"]).heldBytes = 98 := by
  decide +kernel

end PingWaf.Challenge
