import PingWaf.Lib.Decimal
import PingWaf.Lib.Once
import PingWaf.Challenge.Plain

/-!
# Nonces are used once

The engines of one process share the table of used nonces. The table is keyed by the text that was
submitted, and a call drops the entries that are older than its own engine's lifetime. The invariant
is `Spent`: the nonce is in the table, or no engine will accept it again.
-/

namespace PingWaf.Challenge

open Text Option ChallengeEngine

variable {c : Primitives} {secret : List UInt8} {nonce : String} {maxAge now : Int}

/-! ## Nonces and their spellings -/

/-- What the signature covers: the random part and the time of issue as a number. -/
def nonceIdentity (nonce : String) : Option (String × Int) :=
  (nonceParts nonce).bind fun parts =>
    (parseI64 parts.issuedAt).map fun issuedAt => (parts.random, issuedAt)

/-- The time of issue is spelled as `issueNonce` spells it. -/
def spelledAsIssued (nonce : String) : Prop :=
  ∀ parts, nonceParts nonce = some parts → ∀ issuedAt, parseI64 parts.issuedAt = some issuedAt →
    parts.issuedAt = toString issuedAt

theorem nonceParts_text {parts : NonceParts} (h : nonceParts nonce = some parts) :
    nonce = parts.random ++ "." ++ parts.issuedAt ++ "." ++ parts.signature := by
  obtain ⟨⟨front, signature⟩, hlast, hrest⟩ := bind_eq_some_iff.mp h
  obtain ⟨⟨random, issuedAt⟩, hfirst, rfl⟩ := map_eq_some_iff.mp hrest
  have hnonce := rsplitOnce_eq_some hlast
  have hfront := rsplitOnce_eq_some hfirst
  apply String.toList_inj.mp
  rw [hnonce, hfront]
  simp

theorem verifyNonce_iff :
    verifyNonce c secret nonce maxAge now = true ↔
      ∃ parts issuedAt, nonceParts nonce = some parts ∧ parts.random ≠ "" ∧
        parts.signature ≠ "" ∧ parseI64 parts.issuedAt = some issuedAt ∧ issuedAt ≤ now + 30 ∧
        min (now - issuedAt) i64Max ≤ maxAge ∧
        nonceSignature c secret (parts.random ++ "." ++ toString issuedAt) = parts.signature := by
  unfold verifyNonce
  cases hp : nonceParts nonce with
  | none => simp
  | some parts =>
    cases ht : parseI64 parts.issuedAt with
    | none => simp [ht]
    | some _ =>
      simp [ht, and_assoc]

theorem verifyNonce_stays_false {maxAge' before later : Int}
    (hacc : verifyNonce c secret nonce maxAge before = true) (hbefore : before ≤ now)
    (hrej : verifyNonce c secret nonce maxAge' now = false) (hlater : now ≤ later) :
    verifyNonce c secret nonce maxAge' later = false := by
  obtain ⟨parts, issuedAt, hp, hr, hs, ht, hskew, -, hsig⟩ := verifyNonce_iff.mp hacc
  have hold : ¬ min (now - issuedAt) i64Max ≤ maxAge' := fun h => by
    rw [verifyNonce_iff.mpr ⟨parts, issuedAt, hp, hr, hs, ht, by omega, h, hsig⟩] at hrej
    cases hrej
  rw [Bool.eq_false_iff]
  intro hlate
  obtain ⟨parts', issuedAt', hp', -, -, ht', -, hage', -⟩ := verifyNonce_iff.mp hlate
  obtain rfl : parts = parts' := Option.some.inj (hp.symm.trans hp')
  obtain rfl : issuedAt = issuedAt' := Option.some.inj (ht.symm.trans ht')
  omega

theorem canonical_text {random : String} {issuedAt : Int}
    (hacc : verifyNonce c secret nonce maxAge now = true)
    (hid : nonceIdentity nonce = some (random, issuedAt)) (hspell : spelledAsIssued nonce) :
    nonce = random ++ "." ++ toString issuedAt ++ "." ++
      nonceSignature c secret (random ++ "." ++ toString issuedAt) := by
  obtain ⟨parts, t, hp, -, -, ht, -, -, hsig⟩ := verifyNonce_iff.mp hacc
  rw [nonceIdentity, hp, bind_some, ht, map_some] at hid
  obtain ⟨rfl, rfl⟩ := Prod.mk.inj (Option.some.inj hid)
  rw [hsig]
  have := nonceParts_text hp
  rwa [hspell parts hp t ht] at this

/-! ## The table of used nonces -/

section

variable {ttlSecs instant seen : Nat} {used : UsedNonces} {other : String}

/-- An entry of that instant has aged out. -/
def outlived (ttlSecs instant seen : Nat) : Prop := ttlSecs * 1000 ≤ instant - seen

theorem lookup_retained (h : used.lookup nonce = some seen) (hk : ¬ outlived ttlSecs instant seen) :
    (used.retain fun _ seen => instant - seen < ttlSecs * 1000).lookup nonce = some seen := by
  apply Table.lookup_retain_of_some h
  unfold outlived at hk
  simp only [decide_eq_true_eq]
  omega

theorem consumeNonce_keeps (h : used.lookup other = some seen)
    (hk : ¬ outlived ttlSecs instant seen) :
    ((consumeNonce nonce ttlSecs instant used).2.lookup other).isSome = true := by
  have hret := lookup_retained h hk
  unfold consumeNonce
  dsimp only
  split
  · simp [hret]
  · by_cases hn : other = nonce
    · subst hn
      simp
    · rw [AList.lookup_insert_ne hn, hret]
      rfl

theorem consumeNonce_inserts (h : (consumeNonce nonce ttlSecs instant used).1 = true) :
    ((consumeNonce nonce ttlSecs instant used).2.lookup nonce).isSome = true := by
  unfold consumeNonce at h ⊢
  dsimp only at h ⊢
  split at h
  · cases h
  · next hf => simp [hf]

theorem consumeNonce_fresh (h : (consumeNonce nonce ttlSecs instant used).1 = true)
    (hseen : used.lookup nonce = some seen) : outlived ttlSecs instant seen := by
  by_contra hk
  unfold consumeNonce at h
  simp [lookup_retained hseen hk] at h

end

/-! ## Runs -/

/-- One call of `verifySolution`. -/
structure SolveCall where
  engine : ChallengeEngine
  submission : ChallengeSubmission
  secure : Bool
  moment : Moment

/-- The state of the process: its table, and the clock at the last call. -/
structure Ledger where
  used : UsedNonces
  clock : Int

def Ledger.start (clock : Int) : Ledger := ⟨∅, clock⟩

def SolveCall.run (c : Primitives) (l : Ledger) (call : SolveCall) : VerifyResult × UsedNonces :=
  call.engine.verifySolution c call.submission call.secure call.moment l.used

def SolveCall.step (c : Primitives) (l : Ledger) (call : SolveCall) : Ledger :=
  ⟨(call.run c l).2, call.moment.unix⟩

/-- The call succeeds with the nonce, in whatever spelling. -/
def SolveCall.accepts (c : Primitives) (issued : String) (l : Ledger) (call : SolveCall) : Bool :=
  (call.run c l).1.succeeds && nonceIdentity call.submission.challengeNonce = nonceIdentity issued

/-- The engine accepts the nonce as far as its signature and its age go. -/
def ChallengeEngine.takes (c : Primitives) (e : ChallengeEngine) (nonce : String) (now : Int) :
    Bool :=
  verifyNonce c (utf8Encode e.config.cookieSecret) nonce e.config.submissionMaxAgeSecs now

/-- The calls go to engines of the process, on a clock that does not run backwards. -/
structure SolveCall.Legal (engines : List ChallengeEngine) (l : Ledger) (call : SolveCall) :
    Prop where
  engine_mem : call.engine ∈ engines
  clock_le : l.clock ≤ call.moment.unix

/-- The call, where its engine takes the nonce, spells it as it was issued and drops only entries
that no engine of the process takes any more. -/
structure SolveCall.LeavesNoGap (c : Primitives) (engines : List ChallengeEngine) (l : Ledger)
    (call : SolveCall) : Prop where
  spelled : call.engine.takes c call.submission.challengeNonce call.moment.unix = true →
    spelledAsIssued call.submission.challengeNonce
  dropped : call.engine.takes c call.submission.challengeNonce call.moment.unix = true →
    ∀ nonce seen, l.used.lookup nonce = some seen →
      outlived call.engine.nonceTtlSecs call.moment.instant seen →
      ∀ e ∈ engines, e.takes c nonce call.moment.unix = false

theorem SolveCall.run_cases (c : Primitives) (l : Ledger) (call : SolveCall) :
    ((call.run c l).1.succeeds = false ∧ (call.run c l).2 = l.used) ∨
    (call.engine.takes c call.submission.challengeNonce call.moment.unix = true ∧
      (call.run c l).1.succeeds = (consumeNonce call.submission.challengeNonce
        call.engine.nonceTtlSecs call.moment.instant l.used).1 ∧
      (call.run c l).2 = (consumeNonce call.submission.challengeNonce
        call.engine.nonceTtlSecs call.moment.instant l.used).2) := by
  unfold SolveCall.run verifySolution verifySolutionInner
  cases hpre : call.engine.precheck c call.submission true call.moment.unix with
  | error _ => exact .inl ⟨rfl, rfl⟩
  | ok _ =>
    refine .inr ⟨?_, ?_⟩
    · unfold precheck at hpre
      unfold takes
      by_contra htake
      rw [Bool.not_eq_true] at htake
      simp only [htake, Bool.true_and, Bool.not_false, if_true] at hpre
      split at hpre <;> cases hpre
    · simp only
      split
      · next heq => rw [heq]; exact ⟨rfl, rfl⟩
      · next heq => rw [heq]; exact ⟨rfl, rfl⟩

/-! ## The invariant -/

/-- The nonce was taken before, and it is in the table or no engine takes it from now on. -/
structure Spent (c : Primitives) (engines : List ChallengeEngine) (secret : String)
    (nonce : String) (l : Ledger) : Prop where
  taken : ∃ maxAge before, before ≤ l.clock ∧
    verifyNonce c (utf8Encode secret) nonce maxAge before = true
  closed : (l.used.lookup nonce).isSome = true ∨
    ∀ e ∈ engines, ∀ later, l.clock ≤ later → e.takes c nonce later = false

section

variable {engines : List ChallengeEngine} {shared : String} {l : Ledger} {call : SolveCall}
  (hshared : ∀ e ∈ engines, e.config.cookieSecret = shared)

include hshared

theorem Spent.step (hlegal : call.Legal engines l) (hgap : call.LeavesNoGap c engines l)
    (h : Spent c engines shared nonce l) : Spent c engines shared nonce (call.step c l) := by
  obtain ⟨maxAge, before, hbefore, hacc⟩ := h.taken
  have hclock := hlegal.clock_le
  refine ⟨⟨maxAge, before, le_trans hbefore hclock, hacc⟩, ?_⟩
  rcases h.closed with hin | hdead
  · obtain ⟨seen, hseen⟩ := isSome_iff_exists.mp hin
    rcases call.run_cases c l with ⟨-, hsame⟩ | ⟨htakes, -, htable⟩
    · exact .inl (by rw [SolveCall.step, hsame]; exact hin)
    · by_cases hout : outlived call.engine.nonceTtlSecs call.moment.instant seen
      · -- the entry goes, but only because nobody takes the nonce any more
        refine .inr fun e he later hlater => ?_
        have hnow := hgap.dropped htakes nonce seen hseen hout e he
        unfold takes at hnow ⊢
        rw [hshared e he] at hnow ⊢
        exact verifyNonce_stays_false hacc (le_trans hbefore hclock) hnow hlater
      · refine .inl ?_
        rw [SolveCall.step, htable]
        exact consumeNonce_keeps hseen hout
  · exact .inr fun e he later hlater => hdead e he later (le_trans hclock hlater)

omit hshared in
theorem Spent.not_accepted (hlegal : call.Legal engines l) (hgap : call.LeavesNoGap c engines l)
    (h : Spent c engines shared call.submission.challengeNonce l) :
    (call.run c l).1.succeeds = false := by
  rcases call.run_cases c l with ⟨hfail, -⟩ | ⟨htakes, hres, -⟩
  · exact hfail
  · rw [Bool.eq_false_iff]
    intro hs
    rw [hres] at hs
    have hnot : call.engine.takes c call.submission.challengeNonce call.moment.unix = false := by
      rcases h.closed with hin | hdead
      · obtain ⟨seen, hseen⟩ := isSome_iff_exists.mp hin
        exact hgap.dropped htakes _ seen hseen (consumeNonce_fresh hs hseen) _ hlegal.engine_mem
      · exact hdead _ hlegal.engine_mem _ hlegal.clock_le
    rw [htakes] at hnot
    cases hnot

theorem Spent.of_accepted (hlegal : call.Legal engines l)
    (hs : (call.run c l).1.succeeds = true) :
    Spent c engines shared call.submission.challengeNonce (call.step c l) := by
  rcases call.run_cases c l with ⟨hfail, -⟩ | ⟨htakes, hres, htable⟩
  · rw [hfail] at hs
    cases hs
  · refine ⟨⟨call.engine.config.submissionMaxAgeSecs, call.moment.unix, le_refl _, ?_⟩, .inl ?_⟩
    · unfold takes at htakes
      rwa [hshared _ hlegal.engine_mem] at htakes
    · rw [SolveCall.step, htable]
      exact consumeNonce_inserts (hres ▸ hs)

theorem accepted_text (issued : String) (hlegal : call.Legal engines l)
    (hgap : call.LeavesNoGap c engines l) (hacc : call.accepts c issued l = true) :
    ∃ random issuedAt, nonceIdentity issued = some (random, issuedAt) ∧
      call.submission.challengeNonce = random ++ "." ++ toString issuedAt ++ "." ++
        nonceSignature c (utf8Encode shared) (random ++ "." ++ toString issuedAt) := by
  unfold SolveCall.accepts at hacc
  rw [Bool.and_eq_true, decide_eq_true_iff] at hacc
  rcases call.run_cases c l with ⟨hfail, -⟩ | ⟨htakes, -, -⟩
  · rw [hfail] at hacc
    cases hacc.1
  · have hspell := hgap.spelled htakes
    unfold takes at htakes
    rw [hshared _ hlegal.engine_mem] at htakes
    obtain ⟨parts, t, hp, -, -, ht, -, -, -⟩ := verifyNonce_iff.mp htakes
    have hid : nonceIdentity call.submission.challengeNonce = some (parts.random, t) := by
      rw [nonceIdentity, hp, bind_some, ht, map_some]
    exact ⟨parts.random, t, hacc.2 ▸ hid, canonical_text htakes hid hspell⟩

end

/-- In a run that leaves no gap, the engines of a process accept the spellings of an issued nonce at
most once, whatever their lifetimes. -/
theorem nonce_accepted_once (c : Primitives) (engines : List ChallengeEngine) (shared : String)
    (octets : List UInt8) (issuedAt start : Int) (calls : List SolveCall)
    (hshared : ∀ e ∈ engines, e.config.cookieSecret = shared)
    (hlegal : Once.Along (SolveCall.step c) (fun l call => call.Legal engines l)
      (.start start) calls)
    (hgap : Once.Along (SolveCall.step c) (fun l call => call.LeavesNoGap c engines l)
      (.start start) calls) :
    Once.hits (SolveCall.step c)
      (fun l call => call.accepts c (issueNonce c (utf8Encode shared) octets issuedAt) l)
      (.start start) calls ≤ 1 := by
  have hrun := Once.along_and hlegal hgap
  generalize issueNonce c (utf8Encode shared) octets issuedAt = issued at *
  -- the state predicate: whatever text a further call would be accepted with is spent
  refine Once.hits_le_one (P := fun l => ∃ nonce, Spent c engines shared nonce l ∧
    ∃ random t, nonceIdentity issued = some (random, t) ∧
      nonce = random ++ "." ++ toString t ++ "." ++
        nonceSignature c (utf8Encode shared) (random ++ "." ++ toString t)) ?_ ?_ hrun
  · rintro l call ⟨hl, hg⟩ ⟨nonce, hspent, random, t, hid, hnonce⟩
    refine ⟨?_, nonce, hspent.step hshared hl hg, random, t, hid, hnonce⟩
    rw [Bool.eq_false_iff]
    intro hacc
    obtain ⟨random', t', hid', htext⟩ := accepted_text hshared issued hl hg hacc
    obtain ⟨rfl, rfl⟩ := Prod.mk.inj (Option.some.inj (hid.symm.trans hid'))
    rw [← htext] at hnonce
    subst hnonce
    have hfail := hspent.not_accepted hl hg
    unfold SolveCall.accepts at hacc
    rw [hfail] at hacc
    cases hacc
  · rintro l call ⟨hl, hg⟩ hacc
    obtain ⟨random, t, hid, htext⟩ := accepted_text hshared issued hl hg hacc
    unfold SolveCall.accepts at hacc
    rw [Bool.and_eq_true] at hacc
    exact ⟨_, Spent.of_accepted hshared hl hacc.1, random, t, hid, htext⟩

/-! ## Replays -/

/-- An engine that asks for no work, with a lifetime of five minutes. -/
def idleEngine : ChallengeEngine :=
  ⟨⟨true, false, .nonInteractive, 1800, [], [], 100, false, "k", clearanceCookieName, 0, 300⟩⟩

def pageNonce : String := issueNonce Primitives.plain (utf8Encode "k") [10] 1000

def submitAfter (nonce : String) (secs : Nat) : SolveCall :=
  ⟨idleEngine, ⟨nonce, "0", "", 1000 + secs, "shop.example.com"⟩, true,
    ⟨1000 + secs, secs * 1000, "s", "n"⟩⟩

theorem pageNonce_spelled : spelledAsIssued pageNonce := by
  have hparts : (nonceParts pageNonce).map (·.issuedAt) = some "1000" := by decide +kernel
  intro parts hp t ht
  rw [hp, map_some] at hparts
  have htext := Option.some.inj hparts
  rw [htext] at ht ⊢
  obtain rfl : (1000 : Int) = t := Option.some.inj ((by decide : some (1000 : Int) = _).trans ht)
  rfl

theorem submitAfter_leavesNoGap (l : Ledger) {secs : Nat} (h : secs < 300) :
    (submitAfter pageNonce secs).LeavesNoGap Primitives.plain [idleEngine] l where
  spelled _ := pageNonce_spelled
  dropped _ nonce seen _ hout := by
    have httl : (submitAfter pageNonce secs).engine.nonceTtlSecs = 300 := rfl
    have hinstant : (submitAfter pageNonce secs).moment.instant = secs * 1000 := rfl
    rw [httl, hinstant] at hout
    unfold outlived at hout
    omega

/-- The same text twice within a minute. -/
theorem nonce_accepted_once_in_a_minute :
    Once.hits (SolveCall.step Primitives.plain)
      (fun l call => call.accepts Primitives.plain
        (issueNonce Primitives.plain (utf8Encode "k") [10] 1000) l)
      (.start 1000) [submitAfter pageNonce 5, submitAfter pageNonce 60] ≤ 1 :=
  nonce_accepted_once Primitives.plain [idleEngine] "k" [10] 1000 1000 _
    (by intro e he; rw [List.mem_singleton.mp he]; rfl)
    ⟨⟨List.mem_singleton.mpr rfl, by decide⟩, ⟨List.mem_singleton.mpr rfl, by decide⟩, trivial⟩
    ⟨submitAfter_leavesNoGap _ (by decide), submitAfter_leavesNoGap _ (by decide), trivial⟩

/-- The issue time of the page's nonce with a plus sign in front. -/
def respelledNonce : String :=
  "0a.+1000." ++ nonceSignature Primitives.plain (utf8Encode "k") "0a.1000"

/-- With another spelling of the same time of issue, the nonce is accepted a second time. -/
theorem respelled_nonce_accepted_twice :
    Once.Along (SolveCall.step Primitives.plain) (fun l call => call.Legal [idleEngine] l)
      (.start 1000) [submitAfter pageNonce 5, submitAfter respelledNonce 60] ∧
    Once.hits (SolveCall.step Primitives.plain)
      (fun l call => call.accepts Primitives.plain pageNonce l)
      (.start 1000) [submitAfter pageNonce 5, submitAfter respelledNonce 60] = 2 := by
  refine ⟨⟨⟨List.mem_singleton.mpr rfl, by decide⟩, ⟨List.mem_singleton.mpr rfl, by decide⟩,
    trivial⟩, ?_⟩
  decide +kernel

end PingWaf.Challenge
