import PingWaf.Plugin.Proof.BodyTrail

/-!
# Where the bytes of a body go

The calls of the body filter for one request, with any steps of other requests between them. One
call moves bytes between the chunk and the buffer of the entry and loses none (`Passed.bytes`); a
held body stays in the buffer until the engine is handed the buffer or the deadline is over
(`result_heldAt`).
-/

namespace PingWaf.Plugin

open Text Waf List

/-! ## Calls of the filter -/

/-- A call of the body filter, with the tables it meets. -/
structure BodyCall where
  tables : StageTables
  body : Option (List UInt8)
  endOfStream : Bool
  now : Nat

/-- The tables agree about the request. -/
structure SameAt (requestId : String) (t t' : StageTables) : Prop where
  deferred : t'.deferredBody.lookup requestId = t.deferredBody.lookup requestId
  parked : t'.lazyWafStage.lookup requestId = t.lazyWafStage.lookup requestId
  swept : t'.sweptBodies.lookup requestId = t.sweptBodies.lookup requestId

section

variable (e : Edge) (requestId : String)

def BodyCall.result (c : BodyCall) : BodyResult :=
  handleRequestBody e requestId c.body c.endOfStream c.now c.tables

def BodyCall.received (c : BodyCall) : List UInt8 := c.body.getD []

def BodyCall.released (c : BodyCall) : List UInt8 := (c.result e requestId).body.getD []

/-- Each call finds the request's entries as the one before left them: whatever runs in between
leaves them alone, as every step but a sweep does. -/
def Linked : StageTables → List BodyCall → Prop
  | _, [] => True
  | t, c :: calls => SameAt requestId t c.tables ∧ Linked (c.result e requestId).tables calls

/-- The call hands everything received so far to the engine, or its entry is past the deadline and
the log says so. -/
def Releases (seen : List UInt8) (c : BodyCall) : Prop :=
  (c.result e requestId).handed = [seen ++ c.received] ∨
    (∃ b, entryFor e c.tables requestId c.now = some b ∧ b.deadline ≤ c.now) ∧
      stageReleasedWarning ∈
        bodyWarnings e requestId c.body c.endOfStream c.now c.tables

/-- Nothing is let through before a call that releases the body. -/
def Withholds : List UInt8 → List BodyCall → Prop
  | _, [] => True
  | seen, c :: calls =>
    Releases e requestId seen c ∨
      (c.released e requestId = [] ∧ Withholds (seen ++ c.received) calls)

end

/-! ## One call on an entry -/

variable {e : Edge} {requestId : String} {b : DeferredBody} {body : Option (List UInt8)}
  {endOfStream : Bool} {now : Nat} {t : StageTables}

/-- What became of an entry and a chunk when the filter did not answer. -/
inductive Passed (e : Edge) (requestId : String) (b : DeferredBody) (body : Option (List UInt8))
    (endOfStream : Bool) (now : Nat) (t : StageTables) (r : BodyResult) : Prop where
  /-- The entry is back in its table. -/
  | kept (b' : DeferredBody) (heos : endOfStream = false)
      (ht : r.tables = t.keep requestId b') (hheld : b'.held = b.held) (hdeferred : b'.deferred = b.deferred)
      (hbytes : if b.held then r.body = some [] ∧ b'.buffer = b.buffer ++ body.getD []
        else r.body = body ∧ b'.buffer = b.buffer)
  /-- The entry is gone, and so is what it held. -/
  | done (ht : r.tables = t) (hbytes : r.body.getD [] = b.buffer ++ body.getD [])
      (hwhy : Holding e b → r.handed = [b.buffer ++ body.getD []] ∨
        b.deadline ≤ now ∧ stageReleasedWarning ∈ entryWarnings e b body endOfStream now)

theorem inspectBuffer_unanswered {dv : DeferredVerdict} {buffer : List UInt8}
    {events : List SecurityEvent}
    (hno : (inspectBuffer e requestId dv buffer t events).response = none) :
    (inspectBuffer e requestId dv buffer t events).body = some buffer ∧
      ((e.engineFor dv.choice).isSome = true →
        (inspectBuffer e requestId dv buffer t events).handed = [buffer]) := by
  simp only [inspectBuffer] at hno ⊢
  split at hno
  · cases hno
  · exact ⟨rfl, fun h => if_pos h⟩

theorem timedOut_body (hno : (timedOut e requestId b body t).response = none) :
    e.plugin.bodyStagePolicy ≠ .strict ∧
      (timedOut e requestId b body t).body.getD [] = b.buffer ++ body.getD [] := by
  unfold timedOut at hno ⊢
  split at hno
  · cases hno
  · next hpolicy =>
    rw [if_neg hpolicy]
    refine ⟨hpolicy, ?_⟩
    dsimp only
    split
    · rfl
    · next hempty =>
      simp only [Bool.or_eq_true, Bool.not_eq_true', not_or, Bool.not_eq_false, List.isEmpty_iff,
        Bool.not_eq_true, Option.isSome_eq_false_iff, Option.isNone_iff_eq_none] at hempty
      rw [hempty.1, hempty.2]
      rfl

theorem filterEntry_passed (htidy : b.held = false → b.buffer = [])
    (hno : (filterEntry e requestId b body endOfStream now t).response = none) :
    Passed e requestId b body endOfStream now t
      (filterEntry e requestId b body endOfStream now t) := by
  -- a buffer the engine was handed
  have hinspected : ∀ {dv : DeferredVerdict} {events : List SecurityEvent} {r : BodyResult},
      b.deferred = some dv → r = inspectBuffer e requestId dv (b.buffer ++ body.getD []) t events →
      r.response = none → Passed e requestId b body endOfStream now t r := by
    intro dv events r hdv hr hno
    subst hr
    obtain ⟨hbody, hhanded⟩ := inspectBuffer_unanswered hno
    refine .done (inspectBuffer_tables _ _ _) (by rw [hbody]; rfl) fun hb => .inl (hhanded ?_)
    obtain ⟨dv', hdv', heng⟩ := hb.engine
    cases hdv.symm.trans hdv'
    exact heng
  generalize hres : filterEntry e requestId b body endOfStream now t = r at hno ⊢
  have hf : Filtered e requestId b body endOfStream now t r := hres ▸ filterEntry_filtered
  cases hf with
  | late hheld hlate hr =>
    subst hr
    obtain ⟨hpolicy, hbody⟩ := timedOut_body hno
    refine .done timedOut_tables hbody fun _ => .inr ⟨hlate, ?_⟩
    unfold entryWarnings
    rw [if_pos, if_neg hpolicy]
    · exact mem_singleton_self _
    · simpa [DeferredBody.held, hlate] using hheld
  | last _ hdv _ _ _ hr => exact hinspected hdv hr hno
  | refused _ _ _ _ _ hr =>
    rw [hr] at hno
    cases hno
  | cut _ hdv _ _ _ _ _ hr => exact hinspected hdv hr hno
  | withheld hheld _ heos _ hr =>
    subst hr
    exact .kept _ heos rfl rfl rfl (by simp [hheld, BodyResult.quiet])
  | ended hheld _ hr =>
    subst hr
    refine .done rfl ?_ fun hb => ?_
    · rw [htidy hheld]
      rfl
    · simp [hb.held] at hheld
  | passed hheld heos hr =>
    subst hr
    exact .kept b heos rfl rfl rfl (by simp [hheld, BodyResult.quiet])

/-! ## One call on the tables -/

def withheld (t : StageTables) (requestId : String) : List UInt8 :=
  ((t.deferredBody.lookup requestId).map (·.buffer)).getD []

def Pending (t : StageTables) (requestId : String) : Prop :=
  (t.deferredBody.lookup requestId).isSome = true ∨ (t.lazyWafStage.lookup requestId).isSome = true

/-- An entry that holds nothing back has an empty buffer, and a staged request is not parked. -/
structure Orderly (t : StageTables) (requestId : String) : Prop where
  tidy : ∀ b, t.deferredBody.lookup requestId = some b → b.held = false → b.buffer = []
  single : (t.deferredBody.lookup requestId).isSome = true →
    t.lazyWafStage.lookup requestId = none

variable {t' : StageTables} {seen : List UInt8}

theorem SameAt.withheld (h : SameAt requestId t t') :
    withheld t' requestId = withheld t requestId := by
  rw [Plugin.withheld, Plugin.withheld, h.deferred]

theorem SameAt.pending (h : SameAt requestId t t') :
    Pending t' requestId ↔ Pending t requestId := by
  rw [Pending, Pending, h.deferred, h.parked]

theorem SameAt.orderly (h : SameAt requestId t t') (ho : Orderly t requestId) :
    Orderly t' requestId :=
  ⟨fun b hb => ho.tidy b (h.deferred ▸ hb), fun hs => by
    rw [h.deferred] at hs
    rw [h.parked]
    exact ho.single hs⟩

theorem Passed.bytes {r : BodyResult} (h : Passed e requestId b body endOfStream now t r)
    (hgone : t.deferredBody.lookup requestId = none) (htidy : b.held = false → b.buffer = []) :
    r.body.getD [] ++ withheld r.tables requestId = b.buffer ++ body.getD [] := by
  cases h with
  | done ht hbytes _ =>
    rw [ht, hbytes, withheld, hgone]
    simp
  | kept b' _ ht _ _ hbytes =>
    have hlook : withheld r.tables requestId = b'.buffer := by
      rw [ht, withheld, StageTables.keep, AList.lookup_insert]
      rfl
    rw [hlook]
    split at hbytes
    · rw [hbytes.1, hbytes.2]
      rfl
    · next hb =>
      rw [hbytes.1, hbytes.2, htidy (by simpa using hb)]
      simp

theorem Passed.orderly {r : BodyResult} (h : Passed e requestId b body endOfStream now t r)
    (hgone : t.deferredBody.lookup requestId = none) (hlazy : t.lazyWafStage.lookup requestId = none)
    (htidy : b.held = false → b.buffer = []) :
    Orderly r.tables requestId ∧ (endOfStream = true → ¬ Pending r.tables requestId) := by
  cases h with
  | done ht _ _ =>
    rw [ht]
    refine ⟨⟨fun b' hb' => ?_, fun _ => hlazy⟩, fun _ hp => ?_⟩
    · rw [hgone] at hb'
      cases hb'
    · rw [Pending, hgone, hlazy] at hp
      simp at hp
  | kept b' heos ht hheld _ hbytes =>
    rw [ht]
    refine ⟨⟨fun b'' hb'' hb => ?_, fun _ => hlazy⟩, fun h => ?_⟩
    · rw [StageTables.keep, AList.lookup_insert] at hb''
      obtain rfl : b' = b'' := by simpa using hb''
      rw [hheld] at hb
      rw [if_neg (by simp [hb])] at hbytes
      rw [hbytes.2]
      exact htidy hb
    · rw [heos] at h
      cases h

/-- A call that does not answer: no byte is lost, and the end of the stream clears the stage. -/
structure Conserves (t : StageTables) (requestId : String) (body : Option (List UInt8))
    (endOfStream : Bool) (r : BodyResult) : Prop where
  bytes : r.body.getD [] ++ withheld r.tables requestId = withheld t requestId ++ body.getD []
  orderly : Orderly r.tables requestId
  settled : endOfStream = true ∨ ¬ Pending t requestId → ¬ Pending r.tables requestId

theorem handleRequestBody_conserves (ho : Orderly t requestId)
    (hno : (handleRequestBody e requestId body endOfStream now t).response = none) :
    Conserves t requestId body endOfStream
      (handleRequestBody e requestId body endOfStream now t) := by
  unfold handleRequestBody at hno ⊢
  cases hd : t.deferredBody.lookup requestId with
  | some b =>
    simp only [hd] at hno ⊢
    have hlazy := ho.single (by rw [hd]; rfl)
    have hp := filterEntry_passed (ho.tidy b hd) hno
    have hgone : (t.deferredBody.erase requestId).lookup requestId = none := AList.lookup_erase _ _
    obtain ⟨hord, heos⟩ := hp.orderly hgone hlazy (ho.tidy b hd)
    refine ⟨?_, hord, fun h => heos (h.resolve_right fun hn => hn (.inl ?_))⟩
    · rw [hp.bytes hgone (ho.tidy b hd), withheld, hd]
      rfl
    · rw [hd]
      rfl
  | none =>
    simp only [hd] at hno ⊢
    cases hl : t.lazyWafStage.lookup requestId with
    | some parked =>
      simp only [hl] at hno ⊢
      have htidy : (unparkedBody e parked now).held = false → (unparkedBody e parked now).buffer = [] :=
        fun _ => rfl
      have hp := filterEntry_passed htidy hno
      have hlazy : (t.lazyWafStage.erase requestId).lookup requestId = none := AList.lookup_erase _ _
      obtain ⟨hord, heos⟩ := hp.orderly hd hlazy htidy
      refine ⟨?_, hord, fun h => heos (h.resolve_right fun hn => hn (.inr ?_))⟩
      · rw [hp.bytes hd htidy, withheld, hd]
        rfl
      · rw [hl]
        rfl
    | none =>
      simp only [hl, filterUnstaged] at hno ⊢
      split at hno
      · cases hno
      · next hswept =>
        rw [if_neg hswept]
        refine ⟨?_, ⟨fun b hb => ?_, fun h => ?_⟩, fun _ hp => ?_⟩
        · simp [BodyResult.quiet, withheld, hd]
        · rw [show t.deferredBody.lookup requestId = some b from hb] at hd
          cases hd
        · exact hl
        · have hp' : Pending t requestId := hp
          simp [Pending, hd, hl] at hp'

/-! ## Conservation over a run -/

theorem linked_conserves (calls : List BodyCall) (hlink : Linked e requestId t calls)
    (ho : Orderly t requestId)
    (hno : ∀ c ∈ calls, (c.result e requestId).response = none) :
    ∃ t', calls.flatMap (BodyCall.released e requestId) ++ withheld t' requestId =
        withheld t requestId ++ calls.flatMap BodyCall.received ∧
      ((∃ c ∈ calls, c.endOfStream = true) ∨ ¬ Pending t requestId → ¬ Pending t' requestId) := by
  induction calls generalizing t with
  | nil => exact ⟨t, by simp, fun h => by simpa using h⟩
  | cons c calls ih =>
    obtain ⟨hsame, hlink⟩ := hlink
    have hc := handleRequestBody_conserves (hsame.orderly ho) (hno c mem_cons_self)
    obtain ⟨t', hbytes, hsettled⟩ :=
      ih hlink hc.orderly fun c' hc' => hno c' (mem_cons_of_mem _ hc')
    refine ⟨t', ?_, fun h => hsettled ?_⟩
    · rw [flatMap_cons, flatMap_cons, append_assoc, hbytes, ← append_assoc,
        ← append_assoc, ← hsame.withheld]
      exact congrArg (· ++ calls.flatMap BodyCall.received) hc.bytes
    · rcases h with ⟨c', hc', heos⟩ | hn
      · rcases mem_cons.mp hc' with rfl | hc'
        · exact .inr (hc.settled (.inl heos))
        · exact .inl ⟨c', hc', heos⟩
      · exact .inr (hc.settled (.inr fun hp => hn (hsame.pending.mp hp)))

/-! ## Withholding over a run -/

/-- The stage holds the body, and what it holds is what came so far. -/
inductive HeldAt (e : Edge) (t : StageTables) (requestId : String) (seen : List UInt8) : Prop where
  | staged (b : DeferredBody) (hd : t.deferredBody.lookup requestId = some b) (hb : Holding e b)
      (hseen : b.buffer = seen)
  | parked (p : Nat × DeferredVerdict) (hd : t.deferredBody.lookup requestId = none)
      (hl : t.lazyWafStage.lookup requestId = some p)
      (heng : (e.engineFor p.2.choice).isSome = true) (hseen : seen = [])

theorem SameAt.heldAt (h : SameAt requestId t t') (hh : HeldAt e t requestId seen) :
    HeldAt e t' requestId seen := by
  cases hh with
  | staged b hd hb hseen => exact .staged b (h.deferred.trans hd) hb hseen
  | parked p hd hl heng hseen => exact .parked p (h.deferred.trans hd) (h.parked.trans hl) heng hseen

theorem HeldAt.entry (h : HeldAt e t requestId seen) (now : Nat) :
    ∃ b, entryFor e t requestId now = some b ∧ Holding e b ∧ b.buffer = seen ∧
      ∀ body endOfStream, bodyWarnings e requestId body endOfStream now t =
        entryWarnings e b body endOfStream now := by
  cases h with
  | staged b hd hb hseen =>
    exact ⟨b, by simp [entryFor, hd], hb, hseen, fun _ _ => by simp [bodyWarnings, hd]⟩
  | parked p hd hl heng hseen =>
    refine ⟨unparkedBody e p now, by simp [entryFor, hd, hl], ⟨rfl, rfl, p.2, rfl, heng⟩,
      hseen.symm, fun _ _ => by simp [bodyWarnings, hd, hl]⟩

theorem result_heldAt {c : BodyCall} (h : HeldAt e c.tables requestId seen)
    (hno : (c.result e requestId).response = none) :
    Releases e requestId seen c ∨ (c.released e requestId = [] ∧
      HeldAt e (c.result e requestId).tables requestId (seen ++ c.received)) := by
  obtain ⟨b, hentry, hb, rfl, hwarn⟩ := h.entry c.now
  obtain ⟨t', hr, -, -⟩ := handleRequestBody_entry hentry c.body c.endOfStream
  have hres : c.result e requestId = filterEntry e requestId b c.body c.endOfStream c.now t' := hr
  rw [hres] at hno
  have htidy : b.held = false → b.buffer = [] := fun hf => by
    rw [hb.held] at hf
    cases hf
  have hp := filterEntry_passed htidy hno
  rw [← hres] at hp
  cases hp with
  | done _ _ hwhy =>
    left
    rcases hwhy hb with hhanded | ⟨hlate, hlog⟩
    · exact .inl hhanded
    · exact .inr ⟨⟨b, hentry, hlate⟩, by rw [hwarn]; exact hlog⟩
  | kept b' _ ht hheld hdeferred hbytes =>
    right
    rw [if_pos hb.held] at hbytes
    refine ⟨by rw [BodyCall.released, hbytes.1]; rfl, .staged b' ?_ ?_ hbytes.2⟩
    · rw [ht]
      exact AList.lookup_insert _
    · have hheld' : b'.held = true := hheld.trans hb.held
      obtain ⟨hin, hpass⟩ := Bool.and_eq_true_iff.mp hheld'
      refine ⟨hin, by simpa using hpass, ?_⟩
      rw [hdeferred]
      exact hb.engine

theorem linked_withholds (calls : List BodyCall) (hlink : Linked e requestId t calls)
    (h : HeldAt e t requestId seen) (hno : ∀ c ∈ calls, (c.result e requestId).response = none) :
    Withholds e requestId seen calls := by
  induction calls generalizing t seen with
  | nil => trivial
  | cons c _ ih =>
    obtain ⟨hsame, hlink⟩ := hlink
    rcases result_heldAt (hsame.heldAt h) (hno c mem_cons_self) with hrel | ⟨hnone, hnext⟩
    · exact .inl hrel
    · exact .inr ⟨hnone, ih hlink hnext fun c' hc' => hno c' (mem_cons_of_mem _ hc')⟩

/-! ## From the request phase on -/

section

variable {k : VerdictContext} {q : Incoming}

/-- The body is held back. -/
def StageDecision.holds : StageDecision → Bool
  | .staged inspect => inspect
  | .parked => true
  | .ignored | .tableFull | .refused => false

theorem orderly_of_none (hd : t.deferredBody.lookup requestId = none) : Orderly t requestId := by
  refine ⟨fun b hb => ?_, fun hs => ?_⟩
  · rw [hd] at hb
    cases hb
  · rw [hd] at hs
    cases hs

theorem unknown_deferred (h : ¬ t.Knows requestId) :
    t.deferredBody.lookup requestId = none ∧ t.lazyWafStage.lookup requestId = none := by
  constructor
  · cases hd : t.deferredBody.lookup requestId with
    | none => rfl
    | some _ => exact absurd (.inl (by rw [hd]; rfl)) h
  · cases hl : t.lazyWafStage.lookup requestId with
    | none => rfl
    | some _ => exact absurd (.inr (.inl (by rw [hl]; rfl))) h

theorem relieved_deferred (h : t.deferredBody.lookup requestId = none) (now : Nat) :
    (relievePressure e t now).deferredBody.lookup requestId = none := by
  cases hd : (relievePressure e t now).deferredBody.lookup requestId with
  | none => rfl
  | some _ =>
    rw [relievePressure_lookup hd] at h
    cases h

theorem Staging.start {d : StageDecision} {t' : StageTables} (h : Staging e k q t d t')
    (hfresh : ¬ t.Knows q.requestId) :
    Orderly t' q.requestId ∧ withheld t' q.requestId = [] ∧
      (d.holds = true → HeldAt e t' q.requestId []) := by
  obtain ⟨hd, hl⟩ := unknown_deferred hfresh
  have hrel := relieved_deferred (e := e) hd q.now
  cases h with
  | ignored => exact ⟨orderly_of_none hd, by rw [withheld, hd]; rfl, fun h => by cases h⟩
  | refused _ => exact ⟨orderly_of_none hrel, by rw [withheld, hrel]; rfl, fun h => by cases h⟩
  | tableFull _ _ _ =>
    exact ⟨orderly_of_none hd, by rw [withheld, hd]; rfl, fun h => by cases h⟩
  | staged _ =>
    have hnew := AList.lookup_insert (a := q.requestId) (b := freshBody e k q.data q.now)
      (relievePressure e t q.now).deferredBody
    refine ⟨⟨fun b hb _ => ?_, fun _ => ?_⟩, ?_, fun hin => ?_⟩
    · rw [hnew] at hb
      cases hb
      rfl
    · exact (congrArg (AList.lookup q.requestId) (relievePressure_other e t q.now).1).trans hl
    · rw [withheld, hnew]
      rfl
    · exact .staged _ hnew (freshBody_holding hin q.data q.now) rfl
  | parked hin =>
    refine ⟨orderly_of_none hd, by rw [withheld, hd]; rfl, fun _ => ?_⟩
    have heng : (e.engineFor k.choice).isSome = true := by
      simp only [inspects, Bool.and_eq_true] at hin
      exact hin.2
    exact .parked _ hd (AList.lookup_insert _) heng rfl

end

/-- **No byte is lost and none goes early**: if the filter never answers a request, what it lets
through is what it received, whatever the chunks are and wherever the stream ends, and a body that
is to be inspected is withheld until the engine has been handed all of it that came, or until the
deadline, which is logged. -/
theorem body_conserved_and_withheld (e : Edge) (k : VerdictContext) (q : Incoming)
    (t : StageTables) (hfresh : ¬ t.Knows q.requestId) (calls : List BodyCall)
    (hlink : Linked e q.requestId (stageRequest e k q t).2 calls)
    (hno : ∀ c ∈ calls, (c.result e q.requestId).response = none) :
    ((∃ c ∈ calls, c.endOfStream = true) →
      calls.flatMap (BodyCall.released e q.requestId) = calls.flatMap BodyCall.received) ∧
    ((stageRequest e k q t).1.holds = true → Withholds e q.requestId [] calls) := by
  obtain ⟨hord, hempty, hheld⟩ := (stageRequest_staging e k q t).start hfresh
  refine ⟨fun heos => ?_, fun hd => linked_withholds calls hlink (hheld hd) hno⟩
  obtain ⟨t', hbytes, hsettled⟩ := linked_conserves calls hlink hord hno
  have hgone : withheld t' q.requestId = [] := by
    have hnot := hsettled (.inl heos)
    cases hd : t'.deferredBody.lookup q.requestId with
    | none => rw [withheld, hd]; rfl
    | some _ => exact absurd (.inl (by rw [hd]; rfl)) hnot
  rw [hempty, hgone, append_nil, nil_append] at hbytes
  exact hbytes

def baseContext : VerdictContext := ⟨.base, none, false, false, "site", "a.example"⟩

def firstPiece : BodyCall :=
  ⟨(stageRequest inspectingEdge baseContext (getWith []) .empty).2, some (utf8Encode "x="), false, 10⟩

def lastPiece : BodyCall :=
  ⟨(firstPiece.result inspectingEdge "1").tables, some (utf8Encode "1"), true, 20⟩

theorem two_pieces_conserved_and_withheld :
    [firstPiece, lastPiece].flatMap (BodyCall.released inspectingEdge "1") = utf8Encode "x=1" ∧
      Withholds inspectingEdge "1" [] [firstPiece, lastPiece] := by
  have h := body_conserved_and_withheld inspectingEdge baseContext (getWith []) .empty
    (by simp [StageTables.Knows, StageTables.empty]) [firstPiece, lastPiece]
    ⟨⟨rfl, rfl, rfl⟩, ⟨rfl, rfl, rfl⟩, trivial⟩ (by decide +kernel)
  exact ⟨(h.1 ⟨lastPiece, by simp, rfl⟩).trans (by decide +kernel), h.2 (by decide +kernel)⟩

end PingWaf.Plugin
