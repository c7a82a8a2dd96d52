import PingWaf.Plugin.Proof.BodyFlow

/-!
# Oversized bodies under the strict policy

Under the strict policy a body that outgrows the buffer is rejected. The filter compares the buffer
with the cap only before the end of the stream: the call that carries the end hands everything to
the engine, however long it has become.
-/

namespace PingWaf.Plugin

open Text Waf

section

variable (e : Edge) (requestId : String)

/-- The first call that answers rejects the body for its size, and nothing has gone upstream. -/
def Oversized : List BodyCall → Prop
  | [] => False
  | c :: calls =>
    c.released e requestId = [] ∧
      ((c.result e requestId).response = some .payloadTooLarge ∨
        (c.result e requestId).response = none ∧ Oversized calls)

/-- The call comes before the deadline of the entry. -/
def BodyCall.InTime (c : BodyCall) : Prop :=
  ∀ b, entryFor e c.tables requestId c.now = some b → c.now < b.deadline

/-- A call before the end of the stream takes the body over the cap, and every call so far came
within the deadline. -/
def CrossesInStream : Nat → List BodyCall → Prop
  | _, [] => False
  | seen, c :: calls =>
    c.InTime e requestId ∧ c.endOfStream = false ∧
      (e.plugin.maxBodySize < seen + c.received.length ∨
        CrossesInStream (seen + c.received.length) calls)

end

variable {e : Edge} {requestId : String} {b : DeferredBody} {body : Option (List UInt8)}
  {endOfStream : Bool} {now : Nat} {t : StageTables}

/-! ## One call -/

theorem enforce_ne_tooLarge (k : VerdictContext) (data : RequestData) (verdict : WafVerdict) :
    (enforce e k requestId data verdict).outcome ≠ .respond .payloadTooLarge := by
  unfold enforce
  dsimp only
  repeat' split
  all_goals simp

theorem enforceVerdict_ne_tooLarge (k : VerdictContext) (data : RequestData) :
    (enforceVerdict e k requestId data).outcome ≠ .respond .payloadTooLarge := by
  unfold enforceVerdict
  split
  · exact enforce_ne_tooLarge k data _
  · dsimp only
    split <;> simp

theorem inspectBuffer_ne_tooLarge (dv : DeferredVerdict) (buffer : List UInt8)
    (events : List SecurityEvent) :
    (inspectBuffer e requestId dv buffer t events).response ≠ some .payloadTooLarge := by
  simp only [inspectBuffer]
  split
  · next response hrespond =>
    intro heq
    simp only [Option.some.injEq] at heq
    rw [heq] at hrespond
    exact enforceVerdict_ne_tooLarge _ _ hrespond
  · simp

/-- What one call does under the strict policy with a body that is held and within the cap. -/
inductive StrictCall (e : Edge) (requestId : String) (seen : List UInt8) (c : BodyCall) : Prop where
  | late (hlate : ¬ c.InTime e requestId)
      (hresponse : (c.result e requestId).response = some .requestTimeout)
  /-- The engine has been handed everything. -/
  | last (heos : c.endOfStream = true)
      (hresponse : (c.result e requestId).response ≠ some .payloadTooLarge)
  | rejected (htime : c.InTime e requestId) (heos : c.endOfStream = false)
      (hover : e.plugin.maxBodySize < seen.length + c.received.length)
      (hresponse : (c.result e requestId).response = some .payloadTooLarge)
      (hreleased : c.released e requestId = [])
  | held (htime : c.InTime e requestId) (heos : c.endOfStream = false)
      (hwithin : seen.length + c.received.length ≤ e.plugin.maxBodySize)
      (hresponse : (c.result e requestId).response = none)
      (hreleased : c.released e requestId = [])
      (hnext : HeldAt e (c.result e requestId).tables requestId (seen ++ c.received))

theorem strictCall {c : BodyCall} {seen : List UInt8} (hstrict : e.plugin.bodyStagePolicy = .strict)
    (h : HeldAt e c.tables requestId seen) (hcap : seen.length ≤ e.plugin.maxBodySize) :
    StrictCall e requestId seen c := by
  obtain ⟨b, hentry, hb, rfl, -⟩ := h.entry c.now
  obtain ⟨t', hcall, -, -⟩ := handleRequestBody_entry hentry c.body c.endOfStream
  have hf : Filtered e requestId b c.body c.endOfStream c.now t' (c.result e requestId) := by
    rw [BodyCall.result, hcall]
    exact filterEntry_filtered
  have hintime (h : c.now < b.deadline) : c.InTime e requestId := by
    intro b' hb'
    rw [hentry] at hb'
    cases hb'
    exact h
  cases hf with
  | late _ _ hr =>
    refine .late (fun htime => ?_) (by rw [hr, timedOut, if_pos hstrict]; rfl)
    have := htime b hentry
    omega
  | last _ _ _ _ heos hr => exact .last heos (hr ▸ inspectBuffer_ne_tooLarge _ _ _)
  | refused _ htime heos hcap' _ hr =>
    rw [List.length_append] at hcap'
    exact .rejected (hintime htime) heos hcap' (by rw [hr]; rfl) (by rw [BodyCall.released, hr]; rfl)
  | cut _ _ _ _ _ _ hpolicy _ => exact absurd hstrict hpolicy
  | withheld _ htime heos hwithin hr =>
    refine .held (hintime htime) heos ?_ (by rw [hr]; rfl) (by rw [BodyCall.released, hr]; rfl) ?_
    · cases hbody : c.body with
      | none => simpa [BodyCall.received, hbody] using hcap
      | some _ => simpa [BodyCall.received, hbody] using hwithin
    · rw [hr]
      exact .staged _ (AList.lookup_insert _) ⟨hb.inspect, hb.withheld, hb.engine⟩ rfl
  | ended hheld _ _ | passed hheld _ _ => simp [hb.held] at hheld

/-! ## A whole body -/

theorem oversized_iff (hstrict : e.plugin.bodyStagePolicy = .strict) (init : List BodyCall)
    (last : BodyCall) (hinit : ∀ c ∈ init, c.endOfStream = false) (hlast : last.endOfStream = true)
    (hlink : Linked e requestId t (init ++ [last])) {seen : List UInt8}
    (h : HeldAt e t requestId seen) (hcap : seen.length ≤ e.plugin.maxBodySize) :
    Oversized e requestId (init ++ [last]) ↔ CrossesInStream e requestId seen.length init := by
  induction init generalizing t seen with
  | nil =>
    refine iff_of_false (fun hover => ?_) id
    obtain ⟨-, hanswer | ⟨-, hrest⟩⟩ := hover
    · cases strictCall hstrict (hlink.1.heldAt h) hcap with
      | late _ hresponse => simp [hresponse] at hanswer
      | last _ hresponse => exact hresponse hanswer
      | rejected _ heos _ _ _ | held _ heos _ _ _ _ => simp [hlast] at heos
    · exact hrest
  | cons c init ih =>
    obtain ⟨hsame, hlink⟩ := hlink
    have hc := hinit c List.mem_cons_self
    have hinit' : ∀ d ∈ init, d.endOfStream = false := fun d hd => hinit d (List.mem_cons_of_mem _ hd)
    rw [List.cons_append, Oversized, CrossesInStream]
    cases strictCall hstrict (hsame.heldAt h) hcap with
    | late hlate hresponse => simp [hresponse, hlate]
    | last heos _ => simp [hc] at heos
    | rejected htime heos hover hresponse hreleased => simp [htime, heos, hover, hresponse, hreleased]
    | held htime heos hwithin hresponse hreleased hnext =>
      have hrest := ih hinit' hlink hnext (by simpa using hwithin)
      rw [List.length_append] at hrest
      simp [htime, heos, hresponse, hreleased, Nat.not_lt.mpr hwithin, hrest]

/-- **When the strict policy rejects a body for its size.** A held body is rejected, with nothing of
it sent upstream, exactly when a chunk before the end of the stream takes it over the cap within the
deadline. A body that only its last chunk takes over the cap is never rejected for its size. -/
theorem strict_rejects_iff (e : Edge) (hstrict : e.plugin.bodyStagePolicy = .strict)
    (k : VerdictContext) (q : Incoming) (t : StageTables) (hfresh : ¬ t.Knows q.requestId)
    (hholds : (stageRequest e k q t).1.holds = true) (init : List BodyCall) (last : BodyCall)
    (hinit : ∀ c ∈ init, c.endOfStream = false) (hlast : last.endOfStream = true)
    (hlink : Linked e q.requestId (stageRequest e k q t).2 (init ++ [last])) :
    Oversized e q.requestId (init ++ [last]) ↔ CrossesInStream e q.requestId 0 init :=
  oversized_iff hstrict init last hinit hlast hlink
    (((stageRequest_staging e k q t).start hfresh).2.2 hholds) (Nat.zero_le _)

def strictEdge : Edge :=
  { inspectingEdge with
    plugin := { inspectingEdge.plugin with bodyStagePolicy := .strict, maxBodySize := 2 } }

/-- Three bytes in one chunk, with or without the end of the stream. -/
def threeBytes (endOfStream : Bool) : BodyCall :=
  ⟨(stageRequest strictEdge baseContext (getWith []) .empty).2, some (utf8Encode "x=1"), endOfStream, 10⟩

def streamEnd : BodyCall := ⟨((threeBytes false).result strictEdge "1").tables, none, true, 20⟩

theorem three_bytes_then_end_rejected : Oversized strictEdge "1" [threeBytes false, streamEnd] := by
  have h := strict_rejects_iff strictEdge rfl baseContext (getWith []) .empty
    (by simp [StageTables.Knows, StageTables.empty]) (by decide +kernel) [threeBytes false] streamEnd
    (by simp [threeBytes]) rfl ⟨⟨rfl, rfl, rfl⟩, ⟨rfl, rfl, rfl⟩, trivial⟩
  refine h.mpr ⟨?_, rfl, .inl (by decide +kernel)⟩
  intro b hb
  obtain rfl : b = _ := (Option.some.inj hb).symm
  decide +kernel

/-- The same three bytes in one chunk that also ends the stream go upstream whole. -/
theorem three_bytes_with_end_forwarded :
    (stageRequest strictEdge baseContext (getWith []) .empty).1.holds = true ∧
      Linked strictEdge "1" (stageRequest strictEdge baseContext (getWith []) .empty).2
        [threeBytes true] ∧
      strictEdge.plugin.maxBodySize < (threeBytes true).received.length ∧
      ((threeBytes true).result strictEdge "1").response = none ∧
      (threeBytes true).released strictEdge "1" = utf8Encode "x=1" ∧
      ¬ Oversized strictEdge "1" [threeBytes true] := by
  have hreleased : (threeBytes true).released strictEdge "1" = utf8Encode "x=1" := by decide +kernel
  refine ⟨by decide +kernel, ⟨⟨rfl, rfl, rfl⟩, trivial⟩, by decide +kernel, by decide +kernel, hreleased,
    fun hover => ?_⟩
  have hnone := hover.1
  rw [hreleased] at hnone
  revert hnone
  decide +kernel

end PingWaf.Plugin
