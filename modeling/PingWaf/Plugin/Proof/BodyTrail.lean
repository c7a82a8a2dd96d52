import PingWaf.Plugin.Proof.StageSteps
import PingWaf.Plugin.Proof.Gate

/-!
# Bodies under inspection

What becomes of the body of a request under inspection, over whole runs of the edge. The invariant
`Trail.Inv` says where such a body can be: withheld in its entry, parked, buried under a tombstone,
reported, or over.
-/

namespace PingWaf.Plugin

open Text Waf List AList Trail

/-- What holds of a request and its body in every state of a run that keeps watch. -/
structure Trail.Inv (e : Edge) (tr : Trail) (id : String) : Prop where
  started : id ∈ tr.inspected ∨ (∃ piece, (id, piece) ∈ tr.sent) ∨ tr.edge.stage.Knows id →
    id ∈ tr.started
  holding : id ∈ tr.inspected → ∀ b, tr.edge.stage.deferredBody.lookup id = some b → Holding e b
  parked : ∀ p, tr.edge.stage.lazyWafStage.lookup id = some p →
    (e.engineFor p.2.choice).isSome = true
  inSight : tr.watched id = true → tr.edge.stage.Knows id
  accounted : id ∈ tr.inspected → ∀ piece, (id, piece) ∈ tr.sent →
    piece = [] ∨ (id, piece) ∈ tr.handed ∨ tr.noted id = true

theorem Trail.inv_start (e : Edge) (rate : RateState) (id : String) :
    (Trail.start rate).Inv e id where
  started h := by simp [StageTables.Knows, start, StageTables.empty] at h
  holding h := by simp [start] at h
  parked p h := by simp [start, StageTables.empty] at h
  inSight h := by simp [watched, start] at h
  accounted h := by simp [start] at h

variable {tr : Trail} {id : String} {e : Edge}

theorem Trail.watched_iff :
    tr.watched id = true ↔ id ∈ tr.inspected ∧ id ∉ tr.ended ∧ tr.noted id = false := by
  simp [watched, and_assoc]

theorem Trail.noted_iff : tr.noted id = true ↔ ∃ ev ∈ tr.events, Notes ev id := by
  simp [noted, Notes]

/-- The record of a run grows, and the request is not put under inspection by the step. -/
structure Trail.Grows (id : String) (tr tr' : Trail) : Prop where
  inspected : id ∈ tr'.inspected → id ∈ tr.inspected
  started : id ∈ tr.started → id ∈ tr'.started
  ended : id ∈ tr.ended → id ∈ tr'.ended
  handed : ∀ piece, (id, piece) ∈ tr.handed → (id, piece) ∈ tr'.handed
  events : ∀ ev ∈ tr.events, ev ∈ tr'.events

section

variable {e : Edge} {tr tr' : Trail} {id : String}

theorem Trail.Grows.noted (hg : tr.Grows id tr') (h : tr.noted id = true) :
    tr'.noted id = true := by
  obtain ⟨ev, hmem, hnotes⟩ := noted_iff.mp h
  exact noted_iff.mpr ⟨ev, hg.events ev hmem, hnotes⟩

theorem Trail.Grows.watched (hg : tr.Grows id tr') (h : tr'.watched id = true) :
    tr.watched id = true := by
  obtain ⟨hi, hopen, hnot⟩ := watched_iff.mp h
  refine watched_iff.mpr ⟨hg.inspected hi, fun hx => hopen (hg.ended hx), ?_⟩
  rw [Bool.eq_false_iff] at hnot ⊢
  exact fun hn => hnot (hg.noted hn)

/-- A step that sends nothing for the request, and does not lose its body out of sight. -/
theorem Trail.Inv.frame (h : tr.Inv e id) (hg : tr.Grows id tr')
    (hsent : ∀ piece, (id, piece) ∈ tr'.sent → (id, piece) ∈ tr.sent)
    (ht : Thins id tr.edge.stage tr'.edge.stage)
    (hsight : tr.watched id = true → tr.edge.stage.Knows id → tr'.edge.stage.Knows id) :
    tr'.Inv e id where
  started h' := by
    refine hg.started (h.started ?_)
    obtain hi | ⟨piece, hp⟩ | hk := h'
    · exact .inl (hg.inspected hi)
    · exact .inr (.inl ⟨piece, hsent piece hp⟩)
    · exact .inr (.inr (ht.known hk))
  holding hi b hb := h.holding (hg.inspected hi) b (ht.staged b hb)
  parked p hp := h.parked p (ht.parked p hp)
  inSight hw := hsight (hg.watched hw) (h.inSight (hg.watched hw))
  accounted hi piece hp := by
    obtain hempty | hhanded | hnoted := h.accounted (hg.inspected hi) piece (hsent piece hp)
    · exact .inl hempty
    · exact .inr (.inl (hg.handed piece hhanded))
    · exact .inr (.inr (hg.noted hnoted))

end

/-! ## A chunk -/

section

variable {e : Edge} {tr : Trail} {id requestId : String} {body : Option (List UInt8)}
  {endOfStream : Bool} {now : Nat}

theorem Trail.Inv.entry_holding (h : tr.Inv e id) (hid : id ∈ tr.inspected) {b : DeferredBody}
    (hb : entryFor e tr.edge.stage id now = some b) : Holding e b := by
  unfold entryFor at hb
  rcases Option.or_eq_some_iff.mp hb with hd | ⟨-, hp⟩
  · exact h.holding hid b hd
  · obtain ⟨parked, hl, rfl⟩ := Option.map_eq_some_iff.mp hp
    exact ⟨rfl, rfl, parked.2, rfl, h.parked parked hl⟩

theorem Trail.watch_chunk (hok : keepsWatch e tr (.chunk requestId body endOfStream now) = true)
    (hw : tr.watched requestId = true) :
    (∀ b, entryFor e tr.edge.stage requestId now = some b →
      (b.deadline ≤ now ∨
        endOfStream = false ∧ e.plugin.maxBodySize < (b.buffer ++ body.getD []).length) →
      e.agent.isSome = true ∨ e.plugin.bodyStagePolicy = .strict) ∧
    ∀ expires, tr.edge.stage.sweptBodies.lookup requestId = some expires → now < expires := by
  simp only [keepsWatch, hw, Bool.not_true, Bool.false_or, Bool.and_eq_true, Bool.or_eq_true,
    decide_eq_true_eq, Bool.not_eq_true'] at hok
  obtain ⟨hover, hswept⟩ := hok
  refine ⟨fun b hb hlate => ?_, fun expires hx => by simpa [hx] using hswept⟩
  rcases hover with (hno | hagent) | hstrict
  · simp [overruns, hb] at hno
    rcases hlate with hlate | ⟨heos, hlen⟩
    · omega
    · have := hno.2 heos
      simp only [length_append] at hlen
      omega
  · exact .inl hagent
  · exact .inr hstrict

theorem Trail.Inv.chunk_outcome (h : tr.Inv e id) (hw : tr.watched id = true)
    (hok : keepsWatch e tr (.chunk id body endOfStream now) = true) :
    Outcome e id endOfStream (handleRequestBody e id body endOfStream now tr.edge.stage) := by
  obtain ⟨hover, hswept⟩ := watch_chunk hok hw
  cases hb : entryFor e tr.edge.stage id now with
  | some b =>
    obtain ⟨t', hr, -, -⟩ := handleRequestBody_entry hb body endOfStream
    rw [hr]
    exact filterEntry_filtered.outcome (h.entry_holding (watched_iff.mp hw).1 hb) (hover b hb)
  | none =>
    -- neither staged nor parked, so buried, and the tombstone still stands
    rw [handleRequestBody_unstaged hb]
    obtain ⟨hd, hp⟩ := Option.or_eq_none_iff.mp hb
    have hp' : tr.edge.stage.lazyWafStage.lookup id = none := by simpa using hp
    obtain ⟨expires, hx⟩ : ∃ x, tr.edge.stage.sweptBodies.lookup id = some x := by
      rcases h.inSight hw with hk | hk | hk
      · simp [hd] at hk
      · simp [hp'] at hk
      · exact Option.isSome_iff_exists.mp hk
    rw [filterUnstaged, if_pos (by simp [hx, hswept expires hx])]
    exact .answered rfl rfl

theorem Trail.chunk_grows : tr.Grows id (tr.chunk e requestId body endOfStream now) where
  inspected h := h
  started h := h
  ended h := by
    simp only [chunk]
    split_ifs
    · exact mem_cons_of_mem _ h
    · exact h
  handed _ h := mem_append_right _ h
  events ev h := by simp [chunk, h]

theorem Trail.noted_chunk_of_event {ev : SecurityEvent}
    (hmem : ev ∈ (handleRequestBody e requestId body endOfStream now tr.edge.stage).events)
    (hnotes : Notes ev requestId) :
    (tr.chunk e requestId body endOfStream now).noted requestId = true :=
  noted_iff.mpr ⟨ev, by simp [chunk, hmem], hnotes⟩

theorem Trail.sent_chunk {piece : List UInt8}
    (hsent : (id, piece) ∈ (tr.chunk e requestId body endOfStream now).sent) :
    (id = requestId ∧
      (handleRequestBody e requestId body endOfStream now tr.edge.stage).body = some piece) ∨
    (id, piece) ∈ tr.sent := by
  rcases mem_append.mp hsent with hnew | hold
  · obtain ⟨p, hp, he⟩ := Option.map_eq_some_iff.mp (Option.mem_toList.mp hnew)
    obtain ⟨rfl, rfl⟩ : requestId = id ∧ p = piece := by simpa using he
    exact .inl ⟨rfl, hp⟩
  · exact .inr hold

theorem Trail.Inv.chunk_withheld (h : tr.Inv e id)
    (hok : keepsWatch e tr (.chunk id body endOfStream now) = true)
    (hw : (tr.chunk e id body endOfStream now).watched id = true) :
    (tr.chunk e id body endOfStream now).edge.stage.Knows id := by
  obtain ⟨-, hopen, hnot⟩ := watched_iff.mp hw
  cases h.chunk_outcome (chunk_grows.watched hw) hok with
  | answered hr _ => simp [chunk, hr] at hopen
  | noted _ hmem hn =>
    rw [noted_chunk_of_event hmem hn] at hnot
    cases hnot
  | complete _ heos _ _ => simp [chunk, heos] at hopen
  | held b' _ ht => exact .inl (Option.isSome_iff_exists.mpr ⟨b', ht⟩)

theorem Trail.Inv.chunk_accounted (h : tr.Inv e id) (hi : id ∈ tr.inspected) (hopen : id ∉ tr.ended)
    (hok : keepsWatch e tr (.chunk id body endOfStream now) = true) {piece : List UInt8}
    (hpiece : (handleRequestBody e id body endOfStream now tr.edge.stage).body = some piece) :
    piece = [] ∨ (id, piece) ∈ (tr.chunk e id body endOfStream now).handed ∨
      (tr.chunk e id body endOfStream now).noted id = true := by
  by_cases hw : tr.watched id = true
  · cases h.chunk_outcome hw hok with
    | answered _ hb =>
      rw [hb] at hpiece
      cases hpiece
    | noted _ hmem hn => exact .inr (.inr (noted_chunk_of_event hmem hn))
    | complete buffer _ hb hh =>
      obtain rfl : buffer = piece := by simpa using hb.symm.trans hpiece
      exact .inr (.inl (by simp [chunk, hh]))
    | held _ hb _ => exact .inl (by simpa using (hb.symm.trans hpiece).symm)
  · -- not watched though under inspection and open: reported already
    refine .inr (.inr (chunk_grows.noted ?_))
    by_contra hn
    exact hw (watched_iff.mpr ⟨hi, hopen, Bool.eq_false_iff.mpr hn⟩)

theorem Trail.Inv.chunk (h : tr.Inv e id)
    (hadm : tr.admits (.chunk requestId body endOfStream now) = true)
    (hok : keepsWatch e tr (.chunk requestId body endOfStream now) = true) :
    (tr.chunk e requestId body endOfStream now).Inv e id := by
  have hframe := @handleRequestBody_changedAt e requestId body endOfStream now tr.edge.stage
  by_cases hid : id = requestId
  · subst hid
    obtain ⟨hstarted, hopen⟩ : id ∈ tr.started ∧ id ∉ tr.ended := by
      simpa [admits] using hadm
    refine ⟨fun _ => hstarted, fun hi => ?_, fun p hp => h.parked p (hframe.unparked id p hp),
      fun hw => h.chunk_withheld hok hw, fun hi piece hsent => ?_⟩
    · exact handleRequestBody_holding fun b hb => h.entry_holding hi hb
    · rcases sent_chunk hsent with ⟨-, hpiece⟩ | hold
      · exact h.chunk_accounted hi hopen hok hpiece
      · obtain hempty | hhanded | hnoted := h.accounted hi piece hold
        · exact .inl hempty
        · exact .inr (.inl (mem_append_right _ hhanded))
        · exact .inr (.inr (chunk_grows.noted hnoted))
  · refine h.frame chunk_grows (fun piece hsent => ?_) ⟨?_, hframe.unparked id, ?_⟩ ?_
    · exact (sent_chunk hsent).resolve_left fun hself => hid hself.1
    · exact fun b hb => (hframe.deferred id hid).symm.trans hb
    · exact (hframe.knows hid).mp
    · exact fun _ => (hframe.knows hid).mpr

end

/-! ## A sweep -/

theorem Trail.Inv.sweep {ttl now : Nat} (h : tr.Inv e id)
    (hok : keepsWatch e tr (.sweep ttl now) = true) : (tr.advance e (.sweep ttl now)).Inv e id := by
  refine h.frame ⟨fun h => h, fun h => h, fun h => h, fun _ h => h, fun _ h => h⟩ (fun _ h => h)
    (sweepStaleAccess_thins ttl now id tr.edge.stage) fun hw hk => ?_
  simp only [keepsWatch, Bool.and_eq_true, all_eq_true, Bool.or_eq_true, Bool.not_eq_true',
    decide_eq_true_eq] at hok
  refine sweepStaleAccess_knows hk (fun b hb => ?_) (fun p hp => ?_) fun x hx => ?_
  · have hheld := h.holding (watched_iff.mp hw).1 b hb
    exact ⟨hheld.inspect, hheld.withheld⟩
  · exact (hok.1 ⟨id, p⟩ (mem_lookup_iff.mp hp)).resolve_left (by simp [hw])
  · exact (hok.2 ⟨id, x⟩ (mem_lookup_iff.mp hx)).resolve_left (by simp [hw])

/-! ## A request -/

section

variable {e : Edge} {tr : Trail} {site : ResolvedSite} {q : Incoming} {id : String}

theorem relievePressure_thins (e : Edge) (t : StageTables) (now : Nat) (id : String) :
    Thins id t (relievePressure e t now) := by
  obtain ⟨hlazy, hswept⟩ := relievePressure_other e t now
  refine ⟨fun b => relievePressure_lookup, fun p hp => hlazy ▸ hp, fun hk => ?_⟩
  rw [StageTables.Knows, hlazy, hswept] at hk
  refine hk.imp_left fun hd => ?_
  obtain ⟨b, hb⟩ := Option.isSome_iff_exists.mp hd
  exact Option.isSome_iff_exists.mpr ⟨b, relievePressure_lookup hb⟩

theorem relievePressure_inSight
    (hok : keepsWatch e tr (.request site q) = true) (hbody : hasBody q.header = true)
    (hw : tr.watched id = true) (hk : tr.edge.stage.Knows id) :
    (relievePressure e tr.edge.stage q.now).Knows id := by
  obtain ⟨hlazy, hswept⟩ := relievePressure_other e tr.edge.stage q.now
  rcases hk with hd | hl | hs
  · obtain ⟨b, hb⟩ := Option.isSome_iff_exists.mp hd
    refine .inl (Option.isSome_iff_exists.mpr ⟨b, relievePressure_keeps hb fun hfull => ?_⟩)
    simp only [keepsWatch, hbody, hfull, Bool.and_eq_true, Bool.or_eq_true, Bool.not_eq_true',
      decide_true, Bool.and_self, Bool.true_eq_false, false_or, all_eq_true,
      decide_eq_true_eq] at hok
    exact (hok.1 ⟨id, b⟩ (mem_lookup_iff.mp hb)).resolve_left (by simp [hw])
  · exact .inr (.inl (by rwa [hlazy]))
  · exact .inr (.inr (by rwa [hswept]))

theorem engine_of_inspects {k : VerdictContext} (h : inspects e k = true) :
    (e.engineFor k.choice).isSome = true := by
  simp only [inspects, Bool.and_eq_true] at h
  exact h.2

theorem freshBody_holding {k : VerdictContext} (h : inspects e k = true) (data : RequestData)
    (now : Nat) : Holding e (freshBody e k data now) :=
  ⟨h, by simp [freshBody, h], { k with requestData := data }, by simp [freshBody, h],
    engine_of_inspects h⟩

theorem Staging.other {d : StageDecision} {t' : StageTables}
    (h : Staging e (verdictContext e site q) q tr.edge.stage d t')
    (hok : keepsWatch e tr (.request site q) = true) (hid : id ≠ q.requestId) :
    Thins id tr.edge.stage t' ∧
      (tr.watched id = true → tr.edge.stage.Knows id → t'.Knows id) := by
  have hthins := relievePressure_thins e tr.edge.stage q.now id
  have hinsert {β : Type} (t : Table String β) (v : β) :
      (t.insert q.requestId v).lookup id = t.lookup id := lookup_insert_ne hid
  cases h with
  | ignored => exact ⟨⟨fun _ h => h, fun _ h => h, fun h => h⟩, fun _ h => h⟩
  | refused hbody => exact ⟨hthins, relievePressure_inSight hok hbody⟩
  | staged hbody =>
    refine ⟨⟨fun b hb => hthins.staged b ?_, hthins.parked, fun hk => hthins.known ?_⟩,
      fun hw hk => ?_⟩
    · exact (hinsert _ _).symm.trans hb
    · simpa only [StageTables.Knows, hinsert] using hk
    · simpa only [StageTables.Knows, hinsert] using relievePressure_inSight hok hbody hw hk
  | tableFull _ _ _ => exact ⟨⟨fun _ h => h, fun _ h => h, fun h => h⟩, fun _ h => h⟩
  | parked _ =>
    refine ⟨⟨fun _ h => h, fun p hp => (hinsert _ _).symm.trans hp, fun hk => ?_⟩, fun _ hk => ?_⟩
    · simpa only [StageTables.Knows, hinsert] using hk
    · simpa only [StageTables.Knows, hinsert] using hk

/-- The body of the request itself is in sight if it is to be inspected. -/
theorem Staging.self {d : StageDecision} {t' : StageTables}
    (h : Staging e (verdictContext e site q) q tr.edge.stage d t')
    (hok : keepsWatch e tr (.request site q) = true)
    (hnew : ¬ tr.edge.stage.Knows q.requestId) :
    (∀ p, t'.lazyWafStage.lookup q.requestId = some p → (e.engineFor p.2.choice).isSome = true) ∧
      (d.inspects = true → t'.Knows q.requestId ∧
        ∀ b, t'.deferredBody.lookup q.requestId = some b → Holding e b) := by
  have hparked : ∀ p, tr.edge.stage.lazyWafStage.lookup q.requestId ≠ some p :=
    fun p hp => hnew (.inr (.inl (Option.isSome_iff_exists.mpr ⟨p, hp⟩)))
  have hlazy := (relievePressure_other e tr.edge.stage q.now).1
  cases h with
  | ignored => exact ⟨fun p hp => absurd hp (hparked p), nofun⟩
  | refused _ => exact ⟨fun p hp => absurd (hlazy ▸ hp) (hparked p), nofun⟩
  | staged _ =>
    refine ⟨fun p hp => absurd (hlazy ▸ hp) (hparked p), fun hin => ?_⟩
    refine ⟨.inl (by simp), fun b hb => ?_⟩
    rw [lookup_insert] at hb
    obtain rfl := Option.some.inj hb
    exact freshBody_holding hin q.data q.now
  | tableFull hin hbody _ =>
    -- keeping watch leaves room for a verdict that is to be parked
    simp only [keepsWatch, parks, hin, hbody, Bool.and_eq_true, Bool.or_eq_true, Bool.not_eq_true',
      Bool.not_false, Bool.and_self, Bool.true_eq_false, false_or, decide_eq_true_eq] at hok
    omega
  | parked hin =>
    refine ⟨fun p hp => ?_, fun _ => ⟨.inr (.inl (by simp)), fun b hb => ?_⟩⟩
    · rw [lookup_insert] at hp
      obtain rfl := Option.some.inj hp
      exact engine_of_inspects hin
    · exact absurd (.inl (Option.isSome_iff_exists.mpr ⟨b, hb⟩)) hnew

theorem request_staging (e : Edge) (tr : Trail) (site : ResolvedSite) (q : Incoming) :
    Staging e (verdictContext e site q) q tr.edge.stage (stageDecision e site q tr.edge)
      (tr.request e site q).edge.stage := by
  rcases requestPhase_stage e site q tr.edge with ⟨hd, ht⟩ | hst
  · have hstage : (tr.request e site q).edge.stage = tr.edge.stage := ht
    rw [hstage, hd]
    exact .ignored
  · have hs := stageRequest_staging e (verdictContext e site q) q tr.edge.stage
    rwa [← hst] at hs

theorem Trail.Inv.request (h : tr.Inv e id) (hadm : tr.admits (.request site q) = true)
    (hok : keepsWatch e tr (.request site q) = true) : (tr.request e site q).Inv e id := by
  have hstaging := request_staging e tr site q
  have hfresh : q.requestId ∉ tr.started := by simpa [admits] using hadm
  by_cases hid : id = q.requestId
  · subst hid
    obtain ⟨hparked, hself⟩ := hstaging.self hok fun hk => hfresh (h.started (.inr (.inr hk)))
    have hdecides : q.requestId ∈ (tr.request e site q).inspected →
        (stageDecision e site q tr.edge).inspects = true := by
      intro hi
      by_contra hno
      have hold : q.requestId ∈ tr.inspected := by simpa [Trail.request, hno] using hi
      exact hfresh (h.started (.inl hold))
    refine ⟨fun _ => mem_cons_self, fun hi => (hself (hdecides hi)).2, hparked,
      fun hw => (hself (hdecides (watched_iff.mp hw).1)).1, fun _ piece hp => ?_⟩
    exact absurd (h.started (.inr (.inl ⟨piece, hp⟩))) hfresh
  · obtain ⟨hthins, hsight⟩ := hstaging.other hok hid
    refine h.frame ⟨fun hi => ?_, mem_cons_of_mem _, fun h => h, fun _ h => h,
      fun ev hev => ?_⟩ (fun _ h => h) hthins hsight
    · simp only [Trail.request] at hi
      split_ifs at hi
      · exact (mem_cons.mp hi).resolve_left hid
      · exact hi
    · exact mem_append_left _ hev

end

/-! ## Runs -/

theorem Trail.Inv.advance (h : tr.Inv e id) {op : EdgeOp} (hadm : tr.admits op = true)
    (hok : keepsWatch e tr op = true) : (tr.advance e op).Inv e id := by
  cases op with
  | request _ _ => exact h.request hadm hok
  | chunk _ _ _ _ => exact h.chunk hadm hok
  | sweep _ _ => exact h.sweep hok

theorem Trail.Inv.run (h : tr.Inv e id) {ops : List EdgeOp}
    (hops : Trail.conforms e (keepsWatch e) tr ops = true) : (tr.run e ops).Inv e id := by
  induction ops generalizing tr with
  | nil => exact h
  | cons _ _ ih =>
    simp only [conforms, Bool.and_eq_true] at hops
    exact ih (h.advance hops.1.1 hops.1.2) hops.2

theorem Trail.conforms_of_prefix {ok : Trail → EdgeOp → Bool} {pre ops : List EdgeOp}
    (hpre : pre <+: ops) (h : Trail.conforms e ok tr ops = true) :
    Trail.conforms e ok tr pre = true := by
  induction pre generalizing tr ops with
  | nil => rfl
  | cons _ pre ih =>
    obtain ⟨rest, rfl⟩ := hpre
    simp only [cons_append, conforms, Bool.and_eq_true] at h ⊢
    exact ⟨h.1, ih (prefix_append pre rest) h.2⟩

/-- **No body goes upstream silently uninspected**, in any run whose steps keep watch: whatever the
order of requests, chunks and sweeps, in every state reached every piece sent for a request under
inspection was handed to the engine, or an event for the request says that its body was not fully
inspected. -/
theorem body_never_silent (e : Edge) (rate : RateState) (ops : List EdgeOp)
    (hops : Trail.conforms e (keepsWatch e) (Trail.start rate) ops = true) :
    ∀ pre, pre <+: ops → ((Trail.start rate).run e pre).Accounted :=
  fun _ hpre id =>
    ((Trail.inv_start e rate id).run (Trail.conforms_of_prefix hpre hops)).accounted

/-! ## A parked verdict and a slow client -/

def inspectingEdge : Edge :=
  { quietEdge with
    plugin := { quietEdge.plugin with inspectBody := true }
    agent := some { maxBodyLogSize := 0, blockedReason := fun _ _ => none } }

def plainSite : ResolvedSite := ⟨.base, "site", none, false⟩

def quietRate : RateState := ⟨∅, 0⟩

/-- A GET that declares no body, the sweep 46 seconds later, and a body after all. -/
def slowBody : List EdgeOp :=
  [.request plainSite (getWith []), .sweep pendingAccessSweepTtl (secs 46),
    .chunk "1" (some (utf8Encode "x=1")) true (secs 47)]

/-- The sweep drops the parked verdict without a tombstone, so the late body goes upstream as if
nobody had asked to see it. -/
theorem slow_body_goes_silent :
    Trail.conforms inspectingEdge (fun _ _ => true) (Trail.start quietRate) slowBody = true ∧
      ¬ ((Trail.start quietRate).run inspectingEdge slowBody).Accounted := by
  refine ⟨by decide +kernel, fun h => ?_⟩
  have hsilent := h "1" (by decide +kernel) (utf8Encode "x=1") (by decide +kernel)
  revert hsilent
  decide +kernel

/-- A body that comes in time is handed to the engine. -/
theorem timely_body_accounted :
    ((Trail.start quietRate).run inspectingEdge
      [.request plainSite (getWith []), .sweep pendingAccessSweepTtl (secs 10),
        .chunk "1" (some (utf8Encode "x=1")) true (secs 11)]).Accounted :=
  body_never_silent inspectingEdge quietRate
    [.request plainSite (getWith []), .sweep pendingAccessSweepTtl (secs 10),
      .chunk "1" (some (utf8Encode "x=1")) true (secs 11)] (by decide +kernel) _ prefix_rfl

end PingWaf.Plugin
