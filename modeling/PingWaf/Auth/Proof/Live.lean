import PingWaf.Auth.Live
import PingWaf.Lib.Decimal

/-!
# Old sessions after a password change

A password change drops the verdicts about the visitor's sessions from the cache, but not those that
other calls have got and not written yet. `no_old_session_revived`: where no such verdict is on its
way at the drop, and none that stands in for a failed call is written after it, no old session is
answered for from the cache.
-/

namespace PingWaf.Auth

open Text List

section

variable (f : AccountForeign) (agent : Bool)

/-- A session from before a password change for which this process has dropped the verdicts. -/
def LiveState.Ended (st : LiveState) (s : VisitorSession) : Prop :=
  ∃ tokenVersion, (s.visitorId, tokenVersion) ∈ st.dropped ∧ s.tokenVersion < tokenVersion

/-- A call about to read the cache would answer for an ended session from it, though the control
plane says that the session is invalid. -/
def Revived (p : Pool.State LiveState LiveTask) : Prop :=
  ∃ (i : Nat) (s : VisitorSession) (input : LiveInput), p.tasks[i]? = some (.checking s) ∧ p.shared.Ended s ∧
    p.shared.accounts.validateSession f s = some false ∧
    (LiveTask.step f agent input p.shared (.checking s)).2 = .judged s true true

/-- The call has a verdict in favour of the key that it has not written yet. -/
def LiveTask.Carries (key : String) : LiveTask → Prop
  | .answered s true => s.liveKey = key
  | _ => False

/-- What is asked of a step: when the verdicts of a visitor are dropped no call carries one about an
older session of theirs, and asking about an ended session does not fail. -/
def Orderly (p : Pool.State LiveState LiveTask) : Pool.Act AccountOp LiveCall LiveInput → Prop
  | .turn i input =>
    match p.tasks[i]? with
    | some (.changed s tokenVersion) =>
      ∀ t ∈ p.tasks, ∀ old : VisitorSession, old.visitorId = s.visitorId →
        old.tokenVersion < tokenVersion → ¬ t.Carries old.liveKey
    | some (.asking s) =>
      p.shared.ask f input.reach s = none → ∀ old, p.shared.Ended old → old.liveKey ≠ s.liveKey
    | _ => True
  | _ => True

end

variable {f : AccountForeign} {agent : Bool} {a : Accounts} {s old : VisitorSession}

theorem step_alone (st : LiveState) (s : VisitorSession) (now : Nat) :
    let control : ControlPlane := if agent then some (st.accounts.validateSession f) else none
    ∃ cached, (fun r => LiveTask.step f agent ⟨now, .reached⟩ r.1 r.2)^[3] (st, .checking s) =
      ({ st with live := (sessionIsLive control s now st.live).2 },
        .judged s (sessionIsLive control s now st.live).1 cached) := by
  dsimp only
  cases hget : liveCacheGet s.liveKey now st.live with
  | mk verdict _ =>
    cases verdict with
    | some _ => exact ⟨true, by simp [LiveTask.step, sessionIsLive, hget]⟩
    | none =>
      cases agent with
      | false => exact ⟨false, by simp [LiveTask.step, sessionIsLive, hget]⟩
      | true => exact ⟨false, by simp [LiveTask.step, LiveState.ask, sessionIsLive, hget]⟩

/-! ## Keys -/

theorem append_cons_inj_last {c : Char} {l l' z z' : List Char} (hz : c ∉ z) (hz' : c ∉ z')
    (h : l ++ c :: z = l' ++ c :: z') : l = l' ∧ z = z' := by
  rcases append_eq_append_iff.mp h with ⟨m, rfl, hm⟩ | ⟨m, rfl, hm⟩
  · cases m with
    | nil => simpa using hm
    | cons _ _ =>
      obtain ⟨-, rfl⟩ := cons.inj hm
      exact absurd (by simp) hz
  · cases m with
    | nil => simpa [eq_comm] using hm
    | cons _ _ =>
      obtain ⟨-, rfl⟩ := cons.inj hm
      exact absurd (by simp) hz'

theorem liveKey_inj (hs : '|' ∉ s.visitorId.toList) (hold : '|' ∉ old.visitorId.toList)
    (hkey : s.liveKey = old.liveKey) :
    s.visitorId = old.visitorId ∧ s.tokenVersion = old.tokenVersion := by
  have hbar : ∀ t : Int, '|' ∉ (toString t).toList := not_mem_toString (by decide) (by decide)
  have hlist : (s.siteId.toList ++ '|' :: s.visitorId.toList) ++ '|' :: (toString s.tokenVersion).toList =
      (old.siteId.toList ++ '|' :: old.visitorId.toList) ++ '|' :: (toString old.tokenVersion).toList := by
    have h := congrArg String.toList hkey
    simpa [VisitorSession.liveKey, String.toList_append] using h
  obtain ⟨hleft, hversion⟩ := append_cons_inj_last (hbar _) (hbar _) hlist
  obtain ⟨-, hvisitor⟩ := append_cons_inj_last hs hold hleft
  exact ⟨String.toList_injective hvisitor, Int.repr_injective (String.toList_injective hversion)⟩

theorem hasSub_liveKey (s : VisitorSession) : hasSub s.liveKey s.visitorId = true := by
  unfold VisitorSession.liveKey
  exact hasSub_append_left (hasSub_append_left (hasSub_append_right (hasSub_self _) _) _) _

/-! ## Versions -/

/-- The account behind the text is gone for good, or its version has come this far. -/
def Stale (f : AccountForeign) (a : Accounts) (visitorId : String) (tokenVersion : Int) : Prop :=
  ∃ id, f.parseUuid visitorId = some id ∧ id ∈ a.used ∧
    ∀ row, a.visitors.lookup id = some row → tokenVersion ≤ row.tokenVersion

theorem lookup_modify (a : Accounts) (id id' : Nat) (g : VisitorRow → VisitorRow) :
    (a.modify id g).visitors.lookup id' =
      if id' = id then (a.visitors.lookup id).map g else a.visitors.lookup id' := by
  unfold Accounts.modify
  split
  · next h =>
    split
    · next heq => rw [heq, h]; rfl
    · rfl
  · next row h =>
    rw [Accounts.write, Table.lookup_insert_eq, h]
    rfl

@[simp] theorem used_modify (a : Accounts) (id : Nat) (g : VisitorRow → VisitorRow) :
    (a.modify id g).used = a.used := by
  unfold Accounts.modify
  split
  · rfl
  · rfl

variable {visitorId : String} {tokenVersion : Int}

theorem Stale.modify (h : Stale f a visitorId tokenVersion) (id : Nat) {g : VisitorRow → VisitorRow}
    (hg : ∀ row, row.tokenVersion ≤ (g row).tokenVersion) :
    Stale f (a.modify id g) visitorId tokenVersion := by
  obtain ⟨own, huuid, hused, hrow⟩ := h
  refine ⟨own, huuid, by simpa using hused, fun row hlook => ?_⟩
  rw [lookup_modify] at hlook
  split at hlook
  · next heq =>
    subst heq
    obtain ⟨before, hbefore, rfl⟩ := Option.map_eq_some_iff.mp hlook
    exact (hrow before hbefore).trans (hg before)
  · exact hrow row hlook

theorem Stale.apply (h : Stale f a visitorId tokenVersion) (op : AccountOp) :
    Stale f (op.apply a) visitorId tokenVersion := by
  cases op with
  | create id _ _ =>
    simp only [AccountOp.apply]
    split
    · exact h
    · next hfresh =>
      obtain ⟨own, huuid, hused, hrow⟩ := h
      refine ⟨own, huuid, mem_cons_of_mem _ hused, fun row hlook => hrow row ?_⟩
      have hne : own ≠ id := fun heq => hfresh (heq ▸ hused)
      rwa [Table.lookup_insert_eq, if_neg hne] at hlook
  | update id _ _ =>
    refine h.modify id fun row => ?_
    dsimp only
    split <;> omega
  | destroy id =>
    obtain ⟨own, huuid, hused, hrow⟩ := h
    refine ⟨own, huuid, hused, fun row hlook => hrow row ?_⟩
    have hleft : AList.lookup own (a.visitors.erase id) = some row := hlook
    rw [Table.lookup_erase_eq] at hleft
    split at hleft
    · cases hleft
    · exact hleft
  | setGrants _ | setSites _ => exact h

theorem changePassword_cases (f : AccountForeign) (a : Accounts) (s : VisitorSession)
    (current new : String) :
    ((∀ v, (a.changePassword f s current new).1 ≠ .changed v) ∧
      (a.changePassword f s current new).2 = a) ∨
    ∃ id row hash, f.parseUuid s.visitorId = some id ∧ a.visitors.lookup id = some row ∧
      a.changePassword f s current new = (.changed (row.tokenVersion + 1),
        a.modify id fun row => ⟨hash, row.disabled, row.tokenVersion + 1⟩) := by
  unfold Accounts.changePassword
  split
  · exact .inl (by simp)
  · split
    · exact .inl (by simp)
    · next id hid =>
      split
      · exact .inl (by simp)
      · next row hrow =>
        split
        · exact .inl (by simp)
        · split
          · exact .inl (by simp)
          · split
            · exact .inl (by simp)
            · split
              · exact .inl (by simp)
              · exact .inr ⟨id, row, _, hid, hrow, rfl⟩

theorem Stale.changePassword (h : Stale f a visitorId tokenVersion) (s : VisitorSession)
    (current new : String) :
    Stale f (a.changePassword f s current new).2 visitorId tokenVersion := by
  obtain ⟨-, hsame⟩ | ⟨id, row, hash, -, -, heq⟩ := changePassword_cases f a s current new
  · rw [hsame]
    exact h
  · rw [heq]
    exact h.modify id fun row => by dsimp only; omega

theorem stale_of_changed {current new : String} (h : (a.changePassword f s current new).1 = .changed tokenVersion) :
    Stale f (a.changePassword f s current new).2 s.visitorId tokenVersion := by
  obtain ⟨hnot, -⟩ | ⟨id, row, hash, huuid, hrow, heq⟩ := changePassword_cases f a s current new
  · exact absurd h (hnot _)
  · rw [heq] at h ⊢
    obtain rfl : row.tokenVersion + 1 = tokenVersion := PasswordReply.changed.inj h
    have hmem : id ∈ a.visitors := AList.lookup_isSome.mp (by rw [hrow]; rfl)
    refine ⟨id, huuid, by simpa using a.used_of_mem id hmem, fun row' hrow' => ?_⟩
    rw [lookup_modify, if_pos rfl, hrow] at hrow'
    obtain rfl := Option.some.inj hrow'
    exact le_refl _

theorem validateSession_true (h : a.validateSession f s = some true) :
    ∃ id row, f.parseUuid s.visitorId = some id ∧ a.visitors.lookup id = some row ∧
      row.tokenVersion = s.tokenVersion := by
  obtain ⟨site, -, hverdict⟩ := Option.map_eq_some_iff.mp h
  split at hverdict
  · cases hverdict
  · next id huuid =>
    split at hverdict
    · cases hverdict
    · next row hrow =>
      split at hverdict
      · cases hverdict
      · split at hverdict
        · cases hverdict
        · next hversion => exact ⟨id, row, huuid, hrow, not_not.mp hversion⟩

theorem Stale.key_ne (h : Stale f a old.visitorId tokenVersion) (hold : old.tokenVersion < tokenVersion)
    (hvalid : a.validateSession f s = some true) : old.liveKey ≠ s.liveKey := by
  obtain ⟨id, huuid, -, hrow⟩ := h
  obtain ⟨id', row, huuid', hlook, hversion⟩ := validateSession_true hvalid
  intro hkey
  obtain ⟨hvisitor, hsame⟩ := liveKey_inj (f.bar_notMem _ (by rw [huuid]; rfl))
    (f.bar_notMem _ (by rw [huuid']; rfl)) hkey
  obtain rfl : id = id' := by
    rw [hvisitor, huuid'] at huuid
    exact (Option.some.inj huuid).symm
  have := hrow row hlook
  omega

/-! ## The cache -/

variable {live : LiveSessions} {entry : Bool × Nat} {t : LiveTask}

theorem lookup_liveCacheGet (key : String) (now : Nat) {key' : String}
    (h : (liveCacheGet key now live).2.lookup key' = some entry) :
    live.lookup key' = some entry := by
  unfold liveCacheGet at h
  split at h
  · exact h
  · split at h
    · have herase : AList.lookup key' (live.erase key) = some entry := h
      rw [Table.lookup_erase_eq] at herase
      split at herase
      · cases herase
      · exact herase
    · exact h

theorem liveCacheGet_eq_some {key : String} {now : Nat} {verdict : Bool}
    (h : (liveCacheGet key now live).1 = some verdict) :
    ∃ checkedAt, live.lookup key = some (verdict, checkedAt) := by
  unfold liveCacheGet at h
  split at h
  · cases h
  · next verdict' checkedAt hlook =>
    split at h
    · cases h
    · obtain rfl := Option.some.inj h
      exact ⟨checkedAt, hlook⟩

theorem lookup_liveCachePut {key key' : String} {verdict : Bool} {now : Nat}
    (h : (liveCachePut key verdict now live).lookup key' = some entry) :
    (key' = key ∧ entry.1 = verdict) ∨ live.lookup key' = some entry := by
  unfold liveCachePut at h
  dsimp only at h
  rw [Table.lookup_insert_eq] at h
  split at h
  · next hkey => exact .inl ⟨hkey, by rw [← Option.some.inj h]⟩
  · split at h
    · rw [AList.lookup_empty] at h
      cases h
    · exact .inr h

theorem lookup_liveCacheDropVisitor {visitorId key : String}
    (h : (liveCacheDropVisitor visitorId live).lookup key = some entry) :
    live.lookup key = some entry ∧ hasSub key visitorId = false := by
  unfold liveCacheDropVisitor at h
  rw [Table.lookup_retain, Option.filter_eq_some_iff] at h
  simpa using h

/-! ## The invariant -/

/-- A verdict on its way is not in favour of an ended session, and the accounts have moved on before
the verdicts are dropped. -/
def LiveTask.Fits (f : AccountForeign) (st : LiveState) : LiveTask → Prop
  | .answered s true => ∀ old, st.Ended old → s.liveKey ≠ old.liveKey
  | .changed s tokenVersion => Stale f st.accounts s.visitorId tokenVersion
  | _ => True

/-- The accounts have moved past every ended session, and nothing in favour of one is in the cache or
on its way there. -/
structure Settled (f : AccountForeign) (p : Pool.State LiveState LiveTask) : Prop where
  stale : ∀ d ∈ p.shared.dropped, Stale f p.shared.accounts d.1 d.2
  cache : ∀ old, p.shared.Ended old → ∀ checkedAt,
    p.shared.live.lookup old.liveKey ≠ some (true, checkedAt)
  tasks : ∀ t ∈ p.tasks, t.Fits f p.shared

theorem settled_fresh (f : AccountForeign) (a : Accounts) : Settled f (LiveState.fresh a) where
  stale d hd := by simp [LiveState.fresh] at hd
  cache old h := by
    obtain ⟨tokenVersion, hmem, -⟩ := h
    simp [LiveState.fresh] at hmem
  tasks t h := by simp [LiveState.fresh] at h

variable {p : Pool.State LiveState LiveTask} {i : Nat}

theorem LiveTask.Fits.frame {st st' : LiveState} (h : t.Fits f st)
    (hdropped : st'.dropped = st.dropped)
    (hstale : ∀ v n, Stale f st.accounts v n → Stale f st'.accounts v n) : t.Fits f st' := by
  unfold LiveTask.Fits LiveState.Ended at *
  rw [hdropped]
  split
  · exact h
  · exact hstale _ _ h
  · trivial

/-- A turn that drops nothing: the accounts do not go back, the cache gains nothing in favour of an
ended session, and neither does the task. -/
theorem Settled.turn (h : Settled f p) {st : LiveState} (hdropped : st.dropped = p.shared.dropped)
    (hstale : ∀ v n, Stale f p.shared.accounts v n → Stale f st.accounts v n)
    (hcache : ∀ old, p.shared.Ended old → ∀ checkedAt,
      st.live.lookup old.liveKey = some (true, checkedAt) →
        p.shared.live.lookup old.liveKey = some (true, checkedAt)) (hfits : t.Fits f st) :
    Settled f ⟨st, p.tasks.set i t⟩ := by
  have hended : ∀ old, st.Ended old → p.shared.Ended old := fun old hold => by
    unfold LiveState.Ended at hold ⊢
    rwa [← hdropped]
  refine ⟨fun d hd => hstale _ _ (h.stale d (hdropped ▸ hd)),
    fun old hold checkedAt hlook => ?_, fun u hmem => ?_⟩
  · exact h.cache old (hended old hold) checkedAt (hcache old (hended old hold) checkedAt hlook)
  · rcases mem_or_eq_of_mem_set hmem with hmem | rfl
    · exact (h.tasks u hmem).frame hdropped hstale
    · exact hfits

theorem Settled.still (h : Settled f p) (hfits : t.Fits f p.shared) :
    Settled f ⟨p.shared, p.tasks.set i t⟩ :=
  h.turn rfl (fun _ _ hs => hs) (fun _ _ _ hlook => hlook) hfits

theorem Settled.drop (h : Settled f p) (hi : p.tasks[i]? = some (.changed s tokenVersion))
    (hclear : ∀ t ∈ p.tasks, ∀ old : VisitorSession, old.visitorId = s.visitorId →
      old.tokenVersion < tokenVersion → ¬ t.Carries old.liveKey) :
    Settled f ⟨{ p.shared with
      live := liveCacheDropVisitor s.visitorId p.shared.live
      dropped := (s.visitorId, tokenVersion) :: p.shared.dropped },
      p.tasks.set i (.renewed { s with tokenVersion })⟩ := by
  -- an ended session was ended before, or is one of this visitor's
  have hended : ∀ old, LiveState.Ended { p.shared with
      live := liveCacheDropVisitor s.visitorId p.shared.live
      dropped := (s.visitorId, tokenVersion) :: p.shared.dropped } old →
      (old.visitorId = s.visitorId ∧ old.tokenVersion < tokenVersion) ∨ p.shared.Ended old := by
    rintro old ⟨n, hmem, hlt⟩
    rcases mem_cons.mp hmem with heq | hmem
    · obtain ⟨hvisitor, rfl⟩ := Prod.mk.inj heq
      exact .inl ⟨hvisitor, hlt⟩
    · exact .inr ⟨n, hmem, hlt⟩
  refine ⟨fun d hd => ?_, fun old hold checkedAt hlook => ?_, fun u hmem => ?_⟩
  · rcases mem_cons.mp hd with rfl | hd
    · exact h.tasks _ (mem_of_getElem? hi)
    · exact h.stale d hd
  · obtain ⟨hbefore, hsub⟩ := lookup_liveCacheDropVisitor hlook
    rcases hended old hold with ⟨hvisitor, -⟩ | hold
    · rw [← hvisitor, hasSub_liveKey] at hsub
      cases hsub
    · exact h.cache old hold checkedAt hbefore
  · rcases mem_or_eq_of_mem_set hmem with hmem | rfl
    · have hfits := h.tasks u hmem
      have hcarries := hclear u hmem
      unfold LiveTask.Fits at hfits ⊢
      split
      · intro old hold
        rcases hended old hold with ⟨hvisitor, hlt⟩ | hold
        · exact hcarries old hvisitor hlt
        · exact hfits old hold
      · exact hfits
      · trivial
    · trivial

theorem Settled.step (h : Settled f p) (input : LiveInput) (hi : p.tasks[i]? = some t)
    (hok : Orderly f p (.turn i input)) :
    Settled f ⟨(t.step f agent input p.shared).1,
      p.tasks.set i (t.step f agent input p.shared).2⟩ := by
  have hfits := h.tasks t (mem_of_getElem? hi)
  simp only [Orderly, hi] at hok
  cases t with
  | checking s =>
    simp only [LiveTask.step]
    split
    · next verdict live hget =>
      refine h.turn rfl (fun _ _ hs => hs) (fun old _ checkedAt hlook => ?_) trivial
      exact lookup_liveCacheGet s.liveKey input.now (by rw [hget]; exact hlook)
    · next live hget =>
      refine h.turn rfl (fun _ _ hs => hs) (fun old _ checkedAt hlook => ?_) ?_
      · exact lookup_liveCacheGet s.liveKey input.now (by rw [hget]; exact hlook)
      · split <;> trivial
  | asking s =>
    simp only [LiveTask.step]
    apply h.still
    -- a verdict in favour is a failure to ask, or the control plane's own
    cases hask : p.shared.ask f input.reach s with
    | none => exact fun old hold => (hok hask old hold).symm
    | some verdict =>
      cases verdict with
      | false => trivial
      | true =>
        have hvalid : p.shared.accounts.validateSession f s = some true := by
          unfold LiveState.ask at hask
          split at hask
          · exact hask
          all_goals cases hask
        rintro old ⟨n, hdropped, hlt⟩
        exact ((h.stale _ hdropped).key_ne hlt hvalid).symm
  | answered _ verdict =>
    simp only [LiveTask.step]
    refine h.turn rfl (fun _ _ hs => hs) (fun old hold checkedAt hlook => ?_) trivial
    rcases lookup_liveCachePut hlook with ⟨hkey, hverdict⟩ | hlook
    · obtain rfl : true = verdict := hverdict
      exact absurd hkey.symm (hfits old hold)
    · exact hlook
  | judged _ _ _ => exact h.still trivial
  | posting s current new =>
    have hchange : ∀ v n, Stale f p.shared.accounts v n →
        Stale f (p.shared.accounts.changePassword f s current new).2 v n :=
      fun v n hs => hs.changePassword s current new
    simp only [LiveTask.step]
    split
    · exact h.still trivial
    · split
      · exact h.still trivial
      · exact h.turn rfl hchange (fun _ _ _ hlook => hlook) trivial
      · split
        · next accounts hreply =>
          rw [hreply] at hchange
          exact h.turn rfl hchange (fun _ _ _ hlook => hlook) trivial
        · next errorCode accounts hreply =>
          rw [hreply] at hchange
          exact h.turn rfl hchange (fun _ _ _ hlook => hlook) trivial
        · next tokenVersion accounts hreply =>
          have hstale : Stale f (p.shared.accounts.changePassword f s current new).2 s.visitorId
              tokenVersion := stale_of_changed (by rw [hreply])
          rw [hreply] at hchange hstale
          exact h.turn rfl hchange (fun _ _ _ hlook => hlook) hstale
  | changed _ _ => exact h.drop hi hok
  | renewed _ | errorPage _ => exact h.still trivial

theorem Settled.act (h : Settled f p) (act : Pool.Act AccountOp LiveCall LiveInput)
    (hok : Orderly f p act) : Settled f (Pool.act (liveChecks f agent) p act) := by
  cases act with
  | env op =>
    exact ⟨fun d hd => (h.stale d hd).apply op, h.cache,
      fun t hmem => (h.tasks t hmem).frame rfl fun _ _ hs => hs.apply op⟩
  | spawn call =>
    refine ⟨h.stale, h.cache, fun t hmem => ?_⟩
    rcases mem_append.mp hmem with hmem | hmem
    · exact h.tasks t hmem
    · obtain rfl : t = call.start := mem_singleton.mp hmem
      unfold LiveCall.start
      split
      · trivial
      · split <;> trivial
  | turn i input =>
    cases hi : p.tasks[i]? with
    | none => rwa [Pool.act_turn_none hi]
    | some _ =>
      rw [Pool.act_turn_some hi]
      exact h.step input hi hok

theorem Settled.not_revived (h : Settled f p) : ¬ Revived f agent p := by
  rintro ⟨i, s, input, -, hended, -, hjudged⟩
  simp only [LiveTask.step] at hjudged
  split at hjudged
  · next verdict live hget =>
    obtain rfl : verdict = true := by simpa using hjudged
    obtain ⟨checkedAt, hlook⟩ : ∃ checkedAt, p.shared.live.lookup s.liveKey = some (true, checkedAt) :=
      liveCacheGet_eq_some (by rw [hget])
    exact h.cache s hended checkedAt hlook
  · split at hjudged
    · cases hjudged
    · simp at hjudged

/-- **Old sessions end with a password change**, in every run of this process whose steps are all
orderly. -/
theorem no_old_session_revived (f : AccountForeign) (agent : Bool) (a : Accounts)
    (acts : List (Pool.Act AccountOp LiveCall LiveInput))
    (hok : Once.Along (Pool.act (liveChecks f agent)) (Orderly f) (LiveState.fresh a) acts) :
    ∀ done, done <+: acts → ¬ Revived f agent (Pool.run (liveChecks f agent) (LiveState.fresh a) done) := by
  rintro done ⟨rest, rfl⟩
  have hsettled : Settled f (Pool.run (liveChecks f agent) (LiveState.fresh a) done) :=
    hok.of_append.1.keeps (fun p act hact h => h.act act hact) (settled_fresh f a)
  exact hsettled.not_revived

/-! ## A check beside a change -/

/-- One visitor, whose id reads as the number one; a hash is the password itself. -/
def plainAccounts : AccountForeign where
  parseUuid text := if text = "v" then some 1 else none
  bar_notMem text h := by
    have htext : text = "v" := by
      by_contra hne
      simp [hne] at h
    rw [htext]
    decide
  verifyPassword password hash := password == hash
  hashPassword password := some password

def oneAccount : Accounts where
  visitors := (∅ : Table Nat VisitorRow).insert 1 ⟨"old", false, 0⟩
  grants := [(1, 7)]
  sites := [⟨7, "a.example", []⟩]
  used := [1]
  used_of_mem id h := by
    rcases (AList.mem_insert _).mp h with rfl | h
    · exact List.mem_cons_self
    · exact absurd h (AList.notMem_empty _)

def firstSession : VisitorSession := ⟨"v", "a.example", 0, 100⟩

/-- The turn of a task at a second, with the control plane in reach. -/
def turnAt (task now : Nat) : Pool.Act AccountOp LiveCall LiveInput := .turn task ⟨now, .reached⟩

/-- A check from start to end, a change from start to end, and one more check. -/
def checkThenChange : List (Pool.Act AccountOp LiveCall LiveInput) :=
  [.spawn (.check firstSession), turnAt 0 1, turnAt 0 2, turnAt 0 3,
    .spawn (.password firstSession "old" "new" "new"), turnAt 1 4, turnAt 1 5, .spawn (.check firstSession)]

theorem check_then_change_ends_session :
    ¬ Revived plainAccounts true
      (Pool.run (liveChecks plainAccounts true) (LiveState.fresh oneAccount) checkThenChange) := by
  refine no_old_session_revived plainAccounts true oneAccount checkThenChange ?_ _ prefix_rfl
  refine ⟨trivial, trivial, fun hfails => ?_, trivial, trivial, trivial, ?_, trivial, trivial⟩
  · exact absurd hfails (by decide +kernel)
  · have htasks : (Pool.run (liveChecks plainAccounts true) (LiveState.fresh oneAccount)
        (checkThenChange.take 6)).tasks = [.judged firstSession true false, .changed firstSession 1] := by
      decide +kernel
    intro t ht old _ _ hcarries
    rcases mem_pair.mp (htasks ▸ ht) with rfl | rfl
    · exact hcarries
    · exact hcarries

/-- The same with the first check's verdict written after the drop. -/
def checkAcrossChange : List (Pool.Act AccountOp LiveCall LiveInput) :=
  [.spawn (.check firstSession), turnAt 0 1, turnAt 0 2,
    .spawn (.password firstSession "old" "new" "new"), turnAt 1 3, turnAt 1 4, turnAt 0 5,
    .spawn (.check firstSession)]

/-- A check under way while the password changes brings the old session back. -/
theorem check_across_change_revives :
    Revived plainAccounts true
      (Pool.run (liveChecks plainAccounts true) (LiveState.fresh oneAccount) checkAcrossChange) :=
  ⟨2, firstSession, ⟨6, .reached⟩, by decide +kernel, ⟨1, by decide +kernel, by decide +kernel⟩,
    by decide +kernel, by decide +kernel⟩

end PingWaf.Auth
