import PingWaf.Server.Streams

/-!
# Streams that end late

A stream takes only its own registration away, but the row of the agent goes offline by the age of
its last heartbeat, which is the last one stored (`lastHeartbeat_step`).
-/

namespace PingWaf.Server

/-- No stream has taken the agent offline while a newer one was registered. -/
def AgentLink.Live (s : AgentLink) : Prop :=
  ∀ m ∈ s.marks, ∀ newer, m.2 = some newer → newer ≤ m.1

/-- When a stream marks the agent while a newer one is registered, a heartbeat was stored shortly
before, the agent is offline already or the statement fails. -/
def Timely (input : StreamInput) (s : AgentLink) : StreamTask → Prop
  | .marking generation =>
    ∀ newer, s.registered = some newer → generation < newer →
      (∃ t, s.stored.getLast? = some t ∧ input.now ≤ t + offlineAfter) ∨
        s.row.status = .offline ∨ input.dbFails = true
  | _ => True

variable {s : AgentLink} {t : StreamTask} {input : StreamInput}

theorem lastHeartbeat_step (h : s.row.lastHeartbeat = s.stored.getLast?) :
    (t.step input s).1.row.lastHeartbeat = (t.step input s).1.stored.getLast? := by
  cases t with
  | persisting _ _ =>
    simp only [StreamTask.step]
    split
    · exact h
    · exact List.getLast?_concat.symm
  | marking _ =>
    simp only [StreamTask.step]
    split
    · exact h
    · exact h
  | _ => exact h

theorem goesOffline_iff (h : s.row.lastHeartbeat = s.stored.getLast?) (now : Nat) :
    s.row.goesOffline now = true ↔
      ¬ ((∃ t, s.stored.getLast? = some t ∧ now ≤ t + offlineAfter) ∨ s.row.status = .offline) := by
  unfold AgentRow.goesOffline
  rw [h]
  cases s.stored.getLast? with
  | none => simp
  | some _ =>
    simp only [Option.all_some, Bool.and_eq_true, decide_eq_true_eq, bne_iff_ne, Option.some_inj,
      exists_eq_left', not_or, not_le]
    exact and_congr_left fun _ => by omega

theorem live_step_iff (h : s.row.lastHeartbeat = s.stored.getLast?) (hlive : s.Live) :
    (t.step input s).1.Live ↔ Timely input s t := by
  cases t with
  | marking generation =>
    simp only [StreamTask.step]
    have hoff := goesOffline_iff h input.now
    split
    · next heffect =>
      rw [Bool.and_eq_true, Bool.not_eq_true', hoff, not_or] at heffect
      obtain ⟨hdb, hlate, hstatus⟩ := heffect
      constructor
      · intro hafter newer hnewer hlt
        have hle := hafter (generation, s.registered) (by simp) newer hnewer
        exact absurd hlt (Nat.not_lt.mpr hle)
      · intro htimely m hm newer hnewer
        rcases List.mem_append.mp hm with hm | hm
        · exact hlive m hm newer hnewer
        · obtain rfl := List.mem_singleton.mp hm
          by_contra hlt
          rcases htimely newer hnewer (by simpa using hlt) with hfresh | hoffline | hfails
          · exact hlate hfresh
          · exact hstatus hoffline
          · simp [hdb] at hfails
    · next hnone =>
      refine iff_of_true hlive fun newer hnewer hlt => ?_
      rw [Bool.and_eq_true, Bool.not_eq_true', hoff] at hnone
      by_contra hno
      rw [not_or, not_or, Bool.not_eq_true] at hno
      exact hnone ⟨hno.2.2, not_or.mpr ⟨hno.1, hno.2.1⟩⟩
  | persisting _ _ =>
    refine iff_of_true ?_ trivial
    simp only [StreamTask.step]
    split
    · exact hlive
    · exact hlive
  | _ => exact iff_of_true hlive trivial

/-- For every row and every run of the agent's streams: no stream takes the agent offline while a
newer one is registered, if and only if every turn is timely. -/
theorem stale_end_harmless_iff (row : AgentRow) (acts : List (Pool.Act Empty Int StreamInput)) :
    (∀ done, done <+: acts → (Pool.run streams ⟨.fresh row, []⟩ done).shared.Live) ↔
      Pool.Turns streams Timely ⟨.fresh row, []⟩ acts := by
  refine Once.forall_states_iff (P := fun p : Pool.State AgentLink StreamTask => p.shared.Live)
    (I := fun p => p.shared.row.lastHeartbeat = p.shared.stored.getLast?)
    (fun p act h => ?_) (fun p act h hlive => ?_) ?_ fun m hm => absurd hm List.not_mem_nil
  · cases act with
    | env e => exact nomatch e
    | spawn _ => exact h
    | turn i _ =>
      cases hi : p.tasks[i]? with
      | none => rwa [Pool.act_turn_none hi]
      | some _ =>
        rw [Pool.act_turn_some hi]
        exact lastHeartbeat_step h
  · cases act with
    | env e => exact nomatch e
    | spawn _ => exact iff_of_true hlive trivial
    | turn i _ =>
      cases hi : p.tasks[i]? with
      | none =>
        rw [Pool.act_turn_none hi]
        exact iff_of_true hlive fun t ht => nomatch hi.symm.trans ht
      | some t =>
        rw [Pool.act_turn_some hi]
        refine (live_step_iff h hlive).trans ⟨fun hok u hu => ?_, fun hok => hok t hi⟩
        cases hi.symm.trans hu
        exact hok
  · cases hrow : row.lastHeartbeat <;> simp [AgentLink.fresh, hrow]

/-- A second stream opens, and the first one ends five seconds after the last heartbeat. -/
def overlappingStreams : List (Pool.Act Empty Int StreamInput) :=
  [.spawn 1, .turn 0 ⟨0, none, false⟩, .turn 0 ⟨0, none, false⟩,
    .spawn 1, .turn 1 ⟨100, none, false⟩, .turn 1 ⟨100, none, false⟩,
    .turn 0 ⟨5100, none, false⟩, .turn 0 ⟨5100, none, false⟩]

theorem stale_end_marks_live_agent :
    (Pool.run streams ⟨.fresh ⟨.online, none⟩, []⟩ overlappingStreams).shared.marks =
        [(1, some 2)] ∧
      (Pool.run streams ⟨.fresh ⟨.online, none⟩, []⟩ overlappingStreams).shared.row.status =
        .offline := by
  decide +kernel

end PingWaf.Server
