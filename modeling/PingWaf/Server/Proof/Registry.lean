import PingWaf.Server.Registry

/-!
# Commands reach an agent in order

`Turn` says all that one turn of a task can do to the link of its agent. No run loses a command or
puts it twice (`Accounted`), and in the runs in which the sections of the calls for an agent do not
interleave and no live channel is full the commands keep the order of the calls (`Calm`, `Busy`).
-/

namespace PingWaf.Server

open Sending Multiset

variable {Id C : Type}

/-! ## One turn -/

inductive Turn (l : Link C) (t : Sending Id C) : Link C → Sending Id C → Prop
  | connects (g : Nat) (h : t.phase = .connecting) :
      Turn l t (l.connect g).1 (next { t with rest := l.pending })
  | reads {c : C} {k : Connection} (h : t.phase = .reading c) (hk : l.connected = some k) :
      Turn l t l { t with phase := .trying k.sender c }
  | away {c : C} (h : t.phase = .reading c) (hk : l.connected = none) :
      Turn l t l { t with phase := .queueing c }
  | puts {c : C} {i : Nat} {s : Stream C} (h : t.phase = .trying i c)
      (hs : l.streams[i]? = some s) (halive : s.alive = true) (hroom : s.hasRoom = true) :
      Turn l t
        { l with
          streams := l.streams.set i { s with buffer := s.buffer ++ [c] }
          put := l.put ++ [c] }
        t.next
  | refused {c : C} {i : Nat} (h : t.phase = .trying i c)
      (hs : ∀ s, l.streams[i]? = some s → s.alive = true → s.hasRoom = false) :
      Turn l t l { t with phase := .queueing c }
  | queues {c : C} (h : t.phase = .queueing c) : Turn l t (l.enqueue c) t.next
  | rests (h : t.phase = .finished) : Turn l t l t

@[simp] theorem next_agent (t : Sending Id C) : t.next.agent = t.agent := by
  unfold next
  split <;> rfl

@[simp] theorem next_replays (t : Sending Id C) : t.next.replays = t.replays := by
  unfold next
  split <;> rfl

@[simp] theorem next_commands (t : Sending Id C) : t.next.commands = t.rest := by
  unfold next
  split
  · next h => exact h.symm
  · next h => exact h.symm

theorem Turn.agent {l l' : Link C} {t t' : Sending Id C} (h : Turn l t l' t') :
    t'.agent = t.agent := by
  cases h <;> first | rfl | exact next_agent _

variable [DecidableEq Id]

@[simp] theorem modify_self (r : Registry Id C) (a : Id) (f : Link C → Link C) :
    (r.modify a f).agents a = f (r.agents a) := by
  simp [Registry.modify]

@[simp] theorem modify_other (r : Registry Id C) {a b : Id} (h : b ≠ a) (f : Link C → Link C) :
    (r.modify a f).agents b = r.agents b := by
  simp [Registry.modify, h]

theorem step_turn (r : Registry Id C) (t : Sending Id C) :
    Turn (r.agents t.agent) t ((t.step r).1.agents t.agent) (t.step r).2 := by
  unfold step
  cases hphase : t.phase with
  | connecting =>
    dsimp only
    have hself := modify_self r t.agent fun _ =>
      ((r.agents t.agent).connect ((r.nextGeneration + 1) % 2 ^ 64)).1
    rw [hself]
    exact .connects _ hphase
  | reading _ =>
    dsimp only
    cases hk : (r.agents t.agent).connected with
    | none => exact .away hphase hk
    | some _ => exact .reads hphase hk
  | trying i _ =>
    dsimp only
    unfold Link.trySend
    cases hs : (r.agents t.agent).streams[i]? with
    | none => exact .refused hphase (by simp [hs])
    | some s =>
      dsimp only
      by_cases halive : s.alive = true
      · by_cases hroom : s.hasRoom = true
        · rw [if_neg (by simpa using halive), if_neg (by simpa using hroom)]
          dsimp only
          rw [modify_self]
          exact .puts hphase hs halive hroom
        · rw [if_neg (by simpa using halive), if_pos (by simpa using hroom)]
          exact .refused hphase (by simpa [hs] using fun _ => hroom)
      · rw [if_pos (by simpa using halive)]
        exact .refused hphase (by simp [hs, halive])
  | queueing _ =>
    dsimp only
    rw [modify_self]
    exact .queues hphase
  | finished => exact .rests hphase

theorem step_other (r : Registry Id C) (t : Sending Id C) {a : Id} (h : a ≠ t.agent) :
    (t.step r).1.agents a = r.agents a := by
  unfold step
  cases t.phase with
  | connecting =>
    dsimp only
    exact modify_other r h _
  | reading _ =>
    dsimp only
    cases (r.agents t.agent).connected <;> rfl
  | trying i c =>
    dsimp only
    cases (r.agents t.agent).trySend i c with
    | error _ => rfl
    | ok _ =>
      dsimp only
      exact modify_other r h _
  | queueing _ =>
    dsimp only
    exact modify_other r h _
  | finished => rfl

/-! ## No command is lost or put twice -/

section Accounting

omit [DecidableEq Id]

/-- The commands that the link was given, wherever they are. -/
def Link.held (l : Link C) : Multiset C := l.put + l.overflowed + l.pending

theorem held_enqueue (l : Link C) (c : C) : (l.enqueue c).held = l.held + {c} := by
  unfold Link.enqueue Link.held
  split
  · have hsplit : (l.pending : Multiset C) = ↑(l.pending.take 1) + ↑(l.pending.drop 1) := by
      rw [coe_add, List.take_append_drop]
    simp only [← coe_add, coe_singleton]
    rw [hsplit]
    abel
  · simp only [← coe_add, coe_singleton]
    abel

theorem Turn.held {l l' : Link C} {t t' : Sending Id C} (h : Turn l t l' t') :
    l'.held + ↑t'.commands = l.held + ↑t.commands := by
  cases h with
  | connects _ h =>
    rw [next_commands]
    simp [Link.held, Link.connect, commands, h]
  | reads h _ | away h _ => simp [commands, h]
  | puts h _ _ _ =>
    rw [next_commands]
    simp only [Link.held, commands, h, ← coe_add, ← cons_coe,
      ← singleton_add]
    abel
  | refused h _ => simp [commands, h]
  | queues h =>
    rw [next_commands, held_enqueue]
    simp only [commands, h, ← cons_coe, ← singleton_add]
    abel
  | rests _ => rfl

def Link.onStreams (l : Link C) : Multiset C := (l.streams.map fun s => (s.carried : Multiset C)).sum

theorem Turn.onStreams {l l' : Link C} {t t' : Sending Id C} (h : Turn l t l' t')
    (hl : l.onStreams = l.put) : l'.onStreams = l'.put := by
  cases h with
  | connects _ _ => simpa [Link.onStreams, Link.connect, Stream.carried] using hl
  | reads _ _ | away _ _ => exact hl
  | @puts c i s h hs halive hroom =>
    have hset := Pool.sum_map_set (fun s : Stream C => (s.carried : Multiset C)) l.streams hs
      { s with buffer := s.buffer ++ [c] }
    have hcarried : (Stream.carried { s with buffer := s.buffer ++ [c] } : Multiset C) =
        {c} + s.carried := by
      simp only [Stream.carried, ← coe_add, coe_singleton]
      abel
    rw [hcarried, ← add_assoc] at hset
    have hsum := add_right_cancel hset
    unfold Link.onStreams at hl ⊢
    rw [hsum, hl]
    exact coe_add l.put [c]
  | refused _ _ => exact hl
  | queues _ =>
    unfold Link.enqueue
    split <;> exact hl
  | rests _ => exact hl

end Accounting

/-! ## What happens from elsewhere -/

structure Stream.Ages (s s' : Stream C) : Prop where
  carried : s'.carried = s.carried
  buffer : s'.buffer.length ≤ s.buffer.length
  alive : s'.alive = true → s.alive = true

structure Link.Ages (l l' : Link C) : Prop where
  held : l'.held = l.held
  put : l'.put = l.put
  pending : l'.pending = l.pending
  connected : ∀ k, l'.connected = some k → l.connected = some k
  onStreams : l'.onStreams = l.onStreams
  streams : ∀ (i : Nat) s', l'.streams[i]? = some s' → ∃ s, l.streams[i]? = some s ∧ Stream.Ages s s'

section Aging

omit [DecidableEq Id]

theorem Stream.Ages.refl (s : Stream C) : s.Ages s := ⟨rfl, le_rfl, id⟩

theorem Link.Ages.refl (l : Link C) : l.Ages l :=
  ⟨rfl, rfl, rfl, fun _ h => h, rfl, fun _ s h => ⟨s, h, .refl s⟩⟩

theorem receive_ages (s : Stream C) : s.Ages s.receive := by
  unfold Stream.receive
  split
  · exact .refl s
  · next c buffer hbuffer =>
    split
    · refine ⟨?_, ?_, id⟩
      · simp [Stream.carried, hbuffer]
      · simp [hbuffer]
    · exact .refl s

theorem close_ages (s : Stream C) : s.Ages { s with alive := false } :=
  ⟨rfl, le_rfl, fun h => nomatch h⟩

theorem onStream_ages (l : Link C) (i : Nat) {f : Stream C → Stream C} (hf : ∀ s, Stream.Ages s (f s)) :
    l.Ages (l.onStream i f) := by
  have hmap : (l.streams.modify i f).map (fun s => (s.carried : Multiset C)) =
      l.streams.map fun s => (s.carried : Multiset C) := by
    refine List.ext_getElem? fun k => ?_
    rw [List.getElem?_map, List.getElem?_map, List.getElem?_modify]
    cases l.streams[k]? with
    | none => rfl
    | some s =>
      simp only [Option.map_eq_map, Option.map_some]
      split
      · rw [(hf s).carried]
      · rfl
  refine ⟨rfl, rfl, rfl, fun _ h => h, congrArg List.sum hmap, fun k s' hs' => ?_⟩
  simp only [Link.onStream, List.getElem?_modify, Option.map_eq_map, Option.map_eq_some_iff] at hs'
  obtain ⟨s, hs, rfl⟩ := hs'
  refine ⟨s, hs, ?_⟩
  split
  · exact hf s
  · exact .refl s

theorem disconnect_ages (l : Link C) (g : Nat) : l.Ages (l.disconnect g) := by
  unfold Link.disconnect
  split
  · split
    · exact ⟨rfl, rfl, rfl, (fun _ h => nomatch h), rfl, fun _ s h => ⟨s, h, .refl s⟩⟩
    · exact .refl l
  · exact .refl l

end Aging

theorem modify_ages (r : Registry Id C) (a b : Id) {f : Link C → Link C} (hf : ∀ l, Link.Ages l (f l)) :
    (r.agents a).Ages ((r.modify b f).agents a) := by
  by_cases h : a = b
  · subst h
    rw [modify_self]
    exact hf _
  · rw [modify_other r h]
    exact .refl _

theorem event_ages (e : RegistryEvent Id) (r : Registry Id C) (a : Id) :
    (r.agents a).Ages ((e.apply r).agents a) := by
  cases e with
  | receive b i => exact modify_ages r a b fun l => onStream_ages l i receive_ages
  | close b i => exact modify_ages r a b fun l => onStream_ages l i close_ages
  | disconnect b g => exact modify_ages r a b fun l => disconnect_ages l g

/-! ## The order of the calls -/

/-- What holds of the link of an agent for which the calls so far were orderly. -/
structure Calm (l : Link C) (calls : List C) : Prop where
  ordered : (l.put ++ l.pending).Sublist calls
  live : ∀ k s, l.connected = some k → l.streams[k.sender]? = some s → s.alive = true →
    l.pending = []
  short : l.pending.length ≤ pendingCommandLimit

/-- What holds of the one task that is under way for the agent. What it has still to place was
called last, behind all that is put or queued; the stream it has read is still the registered one,
if any is; it queues only where no registered stream is alive; and a replay fits into the channel
of its stream. -/
structure Busy (l : Link C) (calls : List C) (t : Sending Id C) : Prop where
  ordered : (l.put ++ l.pending ++ t.commands).Sublist calls
  live : ∀ i c s, t.phase = .trying i c → l.streams[i]? = some s → s.alive = true → l.pending = []
  same : ∀ i c k, t.phase = .trying i c → l.connected = some k → k.sender = i
  dead : ∀ c k s, t.phase = .queueing c → l.connected = some k →
    l.streams[k.sender]? = some s → s.alive = false
  fits : t.replays = true → t.phase ≠ .connecting → ∀ k s, l.connected = some k →
    l.streams[k.sender]? = some s → s.buffer.length + t.commands.length ≤ commandChannelCapacity
  fitsTrying : t.replays = true → ∀ i c s, t.phase = .trying i c → l.streams[i]? = some s →
    s.buffer.length + t.commands.length ≤ commandChannelCapacity

section Ordered

omit [DecidableEq Id]

variable {l l' : Link C} {calls calls' : List C} {t t' : Sending Id C}

theorem Calm.mono (h : Calm l calls) (hcalls : calls.Sublist calls') : Calm l calls' :=
  { h with ordered := h.ordered.trans hcalls }

theorem Calm.ages (h : Calm l calls) (hages : l.Ages l') : Calm l' calls where
  ordered := by
    rw [hages.put, hages.pending]
    exact h.ordered
  live k s' hk hs' halive := by
    obtain ⟨s, hs, haging⟩ := hages.streams _ s' hs'
    rw [hages.pending]
    exact h.live k s (hages.connected k hk) hs (haging.alive halive)
  short := by
    rw [hages.pending]
    exact h.short

theorem Busy.ages (h : Busy l calls t) (hages : l.Ages l') : Busy l' calls t where
  ordered := by
    rw [hages.put, hages.pending]
    exact h.ordered
  live i c s' hphase hs' halive := by
    obtain ⟨s, hs, haging⟩ := hages.streams _ s' hs'
    rw [hages.pending]
    exact h.live i c s hphase hs (haging.alive halive)
  same i c k hphase hk := h.same i c k hphase (hages.connected k hk)
  dead c k s' hphase hk hs' := by
    obtain ⟨s, hs, haging⟩ := hages.streams _ s' hs'
    have hdead := h.dead c k s hphase (hages.connected k hk) hs
    by_contra halive
    rw [haging.alive (by simpa using halive)] at hdead
    cases hdead
  fits hreplays hphase k s' hk hs' := by
    obtain ⟨s, hs, haging⟩ := hages.streams _ s' hs'
    have := h.fits hreplays hphase k s (hages.connected k hk) hs
    have := haging.buffer
    omega
  fitsTrying hreplays i c s' hphase hs' := by
    obtain ⟨s, hs, haging⟩ := hages.streams _ s' hs'
    have := h.fitsTrying hreplays i c s hphase hs
    have := haging.buffer
    omega

theorem next_phase (t : Sending Id C) :
    t.next.phase = .finished ∨ ∃ c, t.next.phase = .reading c := by
  unfold next
  split
  · exact .inl rfl
  · exact .inr ⟨_, rfl⟩

theorem busy_next (hordered : (l.put ++ l.pending ++ t.rest).Sublist calls)
    (hfits : t.replays = true → ∀ k s, l.connected = some k → l.streams[k.sender]? = some s →
      s.buffer.length + t.rest.length ≤ commandChannelCapacity) : Busy l calls t.next := by
  have hphase := next_phase t
  refine ⟨?_, ?_, ?_, ?_, fun hreplays _ k s hk hs => ?_, ?_⟩
  · rw [next_commands]
    exact hordered
  · rintro i c s htrying
    rw [htrying] at hphase
    simp at hphase
  · rintro i c k htrying
    rw [htrying] at hphase
    simp at hphase
  · rintro c k s hqueueing
    rw [hqueueing] at hphase
    simp at hphase
  · rw [next_commands]
    rw [next_replays] at hreplays
    exact hfits hreplays k s hk hs
  · rintro - i c s htrying
    rw [htrying] at hphase
    simp at hphase

theorem calm_connect (h : Calm l calls) (g : Nat) :
    Calm (l.connect g).1 calls ∧
      Busy (l.connect g).1 calls (next { t with rest := l.pending }) := by
  refine ⟨⟨?_, fun _ _ _ _ _ => rfl, Nat.zero_le _⟩, busy_next ?_ fun _ k s hk hs => ?_⟩
  · exact (List.sublist_append_left _ _).trans (by simpa [Link.connect] using h.ordered)
  · simpa [Link.connect] using h.ordered
  · obtain rfl : (⟨l.streams.length, g⟩ : Connection) = k := by simpa [Link.connect] using hk
    obtain rfl : (⟨[], [], true⟩ : Stream C) = s := by simpa [Link.connect] using hs
    have hshort : l.pending.length ≤ commandChannelCapacity := h.short
    simpa using hshort

theorem calm_put (h : Calm l calls) (hbusy : Busy l calls t) {c : C} {i : Nat} {s : Stream C}
    (hphase : t.phase = .trying i c) (hs : l.streams[i]? = some s) (halive : s.alive = true) :
    let l' : Link C := { l with
      streams := l.streams.set i { s with buffer := s.buffer ++ [c] }
      put := l.put ++ [c] }
    Calm l' calls ∧ Busy l' calls t.next := by
  -- The queue is empty: the command is the oldest that is not put yet.
  have hempty := hbusy.live i c s hphase hs halive
  have hordered : (l.put ++ [c] ++ l.pending ++ t.rest).Sublist calls := by
    have := hbusy.ordered
    simpa [commands, hphase, hempty] using this
  refine ⟨⟨(List.sublist_append_left _ _).trans hordered, fun _ _ _ _ _ => hempty, h.short⟩,
    busy_next hordered fun hreplays k s' hk hs' => ?_⟩
  have hsame := hbusy.same i c k hphase hk
  have hfits := hbusy.fitsTrying hreplays i c s hphase hs
  obtain ⟨hlt, -⟩ := List.getElem?_eq_some_iff.mp hs
  simp only [hsame, List.getElem?_set_self hlt, Option.some.injEq] at hs'
  subst hs'
  simp only [commands, hphase, List.length_cons] at hfits
  simp only [List.length_append, List.length_singleton]
  omega

theorem calm_refused (hbusy : Busy l calls t) {c : C} {i : Nat} (hphase : t.phase = .trying i c)
    (hs : ∀ s, l.streams[i]? = some s → s.alive = true → s.hasRoom = false)
    (hroom : t.replays = false → t.findsFull l = false) :
    Busy l calls { t with phase := .queueing c } := by
  have hcommands : commands { t with phase := .queueing c } = t.commands := by
    simp [commands, hphase]
  refine ⟨hcommands ▸ hbusy.ordered, nofun, nofun, fun c' k s _ hk hs' => ?_,
    fun hreplays _ k s hk hs' => ?_, nofun⟩
  · -- A refusal of a live stream would be for want of room.
    have hsame := hbusy.same i c k hphase hk
    rw [hsame] at hs'
    by_contra halive
    have hfull := hs s hs' (by simpa using halive)
    cases hreplays : t.replays with
    | false =>
      have := hroom hreplays
      simp [findsFull, hphase, hs', hfull, halive] at this
    | true =>
      have := hbusy.fitsTrying hreplays i c s hphase hs'
      simp only [commands, hphase, List.length_cons] at this
      simp only [Stream.hasRoom, decide_eq_false_iff_not] at hfull
      omega
  · rw [hcommands]
    exact hbusy.fits hreplays (by simp [hphase]) k s hk hs'

theorem enqueue_pending (l : Link C) (c : C) :
    (l.enqueue c).pending.Sublist (l.pending ++ [c]) := by
  unfold Link.enqueue
  split
  · exact (List.drop_sublist 1 l.pending).append_right [c]
  · exact List.Sublist.refl _

theorem enqueue_short {l : Link C} (h : l.pending.length ≤ pendingCommandLimit) (c : C) :
    (l.enqueue c).pending.length ≤ pendingCommandLimit := by
  unfold Link.enqueue
  split
  · next hfull =>
    have : pendingCommandLimit = 64 := rfl
    simp only [List.length_append, List.length_drop, List.length_singleton]
    omega
  · next hshort =>
    simp only [List.length_append, List.length_singleton]
    omega

@[simp] theorem enqueue_put (l : Link C) (c : C) : (l.enqueue c).put = l.put := by
  unfold Link.enqueue
  split <;> rfl

@[simp] theorem enqueue_connected (l : Link C) (c : C) : (l.enqueue c).connected = l.connected := by
  unfold Link.enqueue
  split <;> rfl

@[simp] theorem enqueue_streams (l : Link C) (c : C) : (l.enqueue c).streams = l.streams := by
  unfold Link.enqueue
  split <;> rfl

theorem calm_queue (h : Calm l calls) (hbusy : Busy l calls t) {c : C}
    (hphase : t.phase = .queueing c) :
    Calm (l.enqueue c) calls ∧ Busy (l.enqueue c) calls t.next := by
  have hordered : ((l.enqueue c).put ++ (l.enqueue c).pending ++ t.rest).Sublist calls := by
    refine List.Sublist.trans ?_ hbusy.ordered
    have hqueue := ((enqueue_pending l c).append_left l.put).append_right t.rest
    simpa [commands, hphase] using hqueue
  refine ⟨⟨(List.sublist_append_left _ _).trans hordered, fun k s hk hs halive => ?_,
    enqueue_short h.short c⟩, busy_next hordered fun hreplays k s hk hs => ?_⟩
  · rw [enqueue_connected] at hk
    rw [enqueue_streams] at hs
    rw [hbusy.dead c k s hphase hk hs] at halive
    cases halive
  · rw [enqueue_connected] at hk
    rw [enqueue_streams] at hs
    have := hbusy.fits hreplays (by simp [hphase]) k s hk hs
    simp only [commands, hphase, List.length_cons] at this
    omega

theorem Turn.calm (h : Turn l t l' t') (hcalm : Calm l calls) (hbusy : Busy l calls t)
    (hroom : t.replays = false → t.findsFull l = false) : Calm l' calls ∧ Busy l' calls t' := by
  cases h with
  | connects g _ => exact calm_connect hcalm g
  | @reads c k h hk =>
    have hcommands : commands { t with phase := .trying k.sender c } = t.commands := by
      simp [commands, h]
    refine ⟨hcalm, hcommands ▸ hbusy.ordered, ?_, ?_, nofun, ?_, ?_⟩
    · rintro i c' s ⟨rfl, rfl⟩ hs halive
      exact hcalm.live k s hk hs halive
    · rintro i c' k' ⟨rfl, rfl⟩ hk'
      rw [Option.some.inj (hk.symm.trans hk')]
    · rintro hreplays - k' s hk' hs
      rw [hcommands]
      exact hbusy.fits hreplays (by simp [h]) k' s hk' hs
    · rintro hreplays i c' s ⟨rfl, rfl⟩ hs
      rw [hcommands]
      exact hbusy.fits hreplays (by simp [h]) k s hk hs
  | @away c h hk =>
    have hcommands : commands { t with phase := .queueing c } = t.commands := by
      simp [commands, h]
    refine ⟨hcalm, hcommands ▸ hbusy.ordered, nofun, nofun, ?_, ?_, nofun⟩
    · rintro c' k s - hk'
      rw [hk] at hk'
      cases hk'
    · rintro hreplays - k s hk'
      rw [hk] at hk'
      cases hk'
  | puts h hs halive _ => exact calm_put hcalm hbusy h hs halive
  | refused h hs => exact ⟨hcalm, calm_refused hbusy h hs hroom⟩
  | queues h => exact calm_queue hcalm hbusy h
  | rests _ => exact ⟨hcalm, hbusy⟩

end Ordered

/-! ## Runs -/

section Calls

variable (a : Id) (log : List (RegistryAct Id C))

@[simp] theorem commandsCalled_env (e : RegistryEvent Id) :
    commandsCalled a (log ++ [.env e]) = commandsCalled a log := by
  simp [commandsCalled]

@[simp] theorem commandsCalled_turn (i : Nat) (u : Unit) :
    commandsCalled a (log ++ [.turn i u]) = commandsCalled a log := by
  simp [commandsCalled]

theorem commandsCalled_spawn (call : RegistryCall Id C) :
    commandsCalled a (log ++ [.spawn call]) =
      commandsCalled a log ++ call.task.commandsFor a := by
  cases call with
  | heartbeat b | sendCommand b _ =>
    by_cases h : b = a <;>
      simp [commandsCalled, RegistryCall.task, commandsFor, commands, h]

end Calls

variable {t : Sending Id C} {i : Nat}

theorem step_idle (r : Registry Id C) (h : t.busy = false) : t.step r = (r, t) := by
  unfold busy at h
  unfold step
  split at h
  · next hphase => simp [hphase]
  · cases h

def Sending.share (a : Id) (t : Sending Id C) : Multiset C := t.commandsFor a

/-- Every command that was called is with the link or with a task. -/
structure Accounted (a : Id) (calls : List C) (p : RegistryState Id C) : Prop where
  held : (p.shared.agents a).held + Pool.total (share a) p = calls
  onStreams : (p.shared.agents a).onStreams = (p.shared.agents a).put

theorem step_held (r : Registry Id C) (t : Sending Id C) (a : Id) :
    ((t.step r).1.agents a).held + (t.step r).2.share a = (r.agents a).held + t.share a := by
  have hturn := step_turn r t
  have hagent := hturn.agent
  unfold share commandsFor
  rw [hagent]
  by_cases h : t.agent = a
  · subst h
    rw [if_pos rfl, if_pos rfl]
    exact hturn.held
  · rw [if_neg h, if_neg h, step_other r t (Ne.symm h)]

theorem step_onStreams (r : Registry Id C) (t : Sending Id C) (a : Id)
    (h : (r.agents a).onStreams = (r.agents a).put) :
    ((t.step r).1.agents a).onStreams = ((t.step r).1.agents a).put := by
  by_cases ha : t.agent = a
  · subst ha
    exact (step_turn r t).onStreams h
  · rw [step_other r t (Ne.symm ha)]
    exact h

theorem Accounted.act {a : Id} {log : List (RegistryAct Id C)} {p : RegistryState Id C}
    (h : Accounted a (commandsCalled a log) p) (act : RegistryAct Id C) :
    Accounted a (commandsCalled a (log ++ [act])) (Pool.act (registry Id C) p act) := by
  cases act with
  | env e =>
    have hages := event_ages e p.shared a
    rw [commandsCalled_env]
    refine ⟨?_, hages.onStreams.trans (h.onStreams.trans (congrArg _ hages.put).symm)⟩
    rw [← h.held, ← hages.held]
    rfl
  | spawn _ =>
    refine ⟨?_, h.onStreams⟩
    rw [commandsCalled_spawn, Pool.total_spawn, ← add_assoc, ← coe_add]
    exact congrArg (· + _) h.held
  | turn i u =>
    rw [commandsCalled_turn]
    cases ht : p.tasks[i]? with
    | none => exact (Pool.act_turn_none ht u).symm ▸ h
    | some t =>
      have hshared : (Pool.act (registry Id C) p (.turn i u)).shared = (t.step p.shared).1 := by
        rw [Pool.act_turn_some ht]
        rfl
      refine ⟨?_, ?_⟩
      · have htotal := Pool.total_turn (S := registry Id C) ht u (share a)
        have hstep := step_held p.shared t a
        have hnext : ((registry Id C).step u p.shared t).2 = (t.step p.shared).2 := rfl
        rw [hnext] at htotal
        rw [hshared, ← h.held]
        refine add_right_cancel (b := t.share a) ?_
        rw [add_assoc, htotal, ← add_assoc, add_right_comm, hstep]
        abel
      · rw [hshared]
        exact step_onStreams p.shared t a h.onStreams

/-- No two tasks are under way for the agent, and the order holds of the one that is. -/
structure InOrder (a : Id) (calls : List C) (p : RegistryState Id C) : Prop where
  calm : Calm (p.shared.agents a) calls
  alone : ∀ (i j : Nat) t u, p.tasks[i]? = some t → p.tasks[j]? = some u → t.agent = a →
    u.agent = a → t.busy = true → u.busy = true → i = j
  busy : ∀ (i : Nat) t, p.tasks[i]? = some t → t.agent = a → t.busy = true →
    Busy (p.shared.agents a) calls t

variable {a : Id} {p : RegistryState Id C} {calls : List C}

omit [DecidableEq Id] in
theorem busy_task {l : Link C} (h : Calm l calls) (call : RegistryCall Id C) :
    Busy l (calls ++ call.task.commands) call.task := by
  have hordered : (l.put ++ l.pending ++ call.task.commands).Sublist
      (calls ++ call.task.commands) := h.ordered.append_right _
  cases call with
  | sendCommand _ _ => exact ⟨hordered, nofun, nofun, nofun, nofun, nofun⟩
  | heartbeat _ =>
    exact ⟨hordered, nofun, nofun, nofun, fun _ hphase => absurd rfl hphase, nofun⟩

theorem InOrder.env (h : InOrder a calls p) (e : RegistryEvent Id) :
    InOrder a calls (Pool.act (registry Id C) p (.env e)) := by
  have hages := event_ages e p.shared a
  exact ⟨h.calm.ages hages, h.alone, fun i t ht ha hbusy => (h.busy i t ht ha hbusy).ages hages⟩

theorem InOrder.spawn (h : InOrder a calls p) {call : RegistryCall Id C}
    (hcall : Orderly a p (.spawn call)) :
    InOrder a (calls ++ call.task.commandsFor a) (Pool.act (registry Id C) p (.spawn call)) := by
  have hagent : call.task.agent = call.agent := by cases call <;> rfl
  by_cases ha : call.agent = a
  · -- All tasks for the agent have finished, the new one is under way.
    have hnew : ∀ {i : Nat} {t : Sending Id C},
        (Pool.act (registry Id C) p (.spawn call)).tasks[i]? = some t → t.agent = a →
        t.busy = true → i = p.tasks.length ∧ t = call.task := by
      intro i t ht hta hbusy
      obtain hin | hnew := Pool.tasks_spawn ht
      · rw [hcall ha t (List.mem_of_getElem? hin) hta] at hbusy
        cases hbusy
      · exact hnew
    have hcommands : call.task.commandsFor a = call.task.commands := by
      simp [commandsFor, hagent, ha]
    rw [hcommands]
    refine ⟨h.calm.mono (List.sublist_append_left _ _), fun i j t u ht hu hta hua htb hub => ?_,
      fun i t ht hta htb => ?_⟩
    · rw [(hnew ht hta htb).1, (hnew hu hua hub).1]
    · rw [(hnew ht hta htb).2]
      exact busy_task h.calm call
  · have hin : ∀ {i : Nat} {t : Sending Id C},
        (Pool.act (registry Id C) p (.spawn call)).tasks[i]? = some t → t.agent = a →
        p.tasks[i]? = some t := by
      intro i t ht hta
      obtain hin | ⟨-, rfl⟩ := Pool.tasks_spawn ht
      · exact hin
      · exact absurd (hagent.symm.trans hta) ha
    have hcommands : call.task.commandsFor a = [] := by
      simp [commandsFor, hagent, ha]
    rw [hcommands, List.append_nil]
    exact ⟨h.calm, fun i j t u ht hu hta hua => h.alone i j t u (hin ht hta) (hin hu hua) hta hua,
      fun i t ht hta => h.busy i t (hin ht hta) hta⟩

theorem InOrder.elsewhere (h : InOrder a calls p) (u : Unit) (ht : p.tasks[i]? = some t)
    (ha : t.agent ≠ a) : InOrder a calls (Pool.act (registry Id C) p (.turn i u)) := by
  have hshared : (Pool.act (registry Id C) p (.turn i u)).shared.agents a = p.shared.agents a := by
    rw [Pool.act_turn_some ht]
    exact step_other p.shared t (Ne.symm ha)
  have hin : ∀ {j : Nat} {v : Sending Id C},
      (Pool.act (registry Id C) p (.turn i u)).tasks[j]? = some v → v.agent = a →
      p.tasks[j]? = some v := by
    intro j v hv hva
    obtain ⟨-, rfl⟩ | ⟨-, hin⟩ := Pool.tasks_turn ht hv
    · exact absurd ((step_turn p.shared t).agent.symm.trans hva) ha
    · exact hin
  exact ⟨hshared ▸ h.calm, fun j k v w hv hw hva hwa => h.alone j k v w (hin hv hva) (hin hw hwa) hva hwa,
    fun j v hv hva hb => hshared ▸ h.busy j v (hin hv hva) hva hb⟩

theorem InOrder.advance (h : InOrder a calls p) (u : Unit) (ht : p.tasks[i]? = some t)
    (ha : t.agent = a) (hbusy : t.busy = true)
    (hroom : t.replays = false → t.findsFull (p.shared.agents a) = false) :
    InOrder a calls (Pool.act (registry Id C) p (.turn i u)) := by
  subst ha
  have hshared : (Pool.act (registry Id C) p (.turn i u)).shared = (t.step p.shared).1 := by
    rw [Pool.act_turn_some ht]
    rfl
  obtain ⟨hcalm, hnext⟩ :=
    (step_turn p.shared t).calm h.calm (h.busy i t ht rfl hbusy) hroom
  have hself : ∀ {j : Nat} {v : Sending Id C},
      (Pool.act (registry Id C) p (.turn i u)).tasks[j]? = some v → v.agent = t.agent →
      v.busy = true → j = i ∧ v = (t.step p.shared).2 := by
    intro j v hv hva hvb
    obtain hself | ⟨hne, hin⟩ := Pool.tasks_turn ht hv
    · exact hself
    · exact absurd (h.alone j i v t hin ht hva rfl hvb hbusy) hne
  refine ⟨hshared ▸ hcalm, fun j k v w hv hw hva hwa hvb hwb => ?_, fun j v hv hva hvb => ?_⟩
  · rw [(hself hv hva hvb).1, (hself hw hwa hwb).1]
  · rw [hshared, (hself hv hva hvb).2]
    exact hnext

theorem InOrder.turn (h : InOrder a calls p) {u : Unit} (hturn : Orderly a p (.turn i u)) :
    InOrder a calls (Pool.act (registry Id C) p (.turn i u)) := by
  cases ht : p.tasks[i]? with
  | none => exact (Pool.act_turn_none ht u).symm ▸ h
  | some t =>
    by_cases ha : t.agent = a
    · cases hbusy : t.busy with
      | true => exact h.advance u ht ha hbusy (hturn t ht ha)
      | false =>
        have hstep : (registry Id C).step u p.shared t = (p.shared, t) := step_idle p.shared hbusy
        obtain ⟨hlt, rfl⟩ := List.getElem?_eq_some_iff.mp ht
        rw [Pool.act_turn_some ht, hstep, List.set_getElem_self hlt]
        exact h
    · exact h.elsewhere u ht ha

theorem InOrder.act {log : List (RegistryAct Id C)} (h : InOrder a (commandsCalled a log) p)
    {act : RegistryAct Id C} (hact : Orderly a p act) :
    InOrder a (commandsCalled a (log ++ [act])) (Pool.act (registry Id C) p act) := by
  cases act with
  | env e =>
    rw [commandsCalled_env]
    exact h.env e
  | spawn _ =>
    rw [commandsCalled_spawn]
    exact h.spawn hact
  | turn _ _ =>
    rw [commandsCalled_turn]
    exact h.turn hact

theorem accounted_run (a : Id) (acts : List (RegistryAct Id C)) :
    Accounted a (commandsCalled a acts) (Pool.run (registry Id C) (newRegistry Id C) acts) := by
  induction acts using List.reverseRecOn with
  | nil => exact ⟨rfl, rfl⟩
  | append_singleton _ act ih =>
    rw [Pool.run_append]
    exact ih.act act

theorem inOrder_run {acts : List (RegistryAct Id C)}
    (h : Once.Along (Pool.act (registry Id C)) (Orderly a) (newRegistry Id C) acts) :
    InOrder a (commandsCalled a acts) (Pool.run (registry Id C) (newRegistry Id C) acts) := by
  have hnew : InOrder a (commandsCalled a []) (newRegistry Id C) :=
    ⟨⟨List.Sublist.refl _, nofun, Nat.zero_le _⟩, nofun, nofun⟩
  exact h.keeps_log (P := fun log p => InOrder a (commandsCalled a log) p)
    (fun _ _ _ hact hp => hp.act hact) hnew

theorem sum_map_coe {α β : Type} (f : α → List β) (l : List α) :
    (l.map fun x => (f x : Multiset β)).sum = (l.flatMap f : Multiset β) := by
  induction l with
  | nil => rfl
  | cons _ _ ih => simp only [List.map_cons, List.sum_cons, ih, List.flatMap_cons, coe_add]

/-- On a stream, received or not; dropped by the full queue; queued; or with a task. -/
def whereabouts (a : Id) (p : RegistryState Id C) : List C :=
  (p.shared.agents a).streams.flatMap Stream.carried ++ (p.shared.agents a).overflowed ++
    (p.shared.agents a).pending ++ p.tasks.flatMap (commandsFor a)

/-- **Every command is in one place**, however calls, replays and ends of streams interleave. -/
theorem command_in_one_place (a : Id) (acts : List (RegistryAct Id C)) :
    (whereabouts a (Pool.run (registry Id C) (newRegistry Id C) acts)).Perm
      (commandsCalled a acts) := by
  obtain ⟨hheld, hstreams⟩ := accounted_run a acts
  rw [Link.onStreams, sum_map_coe] at hstreams
  rw [Link.held, Pool.total, ← hstreams] at hheld
  refine coe_eq_coe.mp (Eq.trans ?_ hheld)
  simp only [whereabouts, ← coe_add, ← sum_map_coe]
  rfl

/-- In a run whose calls and replays for an agent do not interleave, and in which no live channel
is full when a command is sent, the agent gets its commands in order. -/
theorem commands_reach_in_order (a : Id) (acts : List (RegistryAct Id C))
    (h : Once.Along (Pool.act (registry Id C)) (Orderly a) (newRegistry Id C) acts) :
    Delivers a acts (Pool.run (registry Id C) (newRegistry Id C) acts) := by
  have haccounted := accounted_run a acts
  have hcalm := (inOrder_run h).calm
  refine ⟨(List.sublist_append_left _ _).trans hcalm.ordered, ?_, ?_,
    fun k s hk hs halive _ => hcalm.live k s hk hs halive⟩
  · have hheld := haccounted.held
    have hshare := sum_map_coe (commandsFor a)
      (Pool.run (registry Id C) (newRegistry Id C) acts).tasks
    rw [Pool.total, Link.held] at hheld
    refine coe_eq_coe.mp (Eq.trans ?_ hheld)
    rw [← coe_add, ← coe_add, ← coe_add, ← hshare]
    rfl
  · have hstreams := haccounted.onStreams
    rw [Link.onStreams, sum_map_coe] at hstreams
    exact coe_eq_coe.mp hstreams

/-- A command waits for the agent and is replayed, the next one goes to the stream at once. -/
def replayed : List (RegistryAct Nat String) :=
  [.spawn (.sendCommand 0 "first"), .turn 0 (), .turn 0 (), .spawn (.heartbeat 0), .turn 1 (),
    .turn 1 (), .turn 1 (), .env (.receive 0 0), .spawn (.sendCommand 0 "second"), .turn 2 (),
    .turn 2 ()]

theorem replayed_in_order :
    Once.Along (Pool.act (registry Nat String)) (Orderly 0) (newRegistry Nat String) replayed ∧
      Delivers 0 replayed (Pool.run (registry Nat String) (newRegistry Nat String) replayed) :=
  ⟨by decide +kernel, commands_reach_in_order 0 replayed (by decide +kernel)⟩

/-- The stream is registered before the waiting command is replayed. A call in between overtakes
it. -/
def overtaking : List (RegistryAct Nat String) :=
  [.spawn (.sendCommand 0 "first"), .turn 0 (), .turn 0 (), .spawn (.heartbeat 0), .turn 1 (),
    .spawn (.sendCommand 0 "second"), .turn 2 (), .turn 2 (), .turn 1 (), .turn 1 ()]

theorem replay_is_overtaken :
    ¬ Delivers 0 overtaking (Pool.run (registry Nat String) (newRegistry Nat String) overtaking) := by
  intro h
  have hordered := h.ordered
  revert hordered
  decide +kernel

end PingWaf.Server
