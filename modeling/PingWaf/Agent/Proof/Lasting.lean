import PingWaf.Agent.Proof.Exact

/-!
# How long an address stays blocked

Operators, the rate limiter and the engine block an address under one key, and a call overwrites the
entry it finds.
-/

namespace PingWaf.Agent

open Text Net List AList BlockTables
open Waf (Crates)

/-! ## Keeping an address blocked -/

/-- The table is not full before any of the calls. -/
def BlockTables.HasRoom (c : Crates) (site ip : String) (t : BlockTables)
    (calls : List IssuedBlock) : Prop :=
  ∀ pre b post, calls = pre ++ b :: post →
    (t.issueAll c site ip pre).blockedIps.size < maxBlockedIpEntries

/-- The address is blocked afterwards at every time at which it was blocked before. -/
def KeepsBlocked (site ip : String) (t t' : BlockTables) : Prop :=
  ∀ time, t.isIpBlocked time site ip = true → t'.isIpBlocked time site ip = true

/-- The first end, where there is one, is no earlier than the second. -/
def Outlasts : Option Nat → Option Nat → Prop
  | none, _ => True
  | some _, none => False
  | some next, some prev => prev ≤ next

instance : DecidableRel Outlasts
  | none, _ => .isTrue trivial
  | some _, none => .isFalse id
  | some next, some prev => inferInstanceAs (Decidable (prev ≤ next))

/-- A block may follow another one if it lasts as long, or if the address is otherwise blocked as
long. -/
def Follows (others : Nat → Prop) (prev next : Option Nat) : Prop :=
  Outlasts next prev ∨ ∀ time, expiredAt time prev = false → others time

/-- The ends of the blocks one after the other, from the entry that is there. -/
def BlockTables.ends (t : BlockTables) (key : String) (calls : List IssuedBlock) :
    List (Option Nat) :=
  ((t.blockedIps.lookup key).map (·.expiresAt)).toList ++ calls.map (·.until)

/-! ## Ends -/

section

variable {time time' : Nat} {prev next : Option Nat}

theorem expiredAt_mono (h : expiredAt time prev = false) (hle : time' ≤ time) :
    expiredAt time' prev = false := by
  cases prev with
  | none => rfl
  | some exp =>
    have hlt : ¬ exp ≤ time := by simpa [expiredAt] using h
    simp only [expiredAt, decide_eq_false_iff_not]
    omega

theorem outlasts_of_forall (h : ∀ time, expiredAt time prev = false → expiredAt time next = false) :
    Outlasts next prev := by
  cases next with
  | none => trivial
  | some next =>
    have hnext : expiredAt next (some next) = true := by simp [expiredAt]
    cases prev with
    | none => exact absurd (h next rfl) (by rw [hnext]; decide)
    | some prev =>
      apply Classical.byContradiction
      intro hlt
      have hprev : expiredAt next (some prev) = false := by simpa [expiredAt, Outlasts] using hlt
      exact absurd (h next hprev) (by rw [hnext]; decide)

theorem Outlasts.expiredAt (h : Outlasts next prev) (hprev : expiredAt time prev = false) :
    Agent.expiredAt time next = false := by
  cases next with
  | none => rfl
  | some next =>
    cases prev with
    | none => exact absurd h id
    | some prev =>
      have hle : prev ≤ next := h
      have hlt : ¬ prev ≤ time := by simpa [Agent.expiredAt] using hprev
      simp only [Agent.expiredAt, decide_eq_false_iff_not]
      omega

theorem follows_iff {others : Nat → Prop}
    (hothers : ∀ time time', time' ≤ time → others time → others time') :
    Follows others prev next ↔
      ∀ time, expiredAt time prev = false → expiredAt time next = false ∨ others time := by
  constructor
  · rintro (h | h) time hprev
    · exact .inl (h.expiredAt hprev)
    · exact .inr (h time hprev)
  · intro h
    by_cases hall : ∀ time, expiredAt time prev = false → expiredAt time next = false
    · exact .inl (outlasts_of_forall hall)
    · -- from a time on which the next block misses, the others carry all that comes before
      simp only [not_forall] at hall
      obtain ⟨late, hlate, hmiss⟩ := hall
      refine .inr fun time htime => ?_
      have hmax : expiredAt (max time late) prev = false := by
        rcases Nat.le_total time late with hle | hle
        · rwa [Nat.max_eq_right hle]
        · rwa [Nat.max_eq_left hle]
      obtain hin | hin := h _ hmax
      · exact absurd (expiredAt_mono hin (Nat.le_max_right _ _)) hmiss
      · exact hothers _ _ (Nat.le_max_left _ _) hin

end

/-! ## One call -/

variable {c : Crates} {t : BlockTables} {site ip : String} {addr : IpAddr} {time : Nat}
  {e : BlockedIpEntry}

theorem BlockTables.InForce.mono {e : BlockedIpEntry} {time' : Nat} (h : t.InForce time site e)
    (hle : time' ≤ time) : t.InForce time' site e :=
  ⟨h.1, h.2.1, expiredAt_mono h.2.2 hle⟩

theorem InStep.inForce_iff (h : InStep c t) (hsite : ':' ∉ site.toList) (ip : String) :
    t.InForce time site e ↔
      (t.blockedIps.lookup (blockKey site ip) = some e ∧ e.isExpired time = false) ∨
        (t.removeKey (blockKey site ip)).InForce time site e := by
  unfold BlockTables.InForce
  rw [blockedIps_removeKey]
  constructor
  · rintro ⟨⟨key, hlook⟩, hs, he⟩
    by_cases hkey : key = blockKey site ip
    · exact .inl ⟨hkey ▸ hlook, he⟩
    · exact .inr ⟨⟨key, by rwa [lookup_erase_ne hkey]⟩, hs, he⟩
  · rintro (⟨hlook, he⟩ | ⟨⟨key, hlook⟩, hs, he⟩)
    · obtain ⟨hkey, hcolon⟩ := h.keyed _ _ hlook
      exact ⟨⟨_, hlook⟩, ((blockKey_inj hsite hcolon).mp hkey).1.symm, he⟩
    · by_cases hkey : key = blockKey site ip
      · rw [hkey, lookup_erase] at hlook
        cases hlook
      · exact ⟨⟨key, by rwa [lookup_erase_ne hkey] at hlook⟩, hs, he⟩

theorem inForce_removeKey_store (t : BlockTables) (c : Crates) (site ip : String)
    (entry : BlockedIpEntry) (hentry : entry.ip = ip) (time : Nat) (e : BlockedIpEntry) :
    ((t.store c site entry).removeKey (blockKey site ip)).InForce time site e ↔
      (t.removeKey (blockKey site ip)).InForce time site e := by
  subst hentry
  unfold BlockTables.InForce
  rw [blockedIps_removeKey, blockedIps_removeKey, blockedIps_store]
  have hsame : ∀ key, (erase (blockKey site entry.ip)
      (t.blockedIps.insert (blockKey site entry.ip) entry)).lookup key =
        (t.blockedIps.erase (blockKey site entry.ip)).lookup key := by
    intro key
    by_cases hkey : key = blockKey site entry.ip
    · rw [hkey, lookup_erase, lookup_erase]
    · rw [lookup_erase_ne hkey, lookup_erase_ne hkey, lookup_insert_ne hkey]
  simp only [hsame]

theorem issue_eq_store (b : IssuedBlock) (hroom : t.blockedIps.size < maxBlockedIpEntries) :
    t.issue c site ip b = t.store c site (b.entry site ip) := by
  unfold issue blockIp
  rw [if_neg (by omega)]
  rfl

section

variable (h : InStep c t) (hsite : ':' ∉ site.toList) (hip : IpAddr.fromStr ip = some addr)
  {b : IssuedBlock}

include h hsite hip

theorem InStep.isIpBlocked_mono {time' : Nat} (hle : time' ≤ time)
    (hblocked : t.isIpBlocked time site ip = true) : t.isIpBlocked time' site ip = true := by
  rw [h.isIpBlocked_iff hsite hip] at hblocked ⊢
  obtain ⟨e, he, hseen⟩ := hblocked
  exact ⟨e, he.mono hle, hseen⟩

theorem InStep.isIpBlocked_split (time : Nat) :
    t.isIpBlocked time site ip = true ↔
      (∃ e, t.blockedIps.lookup (blockKey site ip) = some e ∧ e.isExpired time = false) ∨
        (t.removeKey (blockKey site ip)).isIpBlocked time site ip = true := by
  rw [h.isIpBlocked_iff hsite hip, (h.removeKey _).isIpBlocked_iff hsite hip]
  simp only [h.inForce_iff hsite ip]
  constructor
  · rintro ⟨e, hown | hother, hseen⟩
    · exact .inl ⟨e, hown⟩
    · exact .inr ⟨e, hother, hseen⟩
  · rintro (⟨e, hlook, hexp⟩ | ⟨e, hother, hseen⟩)
    · obtain ⟨hkey, hcolon⟩ := h.keyed _ _ hlook
      exact ⟨e, .inl ⟨hlook, hexp⟩, .inl ((blockKey_inj hsite hcolon).mp hkey).2.symm⟩
    · exact ⟨e, .inr hother, hseen⟩

theorem InStep.isIpBlocked_others (time : Nat) :
    ((t.store c site (b.entry site ip)).removeKey (blockKey site ip)).isIpBlocked time site ip =
        true ↔
      (t.removeKey (blockKey site ip)).isIpBlocked time site ip = true := by
  have hstore : InStep c (t.store c site (b.entry site ip)) := h.store (b.entry site ip) hsite
  rw [(hstore.removeKey _).isIpBlocked_iff hsite hip, (h.removeKey _).isIpBlocked_iff hsite hip]
  simp only [inForce_removeKey_store t c site ip (b.entry site ip) rfl]

theorem InStep.isIpBlocked_store (time : Nat) :
    (t.store c site (b.entry site ip)).isIpBlocked time site ip = true ↔
      expiredAt time b.until = false ∨
        (t.removeKey (blockKey site ip)).isIpBlocked time site ip = true := by
  have hlook : (t.store c site (b.entry site ip)).blockedIps.lookup (blockKey site ip) =
      some (b.entry site ip) := by
    rw [blockedIps_store]
    exact lookup_insert _
  have hstore : InStep c (t.store c site (b.entry site ip)) := h.store (b.entry site ip) hsite
  rw [hstore.isIpBlocked_split hsite hip, h.isIpBlocked_others hsite hip, hlook]
  simp [BlockedIpEntry.isExpired, IssuedBlock.entry, blockedEntry, IssuedBlock.until]

theorem InStep.keepsBlocked_iff {others : Nat → Prop}
    (hothers : ∀ time, (t.removeKey (blockKey site ip)).isIpBlocked time site ip = true ↔
      others time) :
    KeepsBlocked site ip t (t.store c site (b.entry site ip)) ↔
      ∀ e, t.blockedIps.lookup (blockKey site ip) = some e →
        Follows others e.expiresAt b.until := by
  have hmono : ∀ time time', time' ≤ time → others time → others time' := by
    intro time time' hle hblocked
    rw [← hothers] at hblocked ⊢
    exact (h.removeKey _).isIpBlocked_mono hsite hip hle hblocked
  unfold KeepsBlocked
  simp only [h.isIpBlocked_split hsite hip, h.isIpBlocked_store hsite hip, hothers,
    follows_iff hmono]
  constructor
  · intro hkeeps e hlook time hexp
    exact hkeeps time (.inl ⟨e, hlook, hexp⟩)
  · rintro hfollows time (⟨e, hlook, hexp⟩ | hblocked)
    · exact hfollows e hlook time hexp
    · exact .inr hblocked

end

/-! ## Sequences of calls -/

theorem InStep.keepsBlocked_chain_iff (h : InStep c t) (hsite : ':' ∉ site.toList)
    (hip : IpAddr.fromStr ip = some addr) {others : Nat → Prop}
    (hothers : ∀ time, (t.removeKey (blockKey site ip)).isIpBlocked time site ip = true ↔
      others time)
    {calls : List IssuedBlock} (hroom : t.HasRoom c site ip calls) :
    (calls.scanl (BlockTables.issue c site ip) t).IsChain (KeepsBlocked site ip) ↔
      (t.ends (blockKey site ip) calls).IsChain (Follows others) := by
  induction calls generalizing t with
  | nil =>
    unfold ends
    cases t.blockedIps.lookup (blockKey site ip) <;> simp
  | cons b calls ih =>
    have hissue : t.issue c site ip b = t.store c site (b.entry site ip) :=
      issue_eq_store b (hroom [] b calls rfl)
    have hstore : InStep c (t.store c site (b.entry site ip)) := h.store (b.entry site ip) hsite
    have hrest := ih hstore (fun time => (h.isIpBlocked_others hsite hip time).trans (hothers time))
      fun pre b' post hcalls => by
        have hnext := hroom (b :: pre) b' post (by rw [hcalls]; rfl)
        rwa [issueAll, foldl_cons, hissue] at hnext
    have hends : (t.store c site (b.entry site ip)).ends (blockKey site ip) calls =
        b.until :: calls.map (·.until) := by
      unfold ends
      rw [blockedIps_store, show blockKey site (b.entry site ip).ip = blockKey site ip from rfl,
        lookup_insert]
      rfl
    have hhead := h.keepsBlocked_iff (b := b) hsite hip hothers
    rw [hends] at hrest
    rw [scanl_cons, isChain_cons, head?_scanl, hissue, hrest]
    unfold ends
    cases hlook : t.blockedIps.lookup (blockKey site ip) with
    | none =>
      have hkeeps := hhead.mpr fun e he => absurd (hlook.symm.trans he) (by simp)
      simpa using fun _ => hkeeps
    | some _ =>
      rw [Option.map_some, Option.toList_some, singleton_append, map_cons,
        isChain_cons_cons]
      refine and_congr_left fun _ => ?_
      simp [hhead, hlook]

/-- The address stays blocked as long as it was iff no call ends before the block it replaces, other
blocks of the site apart. -/
theorem never_shortened_iff (c : Crates) (ops : List BlockOp) (site ip : String) (addr : IpAddr)
    (calls : List IssuedBlock) (hops : ∀ op ∈ ops, op.PlainSites) (hsite : ':' ∉ site.toList)
    (hip : IpAddr.fromStr ip = some addr)
    (hroom : (BlockTables.empty.run c ops).HasRoom c site ip calls) :
    (calls.scanl (BlockTables.issue c site ip) (BlockTables.empty.run c ops)).IsChain
        (KeepsBlocked site ip) ↔
      ((BlockTables.empty.run c ops).ends (blockKey site ip) calls).IsChain
        (Follows fun time => ((BlockTables.empty.run c ops).unblockIp site ip).isIpBlocked time
          site ip = true) := by
  have hstep : InStep c (BlockTables.empty.run c ops) := (inStep_empty c).run hops
  exact hstep.keepsBlocked_chain_iff hsite hip (fun _ => Iff.rfl) hroom

/-- The engine's ten minutes, and an hour of the rate limiter after it. -/
def lengthened : List IssuedBlock := [⟨0, .waf "r"⟩, ⟨5 * 10 ^ 9, .rateLimit 3600 "login"⟩]

theorem hasRoom_lengthened : BlockTables.empty.HasRoom .inert "s" "203.0.113.5" lengthened := by
  intro pre b post hcalls
  cases pre with
  | nil => decide +kernel
  | cons _ pre =>
    cases pre with
    | nil =>
      obtain ⟨rfl, -⟩ := cons.inj hcalls
      decide +kernel
    | cons _ _ => simp [lengthened] at hcalls

theorem lengthened_keepsBlocked :
    (lengthened.scanl (BlockTables.issue .inert "s" "203.0.113.5") .empty).IsChain
      (KeepsBlocked "s" "203.0.113.5") := by
  refine (never_shortened_iff .inert [] "s" "203.0.113.5" (.v4 0xCB007105) lengthened
    (fun _ h => absurd h List.not_mem_nil) (by decide) (by decide +kernel) hasRoom_lengthened).mpr ?_
  refine List.isChain_cons_cons.mpr ⟨.inl ?_, List.isChain_singleton _⟩
  show 600 * 10 ^ 9 ≤ 5 * 10 ^ 9 + 3600 * 10 ^ 9
  decide

/-- A permanent block of an operator ends with the engine's ten minutes. -/
theorem permanent_block_shortened :
    (BlockTables.empty.issueAll .inert "s" "203.0.113.5"
      [⟨0, .operator none "abuse"⟩]).isIpBlocked (700 * 10 ^ 9) "s" "203.0.113.5" = true ∧
    (BlockTables.empty.issueAll .inert "s" "203.0.113.5"
      [⟨0, .operator none "abuse"⟩, ⟨5 * 10 ^ 9, .waf "r"⟩]).isIpBlocked (700 * 10 ^ 9) "s"
        "203.0.113.5" = false := by
  decide +kernel

end PingWaf.Agent
