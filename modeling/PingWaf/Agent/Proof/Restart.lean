import PingWaf.Agent.Proof.Evict
import PingWaf.Agent.Proof.Lasting

/-!
# Blocks after a restart
-/

namespace PingWaf.Agent

open Text Net
open Waf (Crates)

variable {c : Crates} {t : BlockTables} {now loaded time : Nat} {site ip : String} {addr : IpAddr}
  {e : BlockedIpEntry}

theorem lookup_loaded {entries : List BlockedIpEntry} {key : String}
    (hsame : ∀ x ∈ entries, ∀ y ∈ entries,
      blockKey x.siteId x.ip = blockKey y.siteId y.ip → x = y) :
    (t.loadBlockedIps c now entries).blockedIps.lookup key = some e ↔
      (e ∈ entries ∧ e.isExpired now = false ∧ key = blockKey e.siteId e.ip) ∨
        (∀ x ∈ entries, x.isExpired now = false → key ≠ blockKey x.siteId x.ip) ∧
          t.blockedIps.lookup key = some e := by
  unfold BlockTables.loadBlockedIps
  induction entries generalizing t with
  | nil => simp
  | cons x _ ih =>
    rw [List.foldl_cons, ih fun a ha b hb => hsame a (.tail _ ha) b (.tail _ hb)]
    by_cases hexp : x.isExpired now = true
    · grind
    · rw [if_neg hexp, blockedIps_store, Table.lookup_insert_eq]
      grind

section

variable (h : InStep c t)
include h

theorem InStep.mem_persisted : e ∈ t.persisted now ↔
    t.blockedIps.lookup (blockKey e.siteId e.ip) = some e ∧ e.isExpired now = false := by
  have hkeyed := h.keyed
  unfold BlockTables.persisted
  change e ∈ (t.live now).map (·.2) ↔ _
  simp only [List.mem_map, Sigma.exists, mem_live_iff]
  grind

variable (hsite : ':' ∉ site.toList) (hip : IpAddr.fromStr ip = some addr)
include hsite hip

/-- **Blocks outlive a restart.** What was persisted and is loaded into a new process answers as the
tables did that were persisted. -/
theorem blocks_outlive_restart (hwritten : now ≤ loaded) (hloaded : loaded ≤ time) :
    (BlockTables.empty.loadBlockedIps c loaded (t.persisted now)).isIpBlocked time site ip =
      t.isIpBlocked time site ip := by
  have hplain : ∀ e ∈ t.persisted now, ':' ∉ e.siteId.toList := fun e he =>
    (h.keyed _ e (h.mem_persisted.mp he).1).2
  have hsame : ∀ x ∈ t.persisted now, ∀ y ∈ t.persisted now,
      blockKey x.siteId x.ip = blockKey y.siteId y.ip → x = y := by
    grind [h.mem_persisted]
  rw [Bool.eq_iff_iff, h.isIpBlocked_iff hsite hip,
    ((inStep_empty c).loadBlockedIps loaded hplain).isIpBlocked_iff hsite hip]
  refine exists_congr fun e => and_congr_left fun _ => ?_
  unfold BlockTables.InForce
  simp only [lookup_loaded hsame, h.mem_persisted, BlockTables.empty, AList.lookup_empty]
  constructor
  · rintro ⟨⟨key, ⟨⟨hlook, -⟩, -⟩ | ⟨-, hlook⟩⟩, hs, he⟩
    · exact ⟨⟨_, hlook⟩, hs, he⟩
    · cases hlook
  · rintro ⟨⟨key, hlook⟩, hs, he⟩
    have hthen := expiredAt_mono he hloaded
    rw [(h.keyed key e hlook).1] at hlook
    exact ⟨⟨_, .inl ⟨⟨hlook, expiredAt_mono hthen hwritten⟩, hthen, rfl⟩⟩, hs, he⟩

end

theorem permanent_outlives_restart :
    (BlockTables.empty.loadBlockedIps .inert 5
      ((permanentAndTimed 0 1).persisted 4)).isIpBlocked 6 "s" "10.0.0.1" = true := by
  have hip : IpAddr.fromStr "10.0.0.1" = some (.v4 167772161) := by decide +kernel
  rw [blocks_outlive_restart (inStep_permanentAndTimed 0 1) (by decide) hip (by decide) (by decide)]
  decide +kernel

end PingWaf.Agent
