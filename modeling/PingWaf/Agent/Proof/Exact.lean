import PingWaf.Lib.Address
import PingWaf.Agent.Proof.InStep

/-!
# Which addresses a block reaches

A block denotes an address, in any of its spellings, or a range. The lookup finds it under the
spelling of the request, under the normal form of the address, or as a range of the address's own
family (`isIpBlocked_iff`).
-/

namespace PingWaf.Agent

open Text Net Option BlockTables BlockTables
open Waf (Crates)

variable {c : Crates} {t : BlockTables} {now : Nat} {site ip : String} {addr : IpAddr}

/-! ## The entries a lookup can return -/

/-- A block of the site is stored and has not expired. -/
def BlockTables.InForce (t : BlockTables) (now : Nat) (site : String) (e : BlockedIpEntry) : Prop :=
  (∃ key, t.blockedIps.lookup key = some e) ∧ e.siteId = site ∧ e.isExpired now = false

theorem InStep.lookup_of_inForce (h : InStep c t) {e : BlockedIpEntry}
    (he : t.InForce now site e) : t.blockedIps.lookup (blockKey site e.ip) = some e := by
  obtain ⟨⟨key, hlook⟩, rfl, -⟩ := he
  rw [← (h.keyed key e hlook).1]
  exact hlook

theorem probe_fst (t : BlockTables) (now : Nat) (key : String) :
    (t.probe now key).1 = (t.blockedIps.lookup key).filter fun e => !e.isExpired now := by
  unfold probe
  cases t.blockedIps.lookup key with
  | none => rfl
  | some e =>
    rw [filter_some]
    cases he : e.isExpired now <;> simp [he]

theorem InStep.probe_isSome_iff (h : InStep c t) (hsite : ':' ∉ site.toList) (ip : String) :
    (t.probe now (blockKey site ip)).1.isSome = true ↔ ∃ e, t.InForce now site e ∧ e.ip = ip := by
  rw [probe_fst]
  constructor
  · intro hsome
    obtain ⟨e, he⟩ := isSome_iff_exists.mp hsome
    obtain ⟨hlook, hexp⟩ := filter_eq_some_iff.mp he
    obtain ⟨hkey, hcolon⟩ := h.keyed _ _ hlook
    obtain ⟨hs, hi⟩ := (blockKey_inj hsite hcolon).mp hkey
    exact ⟨e, ⟨⟨_, hlook⟩, hs.symm, by simpa using hexp⟩, hi.symm⟩
  · rintro ⟨e, he, rfl⟩
    rw [h.lookup_of_inForce he]
    simp [he.2.2]

theorem inForce_probe (t : BlockTables) (now : Nat) (key site : String) (e : BlockedIpEntry) :
    (t.probe now key).2.InForce now site e ↔ t.InForce now site e := by
  unfold probe
  cases hlook : t.blockedIps.lookup key with
  | none => rfl
  | some _ =>
    dsimp only
    split
    · next hexp =>
      unfold InForce
      rw [blockedIps_removeKey]
      constructor
      · rintro ⟨⟨k, hk⟩, hrest⟩
        by_cases hkey : k = key
        · rw [hkey, AList.lookup_erase] at hk
          cases hk
        · rw [AList.lookup_erase_ne hkey] at hk
          exact ⟨⟨k, hk⟩, hrest⟩
      · rintro ⟨⟨k, hk⟩, hs, he⟩
        refine ⟨⟨k, ?_⟩, hs, he⟩
        have hkey : k ≠ key := by
          rintro rfl
          rw [hlook] at hk
          cases hk
          rw [hexp] at he
          cases he
        rw [AList.lookup_erase_ne hkey]
        exact hk
    · rfl

theorem InStep.coveringEntry_isSome_iff (h : InStep c t) (now : Nat) (site : String)
    (addr : IpAddr) :
    (t.coveringEntry now site addr).isSome = true ↔
      ∃ e, t.InForce now site e ∧
        ∃ net, parseEntryNet c e.ip = some net ∧ net.contains addr = true := by
  unfold coveringEntry
  constructor
  · intro hsome
    cases hfind : (t.index site).find? fun e =>
        !expiredAt now e.expiresAt && e.net.contains addr with
    | none =>
      rw [hfind] at hsome
      cases hsome
    | some ce =>
      obtain ⟨e, hlook, hs, hnet, hexp⟩ :=
        (h.indexed site ce).mp (List.mem_of_find?_eq_some hfind)
      have htest := List.find?_some hfind
      rw [Bool.and_eq_true, hexp] at htest
      exact ⟨e, ⟨⟨_, hlook⟩, hs, by simpa [BlockedIpEntry.isExpired] using htest.1⟩,
        ce.net, hnet, htest.2⟩
  · rintro ⟨e, he, net, hnet, hcontains⟩
    -- the index holds the range, so the search ends at some range of the map
    have hmem : (⟨blockKey site e.ip, net, e.expiresAt⟩ : CidrEntry) ∈ t.index site :=
      (h.indexed site _).mpr ⟨e, h.lookup_of_inForce he, he.2.1, hnet, rfl⟩
    have hsome : ((t.index site).find? fun e =>
        !expiredAt now e.expiresAt && e.net.contains addr).isSome = true := by
      rw [List.find?_isSome]
      refine ⟨_, hmem, ?_⟩
      have hexp := he.2.2
      unfold BlockedIpEntry.isExpired at hexp
      simp [hexp, hcontains]
    obtain ⟨ce, hfind⟩ := isSome_iff_exists.mp hsome
    obtain ⟨e', hlook, -⟩ := (h.indexed site ce).mp (List.mem_of_find?_eq_some hfind)
    rw [hfind, bind_some, hlook]
    rfl

def Seen (c : Crates) (ip : String) (addr : IpAddr) (text : String) : Prop :=
  text = ip ∨ text = addr.display ∨
    ∃ net, parseEntryNet c text = some net ∧ net.contains addr = true

theorem InStep.probeNormalized_isSome_iff (h : InStep c t) (hsite : ':' ∉ site.toList)
    (hip : IpAddr.fromStr ip = some addr) (hmiss : ∀ e, t.InForce now site e → e.ip ≠ ip) :
    (t.probeNormalized now site ip).1.isSome = true ↔
      ∃ e, t.InForce now site e ∧ e.ip = (normalizeMapped addr).display := by
  unfold BlockTables.probeNormalized normalizedIp
  rw [hip, bind_some]
  dsimp only
  by_cases hsame : (normalizeMapped addr).display ≠ ip
  · rw [if_pos hsame]
    exact h.probe_isSome_iff hsite _
  · rw [if_neg hsame]
    refine iff_of_false Bool.false_ne_true ?_
    rintro ⟨e, he, htext⟩
    exact hmiss e he (htext.trans (not_not.mp hsame))

theorem inForce_probeNormalized (t : BlockTables) (now : Nat) (ip site : String)
    (e : BlockedIpEntry) :
    (t.probeNormalized now site ip).2.InForce now site e ↔ t.InForce now site e := by
  unfold BlockTables.probeNormalized
  split
  · exact inForce_probe t now _ site e
  · rfl

theorem InStep.isIpBlocked_iff (h : InStep c t) (hsite : ':' ∉ site.toList)
    (hip : IpAddr.fromStr ip = some addr) (now : Nat) :
    t.isIpBlocked now site ip = true ↔
      ∃ e, t.InForce now site e ∧ Seen c ip (normalizeMapped addr) e.ip := by
  have hexact : (t.probe now (blockKey site ip)).1.isSome = true ↔ _ := h.probe_isSome_iff hsite ip
  have hforce := inForce_probe t now (blockKey site ip) site
  have hstep := h.probe now (blockKey site ip)
  unfold BlockTables.isIpBlocked BlockTables.blockedLookup
  cases hprobe : t.probe now (blockKey site ip) with
  | mk first t1 =>
    rw [hprobe] at hexact hforce hstep
    cases first with
    | some _ =>
      obtain ⟨e, he, htext⟩ := hexact.mp rfl
      exact iff_of_true rfl ⟨e, he, .inl htext⟩
    | none =>
      have hmiss : ∀ e, t1.InForce now site e → e.ip ≠ ip :=
        fun e he htext => absurd (hexact.mpr ⟨e, (hforce e).mp he, htext⟩) Bool.false_ne_true
      have hnormal := hstep.probeNormalized_isSome_iff hsite hip hmiss
      have hforce' := inForce_probeNormalized t1 now ip site
      have hstep' := hstep.probeNormalized now site ip
      dsimp only at hstep' ⊢
      cases hprobe' : t1.probeNormalized now site ip with
      | mk second _ =>
        rw [hprobe'] at hnormal hforce' hstep'
        cases second with
        | some _ =>
          obtain ⟨e, he, htext⟩ := hnormal.mp rfl
          exact iff_of_true rfl ⟨e, (hforce e).mp he, .inr (.inl htext)⟩
        | none =>
          dsimp only
          rw [hip, bind_some, hstep'.coveringEntry_isSome_iff]
          -- no block in force is spelled either way, so only the ranges are left
          constructor
          · rintro ⟨e, he, hrange⟩
            exact ⟨e, (hforce e).mp ((hforce' e).mp he), .inr (.inr hrange)⟩
          · rintro ⟨e, he, htext | htext | hrange⟩
            · exact absurd htext (hmiss e ((hforce e).mpr he))
            · exact absurd (hnormal.mpr ⟨e, (hforce e).mpr he, htext⟩) Bool.false_ne_true
            · exact ⟨e, (hforce' e).mpr ((hforce e).mpr he), hrange⟩

/-! ## What a block denotes -/

/-- The text of a block is an address, in any spelling, or a range with the address in it; embedded
IPv4 addresses count as the addresses they embed. -/
def Denotes (c : Crates) (text : String) (addr : IpAddr) : Prop :=
  (∃ a, IpAddr.fromStr text = some a ∧ normalizeMapped a = addr) ∨
    ∃ net a, c.ipNetFromStr text = some net ∧ net.contains a = true ∧ normalizeMapped a = addr

/-- The range is written in the family of the address: an IPv4 range, the same embedded in IPv6, or
an IPv6 range that does not start from an embedded address. -/
def OwnFamily : IpNet → IpAddr → Bool
  | .v4 _ _, _ => true
  | .v6 base len, .v4 _ => (toV4Mapped base).isSome && decide (96 ≤ len) && decide (len ≤ 128)
  | .v6 base _, .v6 _ => (toV4Mapped base).isNone

/-- The text spells the address as the request does or in its normal form, or is a range of its
family with the address in it. -/
def DenotesPlainly (c : Crates) (ip : String) (addr : IpAddr) (text : String) : Prop :=
  text = ip ∨ text = addr.display ∨
    ∃ net a, c.ipNetFromStr text = some net ∧ OwnFamily net addr = true ∧
      net.contains a = true ∧ normalizeMapped a = addr

theorem normalizeMapped_v6 {ip : BitVec 128} {v4 : BitVec 32} (h : toV4Mapped ip = some v4) :
    normalizeMapped (.v6 ip) = .v4 v4 := by
  rw [normalizeMapped, h]
  rfl

theorem normalizeMapped_eq_v6_iff {a : IpAddr} {ip : BitVec 128} :
    normalizeMapped a = .v6 ip ↔ a = .v6 ip ∧ toV4Mapped ip = none := by
  cases a with
  | v4 _ => simp [normalizeMapped]
  | v6 bits =>
    cases hm : toV4Mapped bits with
    | some _ =>
      rw [normalizeMapped_v6 hm]
      refine iff_of_false nofun ?_
      rintro ⟨he, hn⟩
      cases he
      rw [hm] at hn
      cases hn
    | none =>
      have hself : normalizeMapped (.v6 bits) = .v6 bits := by
        rw [normalizeMapped, hm]
        rfl
      rw [hself]
      constructor
      · intro he
        cases he
        exact ⟨rfl, hm⟩
      · exact And.left

theorem normalizeMapped_eq_v4 {a : IpAddr} {v4 : BitVec 32} (h : normalizeMapped a = .v4 v4) :
    a = .v4 v4 ∨ ∃ ip, a = .v6 ip ∧ toV4Mapped ip = some v4 := by
  cases a with
  | v4 _ => exact .inl h
  | v6 bits =>
    cases hm : toV4Mapped bits with
    | some _ =>
      rw [normalizeMapped_v6 hm] at h
      cases h
      exact .inr ⟨bits, rfl, hm⟩
    | none =>
      rw [normalizeMapped_eq_v6_iff.mpr ⟨rfl, hm⟩] at h
      cases h

theorem normalizeMapped_idem (a : IpAddr) : normalizeMapped (normalizeMapped a) = normalizeMapped a := by
  cases hn : normalizeMapped a with
  | v4 _ => rfl
  | v6 _ => exact normalizeMapped_eq_v6_iff.mpr ⟨rfl, (normalizeMapped_eq_v6_iff.mp hn).2⟩

theorem subU8_le_iff {len : Nat} : subU8 len 96 ≤ 32 ↔ 96 ≤ len ∧ len ≤ 128 := by
  unfold subU8
  split <;> omega

theorem collapseNet_v4_iff (haddr : normalizeMapped addr = addr) (base : BitVec 32) (len : Nat) :
    (∃ n, collapseNet (.v4 base len) = some n ∧ n.contains addr = true) ↔
      ∃ a, (IpNet.v4 base len).contains a = true ∧ normalizeMapped a = addr := by
  constructor
  · rintro ⟨n, hn, hb⟩
    cases hn
    exact ⟨addr, hb, haddr⟩
  · rintro ⟨a, ha, hn⟩
    refine ⟨_, rfl, ?_⟩
    cases a with
    | v4 _ =>
      rw [← hn]
      exact ha
    | v6 _ => cases ha

theorem collapseNet_plain_iff (haddr : normalizeMapped addr = addr) {base : BitVec 128}
    (hbase : toV4Mapped base = none) (len : Nat) :
    (∃ n, collapseNet (.v6 base len) = some n ∧ n.contains addr = true) ↔
      OwnFamily (.v6 base len) addr = true ∧
        ∃ a, (IpNet.v6 base len).contains a = true ∧ normalizeMapped a = addr := by
  have hkeep : collapseNet (.v6 base len) = some (.v6 base len) := by
    rw [collapseNet, hbase]
  rw [hkeep]
  cases addr with
  | v4 _ =>
    refine iff_of_false ?_ ?_
    · rintro ⟨n, hn, hb⟩
      cases hn
      cases hb
    · rintro ⟨hown, -⟩
      simp [OwnFamily, hbase] at hown
  | v6 x =>
    constructor
    · rintro ⟨n, hn, hx⟩
      cases hn
      exact ⟨by simp [OwnFamily, hbase], .v6 x, hx, haddr⟩
    · rintro ⟨-, a, ha, hn⟩
      rw [(normalizeMapped_eq_v6_iff.mp hn).1] at ha
      exact ⟨_, rfl, ha⟩

/-- A range that starts from an embedded address reaches what it covers among the embedded ones, if
its length leaves one for IPv4. -/
theorem collapseNet_embedded_iff {base : BitVec 128} {v4 : BitVec 32}
    (hbase : toV4Mapped base = some v4) (len : Nat) (addr : IpAddr) :
    (∃ n, collapseNet (.v6 base len) = some n ∧ n.contains addr = true) ↔
      OwnFamily (.v6 base len) addr = true ∧
        ∃ a, (IpNet.v6 base len).contains a = true ∧ normalizeMapped a = addr := by
  have hmap : collapseNet (.v6 base len) =
      if subU8 len 96 ≤ 32 then some (.v4 v4 (subU8 len 96)) else none := by
    rw [collapseNet, hbase]
  rw [hmap]
  cases addr with
  | v6 _ =>
    refine iff_of_false ?_ ?_
    · rintro ⟨n, hn, hx⟩
      split at hn
      · cases hn
        cases hx
      · cases hn
    · rintro ⟨hown, -⟩
      simp [OwnFamily, hbase] at hown
  | v4 b =>
    by_cases hlen : 96 ≤ len ∧ len ≤ 128
    · have hsub : subU8 len 96 = len - 96 := if_pos hlen.1
      rw [if_pos (subU8_le_iff.mpr hlen), hsub]
      constructor
      · rintro ⟨n, hn, hb⟩
        cases hn
        refine ⟨by simp [OwnFamily, hbase, hlen.1, hlen.2], .v6 (embed b), ?_,
          normalizeMapped_v6 (toV4Mapped_embed b)⟩
        exact (contains_embedded hbase (toV4Mapped_embed b) hlen.1 hlen.2).mpr hb
      · rintro ⟨-, a, ha, hn⟩
        refine ⟨_, rfl, ?_⟩
        obtain rfl | ⟨x, rfl, hx⟩ := normalizeMapped_eq_v4 hn
        · cases ha
        · exact (contains_embedded hbase hx hlen.1 hlen.2).mp ha
    · rw [if_neg fun h => hlen (subU8_le_iff.mp h)]
      refine iff_of_false (fun ⟨_, h, _⟩ => some_ne_none _ h.symm) ?_
      rintro ⟨hown, -⟩
      simp only [OwnFamily, hbase, isSome_some, Bool.true_and, Bool.and_eq_true,
        decide_eq_true_eq] at hown
      exact hlen hown

theorem collapseNet_iff (haddr : normalizeMapped addr = addr) (net : IpNet) :
    (∃ n, collapseNet net = some n ∧ n.contains addr = true) ↔
      OwnFamily net addr = true ∧ ∃ a, net.contains a = true ∧ normalizeMapped a = addr := by
  cases net with
  | v4 base len => simpa [OwnFamily] using collapseNet_v4_iff haddr base len
  | v6 base len =>
    cases hbase : toV4Mapped base with
    | none => exact collapseNet_plain_iff haddr hbase len
    | some _ => exact collapseNet_embedded_iff hbase len addr

theorem rangeSeen_iff (haddr : normalizeMapped addr = addr) (text : String) :
    (∃ net, parseEntryNet c text = some net ∧ net.contains addr = true) ↔
      ∃ net a, c.ipNetFromStr text = some net ∧ OwnFamily net addr = true ∧
        net.contains a = true ∧ normalizeMapped a = addr := by
  unfold parseEntryNet
  cases c.ipNetFromStr text with
  | none => simp
  | some net =>
    rw [bind_some, collapseNet_iff haddr]
    constructor
    · rintro ⟨hown, a, ha⟩
      exact ⟨net, a, rfl, hown, ha⟩
    · rintro ⟨net', a, he, hown, ha⟩
      cases he
      exact ⟨hown, a, ha⟩

theorem seen_iff (haddr : normalizeMapped addr = addr) (text : String) :
    Seen c ip addr text ↔ DenotesPlainly c ip addr text := by
  unfold Seen DenotesPlainly
  rw [rangeSeen_iff haddr]

theorem DenotesPlainly.denotes (hip : IpAddr.fromStr ip = some addr) {text : String}
    (h : DenotesPlainly c ip (normalizeMapped addr) text) :
    Denotes c text (normalizeMapped addr) := by
  obtain rfl | rfl | ⟨net, a, hnet, -, ha, hn⟩ := h
  · exact .inl ⟨addr, hip, rfl⟩
  · exact .inl ⟨_, fromStr_display _, normalizeMapped_idem addr⟩
  · exact .inr ⟨net, a, hnet, ha, hn⟩

/-- The answer is the one the stored blocks denote unless those that denote the address are all
spelled otherwise. -/
theorem block_lookup_exact_iff (c : Crates) (ops : List BlockOp) (now : Nat) (site ip : String)
    (addr : IpAddr) (hops : ∀ op ∈ ops, op.PlainSites) (hsite : ':' ∉ site.toList)
    (hip : IpAddr.fromStr ip = some addr) :
    ((empty.run c ops).isIpBlocked now site ip = true ↔
        ∃ e, (empty.run c ops).InForce now site e ∧
          Denotes c e.ip (normalizeMapped addr)) ↔
      ((∃ e, (empty.run c ops).InForce now site e ∧
          Denotes c e.ip (normalizeMapped addr)) →
        ∃ e, (empty.run c ops).InForce now site e ∧
          DenotesPlainly c ip (normalizeMapped addr) e.ip) := by
  have hstep : InStep c (empty.run c ops) := (inStep_empty c).run hops
  rw [hstep.isIpBlocked_iff hsite hip]
  simp only [seen_iff (normalizeMapped_idem addr)]
  constructor
  · intro h
    exact h.mpr
  · intro h
    refine ⟨fun ⟨e, he, hplain⟩ => ⟨e, he, hplain.denotes hip⟩, h⟩

/-! ## Spellings -/

def blockOnce (ip : String) : List BlockOp := [.block 0 "s" ip none "waf: r"]

theorem inForce_blockOnce {c : Crates} {ip : String}
    (h : ((empty.run c (blockOnce ip)).blockedIps.lookup (blockKey "s" ip)) =
      some (blockedEntry 0 "s" ip none "waf: r")) :
    (empty.run c (blockOnce ip)).InForce 1 "s"
      (blockedEntry 0 "s" ip none "waf: r") :=
  ⟨⟨_, h⟩, rfl, rfl⟩

/-- A client that comes with an embedded address is found under the plain one. -/
theorem embedded_client_blocked :
    (empty.run .inert (blockOnce "203.0.113.5")).isIpBlocked 1 "s"
      "::ffff:203.0.113.5" = true := by
  have hforce := @inForce_blockOnce .inert "203.0.113.5" (by decide +kernel)
  have haddr : IpAddr.fromStr "::ffff:203.0.113.5" = some (.v6 0xFFFFCB007105) := by
    decide +kernel
  have htext : "203.0.113.5" = (normalizeMapped (.v6 0xFFFFCB007105)).display := by decide +kernel
  have hplain : DenotesPlainly .inert "::ffff:203.0.113.5" (normalizeMapped (.v6 0xFFFFCB007105))
      "203.0.113.5" := .inr (.inl htext)
  have hops : ∀ op ∈ blockOnce "203.0.113.5", op.PlainSites := by
    intro op hop
    cases List.mem_singleton.mp hop
    exact (by decide : ':' ∉ "s".toList)
  exact ((block_lookup_exact_iff .inert (blockOnce "203.0.113.5") 1 "s" "::ffff:203.0.113.5"
    (.v6 0xFFFFCB007105) hops (by decide) haddr).mpr fun _ => ⟨_, hforce, hplain⟩).mpr
      ⟨_, hforce, hplain.denotes haddr⟩

/-- The range of the embedded addresses and what is around them. -/
def wideRange : Crates :=
  { Crates.inert with
    ipNetFromStr := fun s => if s = "::ffff:0:0/64" then some (.v6 0xFFFF00000000 64) else none }

/-- A block of the embedded form does not reach the plain address, nor does a wide range that
starts from an embedded address. -/
theorem embedded_blocks_missed :
    ((empty.run .inert (blockOnce "::ffff:203.0.113.5")).isIpBlocked 1 "s"
        "203.0.113.5" = false ∧
      ∃ e, (empty.run .inert (blockOnce "::ffff:203.0.113.5")).InForce 1 "s" e ∧
        Denotes .inert e.ip (.v4 0xCB007105)) ∧
    ((empty.run wideRange (blockOnce "::ffff:0:0/64")).isIpBlocked 1 "s"
        "203.0.113.5" = false ∧
      ∃ e, (empty.run wideRange (blockOnce "::ffff:0:0/64")).InForce 1 "s" e ∧
        Denotes wideRange e.ip (.v4 0xCB007105)) := by
  refine ⟨⟨by decide +kernel, _, inForce_blockOnce (by decide +kernel), .inl ?_⟩,
    ⟨by decide +kernel, _, inForce_blockOnce (by decide +kernel), .inr ?_⟩⟩
  · exact ⟨.v6 0xFFFFCB007105, by decide +kernel, by decide +kernel⟩
  · exact ⟨.v6 0xFFFF00000000 64, .v6 0xFFFFCB007105, by decide +kernel, by decide +kernel,
      by decide +kernel⟩

end PingWaf.Agent
