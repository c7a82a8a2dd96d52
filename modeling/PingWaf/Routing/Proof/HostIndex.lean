import PingWaf.Routing.Location

/-!
# The host buckets

The buckets only narrow the scan: no location that accepts a request is missing from those of its
host, and they are tried in the order of the scan.
-/

namespace PingWaf.Routing

open Text List LocationHostIndex Location HostSelector HostIndexEntry

variable {c : Patterns} {b : LocationHostIndex} {host : String} {i idx : Nat}
  {entry : HostIndexEntry}

/-- The entry puts its location among the candidates for the host. -/
def HostIndexEntry.Admits (host : String) : HostIndexEntry → Prop
  | .exact name => toAsciiLowercase host = name
  | .suffix domain => hostMatchesSuffix host domain = true
  | _ => True

theorem mem_candidateIndices : i ∈ b.candidateIndices host ↔
    (∃ is, b.exact.lookup (toAsciiLowercase host) = some is ∧ i ∈ is) ∨
      (∃ domain is, b.suffixes.lookup domain = some is ∧ hostMatchesSuffix host domain = true ∧
        i ∈ is) ∨ i ∈ b.regex ∨ i ∈ b.any := by
  cases h : b.exact.lookup (toAsciiLowercase host) <;>
    simp [candidateIndices, h, Sigma.exists, ← AList.mem_lookup_iff, and_assoc]

theorem mem_push (h : i ∈ b.candidateIndices host ∨ i = idx ∧ entry.Admits host) :
    i ∈ (b.push idx entry).candidateIndices host := by
  rw [mem_candidateIndices] at h ⊢
  cases entry with
  | exact name =>
    simp only [push, Admits, Table.lookup_insert_eq] at h ⊢
    grind
  | suffix domain =>
    simp only [push, Admits, Table.lookup_insert_eq] at h ⊢
    rcases h with (h | ⟨d, is, hd, hm, hi⟩ | h) | ⟨rfl, h⟩
    · exact .inl h
    · refine .inr (.inl ⟨d, if d = domain then is ++ [idx] else is, ?_, hm, ?_⟩) <;> grind
    · exact .inr (.inr h)
    · exact .inr (.inl ⟨domain, _, if_pos rfl, h, by simp⟩)
  | _ =>
    simp only [push]
    split <;> grind

theorem mem_foldl_push {es : List (Nat × HostIndexEntry)}
    (h : i ∈ b.candidateIndices host ∨ ∃ e ∈ es, i = e.1 ∧ e.2.Admits host) :
    i ∈ (es.foldl (fun b e => b.push e.1 e.2) b).candidateIndices host := by
  induction es generalizing b with
  | nil => simpa using h
  | cons e es ih =>
    apply ih
    rcases h with h | ⟨e', he', hadmits⟩
    · exact .inl (mem_push (.inl h))
    · rcases mem_cons.mp he' with rfl | he'
      · exact .inl (mem_push (.inr hadmits))
      · exact .inr ⟨e', he', hadmits⟩

theorem admits_of_isMatch {s : HostSelector} (h : s.isMatch c host = true) :
    s.indexEntry.Admits host := by
  cases s with
  | regex _ => trivial
  | suffix _ => exact h
  | equal value lower =>
    rw [isMatch, eqIgnoreAsciiCase, beq_iff_eq] at h
    exact (congrArg String.ofList h.symm).trans lower

variable {t : Target}

theorem admits_of_accepts {l : Location} (h : l.accepts c t = true) :
    ∃ entry ∈ l.hostIndexEntries, entry.Admits t.host := by
  simp only [accepts, matchHostPath, Bool.and_eq_true, Bool.or_eq_true, any_eq_true] at h
  obtain ⟨⟨-, hempty | ⟨s, hs, hm⟩⟩, -⟩ := h
  · exact ⟨.any, by simp [hostIndexEntries, hempty], trivial⟩
  · have hne : l.hosts.isEmpty = false := isEmpty_eq_false_iff.mpr (ne_nil_of_mem hs)
    refine ⟨s.indexEntry, ?_, admits_of_isMatch hm⟩
    rw [hostIndexEntries, hne]
    exact mem_map_of_mem hs

/-- Up to as many locations as an index can number, the buckets lead to the location that a scan of
all of them finds. -/
theorem findAndApplyLocation_eq {conf : ServerConfig} (hlength : conf.ordered.length ≤ 2 ^ 16) :
    conf.findAndApplyLocation c t = conf.findLocation c t := by
  refine congrArg (fun found => if conf.builds c then found else none)
    (Ranked.findSome_indices (Finset.sortedLT_sort _).pairwise fun i name hname hsome => ?_)
  obtain ⟨l, hl⟩ := Option.isSome_iff_exists.mp hsome
  obtain ⟨hl, haccepts⟩ := Option.filter_eq_some_iff.mp hl
  obtain ⟨entry, hentry, hadmits⟩ := admits_of_accepts haccepts
  have hi : i % 2 ^ 16 = i :=
    Nat.mod_eq_of_lt ((List.getElem?_eq_some_iff.mp hname).1.trans_le hlength)
  refine mem_foldl_push (.inr ⟨(i % 2 ^ 16, entry), ?_, hi.symm, hadmits⟩)
  exact mem_flatMap.mpr ⟨(name, i), mem_zipIdx_iff_getElem?.mpr hname,
    mem_map_of_mem (by simpa [hl] using hentry)⟩

end PingWaf.Routing
