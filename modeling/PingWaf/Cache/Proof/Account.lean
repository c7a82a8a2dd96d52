import PingWaf.Cache.Account

/-!
# When the counters of the quota ledger are exact

Every call keeps the counters exact, with three exceptions: a write or a scan whose bytes do not fit
in 64 bits, a removal that the caller gives a size for though the key is not tracked, and a scan
that finds a key that is tracked already, or one key twice: it counts such a file again.
-/

namespace PingWaf.Cache.Account

open Table List Usage

def sizeOf (_ : String) (e : Entry) : Nat := e.sizeBytes

namespace Usage

/-- The counters are the total size and the number of the entries. -/
structure Exact (u : Usage) : Prop where
  bytes : u.currentBytes = u.entries.total sizeOf
  items : u.itemCount = u.entries.size

variable {u : Usage}

theorem exact_new (maxBytes : Nat) : Exact (new maxBytes) := ⟨rfl, rfl⟩

theorem exact_setMax (maxBytes : Nat) : Exact { u with maxBytes } ↔ u.Exact :=
  ⟨fun h => ⟨h.bytes, h.items⟩, fun h => ⟨h.bytes, h.items⟩⟩

theorem recordWrite_spec (u : Usage) (key : String) (sizeBytes now : Nat) :
    (u.recordWrite key sizeBytes now).entries = u.entries.insert key ⟨sizeBytes, now⟩ ∧
      (u.recordWrite key sizeBytes now).currentBytes =
        satAdd maxU64 (u.currentBytes - u.entries.weight sizeOf key) sizeBytes ∧
      (u.recordWrite key sizeBytes now).itemCount =
        u.itemCount + if u.entries.lookup key = none then 1 else 0 := by
  unfold recordWrite
  cases hold : u.entries.lookup key with
  | some _ => simp [addBytes, subBytes, weight, hold, sizeOf]
  | none => simp [addBytes, addItem, weight, hold]

theorem exact_recordWrite_iff (h : u.Exact) (key : String) (sizeBytes now : Nat) :
    (u.recordWrite key sizeBytes now).Exact ↔
      u.currentBytes - u.entries.weight sizeOf key + sizeBytes ≤ maxU64 := by
  obtain ⟨hentries, hbytes, hitems⟩ := recordWrite_spec u key sizeBytes now
  have htotal := total_erase u.entries sizeOf key
  have hcur := h.bytes
  have hinsert : total (u.entries.insert key ⟨sizeBytes, now⟩) sizeOf =
      sizeBytes + total (u.entries.erase key) sizeOf := rfl
  unfold satAdd at hbytes
  constructor
  · intro hexact
    have hnew := hexact.bytes
    rw [hentries, hinsert] at hnew
    omega
  · intro hfits
    refine ⟨by rw [hentries, hinsert]; omega, ?_⟩
    rw [hentries, hitems, size_insert, h.items]

theorem exact_recordAccess (h : u.Exact) (key : String) (now : Nat) :
    (u.recordAccess key now).Exact := by
  unfold recordAccess adjust
  cases hold : u.entries.lookup key with
  | none => exact ⟨h.bytes, h.items⟩
  | some e =>
    have htotal := total_erase u.entries sizeOf key
    have hweight : u.entries.weight sizeOf key = e.sizeBytes := weight_of_some hold
    have hsize := size_insert u.entries key { e with lastAccessed := now }
    simp only [hold, reduceCtorEq, if_false] at hsize
    refine ⟨?_, by rw [hsize]; exact h.items⟩
    rw [total_insert, h.bytes]
    simp only [sizeOf]
    omega

theorem exact_recordRemove_iff (h : u.Exact) (key : String) (sizeBytes : Nat) :
    (u.recordRemove key sizeBytes).Exact ↔
      u.entries.lookup key ≠ none ∨ sizeBytes = 0 ∨ u.currentBytes = 0 := by
  have htotal := total_erase u.entries sizeOf key
  have hcount := total_erase u.entries (fun _ _ => 1) key
  rw [← size_eq_total, ← size_eq_total] at hcount
  have hbytes := h.bytes
  have hitems := h.items
  unfold recordRemove
  cases hold : u.entries.lookup key with
  | some e =>
    have hweight : u.entries.weight sizeOf key = e.sizeBytes := weight_of_some hold
    have hone : u.entries.weight (fun _ _ => 1) key = 1 := weight_of_some hold
    refine iff_of_true ⟨?_, ?_⟩ (.inl (by simp))
    · show u.currentBytes - e.sizeBytes = total (u.entries.erase key) sizeOf
      omega
    · show (if u.itemCount = 0 then maxU64 else u.itemCount - 1) = size (u.entries.erase key)
      rw [if_neg (by omega)]
      omega
  | none =>
    simp only [weight, hold, Option.map_none, Option.getD_none, Nat.add_zero] at htotal hcount
    have hsame : u.currentBytes - sizeBytes = u.currentBytes ↔
        sizeBytes = 0 ∨ u.currentBytes = 0 := by omega
    simp only [ne_eq, not_true_eq_false, false_or, ← hsame]
    constructor
    · intro hexact
      exact hexact.bytes.trans (htotal.trans hbytes.symm)
    · intro heq
      exact ⟨heq.trans (hbytes.trans htotal.symm), hitems.trans hcount.symm⟩

theorem exact_clear : (clear u).Exact := ⟨rfl, rfl⟩

theorem exact_removeFile (stays : String → Bool) (h : u.Exact) (key : String) :
    (removeFile stays u key).Exact := by
  unfold removeFile
  by_cases hstays : stays key
  · simpa [hstays] using h
  · simp only [hstays]
    apply (exact_recordRemove_iff h _ _).mpr
    cases u.entries.lookup key with
    | none => exact .inr (.inl rfl)
    | some _ => exact .inl (by simp)

theorem exact_evictToFit (h : u.Exact) (order : List String) (stays : String → Bool) :
    (u.evictToFit order stays).Exact := by
  have hone : ∀ u key, Exact u → Exact (evictOne stays u key) := by
    intro u key h
    unfold evictOne
    split
    · exact h
    · exact exact_removeFile stays h key
  unfold evictToFit
  split
  · exact h
  · exact foldlRecOn _ _ h fun u hu key _ => hone u key hu

/-! ## A scan -/

/-- The files are new to the ledger, and their bytes fit beside those that are counted. -/
def Restorable (u : Usage) (files : List ScannedFile) : Prop :=
  u.entries.Fresh (files.map (·.key)) ∧
    u.currentBytes + (files.map (·.sizeBytes)).sum ≤ maxU64

theorem restored (now : Nat) (files : List ScannedFile) (u : Usage) :
    (files.foldl (restore now) u).itemCount = u.itemCount + files.length ∧
      (files.foldl (restore now) u).currentBytes =
        satAdd maxU64 u.currentBytes (files.map (·.sizeBytes)).sum ∧
      (files.foldl (restore now) u).entries = files.foldl (fun t file => t.insert file.key
        ⟨file.sizeBytes, if 0 < file.accessed then file.accessed else now⟩) u.entries := by
  induction files generalizing u with
  | nil => exact ⟨rfl, (satAdd.zero_right u.fits).symm, rfl⟩
  | cons file _ ih =>
    obtain ⟨hitems, hbytes, hentries⟩ := ih (restore now u file)
    rw [foldl_cons]
    refine ⟨?_, ?_, hentries⟩
    · rw [hitems, length_cons]
      simp only [restore, addItem, addBytes]
      omega
    · rw [hbytes, map_cons, sum_cons]
      exact satAdd.satAdd_satAdd _ _ _ _

theorem exact_restore_iff (h : u.Exact) (now : Nat) (files : List ScannedFile) :
    (files.foldl (restore now) u).Exact ↔ u.Restorable files := by
  obtain ⟨hitems, hbytes, hentries⟩ := restored now files u
  obtain ⟨-, hfresh⟩ := size_foldl_insert (fun file : ScannedFile => file.key)
    (fun file => (⟨file.sizeBytes, if 0 < file.accessed then file.accessed else now⟩ : Entry))
    files u.entries
  have htotal := total_foldl_insert (fun file : ScannedFile => file.key)
    (fun file => (⟨file.sizeBytes, if 0 < file.accessed then file.accessed else now⟩ : Entry))
    (f := sizeOf) files u.entries
  constructor
  · intro hexact
    have hnew : u.entries.Fresh (files.map (·.key)) := by
      rw [← hfresh, ← hentries, ← hexact.items, hitems, h.items]
    refine ⟨hnew, ?_⟩
    have hsum := hexact.bytes
    rw [hentries, htotal hnew, hbytes, ← h.bytes] at hsum
    simp only [satAdd, sizeOf] at hsum
    omega
  · rintro ⟨hnew, hfits⟩
    refine ⟨?_, ?_⟩
    · rw [hentries, htotal hnew, hbytes, ← h.bytes]
      exact Nat.min_eq_left hfits
    · rw [hentries, hfresh.mpr hnew, hitems, h.items]

end Usage

/-! ## The book -/

namespace Book

def Exact (book : Book) : Prop := book.Each fun _ u => u.Exact

/-- The usage of the domain, empty where there is none. -/
def account (book : Book) (domain : String) : Usage := (book.lookup domain).getD (.new 0)

variable {book : Book}

theorem exact_iff : book.Exact ↔ ∀ domain, (book.account domain).Exact := by
  constructor
  · intro h domain
    unfold account
    cases hlookup : book.lookup domain with
    | none => exact exact_new 0
    | some u => exact h domain u hlookup
  · intro h domain u hlookup
    simpa [account, hlookup] using h domain

theorem exact_adjust_iff (h : book.Exact) (domain : String) (f : Usage → Usage) :
    Exact (book.adjust domain f) ↔ ∀ u, book.lookup domain = some u → (f u).Exact := by
  constructor
  · intro hexact u hu
    exact hexact domain (f u) (by rw [lookup_adjust, if_pos rfl, hu]; rfl)
  · intro hf domain' u hu
    rw [lookup_adjust] at hu
    split at hu
    · obtain ⟨u', hu', rfl⟩ := Option.map_eq_some_iff.mp hu
      exact hf u' hu'
    · exact h domain' u hu

theorem account_ensureDomain (book : Book) (domain domain' : String) (f : Usage → Usage) :
    account ((book.ensureDomain domain).adjust domain f) domain' =
      if domain' = domain then f (book.account domain) else book.account domain' := by
  unfold account ensureDomain
  cases hlookup : book.lookup domain with
  | some _ => by_cases heq : domain' = domain <;> simp [lookup_adjust, hlookup, heq]
  | none =>
    by_cases heq : domain' = domain
    · simp [lookup_adjust, heq]
    · simp [lookup_adjust, heq, AList.lookup_insert_ne heq]

theorem account_setQuotas (quotas : List (String × Nat)) (book : Book) (domain : String) :
    ∃ maxBytes, account (quotas.foldl setQuota book) domain =
      { book.account domain with maxBytes } := by
  induction quotas generalizing book with
  | nil => exact ⟨_, rfl⟩
  | cons quota _ ih =>
    obtain ⟨maxBytes, hrest⟩ := ih (book.setQuota quota)
    refine ⟨maxBytes, ?_⟩
    rw [foldl_cons, hrest, setQuota, setMaxBytes, account_ensureDomain]
    split
    · rename_i heq
      rw [heq]
    · rfl

theorem exact_setQuotas (quotas : List (String × Nat)) (book : Book) :
    Exact (quotas.foldl setQuota book) ↔ book.Exact := by
  simp only [exact_iff]
  refine forall_congr' fun domain => ?_
  obtain ⟨maxBytes, hmax⟩ := account_setQuotas quotas book domain
  rw [hmax, exact_setMax]

/-- What a scan found of the domain. -/
def filesOf (domain : String) (scanned : List (String × List ScannedFile)) : List ScannedFile :=
  (scanned.filter fun found => found.1 = domain).flatMap (·.2)

theorem account_applyScan (now : Nat) (scanned : List (String × List ScannedFile)) (book : Book)
    (domain : String) :
    account (book.applyScan now scanned) domain =
      (filesOf domain scanned).foldl (Usage.restore now) (book.account domain) := by
  unfold applyScan
  induction scanned generalizing book with
  | nil => rfl
  | cons found _ ih =>
    rw [foldl_cons, ih, scanDomain, account_ensureDomain]
    by_cases heq : domain = found.1
    · subst heq
      simp [filesOf, foldl_append]
    · simp [filesOf, heq, Ne.symm heq]

theorem exact_load_iff (h : book.Exact) (quotas : List (String × Nat))
    (scanned : List (String × List ScannedFile)) (parked : List (String × Nat)) (now : Nat) :
    (book.load quotas scanned parked now).Exact ↔
      ∀ domain, (book.account domain).Restorable (filesOf domain scanned) := by
  unfold load
  rw [exact_setQuotas, exact_iff]
  refine forall_congr' fun domain => ?_
  have hexact := exact_iff.mp ((exact_setQuotas quotas book).mpr h) domain
  rw [account_applyScan, exact_restore_iff hexact]
  obtain ⟨maxBytes, hmax⟩ := account_setQuotas quotas book domain
  rw [hmax]
  rfl

/-! ## Runs -/

/-- What a call must not bring about at the counters that it finds. -/
def Call.Sound (book : Book) : Call → Prop
  | .recordWrite domain key sizeBytes _ => ∀ u, book.lookup domain = some u →
      u.currentBytes - u.entries.weight sizeOf key + sizeBytes ≤ maxU64
  | .recordRemove domain key sizeBytes => ∀ u, book.lookup domain = some u →
      u.entries.lookup key ≠ none ∨ sizeBytes = 0 ∨ u.currentBytes = 0
  | .load _ scanned _ _ => ∀ domain, (book.account domain).Restorable (filesOf domain scanned)
  | _ => True

theorem exact_purgeUrls (h : book.Exact) (domain : String) (urls : List String)
    (stays : String → Bool) : (book.purgeUrls domain urls stays).Exact := by
  unfold purgeUrls
  split
  · exact h
  · refine foldlRecOn _ _ h fun book hbook key _ => ?_
    exact (exact_adjust_iff hbook _ _).mpr fun u hu =>
      exact_removeFile stays (hbook domain u hu) key

theorem exact_step_iff (h : book.Exact) (call : Call) :
    (book.step call).Exact ↔ call.Sound book := by
  cases call with
  | setQuota domain maxMb => exact iff_of_true ((exact_setQuotas [(domain, maxMb)] book).mpr h) trivial
  | recordWrite domain key sizeBytes now =>
    refine (exact_adjust_iff h domain _).trans (forall₂_congr fun u hu => ?_)
    exact exact_recordWrite_iff (h domain u hu) key sizeBytes now
  | recordAccess domain key now =>
    refine iff_of_true ((exact_adjust_iff h domain _).mpr fun u hu => ?_) trivial
    exact exact_recordAccess (h domain u hu) key now
  | recordRemove domain key sizeBytes =>
    refine (exact_adjust_iff h domain _).trans (forall₂_congr fun u hu => ?_)
    exact exact_recordRemove_iff (h domain u hu) key sizeBytes
  | evictToFit domain order stays =>
    refine iff_of_true ((exact_adjust_iff h domain _).mpr fun u hu => ?_) trivial
    exact exact_evictToFit (h domain u hu) order stays
  | purgeDomain domain =>
    refine iff_of_true ?_ trivial
    show (book.purgeDomain domain).Exact
    unfold purgeDomain
    split
    · exact h
    · exact (exact_adjust_iff h domain _).mpr fun u _ => exact_clear
  | purgeUrls domain urls stays => exact iff_of_true (exact_purgeUrls h domain urls stays) trivial
  | load quotas scanned parked now => exact exact_load_iff h quotas scanned parked now

/-- The counters are exact after every call of a run exactly if every call is sound. -/
theorem quota_ledger_exact_iff (calls : List Call) :
    (∀ done, done <+: calls → (run done).Exact) ↔ Once.Along step Call.Sound ∅ calls :=
  Once.forall_states_iff (I := fun _ => True) (fun _ _ _ => trivial)
    (fun _ call _ hexact => exact_step_iff hexact call) trivial each_empty

/-- The ledger is loaded twice, and one file of ten bytes is there. -/
def loadedTwice : List Call :=
  [.load [] [("a.example", [⟨"k", 10, 0⟩])] [] 0, .load [] [("a.example", [⟨"k", 10, 0⟩])] [] 0]

theorem loaded_file_counted_twice :
    ((run loadedTwice).lookup "a.example").map
        (fun u => (u.currentBytes, u.itemCount, u.entries.total sizeOf, u.entries.size)) =
      some (20, 2, 10, 1) := by
  decide

end Book

end PingWaf.Cache.Account
