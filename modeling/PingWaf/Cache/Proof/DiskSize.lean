import PingWaf.Cache.DiskSize
import PingWaf.Cache.Proof.Isolation

/-!
# When the file cache knows its size

The counter is the total size of the files after every removal and sweep, and after every write but
one: room is made by deleting the very file that the write replaces, while other files stay. Its size
was taken before and is then subtracted a second time.
-/

namespace PingWaf.Cache.SizedDisk

open Table List

/-- The counter is the total size of the files. -/
def Exact (disk : SizedDisk) : Prop := disk.currentSize = disk.files.total fun _ len => len

/-- The files are on the disk with these sizes, each listed once. -/
def Lists (disk : SizedDisk) (files : List (FilePath × Nat)) : Prop :=
  files.Pairwise (·.1 ≠ ·.1) ∧ ∀ file ∈ files, disk.files.lookup file.1 = some file.2

def sizes (files : List (FilePath × Nat)) : Nat := (files.map Prod.snd).sum

variable {disk : SizedDisk} {files gone : List (FilePath × Nat)} {file : FilePath × Nat}
  {path : FilePath} {maxSize need : Nat}

theorem lists_listCacheFiles (disk : SizedDisk) (walk : List FilePath) :
    disk.Lists (disk.listCacheFiles walk) := by
  unfold listCacheFiles
  refine ⟨List.Pairwise.filterMap _ (fun p p' hne file hf file' hf' => ?_) walk.nodup_dedup,
    fun file hf => ?_⟩
  · obtain ⟨len, -, rfl⟩ := Option.map_eq_some_iff.mp hf
    obtain ⟨len', -, rfl⟩ := Option.map_eq_some_iff.mp hf'
    exact hne
  · obtain ⟨p, -, hp⟩ := mem_filterMap.mp hf
    obtain ⟨len, hlen, rfl⟩ := Option.map_eq_some_iff.mp hp
    exact hlen

/-! ## Removals -/

theorem Exact.dropFile (h : disk.Exact) (hf : disk.files.lookup file.1 = some file.2) :
    (disk.dropFile file).Exact := by
  have htotal := total_erase disk.files (fun _ len => len) file.1
  rw [weight_of_some hf] at htotal
  unfold Exact at h
  show disk.currentSize - file.2 = total (disk.files.erase file.1) fun _ len => len
  omega

theorem Lists.tail (h : disk.Lists (file :: files)) : (disk.dropFile file).Lists files := by
  obtain ⟨hne, hrest⟩ := pairwise_cons.mp h.1
  refine ⟨hrest, fun f hf => ?_⟩
  show AList.lookup f.1 (disk.files.erase file.1) = some f.2
  rw [AList.lookup_erase_ne (hne f hf).symm]
  exact h.2 f (mem_cons_of_mem _ hf)

theorem Exact.dropFiles (h : disk.Exact) (hl : disk.Lists files) :
    (files.foldl SizedDisk.dropFile disk).Exact := by
  induction files generalizing disk with
  | nil => exact h
  | cons file _ ih => exact ih (h.dropFile (hl.2 file mem_cons_self)) hl.tail

theorem dropFiles_eq (files : List (FilePath × Nat)) (disk : SizedDisk) :
    files.foldl dropFile disk = ⟨disk.currentSize - sizes files,
      (files.map Prod.fst).foldl (fun t p => t.erase p) disk.files⟩ := by
  induction files generalizing disk with
  | nil => rfl
  | cons _ _ ih => simp [ih, dropFile, trackRemoved, sizes, Nat.sub_sub]

theorem Exact.removeTracked (h : disk.Exact) (path : FilePath) : (disk.removeTracked path).Exact := by
  unfold SizedDisk.removeTracked
  cases hf : disk.files.lookup path with
  | none => exact h
  | some len => exact Exact.dropFile h (show disk.files.lookup (path, len).1 = some len from hf)

/-! ## Making room -/

theorem evictFiles_of_fits (hfits : disk.currentSize + need ≤ maxSize)
    (files : List (FilePath × Nat)) : evictFiles maxSize need files disk = disk := by
  cases files <;> simp [evictFiles, hfits]

theorem evictFiles_spec (files : List (FilePath × Nat)) (disk : SizedDisk) :
    ∃ gone, gone <+: files ∧ evictFiles maxSize need files disk = gone.foldl dropFile disk ∧
      (∀ a, a <+: gone → a ≠ gone → maxSize < disk.currentSize - sizes a + need) ∧
      (gone = files ∨ disk.currentSize - sizes gone + need ≤ maxSize) := by
  induction files generalizing disk with
  | nil => exact ⟨[], prefix_refl _, rfl, fun a ha hne => absurd (prefix_nil.mp ha) hne,
      .inl rfl⟩
  | cons file _ ih =>
    by_cases hfits : disk.currentSize + need ≤ maxSize
    · exact ⟨[], nil_prefix, evictFiles_of_fits hfits _,
        fun a ha hne => absurd (prefix_nil.mp ha) hne, .inr (by simpa [sizes] using hfits)⟩
    · obtain ⟨gone, hpre, heq, hover, hend⟩ := ih (disk.dropFile file)
      have hsize : (disk.dropFile file).currentSize = disk.currentSize - file.2 := rfl
      refine ⟨file :: gone, cons_prefix_cons.mpr ⟨rfl, hpre⟩, by rw [evictFiles, if_neg hfits, heq]; rfl,
        fun a ha hne => ?_, hend.imp (congrArg _) fun hle => ?_⟩
      · cases a with
        | nil => simp [sizes]; omega
        | cons _ a =>
          obtain ⟨rfl, ha'⟩ := cons_prefix_cons.mp ha
          have hlt := hover a ha' fun h => hne (by rw [h])
          simp only [sizes, map_cons, sum_cons] at hlt ⊢
          omega
      · simp only [sizes, map_cons, sum_cons] at hle ⊢
        omega

theorem ensureDiskSpace_spec (disk : SizedDisk) (maxSize need : Nat) (walk : List FilePath) :
    (¬ (0 < maxSize ∧ need ≤ maxSize) ∧ (disk.ensureDiskSpace maxSize need walk).2 = disk) ∨
      (0 < maxSize ∧ need ≤ maxSize) ∧ ∃ gone, gone <+: disk.listCacheFiles walk ∧
        disk.ensureDiskSpace maxSize need walk = (true, gone.foldl dropFile disk) ∧
        (∀ a, a <+: gone → a ≠ gone → maxSize < disk.currentSize - sizes a + need) ∧
        (gone = disk.listCacheFiles walk ∨ disk.currentSize - sizes gone + need ≤ maxSize) := by
  unfold ensureDiskSpace
  by_cases hzero : maxSize = 0
  · exact .inl ⟨by omega, by rw [if_pos hzero]⟩
  rw [if_neg hzero]
  by_cases hbig : need > maxSize
  · exact .inl ⟨by omega, by rw [if_pos hbig]⟩
  rw [if_neg hbig]
  obtain ⟨gone, hpre, heq, hrest⟩ := evictFiles_spec (disk.listCacheFiles walk) disk
  refine .inr ⟨by omega, gone, hpre, ?_, hrest⟩
  rw [← heq]
  split
  · next hfits => rw [evictFiles_of_fits hfits]
  · rfl

/-! ## Writes -/

/-- To make room the pass comes to the file that is to be replaced, and another file outlasts it. -/
def Clashes (disk : SizedDisk) (maxSize : Nat) (path : FilePath) (newLen : Nat)
    (walk : List FilePath) : Prop :=
  0 < maxSize ∧ newLen - disk.trackedLen path ≤ maxSize ∧ 0 < disk.trackedLen path ∧
    (∃ before after, disk.listCacheFiles walk = before ++ (path, disk.trackedLen path) :: after ∧
      maxSize < disk.currentSize - sizes before + (newLen - disk.trackedLen path)) ∧
    ∃ gone, gone <+: disk.listCacheFiles walk ∧ sizes gone < disk.currentSize ∧
      (disk.currentSize - sizes gone + (newLen - disk.trackedLen path) ≤ maxSize ∨
        gone = disk.listCacheFiles walk)

theorem sizes_mono {a b : List (FilePath × Nat)} (h : a <+: b) : sizes a ≤ sizes b := by
  obtain ⟨rest, rfl⟩ := h
  simp [sizes]

/-- What a write leaves, where room was made by deleting `gone`. -/
theorem exact_written_iff (h : disk.Exact) (hl : disk.Lists gone) (newLen : Nat) :
    Exact (trackWritten { gone.foldl dropFile disk with
        files := (gone.foldl dropFile disk).files.insert path newLen } (disk.trackedLen path) newLen) ↔
      ¬ (path ∈ gone.map Prod.fst ∧ 0 < disk.trackedLen path ∧ sizes gone < disk.currentSize) := by
  have hexact := h.dropFiles hl
  have hweight : (gone.foldl dropFile disk).files.weight (fun _ len => len) path =
      if path ∈ gone.map Prod.fst then 0 else disk.trackedLen path := by
    rw [dropFiles_eq, weight, lookup_foldl_erase, trackedLen]
    split
    · rfl
    · cases disk.files.lookup path <;> rfl
  have hsize : (gone.foldl dropFile disk).currentSize = disk.currentSize - sizes gone := by
    rw [dropFiles_eq]
  have htotal := total_erase (gone.foldl dropFile disk).files (fun _ len => len) path
  unfold Exact at hexact
  show (gone.foldl dropFile disk).currentSize - disk.trackedLen path + newLen =
    newLen + total ((gone.foldl dropFile disk).files.erase path) (fun _ len => len) ↔ _
  by_cases hmem : path ∈ gone.map Prod.fst
  · rw [if_pos hmem] at hweight
    simp only [hmem, true_and]
    omega
  · rw [if_neg hmem] at hweight
    simp only [hmem, false_and, not_false_iff, iff_true]
    omega

theorem exact_put_iff (h : disk.Exact) (path : FilePath) (newLen : Nat) (walk : List FilePath) :
    (disk.put maxSize path newLen walk).Exact ↔ ¬ disk.Clashes maxSize path newLen walk := by
  have hlists := lists_listCacheFiles disk walk
  obtain ⟨hno, hsame⟩ | ⟨⟨hpos, hneed⟩, gone, hpre, hroom, hover, hend⟩ :=
    ensureDiskSpace_spec disk maxSize (newLen - disk.trackedLen path) walk
  · refine iff_of_true ?_ fun hc => hno ⟨hc.1, hc.2.1⟩
    unfold put
    dsimp only
    rw [hsame]
    split
    · have hnone : disk.Lists [] := ⟨.nil, nofun⟩
      exact (exact_written_iff h hnone newLen).mpr (by simp)
    · exact h
  · obtain ⟨kept, hkept⟩ := hpre
    have hl : disk.Lists gone :=
      ⟨(hkept ▸ hlists.1).sublist (sublist_append_left _ _),
        fun f hf => hlists.2 f (hkept ▸ mem_append_left _ hf)⟩
    unfold put
    simp only [hroom, if_true]
    rw [exact_written_iff h hl, not_iff_not]
    constructor
    · rintro ⟨hmem, hold, hleft⟩
      obtain ⟨file, hf, rfl⟩ := mem_map.mp hmem
      obtain ⟨before, rest, rfl⟩ := append_of_mem hf
      have hlen : disk.trackedLen file.1 = file.2 := by
        rw [trackedLen, hl.2 file hf, Option.getD_some]
      refine ⟨hpos, hneed, hold, ⟨before, rest ++ kept, by rw [← hkept, hlen]; simp, ?_⟩, _,
        ⟨kept, hkept⟩, hleft, hend.symm⟩
      exact hover before (prefix_append _ _) (by simp)
    · rintro ⟨-, -, hold, ⟨before, after, hfiles, hlt⟩, other, hother, hsizes, hstop⟩
      have hgone : gone <+: disk.listCacheFiles walk := ⟨kept, hkept⟩
      refine ⟨?_, hold, ?_⟩
      · -- the pass does not stop before it comes to the file
        by_contra hmem
        have hshort : gone <+: before := by
          obtain hpre | ⟨rest, hrest⟩ := prefix_or_prefix_of_prefix hgone ⟨_, hfiles.symm⟩
          · exact hpre
          · cases rest with
            | nil => simp [← hrest]
            | cons _ _ =>
              simp only [← hkept, ← hrest, append_assoc, cons_append,
                append_cancel_left_eq, cons.injEq] at hfiles
              exact absurd (by simp [← hrest, hfiles.1]) hmem
        have hle := sizes_mono hshort
        obtain rfl | hfits := hend
        · exact hmem (by rw [hfiles]; simp)
        · omega
      · obtain hpre | hpre := prefix_or_prefix_of_prefix hgone hother
        · exact (sizes_mono hpre).trans_lt hsizes
        · by_cases heq : other = gone
          · exact heq ▸ hsizes
          · obtain hfits | rfl := hstop
            · have := hover other hpre heq
              omega
            · exact absurd (hpre.eq_of_length_le hgone.length_le) heq

/-! ## Runs -/

/-- The call is no write that makes room by deleting the file it replaces. -/
def Call.Sound (k : Primitives) (c : FileCache) (maxSize : Nat) (disk : SizedDisk) : Call → Prop
  | .put key nameSpace object walk =>
    ¬ disk.Clashes maxSize (c.getFilePath k key nameSpace) object.toBytes.length walk
  | _ => True

theorem exact_step_iff (k : Primitives) (c : FileCache) (h : disk.Exact) (call : Call) :
    (disk.step k c maxSize call).Exact ↔ call.Sound k c maxSize disk := by
  cases call with
  | put _ _ _ walk => exact exact_put_iff h _ _ walk
  | remove _ _ => exact iff_of_true (h.removeTracked _) trivial
  | clear _ walk =>
    have hl := lists_listCacheFiles disk walk
    exact iff_of_true (h.dropFiles ⟨hl.1.filter _, fun f hf => hl.2 f (mem_of_mem_filter hf)⟩)
      trivial
  | purgeNamespace nameSpace walk =>
    refine iff_of_true ?_ trivial
    show (disk.purgeNamespace nameSpace walk).Exact
    unfold purgeNamespace
    split
    · exact h
    · exact h.dropFiles (lists_listCacheFiles disk walk)

/-- The counter is the total size of the files after every call of a run exactly if no write makes
room by deleting the file that it replaces while others stay. -/
theorem file_cache_size_exact_iff (k : Primitives) (c : FileCache) (maxSize : Nat)
    (calls : List Call) :
    (∀ done, done <+: calls → (run k c maxSize done).Exact) ↔
      Once.Along (fun disk => step disk k c maxSize) (Call.Sound k c maxSize) empty calls :=
  Once.forall_states_iff (I := fun _ => True) (fun _ _ _ => trivial)
    (fun _ call _ h => exact_step_iff k c h call) trivial rfl

/-- Two objects of ten bytes in a budget of thirty; the older one is replaced by one of twenty-five,
for which it is deleted first. -/
def replacedOldest : List Call :=
  [.put "1" "" ⟨[], [], [0, 0]⟩ [], .put "2" "" ⟨[], [], [0, 0]⟩ [],
    .put "1" "" ⟨[], [], List.replicate 17 0⟩ [⟨"/c", "1"⟩, ⟨"/c", "2"⟩]]

theorem replaced_file_subtracted_twice :
    let disk := run .plain ⟨"/c", false, 0, []⟩ 30 replacedOldest
    (disk.currentSize, disk.files.total fun _ len => len) = (25, 35) := by
  decide

end PingWaf.Cache.SizedDisk
