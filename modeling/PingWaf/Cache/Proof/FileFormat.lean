import PingWaf.Cache.FileFormat

/-!
# The two readers of cache files agree

Both readers are compared with one description of the layout (`layout`): the lengths of the header
say where the halves and the body lie, and a file is taken exactly if it reaches to the end of the
metadata. The sums of lengths never saturate, as a length has 32 bits.
-/

namespace PingWaf.Cache

/-- The object that a file holds, if its metadata is all there. -/
def layout (file : List UInt8) : Option CacheObject :=
  let m₀ := fromBeBytes file 0
  let m₁ := fromBeBytes file 4
  if metaSizeLength + (m₀ + m₁) ≤ file.length then
    some ⟨(file.drop metaSizeLength).take m₀, (file.drop (metaSizeLength + m₀)).take m₁,
      file.drop (metaSizeLength + (m₀ + m₁))⟩
  else none

theorem fromBeBytes_lt (header : List UInt8) (i : Nat) : fromBeBytes header i < 2 ^ 32 := by
  unfold fromBeBytes
  have h₀ := (header.getD i 0).toNat_lt
  have h₁ := (header.getD (i + 1) 0).toNat_lt
  have h₂ := (header.getD (i + 2) 0).toNat_lt
  have h₃ := (header.getD (i + 3) 0).toNat_lt
  omega

theorem satAdd_sizes (header : List UInt8) :
    satAdd maxU64 (fromBeBytes header 0) (fromBeBytes header 4) =
      fromBeBytes header 0 + fromBeBytes header 4 := by
  have h₀ := fromBeBytes_lt header 0
  have h₁ := fromBeBytes_lt header 4
  unfold satAdd maxU64
  omega

theorem fromBeBytes_take {file : List UInt8} {i : Nat} (hi : i + 4 ≤ metaSizeLength) :
    fromBeBytes (file.take metaSizeLength) i = fromBeBytes file i := by
  have hget : ∀ j < metaSizeLength, (file.take metaSizeLength).getD j 0 = file.getD j 0 := by
    intro j hj
    simp [List.getD_eq_getElem?_getD, hj]
  unfold fromBeBytes
  rw [hget i (by omega), hget (i + 1) (by omega), hget (i + 2) (by omega), hget (i + 3) (by omega)]

/-! ## The whole-file parser -/

theorem splitTo_of_le {n : Nat} {data : List UInt8} (h : n ≤ data.length) :
    splitTo n data = .ok (data.take n, data.drop n) := if_pos h

theorem readInlineEntry_eq (file : List UInt8) :
    readInlineEntry file =
      .ok ((layout file).map fun o => ⟨o.meta0, o.meta1, .inline o.body⟩) := by
  unfold readInlineEntry CacheObject.tryFrom parseMetaSizes layout
  by_cases hheader : file.length < metaSizeLength
  · simp only [hheader, if_true, if_neg (Nat.not_le.mpr (Nat.lt_add_right _ hheader))]
    rfl
  · simp only [hheader, if_false, bind, Except.bind, satAdd_sizes,
      splitTo_of_le (Nat.le_of_not_lt hheader), List.length_drop]
    generalize fromBeBytes file 0 = m₀, fromBeBytes file 4 = m₁
    by_cases hmeta : m₀ + m₁ > file.length - metaSizeLength
    · have hshort : ¬ metaSizeLength + (m₀ + m₁) ≤ file.length := by omega
      simp only [hmeta, hshort, if_true, if_false]
      rfl
    · have hlong : metaSizeLength + (m₀ + m₁) ≤ file.length := by omega
      have h₀ : m₀ ≤ (file.drop metaSizeLength).length := by
        rw [List.length_drop]
        omega
      have h₁ : m₁ ≤ (file.drop (metaSizeLength + m₀)).length := by
        rw [List.length_drop]
        omega
      simp only [hmeta, hlong, if_true, if_false, splitTo_of_le h₀, splitTo_of_le h₁, pure,
        Except.pure, List.drop_drop, Option.map_some, Nat.add_assoc]

/-! ## The streaming reader -/

def streamed (file : List UInt8) (o : CacheObject) : CachedEntry :=
  let offset := metaSizeLength + (fromBeBytes file 0 + fromBeBytes file 4)
  ⟨o.meta0, o.meta1, .stream ⟨file, offset⟩ offset (file.length - offset)⟩

theorem readExact_of_le {h : Handle} {n : Nat} (hle : h.pos + n ≤ h.content.length) :
    h.readExact n = some ((h.content.drop h.pos).take n, { h with pos := h.pos + n }) := if_pos hle

theorem openBody_eq (file : List UInt8) (hheader : metaSizeLength ≤ file.length) :
    openBody ⟨file, metaSizeLength⟩ (fromBeBytes file 0, fromBeBytes file 4) file.length =
      .ok ((layout file).map (streamed file)) := by
  have h₀ := fromBeBytes_lt file 0
  have h₁ := fromBeBytes_lt file 4
  unfold openBody layout streamed
  simp only [satAdd_sizes]
  generalize fromBeBytes file 0 = m₀, fromBeBytes file 4 = m₁ at h₀ h₁ ⊢
  have hoffset : satAdd maxU64 metaSizeLength (m₀ + m₁) = metaSizeLength + (m₀ + m₁) := by
    unfold satAdd maxU64 metaSizeLength
    omega
  simp only [hoffset]
  by_cases hshort : metaSizeLength + (m₀ + m₁) > file.length
  · simp only [hshort, if_true, if_neg (Nat.not_le.mpr hshort)]
    rfl
  · have hlong : metaSizeLength + (m₀ + m₁) ≤ file.length := by omega
    -- without metadata nothing is read, which reads the empty halves all the same
    have hread : (if m₀ + m₁ > 0 then (Handle.mk file metaSizeLength).readExact (m₀ + m₁)
        else some ([], ⟨file, metaSizeLength⟩)) =
        some ((file.drop metaSizeLength).take (m₀ + m₁), ⟨file, metaSizeLength + (m₀ + m₁)⟩) := by
      split
      · exact readExact_of_le hlong
      · have hzero : m₀ + m₁ = 0 := by omega
        simp [hzero]
    have hhalves : m₀ ≤ ((file.drop metaSizeLength).take (m₀ + m₁)).length := by
      rw [List.length_take, List.length_drop]
      omega
    simp only [hshort, hlong, if_true, if_false, hread, splitTo_of_le hhalves, bind, Except.bind,
      pure, Except.pure, Option.map_some]
    simp only [Handle.seek, List.take_take, List.drop_take, List.drop_drop,
      Nat.add_sub_cancel_left, Nat.min_eq_left (Nat.le_add_right _ _)]

theorem openStreamEntry_eq (file : List UInt8) :
    openStreamEntry file = .ok ((layout file).map (streamed file)) := by
  unfold openStreamEntry
  by_cases hheader : metaSizeLength ≤ file.length
  · have hread : (Handle.mk file 0).readExact metaSizeLength =
        some (file.take metaSizeLength, ⟨file, metaSizeLength⟩) := by
      rw [readExact_of_le (by simpa using hheader)]
      simp
    have hlength : ¬ (file.take metaSizeLength).length < metaSizeLength := by
      rw [List.length_take]
      omega
    simp only [hread, parseMetaSizes, hlength, if_false]
    rw [fromBeBytes_take (by decide), fromBeBytes_take (by decide)]
    exact openBody_eq file hheader
  · have hread : (Handle.mk file 0).readExact metaSizeLength = none := by
      simp [Handle.readExact, hheader]
    simp only [hread, layout, if_neg fun h => hheader ((Nat.le_add_right _ _).trans h)]
    rfl

/-! ## Reading the body in pieces -/

theorem drain_inline (body : List UInt8) {fuel : Nat} (hfuel : 0 < fuel) :
    (CompleteHit.new (.inline body)).drain fuel = body := by
  obtain ⟨fuel, rfl⟩ := Nat.exists_eq_succ_of_ne_zero hfuel.ne'
  cases fuel with
  | zero => simp [CompleteHit.drain, CompleteHit.readBody, CompleteHit.new]
  | succ _ => simp [CompleteHit.drain, CompleteHit.readBody, CompleteHit.new]

theorem drain_stream (file : List UInt8) (offset len : Nat) {fuel pos position : Nat}
    (hend : pos + (len - position) = file.length) (hfuel : len - position < fuel) :
    (CompleteHit.mk (.stream ⟨file, pos⟩ offset len) false len position).drain fuel =
      file.drop pos := by
  induction fuel generalizing pos position with
  | zero => omega
  | succ _ ih =>
    unfold CompleteHit.drain CompleteHit.readBody
    by_cases hdone : position ≥ len
    · have hpos : file.length ≤ pos := by omega
      simp [hdone, List.drop_eq_nil_of_le hpos]
    · have hchunk : 0 < streamChunkBytes := by decide
      have hwant : pos + min (len - position) streamChunkBytes ≤ file.length := by omega
      have hread := readExact_of_le (h := ⟨file, pos⟩) hwant
      simp only [hdone, if_false, hread, Bool.false_eq_true]
      rw [ih (by omega) (by omega), ← List.drop_drop]
      exact List.take_append_drop _ _

theorem object_streamed {file : List UInt8} {o : CacheObject} (h : layout file = some o)
    {fuel : Nat} (hfuel : file.length < fuel) : (streamed file o).object fuel = o := by
  simp only [layout] at h
  split at h
  · rename_i hlong
    cases h
    unfold streamed CachedEntry.object CompleteHit.new
    rw [drain_stream file _ _ (by omega) (by omega)]
  · cases h

/-! ## The encoder -/

theorem fromBeBytes_putU32 (n : Nat) (hn : n < 2 ^ 32) (before after : List UInt8) :
    fromBeBytes (before ++ putU32 n ++ after) before.length = n := by
  unfold fromBeBytes putU32
  simp only [List.append_assoc, List.getD_append_right, Nat.le_refl, Nat.sub_self,
    Nat.le_add_right, Nat.add_sub_cancel_left]
  simp
  omega

theorem layout_toBytes {o : CacheObject} (h₀ : o.meta0.length < 2 ^ 32)
    (h₁ : o.meta1.length < 2 ^ 32) : layout o.toBytes = some o := by
  have hm₀ : fromBeBytes o.toBytes 0 = o.meta0.length := by
    have h := fromBeBytes_putU32 o.meta0.length h₀ []
      (putU32 o.meta1.length ++ o.meta0 ++ o.meta1 ++ o.body)
    simpa [CacheObject.toBytes] using h
  have hm₁ : fromBeBytes o.toBytes 4 = o.meta1.length := by
    have h := fromBeBytes_putU32 o.meta1.length h₁ (putU32 o.meta0.length)
      (o.meta0 ++ o.meta1 ++ o.body)
    simpa [CacheObject.toBytes, putU32] using h
  have hdrop : o.toBytes.drop metaSizeLength = o.meta0 ++ (o.meta1 ++ o.body) := by
    simp [CacheObject.toBytes, putU32, metaSizeLength]
  have hlength : o.toBytes.length =
      metaSizeLength + (o.meta0.length + o.meta1.length) + o.body.length := by
    simp [CacheObject.toBytes, putU32, metaSizeLength]
    omega
  unfold layout
  rw [hm₀, hm₁, if_pos (by omega), ← List.drop_drop, ← List.drop_drop, ← List.drop_drop, hdrop]
  simp

/-- For every file, both readers refuse it or both give the same object, with no slice out of range;
and both give an object back from its encoding. -/
theorem cache_readers_agree (file : List UInt8) (o : CacheObject) (h₀ : o.meta0.length < 2 ^ 32)
    (h₁ : o.meta1.length < 2 ^ 32) (fuel : Nat) (hfuel : file.length < fuel)
    (hfuel' : o.toBytes.length < fuel) :
    (∃ object : Option CacheObject,
      (readInlineEntry file).map (·.map (·.object fuel)) = .ok object ∧
      (openStreamEntry file).map (·.map (·.object fuel)) = .ok object) ∧
    (readInlineEntry o.toBytes).map (·.map (·.object fuel)) = .ok (some o) ∧
    (openStreamEntry o.toBytes).map (·.map (·.object fuel)) = .ok (some o) := by
  have hboth : ∀ file : List UInt8, file.length < fuel →
      (readInlineEntry file).map (·.map (·.object fuel)) = .ok (layout file) ∧
      (openStreamEntry file).map (·.map (·.object fuel)) = .ok (layout file) := by
    intro file hfuel
    rw [readInlineEntry_eq, openStreamEntry_eq]
    cases hlayout : layout file with
    | none => exact ⟨rfl, rfl⟩
    | some o =>
      have hinline : (CachedEntry.mk o.meta0 o.meta1 (.inline o.body)).object fuel = o := by
        unfold CachedEntry.object
        rw [drain_inline o.body (by omega)]
      simp only [Except.map, Option.map_some, hinline, object_streamed hlayout hfuel, and_self]
  refine ⟨⟨layout file, hboth file hfuel⟩, ?_⟩
  rw [← layout_toBytes h₀ h₁]
  exact hboth o.toBytes hfuel'

theorem cache_readers_agree_small :
    (readInlineEntry [0, 0]).map (·.map (·.object 20)) =
      (openStreamEntry [0, 0]).map (·.map (·.object 20)) ∧
    (openStreamEntry (CacheObject.toBytes ⟨[1], [2, 3], [4]⟩)).map (·.map (·.object 20)) =
      .ok (some ⟨[1], [2, 3], [4]⟩) := by
  obtain ⟨⟨object, hinline, hstream⟩, -, hback⟩ := cache_readers_agree [0, 0] ⟨[1], [2, 3], [4]⟩
    (by decide) (by decide) 20 (by decide) (by decide)
  exact ⟨hinline.trans hstream.symm, hback⟩

section

open List

theorem putU32_fromBeBytes {file : List UInt8} {i : Nat} (h : i + 4 ≤ file.length) :
    putU32 (fromBeBytes file i) = (file.drop i).take 4 := by
  have hfour : (file.drop i).take 4 =
      [file.getD i 0, file.getD (i + 1) 0, file.getD (i + 2) 0, file.getD (i + 3) 0] := by
    apply ext_getElem <;> grind
  rw [hfour, fromBeBytes]
  have h₀ := (file.getD i 0).toNat_lt
  have h₁ := (file.getD (i + 1) 0).toNat_lt
  have h₂ := (file.getD (i + 2) 0).toNat_lt
  have h₃ := (file.getD (i + 3) 0).toNat_lt
  simp only [putU32, cons.injEq, ← UInt8.toNat_inj, UInt8.toNat_ofNat', and_true]
  omega

theorem toBytes_layout {file : List UInt8} {o : CacheObject} (h : layout file = some o) :
    o.toBytes = file := by
  have hjoin : ∀ k n, (file.drop k).take n ++ file.drop (k + n) = file.drop k := by
    intro k n
    rw [← drop_drop, take_append_drop]
  simp only [layout, Option.ite_none_right_eq_some] at h
  obtain ⟨hlong, ho⟩ := h
  unfold metaSizeLength at hlong ho
  rw [← Option.some.inj ho, CacheObject.toBytes, length_take_of_le (by rw [length_drop]; omega),
    length_take_of_le (by rw [length_drop]; omega), putU32_fromBeBytes (by omega),
    putU32_fromBeBytes (by omega)]
  simp only [append_assoc, ← Nat.add_assoc, hjoin]
  exact drop_zero

/-- **What is read spells the file.** A read never aborts, and what it accepts, written again, is the
file octet for octet. -/
theorem read_file_written_again (file : List UInt8) :
    (readFileEntry file).map (·.map fun e => (e.object (file.length + 1)).toBytes) =
      .ok ((layout file).map fun _ => file) := by
  rw [readFileEntry, readInlineEntry_eq, openStreamEntry_eq]
  cases hfile : layout file with
  | none => split <;> rfl
  | some o =>
    split
    · have hbody := drain_inline o.body file.length.succ_pos
      simp [Except.map, CachedEntry.object, hbody, toBytes_layout hfile]
    · simp [Except.map, object_streamed hfile, toBytes_layout hfile]

end

end PingWaf.Cache
