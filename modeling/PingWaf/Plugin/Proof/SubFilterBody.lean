import PingWaf.Plugin.SubFilterBody

/-!
# What the `sub_filter` replacer sends

Chunking does not matter (`flatten_emit`): a body over the cap is sent as it came, any other is what
`finish` makes of it. The rules then see what the decoder reads, which for gzip is the first member.
-/

namespace PingWaf.Plugin

open SubFilterReplacer Coding.Decoder

variable {k : Codecs} {c : Replacing} {encoding : ContentEncoding} {raw out plaintext : List UInt8}

open Chunks (octets)

/-! ## Chunks -/

section

variable {r : SubFilterReplacer} {chunk : Option (List UInt8)}

theorem handle_passthrough (h : r.passthrough = true) (endOfStream : Bool) :
    r.handle k c chunk endOfStream = (chunk, r) := by
  unfold handle
  exact if_pos h

theorem handle_over (h : r.passthrough = false)
    (hcap : maxSubFilterBytes < (r.buffer ++ chunk.getD []).length) (endOfStream : Bool) :
    r.handle k c chunk endOfStream =
      (some (r.buffer ++ chunk.getD []), { r with buffer := [], passthrough := true }) := by
  unfold handle
  rw [if_neg (by simp [h])]
  exact if_pos hcap

theorem handle_held (h : r.passthrough = false)
    (hcap : ¬ maxSubFilterBytes < (r.buffer ++ chunk.getD []).length) :
    r.handle k c chunk false =
      (chunk.map fun _ => [], { r with buffer := r.buffer ++ chunk.getD [] }) := by
  unfold handle
  rw [if_neg (by simp [h])]
  exact (if_neg hcap).trans (if_pos rfl)

theorem handle_end (h : r.passthrough = false)
    (hcap : ¬ maxSubFilterBytes < (r.buffer ++ chunk.getD []).length) :
    r.handle k c chunk true =
      (some (r.finish k c (r.buffer ++ chunk.getD [])), { r with buffer := [] }) := by
  unfold handle
  rw [if_neg (by simp [h])]
  exact (if_neg hcap).trans (if_neg (by simp))

end

theorem getD_map_nil (chunk : Option (List UInt8)) :
    (chunk.map fun _ => ([] : List UInt8)).getD [] = [] := by
  cases chunk <;> rfl

/-- What is sent in all, with the rest that is still to come. -/
def SubFilterReplacer.total (k : Codecs) (c : Replacing) (r : SubFilterReplacer) (rest : List UInt8) :
    List UInt8 :=
  if r.passthrough then rest
  else if maxSubFilterBytes < (r.buffer ++ rest).length then r.buffer ++ rest
  else r.finish k c (r.buffer ++ rest)

theorem flatten_emit (r : SubFilterReplacer) {chunks : List (Option (List UInt8))} (hne : chunks ≠ []) :
    (r.emit k c chunks).flatten = r.total k c (octets chunks) := by
  refine Chunks.flatten_emit (fun r => r.total k c) (fun r chunk rest => ?_) (fun r last => ?_) r hne
  · cases hpass : r.passthrough with
    | true => simp [handle_passthrough hpass, total, hpass]
    | false =>
      by_cases hcap : maxSubFilterBytes < (r.buffer ++ chunk.getD []).length
      · -- the latch: the buffer goes out, and everything behind it
        have hover : maxSubFilterBytes < (r.buffer ++ (chunk.getD [] ++ rest)).length := by
          simp only [List.length_append] at hcap ⊢
          omega
        rw [handle_over hpass hcap]
        simp only [total, hpass, hover]
        simp
      · rw [handle_held hpass hcap, getD_map_nil]
        simp only [total, hpass, List.nil_append, List.append_assoc]
        rfl
  · cases hpass : r.passthrough with
    | true => simp [handle_passthrough hpass, total, hpass]
    | false =>
      by_cases hcap : maxSubFilterBytes < (r.buffer ++ last.getD []).length
      · rw [handle_over hpass hcap]
        simp only [total, hpass, hcap]
        simp
      · rw [handle_end hpass hcap]
        simp only [total, hpass, hcap]
        simp

/-! ## Decoding -/

theorem decoded_of_recompress (h : recompress k encoding plaintext = some out) :
    decoded k encoding out = some plaintext := by
  cases encoding with
  | plain => exact h.symm
  | gzip => exact all_of_read (k.gzip_encode _ _ h)
  | deflate =>
    have hwhole := whole_of_read (k.zlib_encode _ _ h)
    rw [decoded, hwhole, Option.some_or]
  | brotli => exact whole_of_read (k.brotli_encode _ _ h)
  | zstd => exact all_of_read (k.zstd_encode _ _ h)

/-! ## Replacement -/

section

variable (k c)

/-- The octets are those received, or decode to the rules applied to the whole body. -/
def Uncorrupted (p : SubFilter) (encoding : ContentEncoding) (raw out : List UInt8) : Prop :=
  out = raw ∨ ∃ d, decoded k encoding raw = some d ∧ decoded k encoding out = some (p.applyFilters c d)

/-- Where a body within the cap is replaced, the rules make of what was read of it the same as of
the whole. -/
def ReadsEnough (p : SubFilter) (encoding : ContentEncoding) (raw : List UInt8) : Prop :=
  encoding ≠ .plain → raw.length ≤ maxSubFilterBytes →
    ∀ plaintext, decompress k encoding raw = some plaintext → p.applyFilters c plaintext ≠ plaintext →
      ∀ out, recompress k encoding (p.applyFilters c plaintext) = some out →
        (∃ d, decoded k encoding raw = some d ∧ p.applyFilters c d = p.applyFilters c plaintext) ∨ out = raw

end

theorem finish_unread (p : SubFilter) (hcoded : encoding ≠ .plain)
    (hread : decompress k encoding raw = none) : (p.replacer encoding).finish k c raw = raw := by
  cases encoding with
  | plain => exact absurd rfl hcoded
  | _ => simp [finish, SubFilter.replacer, hread]

theorem finish_read (p : SubFilter) (hcoded : encoding ≠ .plain)
    (hread : decompress k encoding raw = some plaintext) :
    (p.replacer encoding).finish k c raw =
      if p.applyFilters c plaintext = plaintext then raw
      else (recompress k encoding (p.applyFilters c plaintext)).getD raw := by
  cases encoding with
  | plain => exact absurd rfl hcoded
  | _ =>
    simp only [finish, SubFilter.replacer, hread]
    rfl

theorem readsEnough_iff_of_read (p : SubFilter) (hcoded : encoding ≠ .plain)
    (hcap : raw.length ≤ maxSubFilterBytes) (hread : decompress k encoding raw = some plaintext) :
    ReadsEnough k c p encoding raw ↔ (p.applyFilters c plaintext ≠ plaintext →
      ∀ out, recompress k encoding (p.applyFilters c plaintext) = some out →
        (∃ d, decoded k encoding raw = some d ∧
          p.applyFilters c d = p.applyFilters c plaintext) ∨ out = raw) := by
  simp [ReadsEnough, hcoded, hcap, hread]

theorem uncorrupted_finish_iff (p : SubFilter) (hcap : raw.length ≤ maxSubFilterBytes) :
    Uncorrupted k c p encoding raw ((p.replacer encoding).finish k c raw) ↔
      ReadsEnough k c p encoding raw := by
  by_cases hcoded : encoding = .plain
  · subst hcoded
    exact iff_of_true (.inr ⟨raw, rfl, rfl⟩) fun h => absurd rfl h
  · cases hread : decompress k encoding raw with
    | none =>
      rw [finish_unread p hcoded hread]
      exact iff_of_true (.inl rfl) (by simp [ReadsEnough, hread])
    | some plaintext =>
      rw [finish_read p hcoded hread, readsEnough_iff_of_read p hcoded hcap hread]
      by_cases hsame : p.applyFilters c plaintext = plaintext
      · rw [if_pos hsame]
        exact iff_of_true (.inl rfl) fun hchanged => absurd hsame hchanged
      · rw [if_neg hsame]
        cases hout : recompress k encoding (p.applyFilters c plaintext) with
        | none => exact iff_of_true (.inl rfl) fun _ _ => nofun
        | some out =>
          have hdecoded := decoded_of_recompress hout
          simp only [Uncorrupted, Option.getD_some, hdecoded, Option.some.injEq, ne_eq, hsame,
            not_false_eq_true, forall_const, forall_eq', or_comm, eq_comm]

/-- **When the replacer leaves a response intact.** For every chunking, the octets sent are those
received, or stand for the rules applied to what those received stand for, exactly if the decoder
reads enough of the body. -/
theorem replacement_exact_iff (k : Codecs) (c : Replacing) (p : SubFilter) (encoding : ContentEncoding)
    (init : List (Option (List UInt8))) (last : Option (List UInt8)) :
    Uncorrupted k c p encoding (octets (init ++ [last]))
        ((p.replacer encoding).emit k c (init ++ [last])).flatten ↔
      ReadsEnough k c p encoding (octets (init ++ [last])) := by
  have htotal : (p.replacer encoding).total k c (octets (init ++ [last])) =
      if maxSubFilterBytes < (octets (init ++ [last])).length then octets (init ++ [last])
      else (p.replacer encoding).finish k c (octets (init ++ [last])) := rfl
  rw [flatten_emit _ (List.append_ne_nil_of_right_ne_nil init (List.cons_ne_nil last [])), htotal]
  by_cases hcap : maxSubFilterBytes < (octets (init ++ [last])).length
  · rw [if_pos hcap]
    exact iff_of_true (.inl rfl) fun _ hle => absurd hcap (Nat.not_lt.mpr hle)
  · rw [if_neg hcap]
    exact uncorrupted_finish_iff p (Nat.not_lt.mp hcap)

theorem readsEnough_zstd (p : SubFilter) (raw : List UInt8) : ReadsEnough k c p .zstd raw := by
  intro _ _ plaintext hread _ out _
  exact .inl ⟨plaintext, (Option.filter_eq_some_iff.mp hread).1, rfl⟩

theorem readsEnough_one_member (p : SubFilter) {content : List UInt8}
    (h : k.gzip.read raw = some (content, [])) : ReadsEnough k c p .gzip raw := by
  intro _ _ plaintext hread _ out _
  have hfirst := (Option.filter_eq_some_iff.mp hread).1
  rw [first_of_read h] at hfirst
  obtain rfl := Option.some.inj hfirst
  exact .inl ⟨content, all_of_read h, rfl⟩

/-! ## A gzip file of two members -/

def counted : Coding.Decoder UInt8 where
  read raw := raw.head?.bind fun n =>
    if n.toNat ≤ raw.tail.length then some (raw.tail.take n.toNat, raw.tail.drop n.toNat) else none
  shorter raw content rest h := by
    cases raw with
    | nil => cases h
    | cons n raw =>
      have hread : (if n.toNat ≤ raw.length then some (raw.take n.toNat, raw.drop n.toNat) else none) =
          some (content, rest) := h
      split at hread
      · obtain ⟨-, rfl⟩ := Prod.mk.inj (Option.some.inj hread)
        simp only [List.length_drop, List.length_cons]
        omega
      · cases hread

def countedEncode (p : List UInt8) : Option (List UInt8) :=
  if p.length < 256 then some (UInt8.ofNat p.length :: p) else none

theorem counted_encode (p raw : List UInt8) (h : countedEncode p = some raw) :
    counted.read raw = some (p, []) := by
  unfold countedEncode at h
  split at h
  · next hlen =>
    obtain rfl := Option.some.inj h
    have hn : (UInt8.ofNat p.length).toNat = p.length := by
      simp only [UInt8.toNat_ofNat']
      omega
    simp [counted, hn]
  · cases h

def countedCodecs : Codecs where
  gzip := counted
  zlib := counted
  rawDeflate := counted
  brotli := counted
  zstd := counted
  brotliReads := counted.first
  gzipEncode := countedEncode
  zlibEncode := countedEncode
  brotliEncode := countedEncode
  zstdEncode := countedEncode
  gzip_encode := counted_encode
  zlib_encode := counted_encode
  brotli_encode := counted_encode
  zstd_encode := counted_encode

def octetReplacing : Replacing where
  error _ := none
  isMatch _ _ := true
  builds _ := true
  regexReplace _ data _ := data
  regexReplaceAll _ data _ := data
  replacen _ _ _ data := data
  replace pattern replacement data := data.flatMap fun b => if pattern = [b] then replacement else [b]

/-- `sub_filter 'a' 'b' g` -/
def aToB : SubFilter := ⟨none, none, [⟨none, [97], [98], ['g']⟩]⟩

/-- The rule sees the first member only, and the second is gone. -/
theorem second_member_lost :
    ((aToB.replacer .gzip).emit countedCodecs octetReplacing [some [1, 97, 1], some [97]]).flatten =
        [1, 98] ∧
      decoded countedCodecs .gzip [1, 97, 1, 97] = some [97, 97] ∧
      ¬ Uncorrupted countedCodecs octetReplacing aToB .gzip (octets [some [1, 97, 1], some [97]])
        ((aToB.replacer .gzip).emit countedCodecs octetReplacing [some [1, 97, 1], some [97]]).flatten := by
  have hout : ((aToB.replacer .gzip).emit countedCodecs octetReplacing
      [some [1, 97, 1], some [97]]).flatten = [1, 98] := by decide +kernel
  have hwhole : decoded countedCodecs .gzip [1, 97, 1, 97] = some [97, 97] := by decide +kernel
  refine ⟨hout, hwhole, ?_⟩
  rw [hout]
  rintro (heq | ⟨d, hd, hfiltered⟩)
  · revert heq
    decide +kernel
  · have hd' : decoded countedCodecs .gzip [1, 97, 1, 97] = some d := hd
    rw [hwhole, Option.some.injEq] at hd'
    subst hd'
    revert hfiltered
    decide +kernel

end PingWaf.Plugin
