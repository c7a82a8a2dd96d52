import PingWaf.Waf.Normalize.Body

/-!
# What an inspected body means

`decodeBody` answers `inspected` when its text is meant to be the complete body with every
`Content-Encoding` layer undone: each layer, over all the lines of the header, ends without an error
and below the ceiling (`undoAll`).
-/

namespace PingWaf.Waf

open Text List

/-! ## Layers and streams -/

def isIdentity (token : String) : Bool := eqIgnoreAsciiCase token "identity"

/-- The codings that change anything. -/
def realLayers (tokens : List String) : List String := tokens.filter fun t => !isIdentity t

/-- The `Content-Encoding` lines of a request. -/
def encodingLines (headers : Headers) : List String :=
  (headers.filter fun h => eqIgnoreAsciiCase h.1 "content-encoding").map (·.2)

/-- The codings of the first line, which is the one that is read. -/
def firstEncodings (headers : Headers) : List String :=
  ((encodingLines headers).head?.map encodingTokens).getD []

def laterEncodings (headers : Headers) : List String :=
  (encodingLines headers).tail.flatMap encodingTokens

def allEncodings (headers : Headers) : List String :=
  (encodingLines headers).flatMap encodingTokens

theorem allEncodings_eq (headers : Headers) :
    allEncodings headers = firstEncodings headers ++ laterEncodings headers := by
  unfold allEncodings firstEncodings laterEncodings
  cases encodingLines headers <;> simp

namespace Stream

/-- The stream fails at once. -/
def dead (s : Stream) : Bool := s.bytes.isEmpty && !s.ok

/-- The stream ends without failure, below the cap. -/
def clean (s : Stream) : Bool := s.ok && s.bytes.length < maxDecompressedBody

theorem not_dead_of_clean {s : Stream} (h : s.clean = true) : s.dead = false := by
  simp only [clean, Bool.and_eq_true] at h
  simp [dead, h.1]

end Stream

section

variable (c : Crates)

/-- The stream of a layer: the zlib form of `deflate` unless that reader rejects the input. -/
def layerStream (layer : String) (input : List UInt8) : Stream :=
  let encoding := toAsciiLowercase layer
  if encoding = "gzip" ∨ encoding = "x-gzip" then c.gzDecoder input
  else if encoding = "deflate" then
    if (c.zlibDecoder input).dead then c.deflateDecoder input else c.zlibDecoder input
  else ⟨[], false⟩

/-- The streams met when the layers are undone one after the other, each on the octets kept of
the one before. -/
def layerStreams : List String → List UInt8 → List Stream
  | [], _ => []
  | layer :: layers, input =>
    layerStream c layer input ::
      layerStreams layers ((layerStream c layer input).bytes.take maxDecompressedBody)

/-- Every layer undone in full: each stream ends cleanly below the ceiling. -/
def undoAll : List String → List UInt8 → Option (List UInt8)
  | [], input => some input
  | layer :: layers, input =>
    if (layerStream c layer input).clean then undoAll layers (layerStream c layer input).bytes
    else none

def textOf (contentType : Option String) (octets : List UInt8) : String :=
  bytesToScannable ((transcodeToUtf8 contentType octets).getD octets)

/-- The layers that `decodeBody` has undone in the text it returns. -/
def layersUndone (headers : Headers) (body : List UInt8) : List String :=
  if (unsupportedEncoding headers).isNone ∧ (decompress c headers body).isSome then
    realLayers (firstEncodings headers)
  else []

/-- If the body is reported as inspected, the text is that of the complete body with every layer
undone. -/
def Truthful (headers : Headers) (body : List UInt8) : Prop :=
  (decodeBody c headers body).inspection = .inspected →
    ∃ full, undoAll c (realLayers (allEncodings headers)).reverse body = some full ∧
      layersUndone c headers body = realLayers (allEncodings headers) ∧
      (decodeBody c headers body).text = textOf (headerValue headers "content-type") full

def firstStreams (headers : Headers) (body : List UInt8) : List Stream :=
  layerStreams c (realLayers (firstEncodings headers)).reverse body

/-- The gap is reported: an encoding of the first line is not supported, or the last of at most
four layers fills the ceiling and none was rejected. -/
def GapReported (headers : Headers) (body : List UInt8) : Prop :=
  (∃ t ∈ firstEncodings headers, isSupportedEncoding t = false) ∨
    ((firstEncodings headers).length ≤ 4 ∧ (∀ s ∈ firstStreams c headers body, s.dead = false) ∧
      ∃ s, (firstStreams c headers body).getLast? = some s ∧
        maxDecompressedBody ≤ s.bytes.length)

/-- There is no gap: one line has all the layers, at most four encodings are named on it unless
none needs work, and every stream ends cleanly below the ceiling. -/
def NoGap (headers : Headers) (body : List UInt8) : Prop :=
  realLayers (laterEncodings headers) = [] ∧
    ((firstEncodings headers).length ≤ 4 ∨ realLayers (firstEncodings headers) = []) ∧
    ∀ s ∈ firstStreams c headers body, s.clean = true

end

/-! ## One layer -/

section

variable {c : Crates}

theorem readBounded_dead {s : Stream} (h : s.dead = true) : readBounded s = none := by
  simp only [Stream.dead, Bool.and_eq_true, List.isEmpty_iff, Bool.not_eq_true'] at h
  simp [readBounded, h.1, h.2, maxDecompressedBody]

theorem readBounded_alive {s : Stream} (h : s.dead = false) :
    readBounded s = some (s.bytes.take maxDecompressedBody) := by
  unfold readBounded
  split
  · rfl
  · rename_i hlen
    have htake : s.bytes.take maxDecompressedBody = s.bytes := take_of_length_le (by omega)
    cases hok : s.ok <;> simp_all [Stream.dead]

theorem decodeOne_eq (layer : String) (input : List UInt8) :
    decodeOne c (toAsciiLowercase layer) input = readBounded (layerStream c layer input) := by
  unfold decodeOne layerStream
  dsimp only
  split
  · rfl
  · split
    · cases h : (c.zlibDecoder input).dead with
      | true => simp [readBounded_dead h]
      | false => simp [readBounded_alive h]
    · simp [readBounded, maxDecompressedBody]

/-! ## The chain of layers -/

theorem realLayers_cons_identity {layer : String} (h : isIdentity layer = true)
    (layers : List String) : realLayers (layer :: layers) = realLayers layers := by
  simp [realLayers, h]

theorem realLayers_cons_real {layer : String} (h : isIdentity layer = false)
    (layers : List String) : realLayers (layer :: layers) = layer :: realLayers layers := by
  simp [realLayers, h]

theorem decompressLoop_eq (body : List UInt8) :
    ∀ (layers : List String) (current : Option (List UInt8)),
      decompressLoop c body layers current =
        if (layerStreams c (realLayers layers) (current.getD body)).any Stream.dead then none
        else
          match (layerStreams c (realLayers layers) (current.getD body)).getLast? with
          | some s => some (s.bytes.take maxDecompressedBody)
          | none => current
  | [], current => by simp [decompressLoop, realLayers, layerStreams]
  | layer :: layers, current => by
    unfold decompressLoop
    cases hid : isIdentity layer with
    | true =>
      rw [if_pos (show eqIgnoreAsciiCase layer "identity" = true from hid),
        realLayers_cons_identity hid, decompressLoop_eq body layers current]
    | false =>
      rw [if_neg (by simpa [isIdentity] using hid), realLayers_cons_real hid, decodeOne_eq]
      simp only [layerStreams, any_cons, getLast?_cons]
      cases hdead : (layerStream c layer (current.getD body)).dead with
      | true => simp [readBounded_dead hdead]
      | false =>
        simp only [readBounded_alive hdead, Bool.false_or]
        rw [decompressLoop_eq body layers]
        simp only [Option.getD_some]
        split
        · rfl
        · cases (layerStreams c (realLayers layers)
            ((layerStream c layer (current.getD body)).bytes.take maxDecompressedBody)).getLast? <;>
            rfl

theorem Stream.take_of_clean {s : Stream} (h : s.clean = true) :
    s.bytes.take maxDecompressedBody = s.bytes := by
  simp only [Stream.clean, Bool.and_eq_true, decide_eq_true_eq] at h
  exact take_of_length_le (Nat.le_of_lt h.2)

theorem undoAll_eq : ∀ (layers : List String) (input : List UInt8),
    undoAll c layers input =
      if (layerStreams c layers input).all Stream.clean then
        some (((layerStreams c layers input).getLast?.map (·.bytes)).getD input)
      else none
  | [], input => by simp [undoAll, layerStreams]
  | layer :: layers, input => by
    simp only [undoAll, layerStreams, all_cons, getLast?_cons]
    cases hclean : (layerStream c layer input).clean with
    | false => simp
    | true =>
      rw [Stream.take_of_clean hclean, undoAll_eq layers]
      simp only [if_true, Bool.true_and, Option.map_some, Option.getD_some]
      cases (layerStreams c layers (layerStream c layer input).bytes).getLast? <;> rfl

/-! ## The header -/

theorem headerValue_encoding (headers : Headers) :
    headerValue headers "content-encoding" = (encodingLines headers).head? := by
  simp [headerValue, encodingLines, head?_filter]

theorem unsupportedEncoding_eq (headers : Headers) :
    unsupportedEncoding headers = (firstEncodings headers).find? fun t => !isSupportedEncoding t := by
  unfold unsupportedEncoding firstEncodings
  rw [headerValue_encoding]
  cases (encodingLines headers).head? <;> simp

theorem decompress_eq (headers : Headers) (body : List UInt8) :
    decompress c headers body =
      if 4 < (firstEncodings headers).length ∨
          (firstStreams c headers body).any Stream.dead = true then none
      else (firstStreams c headers body).getLast?.map (·.bytes.take maxDecompressedBody) := by
  unfold decompress firstStreams firstEncodings
  rw [headerValue_encoding]
  cases hline : (encodingLines headers).head? with
  | none => simp [realLayers, layerStreams]
  | some raw =>
    simp only [Option.bind_some, Option.map_some, Option.getD_some, gt_iff_lt]
    have hrev : realLayers (encodingTokens raw).reverse = (realLayers (encodingTokens raw)).reverse :=
      filter_reverse
    rw [decompressLoop_eq, hrev]
    by_cases hlen : 4 < (encodingTokens raw).length
    · simp [hlen]
    · simp only [hlen, if_false, false_or, Option.getD_none]
      cases (layerStreams c (realLayers (encodingTokens raw)).reverse body).getLast? <;> rfl

/-! ## The verdict on the body -/

section

variable {headers : Headers} {body : List UInt8}

theorem decodeBody_unsupported {t : String} (h : unsupportedEncoding headers = some t) :
    (decodeBody c headers body).inspection =
      .uninspected ("unsupported-content-encoding:" ++ t) := by
  simp [decodeBody, h]

theorem decodeBody_plain (hu : unsupportedEncoding headers = none)
    (hd : decompress c headers body = none) :
    decodeBody c headers body = ⟨textOf (headerValue headers "content-type") body, .inspected⟩ := by
  unfold decodeBody textOf
  simp only [hu, hd]
  cases transcodeToUtf8 (headerValue headers "content-type") body <;> rfl

variable {out : List UInt8}

theorem decodeBody_decoded (hu : unsupportedEncoding headers = none)
    (hd : decompress c headers body = some out) :
    decodeBody c headers body = ⟨textOf (headerValue headers "content-type") out,
      if maxDecompressedBody ≤ out.length then .pre maxDecompressedBody .decompressedCap
      else .inspected⟩ := by
  simp [decodeBody, textOf, hu, hd]

theorem unsupportedEncoding_eq_none :
    unsupportedEncoding headers = none ↔
      ¬∃ t ∈ firstEncodings headers, isSupportedEncoding t = false := by
  simp [unsupportedEncoding_eq]

theorem firstStreams_eq_nil :
    firstStreams c headers body = [] ↔ realLayers (firstEncodings headers) = [] := by
  have hrev : realLayers (firstEncodings headers) = [] ↔
      (realLayers (firstEncodings headers)).reverse = [] := reverse_eq_nil_iff.symm
  rw [hrev]
  unfold firstStreams
  cases (realLayers (firstEncodings headers)).reverse <;> simp [layerStreams]

theorem realLayers_all :
    realLayers (allEncodings headers) =
      realLayers (firstEncodings headers) ++ realLayers (laterEncodings headers) := by
  rw [allEncodings_eq]
  exact filter_append _ _

theorem truthful_iff_of_none (hu : unsupportedEncoding headers = none)
    (hd : decompress c headers body = none) :
    Truthful c headers body ↔ realLayers (allEncodings headers) = [] := by
  have hundone : layersUndone c headers body = [] := by simp [layersUndone, hd]
  unfold Truthful
  rw [decodeBody_plain hu hd, hundone]
  constructor
  · intro h
    obtain ⟨-, -, hnil, -⟩ := h rfl
    exact hnil.symm
  · intro h _
    exact ⟨body, by simp [h, undoAll], h.symm, rfl⟩

theorem gap_iff_of_none (hu : unsupportedEncoding headers = none)
    (hd : decompress c headers body = none) :
    GapReported c headers body ∨ NoGap c headers body ↔ realLayers (allEncodings headers) = [] := by
  rw [decompress_eq] at hd
  rw [realLayers_all, append_eq_nil_iff]
  constructor
  · rintro ((hun | ⟨hlen, halive, s, hs, -⟩) | ⟨hlater, hlen, hclean⟩)
    · exact absurd hun (unsupportedEncoding_eq_none.mp hu)
    · rw [if_neg (by simpa [Nat.not_lt.mpr hlen] using halive), hs] at hd
      simp at hd
    · refine ⟨hlen.elim (fun hlen => ?_) id, hlater⟩
      have halive : ¬(firstStreams c headers body).any Stream.dead = true := by
        simpa using fun s hs => Stream.not_dead_of_clean (hclean s hs)
      rw [if_neg (by simpa [Nat.not_lt.mpr hlen] using halive)] at hd
      exact firstStreams_eq_nil.mp (by simpa using hd)
  · rintro ⟨hfirst, hlater⟩
    refine .inr ⟨hlater, .inr hfirst, ?_⟩
    simp [firstStreams_eq_nil.mpr hfirst]

theorem decompress_eq_some (hd : decompress c headers body = some out) :
    (firstEncodings headers).length ≤ 4 ∧ (∀ s ∈ firstStreams c headers body, s.dead = false) ∧
      ∃ s, (firstStreams c headers body).getLast? = some s ∧
        out = s.bytes.take maxDecompressedBody := by
  rw [decompress_eq] at hd
  split at hd
  · simp at hd
  · rename_i hok
    simp only [not_or, Nat.not_lt, any_eq_true, not_exists, not_and, Bool.not_eq_true] at hok
    obtain ⟨s, hs, hout⟩ := Option.map_eq_some_iff.mp hd
    exact ⟨hok.1, hok.2, s, hs, hout.symm⟩

theorem truthful_iff_of_some (hu : unsupportedEncoding headers = none)
    (hd : decompress c headers body = some out) (hcap : out.length < maxDecompressedBody) :
    Truthful c headers body ↔
      realLayers (laterEncodings headers) = [] ∧
        ∀ s ∈ firstStreams c headers body, s.clean = true := by
  have hundone : layersUndone c headers body = realLayers (firstEncodings headers) := by
    simp [layersUndone, hu, hd]
  obtain ⟨-, -, s, hs, hout⟩ := decompress_eq_some hd
  unfold Truthful
  rw [decodeBody_decoded hu hd, hundone, realLayers_all, if_neg (by omega)]
  simp only [true_imp_iff, self_eq_append_right]
  constructor
  · rintro ⟨full, hfull, hlater, -⟩
    refine ⟨hlater, ?_⟩
    rw [hlater, append_nil, undoAll_eq] at hfull
    split at hfull
    · rename_i hclean
      exact all_eq_true.mp hclean
    · simp at hfull
  · rintro ⟨hlater, hclean⟩
    refine ⟨s.bytes, ?_, hlater, ?_⟩
    · have hall : (layerStreams c (realLayers (firstEncodings headers)).reverse body).all
          Stream.clean = true := all_eq_true.mpr hclean
      have hlast : (layerStreams c (realLayers (firstEncodings headers)).reverse body).getLast? =
          some s := hs
      rw [hlater, append_nil, undoAll_eq, if_pos hall, hlast]
      rfl
    · rw [hout, Stream.take_of_clean (hclean s (mem_of_getLast? hs))]

/-- **When `inspected` can be trusted**: on every header list and body, exactly if the gap is
reported or there is none. -/
theorem decodeBody_truthful_iff (c : Crates) (headers : Headers) (body : List UInt8) :
    Truthful c headers body ↔ GapReported c headers body ∨ NoGap c headers body := by
  cases hu : unsupportedEncoding headers with
  | some _ =>
    refine iff_of_true (fun h => ?_) (.inl (.inl ?_))
    · simp [decodeBody_unsupported hu] at h
    · by_contra hnot
      simp [unsupportedEncoding_eq_none.mpr hnot] at hu
  | none =>
    cases hd : decompress c headers body with
    | none => rw [truthful_iff_of_none hu hd, gap_iff_of_none hu hd]
    | some out =>
      obtain ⟨hlen, halive, s, hs, hout⟩ := decompress_eq_some hd
      by_cases hcap : maxDecompressedBody ≤ s.bytes.length
      · have hfull : maxDecompressedBody ≤ out.length := by
          rw [hout, length_take]
          omega
        refine iff_of_true (fun h => ?_) (.inl (.inr ⟨hlen, halive, s, hs, hcap⟩))
        rw [decodeBody_decoded hu hd, if_pos hfull] at h
        simp at h
      · have hshort : out.length < maxDecompressedBody := by
          rw [hout, length_take]
          omega
        rw [truthful_iff_of_some hu hd hshort]
        constructor
        · rintro ⟨hlater, hclean⟩
          exact .inr ⟨hlater, .inl hlen, hclean⟩
        · rintro ((hun | ⟨-, -, s', hs', hcap'⟩) | ⟨hlater, -, hclean⟩)
          · exact absurd hun (unsupportedEncoding_eq_none.mp hu)
          · rw [hs] at hs'
            injection hs' with hs'
            exact absurd (hs' ▸ hcap') hcap
          · exact ⟨hlater, hclean⟩

/-- A gzip layer that the reader rejects is left on, and the body is still reported as inspected. -/
theorem rejected_gzip_reported_inspected :
    decodeBody .inert [("content-encoding", "gzip")] [0x1F, 0x8B] =
        ⟨bytesToScannable [0x1F, 0x8B], .inspected⟩ ∧
      ¬Truthful .inert [("content-encoding", "gzip")] [0x1F, 0x8B] := by
  refine ⟨by decide +kernel, fun h => ?_⟩
  obtain ⟨full, hfull, -⟩ := h (by decide +kernel)
  have hnone : undoAll .inert (realLayers (allEncodings [("content-encoding", "gzip")])).reverse
      [0x1F, 0x8B] = none := by decide +kernel
  rw [hnone] at hfull
  cases hfull

end

end

end PingWaf.Waf
