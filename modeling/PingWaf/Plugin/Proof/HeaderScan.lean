import PingWaf.Plugin.Request
import PingWaf.Waf.Proof.Monitor

/-!
# Header inspection

Which header lines reach the engine. The collection loop passes over a line whose value is not
visible ASCII, while the line itself goes upstream.
-/

namespace PingWaf.Plugin

open Text Waf

section

variable (c : Crates) (d : Detectors) (e : WafEngine) (budget : ScanBudget)
variable (r : RequestHeader) (f : ClientFacts)

/-- The verdict on a request as it is collected. -/
def headerVerdict : WafAction := (e.inspect c d budget (requestData r f)).action

def RequestHeader.withLines (lines : List HeaderLine) : RequestHeader := { r with headers := lines }

/-- The value stands in the header list, in its Latin-1 or its UTF-8 reading. -/
def Contributes (hs : Headers) (l : HeaderLine) : Prop :=
  (l.name, latin1 l.value) ∈ hs ∨ ∃ s, utf8Decode l.value = some s ∧ (l.name, s) ∈ hs

/-- Every line contributes to the headers that the engine sees. -/
def HeadersComplete : Prop := ∀ l ∈ r.headers, Contributes (requestData r f).headers l

def HeaderLine.insertOctet (l : HeaderLine) (i : Nat) (b : UInt8) : HeaderLine :=
  { l with value := l.value.take i ++ b :: l.value.drop i }

/-- An octet above 0x7F in some header value turns no block into a pass. -/
def InsertionSafe : Prop :=
  ∀ pre l post, r.headers = pre ++ l :: post → ∀ (i : Nat) (b : UInt8), 0x80 ≤ b →
    headerVerdict c d e budget r f = .block →
    headerVerdict c d e budget (r.withLines (pre ++ l.insertOctet i b :: post)) f ≠ .pass

/-- Every value is visible ASCII. -/
def AllVisible : Prop := ∀ l ∈ r.headers, l.value.all isVisibleAscii = true

/-- No line decides over a block on its own. Where a request is to be blocked, no allow rule matches
it, and an enforced rule, the fast path or the blocking points condemn it; then no allow rule matches
it without the line either, and some detector still finds something or some rule still matches. -/
def NoLineDecides : Prop :=
  ∀ pre l post, r.headers = pre ++ l :: post →
    e.mode = .block → e.exempted c d budget (requestData r f) = false →
    e.condemned c d budget (requestData r f) = true →
      e.exempted c d budget (requestData (r.withLines (pre ++ post)) f) = false ∧
        e.noticed c d budget (requestData (r.withLines (pre ++ post)) f) = true

end

/-! ## Readings of a value -/

theorem ofNat_octet_injective : Function.Injective fun b : UInt8 => Char.ofNat b.toNat := by
  intro a b h
  have hn : (Char.ofNat a.toNat).toNat = (Char.ofNat b.toNat).toNat := congrArg Char.toNat h
  rw [toNat_octet, toNat_octet] at hn
  exact UInt8.toNat_inj.mp hn

theorem latin1_injective : Function.Injective latin1 := by
  intro a b h
  exact ofNat_octet_injective.list_map (String.ofList_injective h)

theorem visible_lt {b : UInt8} (h : isVisibleAscii b = true) : b.toNat < 0x80 := by
  simp only [isVisibleAscii, Bool.or_eq_true, Bool.and_eq_true, decide_eq_true_eq, beq_iff_eq,
    UInt8.lt_iff_toNat_lt] at h
  rcases h with ⟨-, h⟩ | rfl
  · exact h.trans (by decide)
  · decide

theorem utf8Decode_visible {v w : List UInt8} (hw : w.all isVisibleAscii = true)
    (h : utf8Decode v = some (latin1 w)) : v = w := by
  obtain ⟨l, hl, hs⟩ := Option.map_eq_some_iff.mp h
  have hlw : l = w.map fun b => Char.ofNat b.toNat := String.ofList_injective hs
  have ha : ∀ ch ∈ l, ch.toNat < 0x80 := by
    intro ch hch
    rw [hlw] at hch
    obtain ⟨b, hb, rfl⟩ := List.mem_map.mp hch
    rw [toNat_octet]
    exact visible_lt (List.all_eq_true.mp hw b hb)
  have hlv := utf8DecodeList_ascii hl ha
  exact ofNat_octet_injective.list_map (hlv.symm.trans hlw)

/-! ## Completeness -/

theorem mem_collectHeaders {lines : List HeaderLine} {n v : String} :
    (n, v) ∈ (collectHeaders lines).headers ↔
      ∃ l ∈ lines, l.name = n ∧ l.value.all isVisibleAscii = true ∧ latin1 l.value = v := by
  rw [collectHeaders_headers, List.mem_filterMap]
  refine exists_congr fun l => and_congr_right fun _ => ?_
  unfold HeaderLine.toStr
  split <;> simp_all

theorem visible_of_contributes {lines : List HeaderLine} {l : HeaderLine}
    (h : Contributes (collectHeaders lines).headers l) : l.value.all isVisibleAscii = true := by
  rcases h with h | ⟨s, hs, h⟩
  · obtain ⟨l', -, -, hv, he⟩ := mem_collectHeaders.mp h
    rwa [← latin1_injective he]
  · obtain ⟨l', -, -, hv, rfl⟩ := mem_collectHeaders.mp h
    rwa [utf8Decode_visible hv hs]

theorem headersComplete_iff (r : RequestHeader) (f : ClientFacts) :
    HeadersComplete r f ↔ AllVisible r := by
  refine forall₂_congr fun l hl => ⟨visible_of_contributes, fun hv => Or.inl ?_⟩
  exact mem_collectHeaders.mpr ⟨l, hl, rfl, hv, rfl⟩

/-! ## One octet in a value -/

theorem insertOctet_toStr (l : HeaderLine) (i : Nat) {b : UInt8} (hb : 0x80 ≤ b) :
    (l.insertOctet i b).toStr = none := by
  have hn : isVisibleAscii b = false := by
    rw [Bool.eq_false_iff]
    intro hv
    have hlt := visible_lt hv
    have hge : 0x80 ≤ b.toNat := UInt8.le_iff_toNat_le.mp hb
    omega
  simp [HeaderLine.toStr, HeaderLine.insertOctet, hn]

theorem headerVerdict_insertOctet (c : Crates) (d : Detectors) (e : WafEngine)
    (budget : ScanBudget) (r : RequestHeader) (f : ClientFacts) (pre post : List HeaderLine)
    (l : HeaderLine) (i : Nat) {b : UInt8} (hb : 0x80 ≤ b) :
    headerVerdict c d e budget (r.withLines (pre ++ l.insertOctet i b :: post)) f =
      headerVerdict c d e budget (r.withLines (pre ++ post)) f := by
  have hd : requestData (r.withLines (pre ++ l.insertOctet i b :: post)) f =
      requestData (r.withLines (pre ++ post)) f := by
    simp only [requestData, RequestHeader.withLines]
    rw [collectHeaders_skip (insertOctet_toStr l i hb)]
  rw [headerVerdict, headerVerdict, hd]

theorem blocked_then_not_pass_iff (c : Crates) (d : Detectors) (e : WafEngine)
    (budget : ScanBudget) (q q' : RequestData) :
    ((e.inspect c d budget q).action = .block → (e.inspect c d budget q').action ≠ .pass) ↔
      (e.mode = .block → e.exempted c d budget q = false → e.condemned c d budget q = true →
        e.exempted c d budget q' = false ∧ e.noticed c d budget q' = true) := by
  rw [WafEngine.inspect_block_iff, and_imp, and_imp]
  refine forall_congr' fun hmode => forall₂_congr fun _ _ => ?_
  have hon : e.mode ≠ .off := by
    rw [hmode]
    exact WafMode.noConfusion
  rw [ne_eq, WafEngine.inspect_pass_iff c d budget q' hon, not_or, Bool.not_eq_true,
    Bool.not_eq_false]

theorem insertionSafe_iff (c : Crates) (d : Detectors) (e : WafEngine) (budget : ScanBudget)
    (r : RequestHeader) (f : ClientFacts) :
    InsertionSafe c d e budget r f ↔ NoLineDecides c d e budget r f := by
  constructor
  · intro h pre l post hr
    refine (blocked_then_not_pass_iff c d e budget _ _).mp fun hblock => ?_
    have hsafe := h pre l post hr 0 0xFF (by decide) hblock
    rwa [headerVerdict_insertOctet c d e budget r f pre post l 0 (by decide)] at hsafe
  · intro h pre l post hr i b hb hblock
    rw [headerVerdict_insertOctet c d e budget r f pre post l i hb]
    exact (blocked_then_not_pass_iff c d e budget _ _).mpr (h pre l post hr) hblock

/-- **The engine sees every header line that goes upstream, and no octet above 0x7F turns a block
into a pass, exactly when every value is visible ASCII and no line decides on its own.** -/
theorem header_inspection_complete_iff (c : Crates) (d : Detectors) (e : WafEngine)
    (budget : ScanBudget) (r : RequestHeader) (f : ClientFacts) :
    (HeadersComplete r f ∧ InsertionSafe c d e budget r f) ↔
      (AllVisible r ∧ NoLineDecides c d e budget r f) :=
  and_congr (headersComplete_iff r f) (insertionSafe_iff c d e budget r f)

/-! ## A header rule evaded -/

def headerRule : CompiledRule :=
  { WafEngine.anyPathRule "header" .block with
    expression := .field ⟨.requestHeader, some "x-query"⟩ .contains (.str "drop table") }

def headerRequest (value : List UInt8) : RequestHeader where
  method := "GET"
  uriHost := none
  path := "/"
  query := none
  headers := [⟨"host", utf8Encode "example.com"⟩, ⟨"x-query", value⟩]

def anyClient : ClientFacts := ⟨"192.0.2.1", none, true⟩

/-- The octet 0xFF behind the text the rule looks for hides the header from it. -/
theorem high_octet_evades_header_rule :
    headerVerdict .inert .silent ((WafEngine.bare 5 []).withRules [headerRule]) WafEngine.freeBudget
        (headerRequest (utf8Encode "drop table")) anyClient = .block ∧
      headerVerdict .inert .silent ((WafEngine.bare 5 []).withRules [headerRule])
        WafEngine.freeBudget (headerRequest (utf8Encode "drop table" ++ [0xFF])) anyClient =
        .pass ∧
      (requestData (headerRequest (utf8Encode "drop table" ++ [0xFF])) anyClient).headers =
        [("host", "example.com")] := by
  decide +kernel

end PingWaf.Plugin
