import PingWaf.Plugin.RewriteBody
import PingWaf.Plugin.Proof.SubFilterBody

/-!
# Body operations and content codings

The operations of the rewrite plugin work on the octets of a response as they came, and the header
keeps its `Content-Encoding`.
-/

namespace PingWaf.Plugin

open Text
open Chunks (octets)

variable {rc : RewriteCrates} {c : Replacing} {vars : InterpVars}

theorem flatten_rewrite_emit (r : RewriteBodyReplacer) {chunks : List (Option (List UInt8))}
    (hne : chunks ≠ []) :
    (r.emit c chunks).flatten = applyBodyOps c r.ops (r.buffer ++ octets chunks) := by
  refine Chunks.flatten_emit (fun r rest => applyBodyOps c r.ops (r.buffer ++ rest))
    (fun r chunk rest => ?_) (fun r last => ?_) r hne
  · simp [RewriteBodyReplacer.handle, getD_map_nil]
  · simp [RewriteBodyReplacer.handle]

/-! ## Header edits -/

theorem applyResponseOp_bodyOps (st : ResponseEdits) (ops : List BodyOperation)
    (op : CompiledOperation) :
    applyResponseOp rc vars { st with bodyOps := ops } op =
      { applyResponseOp rc vars st op with bodyOps := ops } := by
  cases op with
  | setHeader _ _ | addHeader _ _ | removeHeader _ | setStatusCode _ =>
    simp only [applyResponseOp]; split <;> rfl
  | _ => rfl

theorem foldl_applyResponseOp_bodyOps (st : ResponseEdits) (bodyOps : List BodyOperation)
    (ops : List CompiledOperation) :
    ops.foldl (applyResponseOp rc vars) { st with bodyOps } =
      { ops.foldl (applyResponseOp rc vars) st with bodyOps } := by
  induction ops generalizing st with
  | nil => rfl
  | cons _ _ ih => rw [List.foldl_cons, applyResponseOp_bodyOps, ih, List.foldl_cons]

theorem foldl_applyResponseRule (rules : List ResponseRule) (st : ResponseEdits) :
    rules.foldl (applyResponseRule rc vars) st =
      { (rules.flatMap (·.operations)).foldl (applyResponseOp rc vars) st with
        bodyOps := st.bodyOps ++ rules.flatMap (·.bodyOperations) } := by
  induction rules generalizing st with
  | nil => simp
  | cons rule _ ih =>
    have hkeep : (rule.operations.foldl (applyResponseOp rc vars) st).bodyOps = st.bodyOps := by
      have h : rule.operations.foldl (applyResponseOp rc vars) { st with bodyOps := st.bodyOps } = _ :=
        foldl_applyResponseOp_bodyOps st st.bodyOps rule.operations
      rw [h]
    rw [List.foldl_cons, ih, applyResponseRule, foldl_applyResponseOp_bodyOps]
    simp [hkeep, List.append_assoc]

theorem codings_insertLine {name : String} (h : name ≠ "content-encoding") (value : List UInt8)
    (headers : List HeaderLine) : codings (insertLine name value headers) = codings headers := by
  unfold codings
  rw [filter_insertLine_neg (p := (· = "content-encoding")) (decide_eq_false h)]

theorem codings_removeLines {name : String} (h : name ≠ "content-encoding") (headers : List HeaderLine) :
    codings (removeLines name headers) = codings headers := by
  unfold codings removeLines
  rw [filter_filter_ne (p := (· = "content-encoding")) (decide_eq_false h)]

section

variable (rc) (facts : RewriteFacts) (rules : List ResponseRule) (r : RequestHeader)
  (upstream : ResponseHead)

/-- The body operations of the rules that match, in order. -/
def matchingBodyOps : List BodyOperation :=
  (matchingRules rc facts rules r upstream.status).flatMap (·.bodyOperations)

/-- The codings that the header operations of the rules that match leave. -/
def editedCodings : List String :=
  codings (((matchingRules rc facts rules r upstream.status).flatMap (·.operations)).foldl
    (applyResponseOp rc (interpVars r facts)) ⟨upstream, false, []⟩).head.headers

theorem rewriteResponse_snd :
    (rewriteResponse rc facts rules r upstream).2 = matchingBodyOps rc facts rules r upstream := by
  unfold rewriteResponse matchingBodyOps
  rw [foldl_applyResponseRule]
  dsimp only
  split
  · next hempty => simpa using (List.isEmpty_iff.mp hempty).symm
  · simp

theorem codings_rewriteResponse :
    codings (rewriteResponse rc facts rules r upstream).1.headers =
      editedCodings rc facts rules r upstream := by
  unfold rewriteResponse editedCodings
  rw [foldl_applyResponseRule]
  dsimp only
  split
  · rfl
  · rw [codings_insertLine (by decide), codings_removeLines (by decide)]

theorem flatten_rewriteExchange {chunks : List (Option (List UInt8))} (hne : chunks ≠ []) :
    (rewriteExchange rc facts rules r c upstream chunks).2.flatten =
      applyBodyOps c (matchingBodyOps rc facts rules r upstream) (octets chunks) := by
  rw [← rewriteResponse_snd]
  unfold rewriteExchange
  split
  · next head hnone =>
    rw [hnone]
    simp [Chunks.octets, applyBodyOps, List.flatMap_def]
  · next head ops hops hsome =>
    rw [hsome, flatten_rewrite_emit _ hne]
    rfl

theorem rewriteExchange_fst (chunks : List (Option (List UInt8))) :
    (rewriteExchange rc facts rules r c upstream chunks).1 =
      (rewriteResponse rc facts rules r upstream).1 := by
  unfold rewriteExchange
  split
  · next head hnone => rw [hnone]
  · next head ops hops hsome => rw [hsome]

end

/-! ## What the client reads -/

/-- Every client that reads the upstream's body reads from what is sent the operations applied to
it, or the body itself. -/
def ReadsRewritten (before after : List String) (rewrite : List UInt8 → List UInt8)
    (raw sent : List UInt8) : Prop :=
  ∀ (client : ContentDecoder) (d : List UInt8), client.decode before raw = some d →
    client.decode after sent = some (rewrite d) ∨ client.decode after sent = some d

def knowsOne (coding : List String) (raw d : List UInt8) : ContentDecoder where
  decode names body := if names = [] then some body else if names = coding ∧ body = raw then some d else none
  plain _ := rfl

theorem readsRewritten_iff (before after : List String) (rewrite : List UInt8 → List UInt8)
    (raw : List UInt8) :
    ReadsRewritten before after rewrite raw (rewrite raw) ↔
      (after = [] ∧ (before = [] ∨ ∀ d, rewrite raw = rewrite d ∨ rewrite raw = d)) ∨
        (after = before ∧ rewrite raw = raw) := by
  constructor
  · intro h
    by_cases hafter : after = []
    · subst hafter
      by_cases hbefore : before = []
      · exact .inl ⟨rfl, .inl hbefore⟩
      · refine .inl ⟨rfl, .inr fun d => ?_⟩
        simpa [knowsOne, hbefore] using h (knowsOne before raw d) d (by simp [knowsOne, hbefore])
    · refine .inr ?_
      have hreads := h (knowsOne before raw raw) raw (by simp [knowsOne])
      by_contra hnot
      have hunread : (knowsOne before raw raw).decode after (rewrite raw) = none := by
        simp only [knowsOne, if_neg hafter, if_neg hnot]
      simp [hunread] at hreads
  · rintro (⟨rfl, rfl | hconst⟩ | ⟨rfl, hsame⟩) client d hd
    · rw [client.plain, Option.some.injEq] at hd
      subst hd
      exact .inl (client.plain _)
    · rw [client.plain]
      rcases hconst d with heq | heq
      · exact .inl (by rw [heq])
      · exact .inr (by rw [heq])
    · rw [hsame]
      exact .inr hd

/-- **When body operations respect the content coding.** For every chunking, every client reads the
operations applied to the body, or the body, exactly if the header sent names no coding and either
none was named before or what the operations make of the octets is, for every body, what they make
of it or that body itself; or the codings stay and the operations change nothing in the octets. -/
theorem rewritten_body_exact_iff (rc : RewriteCrates) (c : Replacing) (facts : RewriteFacts)
    (rules : List ResponseRule) (r : RequestHeader) (upstream : ResponseHead)
    (init : List (Option (List UInt8))) (last : Option (List UInt8)) :
    ReadsRewritten (codings upstream.headers)
        (codings (rewriteExchange rc facts rules r c upstream (init ++ [last])).1.headers)
        (applyBodyOps c (matchingBodyOps rc facts rules r upstream)) (octets (init ++ [last]))
        (rewriteExchange rc facts rules r c upstream (init ++ [last])).2.flatten ↔
      (editedCodings rc facts rules r upstream = [] ∧ (codings upstream.headers = [] ∨
        ∀ d, applyBodyOps c (matchingBodyOps rc facts rules r upstream) (octets (init ++ [last])) =
            applyBodyOps c (matchingBodyOps rc facts rules r upstream) d ∨
          applyBodyOps c (matchingBodyOps rc facts rules r upstream) (octets (init ++ [last])) = d)) ∨
      (editedCodings rc facts rules r upstream = codings upstream.headers ∧
        applyBodyOps c (matchingBodyOps rc facts rules r upstream) (octets (init ++ [last])) =
          octets (init ++ [last])) := by
  rw [rewriteExchange_fst, codings_rewriteResponse, flatten_rewriteExchange _ _ _ _ _ (by simp)]
  exact readsRewritten_iff _ _ _ _

/-! ## A coded response with a body of its own -/

def plainCrates : RewriteCrates where
  regexReplaceAll _ _ text := text
  regexIsMatch _ _ := false
  headerValueOk _ := true
  parseUri _ := none

def setBody : ResponseRule := ⟨⟨none, .response, []⟩, [.set "ok"]⟩

def gzipHead : ResponseHead := ⟨200, [⟨"content-encoding", utf8Encode "gzip"⟩]⟩

def anyRequest : RequestHeader := ⟨"GET", none, "/", none, []⟩

def noFacts : RewriteFacts := ⟨none, "", fun _ => none⟩

def overwritten : ResponseHead × List (List UInt8) :=
  rewriteExchange plainCrates noFacts [setBody] anyRequest octetReplacing gzipHead [some [31, 139]]

/-- The new body goes out in plain under the upstream's `Content-Encoding: gzip`: a client that reads
the upstream's gzip reads nothing from it. -/
theorem set_body_under_gzip :
    overwritten.2.flatten = utf8Encode "ok" ∧ codings overwritten.1.headers = ["gzip"] ∧
      ¬ ReadsRewritten (codings gzipHead.headers) (codings overwritten.1.headers)
        (applyBodyOps octetReplacing (matchingBodyOps plainCrates noFacts [setBody] anyRequest gzipHead))
        (octets [some [31, 139]]) overwritten.2.flatten := by
  have hsent : overwritten.2.flatten = utf8Encode "ok" := by decide +kernel
  have hcodings : codings overwritten.1.headers = ["gzip"] := by decide +kernel
  have hbefore : codings gzipHead.headers = ["gzip"] := by decide +kernel
  refine ⟨hsent, hcodings, fun h => ?_⟩
  rw [hsent, hcodings, hbefore] at h
  have hreads := h (knowsOne ["gzip"] [31, 139] [97]) [97] (by decide +kernel)
  revert hreads
  decide +kernel

end PingWaf.Plugin
