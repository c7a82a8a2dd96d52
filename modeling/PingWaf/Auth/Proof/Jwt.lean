import PingWaf.Lib.Decimal
import PingWaf.Auth.Jwt
import PingWaf.Challenge.Plain
import PingWaf.Plugin.RewriteBody

/-!
# The expiry of minted tokens

`Sign` puts the octets of the response into the token as they came, whatever their coding, and the
request path reads an expiry only where those octets are JSON.
-/

namespace PingWaf.Auth

open Text Waf Sign
open Plugin (RequestHeader HeaderLine ContentDecoder codings)
open Chunks (octets)

variable {f : JwtForeign}

/-! ## The token -/

/-- What is sent in all, if the given octets are still to come. -/
def Sign.total (f : JwtForeign) (s : Sign) (rest : List UInt8) : List UInt8 :=
  utf8Encode (tokenBody (s.token f (s.buffer ++ rest)))

theorem flatten_sign_emit (s : Sign) {chunks : List (Option (List UInt8))} (hne : chunks ≠ []) :
    (s.emit f chunks).flatten = s.total f (octets chunks) := by
  refine Chunks.flatten_emit (fun s => s.total f) (fun s chunk rest => ?_) (fun s last => ?_) s hne
  · have hnothing : (chunk.map fun _ => ([] : List UInt8)).getD [] = [] := by cases chunk <;> rfl
    simp [handle, total, token, alg, hnothing]
  · simp [handle, total, token, alg]

theorem tokenBody_injective : Function.Injective tokenBody := by
  intro a b h
  have hlist := congrArg String.toList h
  simp only [tokenBody, String.toList_append, List.append_cancel_right_eq,
    List.append_cancel_left_eq] at hlist
  exact String.toList_injective hlist

theorem splitChar_token (h : f.Lawful) (s : Sign) (raw : List UInt8) :
    ∃ signature, splitChar '.' (s.token f raw) =
        [f.prims.b64Encode (utf8Encode (signHeader s.alg)), f.prims.b64Encode raw, signature] ∧
      mac f s.alg s.secret (f.prims.b64Encode (utf8Encode (signHeader s.alg)) ++ "." ++
        f.prims.b64Encode raw) = some signature := by
  have hsplit (bs : List UInt8) : splitChar '.' (f.prims.b64Encode bs) = [f.prims.b64Encode bs] :=
    splitChar_of_not_mem (Challenge.dot_not_mem_b64 h.prims bs)
  have hdot : "." = String.singleton '.' := rfl
  have hmac (content : String) : ∃ bs, mac f s.alg s.secret content = some (f.prims.b64Encode bs) := by
    unfold mac alg
    split
    · exact ⟨_, rfl⟩
    · exact ⟨_, rfl⟩
  obtain ⟨bs, hbs⟩ := hmac (f.prims.b64Encode (utf8Encode (signHeader s.alg)) ++ "." ++
    f.prims.b64Encode raw)
  refine ⟨f.prims.b64Encode bs, ?_, hbs⟩
  simp only [token, hbs, Option.getD_some]
  rw [hdot, splitChar_append, splitChar_append, hsplit, hsplit, hsplit]
  rfl

theorem headerAlg_signHeader (h : f.Lawful) (s : Sign) :
    headerAlg f (f.prims.b64Encode (utf8Encode (signHeader s.alg))) = s.alg := by
  have hmem : s.alg ∈ ["HS256", "HS512"] := by
    unfold alg
    split <;> decide
  simp [headerAlg, partJson, h.prims.b64_decode_encode, h.own_header s.alg hmem, Json.get]

/-! ## The request path -/

/-- The expiry that the octets of a body state to the request path. -/
def rawExp (f : JwtForeign) (raw : List UInt8) : Option Nat :=
  (((f.prims.jsonFromSlice raw).getD .null).get "exp").map fun exp => (asU64 exp).getD 0

theorem verifySecret_token (h : f.Lawful) {p : JwtAuth} (halg : p.algorithm ∈ secretAlgorithms)
    (raw : List UInt8) (now : Nat) :
    p.verifySecret f (Sign.token f ⟨p.secret, p.algorithm, []⟩ raw) now = .continue_ ↔
      ∀ m, rawExp f raw = some m → now ≤ m := by
  obtain ⟨signature, hsplit, hmac⟩ := splitChar_token h ⟨p.secret, p.algorithm, []⟩ raw
  have hpinned : ¬(p.algorithm ≠ "" ∧ alg ⟨p.secret, p.algorithm, []⟩ ≠ p.algorithm) := by
    simp only [secretAlgorithms, List.mem_cons, List.not_mem_nil, or_false] at halg
    rcases halg with halg | halg | halg <;> simp [alg, halg]
  have hstated : statedExp f (f.prims.b64Encode raw) = rawExp f raw := by
    simp [statedExp, partJson, rawExp, h.prims.b64_decode_encode]
  simp only [JwtAuth.verifySecret, hsplit, headerAlg_signHeader h, hmac, if_neg hpinned, hstated]
  cases rawExp f raw with
  | none => simp
  | some m =>
    by_cases hlt : m < now
    · simp [hlt]
    · simp [hlt, Nat.not_lt.mp hlt]

theorem token_ne_empty (h : f.Lawful) (s : Sign) (raw : List UInt8) : s.token f raw ≠ "" := by
  intro hempty
  obtain ⟨signature, hsplit, -⟩ := splitChar_token h s raw
  rw [hempty] at hsplit
  exact absurd (congrArg List.length hsplit) (by simp [splitChar])

theorem tryFrom_ok {conf : JwtConf} {p : JwtAuth} (hp : JwtAuth.tryFrom f conf = .ok p) :
    p.algorithm = conf.algorithm ∧
      buildAsymmetricKey f conf.algorithm conf.publicKey = .ok p.decodingKey ∧
      checkSecret conf (p.decodingKey.isNone && p.jwks.isNone) = .ok () := by
  unfold JwtAuth.tryFrom at hp
  simp only [bind, Except.bind, pure, Except.pure] at hp
  split at hp
  · cases hp
  split at hp
  · cases hp
  split at hp
  · cases hp
  next hkey =>
    split at hp
    · cases hp
    split at hp
    · cases hp
    next hsecret =>
      cases hp
      exact ⟨rfl, hkey, hsecret⟩

theorem asymmetric_of_build {algorithm publicKey : String} {key : String × String}
    (h : buildAsymmetricKey f algorithm publicKey = .ok (some key)) :
    key.1 ∈ asymmetricAlgorithms := by
  unfold buildAsymmetricKey at h
  split at h
  · cases h
  next hmem =>
    split at h
    · cases h
    split at h
    · cases h
    · cases h
      exact not_not.mp hmem

theorem algorithm_of_tryFrom {conf : JwtConf} {p : JwtAuth} (hp : JwtAuth.tryFrom f conf = .ok p)
    (hkey : p.decodingKey = none) (hjwks : p.jwks = none) : p.algorithm ∈ secretAlgorithms := by
  obtain ⟨halgorithm, -, hsecret⟩ := tryFrom_ok hp
  rw [hkey, hjwks] at hsecret
  by_contra halg
  simp [checkSecret, ← halgorithm, halg, jwtInvalid] at hsecret
  split at hsecret <;> cases hsecret

theorem verify_foreign (h : f.Lawful) {conf : JwtConf} {p : JwtAuth}
    (hp : JwtAuth.tryFrom f conf = .ok p) (hkey : p.decodingKey ≠ none ∨ p.jwks ≠ none) (s : Sign)
    (raw : List UInt8) (now : Nat) : p.verify f (s.token f raw) now ≠ .continue_ := by
  have hmem : headerAlg f (f.prims.b64Encode (utf8Encode (signHeader s.alg))) ∈
      ["HS256", "HS512"] := by
    rw [headerAlg_signHeader h]
    unfold alg
    split <;> decide
  have hno := Challenge.dot_not_mem_b64 h.prims (utf8Encode (signHeader s.alg))
  have hshape : ∃ rest, s.token f raw =
      f.prims.b64Encode (utf8Encode (signHeader s.alg)) ++ "." ++ rest :=
    ⟨f.prims.b64Encode raw ++ "." ++ (mac f s.alg s.secret (f.prims.b64Encode (utf8Encode
      (signHeader s.alg)) ++ "." ++ f.prims.b64Encode raw)).getD "",
      by simp [token, String.append_assoc]⟩
  obtain ⟨rest, hrest⟩ := hshape
  unfold JwtAuth.verify
  rw [if_neg (token_ne_empty h s raw), hrest]
  split
  · next hsome =>
    have hasym := asymmetric_of_build (hsome ▸ (tryFrom_ok hp).2.1)
    simp [h.decode_refuses _ hasym _ _ _ _ hmem hno]
  · simp [h.jwks_refuses _ _ _ _ hmem hno]
  · next hnone hnone' => exact absurd hkey (by simp [hnone, hnone'])

/-! ## The expiry of the answer -/

/-- The client reads the body as an object with this number as its `exp`. -/
def NamesExpiry (f : JwtForeign) (client : ContentDecoder) (headers : List HeaderLine)
    (raw : List UInt8) (exp : ℚ) : Prop :=
  ∃ body json text, client.decode (codings headers) raw = some body ∧
    f.prims.jsonFromSlice body = some json ∧ json.get "exp" = some (.number text) ∧
    decimalValue text = some exp

/-- The octets, as they came, state the second in which the time runs out. -/
def StatesSecond (f : JwtForeign) (raw : List UInt8) (exp : ℚ) : Prop :=
  ∃ e, ((f.prims.jsonFromSlice raw).getD .null).get "exp" = some e ∧
    (((asU64 e).getD 0 : Nat) : ℚ) ≤ exp ∧ exp < (((asU64 e).getD 0 : Nat) : ℚ) + 1

theorem forall_le_iff {m : Nat} {exp : ℚ} :
    (∀ now : Nat, now ≤ m ↔ (now : ℚ) ≤ exp) ↔ (m : ℚ) ≤ exp ∧ exp < m + 1 := by
  constructor
  · intro h
    refine ⟨(h m).mp le_rfl, ?_⟩
    have hnext := mt (h (m + 1)).mpr (by omega)
    push_cast at hnext
    exact lt_of_not_ge hnext
  · rintro ⟨hlo, hhi⟩ now
    constructor
    · intro hle
      exact le_trans (by exact_mod_cast hle) hlo
    · intro hle
      have hlt : (now : ℚ) < (m + 1 : Nat) := by
        push_cast
        exact lt_of_le_of_lt hle hhi
      exact Nat.lt_succ_iff.mp (by exact_mod_cast hlt)

theorem not_forall_le (exp : ℚ) : ¬∀ now : Nat, (now : ℚ) ≤ exp := by
  intro h
  obtain ⟨n, hn⟩ := exists_nat_gt exp
  exact absurd (h n) (not_le.mpr hn)

theorem accepted_while_iff {raw : List UInt8} {exp : ℚ} :
    (∀ now : Nat, (∀ m, rawExp f raw = some m → now ≤ m) ↔ (now : ℚ) ≤ exp) ↔
      StatesSecond f raw exp := by
  unfold rawExp StatesSecond
  cases ((f.prims.jsonFromSlice raw).getD .null).get "exp" with
  | none => simpa using not_forall_le exp
  | some _ => simpa using forall_le_iff

/-- The token that is minted from an answer is accepted exactly as long as the answer says, if and
only if the plugin verifies with its own secret and the octets of the body, before any coding is
undone, state that second; or the time is before all times, and nothing that is minted is accepted. -/
theorem minted_token_expires_iff (f : JwtForeign) (h : f.Lawful) (conf : JwtConf) (p : JwtAuth)
    (hp : JwtAuth.tryFrom f conf = .ok p) (status : Nat) (sign : Sign)
    (hsign : p.handleResponse p.authPath status = some sign) (client : ContentDecoder)
    (headers : List HeaderLine) (init : List (Option (List UInt8))) (last : Option (List UInt8))
    (exp : ℚ) (_ : NamesExpiry f client headers (octets (init ++ [last])) exp) (token : String)
    (htoken : (sign.emit f (init ++ [last])).flatten = utf8Encode (tokenBody token))
    (r : RequestHeader) (hpath : r.path ≠ p.authPath) (hr : p.tokenOf r = token) :
    (∀ now : Nat, p.handleRequest f .request r now = .continue_ ↔ (now : ℚ) ≤ exp) ↔
      (p.decodingKey = none ∧ p.jwks = none ∧ StatesSecond f (octets (init ++ [last])) exp) ∨
        ((p.decodingKey ≠ none ∨ p.jwks ≠ none) ∧ exp < 0) := by
  obtain rfl : sign = ⟨p.secret, p.algorithm, []⟩ := by
    unfold JwtAuth.handleResponse at hsign
    simp only [ne_eq, not_true_eq_false, if_false] at hsign
    split at hsign
    · exact (Option.some.inj hsign).symm
    · cases hsign
  rw [flatten_sign_emit _ (by simp), Sign.total, List.nil_append] at htoken
  have heq := tokenBody_injective (utf8Encode_injective htoken)
  have hrequest (now : Nat) : p.handleRequest f .request r now = p.verify f token now := by
    simp [JwtAuth.handleRequest, hpath, hr]
  simp only [hrequest, ← heq]
  by_cases hkey : p.decodingKey ≠ none ∨ p.jwks ≠ none
  · -- nothing is accepted, so no second may be allowed
    have hnone : ¬(p.decodingKey = none ∧ p.jwks = none ∧
        StatesSecond f (octets (init ++ [last])) exp) := by tauto
    simp only [verify_foreign h hp hkey, false_iff, hnone, false_or, hkey, true_and, not_le]
    constructor
    · intro hall
      exact_mod_cast hall 0
    · intro hneg now
      exact lt_of_lt_of_le hneg (Nat.cast_nonneg now)
  · obtain ⟨hdec, hjwks⟩ : p.decodingKey = none ∧ p.jwks = none := by tauto
    have halg := algorithm_of_tryFrom hp hdec hjwks
    have hverify (now : Nat) : p.verify f (Sign.token f ⟨p.secret, p.algorithm, []⟩
        (octets (init ++ [last]))) now = .continue_ ↔
          ∀ m, rawExp f (octets (init ++ [last])) = some m → now ≤ m := by
      unfold JwtAuth.verify
      rw [if_neg (token_ne_empty h _ _), hdec, hjwks]
      exact verifySecret_token h halg _ now
    simp only [hverify, accepted_while_iff, hdec, hjwks, true_and, ne_eq, not_true_eq_false,
      or_self, false_and, or_false]

/-! ## A coded answer -/

def plainAnswer : List UInt8 := utf8Encode "\x7b\"exp\":100\x7d"

/-- A parser that knows the answer and the two headers of the plugin. -/
def plainJwt : JwtForeign where
  prims := { Challenge.Primitives.plain with
    hmacSha256 := fun key _ => key
    jsonFromSlice := fun bs =>
      if bs = plainAnswer then some (.object [("exp", .number "100")])
      else (["HS256", "HS512"].find? fun alg => bs = utf8Encode (signHeader alg)).map fun alg =>
        .object [("alg", .string alg), ("typ", .string "JWT")] }
  hmacSha512 key _ := key
  durationError _ := none
  pemError _ _ := none
  jwksError _ := none
  decodeOk _ _ _ _ := false
  jwksVerify _ _ _ := false

theorem plainJwt_lawful : plainJwt.Lawful where
  prims := ⟨Challenge.Primitives.plain_lawful.b64_decode_encode,
    Challenge.Primitives.plain_lawful.b64_alphabet,
    Challenge.Primitives.plain_lawful.b64_decode_alphabet,
    Challenge.Primitives.plain_lawful.json_round_trip⟩
  own_header alg halg := by
    have hother : utf8Encode (signHeader alg) ≠ plainAnswer := by
      revert alg
      decide +kernel
    have hfind : (["HS256", "HS512"].find? fun a =>
        utf8Encode (signHeader alg) = utf8Encode (signHeader a)) = some alg := by
      revert alg
      decide +kernel
    simp only [plainJwt, if_neg hother, hfind, Option.map_some]
  decode_refuses _ _ _ _ _ _ _ _ := rfl
  jwks_refuses _ _ _ _ _ _ := rfl

theorem json_plainAnswer :
    plainJwt.prims.jsonFromSlice plainAnswer = some (.object [("exp", .number "100")]) := by
  simp [plainJwt]

def loginConf : JwtConf := ⟨"authorization", "", "", "", "HS256", "", "", "k", "/login"⟩

def loginJwt : JwtAuth := ⟨"/login", "k", some "authorization", none, none, "HS256", none, none⟩

def unpacksAnswer : ContentDecoder where
  decode names body :=
    if names = [] then some body else if body = [31, 139] then some plainAnswer else none
  plain _ := rfl

def carriesToken (raw : List UInt8) : RequestHeader where
  method := "GET"
  uriHost := none
  path := "/"
  query := none
  headers := [⟨"authorization", utf8Encode (Sign.token plainJwt ⟨"k", "HS256", []⟩ raw)⟩]

theorem plain_answer_expires :
    JwtAuth.tryFrom plainJwt loginConf = .ok loginJwt ∧
      ∀ now : Nat, loginJwt.handleRequest plainJwt .request (carriesToken plainAnswer) now =
        .continue_ ↔ (now : ℚ) ≤ 100 := by
  have hvalue : decimalValue "100" = some 100 := by decide +kernel
  have hemit : (Sign.emit plainJwt ⟨"k", "HS256", []⟩ [some plainAnswer]).flatten =
      utf8Encode (tokenBody (Sign.token plainJwt ⟨"k", "HS256", []⟩ plainAnswer)) := by
    rw [flatten_sign_emit _ (by simp), Sign.total]
    simp
  have hconf : JwtAuth.tryFrom plainJwt loginConf = .ok loginJwt := by decide +kernel
  refine ⟨hconf, (minted_token_expires_iff plainJwt plainJwt_lawful loginConf loginJwt hconf
    200 ⟨"k", "HS256", []⟩ (by decide +kernel) unpacksAnswer [] [] (some plainAnswer) 100
    ⟨plainAnswer, _, "100", rfl, json_plainAnswer, rfl, hvalue⟩ _ hemit (carriesToken plainAnswer)
    (by decide +kernel) (by decide +kernel)).mpr (.inl ⟨rfl, rfl, .number "100", ?_, ?_⟩)⟩
  · simp [json_plainAnswer, Json.get]
  · have hu64 : (asU64 (.number "100")).getD 0 = 100 := by decide +kernel
    rw [hu64]
    norm_num

/-- The answer is sent with `Content-Encoding: gzip`: the token is accepted at every time. -/
theorem coded_answer_never_expires :
    JwtAuth.tryFrom plainJwt loginConf = .ok loginJwt ∧
      loginJwt.handleResponse "/login" 200 = some ⟨"k", "HS256", []⟩ ∧
      NamesExpiry plainJwt unpacksAnswer [⟨"content-encoding", utf8Encode "gzip"⟩] [31, 139] 100 ∧
      (Sign.emit plainJwt ⟨"k", "HS256", []⟩ [some [31], some [139]]).flatten =
        utf8Encode (tokenBody (loginJwt.tokenOf (carriesToken [31, 139]))) ∧
      ∀ now, loginJwt.handleRequest plainJwt .request (carriesToken [31, 139]) now = .continue_ := by
  have htoken : loginJwt.tokenOf (carriesToken [31, 139]) =
      Sign.token plainJwt ⟨"k", "HS256", []⟩ [31, 139] := by decide +kernel
  have hemit : (Sign.emit plainJwt ⟨"k", "HS256", []⟩ [some [31], some [139]]).flatten =
      utf8Encode (tokenBody (Sign.token plainJwt ⟨"k", "HS256", []⟩ [31, 139])) := by
    rw [flatten_sign_emit _ (by simp), Sign.total]
    simp
  have hstates : rawExp plainJwt [31, 139] = none := by decide +kernel
  refine ⟨by decide +kernel, by decide +kernel, ⟨plainAnswer, _, "100", by decide +kernel,
    json_plainAnswer, rfl, by decide +kernel⟩, by rw [htoken, hemit], fun now => ?_⟩
  have hverify : loginJwt.handleRequest plainJwt .request (carriesToken [31, 139]) now =
      loginJwt.verifySecret plainJwt (Sign.token plainJwt ⟨"k", "HS256", []⟩ [31, 139]) now := by
    rw [JwtAuth.handleRequest, if_neg (by decide), if_neg (by decide +kernel), htoken,
      JwtAuth.verify, if_neg (token_ne_empty plainJwt_lawful _ _)]
    rfl
  rw [hverify]
  refine (verifySecret_token plainJwt_lawful (p := loginJwt) (by decide) [31, 139] now).mpr ?_
  intro m hm
  rw [hstates] at hm
  cases hm

end PingWaf.Auth
