import PingWaf.Auth.Oidc

/-!
# What a session keeps, and what access rules mean

The callback holds the claims of the ID token and seals some of them into the session; the access
rules are held against the session later. Beside the code stands the meaning that the operators are
documented and tested with.
-/

namespace PingWaf.Auth

open Text
open Plugin (getCookieValue)

/-- Claims by name, as `serde_json::Map` holds them. -/
abbrev ClaimMap : Type := List (String × Waf.Json)

/-! ## What the callback keeps -/

def AccessPolicy.claims : AccessPolicy → List String
  | .allowAll => []
  | .requireAny rules | .requireAll rules =>
    rules.foldl (fun names rule => if names.contains rule.claim then names else names ++ [rule.claim]) []

/-- `Map::insert`. -/
def putClaim (claims : ClaimMap) (name : String) (value : Waf.Json) : ClaimMap :=
  claims.filter (fun c => c.1 ≠ name) ++ [(name, value)]

def Oidc.keptNames (o : Oidc) : List String :=
  "sub" :: o.claimsToHeaders.map (·.1) ++ o.access.claims

def keep (claims : ClaimMap) (kept : ClaimMap) (name : String) : ClaimMap :=
  match claimOf claims name with
  | some value => putClaim kept name value
  | none => kept

def Oidc.callbackSession (o : Oidc) (claims : ClaimMap) (exp : Nat) : SessionData :=
  ⟨exp, o.keptNames.foldl (keep claims) []⟩

/-- What sealing promises: a cookie that was sealed under the key is read back with the same end and
the same claims. -/
def ReadsBack (f : Foreign) (key : List UInt8) (cookie : String) (data : SessionData) : Prop :=
  ∃ back, (unsealAes f key cookie).bind f.sessionFromJson = some back ∧ back.exp = data.exp ∧
    ∀ name, claimOf back.claims name = claimOf data.claims name

/-! ## What the operators mean -/

/-- The claim is present and not empty. -/
def filled : Option Waf.Json → Bool
  | some (.array items) => !items.isEmpty
  | some (.object members) => !members.isEmpty
  | some (.string s) => s ≠ ""
  | some .null => false
  | some _ => true
  | none => false

/-- What the operators are documented and tested to mean: `contains` holds of a claim that has the
value within one of its scalars. -/
def AccessRule.documented (rule : AccessRule) (claims : ClaimMap) : Bool :=
  let claim := claimOf claims rule.claim
  match rule.operator with
  | .eq => (claimScalars claim).any (· = rule.value)
  | .ne => !(claimScalars claim).any (· = rule.value)
  | .in_ => (claimScalars claim).any fun item => (listedEntries rule.value).contains item
  | .exists_ => filled claim
  | .contains => (claimScalars claim).any fun item => hasSub item rule.value

def AccessPolicy.documented (policy : AccessPolicy) (claims : ClaimMap) : Bool :=
  match policy with
  | .allowAll => true
  | .requireAny rules => rules.any (·.documented claims)
  | .requireAll rules => rules.all (·.documented claims)

def AccessPolicy.rules : AccessPolicy → List AccessRule
  | .allowAll => []
  | .requireAny rules | .requireAll rules => rules

/-- No `exists` of the policy reads an object without members. -/
def AccessPolicy.ReadsNoEmptyObject (policy : AccessPolicy) (claims : ClaimMap) : Prop :=
  ∀ rule ∈ policy.rules, rule.operator = .exists_ →
    claimOf claims rule.claim ≠ some (.object [])

end PingWaf.Auth
