import PingWaf.Waf.External

/-!
# Rule expressions

The syntax tree of a rule's condition and its evaluation against a request context. A missing
field satisfies the negated operators only.
-/

namespace PingWaf.Waf

open Text Net

inductive FieldKind where
  | requestPath
  | requestUriFull
  | requestQuery
  | requestMethod
  | requestHeader
  | requestCookie
  | requestBody
  | host
  | ipSrc
  | ipSrcCountry
  | wafScore
  | wafScoreSqli
  | wafScoreXss
  | wafScoreRce
  | ssl
  | userAgent
  | unknown (path : String)
  deriving DecidableEq

structure Field where
  kind : FieldKind
  index : Option String
  deriving DecidableEq

inductive Operator where
  | eq | ne | contains | notContains | matches_ | notMatches | in_ | notIn
  | startsWith | endsWith | lt | gt | le | ge
  deriving DecidableEq

def Operator.isNegated : Operator → Bool
  | .ne | .notContains | .notMatches | .notIn => true
  | _ => false

inductive Value where
  | str (s : String)
  | num (n : Int)
  | bool (b : Bool)
  | set (items : List String)
  | cidrSet (nets : List IpNet)
  | regex (pattern : String)
  deriving DecidableEq

inductive Expression where
  | field (field : Field) (operator : Operator) (value : Value)
  | and (a b : Expression)
  | or (a b : Expression)
  | not (inner : Expression)
  deriving DecidableEq

structure EvalContext where
  method : String
  path : String
  fullUri : String
  host : String
  userAgent : String
  body : Option String
  headers : List (String × String)
  cookies : List (String × String)
  parsedIp : Option IpAddr
  countryCode : Option String
  ssl : Bool
  wafScore : Nat
  wafScoreSqli : Nat
  wafScoreXss : Nat
  wafScoreRce : Nat

/-- Header lookup: the name is lower-cased, the stored names are taken as they are. -/
def EvalContext.header (ctx : EvalContext) (name : String) : Option String :=
  (ctx.headers.find? fun h => h.1 = toAsciiLowercase name).map (·.2)

def EvalContext.cookie (ctx : EvalContext) (name : String) : Option String :=
  (ctx.cookies.find? fun h => eqIgnoreAsciiCase h.1 name).map (·.2)

inductive FieldValue where
  | str (s : String)
  | num (n : Int)
  | bool (b : Bool)
  | ip (ip : Option IpAddr)
  | missing
  deriving DecidableEq

def FieldValue.ofOption : Option String → FieldValue
  | some s => .str s
  | none => .missing

def resolveField (field : Field) (ctx : EvalContext) : FieldValue :=
  match field.kind with
  | .requestPath => .str ctx.path
  | .requestUriFull => .str ctx.fullUri
  | .requestQuery => .ofOption ((splitOnce '?' ctx.fullUri).map (·.2))
  | .requestMethod => .str ctx.method
  | .requestBody => .ofOption ctx.body
  | .host => .str ctx.host
  | .userAgent => .str ctx.userAgent
  | .ipSrc => .ip ctx.parsedIp
  | .ipSrcCountry => .ofOption ctx.countryCode
  | .ssl => .bool ctx.ssl
  | .wafScore => .num ctx.wafScore
  | .wafScoreSqli => .num ctx.wafScoreSqli
  | .wafScoreXss => .num ctx.wafScoreXss
  | .wafScoreRce => .num ctx.wafScoreRce
  | .requestHeader => .ofOption (field.index.bind ctx.header)
  | .requestCookie => .ofOption (field.index.bind ctx.cookie)
  | .unknown _ => .missing

def negateIf (op : Operator) (positive : Bool) : Bool :=
  match op with
  | .eq | .in_ | .contains | .matches_ | .startsWith | .endsWith | .lt | .le | .gt | .ge => positive
  | .ne | .notIn | .notContains | .notMatches => !positive

section

variable (c : Crates)

def ipLiteralMatches (ip : IpAddr) (s : String) : Bool :=
  match IpAddr.fromStr s with
  | some a => a == ip
  | none => ((c.ipNetFromStr s).map (·.contains ip)).getD false

def applyIp (ip : IpAddr) (op : Operator) (value : Value) : Bool :=
  negateIf op <| match value with
    | .cidrSet nets => nets.any (·.contains ip)
    | .str s => ipLiteralMatches c ip s
    | .set items => items.any (ipLiteralMatches c ip)
    | _ => false

def applyBool (b : Bool) (op : Operator) (value : Value) : Bool :=
  negateIf op <| b == match value with
    | .bool e => e
    | .str s => eqIgnoreAsciiCase s "true"
    | .num n => n != 0
    | _ => false

def compareNum (n m : Int) (op : Operator) : Bool :=
  negateIf op <| match op with
    | .eq | .ne => n == m
    | .lt => n < m
    | .le => n ≤ m
    | .gt => n > m
    | .ge => n ≥ m
    | .in_ | .notIn => n == m
    | _ => false

def applyNum (n : Int) (op : Operator) (value : Value) : Bool :=
  match value with
  | .num m => compareNum n m op
  | .str s =>
    match parseI64 s with
    | some m => compareNum n m op
    | none => op.isNegated
  | .set items => negateIf op (items.contains (toString n))
  | _ => op.isNegated

def parseBool (s : String) : Option Bool :=
  if s = "true" then some true else if s = "false" then some false else none

def applyStr (raw : String) (op : Operator) (value : Value) : Bool :=
  match op, value with
  | .eq, .str v => raw == v
  | .ne, .str v => raw != v
  | .contains, .str v => hasSub raw v
  | .notContains, .str v => !hasSub raw v
  | .startsWith, .str v => hasPrefix raw v
  | .endsWith, .str v => hasSuffix raw v
  | .matches_, .regex p => c.regexIsMatch p raw
  | .notMatches, .regex p => !c.regexIsMatch p raw
  | .in_, .set items => items.any (· == raw)
  | .notIn, .set items => !items.any (· == raw)
  | .in_, .str v => raw == v
  | .notIn, .str v => raw != v
  | .lt, .str v => raw.toList < v.toList
  | .le, .str v => raw.toList ≤ v.toList
  | .gt, .str v => v.toList < raw.toList
  | .ge, .str v => v.toList ≤ raw.toList
  | .eq, .num n => ((parseI64 raw).map (· == n)).getD false
  | .ne, .num n => ((parseI64 raw).map (· != n)).getD true
  | .lt, .num n => ((parseI64 raw).map fun m => decide (m < n)).getD false
  | .le, .num n => ((parseI64 raw).map fun m => decide (m ≤ n)).getD false
  | .gt, .num n => ((parseI64 raw).map fun m => decide (n < m)).getD false
  | .ge, .num n => ((parseI64 raw).map fun m => decide (n ≤ m)).getD false
  | .eq, .bool b => ((parseBool raw).map (· == b)).getD false
  | _, _ => false

def applyOperator (fv : FieldValue) (op : Operator) (value : Value) : Bool :=
  match fv with
  | .missing => op.isNegated
  | .ip (some ip) => applyIp c ip op value
  | .ip none => op.isNegated
  | .bool b => applyBool b op value
  | .num n => applyNum n op value
  | .str raw => applyStr c raw op value

def evaluate (ctx : EvalContext) : Expression → Bool
  | .and a b => evaluate ctx a && evaluate ctx b
  | .or a b => evaluate ctx a || evaluate ctx b
  | .not inner => !evaluate ctx inner
  | .field field operator value => applyOperator c (resolveField field ctx) operator value

end

end PingWaf.Waf
