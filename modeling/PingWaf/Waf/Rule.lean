import PingWaf.Waf.Score
import PingWaf.Waf.Expression

/-!
# Detection profile and rules

The backend-stack and attack-category sets of a detection profile, the compiled rules, and the
verdict the engine returns.
-/

namespace PingWaf.Waf

open Text

/-! ## Sets of the detection profile -/

structure StackSet where
  bits : UInt8
  deriving DecidableEq

namespace StackSet

def generic : StackSet := ⟨1⟩
def java : StackSet := ⟨2⟩
def php : StackSet := ⟨4⟩
def python : StackSet := ⟨8⟩
def node : StackSet := ⟨16⟩
def all : StackSet := ⟨31⟩
def empty : StackSet := ⟨0⟩

/-- Every stack of `other` is enabled here. -/
def contains (s other : StackSet) : Bool := s.bits &&& other.bits == other.bits

def isEmpty (s : StackSet) : Bool := s.bits == 0

def intersects (s other : StackSet) : Bool := s.bits &&& other.bits != 0

def exceptGeneric (s : StackSet) : StackSet := ⟨s.bits &&& ~~~generic.bits⟩

end StackSet

structure CategorySet where
  bits : UInt16

def CategorySet.empty : CategorySet := ⟨0⟩

def AttackCategory.bit : AttackCategory → UInt16
  | .sqlInjection => 1
  | .xss => 2
  | .commandInjection => 4
  | .pathTraversal => 8
  | .ssrf => 16
  | .deserialization => 32
  | .crlfInjection => 64
  | .xxe => 128
  | .templateInjection => 256

def CategorySet.containsCategory (s : CategorySet) (category : AttackCategory) : Bool :=
  s.bits &&& category.bit != 0

inductive WafLevel where
  | normal
  | strict

def WafLevel.isStrict : WafLevel → Bool
  | .normal => false
  | .strict => true

inductive WafMode where
  | off
  | monitor
  | block
  deriving DecidableEq

/-! ## Rules -/

inductive RuleAction where
  | block
  | log
  | challenge
  | jsChallenge
  | allow
  deriving DecidableEq

def RuleAction.asStr : RuleAction → String
  | .block => "block"
  | .log => "log"
  | .challenge => "challenge"
  | .jsChallenge => "js_challenge"
  | .allow => "allow"

structure CompiledRule where
  id : String
  name : String
  expression : Expression
  action : RuleAction
  severity : Nat
  tags : List String
  enabled : Bool
  paranoiaLevel : Nat
  stackSet : StackSet

def CompiledRule.isManaged (r : CompiledRule) : Bool := hasPrefix r.id "PINGWAF-"

def familyTags : List (String × AttackCategory) :=
  [("sqli", .sqlInjection), ("xss", .xss), ("rce", .commandInjection)]

def managedRuleCategory (r : CompiledRule) : Option AttackCategory :=
  (familyTags.find? fun t => r.tags.contains t.1).map (·.2)

/-! ## Verdicts -/

inductive WafAction where
  | pass
  | monitor
  | block
  | challenge
  deriving DecidableEq

def WafAction.isEnforcing : WafAction → Bool
  | .block | .challenge => true
  | .pass | .monitor => false

def WafAction.rank : WafAction → Nat
  | .pass => 0
  | .monitor => 1
  | .challenge => 2
  | .block => 3

structure WafVerdict where
  action : WafAction
  score : Nat
  matchedRules : List String
  enforcedRuleId : Option String
  details : String
  breakdown : ScoreBreakdown

def WafVerdict.pass : WafVerdict :=
  { action := .pass, score := 0, matchedRules := [], enforcedRuleId := none, details := ""
    breakdown := .clean }

end PingWaf.Waf
