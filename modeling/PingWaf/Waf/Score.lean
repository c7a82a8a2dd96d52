import PingWaf.Lib.Saturating

/-!
# Anomaly scoring

The scorer of the inspection engine: every fired signature or rule adds the points of its severity
to a running total, and the hits that are not downgraded to monitor-only also add to the blocking
subset that is compared with the threshold. Sub-scores are kept per attack family.

`u32` totals and `u8` sub-scores are naturals with saturating addition.
-/

namespace PingWaf.Waf

/-- Largest `u32`. -/
def u32Max : Nat := 4294967295

/-- Largest `u8`. -/
def u8Max : Nat := 255

inductive AttackCategory where
  | sqlInjection
  | xss
  | commandInjection
  | pathTraversal
  | ssrf
  | deserialization
  | crlfInjection
  | xxe
  | templateInjection
  deriving DecidableEq

def AttackCategory.asStr : AttackCategory → String
  | .sqlInjection => "sqli"
  | .xss => "xss"
  | .commandInjection => "rce"
  | .pathTraversal => "lfi"
  | .ssrf => "ssrf"
  | .deserialization => "deser"
  | .crlfInjection => "crlf"
  | .xxe => "xxe"
  | .templateInjection => "ssti"

inductive ScoreClass where
  | clean
  | likelyClean
  | likelyAttack
  | attack

/-- Per-request score breakdown; the `block` fields leave out monitor-only hits. -/
structure ScoreBreakdown where
  total : Nat
  sqliScore : Nat
  xssScore : Nat
  rceScore : Nat
  overallClass : ScoreClass
  blockTotal : Nat
  blockSqliScore : Nat
  blockXssScore : Nat
  blockRceScore : Nat

def ScoreBreakdown.clean : ScoreBreakdown :=
  { total := 0, sqliScore := 0, xssScore := 0, rceScore := 0, overallClass := .clean
    blockTotal := 0, blockSqliScore := 0, blockXssScore := 0, blockRceScore := 0 }

/-- Saturating `u8` view of the aggregate score. -/
def ScoreBreakdown.totalU8 (b : ScoreBreakdown) : Nat := min b.total u8Max

/-- The scorer: a block threshold (a positive `u32`) and a paranoia level between 1 and 4. -/
structure AnomalyScorer where
  threshold : Nat
  paranoiaLevel : Nat
  threshold_pos : 1 ≤ threshold
  threshold_le : threshold ≤ u32Max
  paranoia_pos : 1 ≤ paranoiaLevel
  paranoia_le : paranoiaLevel ≤ 4

namespace AnomalyScorer

/-- The constructor clamps what it is given; the arguments are a `u32` and a `u8`. -/
def new (threshold : UInt32) (paranoiaLevel : UInt8) : AnomalyScorer where
  threshold := max threshold.toNat 1
  paranoiaLevel := min (max paranoiaLevel.toNat 1) 4
  threshold_pos := Nat.le_max_right _ _
  threshold_le := Nat.max_le.mpr ⟨Nat.le_of_lt_succ threshold.toNat_lt, by decide⟩
  paranoia_pos := Nat.le_min.mpr ⟨Nat.le_max_right _ _, by decide⟩
  paranoia_le := Nat.min_le_right _ _

def pointsForSeverity (severity : Nat) : Nat :=
  match min (max severity 1) 5 with
  | 5 => 5
  | 4 => 4
  | 3 => 3
  | 2 => 2
  | _ => 1

theorem pointsForSeverity_pos (severity : Nat) : 0 < pointsForSeverity severity := by
  unfold pointsForSeverity
  split <;> decide

/-- Map a score onto a class. The doubling is a `u32` multiplication, which wraps in release. -/
def classify (s : AnomalyScorer) (total : Nat) : ScoreClass :=
  if total = 0 then .clean
  else if s.threshold ≤ total then .attack
  else if s.threshold ≤ total * 2 % 2 ^ 32 then .likelyAttack
  else .likelyClean

def shouldBlock (s : AnomalyScorer) (total : Nat) : Bool := s.threshold ≤ total

/-- `a + b` as a saturating `u32`, `u8`. -/
def add32 (a b : Nat) : Nat := satAdd u32Max a b
def add8 (a b : Nat) : Nat := satAdd u8Max a b

def addSeverityHitEx (s : AnomalyScorer) (b : ScoreBreakdown) (severity : Nat)
    (monitored : Bool) : ScoreBreakdown :=
  let points := pointsForSeverity severity
  let blockTotal := if monitored then b.blockTotal else add32 b.blockTotal points
  { b with
    total := add32 b.total points
    blockTotal := blockTotal
    overallClass := s.classify blockTotal }

def addSeverityHit (s : AnomalyScorer) (b : ScoreBreakdown) (severity : Nat) : ScoreBreakdown :=
  s.addSeverityHitEx b severity false

/-- The sub-scores a category feeds: SQLi, XSS, RCE (command injection and deserialization). -/
def bumpFamily (b : ScoreBreakdown) (category : AttackCategory) (bump : Nat) (monitored : Bool) :
    ScoreBreakdown :=
  match category with
  | .sqlInjection =>
    { b with
      sqliScore := add8 b.sqliScore bump
      blockSqliScore := if monitored then b.blockSqliScore else add8 b.blockSqliScore bump }
  | .xss =>
    { b with
      xssScore := add8 b.xssScore bump
      blockXssScore := if monitored then b.blockXssScore else add8 b.blockXssScore bump }
  | .commandInjection | .deserialization =>
    { b with
      rceScore := add8 b.rceScore bump
      blockRceScore := if monitored then b.blockRceScore else add8 b.blockRceScore bump }
  | .templateInjection | .pathTraversal | .ssrf | .crlfInjection | .xxe => b

def addCategoryHitEx (s : AnomalyScorer) (b : ScoreBreakdown) (category : AttackCategory)
    (severity : Nat) (monitored : Bool) : ScoreBreakdown :=
  let points := pointsForSeverity severity
  let blockTotal := if monitored then b.blockTotal else add32 b.blockTotal points
  let bump := min (points * 12) u8Max
  let b := bumpFamily { b with total := add32 b.total points, blockTotal := blockTotal }
    category bump monitored
  { b with overallClass := s.classify blockTotal }

/-- A structural expression-injection hit: four points, and 48 of the RCE sub-score. -/
def addExprHitEx (s : AnomalyScorer) (b : ScoreBreakdown) (monitored : Bool) : ScoreBreakdown :=
  let blockTotal := if monitored then b.blockTotal else add32 b.blockTotal 4
  { b with
    total := add32 b.total 4
    rceScore := add8 b.rceScore 48
    blockTotal := blockTotal
    blockRceScore := if monitored then b.blockRceScore else add8 b.blockRceScore 48
    overallClass := s.classify blockTotal }

/-! ## What a hit adds to the two totals -/

section

variable (s : AnomalyScorer) (b : ScoreBreakdown) (severity : Nat)

@[simp] theorem addSeverityHitEx_total (m : Bool) :
    (s.addSeverityHitEx b severity m).total = add32 b.total (pointsForSeverity severity) := rfl

@[simp] theorem addSeverityHitEx_blockTotal_monitored :
    (s.addSeverityHitEx b severity true).blockTotal = b.blockTotal := rfl

@[simp] theorem addSeverityHitEx_blockTotal_enforced :
    (s.addSeverityHitEx b severity false).blockTotal =
      add32 b.blockTotal (pointsForSeverity severity) := rfl

end

theorem add32_pos {a b : Nat} (h : 0 < b) : 0 < add32 a b := by
  unfold add32 satAdd u32Max
  omega

/-! ## The blocking subset is a subset -/

/-- The blocking total is part of the total, which is a `u32`. -/
structure Sane (b : ScoreBreakdown) : Prop where
  block_le : b.blockTotal ≤ b.total
  total_le : b.total ≤ u32Max

theorem Sane.blockTotal_le {b : ScoreBreakdown} (h : Sane b) : b.blockTotal ≤ u32Max :=
  h.block_le.trans h.total_le

theorem sane_clean : Sane .clean := ⟨Nat.le_refl 0, Nat.zero_le _⟩

theorem sane_of_points {b b' : ScoreBreakdown} {points : Nat} {monitored : Bool} (h : Sane b)
    (ht : b'.total = add32 b.total points)
    (hb : b'.blockTotal = if monitored then b.blockTotal else add32 b.blockTotal points) :
    Sane b' := by
  have hle := h.block_le
  have htop := h.total_le
  refine ⟨?_, ht ▸ satAdd.le_top _ _ _⟩
  rw [ht, hb]
  unfold add32 satAdd
  split <;> omega

theorem bumpFamily_totals (b : ScoreBreakdown) (category : AttackCategory) (bump : Nat) (m : Bool) :
    (bumpFamily b category bump m).total = b.total ∧
      (bumpFamily b category bump m).blockTotal = b.blockTotal := by
  cases category <;> exact ⟨rfl, rfl⟩

theorem addCategoryHitEx_pos (s : AnomalyScorer) (b : ScoreBreakdown) (category : AttackCategory)
    (severity : Nat) (m : Bool) : 0 < (s.addCategoryHitEx b category severity m).total := by
  have htotal : (s.addCategoryHitEx b category severity m).total =
      add32 b.total (pointsForSeverity severity) := (bumpFamily_totals ..).1
  rw [htotal]
  exact add32_pos (pointsForSeverity_pos severity)

section

variable (s : AnomalyScorer) {b : ScoreBreakdown} (h : Sane b)
include h

theorem addSeverityHitEx_sane (severity : Nat) (m : Bool) : Sane (s.addSeverityHitEx b severity m) :=
  sane_of_points h rfl rfl

theorem addCategoryHitEx_sane (category : AttackCategory) (severity : Nat) (m : Bool) :
    Sane (s.addCategoryHitEx b category severity m) :=
  sane_of_points h (bumpFamily_totals _ _ _ _).1 (bumpFamily_totals _ _ _ _).2

theorem addExprHitEx_sane (m : Bool) : Sane (s.addExprHitEx b m) := sane_of_points h rfl rfl

end

end AnomalyScorer

end PingWaf.Waf
