import PingWaf.Waf.Parse

/-!
# Negated operators

A negated operator gets the literal that its positive counterpart gets (`parseValue_negation`), and
its value is the opposite one wherever the evaluation goes through `negate_if` or a pair of arms.
The table of the text fields has arms for some pairs only; for the others both operators are false.
-/

namespace PingWaf.Waf

open Text

variable {c : Crates} {compiles : String → Bool} {op neg : Operator}

/-- The operator that negates this one. -/
def Operator.negation : Operator → Option Operator
  | .eq => some .ne
  | .contains => some .notContains
  | .in_ => some .notIn
  | .matches_ => some .notMatches
  | _ => none

section

variable (h : op.negation = some neg)

include h

/-! ## One literal for both -/

theorem takesPattern_negation : neg.takesPattern = op.takesPattern := by
  cases op <;> cases h <;> rfl

theorem takesCidr_negation : neg.takesCidr = op.takesCidr := by
  cases op <;> cases h <;> rfl

theorem finishScalar_negation (kind : FieldKind)
    (v : Value) : finishScalar c compiles kind neg v = finishScalar c compiles kind op v := by
  unfold finishScalar
  rw [takesPattern_negation h, takesCidr_negation h]

theorem finishSet_negation (kind : FieldKind)
    (items : List SetItem) : finishSet c kind neg items = finishSet c kind op items := by
  unfold finishSet
  rw [takesCidr_negation h]

theorem parseValue_negation (kind : FieldKind) (toks : List Token) :
    parseValue c compiles kind neg toks = parseValue c compiles kind op toks := by
  unfold parseValue
  simp only [finishScalar_negation h, finishSet_negation h]

/-! ## Opposite values -/

theorem negateIf_negation (b : Bool) : negateIf neg b = !negateIf op b := by
  cases op <;> cases h <;> rfl

theorem isNegated_negation : neg.isNegated = !op.isNegated := by
  cases op <;> cases h <;> rfl

theorem applyIp_negation (ip : Net.IpAddr) (v : Value) : applyIp c ip neg v = !applyIp c ip op v :=
  negateIf_negation h _

theorem applyBool_negation (b : Bool) (v : Value) : applyBool b neg v = !applyBool b op v :=
  negateIf_negation h _

theorem compareNum_negation (n m : Int) : compareNum n m neg = !compareNum n m op := by
  cases op <;> cases h <;> rfl

theorem applyNum_negation (n : Int) (v : Value) : applyNum n neg v = !applyNum n op v := by
  unfold applyNum
  cases v with
  | num m => exact compareNum_negation h n m
  | str s =>
    dsimp only
    cases parseI64 s with
    | some m => exact compareNum_negation h n m
    | none => exact isNegated_negation h
  | set _ => exact negateIf_negation h _
  | bool _ | cidrSet _ | regex _ => exact isNegated_negation h

end

/-! ## The table of the text fields -/

/-- The pairs of operator and literal that the table has arms for. A boolean has an arm for equality
alone: its negation is right only where equality holds. -/
def tabulated (raw : String) : Operator → Value → Bool
  | .eq, .str _ | .eq, .num _ => true
  | .eq, .bool b => parseBool raw == some b
  | .contains, .str _ => true
  | .in_, .set _ | .in_, .str _ => true
  | .matches_, .regex _ => true
  | _, _ => false

theorem applyStr_eq_negation_iff (raw : String) (v : Value) :
    applyStr c raw .ne v = !applyStr c raw .eq v ↔ tabulated raw .eq v = true := by
  cases v with
  | str _ => exact iff_of_true rfl rfl
  | num n =>
    refine iff_of_true ?_ rfl
    show ((parseI64 raw).map (· != n)).getD true = !((parseI64 raw).map (· == n)).getD false
    cases parseI64 raw <;> rfl
  | bool b =>
    show (false = !((parseBool raw).map (· == b)).getD false) ↔ (parseBool raw == some b) = true
    cases parseBool raw with
    | none => simp
    | some b' => cases b <;> cases b' <;> decide
  | set _ | cidrSet _ | regex _ => exact iff_of_false Bool.false_ne_true Bool.false_ne_true

theorem applyStr_negation_iff (h : op.negation = some neg) (raw : String) (v : Value) :
    applyStr c raw neg v = !applyStr c raw op v ↔ tabulated raw op v = true := by
  cases op with
  | eq => cases h; exact applyStr_eq_negation_iff raw v
  | contains =>
    cases h
    cases v with
    | str _ => exact iff_of_true rfl rfl
    | num _ | bool _ | set _ | cidrSet _ | regex _ =>
      exact iff_of_false Bool.false_ne_true Bool.false_ne_true
  | in_ =>
    cases h
    cases v with
    | str _ | set _ => exact iff_of_true rfl rfl
    | num _ | bool _ | cidrSet _ | regex _ =>
      exact iff_of_false Bool.false_ne_true Bool.false_ne_true
  | matches_ =>
    cases h
    cases v with
    | regex _ => exact iff_of_true rfl rfl
    | str _ | num _ | bool _ | set _ | cidrSet _ =>
      exact iff_of_false Bool.false_ne_true Bool.false_ne_true
  | _ => cases h

/-- The field is no text, or the table has an arm for the pair. -/
def Complemented (fv : FieldValue) (op : Operator) (v : Value) : Prop :=
  match fv with
  | .str raw => tabulated raw op v = true
  | _ => True

theorem applyOperator_negation_iff (h : op.negation = some neg) (fv : FieldValue) (v : Value) :
    applyOperator c fv neg v = !applyOperator c fv op v ↔ Complemented fv op v := by
  cases fv with
  | str raw => exact applyStr_negation_iff h raw v
  | num n => exact iff_of_true (applyNum_negation h n v) trivial
  | bool b => exact iff_of_true (applyBool_negation h b v) trivial
  | ip ip =>
    cases ip with
    | some ip => exact iff_of_true (applyIp_negation h ip v) trivial
    | none => exact iff_of_true (isNegated_negation h) trivial
  | missing => exact iff_of_true (isNegated_negation h) trivial

/-- **Complements**: of a literal that the parser makes, the negated operator has the opposite value
exactly where the pair is tabulated. -/
theorem negated_operator_complement_iff (c : Crates) (compiles : String → Bool) (field : Field)
    (op neg : Operator) (toks rest : List Token) (v : Value) (ctx : EvalContext)
    (hneg : op.negation = some neg)
    (hparse : parseValue c compiles field.kind op toks = .ok (v, rest)) :
    (parseValue c compiles field.kind neg toks = .ok (v, rest) ∧
      evaluate c ctx (.field field neg v) = !evaluate c ctx (.field field op v) ∧
      evaluate c ctx (.field field neg v) = evaluate c ctx (.not (.field field op v))) ↔
      Complemented (resolveField field ctx) op v := by
  have hsame : parseValue c compiles field.kind neg toks = .ok (v, rest) :=
    (parseValue_negation hneg field.kind toks).trans hparse
  rw [← applyOperator_negation_iff hneg (resolveField field ctx) v]
  constructor
  · rintro ⟨-, hvalue, -⟩
    exact hvalue
  · intro hvalue
    exact ⟨hsame, hvalue, hvalue⟩

/-! ## A path and a number -/

def pathContext (path : String) : EvalContext where
  method := "GET"
  path := path
  fullUri := path
  host := ""
  userAgent := ""
  body := none
  headers := []
  cookies := []
  parsedIp := none
  countryCode := none
  ssl := false
  wafScore := 0
  wafScoreSqli := 0
  wafScoreXss := 0
  wafScoreRce := 0

theorem path_comparison_complemented :
    parseValue Crates.inert (fun _ => true) .requestPath .ne [.str "/a"] = .ok (.str "/a", []) ∧
      evaluate Crates.inert (pathContext "/b") (.field ⟨.requestPath, none⟩ .ne (.str "/a")) =
        !evaluate Crates.inert (pathContext "/b") (.field ⟨.requestPath, none⟩ .eq (.str "/a")) ∧
      evaluate Crates.inert (pathContext "/b") (.field ⟨.requestPath, none⟩ .ne (.str "/a")) =
        evaluate Crates.inert (pathContext "/b")
          (.not (.field ⟨.requestPath, none⟩ .eq (.str "/a"))) :=
  (negated_operator_complement_iff Crates.inert (fun _ => true) ⟨.requestPath, none⟩ .eq .ne
    [.str "/a"] [] (.str "/a") (pathContext "/b") rfl rfl).mpr rfl

/-- A path contains no number, nor does it not contain one. -/
theorem path_contains_number_nor_not :
    (parseExpression Crates.inert (fun _ => true) "uri.path contains 7" =
      .ok (.field ⟨.requestPath, none⟩ .contains (.num 7))) ∧
    (parseExpression Crates.inert (fun _ => true) "uri.path not contains 7" =
      .ok (.field ⟨.requestPath, none⟩ .notContains (.num 7))) ∧
    evaluate Crates.inert (pathContext "/a") (.field ⟨.requestPath, none⟩ .contains (.num 7)) =
      false ∧
    evaluate Crates.inert (pathContext "/a") (.field ⟨.requestPath, none⟩ .notContains (.num 7)) =
      false := by
  refine ⟨?_, ?_, rfl, rfl⟩
  · decide +kernel
  · decide +kernel

end PingWaf.Waf
