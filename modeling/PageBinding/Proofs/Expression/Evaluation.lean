import PageBinding.Expression.Evaluate
import PageBinding.Proofs.Expression.Refusal
import PageBinding.Proofs.Model.Described
import PageBinding.Proofs.Number

/-!
This module contains how the evaluation of a text ends: with data that is finite, with a failure
that it declares, or with one of few other failures, for which a part of the expression is to blame.
-/

namespace PageBinding

def Failure.isDeclared : Failure → Bool
  | .parse .. | .dependsOnVariables _ | .evaluation _ => true
  | _ => false

/--
Whether a failure is one of evaluation itself: neither the text nor its variables are to blame.
-/
def Failure.isEvaluation : Failure → Bool
  | .evaluation _ => true
  | _ => false

theorem Failure.isDeclared_of_isEvaluation {failure : Failure} (h : failure.isEvaluation = true) :
    failure.isDeclared = true := by
  cases failure with
  | evaluation => rfl
  | _ => cases h

def Value.isSequence : Value → Bool
  | .text _ | .list _ => true
  | _ => false

namespace Expression

open Traversal

def BinaryOp.calculation? : BinaryOp → Option (Number → Number → Except Number.Fault Number)
  | .add => some Number.add
  | .sub => some Number.sub
  | .mul => some Number.mul
  | .div => some Number.div
  | .mod => some Number.mod
  | _ => none

/--
An integer is too large to be tested for truth.
-/
inductive Untestable : Value → Failure → Prop where
  | int {i : Int} :
    Binary64.overflow ≤ i.natAbs → Untestable (.number (.int i)) .operandTooLarge

inductive Incalculable (op : BinaryOp) : Value → Value → Failure → Prop where
  | numbers {x y : Number} {fault : Number.Fault}
      {calculate : Number → Number → Except Number.Fault Number} :
    op.calculation? = some calculate → Number.Exceeds calculate x y fault →
      Incalculable op (.number x) (.number y) (failureOfFault fault)

/--
A text of digits cannot be read as an index.
-/
inductive Unreadable : Value → Failure → Prop where
  | notNumeral {key : Text} :
    key.all CodePoint.isDigit = true → key.all CodePoint.isDecimal = false →
      Unreadable (.text key) (.notNumeral key)
  | tooLong {key : Text} {digits : Nat} :
    key.all CodePoint.isDigit = true → digits = (key.takeWhile CodePoint.isDecimal).length →
      Number.maxDigits < digits → Unreadable (.text key) (.numeralTooLong (some digits))

section Values

theorem failsOnly_truthy (v : Value) : FailsOnly (Untestable v) (truthy v) := by
  unfold truthy
  split
  . exact .ok _
  . exact .ok _
  . next n =>
    refine ((Number.failsOnly_isTruthy n).mono ?_).mapError
    rintro _ ⟨rfl, i, rfl, hlarge⟩
    exact .int hlarge
  . exact .ok _
  . exact .ok _
  . exact .ok _

mutual

theorem failsOnly_plainText (v : Value) :
    FailsOnly (fun failure => failure.isEvaluation = true) (plainText v) := by
  match v with
  | .null | .bool _ | .text _ | .object _ => exact .ok _
  | .number n =>
    refine ((Number.failsOnly_plainText n).mono ?_).mapError
    rintro _ rfl
    rfl
  | .list items =>
    rw [plainText]
    exact (failsOnly_plainTexts items).bind fun _ _ => .ok _

theorem failsOnly_plainTexts (items : List Value) :
    FailsOnly (fun failure => failure.isEvaluation = true) (plainTexts items) := by
  match items with
  | [] => exact .ok []
  | v :: rest =>
    have hrest (t : Text) : FailsOnly (fun failure => failure.isEvaluation = true)
        (do return t :: (← plainTexts rest)) :=
      (failsOnly_plainTexts rest).bind fun _ _ => .ok _
    rw [plainTexts]
    split
    . exact hrest []
    . exact (failsOnly_plainText v).bind fun t _ => hrest t

end

theorem failsOnly_applyUnary (op : UnaryOp) (v : Value) :
    FailsOnly (fun failure => failure.isEvaluation = true ∨ op = .not ∧ Untestable v failure)
      (applyUnary op v) := by
  unfold applyUnary
  split
  . refine FailsOnly.bind ?_ fun _ _ => .ok _
    exact (failsOnly_truthy _).mono fun _ h => .inr ⟨rfl, h⟩
  . exact .ok _
  . exact .ok _
  . exact .ok _
  . exact .error (.inl rfl)

theorem failsOnly_applyComparison (op : BinaryOp) (a b : Value) (holds : Ordering → Bool) :
    FailsOnly (fun failure => failure.isEvaluation = true) (applyComparison op a b holds) := by
  unfold applyComparison
  split
  . exact .ok _
  . exact .ok _
  . exact .error rfl

theorem failsOnly_calculation {op : BinaryOp}
    {calculate : Number → Number → Except Number.Fault Number}
    (h : op.calculation? = some calculate) (x y : Number) :
    FailsOnly (Number.Faults calculate x y) (calculate x y) := by
  cases op with
  | add =>
    cases h
    exact Number.failsOnly_add
  | sub =>
    cases h
    exact Number.failsOnly_sub
  | mul =>
    cases h
    exact Number.failsOnly_mul
  | div =>
    cases h
    exact Number.failsOnly_div rfl
  | mod =>
    cases h
    exact Number.failsOnly_mod rfl
  | _ => cases h

theorem failsOnly_applyArithmetic {op : BinaryOp}
    {calculate : Number → Number → Except Number.Fault Number}
    (h : op.calculation? = some calculate) (a b : Value) :
    FailsOnly (fun failure => failure.isEvaluation = true ∨ Incalculable op a b failure)
      (applyArithmetic op a b calculate) := by
  unfold applyArithmetic
  split
  . next x y =>
    refine FailsOnly.bind ?_ fun _ _ => .ok _
    refine ((failsOnly_calculation h x y).mono ?_).mapError
    rintro fault (hevaluation | hexceeds)
    . left
      cases fault with
      | notFinite | divisionByZero => rfl
      | _ => cases hevaluation
    . exact .inr (.numbers h hexceeds)
  . exact .error (.inl rfl)

theorem failsOnly_applyBinary (op : BinaryOp) (a b : Value) :
    FailsOnly (fun failure => failure.isEvaluation = true ∨ Incalculable op a b failure)
      (applyBinary op a b) := by
  have hcompare (holds : Ordering → Bool) :=
    (failsOnly_applyComparison op a b holds).mono fun failure =>
      Or.inl (b := Incalculable op a b failure)
  have htext (v : Value) :=
    (failsOnly_plainText v).mono fun failure => Or.inl (b := Incalculable op a b failure)
  cases op with
  | coalesce | or | and | equal | strictEqual | unequal | strictUnequal => exact .ok _
  | below | atMost | above | atLeast => exact hcompare _
  | sub | mul | div | mod => exact failsOnly_applyArithmetic rfl a b
  | add =>
    unfold applyBinary
    dsimp only
    split
    . exact (htext _).bind fun _ _ => (htext _).bind fun _ _ => .ok _
    . exact (htext _).bind fun _ _ => (htext _).bind fun _ _ => .ok _
    . exact failsOnly_applyArithmetic rfl a b

theorem failsOnly_shortCircuits (op : BinaryOp) (v : Value) :
    FailsOnly (fun failure => (op = .and ∨ op = .or) ∧ Untestable v failure)
      (shortCircuits op v) := by
  unfold shortCircuits
  split
  . refine FailsOnly.bind ?_ fun _ _ => .ok _
    exact (failsOnly_truthy v).mono fun _ h => ⟨.inl rfl, h⟩
  . exact (failsOnly_truthy v).mono fun _ h => ⟨.inr rfl, h⟩
  . exact .ok _
  . exact .ok _

theorem failsOnly_index? (key : Value) : FailsOnly (Unreadable key) (index? key) := by
  unfold index?
  split
  . exact .ok _
  . exact .ok _
  . next t =>
    split
    . exact .ok _
    . next hdigits =>
      simp only [Bool.or_eq_true, Bool.not_eq_true', not_or, Bool.not_eq_false] at hdigits
      dsimp only
      split
      . next hlong => exact .error (.tooLong hdigits.2 rfl hlong)
      . split
        . next hshort =>
          refine .error (.notNumeral hdigits.2 ?_)
          by_contra hall
          rw [Bool.not_eq_false] at hall
          have hwhole : t.takeWhile CodePoint.isDecimal = t :=
            List.takeWhile_eq_self_iff.mpr (List.all_eq_true.mp hall)
          rw [hwhole] at hshort
          exact Nat.lt_irrefl _ hshort
        . exact .ok _
  . exact .ok _

theorem failsOnly_property (v key : Value) :
    FailsOnly (fun failure => failure.isEvaluation = true ∨
      v.isSequence = true ∧ Unreadable key failure) (property v key) := by
  have hsequence {α : Type} (items : List α) (wrap : α → Value) :
      FailsOnly (Unreadable key) (sequenceProperty items wrap key) := by
    unfold sequenceProperty
    split
    . exact .ok _
    . refine (failsOnly_index? key).bind fun found _ => ?_
      cases found with
      | _ => exact .ok _
  unfold property
  split
  . exact (hsequence _ _).mono fun _ h => .inr ⟨rfl, h⟩
  . exact (hsequence _ _).mono fun _ h => .inr ⟨rfl, h⟩
  . exact FailsOnly.bind ((failsOnly_plainText key).mono fun _ => .inl) fun _ _ => .ok _
  . exact .ok _

end Values

mutual

def Expr.parts (e : Expr) : List Expr :=
  e :: match e with
  | .literal _ | .identifier _ => []
  | .array items => partsOfList items
  | .object entries => partsOfEntries entries
  | .unary _ operand => operand.parts
  | .binary _ left right => left.parts ++ right.parts
  | .conditional test consequent alternate => test.parts ++ consequent.parts ++ alternate.parts
  | .member e _ _ => e.parts
  | .index e key _ => e.parts ++ key.parts

def partsOfList (es : List Expr) : List Expr :=
  match es with
  | [] => []
  | e :: rest => e.parts ++ partsOfList rest

def partsOfEntry (entry : Entry) : List Expr :=
  match entry with
  | .named _ value => value.parts
  | .computed key value => key.parts ++ value.parts

def partsOfEntries (entries : List Entry) : List Expr :=
  match entries with
  | [] => []
  | entry :: rest => partsOfEntry entry ++ partsOfEntries rest

end

namespace Expr

theorem mem_parts_self (e : Expr) : e ∈ e.parts := by
  cases e with
  | _ => exact List.mem_cons_self

def tests : Expr → List Expr
  | .unary .not operand => [operand]
  | .binary .and left _ | .binary .or left _ => [left]
  | .conditional test _ _ => [test]
  | _ => []

/--
An expression is the property of a piece of data under a key.
-/
def LooksUp : Expr → Value → Value → Prop
  | .member e name _, v, key => e.evaluate = .ok v ∧ key = .text name
  | .index e k _, v, key => e.evaluate = .ok v ∧ k.evaluate = .ok key
  | _, _, _ => False

/--
The failures that evaluation does not declare, by the values of parts of an expression that are to
blame.
-/
inductive Overreaches : Expr → Failure → Prop where
  | test {e test : Expr} {v : Value} {failure : Failure} :
    test ∈ e.tests → test.evaluate = .ok v → Untestable v failure → Overreaches e failure
  | operands {op : BinaryOp} {left right : Expr} {a b : Value} {failure : Failure} :
    left.evaluate = .ok a → right.evaluate = .ok b → Incalculable op a b failure →
      Overreaches (.binary op left right) failure
  | key {e : Expr} {v key : Value} {failure : Failure} :
    e.LooksUp v key → v.isSequence = true → Unreadable key failure → Overreaches e failure

end Expr

def Blamed (parts : List Expr) (failure : Failure) : Prop :=
  failure.isDeclared = true ∨
    ∃ part ∈ parts, part.evaluate = .error failure ∧ part.Overreaches failure

theorem Blamed.mono {failure : Failure} {parts parts' : List Expr} (h : Blamed parts failure)
    (hsubset : parts ⊆ parts') : Blamed parts' failure := by
  rcases h with hdeclared | ⟨part, hpart, hfails, hoverreaches⟩
  . exact .inl hdeclared
  . exact .inr ⟨part, hsubset hpart, hfails, hoverreaches⟩

theorem Blamed.of_isEvaluation {failure : Failure} {parts : List Expr}
    (h : failure.isEvaluation = true) : Blamed parts failure :=
  .inl (Failure.isDeclared_of_isEvaluation h)

theorem failsOnly_nullProperty (optional : Bool) :
    FailsOnly (fun failure => failure.isEvaluation = true)
      (Expr.evaluate.nullProperty optional) := by
  unfold Expr.evaluate.nullProperty
  split
  . exact .ok _
  . exact .error rfl

theorem failsOnly_blamed {e : Expr}
    (h : FailsOnly (fun failure => e.Overreaches failure ∨ Blamed e.parts failure) e.evaluate) :
    FailsOnly (Blamed e.parts) e.evaluate := by
  intro failure hfailure
  rcases h failure hfailure with hoverreaches | hblamed
  . exact .inr ⟨e, e.mem_parts_self, hfailure, hoverreaches⟩
  . exact hblamed

section Operands

variable {first second third : Expr}

theorem failsOnly_unary (h : FailsOnly (Blamed first.parts) first.evaluate) (op : UnaryOp) :
    FailsOnly (Blamed (Expr.unary op first).parts) (Expr.unary op first).evaluate := by
  apply failsOnly_blamed
  rw [Expr.evaluate]
  refine FailsOnly.bind ?_ fun v hv => (failsOnly_applyUnary op v).mono ?_
  . exact h.mono fun _ hblamed => .inr (hblamed.mono (List.subset_cons_self _ _))
  . rintro failure (hevaluation | ⟨rfl, huntestable⟩)
    . exact .inr (.of_isEvaluation hevaluation)
    . exact .inl (.test List.mem_cons_self hv huntestable)

theorem failsOnly_binary (hfirst : FailsOnly (Blamed first.parts) first.evaluate)
    (hsecond : FailsOnly (Blamed second.parts) second.evaluate) (op : BinaryOp) :
    FailsOnly (Blamed (Expr.binary op first second).parts)
      (Expr.binary op first second).evaluate := by
  have hleft : first.parts ⊆ (Expr.binary op first second).parts :=
    fun _ h => by simp [Expr.parts, h]
  have hright : second.parts ⊆ (Expr.binary op first second).parts :=
    fun _ h => by simp [Expr.parts, h]
  apply failsOnly_blamed
  rw [Expr.evaluate]
  refine FailsOnly.bind ?_ fun a ha => FailsOnly.bind ?_ fun isShort _ => ?_
  . exact hfirst.mono fun _ h => .inr (h.mono hleft)
  . refine (failsOnly_shortCircuits op a).mono ?_
    rintro failure ⟨rfl | rfl, huntestable⟩
    . exact .inl (.test List.mem_cons_self ha huntestable)
    . exact .inl (.test List.mem_cons_self ha huntestable)
  . split
    . exact .ok _
    . refine FailsOnly.bind ?_ fun b hb => (failsOnly_applyBinary op a b).mono ?_
      . exact hsecond.mono fun _ h => .inr (h.mono hright)
      . rintro failure (hevaluation | hincalculable)
        . exact .inr (.of_isEvaluation hevaluation)
        . exact .inl (.operands ha hb hincalculable)

theorem failsOnly_conditional (hfirst : FailsOnly (Blamed first.parts) first.evaluate)
    (hsecond : FailsOnly (Blamed second.parts) second.evaluate)
    (hthird : FailsOnly (Blamed third.parts) third.evaluate) :
    FailsOnly (Blamed (Expr.conditional first second third).parts)
      (Expr.conditional first second third).evaluate := by
  have htest : first.parts ⊆ (Expr.conditional first second third).parts :=
    fun _ h => by simp [Expr.parts, h]
  have hconsequent : second.parts ⊆ (Expr.conditional first second third).parts :=
    fun _ h => by simp [Expr.parts, h]
  have halternate : third.parts ⊆ (Expr.conditional first second third).parts :=
    fun _ h => by simp [Expr.parts, h]
  apply failsOnly_blamed
  rw [Expr.evaluate]
  refine FailsOnly.bind ?_ fun v hv => FailsOnly.bind ?_ fun isTrue _ => ?_
  . exact hfirst.mono fun _ h => .inr (h.mono htest)
  . exact (failsOnly_truthy v).mono fun _ h => .inl (.test List.mem_cons_self hv h)
  . split
    . exact hsecond.mono fun _ h => .inr (h.mono hconsequent)
    . exact hthird.mono fun _ h => .inr (h.mono halternate)

theorem failsOnly_member (h : FailsOnly (Blamed first.parts) first.evaluate) (name : Text)
    (optional : Bool) :
    FailsOnly (Blamed (Expr.member first name optional).parts)
      (Expr.member first name optional).evaluate := by
  apply failsOnly_blamed
  rw [Expr.evaluate]
  refine FailsOnly.bind ?_ fun v hv => ?_
  . exact h.mono fun _ hblamed => .inr (hblamed.mono (List.subset_cons_self _ _))
  . split
    . exact (failsOnly_nullProperty optional).mono fun _ h => .inr (.of_isEvaluation h)
    . refine (failsOnly_property v (.text name)).mono ?_
      rintro failure (hevaluation | ⟨hsequence, hunreadable⟩)
      . exact .inr (.of_isEvaluation hevaluation)
      . exact .inl (.key ⟨hv, rfl⟩ hsequence hunreadable)

theorem failsOnly_index (hfirst : FailsOnly (Blamed first.parts) first.evaluate)
    (hsecond : FailsOnly (Blamed second.parts) second.evaluate) (optional : Bool) :
    FailsOnly (Blamed (Expr.index first second optional).parts)
      (Expr.index first second optional).evaluate := by
  have hobject : first.parts ⊆ (Expr.index first second optional).parts :=
    fun _ h => by simp [Expr.parts, h]
  have hkey : second.parts ⊆ (Expr.index first second optional).parts :=
    fun _ h => by simp [Expr.parts, h]
  apply failsOnly_blamed
  rw [Expr.evaluate]
  refine FailsOnly.bind ?_ fun v hv => ?_
  . exact hfirst.mono fun _ h => .inr (h.mono hobject)
  . split
    . exact (failsOnly_nullProperty optional).mono fun _ h => .inr (.of_isEvaluation h)
    . refine FailsOnly.bind ?_ fun k hk => (failsOnly_property v k).mono ?_
      . exact hsecond.mono fun _ h => .inr (h.mono hkey)
      . rintro failure (hevaluation | ⟨hsequence, hunreadable⟩)
        . exact .inr (.of_isEvaluation hevaluation)
        . exact .inl (.key ⟨hv, hk⟩ hsequence hunreadable)

end Operands

mutual

theorem Expr.failsOnly_evaluate (e : Expr) : FailsOnly (Blamed e.parts) e.evaluate := by
  match e with
  | .literal _ => exact .ok _
  | .identifier id => exact .error (.inl rfl)
  | .array items =>
    rw [Expr.evaluate]
    refine FailsOnly.bind ?_ fun _ _ => .ok _
    exact (failsOnly_evaluateList items).mono fun _ h => h.mono (List.subset_cons_self _ _)
  | .object entries =>
    rw [Expr.evaluate]
    refine FailsOnly.bind ?_ fun _ _ => .ok _
    exact (failsOnly_evaluateEntries entries).mono fun _ h => h.mono (List.subset_cons_self _ _)
  | .unary op operand => exact failsOnly_unary operand.failsOnly_evaluate op
  | .binary op left right =>
    exact failsOnly_binary left.failsOnly_evaluate right.failsOnly_evaluate op
  | .conditional test consequent alternate =>
    exact failsOnly_conditional test.failsOnly_evaluate consequent.failsOnly_evaluate
      alternate.failsOnly_evaluate
  | .member object name optional =>
    exact failsOnly_member object.failsOnly_evaluate name optional
  | .index object key optional =>
    exact failsOnly_index object.failsOnly_evaluate key.failsOnly_evaluate optional

theorem failsOnly_evaluateList (es : List Expr) :
    FailsOnly (Blamed (partsOfList es)) (evaluateList es) := by
  match es with
  | [] => exact .ok []
  | e :: rest =>
    rw [evaluateList]
    refine FailsOnly.bind ?_ fun _ _ => FailsOnly.bind ?_ fun _ _ => .ok _
    . exact e.failsOnly_evaluate.mono fun _ h => h.mono (List.subset_append_left _ _)
    . exact (failsOnly_evaluateList rest).mono fun _ h => h.mono (List.subset_append_right _ _)

theorem failsOnly_evaluateEntry (entry : Entry) :
    FailsOnly (Blamed (partsOfEntry entry)) (evaluateEntry entry) := by
  match entry with
  | .named key value =>
    rw [evaluateEntry]
    exact value.failsOnly_evaluate.bind fun _ _ => .ok _
  | .computed key value =>
    rw [evaluateEntry]
    refine FailsOnly.bind ?_ fun k _ => FailsOnly.bind ?_ fun _ _ => ?_
    . exact key.failsOnly_evaluate.mono fun _ h => h.mono (List.subset_append_left _ _)
    . exact (failsOnly_plainText k).mono fun _ h => .of_isEvaluation h
    . refine FailsOnly.bind ?_ fun _ _ => .ok _
      exact value.failsOnly_evaluate.mono fun _ h => h.mono (List.subset_append_right _ _)

theorem failsOnly_evaluateEntries (entries : List Entry) :
    FailsOnly (Blamed (partsOfEntries entries)) (evaluateEntries entries) := by
  match entries with
  | [] => exact .ok []
  | entry :: rest =>
    rw [evaluateEntries]
    refine FailsOnly.bind ?_ fun _ _ => FailsOnly.bind ?_ fun _ _ => .ok _
    . exact (failsOnly_evaluateEntry entry).mono fun _ h => h.mono (List.subset_append_left _ _)
    . exact (failsOnly_evaluateEntries rest).mono fun _ h => h.mono (List.subset_append_right _ _)

end

section Data

mutual

theorem failsOnly_checkData (v : Value) :
    FailsOnly (fun failure => failure.isEvaluation = true) (checkData v) := by
  match v with
  | .null | .bool _ | .text _ => exact .ok _
  | .number (.int i) =>
    rw [checkData]
    split
    . exact .ok _
    . exact .error rfl
  | .number (.float x) =>
    rw [checkData]
    split
    . exact .ok _
    . exact .error rfl
  | .list items =>
    rw [checkData]
    exact failsOnly_checkItems items
  | .object entries =>
    rw [checkData]
    exact failsOnly_checkEntries entries

theorem failsOnly_checkItems (items : List Value) :
    FailsOnly (fun failure => failure.isEvaluation = true) (checkItems items) := by
  match items with
  | [] => exact .ok _
  | v :: rest =>
    rw [checkItems]
    exact (failsOnly_checkData v).bind fun _ _ => failsOnly_checkItems rest

theorem failsOnly_checkEntries (entries : List (Text × Value)) :
    FailsOnly (fun failure => failure.isEvaluation = true) (checkEntries entries) := by
  match entries with
  | [] => exact .ok _
  | (_, v) :: rest =>
    rw [checkEntries]
    exact (failsOnly_checkData v).bind fun _ _ => failsOnly_checkEntries rest

end

mutual

theorem isFinite_of_checkData (v : Value) (h : checkData v = .ok ()) : v.isFinite = true := by
  cases v with
  | null | bool _ | text _ => rfl
  | number n =>
    cases n with
    | int i => rfl
    | float x =>
      rw [checkData] at h
      split at h
      . next hfinite => exact hfinite
      . cases h
  | list items =>
    rw [checkData] at h
    exact isFinite_of_checkItems items h
  | object entries =>
    rw [checkData] at h
    exact isFinite_of_checkEntries entries h

theorem isFinite_of_checkItems (items : List Value) (h : checkItems items = .ok ()) :
    Value.isFiniteList items = true := by
  cases items with
  | nil => rfl
  | cons v rest =>
    rw [checkItems, bind_eq_ok_iff] at h
    obtain ⟨_, hv, hrest⟩ := h
    rw [Value.isFiniteList, isFinite_of_checkData v hv, isFinite_of_checkItems rest hrest,
      Bool.and_self]

theorem isFinite_of_checkEntries (entries : List (Text × Value))
    (h : checkEntries entries = .ok ()) : Value.isFiniteEntries entries = true := by
  match entries with
  | [] => rfl
  | (_, v) :: rest =>
    rw [checkEntries, bind_eq_ok_iff] at h
    obtain ⟨_, hv, hrest⟩ := h
    rw [Value.isFiniteEntries, isFinite_of_checkData v hv, isFinite_of_checkEntries rest hrest,
      Bool.and_self]

end

end Data

theorem evaluate_eq_error [Limits] {t : Text} {e : Expr} {failure : Failure}
    (hblank : t.isBlank = false)
    (hparse : parse t = .ok e) (hclosed : e.identifiers = []) (he : e.evaluate = .error failure) :
    evaluate t = .error failure := by
  unfold evaluate
  rw [hblank, hparse]
  change (do
    if !(Text.distinct (e.identifiers.map Identifier.name)).isEmpty then throw _
    let v ← e.evaluate
    checkData v
    return v) = _
  rw [hclosed, he]
  rfl

theorem isFinite_of_evaluate [Limits] {t : Text} {v : Value} (h : evaluate t = .ok v) :
    v.isFinite = true := by
  unfold evaluate at h
  split at h
  . cases h
  . obtain ⟨e, -, h⟩ := bind_eq_ok_iff.mp h
    dsimp only at h
    split at h
    . cases h
    . obtain ⟨found, -, h⟩ := bind_eq_ok_iff.mp h
      obtain ⟨_, hcheck, h⟩ := bind_eq_ok_iff.mp h
      cases h
      exact isFinite_of_checkData _ hcheck

theorem failsOnly_evaluate [Limits] (t : Text) :
    FailsOnly (fun failure => Refuses t failure ∨ failure.isDeclared = true ∨
      ∃ e, parse t = .ok e ∧ Blamed e.parts failure) (evaluate t) := by
  unfold evaluate
  split
  . exact .error (.inr (.inl rfl))
  . refine FailsOnly.bind ((failsOnly_parse t).mono fun _ => .inl) fun e he => ?_
    dsimp only
    split
    . exact .error (.inr (.inl rfl))
    . refine FailsOnly.bind ?_ fun v _ => FailsOnly.bind ?_ fun _ _ => .ok _
      . exact e.failsOnly_evaluate.mono fun _ h => .inr (.inr ⟨e, he, h⟩)
      . exact (failsOnly_checkData v).mono fun _ h =>
          .inr (.inl (Failure.isDeclared_of_isEvaluation h))

def typedValue [Limits] (t : Text) : Except Failure TypedValue := do
  return .ofValue (← evaluate t)

/--
A text evaluates to finite data or fails as evaluation declares, and so does the literal that is
made of the data. The only other failures are those of an oversized escape in the text and of a part
of the expression that overreaches.
-/
theorem evaluate_finite_or_declared_or_overreaches [Limits] (t : Text) :
    match evaluate t with
    | .ok v => v.isFinite = true ∧ typedValue t = .ok (.ofValue v)
    | .error failure =>
      typedValue t = .error failure ∧
        (failure.isDeclared = true ∨
          (∃ inKey, failure = .escapeTooLarge inKey) ∧ Literal.HasOversizedEscape t ∨
          ∃ e, parse t = .ok e ∧
            ∃ part ∈ e.parts, part.evaluate = .error failure ∧ part.Overreaches failure) := by
  unfold typedValue
  split
  . next v h =>
    rw [h]
    exact ⟨isFinite_of_evaluate h, rfl⟩
  . next failure h =>
    rw [h]
    refine ⟨rfl, ?_⟩
    rcases failsOnly_evaluate t failure h with hrefuses | hdeclared | ⟨e, he, hblamed⟩
    . cases hrefuses with
      | parse fault place => exact .inl rfl
      | escape inKey hescape => exact .inr (.inl ⟨⟨inKey, rfl⟩, hescape⟩)
    . exact .inl hdeclared
    . rcases hblamed with hdeclared | hpart
      . exact .inl hdeclared
      . exact .inr (.inr ⟨e, he, hpart⟩)

def infiniteRemainder : Expr :=
  .binary .mod (.literal (.number (.float (.infinite false)))) (.literal (.number (.int 2)))

set_option maxRecDepth 4000 in
theorem parse_infiniteRemainder : parse "1e999 % 2" = .ok infiniteRemainder := by
  cbv

set_option maxRecDepth 4000 in
theorem infiniteRemainder_evaluate : infiniteRemainder.evaluate = .error .outsideDomain := by
  rfl

theorem evaluate_infiniteRemainder : evaluate "1e999 % 2" = .error .outsideDomain :=
  evaluate_eq_error rfl parse_infiniteRemainder rfl infiniteRemainder_evaluate

theorem not_forall_evaluate_declared :
    ¬ ∀ t : Text,
      match evaluate t with
      | .ok v => v.isFinite = true
      | .error failure => failure.isDeclared = true := by
  intro h
  have hremainder := h "1e999 % 2"
  rw [evaluate_infiniteRemainder] at hremainder
  cases hremainder

end Expression

end PageBinding
