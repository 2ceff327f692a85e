import PageBinding.Number
import PageBinding.Proofs.Binary64
import PageBinding.Proofs.Traversal

/-!
This module contains for what reasons arithmetic fails.
-/

namespace PageBinding

namespace Number

open Binary64 Traversal

theorem rounded_ofRatio_eq_error_iff {negative : Bool} {num den : Nat} {declared fault : Fault}
    (hden : 0 < den) :
    rounded declared (ofRatio negative num den) = .error fault ↔
      fault = declared ∧ overflow * den ≤ num := by
  rw [← ofRatio_eq_infinite_iff negative hden]
  rcases ofUnits_cases negative (num * one) den with ⟨rank, hfinite⟩ | hinfinite
  . rw [ofRatio, hfinite]
    simp [rounded]
  . rw [ofRatio, hinfinite]
    simp [rounded, eq_comm]

theorem toBinary64_eq_error_iff {i : Int} {fault : Fault} :
    toBinary64 (.int i) = .error fault ↔ fault = .operandTooLarge ∧ overflow ≤ i.natAbs := by
  have hratio : Binary64.ofInt i = ofRatio (i < 0) i.natAbs 1 := rfl
  rw [toBinary64, hratio, rounded_ofRatio_eq_error_iff Nat.one_pos, Nat.mul_one]

theorem toBinary64_eq_infinite {n : Number} {negative : Bool}
    (h : n.toBinary64 = .ok (.infinite negative)) : n = .float (.infinite negative) := by
  cases n with
  | float x =>
    cases h
    rfl
  | int i =>
    rw [toBinary64] at h
    generalize Binary64.ofInt i = x at h
    cases x with
    | _ => cases h

def Fault.isDeclared : Fault → Bool
  | .notFinite | .divisionByZero => true
  | .operandTooLarge | .quotientTooLarge | .outsideDomain => false

/--
The faults that come from the bounds of floating point numbers, by the operation on two numbers.
-/
inductive Exceeds (calculate : Number → Number → Except Fault Number) :
    Number → Number → Fault → Prop where
  | left {i : Int} {y : Binary64} :
    overflow ≤ i.natAbs → Exceeds calculate (.int i) (.float y) .operandTooLarge
  | right {x : Binary64} {j : Int} :
    overflow ≤ j.natAbs → Exceeds calculate (.float x) (.int j) .operandTooLarge
  | quotient {i j : Int} :
    calculate = div → i % j ≠ 0 → overflow * j.natAbs ≤ i.natAbs →
      Exceeds calculate (.int i) (.int j) .quotientTooLarge
  | remainder {negative : Bool} {y : Number} :
    calculate = mod → Exceeds calculate (.float (.infinite negative)) y .outsideDomain

def Faults (calculate : Number → Number → Except Fault Number) (a b : Number) (fault : Fault) :
    Prop :=
  fault.isDeclared = true ∨ Exceeds calculate a b fault

section Calculation

variable {calculate : Number → Number → Except Fault Number} {a b : Number}

theorem failsOnly_normalize (x : Binary64) :
    FailsOnly (Faults calculate a b) (normalize x) := by
  unfold normalize
  split
  . split
    . exact .ok _
    . exact .ok _
  . exact .error (.inl rfl)

theorem failsOnly_operands {combine : Binary64 → Binary64 → Except Fault Number}
    (hmixed : ∀ i j, a = .int i → b = .int j → False)
    (hcombine : ∀ x y, a.toBinary64 = .ok x → FailsOnly (Faults calculate a b) (combine x y)) :
    FailsOnly (Faults calculate a b) (do combine (← a.toBinary64) (← b.toBinary64)) := by
  refine FailsOnly.bind ?_ fun x hx => FailsOnly.bind ?_ fun y _ => hcombine x y hx
  . intro fault hfault
    match a, b with
    | .float x, b => cases hfault
    | .int i, .int j => exact (hmixed i j rfl rfl).elim
    | .int i, .float y =>
      obtain ⟨rfl, hlarge⟩ := toBinary64_eq_error_iff.mp hfault
      exact .inr (.left hlarge)
  . intro fault hfault
    match a, b with
    | a, .float y => cases hfault
    | .int i, .int j => exact (hmixed i j rfl rfl).elim
    | .float x, .int j =>
      obtain ⟨rfl, hlarge⟩ := toBinary64_eq_error_iff.mp hfault
      exact .inr (.right hlarge)

theorem failsOnly_onBinary64 (op : Binary64 → Binary64 → Binary64)
    (hmixed : ∀ i j, a = .int i → b = .int j → False) :
    FailsOnly (Faults calculate a b) (onBinary64 op a b) :=
  failsOnly_operands hmixed fun x y _ => failsOnly_normalize (op x y)

theorem failsOnly_add : FailsOnly (Faults calculate a b) (add a b) := by
  unfold add
  split
  . exact .ok _
  . next hmixed => exact failsOnly_onBinary64 _ hmixed

theorem failsOnly_sub : FailsOnly (Faults calculate a b) (sub a b) := by
  unfold sub
  split
  . exact .ok _
  . next hmixed => exact failsOnly_onBinary64 _ hmixed

theorem failsOnly_mul : FailsOnly (Faults calculate a b) (mul a b) := by
  unfold mul
  split
  . exact .ok _
  . next hmixed => exact failsOnly_onBinary64 _ hmixed

theorem failsOnly_div (h : calculate = div) : FailsOnly (Faults calculate a b) (div a b) := by
  unfold div
  split
  . exact .error (.inl rfl)
  . next hzero =>
    split
    . next i j =>
      split
      . exact .ok _
      . next hdivides =>
        have hj : 0 < j.natAbs := by
          simp only [isZero, decide_eq_true_eq] at hzero
          omega
        refine FailsOnly.bind ?_ fun x _ => failsOnly_normalize x
        intro fault hfault
        obtain ⟨rfl, hlarge⟩ := (rounded_ofRatio_eq_error_iff hj).mp hfault
        exact .inr (.quotient h hdivides hlarge)
    . next hmixed => exact failsOnly_onBinary64 _ hmixed

theorem failsOnly_mod (h : calculate = mod) : FailsOnly (Faults calculate a b) (mod a b) := by
  unfold mod
  split
  . exact .error (.inl rfl)
  . split
    . exact .ok _
    . next hmixed =>
      refine failsOnly_operands hmixed fun x y hx => ?_
      cases x with
      | infinite negative =>
        rw [toBinary64_eq_infinite hx]
        exact .error (.inr (.remainder h))
      | nan | finite negative rank =>
        rw [if_neg Bool.false_ne_true]
        exact failsOnly_normalize _

end Calculation

theorem failsOnly_isTruthy (n : Number) :
    FailsOnly (fun fault => fault = .operandTooLarge ∧ ∃ i, n = .int i ∧ overflow ≤ i.natAbs)
      n.isTruthy := by
  unfold isTruthy
  split
  . exact .ok _
  . refine FailsOnly.bind ?_ fun x _ => .ok _
    intro fault hfault
    cases n with
    | float x => cases hfault
    | int i =>
      obtain ⟨rfl, hlarge⟩ := toBinary64_eq_error_iff.mp hfault
      exact ⟨rfl, i, rfl, hlarge⟩

theorem failsOnly_plainText (n : Number) :
    FailsOnly (fun fault => fault = .notFinite) n.plainText := by
  have hfloat (x : Binary64) :
      FailsOnly (fun fault => fault = .notFinite) (plainText.ofBinary64 x) := by
    unfold plainText.ofBinary64
    split
    . split
      . exact .ok _
      . exact .ok _
    . exact .error rfl
  unfold plainText
  split
  . split
    . exact .ok _
    . exact hfloat _
  . exact hfloat _

end Number

end PageBinding
