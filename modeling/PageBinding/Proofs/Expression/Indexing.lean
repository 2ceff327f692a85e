import PageBinding.Proofs.Expression.Evaluation
import PageBinding.Proofs.Expression.Literal

/-!
This module contains the properties that texts and lists have under a key that is a text: which keys
have the property that JavaScript gives them, and what all other keys come to.
-/

namespace PageBinding

def Value.items? : Value → Option (List Value)
  | .text t => some (t.map fun c => .text [c])
  | .list items => some items
  | _ => none

theorem CodePoint.isDigit_of_isDecimal {c : CodePoint} (h : c.isDecimal = true) :
    c.isDigit = true := by
  simp [isDigit, h]

theorem Text.all_isDigit_of_all_isDecimal {t : Text} (h : t.all CodePoint.isDecimal = true) :
    t.all CodePoint.isDigit = true :=
  List.all_eq_true.mpr fun c hc => CodePoint.isDigit_of_isDecimal (List.all_eq_true.mp h c hc)

theorem Text.takeWhile_isDecimal_eq_iff {t : Text} :
    t.takeWhile CodePoint.isDecimal = t ↔ t.all CodePoint.isDecimal = true := by
  rw [List.takeWhile_eq_self_iff, List.all_eq_true]

theorem Text.length_takeWhile_isDecimal_lt_iff {t : Text} :
    (t.takeWhile CodePoint.isDecimal).length < t.length ↔ t.all CodePoint.isDecimal = false := by
  have hle := (List.takeWhile_prefix CodePoint.isDecimal (l := t)).length_le
  have hself : t.takeWhile CodePoint.isDecimal = t ↔
      (t.takeWhile CodePoint.isDecimal).length = t.length :=
    ⟨congrArg List.length, (List.takeWhile_prefix _).eq_of_length⟩
  rw [← Bool.not_eq_true, ← takeWhile_isDecimal_eq_iff, hself]
  omega

namespace Expression

/--
The property that JavaScript gives items under a key: their number, the item whose index has the key
as its decimal text, or nothing.
-/
inductive HasProperty (items : List Value) : Text → Value → Prop where
  | length : HasProperty items "length" (.number (.int items.length))
  | item {i : Nat} (hi : i < items.length) : HasProperty items (Text.ofNat i) items[i]
  | missing {key : Text} :
    key ≠ "length" → (∀ i < items.length, key ≠ Text.ofNat i) → HasProperty items key .null

/--
Digits are read as an index although they are not the decimal text of one.
-/
inductive Misreads (items : List Value) (key : Text) : Except Failure Value → Prop where
  | item (hindex : Text.decimalValue key < items.length) :
    key ≠ [] → key.all CodePoint.isDecimal = true → key.length ≤ Number.maxDigits →
      key ≠ Text.ofNat (Text.decimalValue key) → items[Text.decimalValue key] ≠ .null →
        Misreads items key (.ok items[Text.decimalValue key])
  | notNumeral :
    key.all CodePoint.isDigit = true → key.all CodePoint.isDecimal = false →
      (key.takeWhile CodePoint.isDecimal).length ≤ Number.maxDigits →
        Misreads items key (.error (.notNumeral key))
  | tooLong :
    key.all CodePoint.isDigit = true →
      Number.maxDigits < (key.takeWhile CodePoint.isDecimal).length →
        Misreads items key
          (.error (.numeralTooLong (some (key.takeWhile CodePoint.isDecimal).length)))

section Items

variable {items : List Value} {key : Text} {v : Value} {r : Except Failure Value}

theorem index?_of_not_digits (h : key = [] ∨ key.all CodePoint.isDigit = false) :
    index? (.text key) = .ok none := by
  rw [index?, if_pos]
  rcases h with rfl | hdigits
  . rfl
  . simp [hdigits]

theorem index?_of_digits (hne : key ≠ []) (hdigits : key.all CodePoint.isDigit = true) :
    index? (.text key) =
      if Number.maxDigits < (key.takeWhile CodePoint.isDecimal).length then
        .error (.numeralTooLong (some (key.takeWhile CodePoint.isDecimal).length))
      else if key.all CodePoint.isDecimal then .ok (some (Text.decimalValue key))
      else .error (.notNumeral key) := by
  rw [index?, if_neg (by simp [hne, hdigits])]
  cases hall : key.all CodePoint.isDecimal with
  | false => simp [Text.length_takeWhile_isDecimal_lt_iff.mpr hall]
  | true => simp [Text.takeWhile_isDecimal_eq_iff.mpr hall]

theorem sequenceProperty_text (hlength : key ≠ "length") :
    sequenceProperty items id (.text key) =
      (index? (.text key)).map fun i? => (i?.bind (itemAt? items)).getD .null := by
  rw [sequenceProperty, if_neg (by simpa using hlength)]
  cases index? (.text key) with
  | error _ => rfl
  | ok i? =>
    cases i? with
    | none => rfl
    | some i =>
      show Except.ok (((itemAt? items i).map id).getD .null) = _
      rw [Option.map_id]
      rfl

theorem itemAt?_natCast (items : List Value) (n : Nat) : itemAt? items (n : Int) = items[n]? := by
  rw [itemAt?, if_pos (Int.natCast_nonneg n), Int.toNat_natCast]

theorem ne_length_of_all_isDigit (h : key.all CodePoint.isDigit = true) : key ≠ "length" := by
  rintro rfl
  exact absurd h (by decide)

theorem Misreads.sequenceProperty_eq (h : Misreads items key r) :
    sequenceProperty items id (.text key) = r := by
  cases h with
  | item hindex hne hdecimal hlength _ _ =>
    have hdigits := Text.all_isDigit_of_all_isDecimal hdecimal
    have hwhole := Text.takeWhile_isDecimal_eq_iff.mpr hdecimal
    rw [sequenceProperty_text (ne_length_of_all_isDigit hdigits), index?_of_digits hne hdigits,
      hwhole, if_neg (Nat.not_lt.mpr hlength), if_pos hdecimal]
    simp [Except.map, itemAt?_natCast, hindex]
  | notNumeral hdigits hdecimal hlength =>
    have hne : key ≠ [] := by
      rintro rfl
      cases hdecimal
    rw [sequenceProperty_text (ne_length_of_all_isDigit hdigits), index?_of_digits hne hdigits,
      if_neg (Nat.not_lt.mpr hlength), hdecimal, if_neg Bool.false_ne_true]
    rfl
  | tooLong hdigits hlength =>
    have hne : key ≠ [] := by
      rintro rfl
      exact absurd hlength (Nat.not_lt_zero _)
    rw [sequenceProperty_text (ne_length_of_all_isDigit hdigits), index?_of_digits hne hdigits,
      if_pos hlength]
    rfl

theorem Misreads.not_hasProperty (h : Misreads items key (.ok v)) : ¬ HasProperty items key v := by
  intro hproperty
  generalize hr : Except.ok v = r at h
  cases h with
  | item hindex _ hdecimal _ hcanonical hnull =>
    cases hr
    have hlength := ne_length_of_all_isDigit (Text.all_isDigit_of_all_isDecimal hdecimal)
    generalize hitem : items[Text.decimalValue key] = item at hproperty hnull
    cases hproperty with
    | length => exact hlength rfl
    | item hi => exact hcanonical (by rw [Text.decimalValue_ofNat])
    | missing => exact hnull rfl
  | notNumeral => cases hr
  | tooLong => cases hr

theorem hasProperty_of_forall_not_misreads (h : ∀ r, ¬ Misreads items key r) :
    ∃ v, sequenceProperty items id (.text key) = .ok v ∧ HasProperty items key v := by
  by_cases hlength : key = "length"
  . rw [hlength, sequenceProperty, if_pos rfl]
    exact ⟨_, rfl, .length⟩
  rw [sequenceProperty_text hlength]
  by_cases hdigits : key = [] ∨ key.all CodePoint.isDigit = false
  . rw [index?_of_not_digits hdigits]
    refine ⟨.null, rfl, .missing hlength ?_⟩
    rintro i _ rfl
    have hall := Text.all_isDigit_of_all_isDecimal (Text.all_isDecimal_ofNat i)
    rcases hdigits with hnil | hsome
    . exact Text.ofNat_ne_nil i hnil
    . rw [hall] at hsome
      cases hsome
  rw [not_or, Bool.not_eq_false] at hdigits
  obtain ⟨hne, hdigits⟩ := hdigits
  rw [index?_of_digits hne hdigits]
  split
  . next hlong => exact absurd (.tooLong hdigits hlong) (h _)
  . next hshort =>
    rw [Nat.not_lt] at hshort
    split
    . next hdecimal =>
      rw [Text.takeWhile_isDecimal_eq_iff.mpr hdecimal] at hshort
      refine ⟨_, rfl, ?_⟩
      show HasProperty items key ((itemAt? items (Text.decimalValue key : Int)).getD .null)
      rw [itemAt?_natCast]
      by_cases hindex : Text.decimalValue key < items.length
      . rw [List.getElem?_eq_getElem hindex, Option.getD_some]
        by_cases hcanonical : key = Text.ofNat (Text.decimalValue key)
        . have hitem := HasProperty.item hindex
          rwa [← hcanonical] at hitem
        . have hnull : items[Text.decimalValue key] = .null := by
            by_contra hnull
            exact h _ (.item hindex hne hdecimal hshort hcanonical hnull)
          rw [hnull]
          refine .missing hlength ?_
          rintro i _ rfl
          exact hcanonical (by rw [Text.decimalValue_ofNat])
      . rw [List.getElem?_eq_none (Nat.not_lt.mp hindex), Option.getD_none]
        refine .missing hlength ?_
        rintro i hi rfl
        rw [Text.decimalValue_ofNat] at hindex
        exact hindex hi
    . next hdecimal =>
      exact absurd (.notNumeral hdigits (Bool.not_eq_true _ ▸ hdecimal) hshort) (h _)

end Items

section Evaluate

variable {object key : Expr} {optional : Bool} {x : Value} {items : List Value} {s : Text}

theorem sequenceProperty_map {α : Type} (items : List α) (wrap : α → Value) (key : Value) :
    sequenceProperty items wrap key = sequenceProperty (items.map wrap) id key := by
  unfold sequenceProperty
  rw [List.length_map]
  split
  . rfl
  . cases index? key with
    | error _ => rfl
    | ok i? =>
      cases i? with
      | none => rfl
      | some i =>
        show Except.ok (((itemAt? items i).map wrap).getD .null) =
          Except.ok (((itemAt? (items.map wrap) i).map id).getD .null)
        unfold itemAt?
        split
        . rw [Option.map_id, List.getElem?_map]
          rfl
        . rfl

theorem property_of_items? (h : x.items? = some items) (key : Value) :
    property x key = sequenceProperty items id key := by
  cases x with
  | text t =>
    cases h
    exact sequenceProperty_map t _ key
  | list _ =>
    cases h
    rfl
  | _ => cases h

theorem evaluate_index_of_items? (hitems : x.items? = some items) (hx : object.evaluate = .ok x)
    (hs : key.evaluate = .ok (.text s)) :
    (Expr.index object key optional).evaluate = sequenceProperty items id (.text s) := by
  have hnull : x ≠ .null := by
    rintro rfl
    cases hitems
  rw [Expr.evaluate, hx]
  show (if x = .null then _ else _) = _
  rw [if_neg hnull, hs]
  exact property_of_items? hitems _

/--
A text or a list has the property that JavaScript gives it under a key, other than for keys of
digits that are not the decimal text of an index: those are read as an index nonetheless.
-/
theorem evaluate_index (hitems : x.items? = some items) (hx : object.evaluate = .ok x)
    (hs : key.evaluate = .ok (.text s)) :
    ((∃ v, (Expr.index object key optional).evaluate = .ok v ∧ HasProperty items s v) ↔
      ∀ r, ¬ Misreads items s r) ∧
    ∀ r, Misreads items s r → (Expr.index object key optional).evaluate = r := by
  rw [evaluate_index_of_items? hitems hx hs]
  refine ⟨⟨?_, hasProperty_of_forall_not_misreads⟩, fun r => Misreads.sequenceProperty_eq⟩
  rintro ⟨v, hv, hproperty⟩ r hmisreads
  have hr := hmisreads.sequenceProperty_eq
  rw [hv] at hr
  rw [← hr] at hmisreads
  exact hmisreads.not_hasProperty hproperty

end Evaluate

/--
A text that is read for an item although its leading zero makes it no index.
-/
theorem evaluate_index_leadingZero :
    (Value.text "abc").items? = some [.text "a", .text "b", .text "c"] ∧
      Misreads [.text "a", .text "b", .text "c"] "01" (.ok (.text "b")) ∧
        (Expr.index (.literal (.text "abc")) (.literal (.text "01")) false).evaluate =
          .ok (.text "b") := by
  have hitems : (Value.text "abc").items? = some [.text "a", .text "b", .text "c"] := rfl
  have hmisreads : Misreads [.text "a", .text "b", .text "c"] "01" (.ok (.text "b")) :=
    .item (by decide) (by decide) (by decide) (by decide) (by decide) (by decide)
  exact ⟨hitems, hmisreads, (evaluate_index hitems rfl rfl).2 _ hmisreads⟩

theorem not_forall_evaluate_index :
    ¬ ∀ (object key : Expr) (optional : Bool) (x : Value) (items : List Value) (s : Text),
      x.items? = some items → object.evaluate = .ok x → key.evaluate = .ok (.text s) →
        ∃ v, (Expr.index object key optional).evaluate = .ok v ∧ HasProperty items s v := by
  intro h
  obtain ⟨v, hv, -⟩ := h (.literal (.text "abc")) (.literal (.text "²")) false _ _ "²" rfl rfl rfl
  have hfails : (Expr.index (.literal (.text "abc")) (.literal (.text "²")) false).evaluate =
      .error (.notNumeral "²") := rfl
  rw [hfails] at hv
  cases hv

end Expression

end PageBinding
