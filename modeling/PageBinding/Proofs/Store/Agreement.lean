import PageBinding.Store.Entity

/-!
This module contains the laws of agreement, the relation by which a transaction tells whether an
entity has changed. What is worth the same as something that is worth the same as a third one is
worth the same as the third one.
-/

namespace PageBinding

namespace Number

/--
The exact value of a number: an infinity with its sign, or a number of units. There is none for what
is not a number.
-/
def units? : Number → Option (Bool ⊕ Int)
  | .int i => some (.inr (i * Binary64.one))
  | .float .nan => none
  | .float (.infinite negative) => some (.inl negative)
  | .float (.finite negative rank) => some (.inr (Binary64.signedUnits negative rank))

theorem one_ne_zero : (Binary64.one : Int) ≠ 0 := by
  have pow_ne_zero (n : Nat) : Nat.pow 2 n ≠ 0 := Nat.ne_of_gt (Nat.two_pow_pos n)
  have h : Binary64.one ≠ 0 := by
    unfold Binary64.one
    apply pow_ne_zero
  omega

theorem some_compare_eq_iff {i j : Int} : (some (compare i j) == some .eq) = true ↔ i = j := by
  rw [beq_iff_eq, Option.some.injEq, Std.compare_eq_iff_eq]

theorem exists_some_eq_iff {β : Type} {x y : β} :
    (∃ z, some x = some z ∧ some y = some z) ↔ x = y := by
  constructor
  . rintro ⟨z, hx, hy⟩
    rw [Option.some.inj hx, Option.some.inj hy]
  . intro h
    exact ⟨y, by rw [h], rfl⟩

theorem not_exists_eq_none {β : Type} {x : Option β} : ¬ ∃ z, x = some z ∧ none = some z := by
  simp

theorem not_exists_none_eq {β : Type} {x : Option β} : ¬ ∃ z, none = some z ∧ x = some z := by
  simp

theorem agrees_iff {a b : Number} :
    a.agrees b = true ↔ ∃ exact, a.units? = some exact ∧ b.units? = some exact := by
  -- Integers are compared as they are and all else in units, so the cases go by the kinds.
  unfold agrees
  cases a with
  | int i =>
    cases b with
    | int j =>
      simp only [compare?, units?]
      rw [some_compare_eq_iff, exists_some_eq_iff, Sum.inr.injEq,
        Int.mul_eq_mul_right_iff one_ne_zero]
    | float y =>
      cases y with
      | nan => exact iff_of_false Bool.false_ne_true not_exists_eq_none
      | infinite negative =>
        simp only [compare?, units?, Binary64.compareInt?]
        rw [exists_some_eq_iff]
        cases negative <;> exact iff_of_false (by decide) Sum.inr_ne_inl
      | finite negative rank =>
        simp only [compare?, units?, Binary64.compareInt?]
        rw [some_compare_eq_iff, exists_some_eq_iff, Sum.inr.injEq]
  | float x =>
    cases b with
    | int j =>
      cases x with
      | nan => exact iff_of_false Bool.false_ne_true not_exists_none_eq
      | infinite negative =>
        simp only [compare?, units?, Binary64.compareInt?, Option.map_some]
        rw [exists_some_eq_iff]
        cases negative <;> exact iff_of_false (by decide) Sum.inl_ne_inr
      | finite negative rank =>
        simp only [compare?, units?, Binary64.compareInt?, Option.map_some]
        rw [exists_some_eq_iff, Sum.inr.injEq, beq_iff_eq, Option.some.injEq, Ordering.swap_eq_eq,
          Std.compare_eq_iff_eq, eq_comm]
    | float y =>
      cases x with
      | nan => exact iff_of_false Bool.false_ne_true not_exists_none_eq
      | infinite negative =>
        cases y with
        | nan => exact iff_of_false Bool.false_ne_true not_exists_eq_none
        | infinite other =>
          simp only [compare?, units?, Binary64.compare?]
          rw [exists_some_eq_iff, Sum.inl.injEq]
          cases negative <;> cases other <;> decide
        | finite other rank =>
          simp only [compare?, units?, Binary64.compare?]
          rw [exists_some_eq_iff]
          cases negative <;> exact iff_of_false (by decide) Sum.inl_ne_inr
      | finite negative rank =>
        cases y with
        | nan => exact iff_of_false Bool.false_ne_true not_exists_eq_none
        | infinite other =>
          simp only [compare?, units?, Binary64.compare?]
          rw [exists_some_eq_iff]
          cases other <;> exact iff_of_false (by decide) Sum.inr_ne_inl
        | finite other rank =>
          simp only [compare?, units?, Binary64.compare?]
          rw [some_compare_eq_iff, exists_some_eq_iff, Sum.inr.injEq]

theorem agrees_trans {a b c : Number} (hab : a.agrees b = true) (hbc : b.agrees c = true) :
    a.agrees c = true := by
  rw [agrees_iff] at *
  obtain ⟨exact, ha, hb⟩ := hab
  obtain ⟨other, hb', hc⟩ := hbc
  rw [hb, Option.some.injEq] at hb'
  subst hb'
  exact ⟨exact, ha, hc⟩

end Number

namespace Value

theorem numbersAgree_trans {x : Number} {b c : Value}
    (hxb : agrees.numbersAgree x b = true) (hbc : b.agrees c = true) :
    agrees.numbersAgree x c = true := by
  -- Only truth values and numbers agree with a number, and both go by their numeric value.
  obtain ⟨y, hy⟩ : ∃ y, b.numeric? = some y := by
    unfold agrees.numbersAgree at hxb
    cases h : b.numeric? with
    | none => simp [h] at hxb
    | some y => exact ⟨y, rfl⟩
  have hyc : agrees.numbersAgree y c = true := by
    cases b with
    | bool z =>
      cases hy
      rwa [agrees] at hbc
    | number z =>
      cases hy
      rwa [agrees] at hbc
    | null | text _ | list _ | object _ => cases hy
  unfold agrees.numbersAgree at *
  rw [hy] at hxb
  cases h : c.numeric? with
  | none => simp [h] at hyc
  | some z =>
    simp only [h] at hyc ⊢
    exact Number.agrees_trans hxb hyc

theorem agrees_of_lookup {xs ys : List (Text × Value)} {key : Text} {x : Value}
    (h : agreesEntries xs ys = true) (hx : Entries.lookup key xs = some x) :
    ∃ y, Entries.lookup key ys = some y ∧ x.agrees y = true := by
  induction xs with
  | nil => cases hx
  | cons entry rest ih =>
    obtain ⟨k, v⟩ := entry
    simp only [agreesEntries, Bool.and_eq_true] at h
    by_cases hk : k = key
    . subst hk
      simp only [Entries.lookup, if_true, Option.some.injEq] at hx
      subst hx
      cases hy : Entries.lookup k ys with
      | none => simp [hy] at h
      | some y =>
        simp only [hy] at h
        exact ⟨y, rfl, h.1⟩
    . simp only [Entries.lookup, hk, if_false] at hx
      exact ih h.2 hx

mutual

theorem agrees_trans {a b c : Value} (hab : a.agrees b = true) (hbc : b.agrees c = true) :
    a.agrees c = true := by
  match a with
  | .null =>
    simp only [agrees, decide_eq_true_eq] at hab
    subst hab
    exact hbc
  | .bool x =>
    rw [agrees] at hab ⊢
    exact numbersAgree_trans hab hbc
  | .number x =>
    rw [agrees] at hab ⊢
    exact numbersAgree_trans hab hbc
  | .text x =>
    simp only [agrees, decide_eq_true_eq] at hab
    subst hab
    exact hbc
  | .list xs =>
    match b, c with
    | .list ys, .list zs =>
      rw [agrees] at *
      exact agreesList_trans hab hbc
    | .list ys, .null | .list ys, .bool _ | .list ys, .number _ | .list ys, .text _
    | .list ys, .object _ => simp [agrees] at hbc
    | .null, _ | .bool _, _ | .number _, _ | .text _, _ | .object _, _ => simp [agrees] at hab
  | .object xs =>
    match b, c with
    | .object ys, .object zs =>
      simp only [agrees, Bool.and_eq_true, beq_iff_eq] at *
      exact ⟨hab.1.trans hbc.1, agreesEntries_trans hab.2 hbc.2⟩
    | .object ys, .null | .object ys, .bool _ | .object ys, .number _ | .object ys, .text _
    | .object ys, .list _ => simp [agrees] at hbc
    | .null, _ | .bool _, _ | .number _, _ | .text _, _ | .list _, _ => simp [agrees] at hab

theorem agreesList_trans {xs ys zs : List Value} (hxy : agreesList xs ys = true)
    (hyz : agreesList ys zs = true) : agreesList xs zs = true := by
  match xs, ys, zs with
  | [], [], zs => exact hyz
  | x :: xs, y :: ys, z :: zs =>
    simp only [agreesList, Bool.and_eq_true] at *
    exact ⟨agrees_trans hxy.1 hyz.1, agreesList_trans hxy.2 hyz.2⟩
  | x :: xs, y :: ys, [] => simp [agreesList] at hyz
  | [], _ :: _, _ | _ :: _, [], _ => simp [agreesList] at hxy

theorem agreesEntries_trans {xs ys zs : List (Text × Value)}
    (hxy : agreesEntries xs ys = true) (hyz : agreesEntries ys zs = true) :
    agreesEntries xs zs = true := by
  match xs with
  | [] => rw [agreesEntries]
  | (key, x) :: xs =>
    simp only [agreesEntries, Bool.and_eq_true] at hxy ⊢
    refine ⟨?_, agreesEntries_trans hxy.2 hyz⟩
    cases hy : Entries.lookup key ys with
    | none => simp [hy] at hxy
    | some y =>
      obtain ⟨z, hz, hagree⟩ := agrees_of_lookup hyz hy
      simp only [hy] at hxy
      simp only [hz]
      exact agrees_trans hxy.1 hagree

end

end Value

namespace TypedValue

theorem agrees_trans {a b c : TypedValue} (hab : a.agrees b = true) (hbc : b.agrees c = true) :
    a.agrees c = true := by
  simp only [agrees, Bool.and_eq_true, decide_eq_true_eq] at *
  exact ⟨hab.1.trans hbc.1, Value.agrees_trans hab.2 hbc.2⟩

end TypedValue

namespace Content

theorem agrees_trans {a b c : Content} (hab : a.agrees b = true) (hbc : b.agrees c = true) :
    a.agrees c = true := by
  cases a <;> cases b <;> cases c <;> simp only [agrees, Bool.false_eq_true] at *
  . exact TypedValue.agrees_trans hab hbc
  . simp only [decide_eq_true_eq] at *
    exact hab.trans hbc

end Content

namespace Variable

theorem agrees_trans {a b c : Variable} (hab : a.agrees b = true) (hbc : b.agrees c = true) :
    a.agrees c = true := by
  simp only [agrees, Bool.and_eq_true, decide_eq_true_eq] at *
  obtain ⟨⟨⟨hid, hname⟩, hscope⟩, hcontent⟩ := hab
  obtain ⟨⟨⟨hid', hname'⟩, hscope'⟩, hcontent'⟩ := hbc
  exact ⟨⟨⟨hid.trans hid', hname.trans hname'⟩, hscope.trans hscope'⟩,
    Content.agrees_trans hcontent hcontent'⟩

end Variable

namespace PropertyValue

theorem agrees_trans {a b c : PropertyValue} (hab : a.agrees b = true) (hbc : b.agrees c = true) :
    a.agrees c = true := by
  cases a <;> cases b <;> cases c <;>
    simp only [agrees, Bool.false_eq_true, Bool.and_eq_true, decide_eq_true_eq] at *
  . exact ⟨hab.1.trans hbc.1, Value.agrees_trans hab.2 hbc.2⟩
  . exact hab.trans hbc
  . exact hab.trans hbc

end PropertyValue

namespace Property

theorem agrees_trans {a b c : Property} (hab : a.agrees b = true) (hbc : b.agrees c = true) :
    a.agrees c = true := by
  simp only [agrees, Bool.and_eq_true, decide_eq_true_eq] at *
  obtain ⟨⟨⟨hid, hinstance⟩, hname⟩, hvalue⟩ := hab
  obtain ⟨⟨⟨hid', hinstance'⟩, hname'⟩, hvalue'⟩ := hbc
  exact ⟨⟨⟨hid.trans hid', hinstance.trans hinstance'⟩, hname.trans hname'⟩,
    PropertyValue.agrees_trans hvalue hvalue'⟩

end Property

namespace Entity

theorem agrees_trans {a b c : Entity} (hab : a.agrees b = true) (hbc : b.agrees c = true) :
    a.agrees c = true := by
  cases a <;> cases b <;> cases c <;> simp only [agrees, Bool.false_eq_true] at *
  . exact Variable.agrees_trans hab hbc
  . simp only [decide_eq_true_eq] at *
    exact hab.trans hbc
  . exact Property.agrees_trans hab hbc
  . exact Value.agrees_trans hab hbc

/--
Whether an entity counts as another one when no transaction has come between them: the two are worth
the same, or they are one and the same. The difference matters for what is not a number.
-/
def CountsAs (after before : Entity) : Prop :=
  after.agrees before = true ∨ after = before

theorem CountsAs.refl (a : Entity) : a.CountsAs a :=
  .inr rfl

theorem CountsAs.trans {a b c : Entity} (hab : a.CountsAs b) (hbc : b.CountsAs c) :
    a.CountsAs c := by
  rcases hab with hab | rfl
  . rcases hbc with hbc | rfl
    . exact .inl (agrees_trans hab hbc)
    . exact .inl hab
  . exact hbc

end Entity

end PageBinding
