import PageBinding.Failure

/-!
This module contains what is known of the results when every member of a list is treated in turn and
none of them has failed, and how the failures of a result follow from those of its parts.
-/

namespace PageBinding

namespace Traversal

variable {α β : Type}

theorem bind_eq_ok_iff {x : Except Failure α} {f : α → Except Failure β} {b : β} :
    (x >>= f) = .ok b ↔ ∃ a, x = .ok a ∧ f a = .ok b := by
  cases x with
  | error failure => simp [bind, Except.bind]
  | ok a => simp [bind, Except.bind]

theorem bind_eq_error_iff {x : Except Failure α} {f : α → Except Failure β} {failure : Failure} :
    (x >>= f) = .error failure ↔ x = .error failure ∨ ∃ a, x = .ok a ∧ f a = .error failure := by
  cases x with
  | error failure => simp [bind, Except.bind]
  | ok a => simp [bind, Except.bind]

theorem map_eq_ok_iff {x : Except Failure α} {f : α → β} {b : β} :
    x.map f = .ok b ↔ ∃ a, x = .ok a ∧ f a = b := by
  cases x with
  | error failure => simp [Except.map]
  | ok a => simp [Except.map]

theorem exists_of_map_toOption {x : Except Failure α} {f : α → β} {b : β}
    (h : x.toOption.map f = some b) : ∃ a, x = .ok a ∧ f a = b := by
  cases x with
  | error failure => cases h
  | ok a => exact ⟨a, rfl, Option.some.inj h⟩

section MapM

variable {f : α → Except Failure β} {as : List α} {bs : List β}

theorem mapM_cons_eq_ok_iff {a : α} :
    (a :: as).mapM f = .ok bs ↔
      ∃ b rest, f a = .ok b ∧ as.mapM f = .ok rest ∧ bs = b :: rest := by
  rw [List.mapM_cons]
  simp only [bind_eq_ok_iff, pure, Except.pure, Except.ok.injEq]
  constructor
  . rintro ⟨b, hb, rest, hrest, rfl⟩
    exact ⟨b, rest, hb, hrest, rfl⟩
  . rintro ⟨b, rest, hb, hrest, rfl⟩
    exact ⟨b, hb, rest, hrest, rfl⟩

theorem exists_of_mem_of_mapM (h : as.mapM f = .ok bs) {a : α} (ha : a ∈ as) :
    ∃ b ∈ bs, f a = .ok b := by
  induction as generalizing bs with
  | nil => cases ha
  | cons first as ih =>
    obtain ⟨b, rest, hb, hrest, rfl⟩ := mapM_cons_eq_ok_iff.mp h
    rcases List.mem_cons.mp ha with rfl | hmem
    . exact ⟨b, List.mem_cons_self, hb⟩
    . obtain ⟨c, hc, heq⟩ := ih hrest hmem
      exact ⟨c, List.mem_cons_of_mem _ hc, heq⟩

theorem exists_of_mem_mapM (h : as.mapM f = .ok bs) {b : β} (hb : b ∈ bs) :
    ∃ a ∈ as, f a = .ok b := by
  induction as generalizing bs with
  | nil =>
    cases h
    cases hb
  | cons first as ih =>
    obtain ⟨c, rest, hc, hrest, rfl⟩ := mapM_cons_eq_ok_iff.mp h
    rcases List.mem_cons.mp hb with rfl | hmem
    . exact ⟨first, List.mem_cons_self, hc⟩
    . obtain ⟨a, ha, heq⟩ := ih hrest hmem
      exact ⟨a, List.mem_cons_of_mem _ ha, heq⟩

theorem mapM_eq_ok {g : α → β} (h : ∀ a ∈ as, f a = .ok (g a)) : as.mapM f = .ok (as.map g) := by
  induction as with
  | nil => rfl
  | cons a as ih =>
    rw [mapM_cons_eq_ok_iff]
    exact ⟨g a, as.map g, h a List.mem_cons_self,
      ih fun a ha => h a (List.mem_cons_of_mem _ ha), rfl⟩

theorem eq_map_of_mapM {g : α → β} (h : as.mapM f = .ok bs) (hg : ∀ a b, f a = .ok b → b = g a) :
    bs = as.map g := by
  induction as generalizing bs with
  | nil =>
    cases h
    rfl
  | cons a as ih =>
    obtain ⟨b, rest, hb, hrest, rfl⟩ := mapM_cons_eq_ok_iff.mp h
    rw [List.map_cons, hg a b hb, ih hrest]

theorem mapM_eq_error {before after : List α} {a : α} {failure : Failure}
    (hbefore : ∀ b ∈ before, ∃ c, f b = .ok c) (h : f a = .error failure) :
    (before ++ a :: after).mapM f = .error failure := by
  induction before with
  | nil =>
    rw [List.nil_append, List.mapM_cons, h]
    rfl
  | cons b before ih =>
    obtain ⟨⟨c, hc⟩, hrest⟩ := List.forall_mem_cons.mp hbefore
    rw [List.cons_append, List.mapM_cons, hc, ih hrest]
    rfl

theorem forM_eq_ok {f : α → Except Failure PUnit} (h : ∀ a ∈ as, f a = .ok ()) :
    as.forM f = .ok () := by
  induction as with
  | nil => rfl
  | cons a as ih =>
    have hcons : (a :: as).forM f = (f a >>= fun _ => as.forM f) := rfl
    rw [hcons, h a List.mem_cons_self]
    exact ih fun a ha => h a (List.mem_cons_of_mem _ ha)

end MapM

section FlatMapM

variable {f : α → Except Failure (List β)} {as : List α} {bs : List β}

theorem flatMapM_cons_eq_ok_iff {a : α} :
    (a :: as).flatMapM f = .ok bs ↔
      ∃ b rest, f a = .ok b ∧ as.flatMapM f = .ok rest ∧ bs = b ++ rest := by
  rw [List.flatMapM_cons]
  simp only [bind_eq_ok_iff, pure, Except.pure, Except.ok.injEq]
  constructor
  . rintro ⟨b, hb, rest, hrest, rfl⟩
    exact ⟨b, rest, hb, hrest, rfl⟩
  . rintro ⟨b, rest, hb, hrest, rfl⟩
    exact ⟨b, hb, rest, hrest, rfl⟩

theorem subset_of_mem_of_flatMapM (h : as.flatMapM f = .ok bs) {a : α} (ha : a ∈ as) :
    ∃ b, f a = .ok b ∧ ∀ x ∈ b, x ∈ bs := by
  induction as generalizing bs with
  | nil => cases ha
  | cons first as ih =>
    obtain ⟨b, rest, hb, hrest, rfl⟩ := flatMapM_cons_eq_ok_iff.mp h
    rcases List.mem_cons.mp ha with rfl | hmem
    . exact ⟨b, hb, fun x hx => List.mem_append_left _ hx⟩
    . obtain ⟨c, hc, hsubset⟩ := ih hrest hmem
      exact ⟨c, hc, fun x hx => List.mem_append_right _ (hsubset x hx)⟩

theorem mem_flatMapM_iff (h : as.flatMapM f = .ok bs) {x : β} :
    x ∈ bs ↔ ∃ a ∈ as, ∃ b, f a = .ok b ∧ x ∈ b := by
  constructor
  . intro hx
    induction as generalizing bs with
    | nil =>
      cases h
      cases hx
    | cons a as ih =>
      obtain ⟨b, rest, hb, hrest, rfl⟩ := flatMapM_cons_eq_ok_iff.mp h
      rcases List.mem_append.mp hx with hhere | hlater
      . exact ⟨a, List.mem_cons_self, b, hb, hhere⟩
      . obtain ⟨a', ha', hlater⟩ := ih hrest hlater
        exact ⟨a', List.mem_cons_of_mem _ ha', hlater⟩
  . rintro ⟨a, ha, b, hb, hx⟩
    obtain ⟨c, hc, hsubset⟩ := subset_of_mem_of_flatMapM h ha
    rw [hb] at hc
    cases hc
    exact hsubset x hx

end FlatMapM

def FailsOnly {ε : Type} (allowed : ε → Prop) (x : Except ε α) : Prop :=
  ∀ failure, x = .error failure → allowed failure

namespace FailsOnly

variable {ε : Type} {allowed : ε → Prop} {x : Except ε α}

theorem ok (a : α) : FailsOnly allowed (.ok a) :=
  nofun

theorem error {failure : ε} (h : allowed failure) :
    FailsOnly allowed (.error failure : Except ε α) := by
  rintro _ ⟨⟩
  exact h

theorem mono {allowed' : ε → Prop} (h : FailsOnly allowed x)
    (himp : ∀ failure, allowed failure → allowed' failure) : FailsOnly allowed' x :=
  fun failure heq => himp failure (h failure heq)

theorem bind {f : α → Except ε β} (hx : FailsOnly allowed x)
    (hf : ∀ a, x = .ok a → FailsOnly allowed (f a)) : FailsOnly allowed (x >>= f) := by
  cases x with
  | error failure => exact error (hx failure rfl)
  | ok a => exact hf a rfl

theorem map (f : α → β) (h : FailsOnly allowed x) : FailsOnly allowed (x.map f) := by
  cases x with
  | error failure => exact error (h failure rfl)
  | ok a => exact ok (f a)

theorem mapError {ε' : Type} {f : ε → ε'} {allowed' : ε' → Prop}
    (h : FailsOnly (fun failure => allowed' (f failure)) x) :
    FailsOnly allowed' (x.mapError f) := by
  cases x with
  | error failure => exact error (h failure rfl)
  | ok a => exact ok a

theorem mapM {f : α → Except ε β} {as : List α} (h : ∀ a ∈ as, FailsOnly allowed (f a)) :
    FailsOnly allowed (as.mapM f) := by
  induction as with
  | nil => exact ok []
  | cons a as ih =>
    rw [List.mapM_cons]
    refine (h a List.mem_cons_self).bind fun b _ => ?_
    refine (ih fun a ha => h a (List.mem_cons_of_mem _ ha)).bind fun bs _ => ?_
    exact ok (b :: bs)

theorem flatMapM {f : α → Except ε (List β)} {as : List α}
    (h : ∀ a ∈ as, FailsOnly allowed (f a)) : FailsOnly allowed (as.flatMapM f) := by
  induction as with
  | nil => exact ok []
  | cons a as ih =>
    rw [List.flatMapM_cons]
    refine (h a List.mem_cons_self).bind fun b _ => ?_
    refine (ih fun a ha => h a (List.mem_cons_of_mem _ ha)).bind fun bs _ => ?_
    exact ok (b ++ bs)

end FailsOnly

end Traversal

end PageBinding
