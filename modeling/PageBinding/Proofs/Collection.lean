import PageBinding.Collection

/-!
This module contains how the operations of a collection act on what is under a key, and on the
entries under all other keys.
-/

namespace PageBinding

namespace Entries

variable {α : Type}

theorem mem_of_lookup {key : Text} {a : α} {entries : List (Text × α)}
    (h : lookup key entries = some a) : (key, a) ∈ entries := by
  induction entries with
  | nil => simp [lookup] at h
  | cons entry rest ih =>
    obtain ⟨k, b⟩ := entry
    by_cases hk : k = key
    . simp only [lookup, hk, if_true, Option.some.injEq] at h
      simp [hk, h]
    . simp only [lookup, hk, if_false] at h
      exact List.mem_cons_of_mem _ (ih h)

theorem lookup_of_mem {key : Text} {a : α} {entries : List (Text × α)}
    (nodup : (keys entries).Nodup) (h : (key, a) ∈ entries) : lookup key entries = some a := by
  induction entries with
  | nil => cases h
  | cons entry rest ih =>
    obtain ⟨k, b⟩ := entry
    simp only [keys, List.map_cons, List.nodup_cons] at nodup
    rcases List.mem_cons.mp h with heq | hmem
    . cases heq
      simp [lookup]
    . have hk : k ≠ key := by
        intro e
        subst e
        exact nodup.1 (List.mem_map_of_mem hmem)
      simp only [lookup, hk, if_false]
      exact ih nodup.2 hmem

theorem lookup_filter (keep : Text → Bool) (key : Text) (entries : List (Text × α)) :
    lookup key (entries.filter fun entry => keep entry.1) =
      if keep key then lookup key entries else none := by
  induction entries with
  | nil => simp [lookup]
  | cons entry rest ih =>
    obtain ⟨k, b⟩ := entry
    by_cases h : k = key
    . subst h
      cases hkeep : keep k with
      | true => simp [lookup, hkeep]
      | false => simp [hkeep, ih]
    . cases hkeep : keep k with
      | true => simp [lookup, h, hkeep, ih]
      | false => simp [lookup, h, hkeep, ih]

theorem filter_put (keep : Text → Bool) {key : Text} (a : α) (entries : List (Text × α))
    (h : keep key = false) :
    (put key a entries).filter (fun entry => keep entry.1) =
      entries.filter fun entry => keep entry.1 := by
  induction entries with
  | nil => simp [put, h]
  | cons entry rest ih =>
    obtain ⟨k, b⟩ := entry
    by_cases hk : k = key
    . simp [put, hk, h]
    . simp [put, hk, List.filter_cons, ih]

theorem put_of_not_mem {key : Text} {a : α} {entries : List (Text × α)}
    (h : key ∉ keys entries) : put key a entries = entries ++ [(key, a)] := by
  induction entries with
  | nil => rfl
  | cons entry rest ih =>
    obtain ⟨k, b⟩ := entry
    simp only [keys, List.map_cons, List.mem_cons, not_or] at h
    have hk : ¬ k = key := fun e => h.1 e.symm
    simp only [put, hk, if_false, List.cons_append]
    rw [ih h.2]

theorem not_mem_keys_of_lookup {key : Text} {entries : List (Text × α)}
    (h : lookup key entries = none) : key ∉ keys entries := by
  induction entries with
  | nil => exact List.not_mem_nil
  | cons entry rest ih =>
    obtain ⟨k, b⟩ := entry
    by_cases hk : k = key
    . simp [lookup, hk] at h
    . simp only [lookup, hk, if_false] at h
      simp only [keys, List.map_cons, List.mem_cons, not_or]
      exact ⟨fun e => hk e.symm, ih h⟩

theorem exists_split {key : Text} {a : α} {entries : List (Text × α)}
    (nodup : (keys entries).Nodup) (h : lookup key entries = some a) :
    ∃ front back, entries = front ++ (key, a) :: back ∧
      entries.filter (fun entry => entry.1 ≠ key) = front ++ back ∧
      ∀ b, put key b entries = front ++ (key, b) :: back := by
  induction entries with
  | nil => cases h
  | cons entry rest ih =>
    obtain ⟨k, b⟩ := entry
    simp only [keys, List.map_cons, List.nodup_cons] at nodup
    by_cases hk : k = key
    . simp only [lookup, hk, if_true, Option.some.injEq] at h
      subst hk h
      refine ⟨[], rest, rfl, ?_, fun b => by simp [put]⟩
      have hrest : rest.filter (fun entry => entry.1 ≠ k) = rest := by
        rw [List.filter_eq_self]
        rintro ⟨other, c⟩ hmem
        rw [decide_eq_true_eq]
        rintro rfl
        exact nodup.1 (List.mem_map_of_mem hmem)
      simpa using hrest
    . simp only [lookup, hk, if_false] at h
      obtain ⟨front, back, hsplit, hfilter, hput⟩ := ih nodup.2 h
      refine ⟨(k, b) :: front, back, by rw [hsplit, List.cons_append], ?_, ?_⟩
      . rw [List.filter_cons_of_pos (by simpa using hk), hfilter, List.cons_append]
      . intro c
        simp only [put, hk, if_false, hput, List.cons_append]

theorem ofPairs_eq_self {pairs : List (Text × α)} (nodup : (keys pairs).Nodup) :
    ofPairs pairs = pairs := by
  have hfoldl (rest front : List (Text × α)) (nodup : (keys (front ++ rest)).Nodup) :
      rest.foldl (fun entries pair => put pair.1 pair.2 entries) front = front ++ rest := by
    induction rest generalizing front with
    | nil => simp
    | cons pair rest ih =>
      obtain ⟨key, a⟩ := pair
      have hfresh : key ∉ keys front := by
        rw [keys, List.map_append, List.nodup_append] at nodup
        exact fun hmem => nodup.2.2 key hmem key (by simp) rfl
      simp only [List.foldl_cons]
      rw [put_of_not_mem hfresh, ih, List.append_assoc, List.singleton_append]
      rwa [List.append_assoc, List.singleton_append]
  exact hfoldl pairs [] nodup

end Entries

namespace Collection

variable {α : Type}

@[simp]
theorem get?_empty (key : Text) : (empty : Collection α).get? key = none := rfl

theorem mem_entries_iff {c : Collection α} {key : Text} {a : α} :
    (key, a) ∈ c.entries ↔ c.get? key = some a :=
  ⟨Entries.lookup_of_mem c.nodup, Entries.mem_of_lookup⟩

theorem mem_values_iff {c : Collection α} {a : α} :
    a ∈ c.values ↔ ∃ key, c.get? key = some a := by
  simp only [values, List.mem_map, ← mem_entries_iff]
  constructor
  . rintro ⟨⟨key, b⟩, hmem, rfl⟩
    exact ⟨key, hmem⟩
  . rintro ⟨key, hmem⟩
    exact ⟨(key, a), hmem, rfl⟩

theorem contains_iff {c : Collection α} {key : Text} :
    c.contains key = true ↔ ∃ a, c.get? key = some a := by
  rw [contains, Option.isSome_iff_exists]

theorem contains_eq_false_iff {c : Collection α} {key : Text} :
    c.contains key = false ↔ c.get? key = none := by
  rw [contains]
  cases c.get? key <;> simp

theorem get?_insert (c : Collection α) (key other : Text) (a : α) :
    (c.insert key a).get? other = if other = key then some a else c.get? other := by
  by_cases h : other = key
  . rw [h, get?_insert_self, if_pos rfl]
  . rw [get?_insert_of_ne c a h, if_neg h]

theorem get?_erase (c : Collection α) (key other : Text) :
    (c.erase key).get? other = if other = key then none else c.get? other := by
  have h := Entries.lookup_filter (fun k => decide (k ≠ key)) other c.entries
  by_cases hk : other = key
  . simpa [erase, get?, hk] using h
  . simpa [erase, get?, hk] using h

theorem contains_insert (c : Collection α) (key other : Text) (a : α) :
    (c.insert key a).contains other = (decide (other = key) || c.contains other) := by
  rw [contains, get?_insert]
  by_cases h : other = key
  . simp [h]
  . simp [h, contains]

theorem values_insert_of_get?_eq_none {c : Collection α} {key : Text} (h : c.get? key = none)
    (a : α) : (c.insert key a).values = c.values ++ [a] := by
  have hput := Entries.put_of_not_mem (a := a) (Entries.not_mem_keys_of_lookup h)
  simp only [values, insert, hput, List.map_append, List.map_cons, List.map_nil]

theorem exists_values_split {c : Collection α} {key : Text} {a : α} (h : c.get? key = some a) :
    ∃ front back, c.values = front ++ a :: back ∧ (c.erase key).values = front ++ back ∧
      ∀ b, (c.insert key b).values = front ++ b :: back := by
  obtain ⟨front, back, hsplit, hfilter, hput⟩ := Entries.exists_split c.nodup h
  refine ⟨front.map Prod.snd, back.map Prod.snd, ?_, ?_, fun b => ?_⟩
  . exact (congrArg (List.map Prod.snd) hsplit).trans (by simp)
  . exact (congrArg (List.map Prod.snd) hfilter).trans (by simp)
  . exact (congrArg (List.map Prod.snd) (hput b)).trans (by simp)

theorem mem_or_get?_of_foldl {pairs : List (Text × α)} {c : Collection α} {key : Text} {a : α}
    (h : (pairs.foldl (fun c (key, a) => c.insert key a) c).get? key = some a) :
    (key, a) ∈ pairs ∨ c.get? key = some a := by
  induction pairs generalizing c with
  | nil => exact .inr h
  | cons pair rest ih =>
    obtain ⟨k, b⟩ := pair
    rcases ih h with hmem | hget
    . exact .inl (List.mem_cons_of_mem _ hmem)
    . rw [get?_insert] at hget
      split at hget
      . next hk =>
        cases hget
        exact .inl (by simp [hk])
      . exact .inr hget

theorem mem_of_get?_ofPairs {pairs : List (Text × α)} {key : Text} {a : α}
    (h : (ofPairs pairs).get? key = some a) : (key, a) ∈ pairs := by
  rcases mem_or_get?_of_foldl h with hmem | hget
  . exact hmem
  . simp at hget

theorem contains_foldl_iff {pairs : List (Text × α)} {c : Collection α} {key : Text} :
    (pairs.foldl (fun c (key, a) => c.insert key a) c).contains key = true ↔
      c.contains key = true ∨ ∃ a, (key, a) ∈ pairs := by
  induction pairs generalizing c with
  | nil => simp
  | cons pair rest ih =>
    rw [List.foldl_cons, ih, contains_insert]
    simp only [Bool.or_eq_true, decide_eq_true_eq, List.mem_cons]
    constructor
    . rintro ((heq | hold) | ⟨a, hmem⟩)
      . exact .inr ⟨pair.2, .inl (by rw [heq])⟩
      . exact .inl hold
      . exact .inr ⟨a, .inr hmem⟩
    . rintro (hold | ⟨a, rfl | hmem⟩)
      . exact .inl (.inr hold)
      . exact .inl (.inl rfl)
      . exact .inr ⟨a, hmem⟩

theorem contains_ofPairs_iff {pairs : List (Text × α)} {key : Text} :
    (ofPairs pairs).contains key = true ↔ ∃ a, (key, a) ∈ pairs := by
  rw [ofPairs, contains_foldl_iff, contains, get?_empty]
  simp

theorem entries_ofPairs_eq (pairs : List (Text × α)) :
    (ofPairs pairs).entries = Entries.ofPairs pairs := by
  have hfoldl (c : Collection α) : (pairs.foldl (fun c (key, a) => c.insert key a) c).entries =
      pairs.foldl (fun entries (key, a) => Entries.put key a entries) c.entries := by
    induction pairs generalizing c with
    | nil => rfl
    | cons pair rest ih => exact ih (c.insert pair.1 pair.2)
  exact hfoldl empty

theorem entries_ofPairs {pairs : List (Text × α)} (nodup : (pairs.map Prod.fst).Nodup) :
    (ofPairs pairs).entries = pairs := by
  rw [entries_ofPairs_eq, Entries.ofPairs_eq_self nodup]

end Collection

end PageBinding
