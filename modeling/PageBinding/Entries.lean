import PageBinding.Text

/-!
This module contains lists of entries under keys, in order of insertion. Putting a value under a key
that is there already keeps the place of the key.
-/

namespace PageBinding

namespace Entries

variable {α : Type}

def lookup (key : Text) (entries : List (Text × α)) : Option α :=
  match entries with
  | [] => none
  | (k, a) :: rest => if k = key then some a else lookup key rest

/--
Put a value under a key: in place of the value under that key, or at the end.
-/
def put (key : Text) (a : α) (entries : List (Text × α)) : List (Text × α) :=
  match entries with
  | [] => [(key, a)]
  | (k, b) :: rest => if k = key then (k, a) :: rest else (k, b) :: put key a rest

def ofPairs (pairs : List (Text × α)) : List (Text × α) :=
  pairs.foldl (fun entries (key, a) => put key a entries) []

def keys (entries : List (Text × α)) : List Text :=
  entries.map Prod.fst

theorem keys_put (key : Text) (a : α) (entries : List (Text × α)) :
    keys (put key a entries) =
      if key ∈ keys entries then keys entries else keys entries ++ [key] := by
  induction entries with
  | nil => simp [put, keys]
  | cons entry rest ih =>
    obtain ⟨k, b⟩ := entry
    simp only [keys] at ih ⊢
    by_cases h : k = key
    . simp [put, h]
    . have h' : ¬ key = k := fun e => h e.symm
      by_cases hmem : key ∈ rest.map Prod.fst
      . simp [put, h, ih, hmem]
      . simp [put, h, h', ih, hmem]

theorem nodup_keys_put {key : Text} {a : α} {entries : List (Text × α)}
    (h : (keys entries).Nodup) : (keys (put key a entries)).Nodup := by
  rw [keys_put]
  split
  . exact h
  . rename_i hmem
    rw [List.nodup_append]
    refine ⟨h, by simp, ?_⟩
    intro x hx y hy e
    simp only [List.mem_singleton] at hy
    subst e hy
    exact hmem hx

theorem mem_keys_of_lookup {key : Text} {a : α} {entries : List (Text × α)}
    (h : lookup key entries = some a) : key ∈ keys entries := by
  induction entries with
  | nil => simp [lookup] at h
  | cons entry rest ih =>
    obtain ⟨k, b⟩ := entry
    by_cases hk : k = key
    . simp [keys, hk]
    . simp only [lookup, hk, if_false] at h
      exact List.mem_cons_of_mem _ (ih h)

theorem lookup_put_self (key : Text) (a : α) (entries : List (Text × α)) :
    lookup key (put key a entries) = some a := by
  induction entries with
  | nil => simp [put, lookup]
  | cons entry rest ih =>
    obtain ⟨k, b⟩ := entry
    by_cases h : k = key
    . simp [put, lookup, h]
    . simp [put, lookup, h, ih]

theorem lookup_put_of_ne {key other : Text} (a : α) (entries : List (Text × α))
    (h : other ≠ key) : lookup other (put key a entries) = lookup other entries := by
  induction entries with
  | nil => simp [put, lookup, Ne.symm h]
  | cons entry rest ih =>
    obtain ⟨k, b⟩ := entry
    by_cases hk : k = key
    . subst hk
      simp [put, lookup, Ne.symm h]
    . simp [put, lookup, hk, ih]

end Entries

end PageBinding
