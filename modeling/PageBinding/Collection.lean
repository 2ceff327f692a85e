import PageBinding.Entries

/-!
This module contains collections: values under distinct keys, in order of insertion.
-/

namespace PageBinding

structure Collection (α : Type) where
  entries : List (Text × α)
  nodup : (Entries.keys entries).Nodup

namespace Collection

variable {α : Type}

def empty : Collection α :=
  ⟨[], List.nodup_nil⟩

instance : Inhabited (Collection α) := ⟨empty⟩

def get? (c : Collection α) (key : Text) : Option α :=
  Entries.lookup key c.entries

def contains (c : Collection α) (key : Text) : Bool :=
  (c.get? key).isSome

def keys (c : Collection α) : List Text :=
  Entries.keys c.entries

def values (c : Collection α) : List α :=
  c.entries.map Prod.snd

def size (c : Collection α) : Nat :=
  c.entries.length

/--
Put a value under a key. A key that is there already keeps its place.
-/
def insert (c : Collection α) (key : Text) (a : α) : Collection α :=
  ⟨Entries.put key a c.entries, Entries.nodup_keys_put c.nodup⟩

def erase (c : Collection α) (key : Text) : Collection α :=
  ⟨c.entries.filter fun entry => entry.1 ≠ key,
    c.nodup.sublist (List.Sublist.map Prod.fst List.filter_sublist)⟩

def ofPairs (pairs : List (Text × α)) : Collection α :=
  pairs.foldl (fun c (key, a) => c.insert key a) empty

theorem mem_keys_of_get? {c : Collection α} {key : Text} {a : α} (h : c.get? key = some a) :
    key ∈ c.keys :=
  Entries.mem_keys_of_lookup h

theorem get?_insert_self (c : Collection α) (key : Text) (a : α) :
    (c.insert key a).get? key = some a :=
  Entries.lookup_put_self key a c.entries

theorem get?_insert_of_ne (c : Collection α) {key other : Text} (a : α) (h : other ≠ key) :
    (c.insert key a).get? other = c.get? other :=
  Entries.lookup_put_of_ne a c.entries h

end Collection

end PageBinding
