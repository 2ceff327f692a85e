/-!
This module contains how deeply what the library does may nest before the interpreter that runs it
gives up. One limit is assumed for all callers, however deep in calls they are themselves.
-/

namespace PageBinding

/--
How deeply expressions may nest, and how many publications may be under way inside of one another.
-/
class Limits where
  maxDepth : Nat
  maxDepth_pos : 0 < maxDepth
  maxPublications : Nat
  maxPublications_pos : 0 < maxPublications

theorem Limits.exists_maxDepth_eq [Limits] : ∃ room, maxDepth = room + 1 :=
  Nat.exists_eq_add_one.2 maxDepth_pos

theorem Limits.exists_maxPublications_eq [Limits] : ∃ fuel, maxPublications = fuel + 1 :=
  Nat.exists_eq_add_one.2 maxPublications_pos

instance Limits.default : Limits where
  maxDepth := 200
  maxDepth_pos := by decide
  maxPublications := 200
  maxPublications_pos := by decide

end PageBinding
