import PageBinding.Text.Width

/-!
This module contains the clusters of a text: what is drawn together and cannot be cut.
-/

namespace PageBinding

/--
Code points that are drawn together, and how many cells they take.
-/
structure Cluster where
  text : Text
  width : Nat
  deriving DecidableEq, Repr

namespace Cluster

def extend (cluster : Cluster) (text : Text) (width : Nat) : Cluster :=
  ⟨cluster.text ++ text, cluster.width + width⟩

/--
The longest beginning of clusters that takes a given number of cells. The half of a wide cluster
becomes a blank.
-/
def beginning (room : Nat) (clusters : List Cluster) : Text :=
  match clusters with
  | [] => []
  | cluster :: rest =>
    if cluster.width ≤ room then cluster.text ++ beginning (room - cluster.width) rest
    else if room = 0 then []
    else " "

end Cluster

namespace Text

/--
The clusters of a text that goes on after a cluster has begun. The sign is the one that a selector
would widen.
-/
def clustersAfter (cluster : Cluster) (sign : Option CodePoint) (t : Text) : List Cluster :=
  match t with
  | [] => [cluster]
  | c :: rest =>
    if c.isJoiner then
      match rest with
      | [] => [cluster.extend [c] 0]
      | d :: rest => clustersAfter (cluster.extend [c, d] 0) sign rest
    else if c.isPictographSelector then
      if sign.any (·.liesIn CodePoint.widening) then clustersAfter (cluster.extend [c] 1) none rest
      else clustersAfter (cluster.extend [c] 0) sign rest
    else if c.width = 0 then clustersAfter (cluster.extend [c] 0) sign rest
    else cluster :: clustersAfter ⟨[c], c.width⟩ (some c) rest

def clusters (t : Text) : List Cluster :=
  match t with
  | [] => []
  | c :: rest => clustersAfter ⟨[c], c.width⟩ (if c.width = 0 then none else some c) rest

end Text

end PageBinding
