/-!
The order in which the unknowns of a symmetric system are eliminated. Eliminating an unknown ties all those together
that it was tied to, so it is always the turn of one that is tied to few others. Unknowns that are tied to the same
others form a group and are eliminated together.
-/

namespace GraduatedFit

namespace Elimination

inductive Stage
  | waiting
  | tying
  | closed
  deriving DecidableEq

/-- A group of unknowns. An eliminated one ties its members together as long as it is not superfluous. -/
structure Node where
  stage : Stage
  /-- The number of unknowns in the group; zero once they have joined another one. -/
  weight : Nat
  /-- The eliminated groups that tie it to others. -/
  ties : List Nat
  /-- The groups it is tied to directly or, once it is eliminated, the groups that it ties together. -/
  members : List Nat
  /-- A bound on the number of unknowns outside of it that it is tied to. -/
  degree : Nat
  /-- The number of unknowns that took part in its elimination. -/
  front : Nat
  /-- The group it has joined, or whose elimination has made it superfluous. -/
  parent : Option Nat

instance : Inhabited Node := ⟨⟨.closed, 0, [], [], 0, 0, none⟩⟩

/-- The groups, those that wait with the latest first, the number of unknowns in them, the number of unknowns that are
left to the end, and the work of what is eliminated. -/
structure GroupGraph where
  nodes : Array Node
  waiting : List Nat
  left : Nat
  dense : Nat
  work : Nat

/-- Twice the number of divisions and multiplications that the elimination of `count` unknowns takes, of which the last
is tied to `others` unknowns and each one before it to one more. -/
def workOf (count others : Nat) : Nat :=
  (List.range count).foldl (fun sum k => sum + (others + k) * (others + k + 3)) 0

/-- An unknown that is tied to this many of `n` others is left to the end. -/
def isDense (n degree : Nat) : Bool := 16 < degree && 100 * n < degree * degree

def Node.start (n : Nat) (neighbours : List Nat) : Node :=
  let degree := neighbours.length
  if degree = 0 then ⟨.closed, 1, [], [], 0, 1, none⟩
  else if isDense n degree then ⟨.closed, 0, [], [], degree, 0, none⟩
  else ⟨.waiting, 1, [], neighbours, degree, 0, none⟩

def rotate : List Nat → List Nat
  | [] => []
  | x :: xs => xs ++ [x]

namespace GroupGraph

def node (g : GroupGraph) (i : Nat) : Node := g.nodes.getD i default

def isWaiting (g : GroupGraph) (i : Nat) : Bool := (g.node i).stage == .waiting

def update (g : GroupGraph) (i : Nat) (change : Node → Node) : GroupGraph := { g with nodes := g.nodes.modify i change }

/-- Every unknown is a group of its own, tied to its neighbours. -/
def start (neighbours : List (List Nat)) : GroupGraph :=
  let nodes := neighbours.map (Node.start neighbours.length)
  let waiting := (List.range neighbours.length).filter fun i => (nodes[i]?).any (·.stage == .waiting)
  let dense := nodes.countP (·.weight = 0)
  ⟨nodes.toArray, waiting.reverse, waiting.length, dense, workOf dense 0⟩

def weightOf (g : GroupGraph) (members : List Nat) : Nat := members.foldl (fun sum i => sum + (g.node i).weight) 0

/-- The first of the waiting groups of least degree. -/
def choose (g : GroupGraph) : Option Nat :=
  g.waiting.foldl (fun best i =>
    match best with
    | none => some i
    | some j => if (g.node i).degree < (g.node j).degree then some i else best) none

/-- The waiting groups that a group is tied to. -/
def tiedTo (g : GroupGraph) (pivot : Nat) : List Nat :=
  let node := g.node pivot
  let tied := node.ties.flatMap (fun e => (g.node e).members) ++ node.members
  (tied.filter fun i => i ≠ pivot && g.isWaiting i).eraseDups

/-- For each eliminated group, how many of the unknowns that it ties together are among the given ones. -/
def shared (g : GroupGraph) (members : List Nat) : Array Nat :=
  members.foldl (fun counts i =>
    (g.node i).ties.foldl (fun counts e => counts.modify e (· + (g.node i).weight)) counts)
    (Array.replicate g.nodes.size 0)

/-- An eliminated group whose ties are all among those of the pivot. -/
def close (pivot : Nat) (g : GroupGraph) (e : Nat) : GroupGraph :=
  g.update e fun node => { node with stage := .closed, parent := some pivot }

/-- A member of the pivot with its ties brought up to date. One without ties to others is eliminated together with the
pivot. -/
def tighten (pivot : Nat) (members : List Nat) (shared : Array Nat) (g : GroupGraph) (i : Nat) : GroupGraph :=
  let node := g.node i
  let outside (e : Nat) : Nat := (g.node e).degree - shared.getD e 0
  let ties := node.ties.filter fun e => (g.node e).stage == .tying && outside e ≠ 0
  let direct := node.members.filter fun j => j ≠ pivot && g.isWaiting j && !members.contains j
  if ties.isEmpty && direct.isEmpty then
    (g.update i fun node => { node with stage := .closed, weight := 0, parent := some pivot }).update pivot
      fun node => { node with weight := node.weight + (g.node i).weight }
  else
    let degree := ties.foldl (fun sum e => sum + outside e) (g.weightOf direct)
    g.update i fun node =>
      { node with ties := pivot :: rotate ties, members := rotate direct, degree := min node.degree degree }

/-- What a group is tied to apart from the pivot, in a form that does not depend on an order. -/
def tiesBesides (g : GroupGraph) (i : Nat) : Nat × List Nat :=
  let node := g.node i
  (node.ties.length, (node.ties.tail ++ node.members).mergeSort)

/-- A group joins the first of the given ones that has the same ties, or is given itself from now on. -/
def join (progress : GroupGraph × List Nat) (i : Nat) : GroupGraph × List Nat :=
  let (g, groups) := progress
  match groups.find? fun j => g.tiesBesides j == g.tiesBesides i with
  | none => (g, groups ++ [i])
  | some j =>
    ((g.update j fun node => { node with weight := node.weight + (g.node i).weight }).update i
      fun node => { node with stage := .closed, weight := 0, parent := some j }, groups)

/-- The graph after the elimination of a group. -/
def eliminate (g : GroupGraph) (pivot : Nat) : GroupGraph :=
  let members := g.tiedTo pivot
  let front := (g.node pivot).weight + g.weightOf members
  let waiting := g.waiting.filter fun i => i ≠ pivot && !members.contains i
  let g := (g.node pivot).ties.foldl (close pivot) (g.update pivot fun node => { node with stage := .tying })
  let shared := g.shared members
  let superfluous := (members.flatMap fun i => (g.node i).ties).filter fun e =>
    (g.node e).stage == .tying && (g.node e).degree ≤ shared.getD e 0
  let g := members.foldl (tighten pivot members shared) g
  let g := superfluous.foldl (close pivot) g
  let g := ((members.filter g.isWaiting).reverse.foldl join (g, [])).1
  let members := members.filter g.isWaiting
  let degree := g.weightOf members
  let left := g.left - (g.node pivot).weight
  let g := members.foldl (fun g i => g.update i fun node =>
    { node with degree := min (node.degree + degree - node.weight) (left - node.weight) }) g
  let g := g.update pivot fun node =>
    { node with stage := if members.isEmpty then .closed else .tying, members, degree, front }
  { g with
    waiting := members.reverse ++ waiting
    left
    work := g.work + workOf (g.node pivot).weight (degree + g.dense) }

def eliminateAll : Nat → GroupGraph → GroupGraph
  | 0, g => g
  | steps + 1, g =>
    match g.choose with
    | none => g
    | some pivot => eliminateAll steps (g.eliminate pivot)

/-- The group in which an unknown was eliminated, if it was not left to the end. -/
def groupOf (g : GroupGraph) : Nat → Nat → Option Nat
  | 0, _ => none
  | steps + 1, i => if 0 < (g.node i).weight then some i else (g.node i).parent.bind (groupOf g steps)

/-- The groups that a group has made superfluous; one whose elimination involved most comes last. -/
def children (g : GroupGraph) (e : Nat) : List Nat :=
  let all := (List.range g.nodes.size).filter fun f => 0 < (g.node f).weight && (g.node f).parent == some e
  let largest := all.foldl (fun best f =>
    match best with
    | none => some f
    | some b => if (g.node b).front ≤ (g.node f).front then some f else best) none
  all.filter (some · != largest) ++ largest.toList

def postorder (g : GroupGraph) : Nat → Nat → List Nat
  | 0, e => [e]
  | depth + 1, e => (g.children e).flatMap (postorder g depth) ++ [e]

/-- The unknowns in the order of their elimination, those left to the end last. -/
def sequence (g : GroupGraph) : List Nat :=
  let n := g.nodes.size
  let indices := List.range n
  let roots := indices.filter fun i => 0 < (g.node i).weight && (g.node i).parent.isNone
  let joined := (indices.filter fun i => (g.node i).weight = 0).map fun i => (i, g.groupOf n i)
  (roots.flatMap (g.postorder n)).flatMap (fun e => (joined.filter (·.2 == some e)).map (·.1) ++ [e]) ++
    (joined.filter (·.2.isNone)).map (·.1)

/-- The graph after the elimination of all unknowns but those left to the end. -/
def ofNeighbours (neighbours : List (List Nat)) : GroupGraph := (start neighbours).eliminateAll neighbours.length

/-- The first `n` unknowns as they come in the sequence of their elimination. -/
def order (n : Nat) (g : GroupGraph) : List Nat :=
  let ranks := g.sequence.zipIdx.foldl (fun ranks (i, rank) => ranks.setIfInBounds i rank) (Array.replicate n 0)
  (List.range n).mergeSort fun i j => ranks.getD i 0 ≤ ranks.getD j 0

/-- Every unknown has its turn once. -/
theorem order_perm (n : Nat) (g : GroupGraph) : (g.order n).Perm (List.range n) := List.mergeSort_perm _ _

end GroupGraph

end Elimination

end GraduatedFit
