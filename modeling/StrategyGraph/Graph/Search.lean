/-!
# Searching a graph

A graph is given by the list of its vertices and a function that lists the neighbours of each.

* `rounds` finds the vertices that can be reached from a list of starts, round by round: those of
  the first round are starts, and each further round holds the new neighbours of the round before;
* `search` lists the vertices of all rounds, the nearest first;
* `cycle?` looks for a vertex that can be reached from itself.

A round enters at least one vertex that was not entered before, so there are at most as many rounds
as vertices.
-/

namespace StrategyGraph.Search

variable {α : Type} [BEq α]

/-- At most `count` rounds. `unseen` are the vertices that no earlier round holds, and `frontier`
are those that may be in the next one. -/
def rounds (next : α → List α) (count : Nat) (unseen frontier : List α) : List (List α) :=
  match count with
  | 0 => []
  | n + 1 =>
    let found := (frontier.filter unseen.contains).eraseDups
    if found.isEmpty then []
    else found :: rounds next n (unseen.filter fun v => !found.contains v) (found.flatMap next)

/-- The vertices that can be reached from the starts, each once, the nearest first. -/
def search (next : α → List α) (vertices starts : List α) : List α :=
  (rounds next vertices.length vertices starts).flatten

/-- Enters a vertex and all that can be reached from it through vertices not entered before, at most
`depth` steps away. `path` leads to the vertex, and `fresh` are the vertices not entered. The result
is what stays fresh, or a neighbour that lies on the path. -/
def enter (next : α → List α) (depth : Nat) (path fresh : List α) (v : α) : Except α (List α) :=
  match depth with
  | 0 => .ok fresh
  | n + 1 =>
    (next v).foldlM
      (fun fresh w =>
        if (v :: path).contains w then .error w
        else if fresh.contains w then enter next n (v :: path) fresh w
        else .ok fresh)
      (fresh.erase v)

/-- A vertex on a cycle, if there is a cycle: the first one that a depth-first search from each
vertex in turn comes back to. -/
def cycle? (next : α → List α) (vertices : List α) : Option α :=
  let visit := fun fresh v =>
    if fresh.contains v then enter next vertices.length [] fresh v else .ok fresh
  match vertices.foldlM visit vertices with
  | .error v => some v
  | .ok _ => none

end StrategyGraph.Search
