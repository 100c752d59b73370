/-!
Who reads whom. Nodes keep the order in which they came, the nodes that one reads keep the order of
their keys, and both orders decide where a walk goes first, so the same graph always gives the same
order or the same cycle.
-/

namespace PageBuilder

universe u

variable {Key : Type u} [DecidableEq Key] [Ord Key]

structure ReadGraph (Key : Type u) where
  /-- Each node with the nodes that it reads. -/
  nodes : List (Key × List Key)

/-- A way from `node` back to itself; `path` starts and ends with it. -/
structure ReadCycle (Key : Type u) where
  node : Key
  path : List Key
  deriving DecidableEq

/-- A cycle as it is told, with labels for its nodes. -/
def ReadCycle.labelled (label : Key → String) (cycle : ReadCycle Key) : ReadCycle String :=
  ⟨label cycle.node, cycle.path.map label⟩

def ReadCycle.message (label : Key → String) (cycle : ReadCycle Key) : String :=
  let path := " -> ".intercalate (cycle.path.map label)
  s!"Dependency cycle at {label cycle.node}: {path}"

namespace ReadGraph

def empty : ReadGraph Key := ⟨[]⟩

def keys (graph : ReadGraph Key) : List Key := graph.nodes.map Prod.fst

def has (graph : ReadGraph Key) (key : Key) : Bool := key ∈ graph.keys

/-- A node that is there already keeps its place. -/
def addNode (graph : ReadGraph Key) (key : Key) : ReadGraph Key :=
  if graph.has key then graph else ⟨graph.nodes ++ [(key, [])]⟩

def insertKey (key : Key) : List Key → List Key
  | [] => [key]
  | first :: rest =>
      match compare key first with
      | .lt => key :: first :: rest
      | .eq => first :: rest
      | .gt => first :: insertKey key rest

def addRead (graph : ReadGraph Key) (reader read : Key) : ReadGraph Key :=
  let graph := (graph.addNode reader).addNode read
  ⟨graph.nodes.map fun node =>
    if node.1 = reader then (node.1, insertKey read node.2) else node⟩

def reads (graph : ReadGraph Key) (key : Key) : List Key :=
  match graph.nodes.find? fun node => node.1 = key with
  | some node => node.2
  | none => []

/-- From `node` along the nodes being visited back to it. These are listed newest first. -/
def cycleAt (visiting : List Key) (node : Key) : ReadCycle Key :=
  ⟨node, node :: (visiting.takeWhile (· ≠ node)).reverse ++ [node]⟩

/-- Appends to `done` what `node` reads and then `node`. The nodes being visited are distinct, so
one more step than there are nodes is fuel enough. -/
def visit (graph : ReadGraph Key) (visiting : List Key) :
    Nat → List Key → Key → Except (ReadCycle Key) (List Key)
  | 0, _, node => .error (cycleAt visiting node)
  | fuel + 1, done, node =>
      if node ∈ visiting then .error (cycleAt visiting node)
      else if node ∈ done then .ok done
      else do
        let done ← (graph.reads node).foldlM (visit graph (node :: visiting) fuel) done
        .ok (done ++ [node])

def order (graph : ReadGraph Key) : Except (ReadCycle Key) (List Key) :=
  graph.keys.foldlM (visit graph [] (graph.nodes.length + 1)) []

end ReadGraph

end PageBuilder
