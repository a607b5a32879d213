import Ue4Background.LuaValues

/-!
The path search (`lualib/astar.lua`) over any map handler. `pairs` may enumerate a table
in any order, so the search is given a list of the entries for each use of `pairs`, in an
order that may depend on the use. A run of the main loop is bounded by its fuel.
-/

namespace Ue4Background.AStar

open LuaValues

/-- `Node`: the search never changes a node once its handler has made it. -/
structure Node (Loc : Type) where
  location : Loc
  mCost : ℤ
  lid : ℤ
  score : ℤ
  parent : Option (Node Loc)

structure Path (Loc : Type) where
  nodes : List (Node Loc)
  totalCost : ℤ

/-- What `AStar` asks of its map handler. -/
structure MapHandler (Loc : Type) where
  getNode : Loc → Option (Node Loc)
  getAdjacentNodes : Node Loc → Loc → List (Node Loc)
  locationsAreEqual : Loc → Loc → Bool

structure Search (Loc : Type) where
  opened : Table ℤ (Node Loc)
  closed : Table ℤ ℤ

/-- How `findPath` ends; `fault` if it indexes a nil parent. -/
inductive Outcome (Loc : Type)
  | outOfFuel
  | fault
  | notFound
  | found (path : Path Loc)

variable {Loc : Type}

def openNodes (st : Search Loc) : List (Node Loc) := st.opened.entries.map Sigma.snd

/-- One turn of the loop of `_getBestOpenNode`. -/
def better : Option (Node Loc) → Node Loc → Option (Node Loc)
  | none, n => some n
  | some bestNode, n => if n.score ≤ bestNode.score then some n else some bestNode

def getBestOpenNode (nodes : List (Node Loc)) : Option (Node Loc) := nodes.foldl better none

/-- The loop of `_tracePath`, which leaves the start out. -/
def traceLoop : Node Loc → List (Node Loc) → List (Node Loc)
  | ⟨_, _, _, _, none⟩, nodes => nodes
  | ⟨location, mCost, lid, score, some p⟩, nodes =>
    traceLoop p (⟨location, mCost, lid, score, some p⟩ :: nodes)
termination_by structural n => n

def tracePath (n : Node Loc) : Outcome Loc :=
  match n.parent with
  | none => .fault
  | some p => .found ⟨traceLoop p [n], n.mCost⟩

/-- The loop of `_handleNode`, with the node that ends the search if there is one. -/
def handleNodes (mh : MapHandler Loc) (goal : Loc) (st : Search Loc) :
    List (Node Loc) → Search Loc × Option (Node Loc)
  | [] => (st, none)
  | n :: rest =>
    if mh.locationsAreEqual n.location goal then (st, some n)
    else if (st.closed.lookup n.lid).isSome then handleNodes mh goal st rest
    else
      match st.opened.lookup n.lid with
      | some on =>
        if n.mCost < on.mCost then
          handleNodes mh goal { st with opened := (st.opened.erase n.lid).insert n.lid n } rest
        else handleNodes mh goal st rest
      | none => handleNodes mh goal { st with opened := st.opened.insert n.lid n } rest

/-- The node moves from the open to the closed table. -/
def Search.close (st : Search Loc) (node : Node Loc) : Search Loc where
  opened := st.opened.erase node.lid
  closed := st.closed.insert node.lid node.lid

def handleNode (mh : MapHandler Loc) (pairs : List (Node Loc) → List (Node Loc))
    (st : Search Loc) (node : Node Loc) (goal : Loc) : Search Loc × Option (Node Loc) :=
  handleNodes mh goal (st.close node) (pairs (mh.getAdjacentNodes node goal))

/-- The main loop of `findPath` in its turn `k`. -/
def findLoop (mh : MapHandler Loc) (pairs : Pairs ℕ (Node Loc)) (goal : Loc) :
    ℕ → ℕ → Search Loc → Node Loc → Outcome Loc
  | 0, _, _, _ => .outOfFuel
  | fuel + 1, k, st, nextNode =>
    match handleNode mh (pairs.order (2 * k)) st nextNode goal with
    | (_, some finish) => tracePath finish
    | (st', none) =>
      match getBestOpenNode (pairs.order (2 * k + 1) (openNodes st')) with
      | none => .notFound
      | some n => findLoop mh pairs goal fuel (k + 1) st' n

def findPath (mh : MapHandler Loc) (pairs : Pairs ℕ (Node Loc)) (fuel : ℕ)
    (fromlocation tolocation : Loc) : Outcome Loc :=
  match mh.getNode fromlocation with
  | none => .notFound
  | some fnode =>
    findLoop mh pairs tolocation fuel 0 ⟨AList.singleton fnode.lid fnode, ∅⟩ fnode

end Ue4Background.AStar
