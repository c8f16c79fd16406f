import Ironet.Routing.Snapshot
import Ironet.Support.Parents

/-!
# Candidate paths

Model of the path search of `protocol/v2/routing.rs`. The graph maps every node to its healthy
links, a node without an entry to the empty list, which is how the source reads its map. The binary
heap is a sorted list and the nodes already visited are a list, latest first. The search pops at
most one entry per push, so it is run for a number of turns that its caller counts from the links;
`SearchV2.Explores.run` says when they suffice, and that the search misses nothing.

What the rest of the development needs of a path is that it is simple, follows links and transits
only nodes that allow it. This comes from the order in which nodes are visited alone: a node's
parent is visited before the node and does not change afterwards. The costs play no part in it.
-/
namespace Ironet.Routing
open Support Ironet.Mesh List Function

abbrev NodeIdV2 := Key32

structure DirectedLinkV2 where
  peer : NodeIdV2
  adjacency : AdjacencyIdV2
  cost : UInt32
  maximumDatagramSize : UInt16
  deriving DecidableEq, Repr

abbrev GraphV2 := NodeIdV2 → List DirectedLinkV2

def directedLinkV2 (graph : GraphV2) (source target : NodeIdV2) : Except String DirectedLinkV2 :=
  match (graph source).find? fun edge => edge.peer = target with
  | some edge => .ok edge
  | none => .error "V2 compiled path references an absent healthy link"

/-! ### The search -/

structure SearchV2 where
  distance : NodeIdV2 → Option Nat
  previous : NodeIdV2 → Option NodeIdV2
  visited : List NodeIdV2
  pending : List (ℕ ×ₗ NodeIdV2)

namespace SearchV2

def start (source : NodeIdV2) : SearchV2 where
  distance := Function.update (fun _ => none) source (some 0)
  previous := fun _ => none
  visited := []
  pending := [toLex (0, source)]

def replaces (state : SearchV2) (current peer : NodeIdV2) (candidate : Nat) : Bool :=
  match state.distance peer with
  | none => true
  | some existing =>
    candidate < existing ∨
      (candidate = existing ∧ ∀ oldPrevious ∈ state.previous peer, current < oldPrevious)

def relax (excluded : Option NodeIdV2) (current : NodeIdV2) (currentCost : Nat) (state : SearchV2)
    (edge : DirectedLinkV2) : SearchV2 :=
  if some edge.peer = excluded ∨ edge.peer ∈ state.visited then state
  else
    let candidate := min u64Max (currentCost + edge.cost.toNat)
    if state.replaces current edge.peer candidate then
      { state with
        distance := Function.update state.distance edge.peer (some candidate)
        previous := Function.update state.previous edge.peer (some current)
        pending := state.pending.orderedInsert (· ≤ ·) (toLex (candidate, edge.peer)) }
    else state

def enter (state : SearchV2) (current : NodeIdV2) : SearchV2 :=
  { state with visited := current :: state.visited }

/-- The loop over the heap. -/
def run (source destination : NodeIdV2) (excluded : Option NodeIdV2) (graph : GraphV2)
    (transitNodes : List NodeIdV2) : Nat → SearchV2 → SearchV2
  | 0, state => state
  | turns + 1, state =>
    match state.pending with
    | [] => state
    | entry :: pending =>
      let currentCost := (ofLex entry).1
      let current := (ofLex entry).2
      let popped := { state with pending }
      if some current = excluded ∨ state.distance current ≠ some currentCost then
        run source destination excluded graph transitNodes turns popped
      else if current ∈ state.visited then
        run source destination excluded graph transitNodes turns popped
      else if current = destination then popped.enter current
      else if current ≠ source ∧ current ∉ transitNodes then
        run source destination excluded graph transitNodes turns (popped.enter current)
      else
        run source destination excluded graph transitNodes turns
          ((graph current).foldl (relax excluded current currentCost) (popped.enter current))

end SearchV2

def shortestPathExcludingV2 (turns : Nat) (source destination : NodeIdV2)
    (excluded : Option NodeIdV2) (graph : GraphV2) (transitNodes : List NodeIdV2) :
    Option (List NodeIdV2) :=
  let state := SearchV2.run source destination excluded graph transitNodes turns (.start source)
  if state.distance destination = none then none
  else walkBack state.previous source (state.visited.length + 1) destination []

/-- The cost of a path, where a missing link counts as the largest cost. -/
def pathCost (graph : GraphV2) (path : List NodeIdV2) : Nat :=
  (windows path).foldl (fun total hop =>
    min u64Max (total + match directedLinkV2 graph hop.1 hop.2 with
      | .ok link => link.cost.toNat
      | .error _ => u64Max)) 0

/-- One path per usable first hop. -/
def firstHopPath (turns : Nat) (source destination : NodeIdV2) (graph : GraphV2)
    (transitNodes : List NodeIdV2) (edge : DirectedLinkV2) : Option (List NodeIdV2) :=
  if edge.peer = destination then some [source, destination]
  else if edge.peer ∈ transitNodes then
    (shortestPathExcludingV2 turns edge.peer destination (some source) graph transitNodes).map
      fun tail => source :: tail
  else none

def candidatePathsV2 (turns : Nat) (source destination : NodeIdV2) (graph : GraphV2)
    (transitNodes : List NodeIdV2) : List (List NodeIdV2) :=
  let candidates :=
    (graph source).filterMap (firstHopPath turns source destination graph transitNodes)
  (sortByKey (fun path => toLex (pathCost graph path, path)) candidates).take maxCandidateRoutes

/-! ### What the search keeps -/

variable {state : SearchV2}

namespace SearchV2

variable {source destination : NodeIdV2} {excluded : Option NodeIdV2} {graph : GraphV2}
  {transitNodes : List NodeIdV2}

/-- The table of parents leads back to the source over links of nodes that were expanded. -/
structure Sound (source destination : NodeIdV2) (excluded : Option NodeIdV2) (graph : GraphV2)
    (transitNodes : List NodeIdV2) (state : SearchV2) : Prop where
  entered : Entered state.previous source state.visited
  known : ∀ node cost, state.distance node = some cost →
    node = source ∨ ∃ parent ∈ state.visited, state.previous node = some parent
  allowed : ∀ node cost, state.distance node = some cost → some node ≠ excluded
  reached : ∀ node ∈ state.visited, ∃ cost, state.distance node = some cost
  linked : ∀ node parent, state.previous node = some parent →
    (∃ edge ∈ graph parent, edge.peer = node) ∧ (parent = source ∨ parent ∈ transitNodes) ∧
      parent ≠ destination

theorem sound_start (allowed : some source ≠ excluded) :
    Sound source destination excluded graph transitNodes (start source) where
  entered := trivial
  known node cost found := by
    by_cases isSource : node = source
    · exact .inl isSource
    · simp [start, update_of_ne isSource] at found
  allowed node cost found := by
    by_cases isSource : node = source
    · exact isSource ▸ allowed
    · simp [start, update_of_ne isSource] at found
  reached node member := by cases member
  linked node parent found := by cases found

variable {current : NodeIdV2}

section
variable (sound : Sound source destination excluded graph transitNodes state)
include sound

theorem Sound.enter {cost : Nat} (found : state.distance current = some cost)
    (fresh : current ∉ state.visited) :
    Sound source destination excluded graph transitNodes (state.enter current) where
  entered := ⟨fresh, sound.known current cost found, sound.entered⟩
  known node cost found := by
    refine (sound.known node cost found).imp_right ?_
    rintro ⟨parent, member, from'⟩
    exact ⟨parent, mem_cons_of_mem _ member, from'⟩
  allowed := sound.allowed
  reached node member := by
    rcases mem_cons.mp member with rfl | old
    · exact ⟨cost, found⟩
    · exact sound.reached node old
  linked := sound.linked

theorem Sound.relax (member : current ∈ state.visited)
    (expanded : current = source ∨ current ∈ transitNodes) (onward : current ≠ destination)
    (cost : Nat) {edge : DirectedLinkV2} (isEdge : edge ∈ graph current) :
    Sound source destination excluded graph transitNodes
      (state.relax excluded current cost edge) := by
  unfold SearchV2.relax
  split
  · exact sound
  rename_i usable
  rw [not_or] at usable
  obtain ⟨notExcluded, unvisited⟩ := usable
  dsimp only
  split
  · constructor
    · -- parents of visited nodes stay as they are
      refine sound.entered.congr fun node old => ?_
      have other : node ≠ edge.peer := by
        rintro rfl
        exact unvisited old
      exact update_of_ne other _ _
    · intro node found known
      by_cases same : node = edge.peer
      · subst same
        exact .inr ⟨current, member, update_self _ _ _⟩
      · dsimp only at known ⊢
        rw [update_of_ne same] at known ⊢
        exact sound.known node found known
    · intro node found known
      by_cases same : node = edge.peer
      · rw [same]
        exact notExcluded
      · dsimp only at known
        rw [update_of_ne same] at known
        exact sound.allowed node found known
    · intro node old
      have other : node ≠ edge.peer := by
        rintro rfl
        exact unvisited old
      dsimp only
      rw [update_of_ne other]
      exact sound.reached node old
    intro node parent from'
    dsimp only at from'
    by_cases same : node = edge.peer
    · subst same
      rw [update_self] at from'
      obtain rfl := Option.some.inj from'
      exact ⟨⟨edge, isEdge, rfl⟩, expanded, onward⟩
    · rw [update_of_ne same] at from'
      exact sound.linked node parent from'
  · exact sound

end

@[simp] theorem relax_visited (excluded : Option NodeIdV2) (current : NodeIdV2) (cost : Nat)
    (state : SearchV2) (edge : DirectedLinkV2) :
    (state.relax excluded current cost edge).visited = state.visited := by
  unfold relax
  split
  · rfl
  · dsimp only
    split <;> rfl

theorem Sound.foldl_relax
    (expanded : current = source ∨ current ∈ transitNodes) (onward : current ≠ destination)
    (cost : Nat) {edges : List DirectedLinkV2} (areEdges : ∀ edge ∈ edges, edge ∈ graph current)
    (sound : Sound source destination excluded graph transitNodes state)
    (member : current ∈ state.visited) : Sound source destination excluded graph transitNodes
      (edges.foldl (SearchV2.relax excluded current cost) state) := by
  induction edges generalizing state with
  | nil => exact sound
  | cons edge rest ih =>
    rw [forall_mem_cons] at areEdges
    refine ih areEdges.2 (sound.relax member expanded onward cost areEdges.1) ?_
    rw [relax_visited]
    exact member

theorem Sound.run (turns : Nat)
    (sound : Sound source destination excluded graph transitNodes state) :
    Sound source destination excluded graph transitNodes
      (SearchV2.run source destination excluded graph transitNodes turns state) := by
  induction turns generalizing state with
  | zero => exact sound
  | succ turns ih =>
  unfold SearchV2.run
  split
  · exact sound
  rename_i entry pending isPending
  -- the heap is no part of the invariant
  have popped : Sound source destination excluded graph transitNodes { state with pending } :=
    { sound with }
  dsimp only
  split_ifs with stale again isDestination blocked
  · exact ih popped
  · exact ih popped
  · rw [not_or, not_not] at stale
    exact popped.enter stale.2 again
  · rw [not_or, not_not] at stale
    exact ih (popped.enter stale.2 again)
  · rw [not_or, not_not] at stale
    rw [not_and_or, not_not, not_not] at blocked
    exact ih (Sound.foldl_relax blocked isDestination _ (fun _ => id)
      (popped.enter stale.2 again) mem_cons_self)

/-! ### The search ends

A turn takes one entry from the heap, and adds at most one per edge of a node that it visits for the
first time.
-/

/-- The entries of the heap and the edges of all nodes still to be visited. -/
def work (nodes : Finset NodeIdV2) (graph : GraphV2) (state : SearchV2) : Nat :=
  state.pending.length + ∑ node ∈ nodes with node ∉ state.visited, (graph node).length

variable (nodes : Finset NodeIdV2)

theorem work_relax (graph : GraphV2) (excluded : Option NodeIdV2) (current : NodeIdV2)
    (cost : Nat) (state : SearchV2) (edge : DirectedLinkV2) :
    work nodes graph (state.relax excluded current cost edge) ≤ work nodes graph state + 1 := by
  unfold relax
  split
  · omega
  dsimp only
  split
  · simp only [work, orderedInsert_length]
    omega
  · omega

theorem work_foldl_relax (graph : GraphV2) (excluded : Option NodeIdV2) (current : NodeIdV2)
    (cost : Nat) (edges : List DirectedLinkV2) (state : SearchV2) :
    work nodes graph (edges.foldl (relax excluded current cost) state) ≤
      work nodes graph state + edges.length := by
  induction edges generalizing state with
  | nil => simp
  | cons edge rest ih =>
    have first := work_relax nodes graph excluded current cost state edge
    have later := ih (state.relax excluded current cost edge)
    rw [foldl_cons, length_cons]
    omega

/-- A node that is visited for the first time takes its edges out of the work ahead. -/
theorem work_enter {nodes : Finset NodeIdV2} (state : SearchV2)
    (covered : current ∉ nodes → graph current = []) (fresh : current ∉ state.visited) :
    work nodes graph (state.enter current) + (graph current).length = work nodes graph state := by
  have split : nodes.filter (· ∉ (state.enter current).visited) =
      (nodes.filter (· ∉ state.visited)).erase current := by
    ext node
    simp only [enter, Finset.mem_filter, Finset.mem_erase, mem_cons, not_or]
    tauto
  rw [work, work, split, enter, Nat.add_assoc]
  by_cases member : current ∈ nodes
  · rw [Finset.sum_erase_add _ _ (Finset.mem_filter.mpr ⟨member, fresh⟩)]
  · rw [Finset.sum_erase _ (by rw [covered member]; rfl), covered member]
    rfl

/-! ### The search misses nothing -/

/-- A known node waits in the heap or was visited, and the edges of a visited node end at known
nodes, apart from those edges that are left to be looked at. -/
structure Explores (source destination : NodeIdV2) (excluded : Option NodeIdV2) (graph : GraphV2)
    (transitNodes : List NodeIdV2) (left : List DirectedLinkV2) (state : SearchV2) : Prop where
  root : state.distance source ≠ none
  waits : ∀ node cost, state.distance node = some cost →
    some node = excluded ∨ node ∈ state.visited ∨ toLex (cost, node) ∈ state.pending
  known : ∀ node ∈ state.visited, state.distance node ≠ none
  leads : ∀ node ∈ state.visited, node ≠ destination → node = source ∨ node ∈ transitNodes →
    ∀ edge ∈ graph node, some edge.peer = excluded ∨ state.distance edge.peer ≠ none ∨ edge ∈ left

theorem explores_start :
    Explores source destination excluded graph transitNodes [] (start source) := by
  constructor <;> simp [start, update_apply]

theorem Explores.relax {edge : DirectedLinkV2} {rest : List DirectedLinkV2} (cost : Nat)
    (explores : Explores source destination excluded graph transitNodes (edge :: rest) state) :
    Explores source destination excluded graph transitNodes rest
      (state.relax excluded current cost edge) := by
  obtain ⟨root, waits, known, leads⟩ := explores
  unfold SearchV2.relax
  split
  · constructor <;> grind
  dsimp only
  split
  · constructor <;> simp only [update_apply, mem_orderedInsert] <;> grind
  · rename_i kept
    have isKnown : state.distance edge.peer ≠ none := by
      intro unknown
      simp [replaces, unknown] at kept
    constructor <;> grind

theorem Explores.foldl_relax {edges : List DirectedLinkV2} (cost : Nat)
    (explores : Explores source destination excluded graph transitNodes edges state) :
    Explores source destination excluded graph transitNodes []
      (edges.foldl (SearchV2.relax excluded current cost) state) := by
  induction edges generalizing state with
  | nil => exact explores
  | cons edge rest ih => exact ih (explores.relax cost)

/-- The loop over the heap is over. -/
def Ended (destination : NodeIdV2) (state : SearchV2) : Prop :=
  state.pending = [] ∨ destination ∈ state.visited

/-- As many turns as there is work are enough. -/
theorem Explores.run {turns : Nat} (covered : ∀ node ∉ nodes, graph node = [])
    (enough : work nodes graph state ≤ turns)
    (explores : Explores source destination excluded graph transitNodes [] state) :
    let final := SearchV2.run source destination excluded graph transitNodes turns state
    Explores source destination excluded graph transitNodes [] final ∧ final.Ended destination := by
  induction turns generalizing state with
  | zero =>
    refine ⟨explores, .inl (eq_nil_of_length_eq_zero ?_)⟩
    simp only [work] at enough
    simp only [SearchV2.run]
    omega
  | succ turns ih =>
  unfold SearchV2.run
  cases isPending : state.pending with
  | nil => exact ⟨explores, .inl isPending⟩
  | cons entry pending =>
  obtain ⟨root, waits, known, leads⟩ := explores
  simp only [isPending, mem_cons] at waits
  have shorter : work nodes graph { state with pending } ≤ turns := by
    simp only [work, isPending, length_cons] at enough ⊢
    omega
  have entering := work_enter { state with pending } (covered (ofLex entry).2)
  dsimp only
  split_ifs with stale again isDestination blocked
  -- a stale entry is not the one its node waits under, and a visited node waits no more
  · apply ih shorter
    constructor <;> grind [ofLex_toLex]
  · apply ih shorter
    constructor <;> grind [ofLex_toLex]
  · refine ⟨?_, .inr (isDestination ▸ mem_cons_self)⟩
    constructor <;> grind [enter, ofLex_toLex]
  · apply ih (by grind)
    constructor <;> grind [enter, ofLex_toLex]
  · have relaxing := work_foldl_relax nodes graph excluded (ofLex entry).2 (ofLex entry).1
      (graph (ofLex entry).2) (enter { state with pending } (ofLex entry).2)
    apply ih (by grind)
    -- all edges of the entered node are left, and the loop looks at each of them
    apply Explores.foldl_relax
    constructor <;> grind [enter, ofLex_toLex]

end SearchV2

/-! ### The paths -/

/-- A simple path over links whose inner nodes allow transit. -/
structure UsablePath (graph : GraphV2) (transitNodes : List NodeIdV2)
    (source destination : NodeIdV2)
    (path : List NodeIdV2) : Prop where
  nodup : path.Nodup
  first : path.head? = some source
  last : path.getLast? = some destination
  linked : path.IsChain fun node next => ∃ edge ∈ graph node, edge.peer = next
  transits : ∀ node ∈ path, node ≠ source → node ≠ destination → node ∈ transitNodes

variable {turns : Nat} {source destination : NodeIdV2} {graph : GraphV2}
  {transitNodes path : List NodeIdV2}

variable {excluded : Option NodeIdV2}

theorem SearchV2.Sound.usable (sound : Sound source destination excluded graph transitNodes state)
    {visited way : List NodeIdV2} (isWay : IsWay state.previous source destination visited way) :
    UsablePath graph transitNodes source destination way where
  nodup := isWay.nodup
  first := isWay.first
  last := isWay.last
  linked := isWay.linked.imp fun node next from' => (sound.linked next node from').1
  transits node member notSource notDestination := by
    have inner : way.getLast? ≠ some node := by
      rw [isWay.last]
      exact fun same => notDestination (Option.some.inj same).symm
    obtain ⟨next, -, from'⟩ := exists_next_of_isChain isWay.linked member inner
    exact (sound.linked next node from').2.1.resolve_left notSource

/-- Behind the search every usable way leads from known nodes to known ones. -/
theorem SearchV2.Explores.reaches
    (explores : Explores source destination excluded graph transitNodes [] state)
    (empty : state.pending = [])
    (linked : path.IsChain fun node next => ∃ edge ∈ graph node, edge.peer = next)
    (usable : ∀ node ∈ path, some node ≠ excluded ∧
      (node = source ∨ node = destination ∨ node ∈ transitNodes))
    (known : ∀ node ∈ path.head?, state.distance node ≠ none)
    (last : path.getLast? = some destination) : state.distance destination ≠ none := by
  induction path with
  | nil => cases last
  | cons node rest ih =>
  by_cases isLast : node = destination
  · exact isLast ▸ known node rfl
  obtain ⟨allowed, open'⟩ := usable node mem_cons_self
  obtain ⟨cost, isKnown⟩ := Option.ne_none_iff_exists'.mp (known node rfl)
  have visited : node ∈ state.visited := by
    simpa [allowed, empty] using explores.waits node cost isKnown
  have leads := explores.leads node visited isLast (by tauto)
  rw [isChain_cons] at linked
  refine ih linked.2 (forall_mem_cons.mp usable).2 ?_ (by grind)
  intro next isNext
  obtain ⟨edge, isEdge, rfl⟩ := linked.1 next isNext
  have onward := usable edge.peer (mem_cons_of_mem _ (mem_of_mem_head? isNext))
  simpa [onward.1] using leads edge isEdge

theorem SearchV2.Sound.walks (sound : Sound source destination excluded graph transitNodes state)
    (known : state.distance destination ≠ none) :
    (walkBack state.previous source (state.visited.length + 1) destination []).isSome := by
  obtain ⟨cost, known⟩ := Option.ne_none_iff_exists'.mp known
  by_cases visited : destination ∈ state.visited
  · obtain ⟨way, walked, -⟩ := walkBack_of_entered sound.entered visited (Nat.le_succ _) []
    exact Option.isSome_of_eq_some walked
  · obtain ⟨way, walked, -⟩ :=
      walkBack_of_entered (sound.enter known visited).entered mem_cons_self le_rfl []
    exact Option.isSome_of_eq_some walked

theorem shortestPath_usable (allowed : some source ≠ excluded)
    (found : shortestPathExcludingV2 turns source destination excluded graph transitNodes =
      some path) :
    UsablePath graph transitNodes source destination path ∧
      ∀ node ∈ path, some node ≠ excluded := by
  have sound : SearchV2.Sound source destination excluded graph transitNodes
      (SearchV2.run source destination excluded graph transitNodes turns (.start source)) :=
    (SearchV2.sound_start allowed).run turns
  unfold shortestPathExcludingV2 at found
  generalize SearchV2.run source destination excluded graph transitNodes turns (.start source) =
    state at sound found
  dsimp only at found
  split at found
  · cases found
  rename_i isKnown
  obtain ⟨cost, known⟩ := Option.ne_none_iff_exists'.mp isKnown
  -- a destination that was reached but not visited is the next node to visit
  obtain ⟨visited, entered, member, short, isReached⟩ : ∃ visited,
      Entered state.previous source visited ∧ destination ∈ visited ∧
        visited.length ≤ state.visited.length + 1 ∧
          ∀ node ∈ visited, ∃ cost, state.distance node = some cost := by
    by_cases isVisited : destination ∈ state.visited
    · exact ⟨_, sound.entered, isVisited, Nat.le_succ _, sound.reached⟩
    · have next := sound.enter known isVisited
      exact ⟨_, next.entered, mem_cons_self, le_rfl, next.reached⟩
  obtain ⟨way, walked, isWay⟩ := walkBack_of_entered entered member short []
  rw [walked, append_nil, Option.some.injEq] at found
  subst found
  refine ⟨sound.usable isWay, fun node onWay => ?_⟩
  obtain ⟨cost, reached⟩ := isReached node (isWay.entered node onWay)
  exact sound.allowed node cost reached

/-- Every candidate is a usable path, provided that no node links to itself. -/
theorem candidatePaths_usable (different : source ≠ destination)
    (loopless : ∀ edge ∈ graph source, edge.peer ≠ source)
    (candidate : path ∈ candidatePathsV2 turns source destination graph transitNodes) :
    UsablePath graph transitNodes source destination path := by
  have found := mem_sortByKey.mp (mem_of_mem_take candidate)
  rw [mem_filterMap] at found
  obtain ⟨edge, isEdge, found⟩ := found
  unfold firstHopPath at found
  split at found
  · rename_i direct
    obtain rfl := Option.some.inj found
    constructor
    · simpa using different
    · rfl
    · rfl
    · exact isChain_pair.mpr ⟨edge, isEdge, direct⟩
    · simp
  split at found
  · rename_i isTransit
    rw [Option.map_eq_some_iff] at found
    obtain ⟨tail, shortest, rfl⟩ := found
    obtain ⟨usable, avoids⟩ := shortestPath_usable
      (by simpa using loopless edge isEdge) shortest
    constructor
    · refine nodup_cons.mpr ⟨fun member => avoids source member rfl, usable.nodup⟩
    · rfl
    · rw [getLast?_cons, usable.last]
      rfl
    · refine isChain_cons.mpr ⟨?_, usable.linked⟩
      intro next isNext
      rw [usable.first] at isNext
      exact ⟨edge, isEdge, Option.some.inj isNext⟩
    intro node member notSource notDestination
    have inTail := (mem_cons.mp member).resolve_left notSource
    -- the first hop was checked to allow transit
    by_cases isFirst : node = edge.peer
    · exact isFirst ▸ isTransit
    · exact usable.transits node inTail isFirst notDestination
  · cases found

end Ironet.Routing
