import Mathlib.Data.List.Nodup
import TensorInference.Proofs.Graph.Ending

/-!
# Positions of nodes

Nodes are known by their positions.  The next node goes behind the others, so positions are handed
out in order, starting from zero, and none is handed out twice.  Since nodes are never changed or
removed, a position means the same node for good, and the first node with a name stays the first.

A graph has at most `NodeId.capacity` nodes.  So 32 bits hold the position of every node and the
number of nodes too: the graph cuts these numbers to 32 bits without changing them, and taking a
position for a node cannot fail.  A graph with that many nodes is full: whatever is added to it is
refused.

* `next?_eq_ofNat?`, `find?_eq_bind_ofNat?` --- cutting to 32 bits changes nothing.
* `size_le_of_reachable` --- graphs do not outgrow their positions.
* `extends_run`, `find?_eq_some_iff`, `find?_of_extends` --- what is found stays where it was found.
* `map_toNat_added` --- the positions that a history hands out.
* `positions_stable` --- the main result.
-/

namespace TensorInference

/-- The position that a call answers. -/
def Answer.added? : Answer → Option NodeId
  | added id => some id
  | refused _ | invalid _ | done => none

theorem NodeId.exists_ofNat?_of_lt {n : Nat} (h : n < capacity) :
    ∃ id, ofNat? n = some id ∧ id.toNat = n :=
  ⟨⟨n, h⟩, dif_pos h, rfl⟩

theorem NodeId.ofNat?_eq_none_iff {n : Nat} : ofNat? n = none ↔ capacity ≤ n := by
  rw [← Option.not_isSome_iff_eq_none, ofNat?_isSome_iff, Nat.not_lt]

namespace Graph

variable {g g' : Graph}

/-! ## The next position -/

/-- Cutting the number of nodes to 32 bits does no harm. -/
theorem next?_eq_ofNat? (hg : g.size ≤ NodeId.capacity) : g.next? = NodeId.ofNat? g.size :=
  NodeId.ofUInt32?_ofNat hg

theorem toNat_of_next? (hg : g.size ≤ NodeId.capacity) {id : NodeId} (hid : g.next? = some id) :
    id.toNat = g.size := by
  rw [next?_eq_ofNat? hg] at hid
  exact NodeId.toNat_of_ofNat? hid

/-- There is a next position unless all of them are taken. -/
theorem next?_eq_none_iff (hg : g.size ≤ NodeId.capacity) :
    g.next? = none ↔ g.size = NodeId.capacity := by
  rw [next?_eq_ofNat? hg, NodeId.ofNat?_eq_none_iff]
  omega

/-! ## Growth -/

theorem Extends.trans {g'' : Graph} (h : g.Extends g') (h' : g'.Extends g'') : g.Extends g'' :=
  fun position node hnode => h' position node (h position node hnode)

/-- A history lets the graph grow. -/
theorem extends_run (g : Graph) (calls : List Call) : g.Extends (g.run calls).1 := by
  induction calls generalizing g with
  | nil => exact fun _ _ hnode => hnode
  | cons call calls ih => exact (g.extends_call call).trans (ih (g.call call).graph)

theorem size_new_le (level : DiagnosticLevel) : (new level).size ≤ NodeId.capacity :=
  Nat.zero_le _

theorem size_le_call (g : Graph) (call : Call) (h : g.size ≤ NodeId.capacity) :
    (g.call call).graph.size ≤ NodeId.capacity := by
  rcases g.call_cases call with ⟨id, node, -, hid, -, hnodes⟩ | ⟨-, hnodes⟩
  · have hlt : g.size < NodeId.capacity := by
      rw [← toNat_of_next? h hid]
      exact id.toNat_lt
    rw [size, hnodes, Array.size_push]
    exact hlt
  · rw [size, hnodes]
    exact h

/-- A graph has no more nodes than there are positions. -/
theorem size_le_of_reachable (hg : g.Reachable) : g.size ≤ NodeId.capacity :=
  hg.invariant (P := fun g => g.size ≤ NodeId.capacity) size_new_le
    fun call h => size_le_call _ call h

/-! ## Searching -/

theorem node?_eq_some_iff {id : NodeId} {node : Node} :
    g.node? id = some node ↔ ∃ h : id.toNat < g.size, g.nodes[id.toNat] = node :=
  Array.getElem?_eq_some_iff

theorem findIdx?_eq_some_iff {name : String} {position : Nat} :
    g.nodes.findIdx? (fun node => node.name == name) = some position ↔
      (∃ node, g.nodes[position]? = some node ∧ node.name = name) ∧
        ∀ j node, g.nodes[j]? = some node → node.name = name → position ≤ j := by
  rw [Array.findIdx?_eq_some_iff_getElem]
  constructor
  · rintro ⟨hlt, hname, hbefore⟩
    refine ⟨⟨_, Array.getElem?_eq_getElem hlt, by simpa using hname⟩, ?_⟩
    intro j node hnode hnode'
    obtain ⟨hj, rfl⟩ := Array.getElem?_eq_some_iff.1 hnode
    refine Nat.le_of_not_lt fun hjlt => hbefore j hjlt ?_
    simpa using hnode'
  · rintro ⟨⟨node, hnode, hname⟩, hbefore⟩
    obtain ⟨hlt, rfl⟩ := Array.getElem?_eq_some_iff.1 hnode
    refine ⟨hlt, by simpa using hname, fun j hjlt hj => ?_⟩
    have hle := hbefore j _ (Array.getElem?_eq_getElem (Nat.lt_trans hjlt hlt)) (by simpa using hj)
    omega

/-- Cutting the position that is found to 32 bits does no harm. -/
theorem find?_eq_bind_ofNat? (hg : g.size ≤ NodeId.capacity) (name : String) :
    g.find? name = (g.nodes.findIdx? fun node => node.name == name).bind NodeId.ofNat? := by
  rw [find?]
  cases hfound : g.nodes.findIdx? fun node => node.name == name with
  | none => rfl
  | some position =>
    obtain ⟨hlt, -, -⟩ := Array.findIdx?_eq_some_iff_getElem.1 hfound
    exact NodeId.ofUInt32?_ofNat (Nat.le_trans (Nat.le_of_lt hlt) hg)

/-- A search ends with the first node that has the name. -/
theorem find?_eq_some_iff (hg : g.size ≤ NodeId.capacity) {name : String} {id : NodeId} :
    g.find? name = some id ↔ (∃ node, g.node? id = some node ∧ node.name = name) ∧
      ∀ id' node, g.node? id' = some node → node.name = name → id.toNat ≤ id'.toNat := by
  rw [find?_eq_bind_ofNat? hg, Option.bind_eq_some_iff]
  constructor
  · rintro ⟨position, hfound, hid⟩
    obtain rfl := NodeId.toNat_of_ofNat? hid
    obtain ⟨hnode, hfirst⟩ := findIdx?_eq_some_iff.1 hfound
    exact ⟨hnode, fun id' node hnode' => hfirst id'.toNat node hnode'⟩
  · rintro ⟨hnode, hfirst⟩
    have hbefore : ∀ j node, g.nodes[j]? = some node → node.name = name → id.toNat ≤ j := by
      intro j node hj hname
      obtain ⟨hlt, -⟩ := Array.getElem?_eq_some_iff.1 hj
      exact hfirst ⟨j, Nat.lt_of_lt_of_le hlt hg⟩ node hj hname
    exact ⟨id.toNat, findIdx?_eq_some_iff.2 ⟨hnode, hbefore⟩, NodeId.ofNat?_toNat id⟩

/-- A search fails for want of a node with the name, and for nothing else. -/
theorem find?_eq_none_iff (hg : g.size ≤ NodeId.capacity) {name : String} :
    g.find? name = none ↔ ∀ id node, g.node? id = some node → node.name ≠ name := by
  have hsearch : g.find? name = none ↔ g.nodes.findIdx? (fun node => node.name == name) = none := by
    rw [find?_eq_bind_ofNat? hg, Option.bind_eq_none_iff, Option.eq_none_iff_forall_ne_some]
    refine forall_congr' fun position => ?_
    constructor
    · intro hfull hposition
      obtain ⟨hlt, -, -⟩ := Array.findIdx?_eq_some_iff_getElem.1 hposition
      have hle := NodeId.ofNat?_eq_none_iff.1 (hfull hposition)
      exact absurd hlt (Nat.not_lt.2 (Nat.le_trans hg hle))
    · exact fun hposition h => absurd h hposition
  rw [hsearch, Array.findIdx?_eq_none_iff]
  constructor
  · intro hnone id node hnode
    simpa using hnone node (Array.mem_of_getElem? hnode)
  · intro hnone node hnode
    obtain ⟨position, hlt, rfl⟩ := Array.getElem_of_mem hnode
    simpa using hnone ⟨position, Nat.lt_of_lt_of_le hlt hg⟩ _ (node?_eq_some_iff.2 ⟨hlt, rfl⟩)

/-- The first node with a name stays the first, since new nodes go behind the others. -/
theorem find?_of_extends (hg : g.size ≤ NodeId.capacity) (hg' : g'.size ≤ NodeId.capacity)
    (h : g.Extends g') {name : String} {id : NodeId} (hfound : g.find? name = some id) :
    g'.find? name = some id := by
  obtain ⟨⟨node, hnode, hname⟩, hfirst⟩ := (find?_eq_some_iff hg).1 hfound
  refine (find?_eq_some_iff hg').2 ⟨⟨node, h id.toNat node hnode, hname⟩, ?_⟩
  intro id' node' hnode' hname'
  refine Nat.le_of_not_lt fun hlt => ?_
  -- A node before the first would be a node of the smaller graph.
  obtain ⟨hsize, -⟩ := node?_eq_some_iff.1 hnode
  obtain ⟨old, hold⟩ : ∃ old, g.node? id' = some old :=
    ⟨_, node?_eq_some_iff.2 ⟨Nat.lt_trans hlt hsize, rfl⟩⟩
  have hkept : g'.node? id' = some old := h id'.toNat old hold
  obtain rfl := Option.some.inj (hnode'.symm.trans hkept)
  exact absurd (hfirst id' node' hold hname') (Nat.not_le.2 hlt)

/-- The listing shows every node under its position. -/
theorem mem_entries_iff (hg : g.size ≤ NodeId.capacity) {position : Nat} {node : Node} :
    (position, node) ∈ g.entries ↔
      ∃ id, NodeId.ofNat? position = some id ∧ g.node? id = some node := by
  have hcut {position : Nat} (hlt : position < g.nodes.size) :
      (UInt32.ofNat position).toNat = position :=
    NodeId.toNat_ofNat_of_le_capacity (Nat.le_trans (Nat.le_of_lt hlt) hg)
  have hmem : (position, node) ∈ g.entries ↔ g.nodes[position]? = some node := by
    rw [entries, List.mem_map]
    constructor
    · rintro ⟨⟨node', position'⟩, hnode, heq⟩
      cases heq
      rw [List.mem_zipIdx_iff_getElem?, Array.getElem?_toList] at hnode
      obtain ⟨hlt, -⟩ := Array.getElem?_eq_some_iff.1 hnode
      rw [hcut hlt]
      exact hnode
    · intro hnode
      obtain ⟨hlt, -⟩ := Array.getElem?_eq_some_iff.1 hnode
      refine ⟨(node, position), ?_, Prod.ext (hcut hlt) rfl⟩
      rw [List.mem_zipIdx_iff_getElem?, Array.getElem?_toList]
      exact hnode
  rw [hmem]
  constructor
  · intro hnode
    obtain ⟨hlt, -⟩ := Array.getElem?_eq_some_iff.1 hnode
    obtain ⟨id, hid, rfl⟩ := NodeId.exists_ofNat?_of_lt (Nat.lt_of_lt_of_le hlt hg)
    exact ⟨id, hid, hnode⟩
  · rintro ⟨id, hid, hnode⟩
    obtain rfl := NodeId.toNat_of_ofNat? hid
    exact hnode

/-! ## Adding -/

/-- An added node stands at the position that is answered, behind all others. -/
theorem exists_of_answer_eq_added (hg : g.size ≤ NodeId.capacity) {call : Call} {id : NodeId}
    (h : (g.call call).answer = .added id) :
    ∃ node, g.Makes call node ∧ id.toNat = g.size ∧
      (g.call call).graph.nodes = g.nodes.push node := by
  rcases g.call_cases call with ⟨id', node, hmakes, hid, hanswer, hnodes⟩ | ⟨hnone, -⟩
  · rw [h, Answer.added.injEq] at hanswer
    subst hanswer
    exact ⟨node, hmakes, toNat_of_next? hg hid, hnodes⟩
  · exact absurd h (hnone id)

/-- The positions that a history hands out follow one another, and there are as many as it adds
nodes. -/
theorem map_toNat_added (hg : g.size ≤ NodeId.capacity) (calls : List Call) :
    ((g.answers calls).filterMap Answer.added?).map NodeId.toNat =
        List.range' g.size ((g.answers calls).filterMap Answer.added?).length ∧
      (g.run calls).1.size = g.size + ((g.answers calls).filterMap Answer.added?).length := by
  induction calls generalizing g with
  | nil => exact ⟨rfl, rfl⟩
  | cons call calls ih =>
    obtain ⟨hpositions, hsize⟩ := ih (size_le_call g call hg)
    rw [answers_cons]
    rcases g.call_cases call with ⟨id, node, -, hid, hanswer, hnodes⟩ | ⟨hnone, hnodes⟩
    · have hnext : (g.call call).graph.size = g.size + 1 := by
        rw [size, hnodes, Array.size_push, size]
      rw [hnext] at hpositions hsize
      rw [hanswer, List.filterMap_cons_some (by rfl), List.map_cons, hpositions, List.length_cons,
        List.range'_succ, toNat_of_next? hg hid]
      exact ⟨rfl, hsize.trans (by omega)⟩
    · have hskip : (g.call call).answer.added? = none := by
        cases hanswer : (g.call call).answer with
        | added id => exact absurd hanswer (hnone id)
        | refused refusal => rfl
        | invalid error => rfl
        | done => rfl
      have hnext : (g.call call).graph.size = g.size := by rw [size, hnodes, size]
      rw [hnext] at hpositions hsize
      rw [List.filterMap_cons_none hskip]
      exact ⟨hpositions, hsize⟩

/-! ## Full graphs -/

/-- A parameter is refused by a full graph only. -/
theorem call_addParameter_eq_full_iff (hg : g.size ≤ NodeId.capacity) {name : String}
    {output : TensorInfo} :
    (g.call (.addParameter name output)).answer = .refused .full ↔ g.size = NodeId.capacity := by
  rw [← next?_eq_none_iff hg]
  constructor
  · intro hanswer
    have hends := g.ends_call (.addParameter name output)
    generalize g.call (.addParameter name output) = step at hends hanswer
    cases hends with
    | parameterAdded hid => cases hanswer
    | parameterFull hid => exact hid
  · intro hid
    rw [(Ends.parameterFull hid).eq_call]

/-- An operator is refused as one too many by a full graph only, after all else is accepted. -/
theorem call_addOperator_eq_full_iff (hg : g.size ≤ NodeId.capacity) {name : String}
    {op : Operator} {inputs : List NodeId} :
    (g.call (.addOperator name op inputs)).answer = .invalid ⟨name, op, .full⟩ ↔
      g.size = NodeId.capacity ∧
        ∃ infos output, inputs.mapM g.output? = some infos ∧ op.infer infos = .ok output := by
  rw [← next?_eq_none_iff hg]
  constructor
  · intro hanswer
    have hends := g.ends_call (.addOperator name op inputs)
    generalize g.call (.addOperator name op inputs) = step at hends hanswer
    cases hends with
    | missing hid => cases hanswer
    | rejected hinfos hinfer => cases hanswer
    | full hinfos hinfer hid => exact ⟨hid, _, _, hinfos, hinfer⟩
    | operatorAdded hinfos hinfer hid => cases hanswer
  · rintro ⟨hid, infos, output, hinfos, hinfer⟩
    rw [(Ends.full hinfos hinfer hid).eq_call]

/-- A full graph keeps the nodes that it has. -/
theorem nodes_call_of_full (hfull : g.size = NodeId.capacity) (call : Call) :
    (g.call call).graph.nodes = g.nodes := by
  rcases g.call_cases call with ⟨id, node, -, hid, -, -⟩ | ⟨-, hnodes⟩
  · rw [(next?_eq_none_iff (Nat.le_of_eq hfull)).2 hfull] at hid
    cases hid
  · exact hnodes

/-- Up to the capacity, graphs of every size can be built. -/
theorem exists_run_size_eq (level : DiagnosticLevel) {n : Nat} (hn : n ≤ NodeId.capacity) :
    ∃ calls, ((new level).run calls).1.size = n := by
  have hgrow (count : Nat) (g : Graph) (hcount : g.size + count ≤ NodeId.capacity) :
      (g.run (List.replicate count (.addParameter "" .dynamic))).1.size = g.size + count := by
    induction count generalizing g with
    | zero => rfl
    | succ count ih =>
      obtain ⟨id, hid⟩ : ∃ id, g.next? = some id := by
        rw [← Option.ne_none_iff_exists', Ne, next?_eq_none_iff (by omega)]
        omega
      have hnext : (g.call (.addParameter "" .dynamic)).graph.size = g.size + 1 := by
        rw [size, (call_addParameter hid).2, Array.size_push, size]
      rw [List.replicate_succ]
      exact (ih _ (by omega)).trans (by omega)
  have hempty : (new level).size = 0 := rfl
  exact ⟨_, (hgrow n (new level) (by omega)).trans (by omega)⟩

/-! ## Main result -/

/-- The positions of a graph can be relied on, now and later. -/
structure PositionsHold (g : Graph) : Prop where
  /-- There are no more nodes than positions, -/
  size_le : g.size ≤ NodeId.capacity
  /-- so neither their number nor a position changes when it is cut to 32 bits. -/
  toNat_ofNat : ∀ n ≤ g.size, (UInt32.ofNat n).toNat = n
  /-- The listing has a position for every node. -/
  listed_iff : ∀ position node, (position, node) ∈ g.entries ↔
    ∃ id, NodeId.ofNat? position = some id ∧ g.node? id = some node
  /-- A search fails only if there is no node with the name. -/
  lost_iff : ∀ name, g.find? name = none ↔ ∀ id node, g.node? id = some node → node.name ≠ name
  /-- Otherwise it ends at the smallest position of such a node. -/
  found_iff : ∀ name id, g.find? name = some id ↔
    (∃ node, g.node? id = some node ∧ node.name = name) ∧
      ∀ id' node, g.node? id' = some node → node.name = name → id.toNat ≤ id'.toNat
  /-- What is found by a position or by a name is found there in every later graph. -/
  kept : ∀ calls,
    (∀ id node, g.node? id = some node →
      (g.run calls).1.node? id = some node ∧ (g.run calls).1.output? id = some node.output) ∧
    ∀ name id, g.find? name = some id → (g.run calls).1.find? name = some id
  /-- A node that is added next stands where the answer says, then and in every later graph. -/
  added : ∀ call id, (g.call call).answer = .added id →
    ∃ node, g.Makes call node ∧ id.toNat = g.size ∧
      (g.call call).graph.nodes = g.nodes.push node ∧
      ∀ calls, ((g.call call).graph.run calls).1.node? id = some node ∧
        ((g.call call).graph.run calls).1.output? id = some node.output
  /-- A parameter is refused exactly when all positions are taken, -/
  parameter_full_iff : ∀ name output,
    (g.call (.addParameter name output)).answer = .refused .full ↔ g.size = NodeId.capacity
  /-- so is an operator with inputs that exist and an output that is inferred, -/
  operator_full_iff : ∀ name op inputs,
    (g.call (.addOperator name op inputs)).answer = .invalid ⟨name, op, .full⟩ ↔
      g.size = NodeId.capacity ∧
        ∃ infos output, inputs.mapM g.output? = some infos ∧ op.infer infos = .ok output
  /-- and then nothing is stored. -/
  full : g.size = NodeId.capacity → ∀ call, (g.call call).graph.nodes = g.nodes

/-- The outputs of kept nodes are kept. -/
theorem node?_run (h : g.Extends g') {id : NodeId} {node : Node} (hnode : g.node? id = some node) :
    g'.node? id = some node ∧ g'.output? id = some node.output := by
  have hkept : g'.node? id = some node := h id.toNat node hnode
  refine ⟨hkept, ?_⟩
  rw [output?, hkept, Option.map_some]

theorem positionsHold_of_reachable (hg : g.Reachable) : g.PositionsHold where
  size_le := size_le_of_reachable hg
  toNat_ofNat n hn :=
    NodeId.toNat_ofNat_of_le_capacity (Nat.le_trans hn (size_le_of_reachable hg))
  listed_iff position node := mem_entries_iff (size_le_of_reachable hg)
  lost_iff name := find?_eq_none_iff (size_le_of_reachable hg)
  found_iff name id := find?_eq_some_iff (size_le_of_reachable hg)
  kept calls := by
    have hsize : (g.run calls).1.size ≤ NodeId.capacity :=
      run_invariant (P := fun g => g.size ≤ NodeId.capacity) (fun call h => size_le_call _ call h)
        (size_le_of_reachable hg) calls
    refine ⟨fun id node hnode => node?_run (g.extends_run calls) hnode, fun name id hfound => ?_⟩
    exact find?_of_extends (size_le_of_reachable hg) hsize (g.extends_run calls) hfound
  added call id hanswer := by
    obtain ⟨node, hmakes, hid, hnodes⟩ := exists_of_answer_eq_added (size_le_of_reachable hg) hanswer
    refine ⟨node, hmakes, hid, hnodes, fun calls => node?_run (extends_run _ calls) ?_⟩
    rw [node?, hnodes, hid, size, Array.getElem?_push_size]
  parameter_full_iff name output := call_addParameter_eq_full_iff (size_le_of_reachable hg)
  operator_full_iff name op inputs := call_addOperator_eq_full_iff (size_le_of_reachable hg)
  full := nodes_call_of_full

/-- **Positions are stable.**  In every graph that can be built positions can be relied on, and those
that were handed out on the way are different from one another: they are the numbers below the number
of nodes, in order.  The most nodes that positions allow can be reached. -/
theorem positions_stable (level : DiagnosticLevel) (calls : List Call) :
    ((new level).run calls).1.PositionsHold ∧
      (((new level).answers calls).filterMap Answer.added?).Nodup ∧
      (((new level).answers calls).filterMap Answer.added?).map NodeId.toNat =
        List.range ((new level).run calls).1.size ∧
      ∃ calls, ((new level).run calls).1.size = NodeId.capacity := by
  have hpositions : (((new level).answers calls).filterMap Answer.added?).map NodeId.toNat =
      List.range ((new level).run calls).1.size := by
    obtain ⟨hmap, hsize⟩ := map_toNat_added (size_new_le level) calls
    have hempty : (new level).size = 0 := rfl
    rw [hempty, Nat.zero_add] at hsize
    rw [hmap, hempty, hsize, List.range_eq_range']
  refine ⟨positionsHold_of_reachable ⟨level, calls, rfl⟩, ?_, hpositions, ?_⟩
  · refine List.Nodup.of_map NodeId.toNat ?_
    rw [hpositions]
    exact List.nodup_range
  · exact exists_run_size_eq level (Nat.le_refl NodeId.capacity)

end Graph

end TensorInference
