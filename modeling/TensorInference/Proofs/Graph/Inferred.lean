import Mathlib.Logic.Relation
import TensorInference.Proofs.Graph.Step
import TensorInference.Proofs.Outcome

/-!
# What a graph stores of its operators

An operator is added with the output that was inferred from its inputs at that time.  Since nodes are
never changed, this stays true however the graph grows: `Inferred` is an invariant of every call,
whether it is carried out or refused.  Inputs stand before the operators that take them, so following
inputs never leads back to where it began.

`Extends` says how a graph grows.  It is all that the invariant needs to know about a call besides
the node that the call makes.

* `extends_call` --- one call lets the graph grow.
* `inferred_call` --- one call preserves the invariant.
* `inferred_of_reachable` --- the main result, for graphs that are built from nothing.
-/

namespace TensorInference.Graph

variable {g g' : Graph}

/-! ## Growth -/

/-- Every node of the first graph is a node of the second, at the same position. -/
def Extends (g g' : Graph) : Prop :=
  ∀ (position : Nat) (node : Node),
    g.nodes[position]? = some node → g'.nodes[position]? = some node

theorem extends_of_nodes_eq (h : g'.nodes = g.nodes) : g.Extends g' := by
  intro position node hnode
  rw [h]
  exact hnode

theorem extends_of_push {node : Node} (h : g'.nodes = g.nodes.push node) : g.Extends g' := by
  intro position old hold
  obtain ⟨hlt, -⟩ := Array.getElem?_eq_some_iff.1 hold
  rw [h, Array.getElem?_push_lt hlt, ← hold, Array.getElem?_eq_getElem hlt]

theorem extends_call (g : Graph) (call : Call) : g.Extends (g.call call).graph := by
  rcases g.call_cases call with ⟨id, node, -, -, -, hnodes⟩ | ⟨-, hnodes⟩
  · exact extends_of_push hnodes
  · exact extends_of_nodes_eq hnodes

/-- What is known of an output is known for good. -/
theorem Extends.output? (h : g.Extends g') {id : NodeId} {info : TensorInfo}
    (hinfo : g.output? id = some info) : g'.output? id = some info := by
  obtain ⟨node, hnode, rfl⟩ := Option.map_eq_some_iff.1 hinfo
  have hnode' : g'.node? id = some node := h id.toNat node hnode
  rw [Graph.output?, hnode', Option.map_some]

/-! ## Inputs -/

/-- The infos of inputs are found when all inputs are nodes. -/
theorem inputInfos_eq_ok_iff {ids : List NodeId} {infos : List TensorInfo} :
    g.inputInfos ids = .ok infos ↔ ids.mapM g.output? = some infos := by
  induction ids generalizing infos with
  | nil => simp [inputInfos]
  | cons id ids ih =>
    rw [inputInfos, List.mapM_cons]
    cases g.output? id with
    | none => simp
    | some info =>
      simp only [Outcome.bind_eq_ok_iff, ih, Option.bind_eq_bind, Option.bind_some,
        Option.bind_eq_some_iff]
      constructor
      · rintro ⟨rest, hrest, hcons⟩
        cases hcons
        exact ⟨rest, hrest, rfl⟩
      · rintro ⟨rest, hrest, hcons⟩
        cases hcons
        exact ⟨rest, hrest, rfl⟩

theorem Extends.mapM_output? (h : g.Extends g') {ids : List NodeId} {infos : List TensorInfo}
    (hinfos : ids.mapM g.output? = some infos) : ids.mapM g'.output? = some infos := by
  induction ids generalizing infos with
  | nil => exact hinfos
  | cons id ids ih =>
    rw [List.mapM_cons] at hinfos ⊢
    obtain ⟨info, hinfo, hrest⟩ := Option.bind_eq_some_iff.1 hinfos
    obtain ⟨rest, hrest, hcons⟩ := Option.bind_eq_some_iff.1 hrest
    rw [h.output? hinfo, ih hrest]
    exact hcons

/-- Inputs whose outputs are known are nodes. -/
theorem forall_lt_size_of_mapM_output? {ids : List NodeId} {infos : List TensorInfo}
    (hinfos : ids.mapM g.output? = some infos) : ∀ id ∈ ids, id.toNat < g.size := by
  induction ids generalizing infos with
  | nil => exact fun id hid => absurd hid List.not_mem_nil
  | cons id ids ih =>
    rw [List.mapM_cons] at hinfos
    obtain ⟨info, hinfo, hrest⟩ := Option.bind_eq_some_iff.1 hinfos
    obtain ⟨rest, hrest, -⟩ := Option.bind_eq_some_iff.1 hrest
    obtain ⟨node, hnode, -⟩ := Option.map_eq_some_iff.1 hinfo
    obtain ⟨hlt, -⟩ := Array.getElem?_eq_some_iff.1 hnode
    rw [List.forall_mem_cons]
    exact ⟨hlt, ih hrest⟩

/-! ## The invariant -/

/-- Operators come after their inputs, and their outputs are inferred from what the graph knows of
these. -/
structure Inferred (g : Graph) : Prop where
  input_lt : ∀ {position : Nat} {name : String} {op : Operator} {inputs : List NodeId}
    {output : TensorInfo}, g.nodes[position]? = some (.operator name op inputs output) →
      ∀ id ∈ inputs, id.toNat < position
  infer_eq : ∀ {position : Nat} {name : String} {op : Operator} {inputs : List NodeId}
    {output : TensorInfo}, g.nodes[position]? = some (.operator name op inputs output) →
      ∃ infos, inputs.mapM g.output? = some infos ∧ op.infer infos = .ok output

theorem inferred_new (level : DiagnosticLevel) : (new level).Inferred := by
  have hnone (position : Nat) (node : Node) : (new level).nodes[position]? ≠ some node := by
    simp [new]
  exact ⟨fun hnode => absurd hnode (hnone _ _), fun hnode => absurd hnode (hnone _ _)⟩

theorem inferred_of_nodes_eq (hg : g.Inferred) (h : g'.nodes = g.nodes) : g'.Inferred := by
  have hextends := extends_of_nodes_eq h
  refine ⟨fun hnode => ?_, fun hnode => ?_⟩
  · rw [h] at hnode
    exact hg.input_lt hnode
  · rw [h] at hnode
    obtain ⟨infos, hinfos, hinfer⟩ := hg.infer_eq hnode
    exact ⟨infos, hextends.mapM_output? hinfos, hinfer⟩

/-- A node behind the others is either one of them or the new one. -/
theorem getElem?_push_eq_some {node node' : Node} {position : Nat}
    (h : (g.nodes.push node)[position]? = some node') :
    g.nodes[position]? = some node' ∨ position = g.size ∧ node' = node := by
  rw [Array.getElem?_push] at h
  split at h
  · next hposition => exact Or.inr ⟨hposition, (Option.some.inj h).symm⟩
  · exact Or.inl h

theorem inferred_of_push (hg : g.Inferred) {call : Call} {node : Node} (hmakes : g.Makes call node)
    (h : g'.nodes = g.nodes.push node) : g'.Inferred := by
  have hextends := extends_of_push h
  refine ⟨fun hnode => ?_, fun hnode => ?_⟩
  · rw [h] at hnode
    rcases getElem?_push_eq_some hnode with hold | ⟨rfl, rfl⟩
    · exact hg.input_lt hold
    · obtain ⟨⟩ | ⟨_, hinfos, -⟩ := hmakes
      exact forall_lt_size_of_mapM_output? (inputInfos_eq_ok_iff.1 hinfos)
  · rw [h] at hnode
    rcases getElem?_push_eq_some hnode with hold | ⟨-, rfl⟩
    · obtain ⟨infos, hinfos, hinfer⟩ := hg.infer_eq hold
      exact ⟨infos, hextends.mapM_output? hinfos, hinfer⟩
    · obtain ⟨⟩ | ⟨_, hinfos, hinfer⟩ := hmakes
      exact ⟨_, hextends.mapM_output? (inputInfos_eq_ok_iff.1 hinfos), hinfer⟩

/-- **One call** preserves the invariant. -/
theorem inferred_call (hg : g.Inferred) (call : Call) : (g.call call).graph.Inferred := by
  rcases g.call_cases call with ⟨id, node, hmakes, -, -, hnodes⟩ | ⟨-, hnodes⟩
  · exact inferred_of_push hg hmakes hnodes
  · exact inferred_of_nodes_eq hg hnodes

/-! ## Cycles -/

/-- The node at the first position is an input of the operator at the second. -/
def Feeds (g : Graph) (source target : Nat) : Prop :=
  ∃ name op inputs output, g.nodes[target]? = some (.operator name op inputs output) ∧
    ∃ id ∈ inputs, id.toNat = source

theorem Inferred.lt_of_transGen_feeds (hg : g.Inferred) {source target : Nat}
    (h : Relation.TransGen g.Feeds source target) : source < target := by
  have hstep {source target : Nat} (h : g.Feeds source target) : source < target := by
    obtain ⟨name, op, inputs, output, hnode, id, hid, rfl⟩ := h
    exact hg.input_lt hnode id hid
  induction h with
  | single h => exact hstep h
  | tail _ h ih => exact Nat.lt_trans ih (hstep h)

/-- **Stored outputs are inferred outputs.**  In every graph that can be built, through calls that are
carried out and calls that are refused, the inputs of an operator are nodes before it, its output is
what inference finds for the outputs of its inputs as the graph holds them now, and no node feeds
itself, however indirectly. -/
theorem inferred_of_reachable (hg : g.Reachable) :
    (∀ (position : Nat) name op inputs output,
      g.nodes[position]? = some (.operator name op inputs output) →
        (∀ id ∈ inputs, id.toNat < position ∧ (g.node? id).isSome) ∧
          ∃ infos, inputs.mapM g.output? = some infos ∧ op.infer infos = .ok output) ∧
    ∀ position, ¬Relation.TransGen g.Feeds position position := by
  have hg : g.Inferred := hg.invariant inferred_new fun call h => inferred_call h call
  refine ⟨fun position name op inputs output hnode => ⟨fun id hid => ?_, hg.infer_eq hnode⟩, ?_⟩
  · obtain ⟨infos, hinfos, -⟩ := hg.infer_eq hnode
    have hlt : id.toNat < g.nodes.size := forall_lt_size_of_mapM_output? hinfos id hid
    refine ⟨hg.input_lt hnode id hid, ?_⟩
    rw [node?, Array.getElem?_eq_getElem hlt, Option.isSome_some]
  · intro position hcycle
    exact Nat.lt_irrefl position (hg.lt_of_transGen_feeds hcycle)

/-- Two refused calls leave no trace in what is stored: the sum takes the total twice, and the total
was inferred from the parameter. -/
theorem inferred_of_reachable_doubled_total :
    ∃ g : Graph, g.Reachable ∧
      g.nodes[2]? = some (.operator "doubled" (.binary "Add" .merge)
        [⟨1, by decide⟩, ⟨1, by decide⟩] ⟨.f32, .ranked [.known 2]⟩) ∧
      ∃ infos, [⟨1, by decide⟩, ⟨1, by decide⟩].mapM g.output? = some infos ∧
        (Operator.binary "Add" .merge).infer infos = .ok ⟨.f32, .ranked [.known 2]⟩ := by
  have hbuilt : ∃ g : Graph, g.Reachable ∧
      g.nodes[2]? = some (.operator "doubled" (.binary "Add" .merge)
        [⟨1, by decide⟩, ⟨1, by decide⟩] ⟨.f32, .ranked [.known 2]⟩) := by
    refine ⟨_, ⟨.warn,
      [.addParameter "values" ⟨.f32, .ranked [.known 2, .unknown]⟩,
        .addOperator "early" (.unary "Neg") [⟨7, by decide⟩],
        .addOperator "total" (.reduce .sum [5] false) [⟨0, by decide⟩],
        .setLevel .info,
        .addOperator "total" (.reduce .sum [-1] false) [⟨0, by decide⟩],
        .addOperator "doubled" (.binary "Add" .merge)
          [⟨1, by decide⟩, ⟨1, by decide⟩]], rfl⟩, ?_⟩
    decide
  obtain ⟨g, hg, hnode⟩ := hbuilt
  exact ⟨g, hg, hnode, ((inferred_of_reachable hg).1 2 _ _ _ _ hnode).2⟩

end TensorInference.Graph
