import TensorInference.Proofs.Graph.Inferred

/-!
# How a call ends

A call ends in one of seven ways.  A parameter is added, or refused by a full graph.  An operator is
refused for the first input that is not a node, then for what inference finds, then by a full graph,
and is added otherwise.  A level is always set.  `Graph.Ends` is this list, with the whole graph after
the call, the answer and the reports of each way; `ends_call` says that the list is complete, and
`Ends.eq_call` that it says no more than what happens.

Whatever is proved of calls below is proved by going through the list.
-/

namespace TensorInference.Graph

/-! ## Missing inputs -/

/-- Inputs are refused for the first of them that is not a node, and for nothing else. -/
theorem inputInfos_eq_error_iff {g : Graph} {ids : List NodeId} {refusal : Refusal} :
    g.inputInfos ids = .error refusal ↔
      ∃ id, ids.find? (fun id => (g.node? id).isNone) = some id ∧ refusal = .missingInput id := by
  induction ids with
  | nil => simp [inputInfos]
  | cons id ids ih =>
    rw [inputInfos, List.find?_cons]
    cases hid : g.node? id with
    | none =>
      simp only [output?, hid, Option.map_none, Option.isNone_none, Except.error.injEq,
        Option.some_inj]
      constructor
      · rintro rfl
        exact ⟨id, rfl, rfl⟩
      · rintro ⟨_, rfl, rfl⟩
        rfl
    | some node =>
      simp only [output?, hid, Option.map_some, Option.isNone_some]
      rw [← ih]
      cases g.inputInfos ids with
      | error refusal' => exact Iff.rfl
      | ok infos =>
        constructor
        · intro h
          cases h
        · intro h
          cases h

/-! ## The list -/

/-- A call on a graph ends with a graph, an answer and reports. -/
inductive Ends (g : Graph) : Call → Step Answer → Prop
  /-- A parameter takes the next position. -/
  | parameterAdded {name : String} {output : TensorInfo} {id : NodeId}
    (hid : g.next? = some id) :
    Ends g (.addParameter name output)
      ⟨{ g with nodes := g.nodes.push (.parameter name output) }, .added id, []⟩
  /-- There is no position left for a parameter. -/
  | parameterFull {name : String} {output : TensorInfo} (hid : g.next? = none) :
    Ends g (.addParameter name output) ⟨g, .refused .full, []⟩
  /-- An input is not a node: nothing is inferred, and nothing reported. -/
  | missing {name : String} {op : Operator} {inputs : List NodeId} {id : NodeId}
    (hid : inputs.find? (fun id => (g.node? id).isNone) = some id) :
    Ends g (.addOperator name op inputs) ⟨g, .invalid ⟨name, op, .missingInput id⟩, []⟩
  /-- Inference fails, which may be reported. -/
  | rejected {name : String} {op : Operator} {inputs : List NodeId} {infos : List TensorInfo}
    {error : InferError} (hinfos : inputs.mapM g.output? = some infos)
    (hinfer : op.infer infos = .error error) :
    Ends g (.addOperator name op inputs)
      ⟨{ g with diagnostics := (g.diagnostics.reportRejected name error).1 },
        .invalid ⟨name, op, .inference error⟩,
        op.events infos ++ (g.diagnostics.reportRejected name error).2⟩
  /-- There is no position left for an operator. -/
  | full {name : String} {op : Operator} {inputs : List NodeId} {infos : List TensorInfo}
    {output : TensorInfo} (hinfos : inputs.mapM g.output? = some infos)
    (hinfer : op.infer infos = .ok output) (hid : g.next? = none) :
    Ends g (.addOperator name op inputs)
      ⟨g, .invalid ⟨name, op, .full⟩, op.events infos⟩
  /-- An operator takes the next position, which may be reported. -/
  | operatorAdded {name : String} {op : Operator} {inputs : List NodeId}
    {infos : List TensorInfo} {output : TensorInfo} {id : NodeId}
    (hinfos : inputs.mapM g.output? = some infos) (hinfer : op.infer infos = .ok output)
    (hid : g.next? = some id) :
    Ends g (.addOperator name op inputs)
      ⟨{ g with nodes := g.nodes.push (.operator name op inputs output) }, .added id,
        op.events infos ++ g.diagnostics.reportAdded id.toNat name op output⟩
  /-- A level is set. -/
  | levelSet {level : DiagnosticLevel} : Ends g (.setLevel level) ⟨g.setLevel level, .done, []⟩

variable {g : Graph} {call : Call} {step : Step Answer}

/-- A call ends in no other way than it does. -/
theorem Ends.eq_call (h : g.Ends call step) : g.call call = step := by
  cases h with
  | parameterAdded hid => simp [Graph.call, addParameter, hid]
  | parameterFull hid => simp [Graph.call, addParameter, hid]
  | missing hid =>
    have hinfos := inputInfos_eq_error_iff.2 ⟨_, hid, rfl⟩
    simp [Graph.call, addOperator, hinfos]
  | rejected hinfos hinfer =>
    simp [Graph.call, addOperator, inputInfos_eq_ok_iff.2 hinfos, hinfer]
  | full hinfos hinfer hid =>
    simp [Graph.call, addOperator, inputInfos_eq_ok_iff.2 hinfos, hinfer, hid]
  | operatorAdded hinfos hinfer hid =>
    simp [Graph.call, addOperator, inputInfos_eq_ok_iff.2 hinfos, hinfer, hid]
  | levelSet => rfl

theorem Ends.of_call (h : g.Ends call step) : g.Ends call (g.call call) := by
  rw [h.eq_call]
  exact h

/-- **Every call** ends in one of the ways. -/
theorem ends_call (g : Graph) (call : Call) : g.Ends call (g.call call) := by
  cases call with
  | addParameter name output =>
    cases hid : g.next? with
    | none => exact (Ends.parameterFull hid).of_call
    | some id => exact (Ends.parameterAdded hid).of_call
  | addOperator name op inputs =>
    cases hinfos : g.inputInfos inputs with
    | error refusal =>
      obtain ⟨id, hid, -⟩ := inputInfos_eq_error_iff.1 hinfos
      exact (Ends.missing hid).of_call
    | ok infos =>
      have hinfos := inputInfos_eq_ok_iff.1 hinfos
      cases hinfer : op.infer infos with
      | error error => exact (Ends.rejected hinfos hinfer).of_call
      | ok output =>
        cases hid : g.next? with
        | none => exact (Ends.full hinfos hinfer hid).of_call
        | some id => exact (Ends.operatorAdded hinfos hinfer hid).of_call
  | setLevel level => exact Ends.levelSet.of_call

end TensorInference.Graph
