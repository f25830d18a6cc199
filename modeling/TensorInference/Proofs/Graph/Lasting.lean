import TensorInference.Proofs.Graph.Ending

/-!
# What lasts of a history

Operators that are refused and changes of the level leave no trace in the nodes.  Taking such calls
out of a history changes neither the nodes that it leads to nor the answer of any call that is left,
and the level at which the graph begins does not matter either.

The reason is that the diagnostics of a graph are written but never read, except for reports: two
graphs with the same nodes answer the same call alike and have the same nodes after it
(`call_of_nodes_eq`), and `run_lasting` follows two histories side by side, one of which has some
calls fewer.

* `refusals_leave_no_trace` --- the main result.
-/

namespace TensorInference

/-- A call that lasts: a parameter, whatever is answered, or an operator that is added. -/
def Call.Lasts (answer : Answer) : Call → Prop
  | addParameter .. => True
  | addOperator .. => answer.Succeeds
  | setLevel _ => False

instance (answer : Answer) : DecidablePred (Call.Lasts answer)
  | .addParameter .. => inferInstanceAs (Decidable True)
  | .addOperator .. => inferInstanceAs (Decidable answer.Succeeds)
  | .setLevel _ => inferInstanceAs (Decidable False)

namespace Graph

variable {g g' : Graph}

/-- The calls of a history that last, each with its answer. -/
def lasting (g : Graph) (calls : List Call) : List (Call × Answer) :=
  (calls.zip (g.answers calls)).filter fun (call, answer) => call.Lasts answer

/-! ## One call -/

/-- Two graphs answer every question about their nodes alike. -/
structure SameNodes (g g' : Graph) : Prop where
  nodes_eq : g'.nodes = g.nodes
  size_eq : g'.size = g.size
  find?_eq : ∀ name, g'.find? name = g.find? name
  node?_eq : ∀ id, g'.node? id = g.node? id
  output?_eq : ∀ id, g'.output? id = g.output? id

theorem sameNodes_of_nodes_eq (h : g'.nodes = g.nodes) : g.SameNodes g' where
  nodes_eq := h
  size_eq := by rw [size, size, h]
  find?_eq name := by rw [find?, find?, h]
  node?_eq id := by rw [node?, node?, h]
  output?_eq id := by rw [output?, output?, node?, node?, h]

/-- How a call ends does not depend on the diagnostics, reports apart. -/
theorem Ends.exists_of_nodes_eq {call : Call} {step : Step Answer} (h : g'.nodes = g.nodes)
    (hstep : g.Ends call step) :
    ∃ step', g'.Ends call step' ∧ step'.answer = step.answer ∧
      step'.graph.nodes = step.graph.nodes := by
  obtain ⟨nodes, diagnostics⟩ := g
  obtain ⟨nodes', diagnostics'⟩ := g'
  obtain rfl : nodes' = nodes := h
  cases hstep with
  | parameterAdded hid => exact ⟨_, .parameterAdded hid, rfl, rfl⟩
  | parameterFull hid => exact ⟨_, .parameterFull hid, rfl, rfl⟩
  | missing hid => exact ⟨_, .missing hid, rfl, rfl⟩
  | rejected hinfos hinfer => exact ⟨_, .rejected hinfos hinfer, rfl, rfl⟩
  | full hinfos hinfer hid => exact ⟨_, .full hinfos hinfer hid, rfl, rfl⟩
  | operatorAdded hinfos hinfer hid => exact ⟨_, .operatorAdded hinfos hinfer hid, rfl, rfl⟩
  | levelSet => exact ⟨_, .levelSet, rfl, rfl⟩

theorem call_of_nodes_eq (h : g'.nodes = g.nodes) (call : Call) :
    (g'.call call).answer = (g.call call).answer ∧
      (g'.call call).graph.nodes = (g.call call).graph.nodes := by
  obtain ⟨step, hends, hanswer, hnodes⟩ := (g.ends_call call).exists_of_nodes_eq h
  obtain rfl := hends.eq_call
  exact ⟨hanswer, hnodes⟩

/-- A call that does not last leaves the nodes as they were. -/
theorem nodes_of_not_lasts {call : Call} (h : ¬call.Lasts (g.call call).answer) :
    (g.call call).graph.nodes = g.nodes := by
  cases call with
  | addParameter name output => exact absurd trivial h
  | addOperator name op inputs => exact nodes_of_not_succeeds h
  | setLevel level => rfl

/-- An operator is refused for a missing input when there is one, and for the first. -/
theorem call_eq_missingInput_iff {name : String} {op : Operator} {inputs : List NodeId}
    {id : NodeId} :
    (g.call (.addOperator name op inputs)).answer = .invalid ⟨name, op, .missingInput id⟩ ↔
      inputs.find? (fun id => (g.node? id).isNone) = some id := by
  constructor
  · intro hanswer
    have hends := g.ends_call (.addOperator name op inputs)
    generalize g.call (.addOperator name op inputs) = step at hends hanswer
    cases hends with
    | missing hid =>
      cases hanswer
      exact hid
    | rejected hinfos hinfer => cases hanswer
    | full hinfos hinfer hid => cases hanswer
    | operatorAdded hinfos hinfer hid => cases hanswer
  · intro hid
    rw [(Ends.missing hid).eq_call]

/-! ## Histories -/

theorem lasting_cons_of_lasts {call : Call} {calls : List Call}
    (h : call.Lasts (g.call call).answer) :
    g.lasting (call :: calls) =
      (call, (g.call call).answer) :: (g.call call).graph.lasting calls := by
  rw [lasting, answers_cons, List.zip_cons_cons, List.filter_cons_of_pos (by simpa using h), lasting]

theorem lasting_cons_of_not_lasts {call : Call} {calls : List Call}
    (h : ¬call.Lasts (g.call call).answer) :
    g.lasting (call :: calls) = (g.call call).graph.lasting calls := by
  rw [lasting, answers_cons, List.zip_cons_cons, List.filter_cons_of_neg (by simpa using h), lasting]

/-- What lasts of a history is answered as before, and leads to the same nodes. -/
theorem run_lasting (h : g'.nodes = g.nodes) (calls : List Call) :
    g'.answers ((g.lasting calls).map Prod.fst) = (g.lasting calls).map Prod.snd ∧
      (g'.run ((g.lasting calls).map Prod.fst)).1.nodes = (g.run calls).1.nodes := by
  induction calls generalizing g g' with
  | nil => exact ⟨rfl, h⟩
  | cons call calls ih =>
    by_cases hlasts : call.Lasts (g.call call).answer
    · obtain ⟨hanswer, hnodes⟩ := call_of_nodes_eq h call
      obtain ⟨hanswers, hrun⟩ := ih hnodes
      rw [lasting_cons_of_lasts hlasts, List.map_cons, List.map_cons, answers_cons, hanswer,
        hanswers]
      exact ⟨rfl, hrun⟩
    · rw [lasting_cons_of_not_lasts hlasts]
      exact ih (h.trans (nodes_of_not_lasts hlasts).symm)

/-- **Refusals and reports leave no trace.**  An operator that is refused leaves everything that can be
asked about nodes as it was.  What lasts of a history, begun at any level, is answered as it was in
the whole history, and leads to the same nodes.  And an operator with missing inputs is refused for
the first of them, whatever inference would say: nothing is reported and nothing remembered. -/
theorem refusals_leave_no_trace (level level' : DiagnosticLevel) (calls : List Call) :
    (∀ (g : Graph) (name : String) (op : Operator) (inputs : List NodeId) (error : NodeError),
      (g.call (.addOperator name op inputs)).answer = .invalid error →
        g.SameNodes (g.call (.addOperator name op inputs)).graph) ∧
    ((new level').answers (((new level).lasting calls).map Prod.fst) =
        ((new level).lasting calls).map Prod.snd ∧
      ((new level').run (((new level).lasting calls).map Prod.fst)).1.nodes =
        ((new level).run calls).1.nodes) ∧
    ∀ (g : Graph) (name : String) (op : Operator) (inputs : List NodeId) (id : NodeId),
      ((∃ before after, inputs = before ++ id :: after ∧ (∀ i ∈ before, (g.node? i).isSome) ∧
          g.node? id = none) ↔
        (g.call (.addOperator name op inputs)).answer =
          .invalid ⟨name, op, .missingInput id⟩) ∧
      ((g.call (.addOperator name op inputs)).answer = .invalid ⟨name, op, .missingInput id⟩ →
        (g.call (.addOperator name op inputs)).graph = g ∧
          (g.call (.addOperator name op inputs)).events = []) := by
  have hnew : (new level').nodes = (new level).nodes := rfl
  refine ⟨?_, run_lasting hnew calls, ?_⟩
  · intro g name op inputs error hanswer
    refine sameNodes_of_nodes_eq (nodes_of_not_succeeds ?_)
    rw [hanswer]
    exact not_false
  · intro g name op inputs id
    rw [call_eq_missingInput_iff]
    refine ⟨?_, ?_⟩
    · rw [List.find?_eq_some_iff_append]
      simp only [Option.isNone_iff_eq_none, Bool.not_eq_true', Option.isNone_eq_false_iff]
      constructor
      · rintro ⟨before, after, hinputs, hbefore, hid⟩
        exact ⟨hid, before, after, hinputs, hbefore⟩
      · rintro ⟨hid, before, after, hinputs, hbefore⟩
        exact ⟨before, after, hinputs, hbefore, hid⟩
    · intro hid
      rw [(Ends.missing hid).eq_call]
      exact ⟨rfl, rfl⟩

/-- Of five calls two last, which have the same answers alone and at another level.  An operator with
two missing inputs is refused for the first of these, and one without inputs adds no node. -/
theorem refusals_leave_no_trace_total :
    (new .info).answers
        [.addParameter "values" ⟨.f32, .ranked [.known 2, .unknown]⟩,
          .addOperator "total" (.reduce .sum [-1] false) [⟨0, by decide⟩]] =
      [.added ⟨0, by decide⟩, .added ⟨1, by decide⟩] ∧
    ((new .off).call
        (.addOperator "early" (.unary "Neg") [⟨9, by decide⟩, ⟨7, by decide⟩])).answer =
      .invalid ⟨"early", .unary "Neg", .missingInput ⟨9, by decide⟩⟩ ∧
    ((new .warn).call (.addOperator "early" (.unary "Neg") [])).graph.size = 0 := by
  obtain ⟨-, ⟨hanswers, -⟩, -⟩ := refusals_leave_no_trace .off .info
    [.addParameter "values" ⟨.f32, .ranked [.known 2, .unknown]⟩,
      .addOperator "early" (.unary "Neg") [⟨0, by decide⟩, ⟨9, by decide⟩, ⟨7, by decide⟩],
      .setLevel .warn,
      .addOperator "total" (.reduce .sum [5] false) [⟨0, by decide⟩],
      .addOperator "total" (.reduce .sum [-1] false) [⟨0, by decide⟩]]
  obtain ⟨hrefused, -, hmissing⟩ := refusals_leave_no_trace .off .off []
  refine ⟨hanswers.trans (by decide), ?_, ?_⟩
  · exact (hmissing _ _ _ _ _).1.1 ⟨[], [⟨7, by decide⟩], rfl, nofun, rfl⟩
  · exact (hrefused (new .warn) _ _ _ _ rfl).size_eq

end Graph

end TensorInference
