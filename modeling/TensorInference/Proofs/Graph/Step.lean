import TensorInference.Graph.Call

/-!
# What one call does

A call succeeds when its answer is not a refusal.  For each kind of call an equation says when that
is, and another what is then answered and which node is added; histories of calls are taken apart
one call at a time.

* `succeeds_addParameter_iff`, `succeeds_addOperator_iff` --- when a node is added.
* `call_addParameter`, `call_addOperator` --- the answer and the nodes after it.
* `call_cases` --- all that a call can do to the nodes.
* `accepts_cons_iff`, `answers_cons` --- histories.
* `run_invariant` --- what calls preserve, histories preserve.
-/

namespace TensorInference

/-- The call was carried out. -/
def Answer.Succeeds : Answer → Prop
  | added _ | done => True
  | refused _ | invalid _ => False

instance : DecidablePred Answer.Succeeds
  | .added _ | .done => inferInstanceAs (Decidable True)
  | .refused _ | .invalid _ => inferInstanceAs (Decidable False)

namespace Graph

/-! ## Calls -/

theorem succeeds_addParameter_iff {g : Graph} {name : String} {output : TensorInfo} :
    (g.call (.addParameter name output)).answer.Succeeds ↔
      ∃ id, g.next? = some id := by
  cases hid : g.next? with
  | none => simp [call, addParameter, hid, Answer.Succeeds]
  | some id => simp [call, addParameter, hid, Answer.Succeeds]

theorem call_addParameter {g : Graph} {name : String} {output : TensorInfo} {id : NodeId}
    (hid : g.next? = some id) :
    (g.call (.addParameter name output)).answer = .added id ∧
      (g.call (.addParameter name output)).graph.nodes =
        g.nodes.push (.parameter name output) := by
  simp [call, addParameter, hid]

/-- An operator is added when its inputs exist, its output is inferred and a position is left. -/
theorem succeeds_addOperator_iff {g : Graph} {name : String} {op : Operator}
    {inputs : List NodeId} :
    (g.call (.addOperator name op inputs)).answer.Succeeds ↔
      ∃ infos output id, g.inputInfos inputs = .ok infos ∧ op.infer infos = .ok output ∧
        g.next? = some id := by
  cases hinfos : g.inputInfos inputs with
  | error refusal => simp [call, addOperator, hinfos, Answer.Succeeds]
  | ok infos =>
    cases hinfer : op.infer infos with
    | error e => simp [call, addOperator, hinfos, hinfer, Answer.Succeeds]
    | ok output =>
      cases hid : g.next? with
      | none => simp [call, addOperator, hinfos, hinfer, hid, Answer.Succeeds]
      | some id => simp [call, addOperator, hinfos, hinfer, hid, Answer.Succeeds]

theorem call_addOperator {g : Graph} {name : String} {op : Operator} {inputs : List NodeId}
    {infos : List TensorInfo} {output : TensorInfo} {id : NodeId}
    (hinfos : g.inputInfos inputs = .ok infos) (hinfer : op.infer infos = .ok output)
    (hid : g.next? = some id) :
    (g.call (.addOperator name op inputs)).answer = .added id ∧
      (g.call (.addOperator name op inputs)).graph.nodes =
        g.nodes.push (.operator name op inputs output) := by
  simp [call, addOperator, hinfos, hinfer, hid]

/-- The node that a call has for a graph: a parameter as it is declared, or an operator with the
output that is inferred from what the graph knows of the inputs. -/
inductive Makes (g : Graph) : Call → Node → Prop
  | parameter (name : String) (output : TensorInfo) :
    Makes g (.addParameter name output) (.parameter name output)
  | operator (name : String) {op : Operator} {inputs : List NodeId} {infos : List TensorInfo}
    {output : TensorInfo} (hinfos : g.inputInfos inputs = .ok infos)
    (hinfer : op.infer infos = .ok output) :
    Makes g (.addOperator name op inputs) (.operator name op inputs output)

/-- A call that adds no node leaves the nodes as they were. -/
theorem nodes_of_not_succeeds {g : Graph} {call : Call} (h : ¬(g.call call).answer.Succeeds) :
    (g.call call).graph.nodes = g.nodes := by
  cases call with
  | addParameter name output =>
    cases hid : g.next? with
    | none => simp [Graph.call, addParameter, hid]
    | some id => exact absurd (succeeds_addParameter_iff.2 ⟨id, hid⟩) h
  | addOperator name op inputs =>
    cases hinfos : g.inputInfos inputs with
    | error refusal => simp [Graph.call, addOperator, hinfos]
    | ok infos =>
      cases hinfer : op.infer infos with
      | error e => simp [Graph.call, addOperator, hinfos, hinfer]
      | ok output =>
        cases hid : g.next? with
        | none => simp [Graph.call, addOperator, hinfos, hinfer, hid]
        | some id =>
          exact absurd (succeeds_addOperator_iff.2 ⟨infos, output, id, hinfos, hinfer, hid⟩) h
  | setLevel level => exact absurd trivial h

/-- **One call** puts the node that it makes behind the others and answers its position, or leaves
the nodes as they were. -/
theorem call_cases (g : Graph) (call : Call) :
    (∃ id node, g.Makes call node ∧ g.next? = some id ∧
      (g.call call).answer = .added id ∧ (g.call call).graph.nodes = g.nodes.push node) ∨
    (∀ id, (g.call call).answer ≠ .added id) ∧ (g.call call).graph.nodes = g.nodes := by
  by_cases h : (g.call call).answer.Succeeds
  · cases call with
    | addParameter name output =>
      obtain ⟨id, hid⟩ := succeeds_addParameter_iff.1 h
      exact Or.inl ⟨id, _, .parameter name output, hid, call_addParameter hid⟩
    | addOperator name op inputs =>
      obtain ⟨infos, output, id, hinfos, hinfer, hid⟩ := succeeds_addOperator_iff.1 h
      exact Or.inl ⟨id, _, .operator name hinfos hinfer, hid, call_addOperator hinfos hinfer hid⟩
    | setLevel level => exact Or.inr ⟨fun id => nofun, rfl⟩
  · refine Or.inr ⟨fun id hanswer => ?_, nodes_of_not_succeeds h⟩
    rw [hanswer] at h
    exact h trivial

/-! ## Histories -/

/-- The answers of a history of calls. -/
def answers (g : Graph) (calls : List Call) : List Answer :=
  (g.run calls).2.map Prod.fst

/-- Every call of a history is carried out. -/
def Accepts (g : Graph) (calls : List Call) : Prop :=
  ∀ answer ∈ g.answers calls, answer.Succeeds

instance (g : Graph) (calls : List Call) : Decidable (g.Accepts calls) :=
  inferInstanceAs (Decidable (∀ answer ∈ g.answers calls, answer.Succeeds))

@[simp] theorem answers_cons (g : Graph) (call : Call) (calls : List Call) :
    g.answers (call :: calls) = (g.call call).answer :: (g.call call).graph.answers calls := rfl

theorem accepts_cons_iff {g : Graph} {call : Call} {calls : List Call} :
    g.Accepts (call :: calls) ↔
      (g.call call).answer.Succeeds ∧ (g.call call).graph.Accepts calls := by
  rw [Accepts, answers_cons, List.forall_mem_cons, Accepts]

/-- What every call preserves, every history preserves. -/
theorem run_invariant {P : Graph → Prop}
    (hcall : ∀ {g : Graph} (call : Call), P g → P (g.call call).graph) {g : Graph} (hg : P g)
    (calls : List Call) : P (g.run calls).1 := by
  induction calls generalizing g with
  | nil => exact hg
  | cons call calls ih => exact ih (hcall call hg)

/-- A graph that some history of calls builds from nothing. -/
def Reachable (g : Graph) : Prop :=
  ∃ level calls, ((new level).run calls).1 = g

/-- What new graphs have and every call preserves, every graph has that can be built. -/
theorem Reachable.invariant {P : Graph → Prop} (hnew : ∀ level, P (new level))
    (hcall : ∀ {g : Graph} (call : Call), P g → P (g.call call).graph) {g : Graph}
    (hg : g.Reachable) : P g := by
  obtain ⟨level, calls, rfl⟩ := hg
  exact run_invariant hcall (hnew level) calls

end Graph

end TensorInference
