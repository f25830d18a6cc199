import TensorInference.Proofs.Graph.Step
import TensorInference.Proofs.Refinement.Operator

/-!
# Finer graphs

Two histories of calls that differ only in what they declare of their parameters, where one declares
more, build two graphs node by node.  As long as the finer history goes through, so does the coarser
one, with the same answers, and every node knows more in the finer graph.

The invariant is `Graph.Refines`, which relates nodes at the same position.  It makes the two graphs
equally long, so they hand out the same positions (`size_eq_of_refines`), and it makes the inputs of
an operator finer on one side (`exists_inputInfos_of_refines`), so inference goes through on the
other.  One call preserves it (`call_refines`), hence a history does (`run_refines`).

* `inference_monotone` --- the main result, for graphs that are built from nothing.
-/

namespace TensorInference

/-- Two nodes that differ only in what is known of their outputs, of which the first knows more. -/
inductive Node.Refines : Node → Node → Prop
  | parameter (name : String) {fine coarse : TensorInfo} (h : fine.Refines coarse) :
    Refines (.parameter name fine) (.parameter name coarse)
  | operator (name : String) (op : Operator) (inputs : List NodeId) {fine coarse : TensorInfo}
    (h : fine.Refines coarse) :
    Refines (.operator name op inputs fine) (.operator name op inputs coarse)

theorem Node.Refines.output {fine coarse : Node} (h : fine.Refines coarse) :
    fine.output.Refines coarse.output := by
  cases h with
  | parameter name h => exact h
  | operator name op inputs h => exact h

/-- Two calls that differ only in a declared info, which is finer in the first. -/
inductive Call.Refines : Call → Call → Prop
  | addParameter (name : String) {fine coarse : TensorInfo} (h : fine.Refines coarse) :
    Refines (.addParameter name fine) (.addParameter name coarse)
  | addOperator (name : String) (op : Operator) (inputs : List NodeId) :
    Refines (.addOperator name op inputs) (.addOperator name op inputs)
  | setLevel (level : DiagnosticLevel) : Refines (.setLevel level) (.setLevel level)

namespace Graph

/-- Node by node, the first graph knows more. -/
def Refines (fine coarse : Graph) : Prop :=
  List.Forall₂ Node.Refines fine.nodes.toList coarse.nodes.toList

variable {fine coarse : Graph}

theorem new_refines (level level' : DiagnosticLevel) : (new level).Refines (new level') :=
  List.Forall₂.nil

theorem size_eq_of_refines (h : fine.Refines coarse) : fine.size = coarse.size := by
  rw [size, size, ← Array.length_toList, ← Array.length_toList]
  exact List.Forall₂.length_eq h

theorem next?_eq_of_refines (h : fine.Refines coarse) : fine.next? = coarse.next? := by
  rw [next?, next?, size_eq_of_refines h]

theorem refines_of_push {fine' coarse' : Graph} {node node' : Node} (h : fine.Refines coarse)
    (hnode : node.Refines node') (hfine : fine'.nodes = fine.nodes.push node)
    (hcoarse : coarse'.nodes = coarse.nodes.push node') : fine'.Refines coarse' := by
  rw [Refines, hfine, hcoarse, Array.toList_push, Array.toList_push]
  exact List.rel_append h (List.Forall₂.cons hnode List.Forall₂.nil)

/-- Nodes of the finer graph are nodes of the coarser one, where less is known of their outputs. -/
theorem exists_output?_of_refines (h : fine.Refines coarse) {id : NodeId} {info : TensorInfo}
    (hinfo : fine.output? id = some info) :
    ∃ info', coarse.output? id = some info' ∧ info.Refines info' := by
  obtain ⟨node, hnode, rfl⟩ := Option.map_eq_some_iff.1 hinfo
  obtain ⟨hlt, rfl⟩ := Array.getElem?_eq_some_iff.1 hnode
  have hlt' : id.toNat < coarse.nodes.size := by
    have hsize : fine.nodes.size = coarse.nodes.size := size_eq_of_refines h
    omega
  refine ⟨coarse.nodes[id.toNat].output, ?_, Node.Refines.output ?_⟩
  · rw [output?, node?, Array.getElem?_eq_getElem hlt', Option.map_some]
  · exact List.Forall₂.get h hlt hlt'

/-- Inputs that exist in the finer graph exist in the coarser one, where less is known of them. -/
theorem exists_inputInfos_of_refines (h : fine.Refines coarse) {ids : List NodeId}
    {infos : List TensorInfo} (hinfos : fine.inputInfos ids = .ok infos) :
    ∃ infos', coarse.inputInfos ids = .ok infos' ∧
      List.Forall₂ TensorInfo.Refines infos infos' := by
  induction ids generalizing infos with
  | nil =>
    cases hinfos
    exact ⟨[], rfl, List.Forall₂.nil⟩
  | cons id ids ih =>
    rw [inputInfos] at hinfos ⊢
    cases hid : fine.output? id with
    | none =>
      rw [hid] at hinfos
      cases hinfos
    | some info =>
      simp only [hid, Outcome.bind_eq_ok_iff] at hinfos
      obtain ⟨rest, hrest, hcons⟩ := hinfos
      cases hcons
      obtain ⟨info', hinfo', hrefines⟩ := exists_output?_of_refines h hid
      obtain ⟨rest', hrest', hrefines'⟩ := ih hrest
      refine ⟨info' :: rest', ?_, List.Forall₂.cons hrefines hrefines'⟩
      simp only [hinfo', hrest']
      rfl

/-- **One call.**  If the finer call goes through, so does the coarser one, with the same answer,
and the graphs stay related. -/
theorem call_refines (h : fine.Refines coarse) {call call' : Call} (hcall : call.Refines call')
    (hok : (fine.call call).answer.Succeeds) :
    (coarse.call call').answer = (fine.call call).answer ∧
      (fine.call call).graph.Refines (coarse.call call').graph := by
  have hnext := next?_eq_of_refines h
  cases hcall with
  | addParameter name hinfo =>
    obtain ⟨id, hid⟩ := succeeds_addParameter_iff.1 hok
    obtain ⟨hanswer, hnodes⟩ := call_addParameter hid
    obtain ⟨hanswer', hnodes'⟩ := call_addParameter (hnext ▸ hid)
    refine ⟨hanswer'.trans hanswer.symm, ?_⟩
    exact refines_of_push h (Node.Refines.parameter name hinfo) hnodes hnodes'
  | addOperator name op inputs =>
    obtain ⟨infos, output, id, hinfos, hinfer, hid⟩ := succeeds_addOperator_iff.1 hok
    obtain ⟨infos', hinfos', hrefines⟩ := exists_inputInfos_of_refines h hinfos
    obtain ⟨output', hinfer', houtput⟩ := Operator.exists_infer_of_refines hrefines hinfer
    obtain ⟨hanswer, hnodes⟩ := call_addOperator hinfos hinfer hid
    obtain ⟨hanswer', hnodes'⟩ := call_addOperator hinfos' hinfer' (hnext ▸ hid)
    refine ⟨hanswer'.trans hanswer.symm, ?_⟩
    exact refines_of_push h (Node.Refines.operator name op inputs houtput) hnodes hnodes'
  | setLevel level => exact ⟨rfl, h⟩

/-- **A history.**  If the finer one goes through, so does the coarser one, with the same answers,
and the graphs stay related. -/
theorem run_refines (h : fine.Refines coarse) {calls calls' : List Call}
    (hcalls : List.Forall₂ Call.Refines calls calls') (hok : fine.Accepts calls) :
    coarse.answers calls' = fine.answers calls ∧
      (fine.run calls).1.Refines (coarse.run calls').1 := by
  induction hcalls generalizing fine coarse with
  | nil => exact ⟨rfl, h⟩
  | cons hcall _ ih =>
    obtain ⟨hhead, htail⟩ := accepts_cons_iff.1 hok
    obtain ⟨hanswer, hgraph⟩ := call_refines h hcall hhead
    obtain ⟨hanswers, hrun⟩ := ih hgraph htail
    rw [answers_cons, answers_cons, hanswer, hanswers]
    exact ⟨rfl, hrun⟩

/-- **Inference is monotone.**  When a history of calls goes through on a new graph, so does every
history that declares less of the parameters, with the same positions for the same nodes, and of no
node does it know more.  In particular, an operator that is rejected for its inputs is rejected for
everything that those inputs may turn out to be. -/
theorem inference_monotone {level level' : DiagnosticLevel} {calls calls' : List Call}
    (hcalls : List.Forall₂ Call.Refines calls calls') (hok : (new level).Accepts calls) :
    ((new level').Accepts calls' ∧ (new level').answers calls' = (new level).answers calls) ∧
      (((new level').run calls').1.size = ((new level).run calls).1.size ∧
        ∀ id fineInfo, ((new level).run calls).1.output? id = some fineInfo →
          ∃ info, ((new level').run calls').1.output? id = some info ∧ fineInfo.Refines info) ∧
      ∀ (op : Operator) (inputs fineInputs : List TensorInfo),
        List.Forall₂ TensorInfo.Refines fineInputs inputs →
          (∃ e, op.infer inputs = .error e) → ∃ e, op.infer fineInputs = .error e := by
  obtain ⟨hanswers, hgraph⟩ := run_refines (new_refines level level') hcalls hok
  refine ⟨⟨?_, hanswers⟩, ⟨(size_eq_of_refines hgraph).symm, ?_⟩, ?_⟩
  · rw [Accepts, hanswers]
    exact hok
  · intro id fineInfo hinfo
    exact exists_output?_of_refines hgraph hinfo
  · rintro op inputs fineInputs hinputs ⟨e, he⟩
    exact Operator.exists_error_of_refines hinputs he

/-- Next to nothing is declared of the terms of a sum, whose total is taken along the last axis: it
goes through because it does so for two terms that are known in full. -/
theorem inference_monotone_total :
    (new .info).answers
      [.addParameter "left" ⟨.dynamic, .ranked [.unknown, .known 3]⟩,
        .addParameter "right" .dynamic,
        .addOperator "sum" (.binary "Add" .broadcast) [⟨0, by decide⟩, ⟨1, by decide⟩],
        .addOperator "total" (.reduce .sum [-1] false) [⟨2, by decide⟩]] =
      [.added ⟨0, by decide⟩, .added ⟨1, by decide⟩, .added ⟨2, by decide⟩,
        .added ⟨3, by decide⟩] := by
  have hcalls : List.Forall₂ Call.Refines
      [.addParameter "left" ⟨.f32, .ranked [.known 2, .known 3]⟩,
        .addParameter "right" ⟨.f32, .ranked [.known 3]⟩,
        .addOperator "sum" (.binary "Add" .broadcast) [⟨0, by decide⟩, ⟨1, by decide⟩],
        .addOperator "total" (.reduce .sum [-1] false) [⟨2, by decide⟩]]
      [.addParameter "left" ⟨.dynamic, .ranked [.unknown, .known 3]⟩,
        .addParameter "right" .dynamic,
        .addOperator "sum" (.binary "Add" .broadcast) [⟨0, by decide⟩, ⟨1, by decide⟩],
        .addOperator "total" (.reduce .sum [-1] false) [⟨2, by decide⟩]] := by
    refine .cons (.addParameter _ ?_) (.cons (.addParameter _ ?_) ?_)
    · exact ⟨Or.inl rfl, Or.inl rfl, Or.inr rfl, trivial⟩
    · exact ⟨Or.inl rfl, trivial⟩
    · exact .cons (.addOperator ..) (.cons (.addOperator ..) .nil)
  have hok : (new .off).Accepts
      [.addParameter "left" ⟨.f32, .ranked [.known 2, .known 3]⟩,
        .addParameter "right" ⟨.f32, .ranked [.known 3]⟩,
        .addOperator "sum" (.binary "Add" .broadcast) [⟨0, by decide⟩, ⟨1, by decide⟩],
        .addOperator "total" (.reduce .sum [-1] false) [⟨2, by decide⟩]] := by
    decide
  rw [(inference_monotone hcalls hok).1.2]
  decide

end Graph

end TensorInference
