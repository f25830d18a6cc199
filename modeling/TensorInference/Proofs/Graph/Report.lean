import Mathlib.Data.List.Forall2
import TensorInference.Proofs.Graph.Position

/-!
# What a graph reports

A `Record` is one call of a history with everything about it that can be seen from outside: the level
at which it was made, which the calls before it decide, its answer and its reports.  `history` puts a
record to every call.

Warnings depend on all that went before, through the names that a graph has warned about.  Those are
the names of the failures that were heard so far and of nothing else (`mem_warned_call_iff`): a name
is added to them by the first such failure, which is reported (`call_warns`), and it stays.  Missing
inputs, failures while nothing is reported and full graphs leave the names alone.

* `call_warns`, `call_informs` --- what one call reports.
* `rejected_mem_iff` --- which call of a history warns about a name.
* `forall₂_informs` --- which calls are reported as additions.
* `reports_exact` --- the main result.
-/

namespace TensorInference

/-- The level after a call. -/
def Call.levelAfter (level : DiagnosticLevel) : Call → DiagnosticLevel
  | setLevel level' => level'
  | addParameter .. | addOperator .. => level

/-- The event matters as much as the level says. -/
def Event.At (level : Event.Level) (event : Event) : Prop :=
  event.level = level

instance (level : Event.Level) : DecidablePred (Event.At level) :=
  fun event => inferInstanceAs (Decidable (event.level = level))

/-- A call that was made: at which level, what it answered and what it reported. -/
structure Record where
  level : DiagnosticLevel
  call : Call
  answer : Answer
  events : List Event

namespace Record

/-- The records of calls that begin at a level and end with these answers and reports. -/
def list (level : DiagnosticLevel) : List Call → List (Answer × List Event) → List Record
  | call :: calls, (answer, events) :: outcomes =>
    ⟨level, call, answer, events⟩ :: list (call.levelAfter level) calls outcomes
  | _, _ => []

/-- The call was for an operator with this name, and its inference failed while warnings were on. -/
def Fails (r : Record) (name : String) (error : InferError) : Prop :=
  (r.level = .warn ∨ r.level = .info) ∧
    ∃ op inputs, r.call = .addOperator name op inputs ∧
      r.answer = .invalid ⟨name, op, .inference error⟩

/-- The call added an operator while additions were reported. -/
def Adds (r : Record) : Prop :=
  r.level = .info ∧ (∃ name op inputs, r.call = .addOperator name op inputs) ∧
    ∃ id, r.answer = .added id

instance : DecidablePred Adds
  | ⟨.info, .addOperator name op inputs, .added id, _⟩ =>
    isTrue ⟨rfl, ⟨name, op, inputs, rfl⟩, id, rfl⟩
  | ⟨.off, _, _, _⟩ | ⟨.warn, _, _, _⟩ => isFalse fun h => nomatch h.1
  | ⟨_, .addParameter .., _, _⟩ | ⟨_, .setLevel _, _, _⟩ =>
    isFalse fun ⟨_, ⟨_, _, _, h⟩, _⟩ => nomatch h
  | ⟨_, _, .refused _, _⟩ | ⟨_, _, .invalid _, _⟩ | ⟨_, _, .done, _⟩ =>
    isFalse fun ⟨_, _, _, h⟩ => nomatch h

/-- The event reports the operator that the call added: its position, its name, and its type and its
output as the graph stores them. -/
def IsReportedBy (r : Record) (g : Graph) (event : Event) : Prop :=
  ∃ name op inputs output id, r.call = .addOperator name op inputs ∧ r.answer = .added id ∧
    g.node? id = some (.operator name op inputs output) ∧
    event = .added id.toNat name op output ∧
    event.message = op.name ++ " -> " ++ output.text

theorem Fails.unique {r : Record} {name name' : String} {error error' : InferError}
    (h : r.Fails name error) (h' : r.Fails name' error') : name' = name ∧ error' = error := by
  obtain ⟨-, op, inputs, hcall, hanswer⟩ := h
  obtain ⟨-, op', inputs', hcall', hanswer'⟩ := h'
  rw [hcall, Call.addOperator.injEq] at hcall'
  obtain ⟨rfl, rfl, rfl⟩ := hcall'
  rw [hanswer] at hanswer'
  cases hanswer'
  exact ⟨rfl, rfl⟩

/-- Without a failure of inference in the answer there is none. -/
theorem not_fails {r : Record}
    (h : ∀ name op error, r.answer ≠ .invalid ⟨name, op, .inference error⟩) (name : String)
    (error : InferError) : ¬r.Fails name error :=
  fun ⟨_, op, _, _, hanswer⟩ => h name op error hanswer

end Record

/-! ## Reports of one call -/

/-- What inference says is neither a warning nor about an addition. -/
theorem Operator.level_events {op : Operator} {infos : List TensorInfo} {event : Event}
    (h : event ∈ op.events infos) : event.level = .trace ∨ event.level = .debug := by
  have hrequest {rank : Option Nat} {requests : List Int}
      (h : event ∈ AxisSet.requestEvents rank requests) : event.level = .trace := by
    rw [AxisSet.requestEvents] at h
    split at h
    · rw [List.mem_singleton.1 h]
      rfl
    · cases h
  unfold Operator.events at h
  split at h
  · split at h
    · simp only [List.mem_cons, List.not_mem_nil, or_false] at h
      rcases h with rfl | rfl
      · exact Or.inl rfl
      · exact Or.inr rfl
    · cases h
  · next axes info =>
    cases axes with
    | index requests => exact Or.inl (hrequest h)
    | mask marks => cases h
  · cases h

theorem Operator.filter_events (op : Operator) (infos : List TensorInfo) {level : Event.Level}
    (h : level = .warn ∨ level = .info) : (op.events infos).filter (Event.At level) = [] := by
  rw [List.filter_eq_nil_iff]
  intro event hevent hat
  have hlevel : event.level = level := of_decide_eq_true hat
  rcases level_events hevent with hquiet | hquiet
  · rcases h with rfl | rfl <;> cases hlevel.symm.trans hquiet
  · rcases h with rfl | rfl <;> cases hlevel.symm.trans hquiet

theorem Diagnostics.enabled_warn_iff {d : Diagnostics} :
    d.enabled .warn = true ↔ d.level = .warn ∨ d.level = .info := by
  rw [enabled]
  cases d.level with
  | off => decide
  | warn => decide
  | info => decide

theorem Diagnostics.enabled_info_iff {d : Diagnostics} :
    d.enabled .info = true ↔ d.level = .info := by
  rw [enabled]
  cases d.level with
  | off => decide
  | warn => decide
  | info => decide

namespace Graph

variable {g : Graph}

/-- The record of a call. -/
def record (g : Graph) (call : Call) : Record :=
  ⟨g.diagnostics.level, call, (g.call call).answer, (g.call call).events⟩

theorem level_call (g : Graph) (call : Call) :
    (g.call call).graph.diagnostics.level = call.levelAfter g.diagnostics.level := by
  have hends := g.ends_call call
  generalize g.call call = step at hends ⊢
  cases hends with
  | parameterAdded hid => rfl
  | parameterFull hid => rfl
  | missing hid => rfl
  | rejected hinfos hinfer =>
    show (g.diagnostics.reportRejected _ _).1.level = g.diagnostics.level
    rw [Diagnostics.reportRejected]
    split
    · rfl
    · rfl
  | full hinfos hinfer hid => rfl
  | operatorAdded hinfos hinfer hid => rfl
  | levelSet => rfl

/-- **Warnings of one call.**  A failure that is heard is reported unless its name has been warned
about, which it is from then on; nothing else is a warning, and nothing else changes the names. -/
theorem call_warns (g : Graph) (call : Call) :
    (∃ name error, (g.record call).Fails name error ∧ name ∉ g.diagnostics.warned ∧
      (g.call call).events.filter (Event.At .warn) = [.rejected name error] ∧
      (g.call call).graph.diagnostics.warned = name :: g.diagnostics.warned) ∨
    ((g.call call).events.filter (Event.At .warn) = [] ∧
      (g.call call).graph.diagnostics.warned = g.diagnostics.warned ∧
      ∀ name error, (g.record call).Fails name error → name ∈ g.diagnostics.warned) := by
  have hends := g.ends_call call
  have hquiet {r : Record}
      (h : ∀ name op error, r.answer ≠ .invalid ⟨name, op, .inference error⟩) :
      ∀ name error, r.Fails name error → name ∈ g.diagnostics.warned :=
    fun name error hfails => absurd hfails (Record.not_fails h name error)
  rw [record]
  generalize g.call call = step at hends ⊢
  cases hends with
  | parameterAdded hid => exact Or.inr ⟨rfl, rfl, hquiet (by simp)⟩
  | parameterFull hid => exact Or.inr ⟨rfl, rfl, hquiet (by simp)⟩
  | missing hid => exact Or.inr ⟨rfl, rfl, hquiet (by simp)⟩
  | @rejected name op inputs infos error hinfos hinfer =>
    simp only [List.filter_append, Operator.filter_events _ _ (Or.inl rfl), List.nil_append]
    by_cases hheard : g.diagnostics.enabled .warn = true ∧ name ∉ g.diagnostics.warned
    · rw [Diagnostics.reportRejected, if_pos hheard]
      exact Or.inl ⟨name, error, ⟨Diagnostics.enabled_warn_iff.1 hheard.1, op, inputs, rfl, rfl⟩,
        hheard.2, rfl, rfl⟩
    · rw [Diagnostics.reportRejected, if_neg hheard]
      refine Or.inr ⟨rfl, rfl, fun name' error' hfails => ?_⟩
      obtain ⟨hlevel, op', inputs', hcall, -⟩ := hfails
      cases hcall
      by_contra hname
      exact hheard ⟨Diagnostics.enabled_warn_iff.2 hlevel, hname⟩
  | @full name op inputs infos output hinfos hinfer hid =>
    exact Or.inr ⟨op.filter_events infos (Or.inl rfl), rfl, hquiet (by simp)⟩
  | @operatorAdded name op inputs infos output id hinfos hinfer hid =>
    refine Or.inr ⟨?_, rfl, hquiet (by simp)⟩
    simp only [List.filter_append, Operator.filter_events _ _ (Or.inl rfl), List.nil_append]
    rw [Diagnostics.reportAdded]
    split
    · rfl
    · rfl
  | levelSet => exact Or.inr ⟨rfl, rfl, hquiet (by simp)⟩

/-- **Additions in one call.**  An operator that is added while additions are reported is reported
once, as it is stored; nothing else is reported as an addition. -/
theorem call_informs (hg : g.size ≤ NodeId.capacity) (call : Call) :
    ((g.record call).Adds ∧ ∃ event, (g.record call).IsReportedBy (g.call call).graph event ∧
      (g.call call).events.filter (Event.At .info) = [event]) ∨
    (¬(g.record call).Adds ∧ (g.call call).events.filter (Event.At .info) = []) := by
  have hends := g.ends_call call
  rw [record]
  generalize g.call call = step at hends ⊢
  cases hends with
  | parameterAdded hid => exact Or.inr ⟨fun h => by simp [Record.Adds] at h, rfl⟩
  | parameterFull hid => exact Or.inr ⟨fun h => by simp [Record.Adds] at h, rfl⟩
  | missing hid => exact Or.inr ⟨fun h => by simp [Record.Adds] at h, rfl⟩
  | @rejected name op inputs infos error hinfos hinfer =>
    refine Or.inr ⟨fun h => by simp [Record.Adds] at h, ?_⟩
    simp only [List.filter_append, Operator.filter_events _ _ (Or.inr rfl), List.nil_append]
    rw [Diagnostics.reportRejected]
    split
    · rfl
    · rfl
  | @full name op inputs infos output hinfos hinfer hid =>
    exact Or.inr ⟨fun h => by simp [Record.Adds] at h, op.filter_events infos (Or.inr rfl)⟩
  | @operatorAdded name op inputs infos output id hinfos hinfer hid =>
    simp only [List.filter_append, Operator.filter_events _ _ (Or.inr rfl), List.nil_append]
    rw [Diagnostics.reportAdded]
    by_cases hlevel : g.diagnostics.level = .info
    · have hnode : (g.nodes.push (.operator name op inputs output))[id.toNat]? =
          some (.operator name op inputs output) := by
        rw [toNat_of_next? hg hid, size, Array.getElem?_push_size]
      rw [if_pos (Diagnostics.enabled_info_iff.2 hlevel)]
      refine Or.inl ⟨⟨hlevel, ⟨name, op, inputs, rfl⟩, id, rfl⟩, _, ?_, rfl⟩
      exact ⟨name, op, inputs, output, id, rfl, rfl, hnode, rfl, rfl⟩
    · rw [if_neg fun h => hlevel (Diagnostics.enabled_info_iff.1 h)]
      exact Or.inr ⟨fun h => hlevel h.1, rfl⟩
  | levelSet => exact Or.inr ⟨fun h => by simp [Record.Adds] at h, rfl⟩

/-! ## Reports of a history -/

/-- The records of a history of calls. -/
def history (g : Graph) (calls : List Call) : List Record :=
  Record.list g.diagnostics.level calls (g.run calls).2

/-- All that a history of calls reports, in order. -/
def reports (g : Graph) (calls : List Call) : List Event :=
  (g.history calls).flatMap Record.events

theorem history_cons (g : Graph) (call : Call) (calls : List Call) :
    g.history (call :: calls) = g.record call :: (g.call call).graph.history calls := by
  rw [history, history, level_call]
  rfl

theorem reports_cons (g : Graph) (call : Call) (calls : List Call) :
    g.reports (call :: calls) = (g.call call).events ++ (g.call call).graph.reports calls := by
  rw [reports, history_cons]
  rfl

/-- The records are of all calls, with what they answer and report. -/
theorem map_history_eq_zip (g : Graph) (calls : List Call) :
    (g.history calls).map (fun r => (r.call, r.answer, r.events)) = calls.zip (g.run calls).2 := by
  induction calls generalizing g with
  | nil => rfl
  | cons call calls ih =>
    rw [history_cons, List.map_cons, ih]
    rfl

/-! ### Warnings -/

theorem mem_warned_call_iff {call : Call} {name : String} :
    name ∈ (g.call call).graph.diagnostics.warned ↔
      name ∈ g.diagnostics.warned ∨ ∃ error, (g.record call).Fails name error := by
  rcases g.call_warns call with ⟨name', error', hfails, -, -, hwarned⟩ | ⟨-, hwarned, hknown⟩
  · rw [hwarned, List.mem_cons, or_comm]
    refine or_congr_right ⟨?_, ?_⟩
    · rintro rfl
      exact ⟨error', hfails⟩
    · rintro ⟨error, hfails'⟩
      exact (hfails.unique hfails').1
  · rw [hwarned]
    constructor
    · exact Or.inl
    · rintro (hname | ⟨error, hfails⟩)
      · exact hname
      · exact hknown name error hfails

theorem rejected_mem_call_iff {call : Call} {name : String} {error : InferError} :
    .rejected name error ∈ (g.call call).events ↔
      (g.record call).Fails name error ∧ name ∉ g.diagnostics.warned := by
  have hmem : .rejected name error ∈ (g.call call).events ↔
      .rejected name error ∈ (g.call call).events.filter (Event.At .warn) := by
    rw [List.mem_filter]
    exact ⟨fun h => ⟨h, rfl⟩, fun h => h.1⟩
  rw [hmem]
  rcases g.call_warns call with ⟨name', error', hfails, hnew, hfilter, -⟩ | ⟨hfilter, -, hknown⟩
  · rw [hfilter, List.mem_singleton, Event.rejected.injEq]
    constructor
    · rintro ⟨rfl, rfl⟩
      exact ⟨hfails, hnew⟩
    · rintro ⟨hfails', -⟩
      exact hfails.unique hfails'
  · rw [hfilter]
    constructor
    · exact fun h => absurd h List.not_mem_nil
    · rintro ⟨hfails, hnew⟩
      exact absurd (hknown name error hfails) hnew

/-- A call warns about a name if it fails aloud, and no call before it did so for that name. -/
theorem rejected_mem_iff {calls : List Call} {before after : List Record} {r : Record}
    (h : g.history calls = before ++ r :: after) {name : String} {error : InferError} :
    .rejected name error ∈ r.events ↔
      r.Fails name error ∧ name ∉ g.diagnostics.warned ∧
        ∀ r' ∈ before, ∀ error', ¬r'.Fails name error' := by
  induction calls generalizing g before with
  | nil =>
    have hnil : g.history [] = [] := rfl
    rw [hnil] at h
    exact absurd h.symm (by simp)
  | cons call calls ih =>
    rw [history_cons] at h
    cases before with
    | nil =>
      obtain ⟨rfl, -⟩ := List.cons.inj h
      show .rejected name error ∈ (g.call call).events ↔ _
      rw [rejected_mem_call_iff]
      simp
    | cons first before =>
      obtain ⟨rfl, hrest⟩ := List.cons.inj h
      rw [ih hrest, mem_warned_call_iff]
      simp only [not_or, not_exists, List.forall_mem_cons, and_assoc]

/-- The warnings of a history are about names that differ from one another, and from those that were
warned about before. -/
theorem exists_warnings (g : Graph) (calls : List Call) :
    ∃ warnings : List (String × InferError),
      (g.reports calls).filter (Event.At .warn) =
          warnings.map (fun (name, error) => .rejected name error) ∧
        (warnings.map Prod.fst).Nodup ∧
        ∀ name ∈ warnings.map Prod.fst, name ∉ g.diagnostics.warned := by
  induction calls generalizing g with
  | nil => exact ⟨[], rfl, List.nodup_nil, fun name hname => absurd hname List.not_mem_nil⟩
  | cons call calls ih =>
    obtain ⟨warnings, hfilter, hnodup, hnew⟩ := ih (g.call call).graph
    rw [reports_cons, List.filter_append, hfilter]
    rcases g.call_warns call with ⟨name, error, -, hname, hcall, hwarned⟩ | ⟨hcall, hwarned, -⟩
    · simp only [hwarned, List.mem_cons, not_or] at hnew
      refine ⟨(name, error) :: warnings, by rw [hcall]; rfl, ?_, ?_⟩
      · exact List.nodup_cons.2 ⟨fun hmem => (hnew name hmem).1 rfl, hnodup⟩
      · rw [List.map_cons, List.forall_mem_cons]
        exact ⟨hname, fun name' hname' => (hnew name' hname').2⟩
    · rw [hwarned] at hnew
      exact ⟨warnings, by rw [hcall]; rfl, hnodup, hnew⟩

/-! ### Additions -/

theorem isReportedBy_of_extends {r : Record} {g' : Graph} {event : Event}
    (h : r.IsReportedBy g event) (hextends : g.Extends g') : r.IsReportedBy g' event := by
  obtain ⟨name, op, inputs, output, id, hcall, hanswer, hnode, hevent⟩ := h
  exact ⟨name, op, inputs, output, id, hcall, hanswer, hextends id.toNat _ hnode, hevent⟩

/-- The reports of additions are those of the operators that are added aloud, one for one. -/
theorem forall₂_informs (hg : g.size ≤ NodeId.capacity) (calls : List Call) :
    List.Forall₂ (fun event r => r.IsReportedBy (g.run calls).1 event)
      ((g.reports calls).filter (Event.At .info)) ((g.history calls).filter Record.Adds) := by
  induction calls generalizing g with
  | nil => exact List.Forall₂.nil
  | cons call calls ih =>
    have hrest := ih (size_le_call g call hg)
    rw [reports_cons, List.filter_append, history_cons]
    rcases call_informs hg call with ⟨hadds, event, hreported, hfilter⟩ | ⟨hadds, hfilter⟩
    · rw [hfilter, List.filter_cons_of_pos (by simpa using hadds)]
      exact List.Forall₂.cons (isReportedBy_of_extends hreported (extends_run _ calls)) hrest
    · rw [hfilter, List.filter_cons_of_neg (by simpa using hadds)]
      exact hrest

/-! ## Main result -/

/-- **Reports are exact.**  Over the whole life of a graph the warnings are about failed inference, no
two of them about the same name.  A name is warned about by the first call for it that fails inference
at a level at which warnings are heard, whatever else failed before.  Additions are reported in order,
one for each operator that was added at the most talkative level, with the position that was answered
and the operator and the output that are stored there. -/
theorem reports_exact (level : DiagnosticLevel) (calls : List Call) :
    ((new level).history calls).map (fun r => (r.call, r.answer, r.events)) =
        calls.zip ((new level).run calls).2 ∧
      (∃ warnings : List (String × InferError),
        ((new level).reports calls).filter (Event.At .warn) =
            warnings.map (fun (name, error) => .rejected name error) ∧
          (warnings.map Prod.fst).Nodup) ∧
      (∀ before r after, (new level).history calls = before ++ r :: after → ∀ name error,
        .rejected name error ∈ r.events ↔
          r.Fails name error ∧ ∀ r' ∈ before, ∀ error', ¬r'.Fails name error') ∧
      List.Forall₂ (fun event r => r.IsReportedBy ((new level).run calls).1 event)
        (((new level).reports calls).filter (Event.At .info))
        (((new level).history calls).filter Record.Adds) := by
  refine ⟨map_history_eq_zip _ calls, ?_, ?_, forall₂_informs (size_new_le level) calls⟩
  · obtain ⟨warnings, hfilter, hnodup, -⟩ := (new level).exists_warnings calls
    exact ⟨warnings, hfilter, hnodup⟩
  · intro before r after h name error
    have hnew : name ∉ (new level).diagnostics.warned := List.not_mem_nil
    rw [rejected_mem_iff h]
    simp only [hnew, not_false_eq_true, true_and]

/-- A failure that nobody hears leaves the name for the first that is heard. -/
theorem reports_exact_heard_late :
    ∃ r ∈ (new .off).history
        [.addOperator "early" (.unary "Neg") [], .setLevel .warn,
          .addOperator "early" (.unary "Neg") []],
      r.level = .warn ∧ .rejected "early" (.inputCount 1 0) ∈ r.events := by
  obtain ⟨-, -, hwarns, -⟩ := reports_exact .off
    [.addOperator "early" (.unary "Neg") [], .setLevel .warn, .addOperator "early" (.unary "Neg") []]
  have hhistory : (new .off).history
      [.addOperator "early" (.unary "Neg") [], .setLevel .warn,
        .addOperator "early" (.unary "Neg") []] =
      [(new .off).record (.addOperator "early" (.unary "Neg") []),
          (new .off).record (.setLevel .warn)] ++
        (new .warn).record (.addOperator "early" (.unary "Neg") []) :: [] := rfl
  refine ⟨(new .warn).record (.addOperator "early" (.unary "Neg") []), ?_, rfl, ?_⟩
  · rw [hhistory]
    simp
  · refine (hwarns _ _ _ hhistory "early" (.inputCount 1 0)).2 ⟨⟨Or.inl rfl, _, _, rfl, rfl⟩, ?_⟩
    -- The first failure is made at a quiet level, and setting the level is no failure.
    intro r hr error hfails
    rcases List.mem_cons.1 hr with rfl | hr
    · rcases hfails.1 with h | h
      · cases h
      · cases h
    · obtain rfl := List.mem_singleton.1 hr
      obtain ⟨-, op, inputs, hcall, -⟩ := hfails
      cases hcall

end Graph

end TensorInference
