import TensorInference.Operator.Basic
import TensorInference.Proofs.Outcome
import TensorInference.Proofs.Text.Listing

/-!
# What the messages of inference tell

All that is known of a failed inference is often the text of its error, and a value is described in a
log by the text of its tensor info.  Nothing is lost in these texts.  The seven causes of failure begin
their messages in seven ways; and the types, shapes, axes and numbers behind that are read again from
the words of the message, up to the length of a list and up to what is known of each extent.

* `PartialShape.readable_text` --- shapes, with an unknown rank or unknown extents.
* `InferError.initials_eq` --- the cause can be told from the first two characters.
* `InferError.message_inj`, `TensorInfo.text_inj` --- errors and infos, from their texts.
* `Operator.infer_told_by_texts` --- the outcomes of inference.
-/

namespace TensorInference

open Text

/-! ## Types, reductions and shapes -/

theorem ElementType.spells_name : Spells ElementType.name where
  isWord t := by cases t <;> decide
  injective t t' h := by
    have hsame : some t = some t' := by rw [← ofName?_name t, h, ofName?_name]
    exact Option.some.inj hsame

theorem Reduction.spells_name : Spells Reduction.name where
  isWord r := by cases r <;> decide
  injective r r' h := by
    revert h
    cases r <;> cases r' <;> decide

theorem Dimension.toString_ne_unknown (size : Nat) : toString size ≠ unknown.text := by
  intro h
  have hdigits : Nat.toDigits 10 size = ['?'] := by
    rw [← Document.Numeral.toList_toString_nat, h]
    rfl
  have hmark : '?' ∈ Nat.toDigits 10 size := hdigits ▸ List.mem_cons_self
  exact absurd (Document.Numeral.isDigit_of_mem_toDigits hmark) (by decide)

theorem Dimension.spells_text : Spells Dimension.text where
  isWord
    | known size => spells_nat.isWord size
    | unknown => by decide
  injective
    | known _, known _, h => congrArg known (spells_nat.injective h)
    | known size, unknown, h => absurd h (toString_ne_unknown size)
    | unknown, known size, h => absurd h.symm (toString_ne_unknown size)
    | unknown, unknown, _ => rfl

/-- An unknown rank is a question mark outside of braces. -/
theorem PartialShape.braced_append_ne (items : List String) (rest rest' : List Char) :
    (braced items).toList ++ rest ≠ unranked.text.toList ++ rest' := by
  intro h
  have hbrace : '\x7b' = '?' := by
    cases items with
    | nil => exact (List.cons.inj h).1
    | cons item items =>
      rw [toList_braced_cons] at h
      exact (List.cons.inj h).1
  exact absurd hbrace (by decide)

/-- Shapes are readable, whether or not their ranks are known. -/
theorem PartialShape.readable_text : Readable PartialShape.text := by
  intro s s' rest rest' hrest hrest' heq
  cases s with
  | unranked =>
    cases s' with
    | unranked => exact ⟨rfl, List.append_cancel_left heq⟩
    | ranked dims' => exact absurd heq.symm (braced_append_ne _ _ _)
  | ranked dims =>
    cases s' with
    | unranked => exact absurd heq (braced_append_ne _ _ _)
    | ranked dims' =>
      obtain ⟨rfl, hsame⟩ := Dimension.spells_text.braced_inj heq
      exact ⟨rfl, hsame⟩

/-- The text of a tensor info determines the info. -/
theorem TensorInfo.text_inj {info info' : TensorInfo} : info.text = info'.text ↔ info = info' := by
  have h : "" ++ info.elementType.name ++ " " ++ info.shape.text =
      "" ++ info'.elementType.name ++ " " ++ info'.shape.text ↔
        info.elementType = info'.elementType ∧ info.shape = info'.shape :=
    ElementType.spells_name.readable.clause_inj PartialShape.readable_text (by decide)
  rw [String.empty_append, String.empty_append] at h
  rw [text, text, h, TensorInfo.mk.injEq]

/-! ## Errors -/

namespace InferError

/-- The first two characters of the message, by the cause. -/
def initials : InferError → List Char
  | typeConflict _ => ['e', 'l']
  | shapeConflict _ => ['s', 'h']
  | axisRange _ => ['S', 'o']
  | attributeQuery _ => ['c', 'a']
  | inputCount _ _ => ['e', 'x']
  | unsupportedType _ _ => ['R', 'e']
  | maskLength _ _ => ['r', 'e']

theorem prefix_toList_append {initials : List Char} {front : String}
    (h : initials <+: front.toList) (rest : String) : initials <+: (front ++ rest).toList := by
  rw [String.toList_append]
  exact h.trans (List.prefix_append _ _)

theorem initials_prefix (e : InferError) : e.initials <+: e.message.toList := by
  cases e with
  | typeConflict conflict =>
    unfold message ElementType.Conflict.message
    iterate 4 refine prefix_toList_append ?_ _
    simp only [initials]
    decide
  | shapeConflict conflict =>
    unfold message PartialShape.Conflict.message
    iterate 4 refine prefix_toList_append ?_ _
    simp only [initials]
    decide
  | axisRange error =>
    unfold message AxisRangeError.message
    iterate 4 refine prefix_toList_append ?_ _
    simp only [initials]
    decide
  | attributeQuery error =>
    unfold message ElementType.AttributeError.message
    refine prefix_toList_append ?_ _
    simp only [initials]
    decide
  | inputCount expected actual =>
    unfold message
    iterate 3 refine prefix_toList_append ?_ _
    simp only [initials]
    decide
  | unsupportedType reduction elementType =>
    unfold message
    iterate 4 refine prefix_toList_append ?_ _
    simp only [initials]
    cases reduction <;> decide
  | maskLength length rank =>
    unfold message
    iterate 3 refine prefix_toList_append ?_ _
    simp only [initials]
    decide

theorem length_initials (e : InferError) : e.initials.length = 2 := by
  cases e <;> rfl

/-- The cause can be told from the first two characters. -/
theorem initials_eq {e e' : InferError} (h : e.message = e'.message) : e.initials = e'.initials := by
  have hlength : e.initials.length = e'.initials.length := by
    rw [length_initials, length_initials]
  have hprefix : e.initials <+: e'.initials :=
    List.prefix_of_prefix_length_le (h ▸ e.initials_prefix) e'.initials_prefix (Nat.le_of_eq hlength)
  exact hprefix.eq_of_length hlength

/-! ### One cause at a time -/

theorem typeConflict_inj {c c' : ElementType.Conflict} :
    c.message = c'.message ↔ c = c' := by
  rw [ElementType.Conflict.mk.injEq]
  exact ElementType.spells_name.readable.sentence_inj ElementType.spells_name.readable
    (by decide) (by decide +kernel)

theorem shapeConflict_inj {c c' : PartialShape.Conflict} :
    c.message = c'.message ↔ c = c' := by
  rw [PartialShape.Conflict.mk.injEq]
  exact PartialShape.readable_text.sentence_inj PartialShape.readable_text
    (by decide) (by decide +kernel)

theorem axisRange_inj {e e' : AxisRangeError} : e.message = e'.message ↔ e = e' := by
  rw [AxisRangeError.mk.injEq]
  exact spells_int.readable_braced.sentence_inj spells_nat.readable
    (by decide) (by decide +kernel)

theorem attributeQuery_inj {e e' : ElementType.AttributeError} :
    e.message = e'.message ↔ e = e' := by
  rw [ElementType.AttributeError.mk.injEq]
  exact (String.append_right_inj _).trans ElementType.spells_name.injective.eq_iff

theorem inputCount_inj {expected actual expected' actual' : Nat} :
    (inputCount expected actual).message = (inputCount expected' actual').message ↔
      expected = expected' ∧ actual = actual' := by
  unfold message
  exact spells_nat.readable.clause_inj spells_nat.readable (by decide)

theorem maskLength_inj {length rank length' rank' : Nat} :
    (maskLength length rank).message = (maskLength length' rank').message ↔
      length = length' ∧ rank = rank' := by
  unfold message
  exact spells_nat.readable.clause_inj spells_nat.readable (by decide)

theorem unsupportedType_inj {r r' : Reduction} {t t' : ElementType} :
    (unsupportedType r t).message = (unsupportedType r' t').message ↔ r = r' ∧ t = t' := by
  unfold message
  exact Reduction.spells_name.readable.remark_inj ElementType.spells_name.readable
    (by decide)

/-- **The text of an error determines the error**: the cause, and all that goes with it. -/
theorem message_inj {e e' : InferError} : e.message = e'.message ↔ e = e' := by
  refine ⟨fun h => ?_, congrArg message⟩
  have hinitials := initials_eq h
  cases e with
  | typeConflict conflict =>
    cases e' with
    | typeConflict conflict' => rw [typeConflict_inj.1 h]
    | _ => simp [initials] at hinitials
  | shapeConflict conflict =>
    cases e' with
    | shapeConflict conflict' => rw [shapeConflict_inj.1 h]
    | _ => simp [initials] at hinitials
  | axisRange error =>
    cases e' with
    | axisRange error' => rw [axisRange_inj.1 h]
    | _ => simp [initials] at hinitials
  | attributeQuery error =>
    cases e' with
    | attributeQuery error' => rw [attributeQuery_inj.1 h]
    | _ => simp [initials] at hinitials
  | inputCount expected actual =>
    cases e' with
    | inputCount expected' actual' => rw [(inputCount_inj.1 h).1, (inputCount_inj.1 h).2]
    | _ => simp [initials] at hinitials
  | unsupportedType reduction elementType =>
    cases e' with
    | unsupportedType reduction' elementType' =>
      rw [(unsupportedType_inj.1 h).1, (unsupportedType_inj.1 h).2]
    | _ => simp [initials] at hinitials
  | maskLength length rank =>
    cases e' with
    | maskLength length' rank' => rw [(maskLength_inj.1 h).1, (maskLength_inj.1 h).2]
    | _ => simp [initials] at hinitials

end InferError

/-! ## Inference -/

/-- **Nothing is lost in the texts of inference.**  Two outcomes are the same just when both the text
of the error and the text of the tensor info are the same, whatever the operators and the inputs.
Errors are told apart by their messages, with the cause, the types, shapes, axes and numbers; and
tensor infos are told apart by their texts. -/
theorem Operator.infer_told_by_texts :
    (∀ (op op' : Operator) (inputs inputs' : List TensorInfo),
      ((op.infer inputs).mapError InferError.message).map TensorInfo.text =
          ((op'.infer inputs').mapError InferError.message).map TensorInfo.text ↔
        op.infer inputs = op'.infer inputs') ∧
      (∀ e e' : InferError, e.message = e'.message ↔ e = e') ∧
      ∀ info info' : TensorInfo, info.text = info'.text ↔ info = info' := by
  have hmessage : InferError.message.Injective := fun _ _ => InferError.message_inj.1
  have htext : TensorInfo.text.Injective := fun _ _ => TensorInfo.text_inj.1
  refine ⟨fun op op' inputs inputs' => ⟨fun h => ?_, fun h => by rw [h]⟩,
    fun _ _ => InferError.message_inj, fun _ _ => TensorInfo.text_inj⟩
  exact Outcome.mapError_injective hmessage (Outcome.map_injective htext h)

end TensorInference
