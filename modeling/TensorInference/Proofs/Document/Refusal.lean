import TensorInference.Proofs.Document.Tensor
import TensorInference.Proofs.Reduction.Identity
import TensorInference.Proofs.Tensor.Construct

/-!
# Why a tensor is refused

A document of a tensor is refused for its text, or because the shape and the data in it do not make a
tensor.  The errors of the first sort all have a text, that of a malformed document being left to the
reader's user; the errors of the second sort are those that data from anywhere else are refused with,
and these have a text unless the shape has a late zero.  So a late zero is the only thing that can keep
a document from ending in a tensor or in an error that is told.

Each part of the reader fails only in the first way.  The second way comes in where the draft is
finished, and nowhere before.

* `Error.Told` --- an error that is told.
* `Refusal`, `failsOnly_read` --- why a document is refused.
* `told_unless_lateZero` --- which refusals are told.
-/

namespace TensorInference

namespace StoredType

open Document

instance : (σ : StoredType) → ReadElement σ.Value
  | exact τ => inferInstanceAs (ReadElement τ.Value)
  | f32 => inferInstanceAs (ReadElement Float32)
  | f64 => inferInstanceAs (ReadElement Float)

end StoredType

namespace Document

open Outcome

/-! ## Errors -/

namespace Error

/-- The error is that the text is malformed, or it has a text of its own. -/
def Told (e : Error) : Prop :=
  e = .malformed ∨ ∃ text, e.message? = some text

/-- The error is found in the text, before a shape is held against data. -/
def IsTextual (e : Error) : Prop :=
  ∀ d, e ≠ .badTensor d

theorem IsTextual.told {e : Error} (h : e.IsTextual) : e.Told := by
  cases e with
  | malformed => exact .inl rfl
  | badTensor d => exact absurd rfl (h d)
  | wrongKind found expected => exact .inr ⟨_, rfl⟩
  | outOfRange value expected => exact .inr ⟨_, rfl⟩
  | unknownElementType name => exact .inr ⟨_, rfl⟩
  | missingField field => exact .inr ⟨_, rfl⟩
  | duplicateField field => exact .inr ⟨_, rfl⟩
  | unknownField key => exact .inr ⟨_, rfl⟩

theorem isTextual_malformed : IsTextual malformed :=
  fun d => by simp

theorem not_told_badTensor_iff {d : DataError} : ¬(badTensor d).Told ↔ d.message? = none := by
  rw [Option.eq_none_iff_forall_ne_some]
  constructor
  · intro h text htext
    exact h (.inr ⟨text, htext⟩)
  · rintro h (hmalformed | ⟨text, htext⟩)
    · cases hmalformed
    · exact h text htext

end Error

theorem Token.isTextual_refuse (t : Token) (expected : Expected) :
    (t.refuse expected).IsTextual := by
  unfold Token.refuse
  split
  · exact nofun
  · exact nofun

/-! ## Values and lists -/

theorem failsOnly_readCount (t : Token) : FailsOnly Error.IsTextual (readCount t) := by
  unfold readCount
  split
  · split
    · exact .ok
    · exact .error nofun
  · exact .error (Token.isTextual_refuse _ _)

theorem failsOnly_readInteger {α : Type} [FixedInt α] (t : Token) :
    FailsOnly Error.IsTextual (ReadElement.read (α := α) t) := by
  cases t with
  | number number =>
    cases number with
    | integer n =>
      show FailsOnly Error.IsTextual (if _ then _ else _)
      split
      · exact .ok
      · exact .error nofun
    | real x => exact .error (Token.isTextual_refuse _ _)
  | _ => exact .error (Token.isTextual_refuse _ _)

theorem failsOnly_readElement (σ : StoredType) (t : Token) :
    FailsOnly Error.IsTextual (ReadElement.read (α := σ.Value) t) := by
  cases σ with
  | f32 | f64 =>
    cases t with
    | number number =>
      cases number with
      | integer n => exact .ok
      | real x => exact .ok
    | _ => exact .error (Token.isTextual_refuse _ _)
  | exact τ =>
    cases τ with
    | boolean =>
      cases t with
      | boolean b => exact .ok
      | _ => exact .error (Token.isTextual_refuse _ _)
    | i8 => exact failsOnly_readInteger (α := Int8) t
    | i16 => exact failsOnly_readInteger (α := Int16) t
    | i32 => exact failsOnly_readInteger (α := Int32) t
    | i64 => exact failsOnly_readInteger (α := Int64) t
    | u8 => exact failsOnly_readInteger (α := UInt8) t
    | u16 => exact failsOnly_readInteger (α := UInt16) t
    | u32 => exact failsOnly_readInteger (α := UInt32) t
    | u64 => exact failsOnly_readInteger (α := UInt64) t

variable {α : Type}

theorem failsOnly_readMore {read : Token → Except Error α}
    (hread : ∀ t, FailsOnly Error.IsTextual (read t)) (tokens : List Token) :
    FailsOnly Error.IsTextual (readMore read tokens) := by
  fun_induction readMore read tokens with
  | case1 rest => exact .ok
  | case2 t tokens ih => exact (hread t).bind fun a => ih.bind fun more => .ok
  | case3 => exact .error Error.isTextual_malformed

theorem failsOnly_readList {read : Token → Except Error α}
    (hread : ∀ t, FailsOnly Error.IsTextual (read t)) (tokens : List Token) :
    FailsOnly Error.IsTextual (readList read tokens) := by
  unfold readList
  split
  · exact .ok
  · exact (hread _).bind fun a => (failsOnly_readMore hread _).bind fun more => .ok
  · exact .error nofun
  · exact .error (Token.isTextual_refuse _ _)
  · exact .error nofun

/-! ## Drafts -/

/-- Why a document of a tensor is refused. -/
inductive Refusal (α : Type) : Error → Prop where
  /-- It is for its text. -/
  | textual {e : Error} (h : e.IsTextual) : Refusal α e
  /-- The shape and the data in it do not make a tensor. -/
  | ofData {shape : Shape} {data : Array α} {d : DataError}
      (h : Tensor.ofData shape data = .error d) : Refusal α (.badTensor d)

namespace Draft

theorem failsOnly_claim (draft : Draft α) (key : String) :
    FailsOnly Error.IsTextual (draft.claim key) := by
  unfold claim
  split
  · split
    · exact .error nofun
    · exact .ok
  · split
    · split
      · exact .error nofun
      · exact .ok
    · exact .error nofun

theorem failsOnly_finish (draft : Draft α) : FailsOnly (Refusal α) draft.finish := by
  unfold finish
  split
  · exact .error (.textual nofun)
  · exact .error (.textual nofun)
  · next shape data _ _ =>
    cases hdata : Tensor.ofData shape data with
    | ok t => exact .ok
    | error d => exact .error (.ofData hdata)

variable [ReadElement α]

theorem failsOnly_readValue (hread : ∀ t, FailsOnly Error.IsTextual (ReadElement.read (α := α) t))
    (draft : Draft α) (field : Field) (tokens : List Token) :
    FailsOnly Error.IsTextual (draft.readValue field tokens) := by
  cases field with
  | shape =>
    have hshape : FailsOnly Error.IsTextual (readShape tokens) :=
      (failsOnly_readList failsOnly_readCount tokens).bind fun dims => .ok
    exact hshape.bind fun shape => .ok
  | data => exact (failsOnly_readList hread tokens).bind fun data => .ok

theorem failsOnly_readEntries
    (hread : ∀ t, FailsOnly Error.IsTextual (ReadElement.read (α := α) t)) (draft : Draft α)
    (tokens : List Token) : FailsOnly (Refusal α) (draft.readEntries tokens) := by
  fun_induction readEntries draft tokens with
  | case1 draft key _ e hclaim => exact .error (.textual (failsOnly_claim draft key e hclaim))
  | case2 draft key field value _ e hvalue =>
    exact .error (.textual (failsOnly_readValue hread draft field value e hvalue))
  | case3 draft key field value _ after rest hvalue => exact (failsOnly_finish after).map
  | case4 draft key field value _ after rest hvalue _ ih => exact ih
  | _ => exact .error (.textual Error.isTextual_malformed)

end Draft

/-! ## Whole documents -/

theorem failsOnly_readTensor [ReadElement α]
    (hread : ∀ t, FailsOnly Error.IsTextual (ReadElement.read (α := α) t)) (tokens : List Token) :
    FailsOnly (Refusal α) (readTensor (α := α) tokens) := by
  unfold readTensor
  split
  · exact (Draft.failsOnly_finish _).map
  · exact Draft.failsOnly_readEntries hread _ _
  · exact .error (.textual (Token.isTextual_refuse _ _))
  · exact .error (.textual nofun)

/-- A document of a tensor is refused for its text, or as its shape and data are refused. -/
theorem failsOnly_read [ReadElement α]
    (hread : ∀ t, FailsOnly Error.IsTextual (ReadElement.read (α := α) t)) (text : String) :
    FailsOnly (Refusal α) (read (readTensor (α := α)) text) := by
  intro e h
  have htensor := failsOnly_readTensor hread (Token.scan text.toList).1
  unfold read at h
  dsimp only at h
  split at h
  · next e' htokens =>
    obtain rfl := Except.error.inj h
    exact htensor _ htokens
  · split at h
    · cases h
    · obtain rfl := Except.error.inj h
      exact .textual nofun

/-- **A tensor is refused with a text unless the shape has a late zero.**  From data, the refusal states
the exact number of elements, or that it is too large; with a late zero it states nothing.  From a
document, the only error that is not told is that same refusal of the shape and data in it. -/
theorem told_unless_lateZero {β : Type} {σ : StoredType} :
    (∀ (shape : Shape) (data : Array β) (e : DataError), Tensor.ofData shape data = .error e →
        (¬shape.LateZero → e.message? = some (Tensor.refusalText shape data.size)) ∧
          (shape.LateZero → e.message? = none)) ∧
      ∀ (text : String) (e : Error), read (readTensor (α := σ.Value)) text = .error e →
        (¬e.Told ↔ ∃ (shape : Shape) (data : Array σ.Value) (d : DataError),
          Tensor.ofData shape data = .error d ∧ e = .badTensor d ∧ shape.LateZero) := by
  refine ⟨fun shape data e h => ⟨Tensor.message?_of_ofData h,
    (Tensor.message?_eq_none_iff_of_ofData h).2⟩, fun text e h => ?_⟩
  constructor
  · intro htold
    cases failsOnly_read (failsOnly_readElement σ) text e h with
    | textual htextual => exact absurd htextual.told htold
    | ofData hdata =>
      rw [Error.not_told_badTensor_iff, Tensor.message?_eq_none_iff_of_ofData hdata] at htold
      exact ⟨_, _, _, hdata, rfl, htold⟩
  · rintro ⟨shape, data, d, hdata, rfl, hlate⟩
    rwa [Error.not_told_badTensor_iff, Tensor.message?_eq_none_iff_of_ofData hdata]

/-- A zero that comes before huge extents is not late, and the refusal states that there are no
elements. -/
theorem told_early_zero :
    (DataError.lengthMismatch ⟨[0, 2 ^ 63, 2]⟩ 1).message? =
      some "data length 1 does not match shape \x7b0, 9223372036854775808, 2\x7d (0 elements)" := by
  have hrefused : Tensor.ofData ⟨[0, 2 ^ 63, 2]⟩ (#[1] : Array Int32) =
      .error (.lengthMismatch ⟨[0, 2 ^ 63, 2]⟩ 1) := rfl
  have hlate : ¬(⟨[0, 2 ^ 63, 2]⟩ : Shape).LateZero := by decide
  exact ((told_unless_lateZero (σ := .f32)).1 _ _ _ hrefused).1 hlate

/-- One element does not make a tensor of extents `2 ^ 63`, `2` and `0`, and nothing is said of it,
also where it is read from a document. -/
theorem refused_untold_late_zero :
    Tensor.ofData ⟨[2 ^ 63, 2, 0]⟩ (#[1] : Array Int32) =
        .error (.lengthMismatch ⟨[2 ^ 63, 2, 0]⟩ 1) ∧
      (DataError.lengthMismatch ⟨[2 ^ 63, 2, 0]⟩ 1).message? = none ∧
      read (readTensor (α := Int32)) "\x7b\"shape\":[9223372036854775808,2,0],\"data\":[1]\x7d" =
        .error (.badTensor (.lengthMismatch ⟨[2 ^ 63, 2, 0]⟩ 1)) := by
  refine ⟨rfl, rfl, ?_⟩
  have htext : "\x7b\"shape\":[9223372036854775808,2,0],\"data\":[1]\x7d" =
      write (writeTensor (⟨⟨[2 ^ 63, 2, 0]⟩, #[1]⟩ : Tensor Int32)) := by
    decide
  have hfaithful := faithfulToken_integer (α := Int32) (by decide) (by decide)
  exact htext ▸ read_write_tensor hfaithful (by decide)

end Document

end TensorInference
