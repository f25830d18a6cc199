import Mathlib.Data.List.Permutation
import TensorInference.Proofs.Document.Offence

/-!
# What comes of a document of a tensor

A document of a tensor is a map.  One of its entries is refused, or its entries fall short of a tensor
when all have been read, or they spell out a tensor.  `readTensor_exact` says that reading the document
ends as its entries have it, be there as many of them as there may and in any order.

A draft is finished in one of three ways, which are told apart by the fields it has.  The entries that
were taken in have no more than these two fields, so they are known as soon as both fields are.

* `Spells`, `Draft.takeAll_eq_ok_iff_spells` --- entries that give a shape and data.
* `FallsShort`, `Draft.finish_eq_error_iff` --- entries that are taken in and make no tensor.
* `readTensor_exact` --- which tensor a document is read as, and why it is refused.
-/

namespace TensorInference.Document

open Outcome

variable {α β : Type} [ReadElement α] {before : List (String × Value)}
  {entry : String × Value}

/-! ## Entries that spell out a tensor -/

/-- Entries spell out a shape and data: they are a list of counts under the one name and a list of
elements under the other, in either order, and nothing else. -/
def Spells (α : Type) [ReadElement α] (entries : List (String × Value)) (shape : Shape)
    (data : Array α) : Prop :=
  ∃ values : List Value,
    entries.Perm [(Field.shape.name, .list (shape.dims.map .count)),
        (Field.data.name, .list values)] ∧
      shape.InWord ∧
      List.Forall₂ (fun value a => ReadElement.read value.head = .ok a) values data.toList

theorem readCount_eq_ok_iff {t : Token} {n : Nat} :
    readCount t = .ok n ↔ t = .number (.integer n) ∧ n ≤ Word.maxValue := by
  constructor
  · intro h
    unfold readCount at h
    split at h
    · split at h
      · next m hrange =>
        cases h
        rw [Int.toNat_of_nonneg hrange.1]
        exact ⟨rfl, by omega⟩
      · cases h
    · cases h
  · rintro ⟨rfl, hn⟩
    exact faithfulToken_count.read_write hn

namespace Value

theorem head_eq_number_iff {value : Value} {n : Number} :
    value.head = .number n ↔ value = number n := by
  cases value <;> simp [head]

/-- A value is read as counts just if it is the list of them. -/
theorem readAll_readCount_eq_ok_iff {value : Value} {dims : List Nat} :
    value.readAll readCount = .ok dims ↔
      value = list (dims.map count) ∧ ∀ n ∈ dims, n ≤ Word.maxValue := by
  rw [readAll_eq_ok_iff]
  constructor
  · rintro ⟨values, rfl, hvalues⟩
    induction hvalues with
    | nil => exact ⟨rfl, List.forall_mem_nil _⟩
    | cons hhead _ ih =>
      obtain ⟨hnumber, hn⟩ := readCount_eq_ok_iff.1 hhead
      obtain rfl := head_eq_number_iff.1 hnumber
      rw [list.injEq] at ih ⊢
      exact ⟨by rw [ih.1, List.map_cons, count], List.forall_mem_cons.2 ⟨hn, ih.2⟩⟩
  · rintro ⟨rfl, hdims⟩
    refine ⟨_, rfl, List.forall₂_map_left_iff.2 (List.forall₂_same.2 fun n hn => ?_)⟩
    exact readCount_eq_ok_iff.2 ⟨rfl, hdims n hn⟩

end Value

namespace Clean

variable {entries : List (String × Value)} (h : Clean α entries)
include h

/-- The keys are names of fields, each coming once. -/
theorem nodup_keys_and_exists_field :
    (keys entries).Nodup ∧ ∀ key ∈ keys entries, ∃ field : Field, key = field.name := by
  induction entries using List.reverseRecOn with
  | nil => exact ⟨List.nodup_nil, nofun⟩
  | append_singleton before entry ih =>
    obtain ⟨hbefore, hentry⟩ := clean_concat_iff.1 h
    obtain ⟨hnodup, hfields⟩ := ih hbefore
    obtain ⟨key, value⟩ := entry
    have hfield : ∃ field : Field, key = field.name := by
      by_contra hunknown
      exact hentry _ (.key (.unknown (not_exists.1 hunknown)))
    have hnew : key ∉ keys before := by
      obtain ⟨field, hkey⟩ := hfield
      exact fun hmem => hentry _ (.key (.duplicate hkey hmem))
    rw [keys_append]
    refine ⟨hnodup.append (List.nodup_singleton key) (List.disjoint_singleton.2 hnew),
      fun key' hkey' => ?_⟩
    rcases List.mem_append.1 hkey' with hkey' | hkey'
    · exact hfields key' hkey'
    · obtain rfl := List.mem_singleton.1 hkey'
      exact hfield

/-- Clean entries with a shape and data have nothing else. -/
theorem perm_pair {v w : Value} (hshape : (Field.shape.name, v) ∈ entries)
    (hdata : (Field.data.name, w) ∈ entries) :
    entries.Perm [(Field.shape.name, v), (Field.data.name, w)] := by
  obtain ⟨hnodup, hfields⟩ := h.nodup_keys_and_exists_field
  have hunique {entry entry' : String × Value} (hmem : entry ∈ entries) (hmem' : entry' ∈ entries)
      (hkey : entry.1 = entry'.1) : entry = entry' :=
    List.inj_on_of_nodup_map hnodup hmem hmem' hkey
  have hpair : [(Field.shape.name, v), (Field.data.name, w)].Nodup := by
    simp [Field.name]
  rw [List.perm_ext_iff_of_nodup (hnodup.of_map _) hpair]
  intro entry
  constructor
  · intro hmem
    obtain ⟨field, hkey⟩ := hfields entry.1 (List.mem_map_of_mem hmem)
    cases field with
    | shape => exact List.mem_cons.2 (.inl (hunique hmem hshape hkey))
    | data => exact List.mem_cons_of_mem _ (List.mem_singleton.2 (hunique hmem hdata hkey))
  · intro hmem
    rcases List.mem_pair.1 hmem with rfl | rfl
    · exact hshape
    · exact hdata

end Clean

theorem Holds.exists_of_eq_some {name : String} {reads : Value → β → Prop} {b : β}
    (h : Holds name reads before (some b)) : ∃ value, (name, value) ∈ before ∧ reads value b := by
  have hmem : name ∈ keys before := by
    by_contra hnew
    cases h.eq_none hnew
  obtain ⟨value, hvalue⟩ := mem_keys_iff.1 hmem
  obtain ⟨b', hb, hreads⟩ := h.eq_some hvalue
  cases hb
  exact ⟨value, hvalue, hreads⟩

/-- Taking in entries fills both fields just if the entries spell out what is in them. -/
theorem Draft.takeAll_eq_ok_iff_spells {entries : List (String × Value)} {shape : Shape}
    {data : Array α} :
    (Draft.empty : Draft α).takeAll entries = .ok ⟨some shape, some data⟩ ↔
      Spells α entries shape data := by
  constructor
  · intro h
    obtain ⟨hclean, hof⟩ := of_takeAll h
    obtain ⟨v, hv, hshape⟩ := hof.shape.exists_of_eq_some
    obtain ⟨w, hw, hdata⟩ := hof.data.exists_of_eq_some
    obtain ⟨rfl, hword⟩ := Value.readAll_readCount_eq_ok_iff.1 hshape
    obtain ⟨values, rfl, hvalues⟩ := Value.readAll_eq_ok_iff.1 hdata
    exact ⟨values, hclean.perm_pair hv hw, hword, hvalues⟩
  · rintro ⟨values, hperm, hword, hvalues⟩
    have hshape : Value.readAll readCount (.list (shape.dims.map .count)) = .ok shape.dims :=
      Value.readAll_readCount_eq_ok_iff.2 ⟨rfl, hword⟩
    have hdata : Value.readAll ReadElement.read (.list values) = .ok data.toList :=
      Value.readAll_eq_ok_iff.2 ⟨values, rfl, hvalues⟩
    have hputShape (draft : Draft α) : draft.put .shape (.list (shape.dims.map .count)) =
        .ok { draft with shape := some shape } := by
      rw [put, hshape]
      rfl
    have hputData (draft : Draft α) :
        draft.put .data (.list values) = .ok { draft with data := some data } := by
      rw [put, hdata]
      rfl
    -- The entries come in one of two orders, and what the draft holds is the same.
    rcases List.perm_pair.1 hperm with rfl | rfl
    · rw [takeAll_cons, take_name rfl, hputShape]
      show takeAll _ [_] = _
      rw [takeAll_cons, take_name rfl, hputData]
      rfl
    · rw [takeAll_cons, take_name rfl, hputData]
      show takeAll _ [_] = _
      rw [takeAll_cons, take_name rfl, hputShape]
      rfl

/-! ## Entries that fall short -/

/-- Entries of which none is refused make no tensor: there is no shape, or else there are no data, or
else the two do not go together. -/
inductive FallsShort (α : Type) [ReadElement α] (entries : List (String × Value)) :
    Error → Prop where
  | shape (h : Field.shape.name ∉ keys entries) : FallsShort α entries (.missingField .shape)
  | data (hshape : Field.shape.name ∈ keys entries) (h : Field.data.name ∉ keys entries) :
      FallsShort α entries (.missingField .data)
  | tensor {shape : Shape} {data : Array α} {d : DataError} (hspells : Spells α entries shape data)
      (h : Tensor.ofData shape data = .error d) : FallsShort α entries (.badTensor d)

namespace Draft

variable {entries : List (String × Value)}

/-- A draft is finished just as the entries in it spell out a tensor. -/
theorem takeAll_finish_eq_ok_iff {t : Tensor α} :
    ((Draft.empty : Draft α).takeAll entries >>= finish) = .ok t ↔
      Spells α entries t.shape t.data ∧ t.WellSized := by
  rw [bind_eq_ok_iff]
  constructor
  · rintro ⟨⟨shape?, data?⟩, htake, hfinish⟩
    unfold finish at hfinish
    split at hfinish
    · cases hfinish
    · cases hfinish
    · next shape data hshape hdata =>
      obtain rfl := hshape
      obtain rfl := hdata
      obtain ⟨rfl, ht⟩ := Tensor.ofData_eq_ok_iff.1 (mapError_eq_ok_iff.1 hfinish)
      exact ⟨takeAll_eq_ok_iff_spells.1 htake, ht⟩
  · rintro ⟨hspells, ht⟩
    refine ⟨_, takeAll_eq_ok_iff_spells.2 hspells, mapError_eq_ok_iff.2 ?_⟩
    exact Tensor.ofData_eq_ok_iff.2 ⟨rfl, ht⟩

/-- A draft of entries is not finished just where the entries fall short. -/
theorem finish_eq_error_iff {draft : Draft α} {e : Error}
    (htake : Draft.empty.takeAll entries = .ok draft) :
    draft.finish = .error e ↔ FallsShort α entries e := by
  obtain ⟨-, hof⟩ := of_takeAll htake
  constructor
  · intro hfinish
    unfold finish at hfinish
    split at hfinish
    · next hshape =>
      cases hfinish
      exact .shape (hof.shape.eq_none_iff.1 hshape)
    · next hshape hdata =>
      cases hfinish
      exact .data (hof.has_iff.1 (Option.isSome_of_eq_some hshape)) (hof.data.eq_none_iff.1 hdata)
    · next shape data hshape hdata =>
      have hdraft : draft = ⟨some shape, some data⟩ := by rw [← hshape, ← hdata]
      have hspells := takeAll_eq_ok_iff_spells.1 (hdraft ▸ htake)
      cases hmake : Tensor.ofData shape data with
      | ok t =>
        rw [hmake] at hfinish
        cases hfinish
      | error d =>
        rw [hmake] at hfinish
        cases hfinish
        exact .tensor hspells hmake
  · intro hshort
    cases hshort with
    | shape h => rw [finish, hof.shape.eq_none h]
    | data hshape h =>
      have hhas : draft.has .shape = true := hof.has_iff.2 hshape
      obtain ⟨shape, hshape⟩ := Option.isSome_iff_exists.1 hhas
      rw [finish, hshape, hof.data.eq_none h]
    | tensor hspells h =>
      obtain rfl := Except.ok.inj (htake.symm.trans (takeAll_eq_ok_iff_spells.2 hspells))
      show (Tensor.ofData _ _).mapError Error.badTensor = _
      rw [h]
      rfl

theorem takeAll_finish_eq_error_iff {e : Error} :
    ((Draft.empty : Draft α).takeAll entries >>= finish) = .error e ↔
      FirstOffends α entries e ∨ Clean α entries ∧ FallsShort α entries e := by
  rw [bind_eq_error_iff, takeAll_eq_error_iff]
  refine or_congr_right ⟨?_, ?_⟩
  · rintro ⟨draft, htake, hfinish⟩
    exact ⟨(of_takeAll htake).1, (finish_eq_error_iff htake).1 hfinish⟩
  · rintro ⟨hclean, hshort⟩
    obtain ⟨draft, htake, -⟩ := exists_takeAll_of_clean hclean
    exact ⟨draft, htake, (finish_eq_error_iff htake).2 hshort⟩

end Draft

/-! ## Whole documents -/

theorem failsOnly_readAll {read : Token → Except Error β}
    (hread : ∀ t, FailsOnly Error.IsTextual (read t)) (value : Value) :
    FailsOnly Error.IsTextual (value.readAll read) := by
  cases value with
  | list values =>
    induction values with
    | nil => exact .ok
    | cons value values ih =>
      rw [Value.readAll, List.mapM_cons]
      exact (hread _).bind fun a => FailsOnly.bind ih fun as => .ok
  | _ => exact .error (Token.isTextual_refuse _ _)

/-- An entry is refused for the text of the document. -/
theorem Offends.isTextual (hread : ∀ t, FailsOnly Error.IsTextual (ReadElement.read (α := α) t))
    {e : Error} (h : Offends α before entry e) : e.IsTextual := by
  cases h with
  | key hkey =>
    cases hkey with
    | unknown => exact nofun
    | duplicate => exact nofun
  | @value _ _ _ field _ _ hvalue =>
    cases field with
    | shape => exact failsOnly_readAll failsOnly_readCount _ e hvalue
    | data => exact failsOnly_readAll hread _ e hvalue

/-- The text of a map of entries is read by taking in all entries. -/
theorem read_map {text : String} {entries : List (String × Value)}
    (hread : ReadsScalars (ReadElement.read (α := α)))
    (hscan : Token.scan text.toList = ((Value.map entries).tokens, true)) :
    read (readTensor (α := α)) text = (Draft.empty.takeAll entries >>= Draft.finish) := by
  have htokens := readTensor_map hread entries []
  rw [List.append_nil] at htokens
  exact read_eq_of_scan hscan htokens

/-- Only a late zero keeps the error for some entries from being told. -/
theorem not_told_iff (hread : ∀ t, FailsOnly Error.IsTextual (ReadElement.read (α := α) t))
    {entries : List (String × Value)} {e : Error}
    (h : ((Draft.empty : Draft α).takeAll entries >>= Draft.finish) = .error e) :
    ¬e.Told ↔ ∃ (shape : Shape) (data : Array α) (d : DataError),
      Spells α entries shape data ∧ Tensor.ofData shape data = .error d ∧ shape.LateZero := by
  constructor
  · intro htold
    rcases Draft.takeAll_finish_eq_error_iff.1 h with
      ⟨before, entry, after, -, -, hoffends⟩ | ⟨-, hshort⟩
    · exact absurd (hoffends.isTextual hread).told htold
    · cases hshort with
      | shape => exact absurd (.inr ⟨_, rfl⟩) htold
      | data => exact absurd (.inr ⟨_, rfl⟩) htold
      | tensor hspells hdata =>
        rw [Error.not_told_badTensor_iff, Tensor.message?_eq_none_iff_of_ofData hdata] at htold
        exact ⟨_, _, _, hspells, hdata, htold⟩
  · rintro ⟨shape, data, d, hspells, hdata, hlate⟩
    -- Reading has one outcome, so the error is the one that these data are refused with.
    have hclean : Clean α entries :=
      (Draft.of_takeAll (Draft.takeAll_eq_ok_iff_spells.2 hspells)).1
    have hbad :
        ((Draft.empty : Draft α).takeAll entries >>= Draft.finish) = .error (.badTensor d) :=
      Draft.takeAll_finish_eq_error_iff.2 (.inr ⟨hclean, .tensor hspells hdata⟩)
    obtain rfl := Except.error.inj (h.symm.trans hbad)
    rwa [Error.not_told_badTensor_iff, Tensor.message?_eq_none_iff_of_ofData hdata]

/-- **A tensor is read just where the entries spell out one, and otherwise the first problem is the
error.**  Entries that are refused come first, from the left, each for its key before its value; then
a missing shape, then missing data, then what is wrong with the two together.  The error is told
unless it is of that last sort and the shape has a late zero.  A key is refused as soon as it has been
read, so it does not matter whether its value, or anything behind it, is well formed. -/
theorem readTensor_exact {σ : StoredType} :
    (∀ (text : String) (entries : List (String × Value)),
        Token.scan text.toList = ((Value.map entries).tokens, true) →
          (∀ t, read (readTensor (α := σ.Value)) text = .ok t ↔
              Spells σ.Value entries t.shape t.data ∧
                t.shape.dims.prod = t.data.size ∧ t.data.size ≤ Word.maxValue) ∧
            (∀ e, read (readTensor (α := σ.Value)) text = .error e ↔
              FirstOffends σ.Value entries e ∨
                Clean σ.Value entries ∧ FallsShort σ.Value entries e) ∧
            ∀ e, read (readTensor (α := σ.Value)) text = .error e →
              (¬e.Told ↔ ∃ (shape : Shape) (data : Array σ.Value) (d : DataError),
                Spells σ.Value entries shape data ∧ Tensor.ofData shape data = .error d ∧
                  shape.LateZero)) ∧
      ∀ (text : String) (before : List (String × Value)) (key : String) (behind : List Token)
        (complete : Bool) (e : Error), Clean σ.Value before → KeyOffends before key e →
          Token.scan text.toList =
              (.openMap :: (Value.leadingTokens before ++ .text key :: behind), complete) →
            read (readTensor (α := σ.Value)) text = .error e := by
  have hscalars := readsScalars_readElement σ
  constructor
  · intro text entries hscan
    rw [read_map hscalars hscan]
    refine ⟨fun t => ?_, fun e => Draft.takeAll_finish_eq_error_iff, fun e he => ?_⟩
    · rw [Draft.takeAll_finish_eq_ok_iff]
      exact and_congr_right fun _ => ⟨fun ht => ⟨ht.size_eq.symm, ht.size_le⟩,
        fun ⟨hsize, hle⟩ => ⟨hsize.symm, hle⟩⟩
    · exact not_told_iff (failsOnly_readElement σ) he
  · intro text before key behind complete e hclean hkey hscan
    obtain ⟨draft, hdraft, hof⟩ := Draft.exists_takeAll_of_clean hclean
    refine read_eq_error_of_scan hscan ?_
    rw [readTensor_leadingTokens hscalars, hdraft]
    exact Draft.readEntries_of_claim_eq_error (hof.claim_eq_error_iff.2 hkey) behind

/-- The data may come before the shape, and a shape that comes again is refused whatever it is. -/
theorem readTensor_exact_data_first :
    read (readTensor (α := Int32)) "\x7b\"data\":[1,2],\"shape\":[2]\x7d" =
        .ok ⟨⟨[2]⟩, #[1, 2]⟩ ∧
      read (readTensor (α := Int32)) "\x7b\"shape\":[2],\"shape\":[null],\"x\":0\x7d" =
        .error (.duplicateField .shape) := by
  have hfirst : Token.scan "\x7b\"data\":[1,2],\"shape\":[2]\x7d".toList =
      ((Value.map [("data", .list [.count 1, .count 2]), ("shape", .list [.count 2])]).tokens,
        true) :=
    Value.scan_toList (by decide) (by decide)
  have hspells : Spells Int32
      [("data", .list [.count 1, .count 2]), ("shape", .list [.count 2])] ⟨[2]⟩ #[1, 2] :=
    ⟨_, .swap _ _ _, by decide, .cons rfl (.cons rfl .nil)⟩
  have hsecond : Token.scan "\x7b\"shape\":[2],\"shape\":[null],\"x\":0\x7d".toList =
      ((Value.map [("shape", .list [.count 2]), ("shape", .list [.null]), ("x", .count 0)]).tokens,
        true) :=
    Value.scan_toList (by decide) (by decide)
  have htake : (Draft.empty : Draft Int32).takeAll [("shape", .list [.count 2])] =
      .ok ⟨some ⟨[2]⟩, none⟩ := rfl
  have hkey : KeyOffends [("shape", .list [.count 2])] "shape" (.duplicateField .shape) :=
    .duplicate rfl (by decide)
  obtain ⟨hread, hrefuse⟩ := readTensor_exact (σ := .exact .i32)
  exact ⟨((hread _ _ hfirst).1 _).2 ⟨hspells, by decide, by decide⟩,
    hrefuse _ _ _ _ _ _ (Draft.of_takeAll htake).1 hkey hsecond⟩

/-- One element before the extents `2 ^ 63`, `2` and `0` is data and a shape.  They are refused as
such, and nothing is said of it. -/
theorem refused_untold_data_first :
    Spells Int32
        [("data", .list [.count 1]), ("shape", .list [.count (2 ^ 63), .count 2, .count 0])]
        ⟨[2 ^ 63, 2, 0]⟩ #[1] ∧
      Tensor.ofData ⟨[2 ^ 63, 2, 0]⟩ (#[1] : Array Int32) =
        .error (.lengthMismatch ⟨[2 ^ 63, 2, 0]⟩ 1) ∧
      read (readTensor (α := Int32)) "\x7b\"data\":[1],\"shape\":[9223372036854775808,2,0]\x7d" =
        .error (.badTensor (.lengthMismatch ⟨[2 ^ 63, 2, 0]⟩ 1)) ∧
      (Error.badTensor (.lengthMismatch ⟨[2 ^ 63, 2, 0]⟩ 1)).message? = none := by
  have hscan : Token.scan "\x7b\"data\":[1],\"shape\":[9223372036854775808,2,0]\x7d".toList =
      ((Value.map [("data", .list [.count 1]),
        ("shape", .list [.count (2 ^ 63), .count 2, .count 0])]).tokens, true) :=
    Value.scan_toList (by decide) (by decide)
  have hscalars : ReadsScalars (ReadElement.read (α := Int32)) :=
    readsScalars_readElement (.exact .i32)
  refine ⟨⟨_, .swap _ _ _, by decide, .cons rfl .nil⟩, rfl, ?_, rfl⟩
  rw [read_map hscalars hscan]
  rfl

end TensorInference.Document
