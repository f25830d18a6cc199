import TensorInference.Proofs.Document.Entry

/-!
# Entries that are refused

An entry of a tensor is refused for its key, which is no field or has come before, or else for its
value, which is not what the field holds.  Whether it is depends on the entries before it and on
nothing else, so these notions are stated for entries alone, with no draft in sight.

A draft into which entries have been taken holds what they say, each field being filled by the one
entry with its name.  That invariant (`Draft.Of`) ties a step of reading to the entries: the next entry
is refused by the draft just where it offends behind those before it.  So all entries are taken in if
none of them offends, and otherwise the error is that of the first that does.

* `Offends`, `Clean`, `FirstOffends` --- what is refused, from the entries alone.
* `Draft.Of` --- what a draft holds.
* `Draft.Of.take_eq_error_iff`, `Draft.Of.take` --- one entry.
* `Draft.takeAll_eq_error_iff`, `Draft.of_takeAll` --- all entries.
-/

namespace TensorInference.Document

open Outcome

variable {α β : Type}

/-! ## Entries that offend -/

/-- The keys of entries, in order. -/
def keys (entries : List (String × Value)) : List String :=
  entries.map Prod.fst

/-- A key is refused behind other entries: it is none of the two fields, or it has come before. -/
inductive KeyOffends (before : List (String × Value)) : String → Error → Prop where
  | unknown {key : String} (h : ∀ field : Field, key ≠ field.name) :
      KeyOffends before key (.unknownField key)
  | duplicate {key : String} {field : Field} (hkey : key = field.name) (h : key ∈ keys before) :
      KeyOffends before key (.duplicateField field)

/-- A value is not what a field holds. -/
def Field.Refuses (α : Type) [ReadElement α] : Field → Value → Error → Prop
  | shape, value, e => value.readAll readCount = .error e
  | data, value, e => value.readAll (ReadElement.read (α := α)) = .error e

/-- An entry is refused behind other entries, for its key or else for its value. -/
inductive Offends (α : Type) [ReadElement α] (before : List (String × Value)) :
    String × Value → Error → Prop where
  | key {key : String} {value : Value} {e : Error} (h : KeyOffends before key e) :
      Offends α before (key, value) e
  | value {key : String} {value : Value} {e : Error} {field : Field} (hkey : key = field.name)
      (hnew : key ∉ keys before) (h : field.Refuses α value e) : Offends α before (key, value) e

/-- No entry is refused behind those before it, so none is refused at all. -/
def Clean (α : Type) [ReadElement α] (entries : List (String × Value)) : Prop :=
  ∀ before entry after, entries = before ++ entry :: after → ∀ e, ¬Offends α before entry e

/-- The first entry that is refused is refused with an error. -/
def FirstOffends (α : Type) [ReadElement α] (entries : List (String × Value)) (e : Error) : Prop :=
  ∃ before entry after, entries = before ++ entry :: after ∧ Clean α before ∧
    Offends α before entry e

theorem mem_keys_iff {entries : List (String × Value)} {key : String} :
    key ∈ keys entries ↔ ∃ value, (key, value) ∈ entries := by
  simp [keys]

theorem keys_append (before after : List (String × Value)) :
    keys (before ++ after) = keys before ++ keys after :=
  List.map_append

variable [ReadElement α] {before entries : List (String × Value)} {entry : String × Value}

theorem clean_nil : Clean α [] := by
  intro before entry after h
  simp at h

theorem clean_concat_iff :
    Clean α (before ++ [entry]) ↔ Clean α before ∧ ∀ e, ¬Offends α before entry e := by
  constructor
  · intro h
    refine ⟨fun before' entry' after' heq => h before' entry' (after' ++ [entry]) ?_,
      h before entry [] rfl⟩
    rw [heq, List.append_assoc, List.cons_append]
  · rintro ⟨hbefore, hentry⟩ before' entry' after' heq
    rcases List.eq_nil_or_concat after' with rfl | ⟨after', last, rfl⟩
    · obtain ⟨rfl, hlast⟩ := List.append_inj' heq rfl
      obtain rfl := List.singleton_inj.1 hlast
      exact hentry
    · rw [List.concat_eq_append, ← List.cons_append, ← List.append_assoc] at heq
      exact hbefore before' entry' after' (List.append_inj' heq rfl).1

theorem clean_or_firstOffends (entries : List (String × Value)) :
    Clean α entries ∨ ∃ e, FirstOffends α entries e := by
  -- From the right, as it is the entries before an entry that it may be refused for.
  induction entries using List.reverseRecOn with
  | nil => exact .inl clean_nil
  | append_singleton before entry ih =>
    rcases ih with hclean | ⟨e, before', entry', after', rfl, hfirst⟩
    · by_cases hentry : ∃ e, Offends α before entry e
      · obtain ⟨e, he⟩ := hentry
        exact .inr ⟨e, before, entry, [], rfl, hclean, he⟩
      · exact .inl (clean_concat_iff.2 ⟨hclean, not_exists.1 hentry⟩)
    · refine .inr ⟨e, before', entry', after' ++ [entry], ?_, hfirst⟩
      rw [List.append_assoc, List.cons_append]

/-! ## What a draft holds -/

/-- A slot holds what the value under a name is read as, if there is such a value. -/
structure Holds (name : String) (reads : Value → β → Prop) (before : List (String × Value))
    (slot : Option β) : Prop where
  eq_some : ∀ {value}, (name, value) ∈ before → ∃ b, slot = some b ∧ reads value b
  eq_none : name ∉ keys before → slot = none

namespace Holds

variable {name key : String} {reads : Value → β → Prop} {slot : Option β} {value : Value} {b : β}

theorem append_of_ne (h : Holds name reads before slot) (hne : key ≠ name) :
    Holds name reads (before ++ [(key, value)]) slot where
  eq_some hmem := by
    rcases List.mem_append.1 hmem with hmem | hmem
    · exact h.eq_some hmem
    · obtain ⟨rfl, -⟩ := Prod.mk.inj (List.mem_singleton.1 hmem)
      exact absurd rfl hne
  eq_none hnew := h.eq_none fun hmem => hnew (by
    rw [keys_append]
    exact List.mem_append_left _ hmem)

theorem append_self (hnew : name ∉ keys before) (hb : reads value b) :
    Holds name reads (before ++ [(name, value)]) (some b) where
  eq_some hmem := by
    rcases List.mem_append.1 hmem with hmem | hmem
    · exact absurd (mem_keys_iff.2 ⟨_, hmem⟩) hnew
    · obtain ⟨-, rfl⟩ := Prod.mk.inj (List.mem_singleton.1 hmem)
      exact ⟨b, rfl, hb⟩
  eq_none hnew' := absurd (mem_keys_iff.2 ⟨value, by simp⟩) hnew'

/-- The slot is empty only if the name is missing. -/
theorem eq_none_iff (h : Holds name reads before slot) : slot = none ↔ name ∉ keys before := by
  refine ⟨fun hnone hmem => ?_, h.eq_none⟩
  obtain ⟨value, hvalue⟩ := mem_keys_iff.1 hmem
  obtain ⟨b, hb, -⟩ := h.eq_some hvalue
  rw [hnone] at hb
  cases hb

end Holds

namespace Draft

theorem put_eq_error_iff {draft : Draft α} {field : Field} {value : Value} {e : Error} :
    draft.put field value = .error e ↔ field.Refuses α value e := by
  cases field with
  | shape => exact map_eq_error_iff
  | data => exact map_eq_error_iff

/-- A draft holds what entries say: the fields that are in it are those with an entry. -/
structure Of (before : List (String × Value)) (draft : Draft α) : Prop where
  shape : Holds Field.shape.name (fun value s => value.readAll readCount = .ok s.dims) before
    draft.shape
  data : Holds Field.data.name
    (fun value data => value.readAll ReadElement.read = .ok data.toList) before draft.data

theorem of_empty : Of [] (empty : Draft α) :=
  ⟨⟨nofun, fun _ => rfl⟩, ⟨nofun, fun _ => rfl⟩⟩

/-- Whether a field has been read. -/
def has (draft : Draft α) : Field → Bool
  | .shape => draft.shape.isSome
  | .data => draft.data.isSome

omit [ReadElement α] in
theorem claim_name (draft : Draft α) (field : Field) :
    draft.claim field.name =
      if draft.has field then .error (.duplicateField field) else .ok field := by
  cases field with
  | shape => rw [claim, if_neg (by decide), if_pos rfl, has]
  | data => rw [claim, if_pos rfl, has]

theorem take_name {draft : Draft α} {field : Field} {value : Value}
    (hnew : draft.has field = false) : draft.take (field.name, value) = draft.put field value := by
  rw [take, claim_name, hnew]
  rfl

omit [ReadElement α] in
theorem claim_of_forall_ne (draft : Draft α) {key : String}
    (h : ∀ field : Field, key ≠ field.name) : draft.claim key = .error (.unknownField key) := by
  rw [claim, if_neg (h .data), if_neg (h .shape)]

namespace Of

variable {draft after : Draft α} (h : Of before draft)
include h

theorem has_iff {field : Field} : draft.has field = true ↔ field.name ∈ keys before := by
  cases field with
  | shape => rw [has, Option.isSome_iff_ne_none, ne_eq, h.shape.eq_none_iff, not_not]
  | data => rw [has, Option.isSome_iff_ne_none, ne_eq, h.data.eq_none_iff, not_not]

/-- A claim fails just where the key offends. -/
theorem claim_eq_error_iff {key : String} {e : Error} :
    draft.claim key = .error e ↔ KeyOffends before key e := by
  constructor
  · intro hclaim
    by_cases hkey : ∃ field : Field, key = field.name
    · obtain ⟨field, rfl⟩ := hkey
      rw [claim_name] at hclaim
      split at hclaim
      · next hhas =>
        cases hclaim
        exact .duplicate rfl (h.has_iff.1 hhas)
      · cases hclaim
    · rw [not_exists] at hkey
      rw [claim_of_forall_ne draft hkey] at hclaim
      cases hclaim
      exact .unknown hkey
  · intro hoffends
    cases hoffends with
    | unknown hkey => exact claim_of_forall_ne draft hkey
    | duplicate hkey hmem =>
      obtain rfl := hkey
      rw [claim_name, if_pos (h.has_iff.2 hmem)]

/-- A claim succeeds just for a field that has not come before. -/
theorem claim_eq_ok_iff {key : String} {field : Field} :
    draft.claim key = .ok field ↔ key = field.name ∧ key ∉ keys before := by
  constructor
  · intro hclaim
    by_cases hkey : ∃ field : Field, key = field.name
    · obtain ⟨field', rfl⟩ := hkey
      rw [claim_name] at hclaim
      split at hclaim
      · cases hclaim
      · next hhas =>
        cases hclaim
        exact ⟨rfl, mt h.has_iff.2 hhas⟩
    · rw [claim_of_forall_ne draft (not_exists.1 hkey)] at hclaim
      cases hclaim
  · rintro ⟨rfl, hnew⟩
    rw [claim_name, if_neg (mt h.has_iff.1 hnew)]

/-- An entry is refused just where it offends. -/
theorem take_eq_error_iff {e : Error} :
    draft.take entry = .error e ↔ Offends α before entry e := by
  obtain ⟨key, value⟩ := entry
  rw [Draft.take, bind_eq_error_iff]
  constructor
  · rintro (hclaim | ⟨field, hclaim, hput⟩)
    · exact .key (h.claim_eq_error_iff.1 hclaim)
    · obtain ⟨hkey, hnew⟩ := h.claim_eq_ok_iff.1 hclaim
      exact .value hkey hnew (put_eq_error_iff.1 hput)
  · intro hoffends
    cases hoffends with
    | key hkey => exact .inl (h.claim_eq_error_iff.2 hkey)
    | value hkey hnew hvalue =>
      exact .inr ⟨_, h.claim_eq_ok_iff.2 ⟨hkey, hnew⟩, put_eq_error_iff.2 hvalue⟩

/-- What is taken in is held. -/
theorem take (htake : draft.take entry = .ok after) : Of (before ++ [entry]) after := by
  obtain ⟨key, value⟩ := entry
  obtain ⟨field, hclaim, hput⟩ := bind_eq_ok_iff.1 htake
  obtain ⟨rfl, hnew⟩ := h.claim_eq_ok_iff.1 hclaim
  cases field with
  | shape =>
    obtain ⟨dims, hdims, rfl⟩ := map_eq_ok_iff.1 hput
    exact ⟨.append_self hnew hdims, h.data.append_of_ne (by decide)⟩
  | data =>
    obtain ⟨data, hdata, rfl⟩ := map_eq_ok_iff.1 hput
    exact ⟨h.shape.append_of_ne (by decide), .append_self hnew hdata⟩

end Of

/-! ## All entries -/

/-- Clean entries are all taken in, and what they say is held. -/
theorem exists_takeAll_of_clean {entries : List (String × Value)} (hclean : Clean α entries) :
    ∃ draft : Draft α, Draft.empty.takeAll entries = .ok draft ∧ Of entries draft := by
  induction entries using List.reverseRecOn with
  | nil => exact ⟨empty, rfl, of_empty⟩
  | append_singleton before entry ih =>
    obtain ⟨hbefore, hentry⟩ := clean_concat_iff.1 hclean
    obtain ⟨draft, hdraft, hof⟩ := ih hbefore
    cases htake : draft.take entry with
    | error e => exact absurd (hof.take_eq_error_iff.1 htake) (hentry e)
    | ok after =>
      refine ⟨after, ?_, hof.take htake⟩
      rw [takeAll_append, hdraft]
      show draft.takeAll [entry] = _
      rw [takeAll_cons, htake]
      rfl

theorem takeAll_of_firstOffends {entries : List (String × Value)} {e : Error}
    (hfirst : FirstOffends α entries e) :
    (Draft.empty : Draft α).takeAll entries = .error e := by
  obtain ⟨before, entry, after, rfl, hclean, hoffends⟩ := hfirst
  obtain ⟨draft, hdraft, hof⟩ := exists_takeAll_of_clean hclean
  rw [takeAll_append, hdraft]
  show draft.takeAll (entry :: after) = _
  rw [takeAll_cons, hof.take_eq_error_iff.2 hoffends]
  rfl

/-- The first entry that is refused decides, whatever comes behind it. -/
theorem takeAll_eq_error_iff {entries : List (String × Value)} {e : Error} :
    (Draft.empty : Draft α).takeAll entries = .error e ↔ FirstOffends α entries e := by
  refine ⟨fun h => ?_, takeAll_of_firstOffends⟩
  rcases clean_or_firstOffends (α := α) entries with hclean | ⟨e', hfirst⟩
  · obtain ⟨draft, hdraft, -⟩ := exists_takeAll_of_clean hclean
    rw [hdraft] at h
    cases h
  · rw [takeAll_of_firstOffends hfirst] at h
    cases h
    exact hfirst

/-- Entries that are all taken in are clean, and the draft holds what they say. -/
theorem of_takeAll {entries : List (String × Value)} {draft : Draft α}
    (h : Draft.empty.takeAll entries = .ok draft) : Clean α entries ∧ Of entries draft := by
  rcases clean_or_firstOffends (α := α) entries with hclean | ⟨e', hfirst⟩
  · obtain ⟨draft', hdraft, hof⟩ := exists_takeAll_of_clean hclean
    rw [hdraft] at h
    cases h
    exact ⟨hclean, hof⟩
  · rw [takeAll_of_firstOffends hfirst] at h
    cases h

end Draft

end TensorInference.Document
