import TensorInference.Document.Value
import TensorInference.Proofs.Document.Refusal

/-!
# Tensors read entry by entry

What a well-formed document says is a `Value`, and a tensor is read from the tokens of one.  Here
reading tokens is traced back to the value itself: a list is read as its values are, a map by taking
in its entries from the left.  What comes out is `readTensor_map`, after which no token is looked at
any more.

Values of one token are the only ones that are read within a list.  A list or a map in such a place
is refused at its opening bracket, and what is in it does not matter.

* `Value.legible_tokens`, `Value.scan_toList` --- which values can be told from their text.
* `Value.readList_tokens` --- lists.
* `Draft.readEntries_tokensOfEntry` --- one entry.
* `readTensor_leadingTokens`, `readTensor_map` --- entries up to some key, and all of them.
-/

namespace TensorInference.Document

open Outcome

/-! ## Texts of values -/

section Brackets

variable {first last t : Token} {tokens item : List Token} {items : List (List Token)}

theorem mem_closeMore (hitem : item ∈ items) (ht : t ∈ item) : t ∈ closeMore last items := by
  induction items with
  | nil => cases hitem
  | cons item' items ih =>
    rw [closeMore, List.mem_cons, List.mem_append]
    rcases List.mem_cons.1 hitem with rfl | hitem
    · exact .inr (.inl ht)
    · exact .inr (.inr (ih hitem))

theorem mem_enclose (hitem : item ∈ items) (ht : t ∈ item) : t ∈ enclose first last items := by
  cases items with
  | nil => cases hitem
  | cons item' items =>
    rw [enclose, List.mem_cons, List.mem_append]
    rcases List.mem_cons.1 hitem with rfl | hitem
    · exact .inr (.inl ht)
    · exact .inr (.inr (mem_closeMore hitem ht))

theorem legible_append_closeMore (hexact : last.IsExact) (hnumber : ¬last.IsNumber)
    (hitems : ∀ item ∈ items, Legible item) (htokens : Legible tokens) :
    Legible (tokens ++ closeMore last items) := by
  induction items generalizing tokens with
  | nil => exact htokens.append (.singleton hexact) hnumber
  | cons item items ih =>
    obtain ⟨hitem, hitems⟩ := List.forall_mem_cons.1 hitems
    exact htokens.append (.cons trivial nofun (ih hitems hitem)) nofun

/-- Brackets and commas keep legible items apart. -/
theorem legible_enclose (hfirst : first.IsExact) (hfirst' : ¬first.IsNumber)
    (hlast : last.IsExact) (hlast' : ¬last.IsNumber) (hitems : ∀ item ∈ items, Legible item) :
    Legible (enclose first last items) := by
  cases items with
  | nil => exact .cons hfirst hfirst' (.singleton hlast)
  | cons item items =>
    obtain ⟨hitem, hitems⟩ := List.forall_mem_cons.1 hitems
    exact .cons hfirst hfirst' (legible_append_closeMore hlast hlast' hitems hitem)

end Brackets

namespace Value

mutual

/-- A value can be told from its text, if its numbers can. -/
theorem legible_tokens (value : Value) (h : ∀ t ∈ value.tokens, t.IsExact) :
    Legible value.tokens := by
  cases value with
  | null => exact .singleton trivial
  | boolean b => exact .singleton trivial
  | text s => exact .singleton trivial
  | number n => exact .singleton (h _ (List.mem_singleton_self _))
  | list values =>
    refine legible_enclose trivial nofun trivial nofun ?_
    exact legible_tokensOfEach values fun item hitem t ht => h t (mem_enclose hitem ht)
  | map entries =>
    refine legible_enclose trivial nofun trivial nofun ?_
    exact legible_tokensOfEachEntry entries fun item hitem t ht => h t (mem_enclose hitem ht)

theorem legible_tokensOfEach (values : List Value)
    (h : ∀ item ∈ tokensOfEach values, ∀ t ∈ item, t.IsExact) :
    ∀ item ∈ tokensOfEach values, Legible item := by
  cases values with
  | nil => exact nofun
  | cons value values =>
    obtain ⟨hvalue, hvalues⟩ := List.forall_mem_cons.1 h
    exact List.forall_mem_cons.2 ⟨legible_tokens value hvalue, legible_tokensOfEach values hvalues⟩

theorem legible_tokensOfEachEntry (entries : List (String × Value))
    (h : ∀ item ∈ tokensOfEachEntry entries, ∀ t ∈ item, t.IsExact) :
    ∀ item ∈ tokensOfEachEntry entries, Legible item := by
  cases entries with
  | nil => exact nofun
  | cons entry entries =>
    obtain ⟨hentry, hentries⟩ := List.forall_mem_cons.1 h
    exact List.forall_mem_cons.2
      ⟨legible_tokensOfEntry entry hentry, legible_tokensOfEachEntry entries hentries⟩

theorem legible_tokensOfEntry (entry : String × Value)
    (h : ∀ t ∈ tokensOfEntry entry, t.IsExact) : Legible (tokensOfEntry entry) := by
  obtain ⟨key, value⟩ := entry
  refine .cons trivial nofun (.cons trivial nofun (legible_tokens value fun t ht => ?_))
  exact h t (List.mem_cons_of_mem _ (List.mem_cons_of_mem _ ht))

end

/-- The text of a value splits into its tokens. -/
theorem scan_toList {value : Value} {text : String} (htext : text = write value.tokens)
    (h : ∀ t ∈ value.tokens, t.IsExact) : Token.scan text.toList = (value.tokens, true) := by
  rw [htext]
  exact (legible_tokens value h).scan_toList_write

end Value

variable {α β : Type}

/-! ## Values of one token, and lists of them -/

/-- Lists and maps are not taken for values of one token. -/
structure ReadsScalars (read : Token → Except Error β) : Prop where
  refuses_list : ∃ e, read .openList = .error e
  refuses_map : ∃ e, read .openMap = .error e

theorem readsScalars_readCount : ReadsScalars readCount :=
  ⟨⟨_, rfl⟩, ⟨_, rfl⟩⟩

theorem readsScalars_readElement (σ : StoredType) :
    ReadsScalars (ReadElement.read (α := σ.Value)) := by
  cases σ with
  | f32 => exact ⟨⟨_, rfl⟩, ⟨_, rfl⟩⟩
  | f64 => exact ⟨⟨_, rfl⟩, ⟨_, rfl⟩⟩
  | exact τ => cases τ <;> exact ⟨⟨_, rfl⟩, ⟨_, rfl⟩⟩

namespace Value

/-- What a value is read as where a list of values of one token is expected.  The values are read
one by one, up to the first that is refused; anything but a list is refused as such. -/
def readAll (read : Token → Except Error β) : Value → Except Error (List β)
  | list values => values.mapM fun value => read value.head
  | value => .error (value.head.refuse .list)

/-- A value is its first token, or its first token is refused. -/
theorem tokens_eq_or_refused {read : Token → Except Error β} (h : ReadsScalars read)
    (value : Value) : value.tokens = [value.head] ∨
      (∃ rest, value.tokens = value.head :: rest) ∧ ∃ e, read value.head = .error e := by
  cases value with
  | list values =>
    rw [tokens_list]
    exact .inr ⟨by cases values <;> exact ⟨_, rfl⟩, h.refuses_list⟩
  | map entries =>
    rw [tokens_map]
    exact .inr ⟨by cases entries <;> exact ⟨_, rfl⟩, h.refuses_map⟩
  | _ => exact .inl (by rw [tokens]; rfl)

theorem readMore_closeMore {read : Token → Except Error β} (h : ReadsScalars read)
    (values : List Value) (rest : List Token) :
    readMore read (closeMore .closeList (values.map tokens) ++ rest) =
      (values.mapM fun value => read value.head).map fun as => (as, rest) := by
  induction values with
  | nil => rfl
  | cons value values ih =>
    rw [List.map_cons, closeMore, List.mapM_cons]
    -- A value of more than one token is refused at its first one, so the others are never reached.
    rcases tokens_eq_or_refused h value with htokens | ⟨⟨more, htokens⟩, e, he⟩
    · rw [htokens, List.cons_append, List.append_assoc, List.singleton_append, readMore, ih]
      cases read value.head with
      | error e => rfl
      | ok a => cases values.mapM fun value => read value.head <;> rfl
    · rw [htokens, List.cons_append, List.append_assoc, List.cons_append, readMore, he]
      rfl

theorem readList_openList {read : Token → Except Error β} {t : Token} (ht : t ≠ .closeList)
    (tokens : List Token) :
    readList read (.openList :: t :: tokens) = (do
      let a ← read t
      let (as, rest) ← readMore read tokens
      return (a :: as, rest)) := by
  cases t with
  | closeList => exact absurd rfl ht
  | _ => rfl

/-- Reading a list from the front of the tokens is reading the value that stands there. -/
theorem readList_tokens {read : Token → Except Error β} (h : ReadsScalars read) (value : Value)
    (rest : List Token) :
    readList read (value.tokens ++ rest) = (value.readAll read).map fun as => (as, rest) := by
  cases value with
  | list values =>
    rw [tokens_list, readAll]
    cases values with
    | nil => rfl
    | cons value values =>
      have hhead : value.head ≠ .closeList := by cases value <;> exact nofun
      rw [List.map_cons, enclose, List.mapM_cons]
      rcases tokens_eq_or_refused h value with htokens | ⟨⟨more, htokens⟩, e, he⟩
      · rw [htokens, List.cons_append, List.append_assoc, List.singleton_append]
        rw [readList_openList hhead, readMore_closeMore h]
        cases read value.head with
        | error e => rfl
        | ok a => cases values.mapM fun value => read value.head <;> rfl
      · rw [htokens, List.cons_append, List.append_assoc, List.cons_append]
        rw [readList_openList hhead, he]
        rfl
  | map entries =>
    rw [tokens_map]
    cases entries <;> rfl
  | _ => rw [tokens]; rfl

theorem readAll_eq_ok_iff {read : Token → Except Error β} {value : Value} {as : List β} :
    value.readAll read = .ok as ↔
      ∃ values, value = list values ∧ List.Forall₂ (fun v a => read v.head = .ok a) values as := by
  cases value with
  | list values => simp only [readAll, mapM_eq_ok_iff_forall₂, Value.list.injEq, exists_eq_left']
  | _ => simp [readAll]

end Value

/-! ## Drafts, entry by entry -/

namespace Draft

variable [ReadElement α]

/-- Puts a value into a field. -/
def put (draft : Draft α) : Field → Value → Except Error (Draft α)
  | .shape, value =>
    (value.readAll readCount).map fun dims => { draft with shape := some ⟨dims⟩ }
  | .data, value =>
    (value.readAll ReadElement.read).map fun data => { draft with data := some data.toArray }

/-- Takes in an entry. -/
def take (draft : Draft α) (entry : String × Value) : Except Error (Draft α) := do
  draft.put (← draft.claim entry.1) entry.2

/-- Takes in entries from the left. -/
def takeAll (draft : Draft α) (entries : List (String × Value)) : Except Error (Draft α) :=
  entries.foldlM take draft

theorem takeAll_cons (draft : Draft α) (entry : String × Value) (after : List (String × Value)) :
    draft.takeAll (entry :: after) = (do (← draft.take entry).takeAll after) :=
  List.foldlM_cons

theorem takeAll_append (draft : Draft α) (before after : List (String × Value)) :
    draft.takeAll (before ++ after) = (do (← draft.takeAll before).takeAll after) :=
  List.foldlM_append

variable (hread : ReadsScalars (ReadElement.read (α := α)))
include hread

theorem readValue_tokens (draft : Draft α) (field : Field) (value : Value) (rest : List Token) :
    draft.readValue field (value.tokens ++ rest) =
      (draft.put field value).map fun after => (after, rest) := by
  cases field with
  | shape =>
    simp only [readValue, readShape, Value.readList_tokens readsScalars_readCount, put]
    cases value.readAll readCount <;> rfl
  | data =>
    simp only [readValue, Value.readList_tokens hread, put]
    cases value.readAll (ReadElement.read (α := α)) <;> rfl

/-- An entry is taken in, and reading goes on as it does behind the value of a field. -/
theorem readEntries_tokensOfEntry (draft : Draft α) (entry : String × Value) {behind : List Token}
    {next : Draft α → Except Error (Tensor α × List Token)}
    (hnext : ∀ {key field value after}, draft.claim key = .ok field →
      draft.readValue field value = .ok (after, behind) →
        draft.readEntries (.text key :: .colon :: value) = next after) :
    draft.readEntries (Value.tokensOfEntry entry ++ behind) = (do next (← draft.take entry)) := by
  obtain ⟨key, value⟩ := entry
  rw [Value.tokensOfEntry_mk, List.cons_append, List.cons_append, take]
  cases hclaim : draft.claim key with
  | error e => exact readEntries_of_claim_eq_error hclaim _
  | ok field =>
    have hvalue := readValue_tokens hread draft field value behind
    show _ = (do next (← draft.put field value))
    cases hput : draft.put field value with
    | error e =>
      rw [hput] at hvalue
      exact readEntries_of_readValue_eq_error hclaim hvalue
    | ok after =>
      rw [hput] at hvalue
      exact hnext hclaim hvalue

theorem readEntries_comma (draft : Draft α) (entry : String × Value) (rest : List Token) :
    draft.readEntries (Value.tokensOfEntry entry ++ .comma :: rest) =
      (do (← draft.take entry).readEntries rest) :=
  readEntries_tokensOfEntry hread draft entry readEntries_of_comma

theorem readEntries_closeMap (draft : Draft α) (entry : String × Value) (rest : List Token) :
    draft.readEntries (Value.tokensOfEntry entry ++ .closeMap :: rest) =
      (do (← draft.take entry).finish.map fun t => (t, rest)) :=
  readEntries_tokensOfEntry hread draft entry readEntries_of_closeMap

/-- Entries that others follow are taken in one by one. -/
theorem readEntries_leadingTokens (draft : Draft α) (before : List (String × Value))
    (rest : List Token) :
    draft.readEntries (Value.leadingTokens before ++ rest) =
      (do (← draft.takeAll before).readEntries rest) := by
  induction before generalizing draft with
  | nil => rfl
  | cons entry before ih =>
    rw [Value.leadingTokens_cons, List.append_assoc, List.cons_append, readEntries_comma hread,
      takeAll_cons]
    cases draft.take entry with
    | error e => rfl
    | ok after => exact ih after

/-- All entries are taken in one by one, and the draft is finished. -/
theorem readEntries_closeMore (draft : Draft α) (entry : String × Value)
    (entries : List (String × Value)) (rest : List Token) :
    draft.readEntries (Value.tokensOfEntry entry ++
        (closeMore .closeMap (entries.map Value.tokensOfEntry) ++ rest)) =
      (do (← draft.takeAll (entry :: entries)).finish).map fun t => (t, rest) := by
  induction entries generalizing draft entry with
  | nil =>
    rw [takeAll_cons, List.map_nil, closeMore, List.singleton_append,
      readEntries_closeMap hread]
    cases draft.take entry <;> rfl
  | cons next entries ih =>
    rw [List.map_cons, closeMore, List.cons_append, List.append_assoc, readEntries_comma hread,
      takeAll_cons]
    cases draft.take entry with
    | error e => rfl
    | ok after => exact ih after next

end Draft

/-- A tensor is read from a map by taking in all entries from the left. -/
theorem readTensor_map [ReadElement α] (hread : ReadsScalars (ReadElement.read (α := α)))
    (entries : List (String × Value)) (rest : List Token) :
    readTensor (α := α) ((Value.map entries).tokens ++ rest) =
      (do (← Draft.empty.takeAll entries).finish).map fun t => (t, rest) := by
  rw [Value.tokens_map]
  cases entries with
  | nil => rfl
  | cons entry entries =>
    rw [← Draft.readEntries_closeMore hread, List.map_cons, enclose, List.cons_append,
      List.append_assoc]
    obtain ⟨key, value⟩ := entry
    rw [Value.tokensOfEntry_mk]
    rfl

/-- Up to some key, a tensor is read by taking in the entries before it. -/
theorem readTensor_leadingTokens [ReadElement α]
    (hread : ReadsScalars (ReadElement.read (α := α))) (before : List (String × Value))
    (key : String) (behind : List Token) :
    readTensor (α := α) (.openMap :: (Value.leadingTokens before ++ .text key :: behind)) =
      (do (← Draft.empty.takeAll before).readEntries (.text key :: behind)) := by
  rw [← Draft.readEntries_leadingTokens hread]
  cases before with
  | nil => rfl
  | cons entry before =>
    obtain ⟨key', value⟩ := entry
    rw [Value.leadingTokens_cons, Value.tokensOfEntry_mk]
    rfl

end TensorInference.Document
