import SessionManager.BatchProfile.Fields

/-!
# What labelling keeps

`apply_column_mapping` is to label values and to keep everything else. It does unless there is
something else than an object under `data`.

* `Labelled`, `Mapped`, `Unlabelled` — a value with its label, a result, and what it was made of.
* `Values`, `AtKey`, `Documents` — the values of two `dict`s, or of two documents, key by key.
* `lookup_remap`, `lookup_mapColumns`, `mapColumns_mapColumns` — the mapping.
* `labelling_iff` — when nothing is lost.
-/

namespace SessionManager

open Python

namespace BatchProfile

/-! ### Values -/

/-- `result` is `value` under the label of its key. -/
def Labelled (labels : Dict) (key : String) (value result : Json) : Prop :=
  (Dict.get labels key).truthy ∧ value.isDict = false ∧
    result = .obj [("ko", Dict.get labels key), ("value", value)]

/-- A value is unchanged, or it gets its label. -/
def Mapped (labels : Dict) (key : String) (value result : Json) : Prop :=
  result = value ∨ Labelled labels key value result

/-- Without its label, if it has one, `result` is `value`. -/
def Unlabelled (labels : Dict) (key : String) (value result : Json) : Prop :=
  Labelled labels key value result ∨ (∀ inner, ¬ Labelled labels key inner result) ∧ result = value

/-- The same keys, with values that are related. -/
def Values (R : String → Json → Json → Prop) (d d' : Dict) : Prop :=
  ∀ key, Option.Rel (R key) (d.lookup key) (d'.lookup key)

/-- The values of a document at a key: an object under `data` has values of its own. -/
inductive AtKey (R : String → Json → Json → Prop) : String → Json → Json → Prop where
  | data {d d' : Dict} (values : Values R d d') : AtKey R "data" (.obj d) (.obj d')
  | value {key : String} {value result : Json} (flat : key = "data" → value.isDict = false)
      (related : R key value result) : AtKey R key value result

/-- Two documents with the same keys, in both levels, and values that are related. -/
def Documents (R : String → Json → Json → Prop) (doc result : Dict) : Prop :=
  Values (AtKey R) doc result

/-! ### The mapping -/

section Mapping

variable {labels : Dict}

theorem label_fst (labels : Dict) (entry : String × Json) : (label labels entry).1 = entry.1 := by
  simp only [label]
  split
  · rfl
  · rfl

/-- A value is left as it is without a label, and so is an object. -/
theorem label_cases (labels : Dict) (key : String) (value : Json) :
    (label labels (key, value)).2 = value ∧
        ((Dict.get labels key).truthy → value.isDict = true) ∨
      Labelled labels key value (label labels (key, value)).2 := by
  simp only [label]
  split
  · next h =>
    obtain ⟨htruthy, hflat⟩ := Bool.and_eq_true_iff.mp h
    exact .inr ⟨htruthy, by simpa using hflat, rfl⟩
  · next h =>
    refine .inl ⟨rfl, fun htruthy => ?_⟩
    simpa [htruthy] using h

theorem label_label (labels : Dict) (entry : String × Json) :
    label labels (label labels entry) = label labels entry := by
  obtain ⟨key, value⟩ := entry
  have hkey := label_fst labels (key, value)
  apply Prod.ext
  · rw [label_fst, hkey]
  rcases label_cases labels key value with ⟨hsame, -⟩ | ⟨htruthy, hflat, hlabel⟩
  · have hentry : label labels (key, value) = (key, value) := Prod.ext hkey hsame
    rw [hentry, hsame]
  · -- a labelled value is an object, and gets no further label
    have hentry : label labels (key, value) = (key, (label labels (key, value)).2) :=
      Prod.ext hkey rfl
    rw [hentry, hlabel]
    rcases label_cases labels key (.obj [("ko", Dict.get labels key), ("value", value)]) with
      ⟨hsame, -⟩ | ⟨-, hobj, -⟩
    · exact hsame
    · cases hobj

theorem lookup_remap (labels d : Dict) (key : String) :
    (remap labels d).lookup key =
      (d.lookup key).map fun value => (label labels (key, value)).2 := by
  induction d with
  | nil => rfl
  | cons entry d ih =>
    obtain ⟨key', value⟩ := entry
    have hremap : remap labels ((key', value) :: d) =
        (key', (label labels (key', value)).2) :: remap labels d := by
      rw [remap, List.map_cons]
      exact congrArg (· :: _) (Prod.ext (label_fst labels (key', value)) rfl)
    -- labelling changes values only, so the entry found is at the same place
    by_cases hkey : key = key'
    · subst hkey
      rw [hremap, List.lookup_cons_self, List.lookup_cons_self]
      rfl
    · have hne : (key == key') = false := beq_eq_false_iff_ne.mpr hkey
      rw [hremap, List.lookup_cons, List.lookup_cons, hne]
      exact ih

theorem remap_remap (labels d : Dict) : remap labels (remap labels d) = remap labels d := by
  rw [remap, remap, List.map_map]
  exact List.map_congr_left fun entry _ => label_label labels entry

theorem popKey_remap (labels d : Dict) (key : String) :
    popKey (remap labels d) key = remap labels (popKey d key) := by
  rw [popKey, remap, List.filter_map, remap, popKey]
  refine congrArg (List.map _) (List.filter_congr fun entry _ => ?_)
  rw [Function.comp_apply, label_fst]

theorem popKey_set_self (d : Dict) (key : String) (value : Json) :
    popKey (d.set key value) key = popKey d key := by
  induction d with
  | nil => simp [Dict.set, popKey]
  | cons entry d ih =>
    obtain ⟨key', value'⟩ := entry
    by_cases hkey : key' = key
    · simp [Dict.set, popKey, hkey]
    · have hpop (tail : Dict) :
          popKey ((key', value') :: tail) key = (key', value') :: popKey tail key := by
        simp [popKey, hkey]
      rw [Dict.set, if_neg hkey, hpop, hpop, ih]

theorem popKey_popKey (d : Dict) (key : String) : popKey (popKey d key) key = popKey d key := by
  rw [popKey, popKey, List.filter_filter]
  simp

variable {doc : Dict}

theorem lookup_mapColumns_of_ne {key : String} (h : key ≠ "data") :
    (mapColumns labels doc).lookup key =
      (doc.lookup key).map fun value => (label labels (key, value)).2 := by
  have hremap : (remap labels (popKey doc "data")).lookup key =
      (doc.lookup key).map fun value => (label labels (key, value)).2 := by
    rw [lookup_remap, lookup_popKey, if_neg h]
  rw [mapColumns]
  split
  · rw [Dict.lookup_set_of_ne _ h, hremap]
  · exact hremap

/-- An object under `data` is labelled as well. -/
theorem lookup_mapColumns_data {data : Dict} (h : doc.lookup "data" = some (.obj data)) :
    (mapColumns labels doc).lookup "data" = some (.obj (remap labels data)) := by
  rw [mapColumns, h]
  exact Dict.lookup_set_self _ _ _

/-- Anything else under `data` is lost. -/
theorem lookup_mapColumns_flat (h : ∀ data, doc.lookup "data" ≠ some (.obj data)) :
    (mapColumns labels doc).lookup "data" = none := by
  rw [mapColumns]
  split
  · next data hdata => exact absurd hdata (h data)
  · rw [lookup_remap, lookup_popKey, if_pos rfl]
    rfl

/-- A second time nothing changes. -/
theorem mapColumns_mapColumns (labels doc : Dict) :
    mapColumns labels (mapColumns labels doc) = mapColumns labels doc := by
  have hpop : popKey (mapColumns labels doc) "data" = remap labels (popKey doc "data") := by
    rw [mapColumns]
    split
    · rw [popKey_set_self, popKey_remap, popKey_popKey]
    · rw [popKey_remap, popKey_popKey]
  rw [mapColumns, hpop, remap_remap]
  -- `data` is labelled apart, where it is an object
  by_cases hdata : ∃ data, doc.lookup "data" = some (.obj data)
  · obtain ⟨data, hdata⟩ := hdata
    rw [lookup_mapColumns_data hdata, mapColumns, hdata]
    simp only [remap_remap]
  · have hflat (data : Dict) : doc.lookup "data" ≠ some (.obj data) := fun h => hdata ⟨data, h⟩
    rw [lookup_mapColumns_flat hflat]
    show remap labels (popKey doc "data") = mapColumns labels doc
    rw [mapColumns]
    split
    · next data h => exact absurd h (hflat data)
    · rfl

end Mapping

/-! ### Documents -/

section Documents

variable {R S : String → Json → Json → Prop} {labels doc : Dict}

/-- The values of a `dict` after labelling, each by itself. -/
theorem values_remap
    (h : ∀ key value, R key value (label labels (key, value)).2 ↔ S key value value) (d : Dict) :
    Values R d (remap labels d) ↔ Values S d d := by
  refine forall_congr' fun key => ?_
  rw [lookup_remap]
  cases d.lookup key with
  | none => exact iff_of_true .none .none
  | some value =>
    simp only [Option.map_some, Option.rel_some_some]
    exact h key value

theorem atKey_of_ne {key : String} (h : key ≠ "data") {value result : Json} :
    AtKey R key value result ↔ R key value result := by
  constructor
  · rintro (_ | ⟨-, hrelated⟩)
    · exact absurd rfl h
    · exact hrelated
  · exact .value fun heq => absurd heq h

theorem atKey_data {data data' : Dict} :
    AtKey R "data" (.obj data) (.obj data') ↔ Values R data data' := by
  constructor
  · rintro (hvalues | ⟨hflat, -⟩)
    · exact hvalues
    · cases hflat rfl
  · exact .data

/-- What there is under `data` is an object. -/
def Nested (doc : Dict) : Prop := ∀ value, doc.lookup "data" = some value → value.isDict = true

/-- The values of a document after labelling, when nothing is dropped. -/
theorem documents_mapColumns
    (h : ∀ key value, R key value (label labels (key, value)).2 ↔ S key value value)
    (hnested : Nested doc) :
    Documents R doc (mapColumns labels doc) ↔ Documents S doc doc := by
  refine forall_congr' fun key => ?_
  -- the labelling of `data` replaces an object and removes any other value
  by_cases hkey : key = "data"
  · subst hkey
    cases hdata : doc.lookup "data" with
    | none =>
      rw [lookup_mapColumns_flat fun data h => by cases hdata.symm.trans h]
      exact iff_of_true .none .none
    | some value =>
      cases value with
      | obj data =>
        rw [lookup_mapColumns_data hdata, Option.rel_some_some, Option.rel_some_some, atKey_data,
          atKey_data]
        exact values_remap h data
      | _ => cases hnested _ hdata
  · rw [lookup_mapColumns_of_ne hkey]
    cases doc.lookup key with
    | none => exact iff_of_true .none .none
    | some value =>
      rw [Option.map_some, Option.rel_some_some, Option.rel_some_some, atKey_of_ne hkey,
        atKey_of_ne hkey]
      exact h key value

/-- A document with anything else under `data` loses it. -/
theorem nested_of_documents (h : Documents R doc (mapColumns labels doc)) : Nested doc := by
  intro value hvalue
  have hdata := h "data"
  rw [hvalue] at hdata
  cases value with
  | obj data => rfl
  | _ =>
    rw [lookup_mapColumns_flat fun data h => by cases hvalue.symm.trans h] at hdata
    cases hdata

theorem documents_refl (h : ∀ key value, R key value value) (doc : Dict) : Documents R doc doc := by
  have hvalues (d : Dict) : Values R d d := fun key => by
    cases d.lookup key with
    | none => exact .none
    | some value => exact .some (h key value)
  intro key
  cases doc.lookup key with
  | none => exact .none
  | some value =>
    refine .some ?_
    by_cases hkey : key = "data"
    · subst hkey
      cases value with
      | obj data => exact .data (hvalues data)
      | _ => exact .value (fun _ => rfl) (h _ _)
    · exact (atKey_of_ne hkey).mpr (h key value)

end Documents

/-! ### Labelling -/

/-- Labelling keeps all keys, changes values only by giving them their labels, and changes nothing
the second time. -/
def LosesNothing (labels doc : Dict) : Prop :=
  ∃ result, applyColumnMapping (.obj doc) labels = .ok (.obj result) ∧
    Documents (Mapped labels) doc result ∧
    applyColumnMapping (.obj result) labels = .ok (.obj result)

/-- Labelling is undone by taking the labels away. -/
def Recovers (labels doc : Dict) : Prop :=
  ∃ result, applyColumnMapping (.obj doc) labels = .ok (.obj result) ∧
    Documents (Unlabelled labels) doc result

/-- No value of the document is one with its label. -/
def Fresh (labels doc : Dict) : Prop :=
  Documents (fun key value _ => ∀ inner, ¬ Labelled labels key inner value) doc doc

section Labelling

variable {labels doc : Dict}

theorem mapped_label (labels : Dict) (key : String) (value : Json) :
    Mapped labels key value (label labels (key, value)).2 := by
  rcases label_cases labels key value with ⟨hsame, -⟩ | hlabelled
  · exact .inl hsame
  · exact .inr hlabelled

/-- A value can be told from its result unless it looks like one. -/
theorem unlabelled_label_iff (labels : Dict) (key : String) (value : Json) :
    Unlabelled labels key value (label labels (key, value)).2 ↔
      ∀ inner, ¬ Labelled labels key inner value := by
  rcases label_cases labels key value with ⟨hsame, hobj⟩ | hlabelled
  · rw [hsame]
    constructor
    · rintro (⟨htruthy, hflat, -⟩ | ⟨hnone, -⟩)
      · exact absurd (hobj htruthy) (by simp [hflat])
      · exact hnone
    · exact fun hnone => .inr ⟨hnone, rfl⟩
  · refine iff_of_true (.inl hlabelled) ?_
    rintro inner ⟨-, -, rfl⟩
    cases hlabelled.2.1

theorem applyColumnMapping_of_ne (h : labels ≠ []) (doc : Dict) :
    applyColumnMapping (.obj doc) labels = .ok (.obj (mapColumns labels doc)) := by
  rw [applyColumnMapping, if_neg (by simpa using h)]

/-- Nothing is lost if and only if there are no labels, or nothing but an object under `data`. The
document can be recovered from the result alone if and only if moreover no value of it looks like
one with its label. -/
theorem labelling_iff (labels doc : Dict) :
    (LosesNothing labels doc ↔ labels = [] ∨ Nested doc) ∧
      (Recovers labels doc ↔ (labels = [] ∨ Nested doc) ∧ Fresh labels doc) := by
  -- without labels the document is returned as it is, with whatever `data` it has
  by_cases hlabels : labels = []
  · subst hlabels
    have hnone (key : String) (inner value : Json) : ¬ Labelled [] key inner value :=
      fun h => Bool.noConfusion h.1
    constructor
    · exact iff_of_true ⟨doc, rfl, documents_refl (fun _ _ => .inl rfl) doc, rfl⟩ (.inl rfl)
    · refine iff_of_true ⟨doc, rfl, ?_⟩ ⟨.inl rfl, ?_⟩
      · exact documents_refl (fun _ _ => .inr ⟨fun _ => hnone _ _ _, rfl⟩) doc
      · exact documents_refl (fun _ _ _ => hnone _ _ _) doc
  · have happly := applyColumnMapping_of_ne hlabels
    rw [or_iff_right hlabels]
    constructor
    · constructor
      · rintro ⟨result, hresult, hmapped, -⟩
        obtain rfl := Json.obj.inj (Except.ok.inj ((happly doc).symm.trans hresult))
        exact nested_of_documents hmapped
      · intro hnested
        refine ⟨_, happly doc, ?_, ?_⟩
        · rw [documents_mapColumns (S := fun _ _ _ => True)
            (fun key value => iff_of_true (mapped_label labels key value) trivial) hnested]
          exact documents_refl (fun _ _ => trivial) doc
        · rw [happly, mapColumns_mapColumns]
    · constructor
      · rintro ⟨result, hresult, hunlabelled⟩
        obtain rfl := Json.obj.inj (Except.ok.inj ((happly doc).symm.trans hresult))
        have hnested := nested_of_documents hunlabelled
        exact ⟨hnested,
          (documents_mapColumns (unlabelled_label_iff labels) hnested).mp hunlabelled⟩
      · rintro ⟨hnested, hfresh⟩
        exact ⟨_, happly doc,
          (documents_mapColumns (unlabelled_label_iff labels) hnested).mpr hfresh⟩

end Labelling

/-! ### A text under `data` -/

namespace ColumnMapping

/-- The labels. -/
def labels : Dict := [("CUSNO", .str "고객번호")]

/-- A document with a text under `data`. -/
def doc : Dict := [("CUSNO", .str "1"), ("data", .str "x")]

/-- The text is lost. -/
theorem not_losesNothing : ¬ LosesNothing labels doc := by
  rintro ⟨result, hresult, hmapped, -⟩
  have happly : applyColumnMapping (.obj doc) labels = .ok (.obj (mapColumns labels doc)) := rfl
  obtain rfl := Json.obj.inj (Except.ok.inj (happly.symm.trans hresult))
  cases hmapped "data"

end ColumnMapping

end BatchProfile

end SessionManager
