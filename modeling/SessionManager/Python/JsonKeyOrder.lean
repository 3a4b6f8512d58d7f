import Mathlib.Data.String.Basic
import SessionManager.Python.JsonRoundTrip

/-!
# The order of the keys of a `dict`

`json.dumps(…, sort_keys=True)` forgets the order in which the keys of a `dict` were added, and
nothing else.

* `Same` — structurally the same up to the order of keys. It is finer than `==`, which takes `True`,
  `1` and `1.0` for equal: they have different texts.
* `sortKeys_eq_iff` — the values that are equal once their keys are sorted.
* `dumps_eq_iff` — the values with one text.
-/

namespace Python.Json

mutual

/-- The value is of the same structure as the other one, up to the order of keys. -/
def Same : Json → Json → Prop
  | .null, other => other = .null
  | .bool b, other => other = .bool b
  | .int n, other => other = .int n
  | .float r, other => other = .float r
  | .str s, other => other = .str s
  | .arr items, other => ∃ items', other = .arr items' ∧ SameItems items items'
  | .obj entries, other => ∃ entries', other = .obj entries' ∧ entries.length = entries'.length ∧
      SameValues entries entries'

/-- `Same` item by item. -/
def SameItems : List Json → List Json → Prop
  | [], others => others = []
  | item :: items, others => ∃ item' items', others = item' :: items' ∧ Same item item' ∧
      SameItems items items'

/-- Every key is there on the other side and has the same value. -/
def SameValues : List (String × Json) → List (String × Json) → Prop
  | [], _ => True
  | (key, value) :: entries, others =>
    (∃ value', others.lookup key = some value' ∧ Same value value') ∧ SameValues entries others

end

/-! ### Entries in order -/

theorem sortValues_eq_map (entries : List (String × Json)) :
    sortValues entries = entries.map fun entry => (entry.1, entry.2.sortKeys) := by
  induction entries with
  | nil => rfl
  | cons entry entries ih => rw [sortValues, ih, List.map_cons]

/-- In a `dict` the value of a key is the one beside it. -/
theorem lookup_eq_some_iff_mem {entries : List (String × Json)} (h : (entries.map Prod.fst).Nodup)
    {key : String} {value : Json} :
    entries.lookup key = some value ↔ (key, value) ∈ entries := by
  induction entries with
  | nil => simp
  | cons entry entries ih =>
    obtain ⟨key', value'⟩ := entry
    rw [List.map_cons, List.nodup_cons] at h
    rw [List.lookup_cons, List.mem_cons, Prod.mk.injEq]
    by_cases heq : key = key'
    · subst heq
      have hnot : (key, value) ∉ entries := fun hmem =>
        h.1 (List.mem_map.mpr ⟨(key, value), hmem, rfl⟩)
      simp [hnot, eq_comm]
    · simp only [beq_eq_false_iff_ne.mpr heq, heq, false_and, false_or]
      exact ih h.2

/-- Two entries of one `dict` with the same key are one. -/
theorem entry_eq_of_key {entries : List (String × Json)} (h : (entries.map Prod.fst).Nodup)
    {entry entry' : String × Json} (hmem : entry ∈ entries) (hmem' : entry' ∈ entries)
    (hkey : entry.1 = entry'.1) : entry = entry' := by
  exact List.inj_on_of_nodup_map h hmem hmem' hkey

/-- Sorted entries are the same list as soon as they are the same entries. -/
theorem mergeSort_eq_iff_perm {entries entries' : List (String × Json)}
    (h : (entries.map Prod.fst).Nodup) :
    entries.mergeSort keyLE = entries'.mergeSort keyLE ↔ entries.Perm entries' := by
  have hperm := List.mergeSort_perm entries keyLE
  have hperm' := List.mergeSort_perm entries' keyLE
  have htrans : ∀ a b c : String × Json, keyLE a b → keyLE b c → keyLE a c := by
    simp only [keyLE, decide_eq_true_eq]
    exact fun a b c => le_trans
  have htotal : ∀ a b : String × Json, keyLE a b || keyLE b a := by
    simp only [keyLE, Bool.or_eq_true, decide_eq_true_eq]
    exact fun a b => le_total _ _
  constructor
  · intro heq
    exact hperm.symm.trans (heq ▸ hperm')
  · intro hsame
    apply List.Perm.eq_of_pairwise _ (List.pairwise_mergeSort htrans htotal entries)
      (List.pairwise_mergeSort htrans htotal entries') ((hperm.trans hsame).trans hperm'.symm)
    -- neither key is before the other, so the two entries are one
    intro entry entry' hmem hmem' hle hle'
    simp only [keyLE, decide_eq_true_eq] at hle hle'
    exact entry_eq_of_key h (hperm.subset hmem) (hsame.symm.subset (hperm'.subset hmem'))
      (le_antisymm hle hle')

/-- Entries without a key twice are the same entries as soon as they are as many and those of the
one side are among those of the other. -/
theorem perm_iff_subset {entries entries' : List (String × Json)}
    (h : (entries.map Prod.fst).Nodup) :
    entries.Perm entries' ↔ entries.length = entries'.length ∧ entries ⊆ entries' := by
  constructor
  · exact fun hperm => ⟨hperm.length_eq, hperm.subset⟩
  · rintro ⟨hlength, hsubset⟩
    exact (List.subperm_of_subset (List.Nodup.of_map _ h) hsubset).perm_of_length_le hlength.ge

/-! ### Values in order -/

variable {floatRepr : String → String}

mutual

/-- Two values are equal once their keys are sorted exactly when they are equal up to the order of
keys. -/
theorem sortKeys_eq_iff (v w : Json) (hv : v.Valid floatRepr) (hw : w.Valid floatRepr) :
    v.sortKeys = w.sortKeys ↔ v.Same w := by
  match v with
  | .null | .bool _ | .int _ | .float _ | .str _ =>
    cases w <;> simp [Json.sortKeys, Same, eq_comm]
  | .arr items =>
    cases w with
    | arr items' =>
      have hitems := sortItems_eq_iff items items' hv hw
      simp [Json.sortKeys, Same, hitems]
    | null | bool _ | int _ | float _ | str _ | obj _ => simp [Json.sortKeys, Same]
  | .obj entries =>
    cases w with
    | obj entries' =>
      have hnodup : ((sortValues entries).map Prod.fst).Nodup := by
        rw [sortValues_keys]
        exact hv.1
      -- as many entries on both sides, so one inclusion is enough
      have hvalues := sortValues_subset_iff entries entries' hv.2 hw.1 hw.2
      have hlength (es : List (String × Json)) : (sortValues es).length = es.length := by
        rw [sortValues_eq_map, List.length_map]
      simp [Json.sortKeys, Same, mergeSort_eq_iff_perm hnodup, perm_iff_subset hnodup, hvalues,
        hlength]
    | null | bool _ | int _ | float _ | str _ | arr _ => simp [Json.sortKeys, Same]

theorem sortItems_eq_iff (items items' : List Json) (hv : ValidItems floatRepr items)
    (hw : ValidItems floatRepr items') :
    sortItems items = sortItems items' ↔ SameItems items items' := by
  match items with
  | [] => cases items' <;> simp [sortItems, SameItems]
  | item :: items =>
    cases items' with
    | nil => simp [sortItems, SameItems]
    | cons item' items' =>
      have hitem := sortKeys_eq_iff item item' hv.1 hw.1
      have hitems := sortItems_eq_iff items items' hv.2 hw.2
      simp [sortItems, SameItems, hitem, hitems]

theorem sortValues_subset_iff (entries entries' : List (String × Json))
    (hv : ValidValues floatRepr entries) (hnodup : (entries'.map Prod.fst).Nodup)
    (hw : ValidValues floatRepr entries') :
    sortValues entries ⊆ sortValues entries' ↔ SameValues entries entries' := by
  match entries with
  | [] => simp [sortValues, SameValues]
  | (key, value) :: entries =>
    have hvalues := sortValues_subset_iff entries entries' hv.2 hnodup hw
    -- the hypothesis for the value, at the entry of the other side that has the key
    have hvalue (value' : Json) (hmem : (key, value') ∈ entries') :
        value'.sortKeys = value.sortKeys ↔ value.Same value' := by
      have hvalid := validValues_iff.mp hw _ hmem
      rw [eq_comm]
      exact sortKeys_eq_iff value value' hv.1 hvalid
    rw [sortValues, List.cons_subset, SameValues, hvalues, sortValues_eq_map entries', List.mem_map]
    refine and_congr_left fun _ => ?_
    constructor
    · rintro ⟨⟨key', value'⟩, hmem, heq⟩
      obtain ⟨rfl, hsorted⟩ := Prod.mk.inj heq
      exact ⟨value', (lookup_eq_some_iff_mem hnodup).mpr hmem, (hvalue value' hmem).mp hsorted⟩
    · rintro ⟨value', hlookup, hsame⟩
      have hmem := (lookup_eq_some_iff_mem hnodup).mp hlookup
      exact ⟨(key, value'), hmem, Prod.ext rfl ((hvalue value' hmem).mpr hsame)⟩

end

/-- Two values have one text with sorted keys exactly when they are equal up to the order of
keys. -/
theorem dumps_eq_iff {v w : Json} (hv : v.Valid floatRepr) (hw : w.Valid floatRepr)
    (ensureAscii : Bool) :
    dumps true ensureAscii v = dumps true ensureAscii w ↔ v.Same w := by
  rw [← sortKeys_eq_iff v w hv hw]
  constructor
  · intro heq
    obtain ⟨s, hs, hload⟩ := loads_dumps hv true ensureAscii
    obtain ⟨s', hs', hload'⟩ := loads_dumps hw true ensureAscii
    obtain rfl := Except.ok.inj (hs.symm.trans (heq.trans hs'))
    exact Except.ok.inj (hload.symm.trans hload')
  · intro heq
    rw [dumps, dumps, if_pos (shortInts_of_valid v hv), if_pos (shortInts_of_valid w hw),
      if_pos rfl, if_pos rfl, heq]

end Python.Json
