import SessionManager.Python.JsonKeyOrder

/-!
# What `json.loads` returns

Everything that `json.loads` returns can be written again, and what was written is a fixed point of
reading and writing.

* `ofDigitChars_lt`, `Number.value_valid` — an `int` that has been read is not too long.
* `dictOf_valid` — a `dict` has every key once, whatever the text repeats.
* `loads_valid` — a value that has been read is `Valid`.
* `sortKeys_sortKeys`, `dumps_of_loads_dumps` — reading and writing again changes nothing.
-/

namespace Python.Json

open Interaction (bind_eq_ok)

variable {floatRepr : String → String}

/-! ### Numbers -/

/-- Digits give a number with no more digits. -/
theorem ofDigitChars_lt {digits : List Char} (h : ∀ c ∈ digits, c.isDigit) :
    Nat.ofDigitChars 10 digits 0 < 10 ^ digits.length := by
  induction digits with
  | nil => decide
  | cons c digits ih =>
    have hdigit : c.toNat - '0'.toNat ≤ 9 := by
      have := h c List.mem_cons_self
      simp only [Char.isDigit, Bool.and_eq_true, decide_eq_true_eq] at this
      have hle : c.toNat ≤ 57 := this.2
      have hzero : '0'.toNat = 48 := rfl
      omega
    have hrest := ih fun c' hc' => h c' (List.mem_cons_of_mem _ hc')
    rw [Nat.ofDigitChars_cons, Nat.ofDigitChars_eq_ofDigitChars_zero, List.length_cons, pow_succ]
    -- the first digit is at most 9, and the others give less than one of its units
    calc 10 ^ digits.length * (10 * 0 + (c.toNat - '0'.toNat)) + Nat.ofDigitChars 10 digits 0
        < 10 ^ digits.length * (10 * 0 + (c.toNat - '0'.toNat)) + 10 ^ digits.length := by omega
      _ ≤ 10 ^ digits.length * 9 + 10 ^ digits.length := by
          gcongr
          omega
      _ = 10 ^ digits.length * 10 := rfl

/-- The integer part is made of digits. -/
theorem splitInteger_digits (cs : List Char) : ∀ c ∈ (splitInteger cs).1, c.isDigit := by
  unfold splitInteger
  split
  · simp
  · exact fun c hc => List.mem_takeWhile_imp hc

theorem matchNumber_digits (cs : List Char) : ∀ c ∈ (matchNumber cs).1.integer, c.isDigit :=
  splitInteger_digits _

/-- A number that has been read can be written. -/
theorem Number.value_valid (hfloat : ∀ s, IsFloatRepr floatRepr (floatRepr s)) {n : Number}
    {v : Json} (hdigits : ∀ c ∈ n.integer, c.isDigit) (h : n.value floatRepr = .ok v) :
    v.Valid floatRepr := by
  unfold Number.value at h
  split_ifs at h with hempty hint hlength
  · cases h
    have hpos : 0 < n.integer.length := by
      rw [List.length_pos_iff]
      simpa using hempty
    -- the `int` has no more digits than were read, as zeros at the front are dropped
    have habs : n.toInt.natAbs = Nat.ofDigitChars 10 n.integer 0 := by
      unfold Number.toInt
      split_ifs <;> omega
    have hshort := (Nat.length_toDigits_le_iff (by decide) hpos).mpr (ofDigitChars_lt hdigits)
    rw [Valid, habs]
    exact hshort.trans hlength
  · cases h
    exact hfloat _

/-- The words that stand for a value stand for one that can be written. -/
theorem constants_valid : ∀ entry ∈ constants, entry.2.Valid floatRepr := by
  intro entry hmem
  simp only [constants, List.mem_cons, List.not_mem_nil, or_false] at hmem
  rcases hmem with rfl | rfl | rfl | rfl | rfl | rfl
  · trivial
  · trivial
  · trivial
  · exact .inl rfl
  · exact .inr (.inl rfl)
  · exact .inr (.inr (.inl rfl))

theorem scanPlain_valid (hfloat : ∀ s, IsFloatRepr floatRepr (floatRepr s)) {cs rest : List Char}
    {v : Json} (h : scanPlain floatRepr cs = .ok (v, rest)) : v.Valid floatRepr := by
  unfold scanPlain at h
  split at h
  · rename_i hconstant
    obtain ⟨entry, hfind, heq⟩ := Option.map_eq_some_iff.mp hconstant
    cases heq.trans (Except.ok.inj h)
    exact constants_valid entry (List.mem_of_find?_eq_some hfind)
  · unfold scanNumber at h
    cases hvalue : (matchNumber cs).1.value floatRepr with
    | error e =>
      simp only [hvalue] at h
      cases h
    | ok v' =>
      simp only [hvalue] at h
      cases h
      exact Number.value_valid hfloat (matchNumber_digits cs) hvalue

/-! ### Dictionaries -/

/-- Setting a key adds no other one. -/
theorem mem_keys_set {d : Dict} {key key' : String} {value : Json} :
    key' ∈ (d.set key value).map Prod.fst ↔ key' = key ∨ key' ∈ d.map Prod.fst := by
  induction d with
  | nil => simp [Dict.set]
  | cons entry d ih =>
    obtain ⟨key'', value''⟩ := entry
    unfold Dict.set
    split_ifs with heq
    · subst heq
      simp
    · simp only [List.map_cons, List.mem_cons] at ih ⊢
      rw [ih]
      exact or_left_comm

/-- A `dict` has every key once after one has been set. -/
theorem nodup_keys_set {d : Dict} (h : (d.map Prod.fst).Nodup) (key : String) (value : Json) :
    ((d.set key value).map Prod.fst).Nodup := by
  induction d with
  | nil => simp [Dict.set]
  | cons entry d ih =>
    obtain ⟨key', value'⟩ := entry
    rw [List.map_cons, List.nodup_cons] at h
    unfold Dict.set
    split_ifs with heq
    · subst heq
      exact List.nodup_cons.mpr h
    · refine List.nodup_cons.mpr ⟨fun hmem => ?_, ih h.2⟩
      rcases mem_keys_set.mp hmem with rfl | hmem
      · exact heq rfl
      · exact h.1 hmem

/-- The entries after a key has been set: those from before, and the new one. -/
theorem mem_set {d : Dict} {key : String} {value : Json} {entry : String × Json}
    (h : entry ∈ d.set key value) : entry = (key, value) ∨ entry ∈ d := by
  induction d with
  | nil => exact .inl (by simpa [Dict.set] using h)
  | cons entry' d ih =>
    obtain ⟨key', value'⟩ := entry'
    unfold Dict.set at h
    split_ifs at h
    · rcases List.mem_cons.mp h with rfl | hmem
      · exact .inl rfl
      · exact .inr (List.mem_cons_of_mem _ hmem)
    · rcases List.mem_cons.mp h with rfl | hmem
      · exact .inr List.mem_cons_self
      · exact (ih hmem).imp_right (List.mem_cons_of_mem _)

/-- A `dict` can be written when it could before a key was set to what can be. -/
theorem Valid.set {d : Dict} (hd : (Json.obj d).Valid floatRepr) (key : String) {value : Json}
    (hvalue : value.Valid floatRepr) : (Json.obj (d.set key value)).Valid floatRepr := by
  refine ⟨nodup_keys_set hd.1 key value, validValues_iff.mpr fun entry hmem => ?_⟩
  rcases mem_set hmem with rfl | hmem
  · exact hvalue
  · exact validValues_iff.mp hd.2 entry hmem

/-- What the entries of a text make is a `dict` that can be written. -/
theorem dictOf_valid {entries : List (String × Json)} (h : ValidValues floatRepr entries) :
    (Json.obj (dictOf entries)).Valid floatRepr := by
  suffices ∀ d : Dict, (Json.obj d).Valid floatRepr →
      (Json.obj (entries.foldl (fun (d : Dict) entry => d.set entry.1 entry.2) d)).Valid floatRepr
    from this [] ⟨List.nodup_nil, trivial⟩
  induction entries with
  | nil => exact fun d hd => hd
  | cons entry entries ih => exact fun d hd => ih h.2 _ (hd.set entry.1 h.1)

/-! ### Values -/

/-- What the scanners return can be written. -/
theorem scan_valid (hfloat : ∀ s, IsFloatRepr floatRepr (floatRepr s)) (fuel : ℕ) :
    (∀ cs v rest, scanOnce floatRepr fuel cs = .ok (v, rest) → v.Valid floatRepr) ∧
    (∀ cs items rest, scanItems floatRepr fuel cs = .ok (items, rest) →
      ValidItems floatRepr items) ∧
    (∀ cs entries rest, scanEntries floatRepr fuel cs = .ok (entries, rest) →
      ValidValues floatRepr entries) := by
  induction fuel with
  | zero => exact ⟨nofun, nofun, nofun⟩
  | succ fuel ih =>
    obtain ⟨ihOnce, ihItems, ihEntries⟩ := ih
    refine ⟨fun cs v rest h => ?_, fun cs items rest h => ?_, fun cs entries rest h => ?_⟩
    · -- one value: a string, a list, a dict, or what `scanPlain` reads
      cases cs with
      | nil => cases h
      | cons c cs =>
        rw [scanOnce] at h
        split_ifs at h
        · obtain ⟨⟨s, cs'⟩, -, h⟩ := bind_eq_ok.mp h
          cases h
          trivial
        · split at h
          · cases h
            trivial
          · obtain ⟨⟨items, cs'⟩, hitems, h⟩ := bind_eq_ok.mp h
            cases h
            exact ihItems _ _ _ hitems
        · split at h
          · cases h
            exact ⟨List.nodup_nil, trivial⟩
          · obtain ⟨⟨entries, cs'⟩, hentries, h⟩ := bind_eq_ok.mp h
            cases h
            exact dictOf_valid (ihEntries _ _ _ hentries)
        · exact scanPlain_valid hfloat h
    · -- the first item, and after a comma the others
      rw [scanItems] at h
      obtain ⟨⟨item, cs'⟩, hitem, h⟩ := bind_eq_ok.mp h
      have hvalid := ihOnce _ _ _ hitem
      dsimp only at h
      split at h
      case h_1 =>
        cases h
        exact ⟨hvalid, trivial⟩
      case h_2 =>
        obtain ⟨⟨items', cs''⟩, hitems, h⟩ := bind_eq_ok.mp h
        cases h
        exact ⟨hvalid, ihItems _ _ _ hitems⟩
      case h_3 => cases h
    · -- a key, a colon and a value, and after a comma the others
      unfold scanEntries at h
      split at h
      case h_1 => contradiction
      case h_3 => cases h
      case h_2 n cs heq =>
        cases heq
        obtain ⟨⟨key, cs₁⟩, -, h⟩ := bind_eq_ok.mp h
        dsimp only at h
        split at h
        case h_2 => cases h
        case h_1 cs₂ _ =>
          obtain ⟨⟨value, cs₃⟩, hvalue, h⟩ := bind_eq_ok.mp h
          have hvalid := ihOnce _ _ _ hvalue
          dsimp only at h
          split at h
          case h_1 =>
            cases h
            exact ⟨hvalid, trivial⟩
          case h_2 =>
            obtain ⟨⟨entries', cs₄⟩, hentries, h⟩ := bind_eq_ok.mp h
            cases h
            exact ⟨hvalid, ihEntries _ _ _ hentries⟩
          case h_3 => cases h

/-- What `json.loads` returns can be written. -/
theorem loads_valid (hfloat : ∀ s, IsFloatRepr floatRepr (floatRepr s)) {s : String} {v : Json}
    (h : loads floatRepr s = .ok v) : v.Valid floatRepr := by
  obtain ⟨⟨v', rest⟩, hscan, h⟩ := bind_eq_ok.mp h
  dsimp only at h
  split_ifs at h
  cases h
  exact (scan_valid hfloat _).1 _ _ _ hscan

/-! ### Reading and writing again -/

mutual

/-- Keys that are in order stay as they are. -/
theorem sortKeys_sortKeys (v : Json) (hv : v.Valid floatRepr) :
    v.sortKeys.sortKeys = v.sortKeys := by
  match v with
  | .null | .bool _ | .int _ | .float _ | .str _ => rfl
  | .arr items =>
    show Json.arr (sortItems (sortItems items)) = .arr (sortItems items)
    rw [sortItems_sortItems items hv]
  | .obj entries =>
    -- the values are in order already, so the second sorting permutes the entries and no more
    have hnodup : ((sortValues ((sortValues entries).mergeSort keyLE)).map Prod.fst).Nodup := by
      rw [sortValues_keys]
      exact hv.sortKeys.1
    have hperm : (sortValues ((sortValues entries).mergeSort keyLE)).Perm (sortValues entries) := by
      have hinside := (List.mergeSort_perm (sortValues entries) keyLE).map
        fun entry => (entry.1, entry.2.sortKeys)
      rw [← sortValues_eq_map, ← sortValues_eq_map, sortValues_sortValues entries hv.2] at hinside
      exact hinside
    show Json.obj ((sortValues ((sortValues entries).mergeSort keyLE)).mergeSort keyLE) =
      .obj ((sortValues entries).mergeSort keyLE)
    rw [(mergeSort_eq_iff_perm hnodup).mpr hperm]

theorem sortItems_sortItems (items : List Json) (hv : ValidItems floatRepr items) :
    sortItems (sortItems items) = sortItems items := by
  match items with
  | [] => rfl
  | item :: items =>
    rw [sortItems, sortItems, sortKeys_sortKeys item hv.1, sortItems_sortItems items hv.2]

theorem sortValues_sortValues (entries : List (String × Json))
    (hv : ValidValues floatRepr entries) :
    sortValues (sortValues entries) = sortValues entries := by
  match entries with
  | [] => rfl
  | (key, value) :: entries =>
    rw [sortValues, sortValues, sortKeys_sortKeys value hv.1, sortValues_sortValues entries hv.2]

end

/-- What has been written with its keys in order is read and written again as it is. -/
theorem dumps_of_loads_dumps {v w : Json} (hv : v.Valid floatRepr) {ensureAscii : Bool} {s : String}
    (hs : dumps true ensureAscii v = .ok s) (hw : loads floatRepr s = .ok w) :
    dumps true ensureAscii w = .ok s := by
  obtain ⟨s', hs', hload⟩ := loads_dumps hv true ensureAscii
  obtain rfl := Except.ok.inj (hs'.symm.trans hs)
  obtain rfl := Except.ok.inj (hload.symm.trans hw)
  rw [← hs, if_pos rfl, dumps_eq_iff hv.sortKeys hv, ← sortKeys_eq_iff _ _ hv.sortKeys hv]
  exact sortKeys_sortKeys v hv

end Python.Json
