import SessionManager.BatchProfile.Lookup

/-!
# The scan of all records

The scan ends at the first line that stops it. Lines are those of `str.splitlines`, which knows more
line ends than the line feed that separates the records, so that a record may be cut into pieces.

* `outcomeOf`, `scanLines_eq` — what one line makes of the scan, and what the first ones do.
* `Stops`, `outcomeOf_eq_some` — the lines that stop it.
* `lfLines`, `pieces`, `scanLines_splitlines` — the records of a file, and their pieces.
* `eval_scanBulk_pieces` — the scan of a file.
* `Quiet`, `scanLines_cases` — the scan when no customer number is encrypted.
-/

namespace SessionManager

open Python Interaction

open Program hiding pure

namespace BatchProfile

variable {rt : Runtime} {range : Bytes → Json → Json → Except PyError Bytes} {b : Bucket}
  {cusno : String}

/-! ### One line -/

/-- What a line makes of the scan: nothing when it is skipped. -/
def outcomeOf (rt : Runtime) (cusno : String) (encryptedColumns : Json) (line : String) :
    Option (Except PyError Json) :=
  if strip line = "" then none
  else
    match candidate rt cusno encryptedColumns (strip line) with
    | .ok (some doc) => some (.ok doc)
    | .ok none | .error .valueError => none
    | .error e => some (.error e)

/-- The scan ends with what the first line that is not skipped makes of it. -/
theorem scanLines_eq (encryptedColumns : Json) (lines : List String) :
    scanLines rt cusno encryptedColumns lines =
      (lines.findSome? (outcomeOf rt cusno encryptedColumns)).getD (.ok .null) := by
  induction lines with
  | nil => rfl
  | cons line lines ih =>
    rw [scanLines, List.findSome?_cons, outcomeOf]
    split
    · exact ih
    · cases candidate rt cusno encryptedColumns (strip line) with
      | ok found =>
        cases found with
        | none => exact ih
        | some doc => rfl
      | error e =>
        cases e with
        | valueError => exact ih
        | _ => rfl

/-- The line is decoded to `value`, which is not the document of someone else: it is the customer's,
or cannot be compared. -/
def Stops (rt : Runtime) (cusno : String) (encryptedColumns : Json) (line : String)
    (value : Json) : Prop :=
  strip line ≠ "" ∧ rt.jsonLoads (encodeUtf8 (strip line)) = .ok value ∧
    matchCusno rt value cusno encryptedColumns ≠ .ok false

section Comparison

variable (hjson : ∀ data e, rt.jsonLoads data = .error e → e = .valueError)
  (hcipher : CipherDocumented rt)

include hcipher

/-- A customer number is decrypted, or not: the only failure, that of the key store, is handled. -/
theorem plainCusno_raises (rawCusno encryptedColumns : Json) :
    RaisesOnly [.typeError] (plainCusno rt rawCusno encryptedColumns) := by
  rw [plainCusno]
  apply (Json.contains_raises encryptedColumns "CUSNO").bind
  intro encrypted
  split
  · cases hvalue : decryptFieldValue rt (.str rawCusno.pyStr) with
    | ok value => exact .ok _
    | error e =>
      have he : e = .runtimeError := by simpa using decryptFieldValue_raises hcipher _ e hvalue
      subst he
      exact .ok _
  · exact .ok _

theorem matchCusno_raises (value encryptedColumns : Json) :
    RaisesOnly [.typeError, .attributeError] (matchCusno rt value cusno encryptedColumns) := by
  rw [matchCusno]
  apply ((Json.get_raises value "CUSNO").mono (by simp)).bind
  intro rawCusno
  split
  · exact .ok _
  · exact ((plainCusno_raises hcipher rawCusno encryptedColumns).mono (by simp)).bind
      fun plain => .ok _

/-- With columns in which `CUSNO` can be looked up, every object can be compared. -/
theorem matchCusno_obj {encryptedColumns : Json} {encrypted : Bool}
    (h : encryptedColumns.contains "CUSNO" = .ok encrypted) (entries : Dict) :
    ∃ found, matchCusno rt (.obj entries) cusno encryptedColumns = .ok found := by
  have hplain (rawCusno : Json) : ∃ plain, plainCusno rt rawCusno encryptedColumns = .ok plain := by
    cases hraised : plainCusno rt rawCusno encryptedColumns with
    | ok plain => exact ⟨plain, rfl⟩
    | error e =>
      -- the decryption raises nothing, and neither does the look-up
      rw [plainCusno, h] at hraised
      cases encrypted with
      | false => cases hraised
      | true =>
        cases hvalue : decryptFieldValue rt (.str rawCusno.pyStr) with
        | ok value =>
          simp only [hvalue] at hraised
          cases hraised
        | error e' =>
          have he : e' = .runtimeError := by
            simpa using decryptFieldValue_raises hcipher _ e' hvalue
          simp only [hvalue, he] at hraised
          cases hraised
  obtain ⟨plain, hplain⟩ := hplain (Dict.get entries "CUSNO")
  show ∃ found, (if (Dict.get entries "CUSNO").isNone then _ else _) = _
  split
  · exact ⟨false, rfl⟩
  · rw [hplain]
    exact ⟨_, rfl⟩

omit hcipher in
/-- What a value makes of the scan. -/
theorem candidate_of_loads {encryptedColumns : Json} {line : String} {value : Json}
    (hloads : rt.jsonLoads (encodeUtf8 line) = .ok value) :
    candidate rt cusno encryptedColumns line =
      (matchCusno rt value cusno encryptedColumns).map
        fun found => if found then some value else none := by
  rw [candidate, hloads]
  show (do
    if ← matchCusno rt value cusno encryptedColumns then Except.ok (some value)
    else Except.ok none) = _
  cases matchCusno rt value cusno encryptedColumns with
  | ok found =>
    cases found with
    | true => rfl
    | false => rfl
  | error e => rfl

/-- A line that stops the scan ends it: with its value, or with the exception. -/
theorem outcomeOf_of_stops {encryptedColumns : Json} {line : String} {value : Json}
    (h : Stops rt cusno encryptedColumns line value) :
    outcomeOf rt cusno encryptedColumns line =
      some ((matchCusno rt value cusno encryptedColumns).map fun _ => value) := by
  obtain ⟨hblank, hloads, hmatch⟩ := h
  rw [outcomeOf, if_neg hblank, candidate_of_loads hloads]
  cases hfound : matchCusno rt value cusno encryptedColumns with
  | ok found =>
    cases found with
    | true => rfl
    | false => exact absurd hfound hmatch
  | error e =>
    -- no `ValueError`, which would be handled by skipping the line
    have he : e = .typeError ∨ e = .attributeError := by
      simpa using matchCusno_raises hcipher value encryptedColumns e hfound
    rcases he with rfl | rfl
    · rfl
    · rfl

omit hcipher in
include hjson in
/-- A line that does not stop the scan is skipped. -/
theorem outcomeOf_of_not_stops {encryptedColumns : Json} {line : String}
    (h : ∀ value, ¬ Stops rt cusno encryptedColumns line value) :
    outcomeOf rt cusno encryptedColumns line = none := by
  rw [outcomeOf]
  split
  · rfl
  · next hblank =>
    cases hloads : rt.jsonLoads (encodeUtf8 (strip line)) with
    | error e =>
      have hcandidate : candidate rt cusno encryptedColumns (strip line) = .error .valueError := by
        rw [candidate, hloads, hjson _ _ hloads]
        rfl
      rw [hcandidate]
    | ok value =>
      -- it is the document of someone else
      have hother : matchCusno rt value cusno encryptedColumns = .ok false := by
        by_contra hmatch
        exact h value ⟨hblank, hloads, hmatch⟩
      rw [candidate_of_loads hloads, hother]
      rfl

end Comparison

/-! ### The first line that stops the scan -/

/-- `value` is what the first line that stops the scan is decoded to. -/
def FirstStop (rt : Runtime) (cusno : String) (encryptedColumns : Json) (lines : List String)
    (value : Json) : Prop :=
  ∃ before line after, lines = before ++ line :: after ∧
    Stops rt cusno encryptedColumns line value ∧
      ∀ line' ∈ before, ∀ value', ¬ Stops rt cusno encryptedColumns line' value'

/-- No line stops the scan. -/
def NoStop (rt : Runtime) (cusno : String) (encryptedColumns : Json) (lines : List String) :
    Prop :=
  ∀ line ∈ lines, ∀ value, ¬ Stops rt cusno encryptedColumns line value

section Stop

variable {encryptedColumns : Json}

theorem Stops.unique {line : String} {value value' : Json}
    (h : Stops rt cusno encryptedColumns line value)
    (h' : Stops rt cusno encryptedColumns line value') : value = value' :=
  Except.ok.inj (h.2.1.symm.trans h'.2.1)

/-- The first of several lines stops the scan, or the others do. -/
theorem firstStop_cons {line : String} {lines : List String} {value : Json} :
    FirstStop rt cusno encryptedColumns (line :: lines) value ↔
      Stops rt cusno encryptedColumns line value ∨
        (∀ value', ¬ Stops rt cusno encryptedColumns line value') ∧
          FirstStop rt cusno encryptedColumns lines value := by
  constructor
  · rintro ⟨before, line', after, hlines, hstop, hbefore⟩
    cases before with
    | nil =>
      obtain ⟨rfl, -⟩ := List.cons.inj hlines
      exact .inl hstop
    | cons first before =>
      obtain ⟨rfl, hrest⟩ := List.cons.inj hlines
      obtain ⟨hfirst, hbefore⟩ := List.forall_mem_cons.mp hbefore
      exact .inr ⟨hfirst, before, line', after, hrest, hstop, hbefore⟩
  · rintro (hstop | ⟨hline, before, line', after, rfl, hstop, hbefore⟩)
    · exact ⟨[], line, lines, rfl, hstop, nofun⟩
    · exact ⟨line :: before, line', after, rfl, hstop,
        List.forall_mem_cons.mpr ⟨hline, hbefore⟩⟩

theorem noStop_cons {line : String} {lines : List String} :
    NoStop rt cusno encryptedColumns (line :: lines) ↔
      (∀ value, ¬ Stops rt cusno encryptedColumns line value) ∧
        NoStop rt cusno encryptedColumns lines := List.forall_mem_cons

theorem FirstStop.unique {lines : List String} {value value' : Json}
    (h : FirstStop rt cusno encryptedColumns lines value)
    (h' : FirstStop rt cusno encryptedColumns lines value') : value = value' := by
  induction lines with
  | nil =>
    obtain ⟨before, line, after, hlines, -⟩ := h
    simp at hlines
  | cons line lines ih =>
    rcases firstStop_cons.mp h with hstop | ⟨hline, hrest⟩
    · rcases firstStop_cons.mp h' with hstop' | ⟨hline', -⟩
      · exact hstop.unique hstop'
      · exact absurd hstop (hline' value)
    · rcases firstStop_cons.mp h' with hstop' | ⟨-, hrest'⟩
      · exact absurd hstop' (hline value')
      · exact ih hrest hrest'

theorem FirstStop.not_noStop {lines : List String} {value : Json}
    (h : FirstStop rt cusno encryptedColumns lines value) :
    ¬ NoStop rt cusno encryptedColumns lines := by
  obtain ⟨before, line, after, rfl, hstop, -⟩ := h
  exact fun hnone => hnone line (by simp) value hstop

theorem FirstStop.not_other {lines : List String} {value : Json}
    (h : FirstStop rt cusno encryptedColumns lines value) :
    matchCusno rt value cusno encryptedColumns ≠ .ok false := by
  obtain ⟨before, line, after, -, hstop, -⟩ := h
  exact hstop.2.2

theorem firstStop_or_noStop (encryptedColumns : Json) (lines : List String) :
    (∃ value, FirstStop rt cusno encryptedColumns lines value) ∨
      NoStop rt cusno encryptedColumns lines := by
  induction lines with
  | nil => exact .inr nofun
  | cons line lines ih =>
    by_cases hstop : ∃ value, Stops rt cusno encryptedColumns line value
    · obtain ⟨value, hvalue⟩ := hstop
      exact .inl ⟨value, firstStop_cons.mpr (.inl hvalue)⟩
    · have hline := not_exists.mp hstop
      rcases ih with ⟨value, hrest⟩ | hnone
      · exact .inl ⟨value, firstStop_cons.mpr (.inr ⟨hline, hrest⟩)⟩
      · exact .inr (noStop_cons.mpr ⟨hline, hnone⟩)

end Stop


/-! ### Records and their pieces -/

/-- The records of a text: what the line feeds separate. -/
def lfLines (text : String) : List String := (text.toList.splitOn '\n').map String.ofList

/-- The pieces that a record is cut into. -/
def pieces (text : String) : List String := (lfLines text).flatMap splitlines

section Pieces

theorem splitOn_newline (cs : List Char) :
    ('\n' :: cs).splitOn '\n' = [] :: cs.splitOn '\n' := by
  rw [List.splitOn_cons_eq_if_modifyHead, if_pos (beq_self_eq_true _)]

theorem splitOn_cons {c : Char} {cs first : List Char} {rest : List (List Char)} (hc : c ≠ '\n')
    (h : cs.splitOn '\n' = first :: rest) : (c :: cs).splitOn '\n' = (c :: first) :: rest := by
  rw [List.splitOn_cons_eq_if_modifyHead, beq_false_of_ne hc, if_neg Bool.false_ne_true, h]
  rfl

/-- A record has no line feed in it. -/
theorem not_mem_first {cs first : List Char} {rest : List (List Char)}
    (h : cs.splitOn '\n' = first :: rest) : '\n' ∉ first := by
  induction cs generalizing first rest with
  | nil =>
    obtain ⟨rfl, -⟩ := List.cons.inj ((List.splitOn_nil _).symm.trans h)
    exact List.not_mem_nil
  | cons c cs ih =>
    by_cases hc : c = '\n'
    · subst hc
      obtain ⟨rfl, -⟩ := List.cons.inj ((splitOn_newline cs).symm.trans h)
      exact List.not_mem_nil
    · obtain ⟨first', rest', hsplit⟩ := List.exists_cons_of_ne_nil (List.splitOn_ne_nil '\n' cs)
      obtain ⟨rfl, -⟩ := List.cons.inj ((splitOn_cons hc hsplit).symm.trans h)
      rw [List.mem_cons, not_or]
      exact ⟨fun heq => hc heq.symm, ih hsplit⟩

/-- A character that ends a line, other than the first of `\r\n`. -/
theorem splitlinesFrom_lineEnd {c : Char} {line cs : List Char} (hend : isLineEnd c)
    (hcs : '\n' ∉ cs) : splitlinesFrom line (c :: cs) = line :: splitlinesFrom [] cs := by
  rw [splitlinesFrom.eq_def]
  split
  · next heq => cases heq
  · next heq =>
    cases heq
    simp at hcs
  · next heq =>
    cases heq
    exact if_pos hend

/-- A character within a line. -/
theorem splitlinesFrom_other {c : Char} {line cs : List Char} (hend : ¬ isLineEnd c) :
    splitlinesFrom line (c :: cs) = splitlinesFrom (line ++ [c]) cs := by
  rw [splitlinesFrom.eq_def]
  split
  · next heq => cases heq
  · next heq =>
    cases heq
    exact absurd rfl hend
  · next heq =>
    cases heq
    exact if_neg hend

theorem findSome?_cons_or {α γ : Type} (f : α → Option γ) (item : α) (items : List α) :
    (item :: items).findSome? f = (f item).or (items.findSome? f) := by
  rw [List.findSome?_cons]
  cases f item with
  | none => rfl
  | some value => rfl

/-- What the first line that matters gives is found record by record, since the lines of a text are
the pieces of its records, but for blank ones. -/
theorem findSome?_splitlinesFrom {γ : Type} {f : List Char → Option γ} (hblank : f [] = none)
    (line cs : List Char) : ∀ first rest, cs.splitOn '\n' = first :: rest →
      (splitlinesFrom line cs).findSome? f =
        ((splitlinesFrom line first).findSome? f).or
          (rest.findSome? fun record => (splitlinesFrom [] record).findSome? f) := by
  fun_induction splitlinesFrom line cs with
  | case1 line hempty =>
    intro first rest h
    obtain ⟨rfl, rfl⟩ := List.cons.inj ((List.splitOn_nil _).symm.trans h)
    rw [splitlinesFrom, if_pos hempty]
    rfl
  | case2 line hempty =>
    intro first rest h
    obtain ⟨rfl, rfl⟩ := List.cons.inj ((List.splitOn_nil _).symm.trans h)
    rw [splitlinesFrom, if_neg hempty, List.findSome?_nil, Option.or_none]
  | case3 line cs ih =>
    -- the carriage return ends the record before the line feed does
    intro first rest h
    obtain ⟨first', rest', hsplit⟩ := List.exists_cons_of_ne_nil (List.splitOn_ne_nil '\n' cs)
    have hnewline := splitOn_newline cs
    obtain ⟨rfl, rfl⟩ := List.cons.inj ((splitOn_cons (by decide) hnewline).symm.trans h)
    have hreturn : splitlinesFrom line ['\r'] = [line] := splitlinesFrom_lineEnd rfl (by simp)
    rw [hreturn, hsplit, findSome?_cons_or, ih first' rest' hsplit, findSome?_cons_or,
      findSome?_cons_or, List.findSome?_nil, Option.or_none]
  | case4 line c cs hcrlf hend ih =>
    intro first rest h
    obtain ⟨first', rest', hsplit⟩ := List.exists_cons_of_ne_nil (List.splitOn_ne_nil '\n' cs)
    rw [findSome?_cons_or, ih first' rest' hsplit]
    by_cases hc : c = '\n'
    · subst hc
      obtain ⟨rfl, rfl⟩ := List.cons.inj ((splitOn_newline cs).symm.trans h)
      rw [hsplit, splitlinesFrom, findSome?_cons_or _ first']
      by_cases hempty : line.isEmpty
      · -- an empty record has no piece, where the text has an empty line
        rw [if_pos hempty, List.isEmpty_iff.mp hempty, hblank, List.findSome?_nil]
      · rw [if_neg hempty, findSome?_cons_or, List.findSome?_nil, Option.or_none]
    · obtain ⟨rfl, rfl⟩ := List.cons.inj ((splitOn_cons hc hsplit).symm.trans h)
      rw [splitlinesFrom_lineEnd hend (not_mem_first hsplit), findSome?_cons_or, Option.or_assoc]
  | case5 line c cs hcrlf hend ih =>
    intro first rest h
    obtain ⟨first', rest', hsplit⟩ := List.exists_cons_of_ne_nil (List.splitOn_ne_nil '\n' cs)
    have hc : c ≠ '\n' := by
      rintro rfl
      exact hend rfl
    obtain ⟨rfl, rfl⟩ := List.cons.inj ((splitOn_cons hc hsplit).symm.trans h)
    rw [ih first' rest' hsplit, splitlinesFrom_other hend]

theorem findSome?_flatMap {α β γ : Type} (g : α → List β) (f : β → Option γ) (items : List α) :
    (items.flatMap g).findSome? f = items.findSome? fun item => (g item).findSome? f := by
  induction items with
  | nil => rfl
  | cons item items ih =>
    rw [List.flatMap_cons, List.findSome?_append, ih, findSome?_cons_or]

/-- The scan of a text is the scan of the pieces of its records. -/
theorem scanLines_splitlines (encryptedColumns : Json) (text : String) :
    scanLines rt cusno encryptedColumns (splitlines text) =
      scanLines rt cusno encryptedColumns (pieces text) := by
  obtain ⟨first, rest, hsplit⟩ :=
    List.exists_cons_of_ne_nil (List.splitOn_ne_nil '\n' text.toList)
  have hrecord (record : List Char) :
      (splitlines (String.ofList record)).findSome? (outcomeOf rt cusno encryptedColumns) =
        (splitlinesFrom [] record).findSome?
          (outcomeOf rt cusno encryptedColumns ∘ String.ofList) := by
    rw [splitlines, List.findSome?_map, String.toList_ofList]
  rw [scanLines_eq, scanLines_eq, pieces, lfLines, findSome?_flatMap, List.findSome?_map,
    splitlines, List.findSome?_map, findSome?_splitlinesFrom rfl [] text.toList first rest hsplit,
    hsplit, findSome?_cons_or]
  simp only [Function.comp_def] at hrecord ⊢
  simp only [hrecord]

end Pieces

/-! ### The scan of a file -/

section File

variable (hjson : ∀ data e, rt.jsonLoads data = .error e → e = .valueError)
  (hcipher : CipherDocumented rt) {encryptedColumns : Json}

include hjson

/-- Without a line that stops it, the scan finds nothing. -/
theorem scanLines_of_noStop {lines : List String}
    (h : NoStop rt cusno encryptedColumns lines) :
    scanLines rt cusno encryptedColumns lines = .ok .null := by
  have hfind : lines.findSome? (outcomeOf rt cusno encryptedColumns) = none :=
    List.findSome?_eq_none_iff.mpr fun line hline => outcomeOf_of_not_stops hjson (h line hline)
  rw [scanLines_eq, hfind, Option.getD_none]

include hcipher

/-- The scan ends at the first line that stops it. -/
theorem scanLines_of_firstStop {lines : List String} {value : Json}
    (h : FirstStop rt cusno encryptedColumns lines value) :
    scanLines rt cusno encryptedColumns lines =
      (matchCusno rt value cusno encryptedColumns).map fun _ => value := by
  obtain ⟨before, line, after, hlines, hstop, hbefore⟩ := h
  have hfind : lines.findSome? (outcomeOf rt cusno encryptedColumns) =
      some ((matchCusno rt value cusno encryptedColumns).map fun _ => value) :=
    List.findSome?_eq_some_iff.mpr ⟨before, line, after, hlines, outcomeOf_of_stops hcipher hstop,
      fun line' hline' => outcomeOf_of_not_stops hjson (hbefore line' hline')⟩
  rw [scanLines_eq, hfind, Option.getD_some]

/-- The scan fails only on a value that cannot be compared. -/
theorem scanLines_raises (lines : List String) :
    RaisesOnly [.typeError, .attributeError] (scanLines rt cusno encryptedColumns lines) := by
  rcases firstStop_or_noStop encryptedColumns lines with ⟨value, hstop⟩ | hnone
  · rw [scanLines_of_firstStop hjson hcipher hstop]
    exact (matchCusno_raises hcipher value encryptedColumns).map _
  · rw [scanLines_of_noStop hjson hnone]
    exact .ok _

/-- The scan of a file that can be decoded. -/
theorem eval_scanBulk_pieces {bulkKey text : String} {data : Bytes}
    (hget : b.get bulkKey = some data) (hdecode : decodeUtf8 data = .ok text) :
    (scanBulk rt bulkKey cusno encryptedColumns).eval (b.answer range) =
      scanLines rt cusno encryptedColumns (pieces text) := by
  have hbody : (do
      let text ← Program.ofExcept (decodeUtf8 (← request (.getObject bulkKey)))
      Program.ofExcept (scanLines rt cusno encryptedColumns (splitlines text)) :
        Retrieval Json).eval (b.answer range) =
      scanLines rt cusno encryptedColumns (pieces text) := by
    rw [eval_bind_ok _ (eval_getObject hget), eval_bind_ok (a := text)]
    · rw [eval_ofExcept, scanLines_splitlines]
    · rw [eval_ofExcept, hdecode]
  rw [scanBulk]
  cases hscan : scanLines rt cusno encryptedColumns (pieces text) with
  | ok doc => exact eval_tryExcept_ok (hbody.trans hscan) _ _
  | error e =>
    -- an exception of the scan is none of the store, and escapes
    have he : e ∉ storeErrors := by
      have hraised := scanLines_raises hjson hcipher (pieces text) e hscan
      simp only [List.mem_cons, List.not_mem_nil, or_false] at hraised
      rcases hraised with rfl | rfl
      · decide
      · decide
    rw [tryExcept, eval_catchWith_error _ (hbody.trans hscan), if_neg he]
    rfl

end File

/-! ### The scan without encrypted customer numbers -/

/-- No line of a text is the record of the customer: a line that can be decoded is an object, and
someone else's. Lines are those of `splitlines`, which also end within a record, at U+2028 for
instance. -/
def Quiet (rt : Runtime) (cusno : String) (lines : List String) : Prop :=
  ∀ line ∈ lines, strip line ≠ "" → ∀ value, rt.jsonLoads (encodeUtf8 (strip line)) = .ok value →
    ∃ entries, value = .obj entries ∧ ¬ IsOf cusno entries

section Plain

variable {columns : List String}

/-- When the column of the customer numbers is not encrypted, the lines that stop the scan are those
that are not quiet. -/
theorem noStop_iff_quiet (hcolumns : "CUSNO" ∉ columns) {lines : List String} :
    NoStop rt cusno (.arr (columns.map .str)) lines ↔ Quiet rt cusno lines := by
  have hother (value : Json) : matchCusno rt value cusno (.arr (columns.map .str)) = .ok false ↔
      ∃ entries, value = .obj entries ∧ ¬ IsOf cusno entries := by
    constructor
    · intro h
      cases value with
      | obj entries =>
        refine ⟨entries, rfl, fun hof => ?_⟩
        cases h.symm.trans (matchCusno_of_isOf (contains_columns hcolumns) hof)
      | _ => cases h
    · rintro ⟨entries, rfl, hof⟩
      exact matchCusno_of_not_isOf (contains_columns hcolumns) hof
  constructor
  · intro h line hline hblank value hloads
    by_contra hquiet
    exact h line hline value ⟨hblank, hloads, fun hmatch => hquiet ((hother value).mp hmatch)⟩
  · intro h line hline value hstop
    exact hstop.2.2 ((hother value).mpr (h line hline hstop.1 value hstop.2.1))

/-- A scan of quiet lines finds nothing; any other one finds an object, or fails on a value that is
no object. -/
theorem scanLines_cases (hdoc : Documented rt range) (hcolumns : "CUSNO" ∉ columns)
    (lines : List String) :
    (Quiet rt cusno lines ∧ scanLines rt cusno (.arr (columns.map .str)) lines = .ok .null) ∨
      (¬ Quiet rt cusno lines ∧
        (scanLines rt cusno (.arr (columns.map .str)) lines = .error .attributeError ∨
          ∃ entries, scanLines rt cusno (.arr (columns.map .str)) lines = .ok (.obj entries))) := by
  rw [← noStop_iff_quiet hcolumns]
  rcases firstStop_or_noStop (.arr (columns.map .str)) lines with ⟨value, hstop⟩ | hnone
  · refine .inr ⟨hstop.not_noStop, ?_⟩
    rw [scanLines_of_firstStop hdoc.jsonLoads_error hdoc.cipher hstop]
    cases value with
    | obj entries =>
      obtain ⟨found, hfound⟩ : ∃ found, matchCusno rt (.obj entries) cusno
          (.arr (columns.map .str)) = .ok found :=
        matchCusno_obj hdoc.cipher (contains_columns hcolumns) entries
      rw [hfound]
      exact .inr ⟨entries, rfl⟩
    | _ => exact .inl rfl
  · exact .inl ⟨hnone, scanLines_of_noStop hdoc.jsonLoads_error hnone⟩

/-- The scan of a file that has been encoded. -/
theorem eval_scanBulk (hdoc : Documented rt range) {bulkKey text : String}
    (hget : b.get bulkKey = some (encodeUtf8 text)) :
    (scanBulk rt bulkKey cusno (.arr (columns.map .str))).eval (b.answer range) =
      scanLines rt cusno (.arr (columns.map .str)) (splitlines text) := by
  rw [eval_scanBulk_pieces hdoc.jsonLoads_error hdoc.cipher hget (decodeUtf8_encodeUtf8 text),
    scanLines_splitlines]

end Plain

end BatchProfile

end SessionManager
