import Mathlib.Data.List.TakeWhile
import SessionManager.BatchProfile.Scan

/-!
# JSON Lines

A file of JSON Lines has one record a line, and a line feed ends a line. The scan of such a file
gives the first document of the customer, unless a record is cut into pieces: a string in JSON may
hold U+0085, U+2028 and U+2029 as they are, and `str.splitlines` ends a line at each of them.

* `IsCut`, `splitlines_uncut` — the records that are cut; the others are one line each, but for
  blank ones.
* `JsonLines` — a file with the records and the documents that it holds.
* `TakenFor`, `FirstTaken` — what the scan takes a record for, and what it finds.
* `Undisturbed`, `scanBulk_first_iff` — when it finds the first document of the customer.
* `SeparatedLines.scanBulk_misses` — a record with U+2028 in it.
-/

namespace SessionManager

open Python Interaction

open Program hiding pure

namespace BatchProfile

variable {rt : Runtime} {range : Bytes → Json → Json → Except PyError Bytes} {b : Bucket}

/-! ### Records that are cut -/

/-- Only white space. -/
def Blank (cs : List Char) : Prop := ∀ c ∈ cs, isSpace c

theorem Blank.nil : Blank [] := List.forall_mem_nil _

theorem Blank.append {cs cs' : List Char} (h : Blank cs) (h' : Blank cs') : Blank (cs ++ cs') :=
  List.forall_mem_append.mpr ⟨h, h'⟩

/-- `strip` takes white space off at both ends. -/
theorem strip_surrounded {before cs after : List Char} (hbefore : Blank before)
    (hafter : Blank after) :
    strip (String.ofList (before ++ cs ++ after)) = strip (String.ofList cs) := by
  have hback (chars : List Char) :
      (chars ++ after).rdropWhile isSpace = chars.rdropWhile isSpace := by
    have hreversed : ∀ c ∈ after.reverse, isSpace c := fun c hc => hafter c (List.mem_reverse.mp hc)
    rw [List.rdropWhile, List.reverse_append, List.dropWhile_append_of_pos hreversed,
      List.rdropWhile]
  refine String.toList_injective ?_
  rw [strip_toList, strip_toList, String.toList_ofList, String.toList_ofList, List.append_assoc,
    List.dropWhile_append_of_pos hbefore, List.dropWhile_append]
  split
  · next hempty =>
    rw [List.isEmpty_iff.mp hempty, List.rdropWhile_nil, List.rdropWhile_eq_nil_iff]
    exact fun c hc => hafter c (List.dropWhile_subset _ hc)
  · exact hback _

theorem strip_eq_empty {s : String} : strip s = "" ↔ Blank s.toList := by
  have hempty : strip s = "" ↔ (strip s).toList = [] := by
    rw [← String.toList_inj]
    rfl
  rw [hempty, strip_toList, List.rdropWhile_eq_nil_iff]
  constructor
  · intro h c hc
    rw [← List.takeWhile_append_dropWhile (p := isSpace) (l := s.toList), List.mem_append] at hc
    rcases hc with hc | hc
    · exact List.mem_takeWhile_imp hc
    · exact h c hc
  · exact fun h c hc => h c (List.dropWhile_subset _ hc)

/-- White space in front of a line gives blank lines, and goes before the first other one. -/
theorem splitlinesFrom_lead {lead rest : List Char} (hlead : Blank lead)
    (hlf : '\n' ∉ lead ++ rest) (line : List Char) (hline : Blank line) :
    ∃ before line', splitlinesFrom line (lead ++ rest) = before ++ splitlinesFrom line' rest ∧
      (∀ piece ∈ before, Blank piece) ∧ Blank line' := by
  induction lead generalizing line with
  | nil => exact ⟨[], line, rfl, List.forall_mem_nil _, hline⟩
  | cons c lead ih =>
    obtain ⟨hc, hlead⟩ := List.forall_mem_cons.mp hlead
    have hrest : '\n' ∉ lead ++ rest := fun hmem => hlf (List.mem_cons_of_mem _ hmem)
    rw [List.cons_append]
    by_cases hend : isLineEnd c
    · obtain ⟨before, line', heq, hbefore, hline'⟩ := ih hlead hrest [] .nil
      rw [splitlinesFrom_lineEnd hend hrest, heq]
      exact ⟨line :: before, line', rfl, List.forall_mem_cons.mpr ⟨hline, hbefore⟩, hline'⟩
    · rw [splitlinesFrom_other hend]
      exact ih hlead hrest _ (hline.append fun c' hc' => by rwa [List.mem_singleton.mp hc'])

/-- Characters that end no line belong to one. -/
theorem splitlinesFrom_within {chars : List Char} (h : ∀ c ∈ chars, ¬ isLineEnd c)
    (line rest : List Char) :
    splitlinesFrom line (chars ++ rest) = splitlinesFrom (line ++ chars) rest := by
  induction chars generalizing line with
  | nil => rw [List.nil_append, List.append_nil]
  | cons c chars ih =>
    obtain ⟨hc, hchars⟩ := List.forall_mem_cons.mp h
    rw [List.cons_append, splitlinesFrom_other hc, ih hchars, List.append_assoc]
    rfl

/-- A line has only characters of the text. -/
theorem mem_splitlinesFrom (line cs : List Char) :
    ∀ piece ∈ splitlinesFrom line cs, ∀ c ∈ piece, c ∈ line ∨ c ∈ cs := by
  -- by the cases of `str.splitlines`: the end of the text, CR LF, another line end, any other one
  fun_induction splitlinesFrom line cs with
  | case1 =>
    intro piece hpiece
    cases hpiece
  | case2 line =>
    intro piece hpiece c hc
    rw [List.mem_singleton.mp hpiece] at hc
    exact .inl hc
  | case3 line cs ih =>
    intro piece hpiece c hc
    rcases List.mem_cons.mp hpiece with rfl | hpiece
    · exact .inl hc
    · rcases ih piece hpiece c hc with hnil | hcs
      · cases hnil
      · exact .inr (List.mem_cons_of_mem _ (List.mem_cons_of_mem _ hcs))
  | case4 line c' cs _ _ ih =>
    intro piece hpiece c hc
    rcases List.mem_cons.mp hpiece with rfl | hpiece
    · exact .inl hc
    · rcases ih piece hpiece c hc with hnil | hcs
      · cases hnil
      · exact .inr (List.mem_cons_of_mem _ hcs)
  | case5 line c' cs _ _ ih =>
    intro piece hpiece c hc
    rcases ih piece hpiece c hc with hline | hcs
    · rcases List.mem_append.mp hline with hline | hlast
      · exact .inl hline
      · rw [List.mem_singleton.mp hlast]
        exact .inr List.mem_cons_self
    · exact .inr (List.mem_cons_of_mem _ hcs)

/-- White space behind a line may stay with it, and gives blank lines. -/
theorem splitlinesFrom_trail {trail : List Char} (htrail : Blank trail) (hlf : '\n' ∉ trail)
    (line : List Char) (hline : line ≠ []) :
    ∃ spaces after, splitlinesFrom line trail = (line ++ spaces) :: after ∧ Blank spaces ∧
      ∀ piece ∈ after, Blank piece := by
  induction trail generalizing line with
  | nil =>
    have hempty : ¬ line.isEmpty := by simpa using hline
    exact ⟨[], [], by rw [splitlinesFrom, if_neg hempty, List.append_nil], .nil,
      List.forall_mem_nil _⟩
  | cons c trail ih =>
    obtain ⟨hc, htrail⟩ := List.forall_mem_cons.mp htrail
    have hlf' : '\n' ∉ trail := fun hmem => hlf (List.mem_cons_of_mem _ hmem)
    by_cases hend : isLineEnd c
    · -- the line ends here, and what follows is blank
      rw [splitlinesFrom_lineEnd hend hlf']
      refine ⟨[], splitlinesFrom [] trail, by rw [List.append_nil], .nil, ?_⟩
      intro piece hpiece c' hc'
      have hmem := mem_splitlinesFrom [] trail piece hpiece c' hc'
      exact htrail c' (hmem.resolve_left List.not_mem_nil)
    · rw [splitlinesFrom_other hend]
      obtain ⟨spaces, after, heq, hspaces, hafter⟩ := ih htrail hlf' (line ++ [c]) (by simp)
      refine ⟨c :: spaces, after, ?_, List.forall_mem_cons.mpr ⟨hc, hspaces⟩, hafter⟩
      rw [heq, List.append_assoc]
      rfl

/-- A record that `str.splitlines` cuts: there is a line end within it. -/
def IsCut (record : String) : Prop := (strip record).toList.any isLineEnd

instance (record : String) : Decidable (IsCut record) :=
  inferInstanceAs (Decidable ((strip record).toList.any isLineEnd = true))

/-- A record that is not cut is one line, with blank ones before and after it. -/
theorem splitlines_uncut {record : String} (hlf : '\n' ∉ record.toList) (hne : strip record ≠ "")
    (huncut : ¬ IsCut record) :
    ∃ before line after, splitlines record = before ++ line :: after ∧
      strip line = strip record ∧ ∀ line' ∈ before ++ after, strip line' = "" := by
  have hblank {cs : List Char} (h : Blank cs) : strip (String.ofList cs) = "" := by
    rw [strip_eq_empty, String.toList_ofList]
    exact h
  -- white space, the text within, white space
  obtain ⟨lead, trail, hchars, hlead, htrail⟩ : ∃ lead trail,
      record.toList = lead ++ ((strip record).toList ++ trail) ∧ Blank lead ∧ Blank trail := by
    refine ⟨_, _, ?_, fun c => List.mem_takeWhile_imp (p := isSpace) (l := record.toList),
      fun c => List.mem_rtakeWhile_imp (p := isSpace) (l := record.toList.dropWhile isSpace)⟩
    rw [strip_toList, List.rdropWhile_append_rtakeWhile, List.takeWhile_append_dropWhile]
  have hwithin : ∀ c ∈ (strip record).toList, ¬ isLineEnd c := by
    intro c hc hend
    exact huncut (List.any_eq_true.mpr ⟨c, hc, hend⟩)
  have hinner : (strip record).toList ≠ [] := fun hnil => hne (String.toList_injective hnil)
  rw [hchars] at hlf
  obtain ⟨before, line, hleads, hbefore, hline⟩ := splitlinesFrom_lead hlead hlf [] .nil
  obtain ⟨spaces, after, htrails, hspaces, hafter⟩ := splitlinesFrom_trail htrail
    (fun hmem => hlf (List.mem_append_right _ (List.mem_append_right _ hmem)))
    (line ++ (strip record).toList) (by simp [hinner])
  refine ⟨before.map String.ofList, String.ofList (line ++ (strip record).toList ++ spaces),
    after.map String.ofList, ?_, ?_, fun line' hline' => ?_⟩
  · rw [splitlines, hchars, hleads, splitlinesFrom_within hwithin, htrails, List.map_append,
      List.map_cons]
  · rw [strip_surrounded hline hspaces, String.ofList_toList, strip_strip]
  · rw [← List.map_append] at hline'
    obtain ⟨chars, hmem, rfl⟩ := List.mem_map.mp hline'
    rcases List.mem_append.mp hmem with hmem | hmem
    · exact hblank (hbefore chars hmem)
    · exact hblank (hafter chars hmem)

/-- The lines of a blank record are blank. -/
theorem strip_line_of_blank {record : String} (h : strip record = "") :
    ∀ line ∈ splitlines record, strip line = "" := by
  intro line hline
  obtain ⟨chars, hchars, rfl⟩ := List.mem_map.mp hline
  rw [strip_eq_empty, String.toList_ofList]
  intro c hc
  exact strip_eq_empty.mp h c
    ((mem_splitlinesFrom [] record.toList chars hchars c hc).resolve_left List.not_mem_nil)

/-- No record has a line feed in it. -/
theorem not_mem_lfLines (text : String) : ∀ record ∈ lfLines text, '\n' ∉ record.toList := by
  have hchars (cs : List Char) : ∀ record ∈ cs.splitOn '\n', '\n' ∉ record := by
    induction cs with
    | nil =>
      intro record hrecord
      rw [List.splitOn_nil, List.mem_singleton] at hrecord
      exact hrecord ▸ List.not_mem_nil
    | cons c cs ih =>
      obtain ⟨first, rest, hsplit⟩ := List.exists_cons_of_ne_nil (List.splitOn_ne_nil '\n' cs)
      rw [hsplit] at ih
      obtain ⟨hfirst, hrest⟩ := List.forall_mem_cons.mp ih
      by_cases hc : c = '\n'
      · subst hc
        rw [splitOn_newline, hsplit]
        exact List.forall_mem_cons.mpr ⟨List.not_mem_nil, ih⟩
      · rw [splitOn_cons hc hsplit]
        refine List.forall_mem_cons.mpr ⟨fun hmem => ?_, hrest⟩
        exact (List.mem_cons.mp hmem).elim (fun heq => hc heq.symm) hfirst
  intro record hrecord
  obtain ⟨chars, hmem, rfl⟩ := List.mem_map.mp hrecord
  rw [String.toList_ofList]
  exact hchars text.toList chars hmem

/-! ### Lines of bytes -/

/-- A file of JSON Lines: each record that is not blank is the text of a document. -/
structure JsonLines (rt : Runtime) where
  text : String
  /-- The records that are not blank, with their documents. -/
  records : List (String × Dict)
  splits : (lfLines text).filter (fun record => strip record ≠ "") = records.map Prod.fst
  encodes : ∀ r ∈ records, rt.jsonLoads (encodeUtf8 r.1) = .ok (.obj r.2)

/-- The documents of the file. -/
def JsonLines.docs (file : JsonLines rt) : List Dict := file.records.map Prod.snd

/-- `_match_cusno(doc, cusno, encrypted_columns)`. -/
def isCustomers (rt : Runtime) (cusno : String) (encryptedColumns : Json) (doc : Dict) : Bool :=
  (matchCusno rt (.obj doc) cusno encryptedColumns).toOption.getD false

/-- The first document of the customer, or `None`. -/
def firstOf (rt : Runtime) (cusno : String) (encryptedColumns : Json) (docs : List Dict) : Json :=
  match docs.find? (isCustomers rt cusno encryptedColumns) with
  | some doc => .obj doc
  | none => .null

/-- The first line that stops the scan is decoded to the first document of the customer; without
such a document no line stops it. -/
def ReadsFirst (rt : Runtime) (cusno : String) (encryptedColumns : Json) (lines : List String)
    (docs : List Dict) : Prop :=
  match docs.find? (isCustomers rt cusno encryptedColumns) with
  | some doc => FirstStop rt cusno encryptedColumns lines (.obj doc)
  | none => NoStop rt cusno encryptedColumns lines

/-- With a list of columns every document can be compared. -/
theorem isCustomers_iff (hcipher : CipherDocumented rt) {cusno : String} {columns : List Json}
    {doc : Dict} :
    isCustomers rt cusno (.arr columns) doc = true ↔
      matchCusno rt (.obj doc) cusno (.arr columns) = .ok true := by
  obtain ⟨found, hfound⟩ : ∃ found, matchCusno rt (.obj doc) cusno (.arr columns) = .ok found :=
    matchCusno_obj hcipher rfl doc
  rw [isCustomers, hfound]
  show found = true ↔ Except.ok found = Except.ok true
  rw [Except.ok.injEq]

section Scan

variable (hjson : ∀ data e, rt.jsonLoads data = .error e → e = .valueError)
  (hcipher : CipherDocumented rt)

include hjson hcipher

theorem scanLines_eq_firstOf {cusno : String} {columns : List Json} {lines : List String}
    {docs : List Dict} :
    scanLines rt cusno (.arr columns) lines = .ok (firstOf rt cusno (.arr columns) docs) ↔
      ReadsFirst rt cusno (.arr columns) lines docs := by
  rw [firstOf, ReadsFirst]
  -- the first document of the customer, if there is one, against the first stop of the scan
  cases hfind : docs.find? (isCustomers rt cusno (.arr columns)) with
  | some doc =>
    show _ = Except.ok (Json.obj doc) ↔ FirstStop rt cusno (.arr columns) _ (.obj doc)
    rcases firstStop_or_noStop (.arr columns) lines with ⟨value, hstop⟩ | hnone
    · rw [scanLines_of_firstStop hjson hcipher hstop]
      constructor
      · intro heq
        cases hmatch : matchCusno rt value cusno (.arr columns) with
        | ok found =>
          rw [hmatch] at heq
          rw [← Except.ok.inj heq]
          exact hstop
        | error e =>
          rw [hmatch] at heq
          cases heq
      · intro hfirst
        rw [hstop.unique hfirst, (isCustomers_iff hcipher).mp (List.find?_some hfind)]
        rfl
    · rw [scanLines_of_noStop hjson hnone]
      exact iff_of_false nofun fun hfirst => hfirst.not_noStop hnone
  | none =>
    show _ = Except.ok Json.null ↔ NoStop rt cusno (.arr columns) _
    rcases firstStop_or_noStop (.arr columns) lines with ⟨value, hstop⟩ | hnone
    · -- what the scan finds is an object
      rw [scanLines_of_firstStop hjson hcipher hstop]
      refine iff_of_false (fun heq => ?_) hstop.not_noStop
      cases hmatch : matchCusno rt value cusno (.arr columns) with
      | ok found =>
        rw [hmatch] at heq
        have hnull : value = .null := Except.ok.inj heq
        rw [hnull] at hmatch
        cases hmatch
      | error e =>
        rw [hmatch] at heq
        cases heq
    · rw [scanLines_of_noStop hjson hnone]
      exact iff_of_true rfl hnone

end Scan

/-! ### What the scan finds -/

section Records

variable (rt : Runtime) (cusno : String) (columns : List Json)

/-- What the scan takes a record for: a whole one for its document, when that is the customer's, and
one that is cut for what its first piece is decoded to that stops the scan. -/
def TakenFor (r : String × Dict) (value : Json) : Prop :=
  if IsCut r.1 then FirstStop rt cusno (.arr columns) (splitlines r.1) value
  else isCustomers rt cusno (.arr columns) r.2 ∧ value = .obj r.2

/-- What it takes the first record for that it takes for anything. -/
def FirstTaken : List (String × Dict) → Json → Prop
  | [], _ => False
  | r :: records, value => TakenFor rt cusno columns r value ∨
      (∀ value', ¬ TakenFor rt cusno columns r value') ∧ FirstTaken records value

/-- The record is cut, and it is the customer's or one of its pieces stops the scan. -/
def Disturbs (r : String × Dict) : Prop :=
  IsCut r.1 ∧ (isCustomers rt cusno (.arr columns) r.2 ∨
    ¬ NoStop rt cusno (.arr columns) (splitlines r.1))

/-- No record disturbs the scan up to the first whole one of the customer. -/
def Undisturbed : List (String × Dict) → Prop
  | [] => True
  | r :: records => ¬ Disturbs rt cusno columns r ∧
      (¬ IsCut r.1 ∧ isCustomers rt cusno (.arr columns) r.2 ∨ Undisturbed records)

variable {rt cusno columns} {records : List (String × Dict)}

/-- A record that is taken for nothing disturbs the scan only when it is the customer's. -/
theorem not_disturbs_of_not_taken {r : String × Dict}
    (hother : ¬ isCustomers rt cusno (.arr columns) r.2)
    (h : ∀ value, ¬ TakenFor rt cusno columns r value) : ¬ Disturbs rt cusno columns r := by
  rintro ⟨hcut, hcustomers | hstops⟩
  · exact hother hcustomers
  · rcases firstStop_or_noStop (.arr columns) (splitlines r.1) with ⟨value, hstop⟩ | hnone
    · exact h value (by rwa [TakenFor, if_pos hcut])
    · exact hstops hnone

/-- Where there is no document of the customer and nothing is found, nothing disturbs the scan. -/
theorem undisturbed_of_not_taken
    (hothers : ∀ r ∈ records, ¬ isCustomers rt cusno (.arr columns) r.2)
    (h : ∀ value, ¬ FirstTaken rt cusno columns records value) :
    Undisturbed rt cusno columns records := by
  induction records with
  | nil => trivial
  | cons r records ih =>
    obtain ⟨hother, hothers⟩ := List.forall_mem_cons.mp hothers
    have hr (value : Json) : ¬ TakenFor rt cusno columns r value := fun hv => h value (.inl hv)
    exact ⟨not_disturbs_of_not_taken hother hr,
      .inr (ih hothers fun value hv => h value (.inr ⟨hr, hv⟩))⟩

/-- An undisturbed scan finds the first document of the customer, and nothing without one. -/
theorem Undisturbed.firstTaken (h : Undisturbed rt cusno columns records) :
    match (records.map Prod.snd).find? (isCustomers rt cusno (.arr columns)) with
    | some doc => FirstTaken rt cusno columns records (.obj doc)
    | none => ∀ value, ¬ FirstTaken rt cusno columns records value := by
  induction records with
  | nil => exact fun value => id
  | cons r records ih =>
    obtain ⟨hdisturbs, hrest⟩ := h
    rw [List.map_cons]
    by_cases hcustomers : isCustomers rt cusno (.arr columns) r.2
    · -- the customer's record is whole
      have huncut : ¬ IsCut r.1 := fun hcut => hdisturbs ⟨hcut, .inl hcustomers⟩
      rw [List.find?_cons_of_pos hcustomers]
      refine .inl ?_
      rw [TakenFor, if_neg huncut]
      exact ⟨hcustomers, rfl⟩
    · have hr (value : Json) : ¬ TakenFor rt cusno columns r value := by
        rw [TakenFor]
        split_ifs with hcut
        · exact fun hstop => hdisturbs ⟨hcut, .inr hstop.not_noStop⟩
        · exact fun hv => hcustomers hv.1
      have hfound := ih (hrest.resolve_left fun hw => hcustomers hw.2)
      rw [List.find?_cons_of_neg hcustomers]
      split at hfound
      · exact .inr ⟨hr, hfound⟩
      · rintro value (hv | ⟨-, hv⟩)
        · exact hr value hv
        · exact hfound value hv

end Records

section Found

variable (hcipher : CipherDocumented rt)
  (hstrip : ∀ record value, rt.jsonLoads (encodeUtf8 record) = .ok value →
    rt.jsonLoads (encodeUtf8 (strip record)) = .ok value)
  {cusno : String} {columns : List Json}

/-- What stops the scan depends on what is left of the line without white space around it. -/
theorem stops_congr {encryptedColumns : Json} {line line' : String} {value : Json}
    (h : strip line = strip line') :
    Stops rt cusno encryptedColumns line value ↔ Stops rt cusno encryptedColumns line' value := by
  rw [Stops, Stops, h]

include hcipher hstrip in
/-- The text of a document stops the scan when the document is the customer's. -/
theorem stops_document {record : String} {doc : Dict} (hne : strip record ≠ "")
    (hloads : rt.jsonLoads (encodeUtf8 record) = .ok (.obj doc)) {value : Json} :
    Stops rt cusno (.arr columns) record value ↔
      isCustomers rt cusno (.arr columns) doc ∧ value = .obj doc := by
  have hdecoded := hstrip record _ hloads
  obtain ⟨found, hfound⟩ : ∃ found, matchCusno rt (.obj doc) cusno (.arr columns) = .ok found :=
    matchCusno_obj hcipher rfl doc
  rw [isCustomers_iff hcipher, hfound]
  constructor
  · rintro ⟨-, hvalue, hmatch⟩
    obtain rfl := Except.ok.inj (hdecoded.symm.trans hvalue)
    rw [hfound] at hmatch
    cases found with
    | true => exact ⟨rfl, rfl⟩
    | false => exact absurd rfl hmatch
  · rintro ⟨htrue, rfl⟩
    obtain rfl := Except.ok.inj htrue
    exact ⟨hne, hdecoded, by rw [hfound]; nofun⟩

/-- The first stop of two parts is in the first one, or the first one has none. -/
theorem firstStop_append {encryptedColumns : Json} {lines lines' : List String} {value : Json} :
    FirstStop rt cusno encryptedColumns (lines ++ lines') value ↔
      FirstStop rt cusno encryptedColumns lines value ∨
        NoStop rt cusno encryptedColumns lines ∧
          FirstStop rt cusno encryptedColumns lines' value := by
  induction lines with
  | nil =>
    refine ⟨fun h => .inr ⟨nofun, h⟩, fun h => h.elim ?_ fun h => h.2⟩
    rintro ⟨before, line, after, hlines, -⟩
    simp at hlines
  | cons line lines ih =>
    rw [List.cons_append, firstStop_cons, firstStop_cons, noStop_cons, ih]
    tauto

/-- Blank lines stop nothing. -/
theorem noStop_of_blank {encryptedColumns : Json} {lines : List String}
    (h : ∀ line ∈ lines, strip line = "") : NoStop rt cusno encryptedColumns lines :=
  fun line hline _ hstop => hstop.1 (h line hline)

/-- A record that is not cut stops the scan as its text does. -/
theorem firstStop_uncut {encryptedColumns : Json} {record : String}
    (hlf : '\n' ∉ record.toList) (hne : strip record ≠ "") (huncut : ¬ IsCut record)
    {value : Json} :
    FirstStop rt cusno encryptedColumns (splitlines record) value ↔
      Stops rt cusno encryptedColumns record value := by
  obtain ⟨before, line, after, hlines, hline, hblank⟩ := splitlines_uncut hlf hne huncut
  obtain ⟨hbefore, hafter⟩ := List.forall_mem_append.mp hblank
  have hnone : ¬ FirstStop rt cusno encryptedColumns after value :=
    fun hstop => hstop.not_noStop (noStop_of_blank hafter)
  have hnone' : ¬ FirstStop rt cusno encryptedColumns before value :=
    fun hstop => hstop.not_noStop (noStop_of_blank hbefore)
  rw [hlines, firstStop_append, firstStop_cons, stops_congr hline]
  constructor
  · rintro (h | ⟨-, h | ⟨-, h⟩⟩)
    · exact absurd h hnone'
    · exact h
    · exact absurd h hnone
  · exact fun h => .inr ⟨noStop_of_blank hbefore, .inl h⟩

include hcipher hstrip

/-- The pieces of a record stop the scan with what it is taken for. -/
theorem takenFor_iff {r : String × Dict} (hlf : '\n' ∉ r.1.toList) (hne : strip r.1 ≠ "")
    (hloads : rt.jsonLoads (encodeUtf8 r.1) = .ok (.obj r.2)) {value : Json} :
    TakenFor rt cusno columns r value ↔
      FirstStop rt cusno (.arr columns) (splitlines r.1) value := by
  rw [TakenFor]
  split_ifs with hcut
  · rfl
  · rw [firstStop_uncut hlf hne hcut, stops_document hcipher hstrip hne hloads]

/-- The first stop of the scan, record by record. -/
theorem firstTaken_iff {lines : List String} {records : List (String × Dict)}
    (hlf : ∀ line ∈ lines, '\n' ∉ line.toList)
    (hsplits : lines.filter (fun record => strip record ≠ "") = records.map Prod.fst)
    (hencodes : ∀ r ∈ records, rt.jsonLoads (encodeUtf8 r.1) = .ok (.obj r.2)) {value : Json} :
    FirstTaken rt cusno columns records value ↔
      FirstStop rt cusno (.arr columns) (lines.flatMap splitlines) value := by
  induction lines generalizing records with
  | nil =>
    obtain rfl := List.map_eq_nil_iff.mp hsplits.symm
    refine ⟨False.elim, ?_⟩
    rintro ⟨before, line, after, hlines, -⟩
    simp at hlines
  | cons line lines ih =>
    obtain ⟨hline, hlines⟩ := List.forall_mem_cons.mp hlf
    rw [List.flatMap_cons, firstStop_append]
    by_cases hblank : strip line = ""
    · -- no record stands for a blank line, and its pieces stop nothing
      rw [List.filter_cons_of_neg (by simpa using hblank)] at hsplits
      have hnone : NoStop rt cusno (.arr columns) (splitlines line) :=
        noStop_of_blank (strip_line_of_blank hblank)
      rw [ih hlines hsplits hencodes]
      exact ⟨fun h => .inr ⟨hnone, h⟩,
        fun h => (h.resolve_left fun hstop => hstop.not_noStop hnone).2⟩
    · rw [List.filter_cons_of_pos (by simpa using hblank)] at hsplits
      cases records with
      | nil => cases hsplits
      | cons r records =>
        -- the line is the text of the first record
        obtain ⟨rfl, hrest⟩ := List.cons.inj hsplits
        obtain ⟨hloads, hencodes⟩ := List.forall_mem_cons.mp hencodes
        have htaken (value' : Json) : TakenFor rt cusno columns r value' ↔
            FirstStop rt cusno (.arr columns) (splitlines r.1) value' :=
          takenFor_iff hcipher hstrip hline hblank hloads
        have hnone : (∀ value', ¬ TakenFor rt cusno columns r value') ↔
            NoStop rt cusno (.arr columns) (splitlines r.1) := by
          constructor
          · intro h
            rcases firstStop_or_noStop (.arr columns) (splitlines r.1) with ⟨value', hstop⟩ | hnone
            · exact absurd ((htaken value').mpr hstop) (h value')
            · exact hnone
          · exact fun h value' hv => ((htaken value').mp hv).not_noStop h
        rw [FirstTaken, htaken, hnone, ih hlines hrest hencodes]

/-- The first stop is the first document of the customer if and only if no record that is cut
disturbs the scan, or it happens upon an equal document. -/
theorem JsonLines.readsFirst_iff (file : JsonLines rt) :
    ReadsFirst rt cusno (.arr columns) (pieces file.text) file.docs ↔
      Undisturbed rt cusno columns file.records ∨
        ∃ doc, file.docs.find? (isCustomers rt cusno (.arr columns)) = some doc ∧
          FirstTaken rt cusno columns file.records (.obj doc) := by
  have htaken (value : Json) : FirstTaken rt cusno columns file.records value ↔
      FirstStop rt cusno (.arr columns) (pieces file.text) value :=
    firstTaken_iff hcipher hstrip (not_mem_lfLines file.text) file.splits file.encodes
  have hundisturbed (h : Undisturbed rt cusno columns file.records) := h.firstTaken
  rw [← JsonLines.docs] at hundisturbed
  rw [ReadsFirst]
  cases hfind : file.docs.find? (isCustomers rt cusno (.arr columns)) with
  | some doc =>
    rw [hfind] at hundisturbed
    show FirstStop rt cusno (.arr columns) (pieces file.text) (.obj doc) ↔ _
    rw [← htaken]
    constructor
    · exact fun h => .inr ⟨doc, rfl, h⟩
    · rintro (h | ⟨doc', hdoc, h⟩)
      · exact hundisturbed h
      · rwa [Option.some.inj hdoc]
  | none =>
    -- there is nothing to happen upon, so this is about what disturbs the scan only
    rw [hfind] at hundisturbed
    show NoStop rt cusno (.arr columns) (pieces file.text) ↔ _
    have hothers : ∀ r ∈ file.records, ¬ isCustomers rt cusno (.arr columns) r.2 :=
      fun r hr => List.find?_eq_none.mp hfind r.2 (List.mem_map_of_mem hr)
    constructor
    · intro h
      exact .inl (undisturbed_of_not_taken hothers
        fun value hv => ((htaken value).mp hv).not_noStop h)
    · rintro (h | ⟨doc, hdoc, -⟩)
      · rcases firstStop_or_noStop (.arr columns) (pieces file.text) with ⟨value, hstop⟩ | hnone
        · exact absurd ((htaken value).mpr hstop) (hundisturbed h value)
        · exact hnone
      · cases hdoc

/-- The scan of a file of JSON Lines gives the first document of the customer if and only if no
record that is cut disturbs it, or it happens upon an equal document. The decoder raises
`ValueError` only, and ignores white space around a value. -/
theorem scanBulk_first_iff
    (hjson : ∀ data e, rt.jsonLoads data = .error e → e = .valueError) (file : JsonLines rt)
    {bulkKey : String} (hget : b.get bulkKey = some (encodeUtf8 file.text)) (cusno : String)
    (columns : List Json) :
    (scanBulk rt bulkKey cusno (.arr columns)).eval (b.answer range) =
        .ok (firstOf rt cusno (.arr columns) file.docs) ↔
      Undisturbed rt cusno columns file.records ∨
        ∃ doc, file.docs.find? (isCustomers rt cusno (.arr columns)) = some doc ∧
          FirstTaken rt cusno columns file.records (.obj doc) := by
  rw [eval_scanBulk_pieces hjson hcipher hget (decodeUtf8_encodeUtf8 _),
    scanLines_eq_firstOf hjson hcipher, file.readsFirst_iff hcipher hstrip]

end Found

/-! ### A record with a line separator in it -/

namespace SeparatedLines

/-- A record with U+2028 in a string. -/
def separated : String := "\x7b\"CUSNO\":\"7\",\"ADR\":\"\u2028\"\x7d"

/-- What it is decoded to. -/
def separatedDoc : Dict := [("CUSNO", .str "7"), ("ADR", .str "\u2028")]

/-- A record of another customer. -/
def other : String := "\x7b\"CUSNO\":\"8\"\x7d"

/-- What it is decoded to. -/
def otherDoc : Dict := [("CUSNO", .str "8")]

/-- A decoder of the two records, without a key store. -/
def runtime : Runtime :=
  { jsonLoads := fun data =>
      if data = encodeUtf8 separated then .ok (.obj separatedDoc)
      else if data = encodeUtf8 other then .ok (.obj otherDoc)
      else .error .valueError
    hasCryptography := true
    symmKey := .error .runtimeError
    aesGcmDecrypt := fun _ _ _ => .error .invalidTag }

theorem jsonLoads_error (data : Bytes) (e : PyError) (h : runtime.jsonLoads data = .error e) :
    e = .valueError := by
  simp only [runtime] at h
  split_ifs at h
  exact (Except.error.inj h).symm

theorem runtime_documented : CipherDocumented runtime := .of_keyless rfl fun _ _ _ => rfl

/-- The file of both records. -/
def file : JsonLines runtime where
  text := other ++ "\n" ++ separated ++ "\n"
  records := [(other, otherDoc), (separated, separatedDoc)]
  splits := by decide
  encodes := List.forall_mem_cons.mpr ⟨rfl, List.forall_mem_cons.mpr ⟨rfl, nofun⟩⟩

/-- A bucket with the file. -/
def bucket : Bucket := [("bulk.jsonl", encodeUtf8 file.text)]

/-- The scan does not find the record, though it is one of the file. -/
theorem scanBulk_misses :
    (scanBulk runtime "bulk.jsonl" "7" (.arr [])).eval (bucket.answer Json.slice) ≠
      .ok (firstOf runtime "7" (.arr []) file.docs) := by
  have hscan : (scanBulk runtime "bulk.jsonl" "7" (.arr [])).eval (bucket.answer Json.slice) =
      .ok .null := by
    rw [eval_scanBulk_pieces jsonLoads_error runtime_documented rfl (decodeUtf8_encodeUtf8 _)]
    rfl
  have hfirst : firstOf runtime "7" (.arr []) file.docs = .obj separatedDoc := rfl
  rw [hscan, hfirst]
  nofun

/-- White space around the records is none of theirs. -/
theorem jsonLoads_strip (record : String) (value : Json)
    (h : runtime.jsonLoads (encodeUtf8 record) = .ok value) :
    runtime.jsonLoads (encodeUtf8 (strip record)) = .ok value := by
  have hinj {text : String} (heq : encodeUtf8 record = encodeUtf8 text) : record = text := by
    have hdecode := decodeUtf8_encodeUtf8 record
    rw [heq, decodeUtf8_encodeUtf8] at hdecode
    exact (Except.ok.inj hdecode).symm
  have hrecord : record = separated ∨ record = other := by
    simp only [runtime] at h
    split_ifs at h with hseparated hother
    · exact .inl (hinj hseparated)
    · exact .inr (hinj hother)
  rcases hrecord with rfl | rfl
  · rwa [show strip separated = separated by decide]
  · rwa [show strip other = other by decide]

/-- It finds the other one, which is whole and comes first. -/
theorem scanBulk_other :
    (scanBulk runtime "bulk.jsonl" "8" (.arr [])).eval (bucket.answer Json.slice) =
      .ok (firstOf runtime "8" (.arr []) file.docs) := by
  have huncut : ¬ IsCut other := by decide
  exact (scanBulk_first_iff runtime_documented jsonLoads_strip jsonLoads_error file rfl "8"
    []).mpr (.inl ⟨fun hdisturbs => huncut hdisturbs.1, .inl ⟨huncut, rfl⟩⟩)

end SeparatedLines

end BatchProfile

end SessionManager
