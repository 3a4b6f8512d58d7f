import Mathlib.Order.Bounds.Basic
import SessionManager.BatchProfile.MalformedData

/-!
# The newest directory of a batch

The directory that a lookup is to run in: the one of the date that `_latest_date.json` names,
without a date in it the one of the greatest date listed, and `latest/` only without one.

* `Dated`, `ListedDate`, `Newest` — the dates, and the directory to look in.
* `newestDateDir_greatest`, `newestDateDir_none` — the greatest date of a listing.
* `Selected`, `eval_selectListed`, `eval_selectLatest` — the steps of the selection.
* `findsNewest_iff` — when the selection is of that directory.
-/

namespace SessionManager

open Python Interaction

open Program hiding pure

namespace BatchProfile

/-! ### The dates -/

/-- The date that a `_latest_date.json` names: its `latest_date`, or its `load_date` without
hyphens when there is none. -/
def Dated (entries : Dict) (date : String) : Prop :=
  IsDate date ∧ (Dict.get entries "latest_date" = .str date ∨
    ¬ (Dict.get entries "latest_date").truthy ∧ ∃ s, entries.lookup "load_date" = some (.str s) ∧
      date = String.ofList (s.toList.filter (· ≠ '-')))

/-- A date with a directory that one of the names listed is in. -/
def ListedDate (names : List String) (pre date : String) : Prop :=
  IsDate date ∧ ∃ name ∈ names, (directory pre date ++ "/").toList <+: name.toList

/-- What `_latest_date.json` holds, or what reading and decoding it raises. -/
def dateFile (rt : Runtime) (answer : (c : Call) → Except PyError c.Result) (pre : String) :
    Except PyError Json :=
  answer (.getObject (directory pre "_latest_date.json")) >>= rt.jsonLoads

/-- `_latest_date.json` names no date: it cannot be read, or there is no date in it. -/
def Undated (rt : Runtime) (answer : (c : Call) → Except PyError c.Result) (pre : String) : Prop :=
  ∀ entries date, dateFile rt answer pre = .ok (.obj entries) → ¬ Dated entries date

/-- The directory to look in, if there is one. -/
inductive Newest (rt : Runtime) (answer : (c : Call) → Except PyError c.Result)
    (names : List String) (pre cusno : String) : Option String → Prop where
  | named {entries : Dict} {date : String} (file : dateFile rt answer pre = .ok (.obj entries))
      (dated : Dated entries date) :
      Newest rt answer names pre cusno (some (directory pre
        (if (Dict.get entries "use_latest").truthy then "latest" else date)))
  | listed {date : String} (undated : Undated rt answer pre)
      (greatest : IsGreatest {date | ListedDate names pre date} date) :
      Newest rt answer names pre cusno (some (directory pre date))
  | latest (undated : Undated rt answer pre) (unlisted : ∀ date, ¬ ListedDate names pre date)
      (present : answer (.statObject (indexShardKey (directory pre "latest") cusno)) = .ok ()) :
      Newest rt answer names pre cusno (some (directory pre "latest"))
  | nowhere (undated : Undated rt answer pre) (unlisted : ∀ date, ¬ ListedDate names pre date)
      (absent : ∃ e, answer (.statObject (indexShardKey (directory pre "latest") cusno)) =
        .error e) : Newest rt answer names pre cusno none

/-- The selection is of the directory to look in. -/
def FindsNewest (rt : Runtime) (answer : (c : Call) → Except PyError c.Result)
    (names : List String) (pre cusno : String) : Prop :=
  ∃ selection dir, (selectDirectory rt pre cusno).eval answer = .ok selection ∧
    Newest rt answer names pre cusno dir ∧
    Option.Rel (fun selection dir => selection.Names pre dir) selection dir

/-- A server that lists `names`, and raises what a store raises where an object is missing. -/
structure Lists (answer : (c : Call) → Except PyError c.Result) (pre : String)
    (names : List String) : Prop where
  names_eq : answer (.listObjects (directory pre "")) = .ok names
  getObject_error : ∀ key e, answer (.getObject key) = .error e → e ∈ storeErrors
  statObject_error : ∀ key e, answer (.statObject key) = .error e → e ∈ storeErrors

/-- A bucket whose server never fails is one. -/
theorem Bucket.lists (range : Bytes → Json → Json → Except PyError Bytes) (b : Bucket)
    (pre : String) : Lists (b.answer range) pre (b.listing (directory pre "")) where
  names_eq := rfl
  getObject_error key e h := by
    have hcontent : b.content key = .error e := h
    rw [Bucket.content] at hcontent
    split at hcontent
    · cases hcontent
    · obtain rfl := Except.error.inj hcontent
      simp [storeErrors]
  statObject_error key e h := by
    have hcontent : (b.content key).map (fun _ => ()) = .error e := h
    rw [Bucket.content] at hcontent
    split at hcontent
    · cases hcontent
    · obtain rfl := Except.error.inj hcontent
      simp [storeErrors]

/-! ### The greatest date of a listing -/

section Greatest

variable {pre : String} {names : List String}

/-- The first element of a list sorted downwards. -/
theorem isGreatest_of_head {α : Type} [LE α] [DecidableLE α]
    (htrans : ∀ a b c : α, a ≤ b → b ≤ c → a ≤ c) (htotal : ∀ a b : α, a ≤ b ∨ b ≤ a)
    {l : List α} {a : α} (h : (l.mergeSort fun a b => decide (b ≤ a)).head? = some a) :
    IsGreatest {x | x ∈ l} a := by
  refine ⟨List.mem_mergeSort.mp (List.mem_of_head? h), fun x hx => ?_⟩
  have hsorted : (l.mergeSort fun a b => decide (b ≤ a)).Pairwise
      fun a b => decide (b ≤ a) = true := by
    apply List.pairwise_mergeSort
    · intro a b c hab hbc
      exact decide_eq_true (htrans c b a (of_decide_eq_true hbc) (of_decide_eq_true hab))
    · intro a b
      simpa using htotal b a
  obtain ⟨tail, htail⟩ := List.head?_eq_some_iff.mp h
  have hmem : x ∈ a :: tail := htail ▸ List.mem_mergeSort.mpr hx
  rw [htail] at hsorted
  rcases List.mem_cons.mp hmem with rfl | hmem
  · exact (htotal x x).elim id id
  · exact of_decide_eq_true (List.rel_of_pairwise_cons hsorted hmem)

/-- What stands before the first `c`. -/
theorem takeWhile_ne_of_notMem {α : Type} [DecidableEq α] {c : α} {before : List α}
    (h : c ∉ before) (after : List α) : (before ++ c :: after).takeWhile (· ≠ c) = before := by
  have hall : ∀ a ∈ before, decide (a ≠ c) = true := by
    intro a ha
    exact decide_eq_true fun heq => h (heq ▸ ha)
  rw [List.takeWhile_append_of_pos hall, List.takeWhile_cons_of_neg (by simp), List.append_nil]

/-- The directory of a name is that of a date: the name is in it. -/
theorem dateDir?_eq_some_iff {name date : String} :
    dateDir? pre name = some date ↔
      IsDate date ∧ (directory pre date ++ "/").toList <+: name.toList := by
  have hdirectory : (directory pre date ++ "/").toList =
      (directory pre "").toList ++ (date.toList ++ ['/']) := by
    simp [directory]
  rw [hdirectory, dateDir?]
  constructor
  · intro h
    split at h
    · next hprefix =>
      obtain ⟨remaining, hname⟩ := List.isPrefixOf_iff_prefix.mp hprefix
      rw [← hname, List.drop_left] at h
      dsimp only at h
      split at h
      · next hdate =>
        obtain rfl := Option.some.inj h
        -- the date is what stands before the next slash
        obtain ⟨before, after, rfl, hbefore⟩ := List.eq_append_cons_of_mem hdate.1
        refine ⟨hdate.2, ?_⟩
        rw [← hname, List.prefix_append_right_inj, String.toList_ofList,
          takeWhile_ne_of_notMem hbefore]
        exact ⟨after, by simp⟩
      · cases h
    · cases h
  · rintro ⟨hdate, after, hname⟩
    have hremaining : name.toList.drop (directory pre "").toList.length =
        date.toList ++ '/' :: after := by
      rw [← hname, List.append_assoc, List.drop_left]
      simp
    have hprefix : (directory pre "").toList.isPrefixOf name.toList := by
      rw [List.isPrefixOf_iff_prefix, ← hname, List.append_assoc]
      exact List.prefix_append _ _
    dsimp only
    rw [if_pos hprefix, hremaining, takeWhile_ne_of_notMem (isdigit_ne_slash hdate.2),
      String.ofList_toList, if_pos ⟨by simp, hdate⟩]

theorem listedDate_iff {date : String} :
    ListedDate names pre date ↔ date ∈ names.filterMap (dateDir? pre) := by
  simp only [ListedDate, List.mem_filterMap, dateDir?_eq_some_iff]
  constructor
  · rintro ⟨hdate, name, hname, hprefix⟩
    exact ⟨name, hname, hdate, hprefix⟩
  · rintro ⟨name, hname, hdate, hprefix⟩
    exact ⟨hdate, name, hname, hprefix⟩

/-- The date that the listing is searched for is the greatest one. -/
theorem newestDateDir_greatest {date : String} (h : newestDateDir pre names = some date) :
    IsGreatest {date | ListedDate names pre date} date := by
  have hgreatest := isGreatest_of_head (fun _ _ _ => String.le_trans) String.le_total h
  simpa only [listedDate_iff] using hgreatest

/-- There is none without a date. -/
theorem newestDateDir_none (h : newestDateDir pre names = none) (date : String) :
    ¬ ListedDate names pre date := by
  intro hlisted
  have hmem : date ∈ (names.filterMap (dateDir? pre)).mergeSort fun a b => decide (b ≤ a) :=
    List.mem_mergeSort.mpr (listedDate_iff.mp hlisted)
  rw [List.head?_eq_none_iff.mp h] at hmem
  exact List.not_mem_nil hmem

end Greatest

/-! ### The steps -/

section Steps

variable {rt : Runtime} {answer : (c : Call) → Except PyError c.Result} {names : List String}
  {pre cusno : String}

/-- A decoded `_latest_date.json` with a date: the date, and what it selects. -/
theorem selectionOf_dated {entries : Dict} {date : String} (h : Dated entries date) :
    selectionOf pre (.obj entries) = .ok
      { latestDate := some date
        useLatest := (Dict.get entries "use_latest").truthy
        queryPath := some (directory pre
          (if (Dict.get entries "use_latest").truthy then "latest" else date) ++ "/") } := by
  obtain ⟨hdate, hnamed⟩ := h
  have hne : date ≠ "" := by
    rintro rfl
    exact absurd hdate.1 (by decide)
  -- the date is that of `latest_date`, or of `load_date` without its hyphens
  have hlatest : latestDate entries = .ok (.str date) := by
    rw [latestDate]
    rcases hnamed with hname | ⟨hfalsy, s, hload, hhyphens⟩
    · rw [hname, if_pos (by simpa [Json.truthy] using hne)]
    · rw [if_neg hfalsy, loadDate, hload, hhyphens]
  have htext : dateText (.str date) = .ok (some date) := by
    rw [dateText, if_pos (by simpa [Json.truthy] using hne)]
    show (if date.toList.length = 8 then _ else _) = _
    rw [if_pos hdate.1, if_pos hdate.2]
  rw [selectionOf, hlatest]
  show (do let date ← dateText (.str date); _) = _
  rw [htext]
  rfl

/-- A date that is taken from a decoded `_latest_date.json` is named there. -/
theorem dated_of_selectionOf {entries : Dict} {selection : Selection} {date : String}
    (h : selectionOf pre (.obj entries) = .ok selection)
    (hdate : selection.latestDate = some date) : Dated entries date := by
  rw [selectionOf] at h
  obtain ⟨value, hlatest, h⟩ := bind_eq_ok.mp h
  obtain ⟨date', htext, h⟩ := bind_eq_ok.mp h
  obtain rfl := Except.ok.inj h
  obtain rfl : date' = some date := hdate
  obtain ⟨rfl, -, -⟩ := dateText_str htext
  refine ⟨isDate_of_dateText htext, ?_⟩
  rw [latestDate] at hlatest
  split at hlatest
  · exact .inl (Except.ok.inj hlatest)
  · next hfalsy =>
    rw [loadDate] at hlatest
    split at hlatest
    · obtain rfl := Json.str.inj (Except.ok.inj hlatest)
      exact absurd (isDate_of_dateText htext).1 (by decide)
    · next s hload =>
      exact .inr ⟨hfalsy, s, hload, (Json.str.inj (Except.ok.inj hlatest)).symm⟩
    · cases hlatest

/-- An object that is decoded has a date, unless it has none that is taken. -/
theorem selectionOf_undated {entries : Dict} {selection : Selection}
    (h : selectionOf pre (.obj entries) = .ok selection) (hundated : ∀ date, ¬ Dated entries date) :
    selection.latestDate = none := by
  cases hdate : selection.latestDate with
  | none => rfl
  | some date => exact absurd (dated_of_selectionOf h hdate) (hundated date)

theorem eval_dateFile (rt : Runtime) (answer : (c : Call) → Except PyError c.Result)
    (pre : String) : (getJson rt (directory pre "_latest_date.json")).eval answer =
      dateFile rt answer pre := by
  rw [getJson, eval_bind, eval_request]
  simp only [eval_ofExcept]
  rfl

/-- Without a decoded `_latest_date.json` the listing is searched. -/
theorem eval_selectDated_unreadable (hlists : Lists answer pre names) {e : PyError}
    (he : e ∈ readErrors) (hfile : dateFile rt answer pre = .error e) :
    (selectDated rt pre).eval answer = .ok (some
      { latestDate := newestDateDir pre names
        useLatest := false
        queryPath := (newestDateDir pre names).map fun date => directory pre date ++ "/" }) := by
  have hread := (eval_dateFile rt answer pre).trans hfile
  rw [selectDated, eval_tryExcept_caught (eval_bind_error _ hread _) he, selectListed]
  apply eval_tryExcept_ok
  rw [eval_bind_ok _ ((eval_request _).trans hlists.names_eq)]
  rfl

/-- A decoded `_latest_date.json` decides by itself. -/
theorem eval_selectDated_decoded {json : Json} (hfile : dateFile rt answer pre = .ok json) :
    (∃ selection, selectionOf pre json = .ok selection ∧
      (selectDated rt pre).eval answer = .ok (some selection)) ∨
    ¬ DateShaped json ∧ ∃ e, (selectDated rt pre).eval answer = .error e := by
  have hread := (eval_dateFile rt answer pre).trans hfile
  rcases selectionOf_cases pre json with ⟨-, selection, hselection⟩ | ⟨hshaped, e, he, herror⟩
  · refine .inl ⟨selection, hselection, ?_⟩
    rw [selectDated]
    apply eval_tryExcept_ok
    rw [eval_bind_ok _ hread, eval_bind, eval_ofExcept, hselection]
    rfl
  · -- an exception of a wrong type is not one that the listing is for
    refine .inr ⟨hshaped, e, ?_⟩
    have hselect : (do
        let latestDateMeta ← getJson rt (directory pre "_latest_date.json")
        pure (some (← Program.ofExcept (selectionOf pre latestDateMeta))) :
          Retrieval (Option Selection)).eval answer = .error e := by
      rw [eval_bind_ok _ hread, eval_bind_error _ ((eval_ofExcept _ _).trans herror)]
    have hother : e ∉ readErrors := by
      simp only [shapeErrors, List.mem_cons, List.not_mem_nil, or_false] at he
      rcases he with rfl | rfl
      · decide
      · decide
    rw [selectDated, tryExcept, eval_catchWith_error _ hselect, if_neg hother]
    rfl

/-- A date that is found is looked in. -/
theorem eval_selectDirectory_dated {selection : Selection} {date : String}
    (h : (selectDated rt pre).eval answer = .ok (some selection))
    (hdate : selection.latestDate = some date) (hne : date ≠ "") :
    (selectDirectory rt pre cusno).eval answer = .ok (some selection) := by
  have hsome : nonEmpty selection.latestDate = some date := by
    rw [hdate]
    simpa [nonEmpty] using hne
  rw [selectDirectory, eval_bind_ok _ h]
  simp only [hsome]
  rfl

/-- Without a date `latest/` is looked in, if it has the index. -/
theorem eval_selectDirectory_undated (cusno : String) (hlists : Lists answer pre names)
    {selection : Selection}
    (h : (selectDated rt pre).eval answer = .ok (some selection))
    (hdate : selection.latestDate = none) :
    (answer (.statObject (indexShardKey (directory pre "latest") cusno)) = .ok () ∧
      (selectDirectory rt pre cusno).eval answer = .ok (some (latestSelection pre))) ∨
    (∃ e, answer (.statObject (indexShardKey (directory pre "latest") cusno)) = .error e) ∧
      (selectDirectory rt pre cusno).eval answer = .ok none := by
  have hnone : nonEmpty selection.latestDate = none := by
    rw [hdate]
    rfl
  have hselect : (selectDirectory rt pre cusno).eval answer =
      (selectLatest pre cusno).eval answer := by
    rw [selectDirectory, eval_bind_ok _ h]
    simp only [hnone]
  rw [hselect, selectLatest]
  -- the index of the shard decides whether `latest/` counts
  cases hstat : answer (.statObject (indexShardKey (directory pre "latest") cusno)) with
  | ok present =>
    exact .inl ⟨rfl, eval_tryExcept_ok (eval_bind_ok _ ((eval_request _).trans hstat) _) _ _⟩
  | error e =>
    exact .inr ⟨⟨e, rfl⟩, eval_tryExcept_caught
      (eval_bind_error _ ((eval_request _).trans hstat) _) (hlists.statObject_error _ e hstat) _⟩

/-- `latest/` is not the directory of a date. -/
theorem directory_latest_ne {date : String} (h : IsDate date) :
    directory pre "latest" ≠ directory pre date := by
  intro heq
  have hlength := congrArg (fun s : String => s.toList.length) heq
  simp [directory, h.1] at hlength

/-- The selection without a date is the one that is expected, unless a date is listed. -/
theorem findsNewest_undated (hlists : Lists answer pre names) {selection : Selection}
    (h : (selectDated rt pre).eval answer = .ok (some selection))
    (hdate : selection.latestDate = none) (hundated : Undated rt answer pre) :
    FindsNewest rt answer names pre cusno ↔ ∀ date, ¬ ListedDate names pre date := by
  have hcases := eval_selectDirectory_undated cusno hlists h hdate
  constructor
  · rintro ⟨selection', dir, heval, hnewest, hnames⟩
    -- a date that is listed is not looked for, so nothing can name its directory
    cases hnewest with
    | named hfile hdated => exact absurd hdated (hundated _ _ hfile)
    | listed _ hgreatest =>
      cases hnames with
      | some hnames =>
        rcases hcases with ⟨-, hlatest⟩ | ⟨-, hnone⟩
        · obtain rfl := Option.some.inj (Except.ok.inj (hlatest.symm.trans heval))
          exact absurd hnames.1.symm (directory_latest_ne hgreatest.1.1)
        · cases hnone.symm.trans heval
    | latest _ hunlisted => exact hunlisted
    | nowhere _ hunlisted => exact hunlisted
  · intro hunlisted
    rcases hcases with ⟨hpresent, hlatest⟩ | ⟨habsent, hnone⟩
    · exact ⟨_, _, hlatest, .latest hundated hunlisted hpresent,
        .some (Selection.names_latest pre (some "latest"))⟩
    · exact ⟨_, _, hnone, .nowhere hundated hunlisted habsent, .none⟩

end Steps

/-! ### The selection -/

/-- `_latest_date.json` cannot be read or decoded, or it is an object whose date can be taken, and
which has one unless no date is listed. -/
def DateUsable (rt : Runtime) (answer : (c : Call) → Except PyError c.Result)
    (names : List String) (pre : String) : Prop :=
  ∀ json, dateFile rt answer pre = .ok json → DateShaped json ∧ ∀ entries, json = .obj entries →
    (∃ date, Dated entries date) ∨ ∀ date, ¬ ListedDate names pre date

section Selecting

variable {rt : Runtime} {answer : (c : Call) → Except PyError c.Result} {names : List String}
  {pre cusno : String}

/-- A date that is named is looked in. -/
theorem findsNewest_dated {entries : Dict} {date : String}
    (hfile : dateFile rt answer pre = .ok (.obj entries)) (hdated : Dated entries date)
    {selection : Selection} (hselection : selectionOf pre (.obj entries) = .ok selection)
    (h : (selectDated rt pre).eval answer = .ok (some selection)) :
    FindsNewest rt answer names pre cusno := by
  obtain rfl := Except.ok.inj ((selectionOf_dated hdated).symm.trans hselection)
  have hne : date ≠ "" := by
    rintro rfl
    exact absurd hdated.1.1 (by decide)
  refine ⟨_, _, eval_selectDirectory_dated h rfl hne, .named hfile hdated, .some ?_⟩
  cases huse : (Dict.get entries "use_latest").truthy with
  | true => exact Selection.names_latest pre (some date)
  | false => exact Selection.names_date pre hdated.1

/-- Only the content of an object selects a directory. -/
theorem shaped_of_selectionOf {json : Json} {selection : Selection}
    (h : selectionOf pre json = .ok selection) :
    DateShaped json ∧ ∃ entries, json = .obj entries := by
  constructor
  · rcases selectionOf_cases pre json with ⟨hshaped, -⟩ | ⟨-, e, -, herror⟩
    · exact hshaped
    · cases h.symm.trans herror
  · cases json with
    | obj entries => exact ⟨entries, rfl⟩
    | _ => cases h

variable (hjson : ∀ data e, rt.jsonLoads data = .error e → e = .valueError)
  (hlists : Lists answer pre names)

include hjson hlists

/-- What reading `_latest_date.json` raises is what the listing is for. -/
theorem dateFile_error {e : PyError} (h : dateFile rt answer pre = .error e) : e ∈ readErrors := by
  rw [dateFile] at h
  cases hread : answer (.getObject (directory pre "_latest_date.json")) with
  | error e' =>
    rw [hread] at h
    obtain rfl := Except.error.inj h
    exact List.mem_append_left [PyError.valueError] (hlists.getObject_error _ _ hread)
  | ok data =>
    rw [hread] at h
    rw [hjson data e h]
    decide

/-- The selection is of the directory to look in if and only if `_latest_date.json` cannot be read,
or has a date, or can be searched for one in vain while there is none in the listing either. -/
theorem findsNewest_iff :
    FindsNewest rt answer names pre cusno ↔ DateUsable rt answer names pre := by
  cases hfile : dateFile rt answer pre with
  | error e =>
    have hundated : Undated rt answer pre := fun entries date hok => by
      cases hfile.symm.trans hok
    have hdated := eval_selectDated_unreadable hlists (dateFile_error hjson hlists hfile) hfile
    refine iff_of_true ?_ fun json hok => by cases hfile.symm.trans hok
    -- the file cannot be read, and the listing is searched
    cases hnewest : newestDateDir pre names with
    | none =>
      refine (findsNewest_undated hlists hdated hnewest hundated).mpr ?_
      exact newestDateDir_none hnewest
    | some date =>
      have hisDate := isDate_of_newestDateDir hnewest
      have hne : date ≠ "" := by
        rintro rfl
        exact absurd hisDate.1 (by decide)
      rw [hnewest] at hdated
      exact ⟨_, _, eval_selectDirectory_dated hdated rfl hne,
        .listed hundated (newestDateDir_greatest hnewest),
        .some (Selection.names_date pre hisDate)⟩
  | ok json =>
    have husable : DateUsable rt answer names pre ↔ DateShaped json ∧
        ∀ entries, json = .obj entries →
          (∃ date, Dated entries date) ∨ ∀ date, ¬ ListedDate names pre date := by
      constructor
      · exact fun h => h json hfile
      · intro h json' hfile'
        exact Except.ok.inj (hfile.symm.trans hfile') ▸ h
    rw [husable]
    rcases eval_selectDated_decoded hfile with ⟨selection, hselection, hdated⟩ | ⟨hshaped, e, he⟩
    · obtain ⟨hshaped, entries, rfl⟩ := shaped_of_selectionOf hselection
      by_cases hnamed : ∃ date, Dated entries date
      · obtain ⟨date, hdate⟩ := hnamed
        refine iff_of_true (findsNewest_dated hfile hdate hselection hdated) ⟨hshaped, ?_⟩
        rintro _ ⟨⟩
        exact .inl ⟨date, hdate⟩
      · -- the listing is not searched: `latest/` is looked in, or nothing
        have hnone (date : String) : ¬ Dated entries date := fun h => hnamed ⟨date, h⟩
        have hundated : Undated rt answer pre := fun entries' date hfile' hdate => by
          obtain rfl := Json.obj.inj (Except.ok.inj (hfile.symm.trans hfile'))
          exact hnone date hdate
        rw [findsNewest_undated hlists hdated (selectionOf_undated hselection hnone) hundated]
        constructor
        · intro hunlisted
          refine ⟨hshaped, ?_⟩
          rintro _ ⟨⟩
          exact .inr hunlisted
        · intro h
          exact (h.2 entries rfl).resolve_left hnamed
    · refine iff_of_false ?_ fun h => hshaped h.1
      rintro ⟨selection, dir, heval, -, -⟩
      have herror : (selectDirectory rt pre cusno).eval answer = .error e :=
        eval_bind_error _ he _
      cases herror.symm.trans heval

end Selecting

/-! ### A date with hyphens -/

namespace NewestPartition

/-- A `_latest_date.json`. -/
def dateJson : String := "\x7b\"latest_date\":\"2026-02-25\"\x7d"

/-- A decoder of it, without a key store. -/
def runtime : Runtime :=
  { jsonLoads := fun data =>
      if data = encodeUtf8 dateJson then .ok (.obj [("latest_date", .str "2026-02-25")])
      else .error .valueError
    hasCryptography := true
    symmKey := .error .runtimeError
    aesGcmDecrypt := fun _ _ _ => .error .invalidTag }

/-- The bucket: the records of one date, and a `_latest_date.json` in which the date has hyphens. -/
def hyphenated : Bucket :=
  [(directory prefixDaily "_latest_date.json", encodeUtf8 dateJson),
    (directory (directory prefixDaily "20260225") "bulk.jsonl", [])]

/-- No range is sent. -/
def sendRange (_ : Bytes) (_ _ : Json) : Except PyError Bytes := .error .s3Error

theorem jsonLoads_error (data : Bytes) (e : PyError) (h : runtime.jsonLoads data = .error e) :
    e = .valueError := by
  simp only [runtime] at h
  split_ifs at h
  exact (Except.error.inj h).symm

theorem dateFile_hyphenated : dateFile runtime (hyphenated.answer sendRange) prefixDaily =
    .ok (.obj [("latest_date", .str "2026-02-25")]) := by
  have hget : hyphenated.get (directory prefixDaily "_latest_date.json") =
      some (encodeUtf8 dateJson) := List.lookup_cons_self ..
  rw [← eval_dateFile, eval_getJson hget]
  simp [runtime]

theorem listedDate_hyphenated :
    ListedDate (hyphenated.listing (directory prefixDaily "")) prefixDaily "20260225" := by
  refine listedDate_iff.mpr ?_
  decide

/-- The only date that is listed is not looked in. -/
theorem not_findsNewest :
    (∀ data e, runtime.jsonLoads data = .error e → e = .valueError) ∧
    Lists (hyphenated.answer sendRange) prefixDaily
      (hyphenated.listing (directory prefixDaily "")) ∧
    ¬ FindsNewest runtime (hyphenated.answer sendRange)
      (hyphenated.listing (directory prefixDaily "")) prefixDaily "1" := by
  refine ⟨jsonLoads_error, Bucket.lists sendRange hyphenated prefixDaily, ?_⟩
  -- with hyphens the text has ten characters
  have hundated (date : String) :
      ¬ Dated [("latest_date", .str "2026-02-25")] date := by
    rintro ⟨hdate, hname | ⟨hfalsy, -⟩⟩
    · obtain rfl := Json.str.inj hname
      exact absurd hdate.1 (by decide)
    · exact hfalsy (by decide)
  obtain ⟨selection, hselection, hdated⟩ | ⟨hshaped, -⟩ :=
    eval_selectDated_decoded dateFile_hyphenated
  · have hnone := selectionOf_undated hselection hundated
    rw [findsNewest_undated (Bucket.lists sendRange hyphenated prefixDaily) hdated hnone]
    · exact fun hunlisted => hunlisted _ listedDate_hyphenated
    · intro entries date hfile
      obtain rfl := Json.obj.inj (Except.ok.inj (dateFile_hyphenated.symm.trans hfile))
      exact hundated date
  · exact absurd trivial hshaped

/-- The same bucket without `_latest_date.json`. -/
def unnamed : Bucket := [(directory (directory prefixDaily "20260225") "bulk.jsonl", [])]

/-- The date that is listed is looked in. -/
theorem findsNewest_unnamed :
    (∀ data e, runtime.jsonLoads data = .error e → e = .valueError) ∧
    Lists (unnamed.answer sendRange) prefixDaily (unnamed.listing (directory prefixDaily "")) ∧
    FindsNewest runtime (unnamed.answer sendRange) (unnamed.listing (directory prefixDaily ""))
      prefixDaily "1" := by
  have hlists := Bucket.lists sendRange unnamed prefixDaily
  refine ⟨jsonLoads_error, hlists, (findsNewest_iff jsonLoads_error hlists).mpr ?_⟩
  intro json hfile
  cases hfile

end NewestPartition

end BatchProfile

end SessionManager
