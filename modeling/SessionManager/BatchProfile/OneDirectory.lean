import SessionManager.BatchProfile.ExactLookups

/-!
# A profile comes from one directory

Whatever a bucket holds and whichever calls fail, a profile that is returned is the customer's own,
and the document, its metadata and the file that is scanned are of one directory.

* `SelectedFrom`, `ReadFrom`, `Describes` — the directories that are looked in, the documents that
  are read from one, and the metadata of one.
* `OfCustomer` — a document with the customer number that is asked for.
* `ends_fetchDocument`, `ends_readMeta`, `ends_confirm` — what the steps of the retrieval return.
* `retrieveCusno_oneDirectory` — what the retrieval returns.
-/

namespace SessionManager

open Python Interaction

open Program hiding pure

namespace BatchProfile

variable {rt : Runtime} {range : Bytes → Json → Json → Except PyError Bytes} {b : Bucket}
  {A : (c : minio.Command) → minio.Reply c → Prop}

/-! ### Where a document comes from -/

/-- What `f` makes of the JSON of an object, by a reply to the call for it. -/
def Decoded {α : Type} (rt : Runtime) (A : (c : minio.Command) → minio.Reply c → Prop)
    (key : String) (f : Json → Except PyError α) (x : Except PyError α) : Prop :=
  ∃ reply : Except PyError Bytes, A (.getObject key) reply ∧ (reply >>= rt.jsonLoads >>= f) = x

/-- The object cannot be read, or not be decoded. -/
def Unreadable {α : Type} (rt : Runtime) (A : (c : minio.Command) → minio.Reply c → Prop)
    (key : String) (f : Json → Except PyError α) : Prop :=
  ∃ e ∈ readErrors, Decoded rt A key f (.error e)

/-- The directories that are looked in: `latest/`, and the one of the date that `_latest_date.json`
gives, or else a listing. -/
def SelectedFrom (rt : Runtime) (b : Bucket) (A : (c : minio.Command) → minio.Reply c → Prop)
    (objectPrefix dir : String) : Prop :=
  dir = directory objectPrefix "latest" ∨ ∃ date, dir = directory objectPrefix date ∧
    ((∃ selection, Decoded rt A (directory objectPrefix "_latest_date.json")
        (selectionOf objectPrefix) (.ok selection) ∧ selection.latestDate = some date) ∨
      Unreadable rt A (directory objectPrefix "_latest_date.json") (selectionOf objectPrefix) ∧
        newestDateDir objectPrefix (b.listing (directory objectPrefix "")) = some date)

/-- A document that an index of the directory points to. -/
def Indexed (rt : Runtime) (range : Bytes → Json → Json → Except PyError Bytes) (b : Bucket)
    (dir cusno : String) (doc : Json) : Prop :=
  ∃ indexKey data index entry startOff length bulk line,
    (indexKey = indexShardKey dir cusno ∨ indexKey = directory dir "index.json") ∧
    b.get indexKey = some data ∧ rt.jsonLoads data = .ok index ∧
    index.item cusno = .ok entry ∧ entry.unpack2 = .ok (startOff, length) ∧
    b.get (directory dir "bulk.jsonl") = some bulk ∧
    (range bulk startOff length = .ok line ∨ Json.slice bulk startOff length = .ok line) ∧
    rt.jsonLoads line = .ok doc

/-- A document that is read from the directory: by an index, as the file of the customer, or as a
line of the file of all records. -/
def ReadFrom (rt : Runtime) (range : Bytes → Json → Json → Except PyError Bytes) (b : Bucket)
    (dir cusno : String) (doc : Json) : Prop :=
  Indexed rt range b dir cusno doc ∨
  (∃ data, b.get (directory dir (cusno ++ ".json")) = some data ∧ rt.jsonLoads data = .ok doc) ∨
  ∃ data text line, b.get (directory dir "bulk.jsonl") = some data ∧ decodeUtf8 data = .ok text ∧
    line ∈ splitlines text ∧ rt.jsonLoads (encodeUtf8 (strip line)) = .ok doc

/-- The metadata of the directory: what `_meta.json` holds, or none when it cannot be read. -/
def Describes (rt : Runtime) (A : (c : minio.Command) → minio.Reply c → Prop) (dir : String)
    (metadata : Meta) : Prop :=
  Decoded rt A (directory dir "_meta.json") metaOf (.ok metadata) ∨
    Unreadable rt A (directory dir "_meta.json") metaOf ∧ metadata = Meta.empty

/-- The document has the customer number `cusno`, which is decrypted when its column is. -/
def OfCustomer (rt : Runtime) (encryptedColumns : Json) (cusno : String) (doc : Json) : Prop :=
  ∃ raw value encrypted, doc.get "CUSNO" = .ok raw ∧ raw ≠ .null ∧
    encryptedColumns.contains "CUSNO" = .ok encrypted ∧
    (if encrypted then decryptFieldValue rt (.str raw.pyStr) = .ok value else value = raw) ∧
    value.pyStr = cusno

/-! ### Calls -/

section Calls

variable {α : Type}

theorem ends_request {c : Call} {x : Except PyError c.Result} :
    (request c).Ends A x ↔ A c x := by
  constructor
  · rintro ⟨reply, hreply, hx⟩
    rwa [ends_ofExcept.mp hx]
  · intro hx
    exact ⟨x, hx, ends_ofExcept.mpr rfl⟩

/-- What a `try` returns is returned by its body or by its handler. -/
theorem ends_tryExcept {p handler : Retrieval α} {caught : List PyError} {a : α}
    (h : (tryExcept p caught handler).Ends A (.ok a)) :
    p.Ends A (.ok a) ∨ (∃ e ∈ caught, p.Ends A (.error e)) ∧ handler.Ends A (.ok a) := by
  rcases ends_catchWith.mp h with ⟨a', hbody, ha⟩ | ⟨e, hbody, hhandler⟩
  · rw [← ha] at hbody
    exact .inl hbody
  · by_cases he : e ∈ caught
    · rw [if_pos he] at hhandler
      exact .inr ⟨⟨e, he, hbody⟩, hhandler⟩
    · rw [if_neg he] at hhandler
      cases hhandler

theorem ends_ofExcept_ok {x : Except PyError α} {a : α}
    (h : (Program.ofExcept x : Retrieval α).Ends A (.ok a)) : x = .ok a := (ends_ofExcept.mp h).symm

theorem ends_getJson_iff {key : String} {x : Except PyError Json} :
    (getJson rt key).Ends A x ↔
      ∃ reply : Except PyError Bytes, A (.getObject key) reply ∧ x = reply >>= rt.jsonLoads := by
  rw [getJson, ends_bind]
  constructor
  · rintro (⟨data, hdata, hx⟩ | ⟨e, he, rfl⟩)
    · exact ⟨.ok data, ends_request.mp hdata, ends_ofExcept.mp hx⟩
    · exact ⟨.error e, ends_request.mp he, rfl⟩
  · rintro ⟨reply, hreply, rfl⟩
    cases reply with
    | ok data => exact .inl ⟨data, ends_request.mpr hreply, ends_ofExcept.mpr rfl⟩
    | error e => exact .inr ⟨e, ends_request.mpr hreply, rfl⟩

/-- What is made of an object that is decoded. -/
theorem ends_decoded {key : String} {f : Json → Except PyError α} {x : Except PyError α}
    (h : (do Program.ofExcept (f (← getJson rt key)) : Retrieval α).Ends A x) :
    Decoded rt A key f x := by
  rcases ends_bind.mp h with ⟨json, hjson, hx⟩ | ⟨e, he, hx⟩
  · obtain ⟨reply, hreply, hloads⟩ := ends_getJson_iff.mp hjson
    refine ⟨reply, hreply, ?_⟩
    rw [← hloads]
    exact (ends_ofExcept.mp hx).symm
  · obtain ⟨reply, hreply, hloads⟩ := ends_getJson_iff.mp he
    refine ⟨reply, hreply, ?_⟩
    rw [← hloads]
    exact hx.symm

variable (hA : ∀ c reply, A c reply → b.MayAnswer range c reply)

include hA

/-- An object that is read is the one of the bucket. -/
theorem ends_getObject {key : String} {data : Bytes}
    (h : (request (.getObject key)).Ends A (.ok data)) : b.get key = some data := by
  rcases hA _ _ (ends_request.mp h) with hreply | hreply | hreply
  · have hcontent : b.content key = .ok data := hreply.symm
    rw [Bucket.content] at hcontent
    split at hcontent
    · next data' hget => rw [hget, Except.ok.inj hcontent]
    · cases hcontent
  · cases hreply
  · cases hreply

theorem ends_getJson {key : String} {value : Json} (h : (getJson rt key).Ends A (.ok value)) :
    ∃ data, b.get key = some data ∧ rt.jsonLoads data = .ok value := by
  obtain ⟨data, hdata, hloads⟩ := ends_bind_ok.mp h
  exact ⟨data, ends_getObject hA hdata, ends_ofExcept_ok hloads⟩

/-- A range that is read is one of the object. -/
theorem ends_getRange {key : String} {offset length : Json} {line : Bytes}
    (h : (request (.getRange key offset length)).Ends A (.ok line)) :
    ∃ data, b.get key = some data ∧ range data offset length = .ok line := by
  rcases hA _ _ (ends_request.mp h) with hreply | hreply | hreply
  · have hcontent : (b.content key >>= fun data => range data offset length) = .ok line :=
      hreply.symm
    rw [Bucket.content] at hcontent
    split at hcontent
    · next data hget => exact ⟨data, hget, hcontent⟩
    · cases hcontent
  · cases hreply
  · cases hreply

/-- The names that are listed are those of the bucket. -/
theorem ends_listObjects {path : String} {names : List String}
    (h : (request (.listObjects path)).Ends A (.ok names)) : names = b.listing path := by
  rcases hA _ _ (ends_request.mp h) with hreply | hreply | hreply
  · exact Except.ok.inj hreply
  · cases hreply
  · cases hreply

end Calls

/-! ### Candidates -/

section Candidates

variable (hA : ∀ c reply, A c reply → b.MayAnswer range c reply) {dir cusno : String} {doc : Json}

include hA

/-- A record that is fetched is in the range that is named, or in the slice of the file. -/
theorem ends_fetchRange {bulkKey : String} {startOff length : Json}
    (h : (fetchRange rt bulkKey startOff length).Ends A (.ok doc)) :
    ∃ bulk line, b.get bulkKey = some bulk ∧
      (range bulk startOff length = .ok line ∨ Json.slice bulk startOff length = .ok line) ∧
      rt.jsonLoads line = .ok doc := by
  rcases ends_tryExcept h with hrange | ⟨-, hslice⟩
  · obtain ⟨line, hline, hloads⟩ := ends_bind_ok.mp hrange
    obtain ⟨bulk, hbulk, hsent⟩ := ends_getRange hA hline
    exact ⟨bulk, line, hbulk, .inl hsent, ends_ofExcept_ok hloads⟩
  · obtain ⟨bulk, hbulk, hrest⟩ := ends_bind_ok.mp hslice
    obtain ⟨line, hline, hloads⟩ := ends_bind_ok.mp hrest
    exact ⟨bulk, line, ends_getObject hA hbulk, .inr (ends_ofExcept_ok hline),
      ends_ofExcept_ok hloads⟩

/-- What is fetched by an index is what the index points to. -/
theorem ends_fetchViaIndex {indexKey : String}
    (hkey : indexKey = indexShardKey dir cusno ∨ indexKey = directory dir "index.json")
    (h : (fetchViaIndex rt cusno indexKey (directory dir "bulk.jsonl")).Ends A (.ok doc)) :
    doc = .null ∨ Indexed rt range b dir cusno doc := by
  -- a failure that is handled gives null
  rcases ends_tryExcept h with hbody | ⟨-, hnull⟩
  · obtain ⟨index, hindex, hbody⟩ := ends_bind_ok.mp hbody
    obtain ⟨listed, -, hbody⟩ := ends_bind_ok.mp hbody
    cases listed with
    | false => exact .inl (Except.ok.inj hbody)
    | true =>
      obtain ⟨entry, hentry, hbody⟩ := ends_bind_ok.mp hbody
      obtain ⟨⟨startOff, length⟩, hunpack, hfetch⟩ := ends_bind_ok.mp hbody
      obtain ⟨data, hdata, hloads⟩ := ends_getJson hA hindex
      obtain ⟨bulk, line, hbulk, hline, hdoc⟩ := ends_fetchRange hA hfetch
      exact .inr ⟨indexKey, data, index, entry, startOff, length, bulk, line, hkey, hdata, hloads,
        ends_ofExcept_ok hentry, ends_ofExcept_ok hunpack, hbulk, hline, hdoc⟩
  · exact .inl (Except.ok.inj hnull)

/-- The candidate of a directory is read from it. -/
theorem ends_fetchDocument (h : (fetchDocument rt dir cusno).Ends A (.ok doc)) :
    doc = .null ∨ ReadFrom rt range b dir cusno doc := by
  obtain ⟨indexed, hindexed, hrest⟩ := ends_bind_ok.mp h
  -- the shard of the customer first, and the single index if it has no entry
  have hfrom : indexed = .null ∨ Indexed rt range b dir cusno indexed := by
    rcases ends_tryExcept hindexed with hbody | ⟨-, hnull⟩
    · obtain ⟨first, hfirst, hbody⟩ := ends_bind_ok.mp hbody
      by_cases hnone : first.isNone
      · rw [if_pos hnone] at hbody
        exact ends_fetchViaIndex hA (.inr rfl) hbody
      · rw [if_neg hnone] at hbody
        obtain rfl := Except.ok.inj hbody
        exact ends_fetchViaIndex hA (.inl rfl) hfirst
    · exact .inl (Except.ok.inj hnull)
  by_cases hnone : indexed.isNone
  · -- no index has the customer: the file of the customer alone
    rw [if_pos hnone] at hrest
    rcases ends_tryExcept hrest with hsingle | ⟨-, hnull⟩
    · exact .inr (.inr (.inl (ends_getJson hA hsingle)))
    · exact .inl (Except.ok.inj hnull)
  · rw [if_neg hnone] at hrest
    obtain rfl := Except.ok.inj hrest
    exact hfrom.imp_right .inl

/-- The candidate is of the directory, or of the one to fall back to. -/
theorem ends_fetchAnywhere {fallback : Option String} {usedFallback : Bool}
    (h : (fetchAnywhere rt dir fallback cusno).Ends A (.ok (doc, usedFallback))) :
    doc = .null ∨ (usedFallback = false ∧ ReadFrom rt range b dir cusno doc) ∨
      ∃ latest, fallback = some latest ∧ usedFallback = true ∧
        ReadFrom rt range b latest cusno doc := by
  obtain ⟨first, hfirst, hrest⟩ := ends_bind_ok.mp h
  by_cases hnone : first.isNone
  · rw [if_pos hnone] at hrest
    -- the selected directory has no document: the fallback is read, if there is one
    cases fallback with
    | none =>
      obtain ⟨rfl, rfl⟩ := Prod.mk.inj (Except.ok.inj hrest)
      cases doc with
      | null => exact .inl rfl
      | _ => cases hnone
    | some latest =>
      obtain ⟨second, hsecond, hrest⟩ := ends_bind_ok.mp hrest
      obtain ⟨rfl, rfl⟩ := Prod.mk.inj (Except.ok.inj hrest)
      rcases ends_fetchDocument hA hsecond with hnull | hread
      · exact .inl hnull
      · cases doc with
        | null => exact .inl rfl
        | _ => exact .inr (.inr ⟨latest, rfl, rfl, hread⟩)
  · rw [if_neg hnone] at hrest
    obtain ⟨rfl, rfl⟩ := Prod.mk.inj (Except.ok.inj hrest)
    exact (ends_fetchDocument hA hfirst).imp_right fun hread => .inl ⟨rfl, hread⟩

end Candidates

/-! ### The directory -/

section Directories

variable {objectPrefix cusno : String} {selection : Selection}

/-- A date is eight digits. -/
def IsDate (date : String) : Prop := date.toList.length = 8 ∧ isdigit date

/-- Only a text of eight digits is a date. -/
theorem dateText_str {value : Json} {date : String} (h : dateText value = .ok (some date)) :
    value = .str date ∧ value.len = .ok 8 ∧ isdigit date := by
  -- `isdigit` is a method of texts only, and `len` fails on what has no length
  have hlist (truthy : Bool) (n : ℕ) :
      (if truthy then (if n = 8 then Except.error PyError.attributeError else .ok none)
        else .ok none) ≠ .ok (some date) := by
    split_ifs <;> exact nofun
  have hscalar (truthy : Bool) :
      (if truthy then Except.error PyError.typeError else .ok none) ≠ .ok (some date) := by
    split_ifs <;> exact nofun
  cases value with
  | str s =>
    have hstr : (if (Json.str s).truthy then
        (if s.toList.length = 8 then .ok (if isdigit s then some s else none) else .ok none)
          else .ok none : Except PyError (Option String)) = .ok (some date) := h
    split_ifs at hstr with htruthy hlength hdigits
    · obtain rfl := Option.some.inj (Except.ok.inj hstr)
      exact ⟨rfl, congrArg Except.ok hlength, hdigits⟩
    all_goals cases hstr
  | arr items => exact absurd h (hlist _ items.length)
  | obj entries => exact absurd h (hlist _ entries.length)
  | null => exact absurd h (hscalar _)
  | bool b => exact absurd h (hscalar _)
  | int n => exact absurd h (hscalar _)
  | float repr => exact absurd h (hscalar _)

theorem isDate_of_dateText {value : Json} {date : String} (h : dateText value = .ok (some date)) :
    IsDate date := by
  obtain ⟨rfl, hlength, hdigits⟩ := dateText_str h
  exact ⟨Except.ok.inj hlength, hdigits⟩

theorem isDate_of_newestDateDir {names : List String} {date : String}
    (h : newestDateDir objectPrefix names = some date) : IsDate date := by
  have hmem := List.mem_mergeSort.mp (List.mem_of_head? h)
  obtain ⟨name, -, hdir⟩ := List.mem_filterMap.mp hmem
  rw [dateDir?] at hdir
  split at hdir
  · dsimp only at hdir
    split at hdir
    · next hdate =>
      obtain rfl := Option.some.inj hdir
      exact hdate.2
    · cases hdir
  · cases hdir

/-- The selection is of one directory: the records are in it, and the path is its own. -/
def Selection.Names (selection : Selection) (objectPrefix dir : String) : Prop :=
  dir = (if selection.useLatest then directory objectPrefix "latest"
    else directory objectPrefix (selection.latestDate.getD "None")) ∧
  selection.queryPath = some (dir ++ "/") ∧ dir.toList.getLast? ≠ some '/'

theorem Selection.names_latest (objectPrefix : String) (latestDate : Option String) :
    Selection.Names ⟨latestDate, true, some (directory objectPrefix "latest" ++ "/")⟩ objectPrefix
      (directory objectPrefix "latest") :=
  ⟨rfl, rfl, getLast_directory_latest objectPrefix⟩

theorem Selection.names_date (objectPrefix : String) {date : String} (h : IsDate date) :
    Selection.Names ⟨some date, false, some (directory objectPrefix date ++ "/")⟩ objectPrefix
      (directory objectPrefix date) :=
  ⟨rfl, rfl, getLast_directory_date h.1 h.2⟩

/-- A selection by `_latest_date.json` is of the directory of its date, or of `latest/`. -/
theorem names_of_selectionOf {json : Json} {date : String}
    (hselection : selectionOf objectPrefix json = .ok selection)
    (hdate : selection.latestDate = some date) :
    selection.Names objectPrefix (directory objectPrefix "latest") ∨
      selection.Names objectPrefix (directory objectPrefix date) := by
  cases json with
  | obj entries =>
    rw [selectionOf] at hselection
    obtain ⟨value, -, hselection⟩ := bind_eq_ok.mp hselection
    obtain ⟨date', htext, hselection⟩ := bind_eq_ok.mp hselection
    obtain rfl := Except.ok.inj hselection
    obtain rfl : date' = some date := hdate
    -- `use_latest` selects `latest/` whatever the date is
    cases huse : (Dict.get entries "use_latest").truthy with
    | true => exact .inl (Selection.names_latest objectPrefix (some date))
    | false => exact .inr (Selection.names_date objectPrefix (isDate_of_dateText htext))
  | _ => cases hselection

/-- A selection is by `_latest_date.json`, or from a listing when that cannot be read. -/
theorem ends_selectDated (h : (selectDated rt objectPrefix).Ends A (.ok (some selection))) :
    Decoded rt A (directory objectPrefix "_latest_date.json") (selectionOf objectPrefix)
        (.ok selection) ∨
      Unreadable rt A (directory objectPrefix "_latest_date.json") (selectionOf objectPrefix) ∧
        (selectListed objectPrefix).Ends A (.ok (some selection)) := by
  -- the body, with the selection as one part of it
  have hbody {x : Except PyError (Option Selection)} (hx : (do
      let latestDateMeta ← getJson rt (directory objectPrefix "_latest_date.json")
      pure (some (← Program.ofExcept (selectionOf objectPrefix latestDateMeta))) :
        Retrieval (Option Selection)).Ends A x) :
      ∃ y, Decoded rt A (directory objectPrefix "_latest_date.json") (selectionOf objectPrefix) y ∧
        x = y.map some := by
    rw [← bind_assoc] at hx
    rcases ends_bind.mp hx with ⟨found, hfound, rfl⟩ | ⟨e, he, rfl⟩
    · exact ⟨.ok found, ends_decoded hfound, rfl⟩
    · exact ⟨.error e, ends_decoded he, rfl⟩
  rcases ends_tryExcept h with hok | ⟨⟨e, he, herror⟩, hlisted⟩
  · obtain ⟨y, hy, hmap⟩ := hbody hok
    cases y with
    | ok found =>
      obtain rfl := Option.some.inj (Except.ok.inj hmap)
      exact .inl hy
    | error e => cases hmap
  · obtain ⟨y, hy, hmap⟩ := hbody herror
    cases y with
    | ok found => cases hmap
    | error e' =>
      obtain rfl := Except.error.inj hmap
      exact .inr ⟨⟨e, he, hy⟩, hlisted⟩

/-- The directory that is selected. -/
theorem ends_selectDirectory (hA : ∀ c reply, A c reply → b.MayAnswer range c reply)
    (h : (selectDirectory rt objectPrefix cusno).Ends A (.ok (some selection))) :
    ∃ dir, SelectedFrom rt b A objectPrefix dir ∧ selection.Names objectPrefix dir := by
  obtain ⟨dated, hdated, hrest⟩ := ends_bind_ok.mp h
  cases dated with
  | none => cases hrest
  | some dated =>
    cases hnonEmpty : nonEmpty dated.latestDate with
    | none =>
      -- no date: `latest/`, if it has the index of the shard
      simp only [hnonEmpty] at hrest
      rcases ends_tryExcept hrest with hlatest | ⟨-, hnone⟩
      · obtain ⟨-, -, hlatest⟩ := ends_bind_ok.mp hlatest
        obtain rfl := Option.some.inj (Except.ok.inj hlatest)
        exact ⟨_, .inl rfl, Selection.names_latest objectPrefix (some "latest")⟩
      · cases hnone
    | some date =>
      have hdate : dated.latestDate = some date := (Option.filter_eq_some_iff.mp hnonEmpty).1
      have hdir : ∃ dir, SelectedFrom rt b A objectPrefix dir ∧ dated.Names objectPrefix dir := by
        rcases ends_selectDated hdated with hdecoded | ⟨hunreadable, hlisted⟩
        · obtain ⟨reply, hreply, hfound⟩ := hdecoded
          obtain ⟨json, -, hselection⟩ := bind_eq_ok.mp hfound
          rcases names_of_selectionOf hselection hdate with hnames | hnames
          · exact ⟨_, .inl rfl, hnames⟩
          · exact ⟨_, .inr ⟨date, rfl, .inl ⟨dated, ⟨reply, hreply, hfound⟩, hdate⟩⟩, hnames⟩
        · rcases ends_tryExcept hlisted with hlisted | ⟨-, hnone⟩
          · obtain ⟨names, hnames, hlisted⟩ := ends_bind_ok.mp hlisted
            obtain rfl := Option.some.inj (Except.ok.inj hlisted)
            have hnewest : newestDateDir objectPrefix names = some date := hdate
            have hfrom : SelectedFrom rt b A objectPrefix (directory objectPrefix date) := by
              rw [ends_listObjects hA hnames] at hnewest
              exact .inr ⟨date, rfl, .inr ⟨hunreadable, hnewest⟩⟩
            refine ⟨_, hfrom, ?_⟩
            rw [hnewest]
            exact Selection.names_date objectPrefix (isDate_of_newestDateDir hnewest)
          · cases hnone
      simp only [hnonEmpty] at hrest
      obtain rfl := Option.some.inj (Except.ok.inj hrest)
      exact hdir

end Directories

/-! ### Metadata -/

/-- The metadata is that of the directory. -/
theorem ends_readMeta {dir : String} (hdir : dir.toList.getLast? ≠ some '/') {metadata : Meta}
    (h : (readMeta rt (dir ++ "/")).Ends A (.ok metadata)) : Describes rt A dir metadata := by
  rw [readMeta, metaKey hdir] at h
  rcases ends_tryExcept h with hok | ⟨⟨e, he, herror⟩, hempty⟩
  · exact .inl (ends_decoded hok)
  · exact .inr ⟨⟨e, he, ends_decoded herror⟩, Except.ok.inj hempty⟩

/-! ### The identity of a document -/

theorem ofCustomer_of_matchCusno {doc encryptedColumns : Json} {cusno : String}
    (h : matchCusno rt doc cusno encryptedColumns = .ok true) :
    OfCustomer rt encryptedColumns cusno doc := by
  rw [matchCusno] at h
  obtain ⟨raw, hraw, h⟩ := bind_eq_ok.mp h
  split at h
  · cases h
  · next hsome =>
    obtain ⟨plain, hplain, h⟩ := bind_eq_ok.mp h
    cases plain with
    | none => cases h
    | some value =>
      have hvalue : value.pyStr = cusno := of_decide_eq_true (Except.ok.inj h)
      rw [plainCusno] at hplain
      obtain ⟨encrypted, hencrypted, hplain⟩ := bind_eq_ok.mp hplain
      refine ⟨raw, value, encrypted, hraw, ?_, hencrypted, ?_, hvalue⟩
      · rintro rfl
        exact hsome rfl
      · cases encrypted with
        | true =>
          -- a number that cannot be decrypted is no one's
          rw [if_pos rfl] at hplain ⊢
          split at hplain
          · next value' hdecrypt =>
            obtain rfl := Option.some.inj (Except.ok.inj hplain)
            exact hdecrypt
          · split at hplain
            · cases hplain
            · cases hplain
        | false => exact (Option.some.inj (Except.ok.inj hplain)).symm

/-- What a scan finds is a line with the customer number. -/
theorem scanLines_found {cusno : String} {encryptedColumns doc : Json} {lines : List String}
    (h : scanLines rt cusno encryptedColumns lines = .ok doc) :
    doc = .null ∨ (∃ line ∈ lines, rt.jsonLoads (encodeUtf8 (strip line)) = .ok doc) ∧
      matchCusno rt doc cusno encryptedColumns = .ok true := by
  induction lines with
  | nil => exact .inl (Except.ok.inj h).symm
  | cons line lines ih =>
    have hrest (hlines : scanLines rt cusno encryptedColumns lines = .ok doc) :
        doc = .null ∨ (∃ line' ∈ line :: lines, rt.jsonLoads (encodeUtf8 (strip line')) = .ok doc) ∧
          matchCusno rt doc cusno encryptedColumns = .ok true := by
      refine (ih hlines).imp_right (And.imp_left ?_)
      rintro ⟨line', hmem, hloads⟩
      exact ⟨line', List.mem_cons_of_mem line hmem, hloads⟩
    rw [scanLines] at h
    -- a line is skipped, stops the scan, or leaves it to the lines after it
    split at h
    · exact hrest h
    · split at h
      · next found hfound =>
        obtain rfl := Except.ok.inj h
        rw [candidate] at hfound
        obtain ⟨doc, hloads, hfound⟩ := bind_eq_ok.mp hfound
        obtain ⟨confirmed, hmatch, hfound⟩ := bind_eq_ok.mp hfound
        cases confirmed with
        | true =>
          obtain rfl := Option.some.inj (Except.ok.inj hfound)
          exact .inr ⟨⟨line, List.mem_cons_self, hloads⟩, hmatch⟩
        | false => cases hfound
      · exact hrest h
      · exact hrest h
      · cases h

/-- A document that is confirmed is read from the directory, and it is the one of the customer. -/
theorem ends_confirm (hA : ∀ c reply, A c reply → b.MayAnswer range c reply) {dir cusno : String}
    {doc doc' encryptedColumns : Json} (hread : ReadFrom rt range b dir cusno doc)
    (h : (confirm rt doc (directory dir "bulk.jsonl") cusno encryptedColumns).Ends A (.ok doc')) :
    doc' = .null ∨
      ReadFrom rt range b dir cusno doc' ∧ OfCustomer rt encryptedColumns cusno doc' := by
  obtain ⟨confirmed, hmatch, hrest⟩ := ends_bind_ok.mp h
  cases confirmed with
  | true =>
    obtain rfl := Except.ok.inj hrest
    exact .inr ⟨hread, ofCustomer_of_matchCusno (ends_ofExcept_ok hmatch)⟩
  | false =>
    -- the candidate is someone else's: a scan of the same directory
    rcases ends_tryExcept hrest with hscan | ⟨-, hnull⟩
    · obtain ⟨data, hdata, hscan⟩ := ends_bind_ok.mp hscan
      obtain ⟨text, hdecode, hscan⟩ := ends_bind_ok.mp hscan
      rcases scanLines_found (ends_ofExcept_ok hscan) with hnull | ⟨⟨line, hmem, hloads⟩, hof⟩
      · exact .inl hnull
      · exact .inr ⟨.inr (.inr ⟨data, text, line, ends_getObject hA hdata,
          ends_ofExcept_ok hdecode, hmem, hloads⟩), ofCustomer_of_matchCusno hof⟩
    · exact .inl (Except.ok.inj hnull)

/-! ### The retrieval -/

/-- A candidate of a directory is confirmed in the same directory, and finished with its
metadata. -/
theorem ends_finished (hA : ∀ c reply, A c reply → b.MayAnswer range c reply)
    {dir cusno : String} (hdir : dir.toList.getLast? ≠ some '/') {doc result : Json}
    (hread : ReadFrom rt range b dir cusno doc)
    (h : (do
      let metadata ← readMeta rt (dir ++ "/")
      let doc ← confirm rt doc (directory dir "bulk.jsonl") cusno metadata.encryptedColumns
      if doc.isNone then pure .null else Program.ofExcept (finish rt doc metadata) :
        Retrieval Json).Ends A (.ok result))
    (hresult : result ≠ .null) :
    ∃ doc metadata, ReadFrom rt range b dir cusno doc ∧ Describes rt A dir metadata ∧
      OfCustomer rt metadata.encryptedColumns cusno doc ∧ IsResult rt metadata doc result := by
  obtain ⟨metadata, hmeta, h⟩ := ends_bind_ok.mp h
  obtain ⟨doc', hconfirm, h⟩ := ends_bind_ok.mp h
  -- null after the confirmation is the result null, which is excluded
  split at h
  · exact absurd (Except.ok.inj h) hresult
  · next hsome =>
    rcases ends_confirm hA hread hconfirm with rfl | ⟨hread', hof⟩
    · exact absurd rfl hsome
    · exact ⟨doc', metadata, hread', ends_readMeta hdir hmeta, hof,
        finish_eq_ok.mp (ends_ofExcept_ok h)⟩

/-- The retrieval from the directory that is selected, or from `latest/`. -/
theorem ends_retrieveFrom (hA : ∀ c reply, A c reply → b.MayAnswer range c reply)
    {objectPrefix dir cusno : String} {selection : Selection} {result : Json}
    (hdir : SelectedFrom rt b A objectPrefix dir) (hnames : selection.Names objectPrefix dir)
    (h : (retrieveFrom rt objectPrefix selection cusno).Ends A (.ok result))
    (hresult : result ≠ .null) :
    ∃ dir doc metadata, SelectedFrom rt b A objectPrefix dir ∧ ReadFrom rt range b dir cusno doc ∧
      Describes rt A dir metadata ∧ OfCustomer rt metadata.encryptedColumns cusno doc ∧
      IsResult rt metadata doc result := by
  rw [retrieveFrom_eq hnames.1 hnames.2.1] at h
  obtain ⟨⟨doc, usedFallback⟩, hfetch, h⟩ := ends_bind_ok.mp h
  dsimp only at h
  cases hnone : doc.isNone with
  | true =>
    rw [if_pos hnone] at h
    exact absurd (Except.ok.inj h) hresult
  | false =>
    have hdoc : doc ≠ .null := by
      rintro rfl
      cases hnone
    rw [if_neg (by rw [hnone]; exact Bool.false_ne_true)] at h
    -- the document is of the selected directory or of the fallback
    rcases ends_fetchAnywhere hA hfetch with hnull | ⟨rfl, hread⟩ | ⟨latest, hlatest, rfl, hread⟩
    · exact absurd hnull hdoc
    · obtain ⟨doc, metadata, hfound⟩ := ends_finished hA hnames.2.2 hread h hresult
      exact ⟨dir, doc, metadata, hdir, hfound⟩
    · -- the directory to fall back to is `latest/`
      have heq : latest = directory objectPrefix "latest" := by
        split at hlatest
        · cases hlatest
        · exact (Option.some.inj hlatest).symm
      subst heq
      obtain ⟨doc, metadata, hfound⟩ :=
        ends_finished hA (getLast_directory_latest objectPrefix) hread h hresult
      exact ⟨_, doc, metadata, .inl rfl, hfound⟩

/-- Whatever the bucket holds and whichever calls fail: a profile that is returned was read from one
directory, it is the one of the customer by that directory's metadata, and it has been decrypted and
labelled with the same metadata. -/
theorem retrieveCusno_oneDirectory (hA : ∀ c reply, A c reply → b.MayAnswer range c reply)
    {dataType cusno : String} {result : Json}
    (h : (retrieveCusno rt dataType cusno).Ends A (.ok result)) (hresult : result ≠ .null) :
    ∃ dir doc metadata, SelectedFrom rt b A (objectPrefix dataType) dir ∧
      ReadFrom rt range b dir (strip cusno) doc ∧ Describes rt A dir metadata ∧
      OfCustomer rt metadata.encryptedColumns (strip cusno) doc ∧
      IsResult rt metadata doc result := by
  obtain ⟨connected, -, h⟩ := ends_bind_ok.mp h
  cases connected with
  | false => exact absurd (Except.ok.inj h) hresult
  | true =>
    rw [if_pos rfl] at h
    by_cases hempty : strip cusno = ""
    · rw [if_pos hempty] at h
      exact absurd (Except.ok.inj h) hresult
    · rw [if_neg hempty] at h
      obtain ⟨selected, hselected, h⟩ := ends_bind_ok.mp h
      cases selected with
      | none => exact absurd (Except.ok.inj h) hresult
      | some selection =>
        obtain ⟨dir, hdir, hnames⟩ := ends_selectDirectory hA hselected
        exact ends_retrieveFrom hA hdir hnames h hresult

open ExactLookups in
/-- On a server where any call may fail, the profile of the first record is found. -/
theorem OneDirectory.retrieveCusno_record : ∃ dir doc metadata,
    SelectedFrom runtime bucket (bucket.MayAnswer Json.slice) (objectPrefix "daily") dir ∧
      ReadFrom runtime Json.slice bucket dir (strip "1007") doc ∧
      Describes runtime (bucket.MayAnswer Json.slice) dir metadata ∧
      OfCustomer runtime metadata.encryptedColumns (strip "1007") doc ∧
      IsResult runtime metadata doc (.obj [("CUSNO", .str "1007")]) := by
  have hmem : record ∈ [record, recordOfList] := by simp
  have heval : (retrieveCusno runtime "daily" "1007").eval (bucket.answer Json.slice) =
      .ok (.obj [("CUSNO", .str "1007")]) := by
    have hcusno : record.cusno = strip "1007" := rfl
    rw [eval_retrieveCusno_found runtime_documented wellFormed hmem hcusno]
    rfl
  have hends : (retrieveCusno runtime "daily" "1007").Ends (bucket.MayAnswer Json.slice)
      ((retrieveCusno runtime "daily" "1007").eval (bucket.answer Json.slice)) :=
    ends_eval (fun _ => .inl rfl) _
  rw [heval] at hends
  exact retrieveCusno_oneDirectory (fun _ _ h => h) hends nofun

end BatchProfile

end SessionManager
