import SessionManager.Python.IsoFormat
import SessionManager.Python.JsonLoaded

/-!
# Values as text

`core/utils.py`, and the text that `reference_information` is stored as. Every text that the code
writes with these functions is one that they read back.

* `safeJsonParse`, `safeJsonDumps` — JSON values; the float constructor of the interpreter is a
  parameter, as the `repr` of the number that a text stands for.
* `datetimeToIso`, `isoToDatetime`, `safeDatetimeParse` — instants.
* `serializeReferenceInformation` — the stored form of a `reference_information`.
* `reference_information_text` — the stored form says what the `dict` is, up to the order of keys.
* `instant_text` — the stored form of an instant says what the instant is.
-/

namespace SessionManager

open Python

/-! ### JSON -/

/-- `safe_json_parse(value, default)`. A text that is not JSON gives the default; the `ValueError`
of an `int` that is too long is no `JSONDecodeError` and goes on to the caller. -/
def safeJsonParse (floatRepr : String → String) (value : Json) (default : Json := .null) :
    Except PyError Json :=
  match value with
  | .arr _ | .obj _ => .ok value
  | .str s =>
    match Json.loads floatRepr s with
    | .ok parsed => .ok parsed
    | .error .decode => .ok default
    | .error .tooLong => .error .valueError
  | _ => .ok default

/-- `safe_json_dumps(value, sort_keys, ensure_ascii)`. -/
def safeJsonDumps (value : Json) (sortKeys : Bool := true) (ensureAscii : Bool := false) :
    Option String :=
  match value with
  | .null => none
  | value => (Json.dumps sortKeys ensureAscii value).toOption

/-- `_serialize_reference_information`. -/
def serializeReferenceInformation (refInfo : Json) : String :=
  (nonEmpty (safeJsonDumps refInfo true false)).getD "\x7b\x7d"

section Json

variable {floatRepr : String → String}

/-- A text that can be read is read. -/
theorem safeJsonParse_of_loads {s : String} {v : Json} (h : Json.loads floatRepr s = .ok v)
    (default : Json) : safeJsonParse floatRepr (.str s) default = .ok v := by
  simp only [safeJsonParse, h]

/-- What can be written is written as a text that is not empty. -/
theorem safeJsonDumps_of_dumps {v : Json} (hnone : v ≠ .null) {sortKeys ensureAscii : Bool}
    {s : String} (h : Json.dumps sortKeys ensureAscii v = .ok s) :
    safeJsonDumps v sortKeys ensureAscii = some s := by
  unfold safeJsonDumps
  split
  · exact absurd rfl hnone
  · rw [h]
    rfl

/-- A value is not written as the empty text. -/
theorem dumps_ne_empty {v : Json} (hv : v.Valid floatRepr) {sortKeys ensureAscii : Bool}
    {s : String} (h : Json.dumps sortKeys ensureAscii v = .ok s) : s ≠ "" := by
  obtain ⟨s', hs', hload⟩ := Json.loads_dumps hv sortKeys ensureAscii
  obtain rfl := Except.ok.inj (hs'.symm.trans h)
  rintro rfl
  cases hload

/-- A text that is not empty is kept by `if text:`. -/
theorem nonEmpty_dumps {v : Json} (hv : v.Valid floatRepr) (hnone : v ≠ .null)
    {sortKeys ensureAscii : Bool} {s : String} (h : Json.dumps sortKeys ensureAscii v = .ok s) :
    nonEmpty (safeJsonDumps v sortKeys ensureAscii) = some s := by
  rw [safeJsonDumps_of_dumps hnone h, nonEmpty, Option.filter_some,
    if_pos (by simpa using dumps_ne_empty hv h)]

/-- A `dict` that can be written is stored as its text with the keys in order. -/
theorem serializeReferenceInformation_of_valid {refInfo : Json} (hv : refInfo.Valid floatRepr)
    (hnone : refInfo ≠ .null) :
    Json.dumps true false refInfo = .ok (serializeReferenceInformation refInfo) := by
  obtain ⟨s, hs, -⟩ := Json.loads_dumps hv true false
  rw [serializeReferenceInformation, nonEmpty_dumps hv hnone hs, hs]
  rfl

/-- Sorting keys keeps a `dict` one, equal to itself. -/
theorem sortKeys_same {entries : Dict} (hv : (Json.obj entries).Valid floatRepr) :
    (Json.obj entries).Same (Json.obj entries).sortKeys :=
  (Json.sortKeys_eq_iff _ _ hv hv.sortKeys).mp (Json.sortKeys_sortKeys _ hv).symm

/-- The reference informations of two requests, as FastAPI reads them from bodies without lone
surrogates: each is read back from its stored form as the same `dict` up to the order of keys, which
has the same stored form again, and the two have one stored form exactly when they are the same up
to that order. -/
theorem reference_information_text
    (hfloat : ∀ s, Json.IsFloatRepr floatRepr (floatRepr s)) {body body' : String}
    {refInfo refInfo' : Dict} (hbody : Json.loads floatRepr body = .ok (.obj refInfo))
    (hbody' : Json.loads floatRepr body' = .ok (.obj refInfo')) :
    (∃ read, safeJsonParse floatRepr (.str (serializeReferenceInformation (.obj refInfo))) =
        .ok (.obj read) ∧ (Json.obj refInfo).Same (.obj read) ∧
        serializeReferenceInformation (.obj read) =
          serializeReferenceInformation (.obj refInfo)) ∧
      (serializeReferenceInformation (.obj refInfo) =
          serializeReferenceInformation (.obj refInfo') ↔
        (Json.obj refInfo).Same (.obj refInfo')) := by
  have hv := Json.loads_valid hfloat hbody
  have hv' := Json.loads_valid hfloat hbody'
  have hdumps := serializeReferenceInformation_of_valid hv nofun
  have hdumps' := serializeReferenceInformation_of_valid hv' nofun
  constructor
  · obtain ⟨s, hs, hload⟩ := Json.loads_dumps hv true false
    obtain rfl := Except.ok.inj (hs.symm.trans hdumps)
    have hread : Json.dumps true false (Json.obj refInfo).sortKeys =
        .ok (serializeReferenceInformation (.obj refInfo)) :=
      Json.dumps_of_loads_dumps hv hdumps hload
    refine ⟨_, safeJsonParse_of_loads hload .null, sortKeys_same hv, ?_⟩
    have hsorted := serializeReferenceInformation_of_valid hv.sortKeys nofun
    exact Except.ok.inj (hsorted.symm.trans hread)
  · rw [← Json.dumps_eq_iff hv hv' false, hdumps, hdumps', Except.ok.injEq]

/-- Two bodies that differ in the order of keys. -/
theorem reference_information_text_reordered :
    (∃ read, safeJsonParse (fun _ => "1.5") (.str (serializeReferenceInformation
        (.obj [("turn_count", .int 1), ("score", .float "1.5")]))) = .ok (.obj read) ∧
      (Json.obj [("turn_count", .int 1), ("score", .float "1.5")]).Same (.obj read) ∧
      serializeReferenceInformation (.obj read) = serializeReferenceInformation
        (.obj [("turn_count", .int 1), ("score", .float "1.5")])) ∧
    (serializeReferenceInformation (.obj [("turn_count", .int 1), ("score", .float "1.5")]) =
        serializeReferenceInformation (.obj [("score", .float "1.5"), ("turn_count", .int 1)]) ↔
      (Json.obj [("turn_count", .int 1), ("score", .float "1.5")]).Same
        (.obj [("score", .float "1.5"), ("turn_count", .int 1)])) :=
  have hfloat : Json.IsFloatRepr (fun _ => "1.5") "1.5" :=
    .inr (.inr (.inr ⟨by decide, by decide, by decide, rfl⟩))
  have hint : (Json.int 1).Valid fun _ => "1.5" := by
    show (Nat.toDigits 10 1).length ≤ 4300
    decide
  have hv : (Json.obj [("turn_count", .int 1), ("score", .float "1.5")]).Valid fun _ => "1.5" :=
    ⟨by decide, hint, hfloat, trivial⟩
  have hv' : (Json.obj [("score", .float "1.5"), ("turn_count", .int 1)]).Valid fun _ => "1.5" :=
    ⟨by decide, hfloat, hint, trivial⟩
  reference_information_text (fun _ => hfloat) (Json.loads_text hv true) (Json.loads_text hv' true)

end Json

/-! ### Instants -/

/-- What the functions on instants are given: a `datetime`, a text or `None`. -/
inductive DatetimeArg where
  | none
  | datetime (t : ℕ)
  | text (s : String)
  deriving DecidableEq, Repr

/-- `datetime_to_iso`. -/
def datetimeToIso : DatetimeArg → Option String
  | .none => Option.none
  | .text s => some s
  | .datetime t => some (isoformat t)

/-- `iso_str.replace("Z", "+00:00")`. -/
def replaceZ (s : String) : String :=
  String.ofList (s.toList.flatMap fun c => if c = 'Z' then "+00:00".toList else [c])

/-- `iso_to_datetime`. -/
def isoToDatetime : DatetimeArg → Option ℕ
  | .none => Option.none
  | .datetime t => some t
  | .text s => fromisoformat (replaceZ s)

/-- `safe_datetime_parse`. -/
def safeDatetimeParse : DatetimeArg → Option ℕ
  | .none => Option.none
  | .datetime t => some t
  | .text s => isoToDatetime (.text s)

/-- The text of an instant up to the offset has no `Z` in it. -/
theorem isoformat_stem (t : ℕ) :
    ∃ stem : String, isoformat t = stem ++ "+00:00" ∧ 'Z' ∉ stem.toList := by
  rcases hcivil : civil (t / 86400000) with ⟨year, month, day⟩
  have hdigits (width n : ℕ) : 'Z' ∉ (zeroPad width n).toList := fun hmem =>
    absurd (zeroPad_digits width n 'Z' hmem) (by decide)
  have hfraction :
      'Z' ∉ (if t % 1000 = 0 then "" else "." ++ zeroPad 3 (t % 1000) ++ "000").toList := by
    split_ifs
    · simp
    · simp [hdigits]
  rw [isoformat_eq, hcivil]
  refine ⟨_, rfl, ?_⟩
  simp [hdigits, hfraction]

/-- What has no `Z` in it stays. -/
theorem replaceZ_append {stem : String} (h : 'Z' ∉ stem.toList) (s : String) :
    replaceZ (stem ++ s) = stem ++ replaceZ s := by
  have hsame : stem.toList.flatMap (fun c => if c = 'Z' then "+00:00".toList else [c]) =
      stem.toList.flatMap fun c => [c] := by
    apply List.flatMap_congr
    intro c hc
    rw [if_neg]
    rintro rfl
    exact h hc
  rw [replaceZ, replaceZ, String.toList_append, List.flatMap_append, hsame,
    List.flatMap_singleton', String.ofList_append, String.ofList_toList]

/-- The stored form of an instant before the year 10000, with the offset as it is or as `Z`, is read
back as that instant. -/
theorem instant_text {t : ℕ} (h : t < endOfTime) :
    ∃ stem : String, datetimeToIso (.datetime t) = some (stem ++ "+00:00") ∧
      ∀ offset ∈ ["+00:00", "Z"], safeDatetimeParse (.text (stem ++ offset)) = some t := by
  obtain ⟨stem, heq, hstem⟩ := isoformat_stem t
  have hread := fromisoformat_isoformat h
  have hoffset : ∀ offset ∈ ["+00:00", "Z"], replaceZ offset = "+00:00" := by decide
  refine ⟨stem, congrArg some heq, fun offset hmem => ?_⟩
  rw [safeDatetimeParse, isoToDatetime, replaceZ_append hstem, hoffset offset hmem, ← heq, hread]

/-- A leap day, to the millisecond. -/
theorem instant_text_leap_day : ∃ stem : String,
    datetimeToIso (.datetime 1709208000123) = some (stem ++ "+00:00") ∧
      ∀ offset ∈ ["+00:00", "Z"],
        safeDatetimeParse (.text (stem ++ offset)) = some 1709208000123 :=
  instant_text (by decide)

end SessionManager
