import SessionManager.BatchProfile.OneDirectory
import SessionManager.Interaction.Gather

/-!
# MinioBatchProfileRepository

`repositories/minio_batch_profile_repository.py`: the daily and the monthly profile of a customer,
looked up side by side.

* `MinioSettings` — the settings of `config.py` for MinIO.
* `retrieveSingleProfile`, `getBatchProfile` — the repository.
* `OwnDocument`, `OwnProfile` — a document of a customer, and a batch profile made of such.
* `ends_retrieveCusno`, `ends_getBatchProfile` — what is returned is made of the customer's own
  documents.
-/

namespace SessionManager

open Python Interaction

open Program hiding pure

namespace BatchProfile

/-- The settings of `config.py` for MinIO, and whether the module that looks profiles up can be
imported. -/
structure MinioSettings where
  /-- `MINIO_ENDPOINT`. -/
  endpoint : String := ""
  /-- `MINIO_ACCESS_KEY`. -/
  accessKey : Option String := none
  /-- `MINIO_SECRET_KEY`. -/
  secretKey : Option String := none
  /-- `import batch_profile_minio_retrieve` raises no `ImportError`. -/
  imports : Bool := true

section Repository

variable (settings : MinioSettings) (rt : Runtime)

/-- `(OSError, RuntimeError)`. -/
def unavailable : List PyError := [.osError, .runtimeError]

/-- `_retrieve_single_profile`. -/
def retrieveSingleProfile (dataType cusno : String) : Retrieval Json :=
  if settings.endpoint = "" then pure .null
  else if nonEmpty settings.accessKey = none ∨ nonEmpty settings.secretKey = none then pure .null
  else if settings.imports = false then pure .null
  else if strip cusno = "" then pure .null
  else tryExcept (retrieveCusno rt dataType (strip cusno)) unavailable (pure .null)

/-- `if profile: result[dataType] = profile`. -/
def profileEntry (dataType : String) (profile : Json) : Dict :=
  if profile.truthy then [(dataType, profile)] else []

/-- `result or None`. -/
def batchResult (daily monthly : Json) : Option Dict :=
  some (profileEntry "daily" daily ++ profileEntry "monthly" monthly) |>.filter (!·.isEmpty)

/-- `get_batch_profile`; the calls of the two lookups are interleaved in the given order. -/
def getBatchProfile (order : List Bool) (userId : String) : Retrieval (Option Dict) :=
  if strip userId = "" then pure none
  else
    tryExcept
      (do
        let (daily, monthly) ← gather order
          (retrieveSingleProfile settings rt "daily" (strip userId))
          (retrieveSingleProfile settings rt "monthly" (strip userId))
        pure (batchResult daily monthly))
      unavailable (pure none)

end Repository

variable {settings : MinioSettings} {rt : Runtime}
  {range : Bytes → Json → Json → Except PyError Bytes} {b : Bucket}
  {A : (c : minio.Command) → minio.Reply c → Prop}

/-! ### Profiles of a customer -/

/-- A document that was read from one directory of the kind, where it is the one of the customer by
the metadata of that directory, decrypted and labelled with the same metadata. -/
def OwnDocument (rt : Runtime) (range : Bytes → Json → Json → Except PyError Bytes) (b : Bucket)
    (dataType cusno : String) (profile : Json) : Prop :=
  ∃ dir doc metadata, SelectedFrom rt b (b.MayAnswer range) (objectPrefix dataType) dir ∧
    ReadFrom rt range b dir cusno doc ∧ Describes rt (b.MayAnswer range) dir metadata ∧
    OfCustomer rt metadata.encryptedColumns cusno doc ∧ IsResult rt metadata doc profile

/-- A batch profile: the daily document of the customer, the monthly one, or both. -/
def OwnProfile (rt : Runtime) (range : Bytes → Json → Json → Except PyError Bytes) (b : Bucket)
    (cusno : String) (profile : Dict) : Prop :=
  profile ≠ [] ∧ ∀ dataType document, (dataType, document) ∈ profile →
    (dataType = "daily" ∨ dataType = "monthly") ∧ OwnDocument rt range b dataType cusno document

/-- A lookup returns nothing, or the document of the customer. -/
theorem ends_retrieveCusno {dataType cusno : String} {result : Json}
    (h : (retrieveCusno rt dataType cusno).Ends (b.MayAnswer range) (.ok result)) :
    result = .null ∨ OwnDocument rt range b dataType (strip cusno) result := by
  by_cases hresult : result = .null
  · exact .inl hresult
  obtain ⟨connected, -, h⟩ := ends_bind_ok.mp h
  cases connected with
  | false => exact .inl (Except.ok.inj h)
  | true =>
    rw [if_pos rfl] at h
    by_cases hempty : strip cusno = ""
    · rw [if_pos hempty] at h
      exact .inl (Except.ok.inj h)
    · rw [if_neg hempty] at h
      obtain ⟨selected, hselected, h⟩ := ends_bind_ok.mp h
      cases selected with
      | none => exact .inl (Except.ok.inj h)
      | some selection =>
        have hA (c : Call) (reply : Except PyError c.Result) (hreply : b.MayAnswer range c reply) :
            b.MayAnswer range c reply := hreply
        obtain ⟨dir, hdir, hnames⟩ := ends_selectDirectory hA hselected
        exact .inr (ends_retrieveFrom hA hdir hnames h hresult)

/-- The repository returns nothing for one kind, or the document of the customer. -/
theorem ends_retrieveSingleProfile {dataType cusno : String} {result : Json}
    (h : (retrieveSingleProfile settings rt dataType cusno).Ends (b.MayAnswer range)
      (.ok result)) :
    result = .null ∨ OwnDocument rt range b dataType (strip cusno) result := by
  unfold retrieveSingleProfile at h
  split_ifs at h
  · exact .inl (Except.ok.inj h)
  · exact .inl (Except.ok.inj h)
  · exact .inl (Except.ok.inj h)
  · exact .inl (Except.ok.inj h)
  · rcases ends_tryExcept h with hbody | ⟨-, hnull⟩
    · rw [← strip_strip cusno]
      exact ends_retrieveCusno hbody
    · exact .inl (Except.ok.inj hnull)

/-- An entry of the result is a document that was found. -/
theorem mem_profileEntry {dataType key : String} {profile document : Json}
    (h : (key, document) ∈ profileEntry dataType profile) :
    key = dataType ∧ document = profile ∧ profile.truthy := by
  unfold profileEntry at h
  split_ifs at h with htruthy
  · obtain ⟨rfl, rfl⟩ := Prod.mk.inj (List.mem_singleton.mp h)
    exact ⟨rfl, rfl, htruthy⟩
  · cases h

/-- What the repository returns is a batch profile of the customer. -/
theorem ends_getBatchProfile {order : List Bool} {userId : String} {profile : Dict}
    (h : (getBatchProfile settings rt order userId).Ends (b.MayAnswer range)
      (.ok (some profile))) : OwnProfile rt range b (strip userId) profile := by
  unfold getBatchProfile at h
  split_ifs at h
  · cases h
  rcases ends_tryExcept h with hbody | ⟨-, hnone⟩
  · obtain ⟨⟨daily, monthly⟩, hgather, hresult⟩ := ends_bind_ok.mp hbody
    obtain ⟨hdaily, hmonthly⟩ := ends_gather_ok.mp hgather
    obtain ⟨heq, hne⟩ := Option.filter_eq_some_iff.mp (Except.ok.inj hresult).symm
    obtain rfl := Option.some.inj heq
    -- an entry is one of the two that were looked up, and that one is not null
    have hown {dataType : String} {found document : Json} {key : String}
        (hfound : (retrieveSingleProfile settings rt dataType (strip userId)).Ends
          (b.MayAnswer range) (.ok found)) (hmem : (key, document) ∈ profileEntry dataType found) :
        key = dataType ∧ OwnDocument rt range b key (strip userId) document := by
      obtain ⟨rfl, rfl, htruthy⟩ := mem_profileEntry hmem
      refine ⟨rfl, ?_⟩
      rcases ends_retrieveSingleProfile hfound with rfl | hdocument
      · cases htruthy
      · rwa [strip_strip] at hdocument
    refine ⟨fun hempty => ?_, fun key document hmem => ?_⟩
    · rw [hempty] at hne
      cases hne
    · rcases List.mem_append.mp hmem with hmem | hmem
      · exact (hown hdaily hmem).imp_left .inl
      · exact (hown hmonthly hmem).imp_left .inr
  · cases hnone

/-- A `try` returns what its body returns. -/
theorem ends_tryExcept_body {α : Type} {p handler : Retrieval α} {caught : List PyError} {a : α}
    (h : p.Ends A (.ok a)) : (tryExcept p caught handler).Ends A (.ok a) :=
  ends_catchWith.mpr (.inl ⟨a, h, rfl⟩)

/-- What the repository returns when both lookups return. -/
theorem ends_of_lookups {order : List Bool} {userId : String} {daily monthly : Json}
    (hne : strip userId ≠ "")
    (hdaily : (retrieveSingleProfile settings rt "daily" (strip userId)).Ends A (.ok daily))
    (hmonthly : (retrieveSingleProfile settings rt "monthly" (strip userId)).Ends A
      (.ok monthly)) :
    (getBatchProfile settings rt order userId).Ends A (.ok (batchResult daily monthly)) := by
  rw [getBatchProfile, if_neg hne]
  refine ends_tryExcept_body (ends_bind_ok.mpr ⟨(daily, monthly), ?_, rfl⟩)
  exact ends_gather_ok.mpr ⟨hdaily, hmonthly⟩

section Unconnected

variable (hconnect : A .connect (.error .osError))
include hconnect

/-- Without a connection a lookup finds nothing. -/
theorem ends_unconnected (dataType cusno : String) :
    (retrieveSingleProfile settings rt dataType cusno).Ends A (.ok .null) := by
  unfold retrieveSingleProfile
  split_ifs
  · rfl
  · rfl
  · rfl
  · rfl
  · exact ends_tryExcept_body ⟨.error .osError, hconnect, rfl⟩

/-- Without a connection the repository finds nothing. -/
theorem ends_missing (order : List Bool) (userId : String) :
    (getBatchProfile settings rt order userId).Ends A (.ok none) := by
  have hnone : batchResult .null .null = none := rfl
  by_cases hempty : strip userId = ""
  · rw [getBatchProfile, if_pos hempty]
    rfl
  · rw [← hnone]
    exact ends_of_lookups hempty (ends_unconnected hconnect _ _) (ends_unconnected hconnect _ _)

end Unconnected

-- the lemmas above say what the repository returns, and nothing below looks inside it
attribute [irreducible] getBatchProfile

end BatchProfile

end SessionManager
