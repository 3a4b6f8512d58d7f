import Mathlib.Data.List.Dedup
import SessionManager.Interaction.Answers
import SessionManager.Python.Text

/-!
# MinIO as the batch profile modules use it

The calls of the MinIO client on one bucket, and what the client answers. A call either returns or
raises; getting an object and reading it to the end is one call.

* `Call`, `Call.Result`, `minio` — the calls with what they return, as a signature.
* `Retrieval`, `request` — the programs over them.
* `Bucket`, `Bucket.answer` — the content of a bucket, and the answers when nothing fails.
* `Bucket.MayAnswer` — the answers when any call may also fail.
-/

namespace SessionManager

open Python Interaction

namespace BatchProfile

/-- The calls of the client. -/
inductive Call where
  /-- `create_minio_client_simple(endpoint, access_key, secret_key)`. -/
  | connect
  /-- `client.get_object(bucket, key)`, read to the end. -/
  | getObject (key : String)
  /-- `client.get_object(bucket, key, offset=offset, length=length)`, read to the end. -/
  | getRange (key : String) (offset length : Json)
  /-- `client.list_objects(bucket, prefix=path, recursive=False)`: the names. -/
  | listObjects (path : String)
  /-- `client.stat_object(bucket, key)`. -/
  | statObject (key : String)

/-- What a call returns. -/
def Call.Result : Call → Type
  | .connect | .statObject _ => Unit
  | .getObject _ | .getRange _ _ _ => Bytes
  | .listObjects _ => List String

/-- The client: a call returns or raises. -/
abbrev minio : Signature := ⟨Call, fun c => Except PyError c.Result⟩

/-- A program that looks up profiles. -/
abbrev Retrieval := Program minio PyError

/-- One call. -/
def request (c : Call) : Retrieval c.Result := .call c .ofExcept

/-! ### Buckets -/

/-- The objects of a bucket, with their contents. -/
abbrev Bucket := List (String × Bytes)

namespace Bucket

/-- The content of an object. -/
def get (b : Bucket) (key : String) : Option Bytes := b.lookup key

theorem mem_of_get {b : Bucket} {key : String} {data : Bytes} (h : b.get key = some data) :
    (key, data) ∈ b := by
  obtain ⟨before, after, heq, -⟩ := List.lookup_eq_some_iff.mp h
  exact heq ▸ List.mem_append_right before List.mem_cons_self

/-- The name under which an object is listed below `path`: its own, or the one of the directory
that it is in. -/
def listed? (path key : String) : Option String :=
  if path.toList.isPrefixOf key.toList then
    let rest := key.toList.drop path.toList.length
    some (if '/' ∈ rest then path ++ String.ofList (rest.takeWhile (· ≠ '/')) ++ "/" else key)
  else none

/-- The names that a listing below `path` gives. -/
def listing (b : Bucket) (path : String) : List String :=
  (b.filterMap fun entry => listed? path entry.1).dedup

/-- The content of an object, or the answer to a call for one that is missing. -/
def content (b : Bucket) (key : String) : Except PyError Bytes :=
  match b.get key with
  | some data => .ok data
  | none => .error .s3Error

/-- The answers of a server that never fails. What it sends of a range is up to it. -/
def answer (range : Bytes → Json → Json → Except PyError Bytes) (b : Bucket) :
    (c : Call) → Except PyError c.Result
  | .connect => .ok ()
  | .getObject key => b.content key
  | .getRange key offset length => do range (← b.content key) offset length
  | .listObjects path => .ok (b.listing path)
  | .statObject key => (b.content key).map fun _ => ()

/-- The answers of a server on which any call may fail. -/
def MayAnswer (range : Bytes → Json → Json → Except PyError Bytes) (b : Bucket) (c : Call)
    (reply : Except PyError c.Result) : Prop :=
  reply = b.answer range c ∨ reply = .error .s3Error ∨ reply = .error .osError

end Bucket

end BatchProfile

end SessionManager
