import Mathlib

/-!
# When a stored object needs an update (`utils/deploy.go`)

`ResourceNeedResync` compares two objects through the JSON patch between them.
The patch library is not modelled: the functions here take the operations of
the patch, or nothing when the library returns an error.
-/

namespace Fleetboard

/-- The operations of a JSON patch. -/
inductive PatchKind
  | add | remove | replace | move | copy | test
  deriving DecidableEq, Repr

/-- `jsonpatch.JsonPatchOperation`, without the value. -/
structure JsonPatchOperation where
  operation : PatchKind
  path : String
  deriving DecidableEq, Repr

/-- `jsonpatch.CreatePatch`, of the JSON of two objects; `none` is an error of it or of
the marshalling. -/
abbrev CreatePatch (α : Type) : Type := α → α → Option (List JsonPatchOperation)

def sectionToBeIgnored : List String := ["/status"]

def fieldsToBeIgnored : List String :=
  ["/metadata/generation", "/metadata/creationTimestamp", "/metadata/managedFields",
    "/metadata/uid", "/metadata/selfLink", "/metadata/resourceVersion"]

/-- `shouldPatchBeIgnored`. -/
def shouldPatchBeIgnored (op : JsonPatchOperation) : Bool :=
  op.path ∈ fieldsToBeIgnored ∨ ∃ s ∈ sectionToBeIgnored, s.toList.isPrefixOf op.path.toList

/-- `ResourceNeedResync`, from the patch between the objects. -/
def ResourceNeedResync (patch : Option (List JsonPatchOperation)) (ignoreAdd : Bool) : Bool :=
  match patch with
  | none => false
  | some ops => ops.any fun op =>
    !shouldPatchBeIgnored op &&
      match op.operation with
      | .add => !ignoreAdd
      | .remove | .replace => true
      | _ => false

end Fleetboard
