import Fleetboard.Framework.Sha256
import Fleetboard.Model.Discovery
import Fleetboard.Model.Resync

/-!
# Names and copies of endpoint slices (`utils/slice.go`, `utils/endpointslice.go`)

The controllers of exports and imports keep copies of endpoint slices in another
namespace: they remove the copies whose source is gone and apply the others. A
namespace's slices are a map by name.
-/

namespace Fleetboard.Mcs

/-- The errors of the API server, as far as the controllers tell them apart. -/
inductive ApiError
  | notFound
  | alreadyExists
  | conflict
  | other (text : Error)
  deriving DecidableEq, Repr

def ApiError.text : ApiError → Error
  | .notFound => "not found"
  | .alreadyExists => "already exists"
  | .conflict => "the object has been modified"
  | .other text => text

/-! ## Names -/

/-- `[]byte(s)`. -/
def stringBytes (s : String) : List Sha256.Byte :=
  s.toList.flatMap fun c => (String.utf8EncodeChar c).map (·.toBitVec)

/-- The ten characters that `DerivedName` takes of the hash of a name. -/
def hashName (seName : String) : String :=
  String.ofList (((base32Hex (sha256 (stringBytes seName))).map Char.toLower).take 10)

/-- `DerivedName`. -/
def DerivedName (clusterID ns seName : String) : String :=
  "derived" ++ "-" ++ clusterID ++ "-" ++ ns ++ "-" ++ hashName seName

/-- The name of a slice's copy in the hub. -/
def hubName (clusterID ns sliceName : String) : String := clusterID ++ "-" ++ ns ++ "-" ++ sliceName

/-! ## Slices -/

/-- `labels.SelectorFromSet(set).Matches`. -/
def matchesLabels (selector : List (String × String)) (labels : GoMap String String) : Bool :=
  selector.all fun kv => labels.lookup kv.1 = some kv.2

/-- The outcomes of the calls of one attempt to apply a slice. -/
structure SliceApplyEnv where
  createErr : Option ApiError
  getErr : Option ApiError
  updateErr : Option ApiError

/-- What `Create` returns. -/
def SliceApplyEnv.create (env : SliceApplyEnv) (slices : GoMap String EndpointSlice)
    (slice : EndpointSlice) : Option ApiError :=
  match env.createErr, slices.lookup slice.name with
  | some e, _ => some e
  | none, some _ => some .alreadyExists
  | none, none => none

/-- What `Get` returns. -/
def SliceApplyEnv.get (env : SliceApplyEnv) (slices : GoMap String EndpointSlice)
    (slice : EndpointSlice) : Except ApiError EndpointSlice :=
  match env.getErr, slices.lookup slice.name with
  | some e, _ => .error e
  | none, some curObj => .ok curObj
  | none, none => .error .notFound

section

variable (createPatch : CreatePatch EndpointSlice)

/-- The attempt of `ApplyEndPointSliceWithRetry` from `Get` on. -/
def resyncEndPointSlice (slices : GoMap String EndpointSlice) (slice : EndpointSlice)
    (env : SliceApplyEnv) : GoMap String EndpointSlice × Option ApiError :=
  match env.get slices slice with
  | .error e => (slices, some e)
  | .ok curObj =>
    if ResourceNeedResync (createPatch curObj slice) false then
      match env.updateErr with
      | some e => (slices, some e)
      | none =>
        (slices.insert slice.name
          { curObj with
            ports := slice.ports
            endpoints := slice.endpoints
            addressType := slice.addressType }, none)
    else (slices, none)

/-- One attempt of `ApplyEndPointSliceWithRetry`. -/
def applyEndPointSlice (slices : GoMap String EndpointSlice) (slice : EndpointSlice)
    (env : SliceApplyEnv) : GoMap String EndpointSlice × Option ApiError :=
  match env.create slices slice with
  | none => (slices.insert slice.name slice, none)
  | some .alreadyExists => resyncEndPointSlice createPatch slices slice env
  | some e => (slices, some e)

/-- `ApplyEndPointSliceWithRetry`: an attempt that ends in a conflict is followed
by another one, as long as the backoff has steps. -/
def ApplyEndPointSliceWithRetry (slices : GoMap String EndpointSlice) (slice : EndpointSlice) :
    List SliceApplyEnv → GoMap String EndpointSlice × Option ApiError
  | [] => (slices, some (.other "timed out waiting for the condition"))
  | env :: attempts =>
    match applyEndPointSlice createPatch slices slice env with
    | (slices, some .conflict) =>
      if attempts = [] then (slices, some .conflict)
      else ApplyEndPointSliceWithRetry slices slice attempts
    | r => r

end

/-- The loop of `RemoveNonexistentEndpointslice` over the slices of the target,
by name. -/
def deleteNonexistent (kept : String → Bool) (deleteErr : String → Option Error) :
    List String → GoMap String EndpointSlice → GoMap String EndpointSlice × Option Error
  | [], target => (target, none)
  | name :: names, target =>
    if kept name then deleteNonexistent kept deleteErr names target
    else
      match deleteErr name with
      | some e => (target, some e)
      | none => deleteNonexistent kept deleteErr names (target.erase name)

/-- The outcomes of the calls of `RemoveNonexistentEndpointslice`, and the order
in which the lister lists. -/
structure RemoveEnv where
  srcListErr : Option ApiError
  srcOrder : RangeOrder EndpointSlice
  dstListErr : Option Error
  deleteErr : String → Option Error

/-- The slices that the source lister lists. -/
def srcEndpointSlices (src : List EndpointSlice) (srcNamespace : String)
    (labelMap : List (String × String)) (order : RangeOrder EndpointSlice) : List EndpointSlice :=
  order.visit (src.filter fun item => item.ns = srcNamespace ∧ matchesLabels labelMap item.labels)

/-- `srcEndpointSliceMap[name]`. -/
def srcEndpointSliceMap (srcList : List EndpointSlice) (srcClusterID : String) (nameChanged : Bool)
    (name : String) : Bool :=
  srcList.any fun item =>
    name = if nameChanged then hubName srcClusterID item.ns item.name else item.name

/-- `RemoveNonexistentEndpointslice`, from the list of the source's slices on. An
error of listing the target is dropped. -/
def removeNonexistent (srcList : List EndpointSlice) (srcClusterID : String)
    (target : GoMap String EndpointSlice) (dstLabelMap : List (String × String)) (nameChanged : Bool)
    (env : RemoveEnv) : GoMap String EndpointSlice × Except Error (List EndpointSlice) :=
  match env.dstListErr with
  | some _ => (target, .ok srcList)
  | none =>
    let items := (target.entries.filter fun e => matchesLabels dstLabelMap e.2.labels).map (·.1)
    match deleteNonexistent (srcEndpointSliceMap srcList srcClusterID nameChanged) env.deleteErr
        items target with
    | (target, some e) => (target, .error e)
    | (target, none) => (target, .ok srcList)

/-- `RemoveNonexistentEndpointslice`. -/
def RemoveNonexistentEndpointslice (src : List EndpointSlice) (srcClusterID srcNamespace : String)
    (labelMap : List (String × String)) (target : GoMap String EndpointSlice)
    (dstLabelMap : List (String × String)) (nameChanged : Bool) (env : RemoveEnv) :
    GoMap String EndpointSlice × Except Error (List EndpointSlice) :=
  match env.srcListErr with
  | none =>
    removeNonexistent (srcEndpointSlices src srcNamespace labelMap env.srcOrder) srcClusterID target
      dstLabelMap nameChanged env
  | some .notFound => removeNonexistent [] srcClusterID target dstLabelMap nameChanged env
  | some e => (target, .error e.text)

/-! ## Applying a list of slices -/

/-- What the goroutines of a `Handle` leave: the slices, the errors of the
channel, and the variable `err` that all of them assign. -/
structure ApplyResult where
  slices : GoMap String EndpointSlice
  allErrs : List Error
  err : Option Error

/-- Where a goroutine is: before `err = ApplyEndPointSliceWithRetry(..)`, before
`err != nil`, or at its end. -/
inductive Phase
  | applying | checking | finished
  deriving DecidableEq, Repr

/-- The goroutines between two turns. -/
structure Goroutines where
  result : ApplyResult
  phase : Nat → Phase

section

variable (createPatch : CreatePatch EndpointSlice)
  (newSlices : List EndpointSlice) (applies : String → List SliceApplyEnv)

/-- A turn of the goroutine of the slice at `i`. The check reads the shared `err`,
whoever assigned it last. -/
def Goroutines.turn (g : Goroutines) (i : Nat) : Goroutines :=
  match newSlices[i]?, g.phase i with
  | some slice, .applying =>
    let r := ApplyEndPointSliceWithRetry createPatch g.result.slices slice (applies slice.name)
    ⟨{ g.result with slices := r.1, err := r.2.map ApiError.text },
      Function.update g.phase i .checking⟩
  | some _, .checking =>
    ⟨{ g.result with allErrs := g.result.allErrs ++ g.result.err.toList },
      Function.update g.phase i .finished⟩
  | _, _ => g

/-- The goroutines of a `Handle`, in the order of the turns and then one after the
other until all are finished. -/
def applySlices (slices : GoMap String EndpointSlice) (turns : List Nat) : ApplyResult :=
  let rest := List.range newSlices.length
  ((turns ++ rest ++ rest).foldl (Goroutines.turn createPatch newSlices applies)
    ⟨⟨slices, [], none⟩, fun _ => .applying⟩).result

end

end Fleetboard.Mcs
