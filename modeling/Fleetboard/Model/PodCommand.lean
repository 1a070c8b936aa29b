import Fleetboard.Model.Go

/-!
# The address ranges of a cluster (`utils/pod.go`)

A cluster's ranges of service and pod addresses are read off the command lines of its
control plane: the value of a flag, in the command or the arguments of some container, and
in the environment of this process when no pod has it.
-/

namespace Fleetboard.PodCommand

/-! ## Texts -/

/-- `strings.HasPrefix(s, start)`. -/
def HasPrefix (s start : String) : Bool := start.toList.isPrefixOf s.toList

/-- `strings.Split`, by one character. -/
def Split (s : String) (sep : Char) : List String := (s.toList.splitOn sep).map String.ofList

/-! ## The value of a flag -/

/-- The loop over the words of an argument. -/
def wordsValue (parameter : String) : List String → Go (Option String)
  | [] => .ok none
  | subArg :: subArgs =>
    if HasPrefix subArg parameter then some <$> Go.index (Split subArg '=') 1
    else wordsValue parameter subArgs

/-- `getParameterValue`. -/
def getParameterValue (args : List String) (parameter : String) : Go String :=
  match args with
  | [] => .ok ""
  | arg :: args =>
    if HasPrefix arg parameter then Go.index (Split arg '=') 1
    else if ' ' ∈ arg.toList then do
      match ← wordsValue parameter (Split arg ' ') with
      | some value => pure value
      | none => getParameterValue args parameter
    else getParameterValue args parameter

/-! ## Pods -/

/-- `corev1.Container`, as far as its command line. -/
structure Container where
  Command : List String
  Args : List String
  deriving DecidableEq, Repr

/-- The loop over the containers of the pods. -/
def containersValue (parameter : String) : List Container → Go String
  | [] => .ok ""
  | container :: containers => do
    let val ← getParameterValue container.Command parameter
    if val ≠ "" then return val
    let val ← getParameterValue container.Args parameter
    if val ≠ "" then return val
    containersValue parameter containers

/-- `FindPodCommandParameter`, for the answer of `findPods`: the containers of each pod. -/
def FindPodCommandParameter (pods : Except Error (List (List Container))) (parameter : String) :
    Go (Except Error String) :=
  match pods with
  | .error e => .ok (.error e)
  | .ok pods => .ok <$> containersValue parameter pods.flatten

/-- What the searches see of the cluster: the pods with a label of some key and value, and
the environment. -/
structure ClusterEnv where
  findPods : String → String → Except Error (List (List Container))
  SERVICE_CIDR : String
  CLUSTER_CIDR : String

/-- The loop over label selectors: the first error or value. -/
def selectorsValue (env : ClusterEnv) (parameter : String) :
    List (String × String) → Go (Except Error String)
  | [] => .ok (.ok "")
  | (labelKey, labelValue) :: selectors => do
    match ← FindPodCommandParameter (env.findPods labelKey labelValue) parameter with
    | .error e => return .error e
    | .ok value => if value ≠ "" then return .ok value else selectorsValue env parameter selectors

/-- The end of both searches: the environment, or an error. -/
def orEnv (found : Except Error String) (value : String) (err : Error) : Except Error String :=
  match found with
  | .error e => .error e
  | .ok found => if found ≠ "" then .ok found else if value ≠ "" then .ok value else .error err

/-- `FindClusterServiceIPRange`. -/
def FindClusterServiceIPRange (env : ClusterEnv) : Go (Except Error String) := do
  let found ← selectorsValue env "--service-cluster-ip-range"
    [("component", "kube-apiserver"), ("app.kubernetes.io/component", "kube-apiserver"),
      ("component", "kube-controller-manager"),
      ("app.kubernetes.io/component", "kube-controller-manager")]
  return orEnv found env.SERVICE_CIDR "can't get service ip range"

/-- `FindClusterPodIPRange`. -/
def FindClusterPodIPRange (env : ClusterEnv) : Go (Except Error String) := do
  let found ← selectorsValue env "--cluster-cidr"
    [("component", "kube-controller-manager"),
      ("app.kubernetes.io/component", "kube-controller-manager"), ("k8s-app", "kube-proxy")]
  return orEnv found env.CLUSTER_CIDR "can't get pod ip range"

end Fleetboard.PodCommand
