import Curator.Table
/-!
Why a request fails. Every cause has one text.
-/

set_option autoImplicit false

namespace Curator

inductive ActionError where
  | exceedsInt64 (column : String)
  | exceedsInt32 (column : String) (total : Int)
deriving DecidableEq, Repr

def ActionError.message : ActionError → String
  | .exceedsInt64 column => s!"{column} overflows int64"
  | .exceedsInt32 column total => s!"{column} = {total} overflows int32"

inductive SplitError where
  | illegalWeights (layer : Option String) (weights : List Float)
  | zeroTotal (layer : Option String)
  | noArms (layer : String)
deriving DecidableEq, Repr

def SplitError.inLayer : Option String → String
  | some layer => s!"layer {layer}: "
  | none => ""

def SplitError.message : SplitError → String
  | .illegalWeights layer weights =>
      let listed := String.intercalate ", " (weights.map (Decimal.write Decimal.weightLayout))
      s!"{inLayer layer}weights must be finite and non-negative: [{listed}]"
  | .zeroTotal layer => s!"{inLayer layer}sum of weights is zero"
  | .noArms layer => s!"layer {layer} has no experiments"

inductive DataFault where
  | illTyped (error : SchemaError)
  | notRecords
  | noSource
  | notTaskNames
deriving DecidableEq, Repr

def DataFault.message : DataFault → String
  | .illTyped error => error.message
  | .notRecords => "expected a list of records"
  | .noSource => "no data supplied and no local source"
  | .notTaskNames => "expected a list of task names"

inductive ExecutionFault where
  | action (error : ActionError)
  | noOutput
  | noPipelineOutput
  | replacement (reason : String)
deriving DecidableEq, Repr

def ExecutionFault.message : ExecutionFault → String
  | .action error => error.message
  | .noOutput => "taskService execute fail!"
  | .noPipelineOutput => "no task in the pipeline produced output"
  | .replacement reason => reason

-- The causes of a backend's failure, the root first; the text goes from the outermost inwards.
abbrev Causes := List String

def Causes.message (causes : Causes) : String := String.intercalate ": " causes.reverse

inductive ScoringFault where
  | backend (causes : Causes)
  | miscounted (scores candidates : Nat)
deriving DecidableEq, Repr

def ScoringFault.message : ScoringFault → String
  | .backend causes => Causes.message causes
  | .miscounted scores candidates => s!"{scores} scores for {candidates} candidates"

inductive AddressFault where
  | emptyText
  | invalidCharacter
  | invalidScheme
  | schemeTooLong
  | invalidAuthority
  | invalidFormat
  | tooLong
deriving DecidableEq, Repr

def AddressFault.message : AddressFault → String
  | .emptyText => "empty string"
  | .invalidCharacter => "invalid uri character"
  | .invalidScheme => "invalid scheme"
  | .schemeTooLong => "scheme too long"
  | .invalidAuthority => "invalid authority"
  | .invalidFormat => "invalid format"
  | .tooLong => "uri too long"

inductive ModelFault where
  | badAddress (address : String) (fault : AddressFault)
  | unreachable (reason : String)
  | refused (status : String)
  | miscounted
deriving DecidableEq, Repr

def ModelFault.message : ModelFault → String
  | .badAddress address fault => s!"Failed to connect to ML service: {address}: {fault.message}"
  | .unreachable reason => s!"Failed to connect to ML service: {reason}"
  | .refused status => s!"Failed to score candidates: {status}"
  | .miscounted =>
      "Invalid response from ML service: Number of scores does not match number of rows"

inductive RegistryFault where
  | unconfigured (task : String)
  | kindMismatch (task configured given : String)
  | unknownModel (experiment model : String)
  | badAddress (experiment address : String) (fault : AddressFault)
deriving DecidableEq, Repr

def RegistryFault.message : RegistryFault → String
  | .unconfigured task => s!"task {task} is not configured"
  | .kindMismatch task configured given => s!"task {task} is configured as {configured}, not {given}"
  | .unknownModel experiment model => s!"experiment {experiment}: model {model} is not configured"
  | .badAddress experiment address fault =>
      s!"experiment {experiment}: {(ModelFault.badAddress address fault).message}"

inductive Failure where
  | taskNotFound (task : String)
  | sceneNotFound (scene : String)
  | missingData (task dependency : String) (fault : DataFault)
  | missingSubject (scene : String)
  | invalidSplit (error : SplitError)
  | executionFailed (task : String) (fault : ExecutionFault)
  | timedOut (task : String) (limit : Nat)
  | schema (task : String) (error : SchemaError)
  | source (name : String) (causes : Causes)
  | scoring (model : String) (fault : ScoringFault)
  | registry (fault : RegistryFault)
  | unfinished
deriving DecidableEq, Repr

def Failure.message : Failure → String
  | .taskNotFound task => s!"task {task} is not exist"
  | .sceneNotFound scene => s!"scene:{scene} is not support!"
  | .missingData task dependency fault => s!"task {task} need depend data {dependency}: {fault.message}"
  | .missingSubject scene => s!"scene:{scene} recommend need id, eg:userId!"
  | .invalidSplit error => s!"invalid bucket config: {error.message}"
  | .executionFailed task fault => s!"task {task} execute fail: {fault.message}"
  | .timedOut task limit => s!"task {task} timed out after {limit} ms"
  | .schema task error => s!"task {task}: {error.message}"
  | .source name causes => s!"data source {name} failed: {Causes.message causes}"
  | .scoring model fault => s!"model {model} failed: {fault.message}"
  | .registry fault => s!"registry: {fault.message}"
  | .unfinished => "unfinished"

end Curator
