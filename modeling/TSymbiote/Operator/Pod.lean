import TSymbiote.Lib.Maps

/-! # Pods

The parts of a pod that the webhook and the controllers read or write.
-/

namespace TSymbiote.Operator

inductive QuantityFormat where
  | decimalExponent
  | decimalSI
  | binarySI
  deriving DecidableEq, Repr

/-- Quantities are kept to nine decimal places. -/
structure Quantity where
  nano : Int
  format : QuantityFormat
  deriving DecidableEq, Repr

def newMilliQuantity (value : Int) (format : QuantityFormat) : Quantity := ⟨1000000 * value, format⟩

def newQuantity (value : Int) (format : QuantityFormat) : Quantity := ⟨1000000000 * value, format⟩

/-- A map is none when it is nil. -/
structure ResourceRequirements where
  requests : Option (GoMap Quantity) := none
  limits : Option (GoMap Quantity) := none
  deriving DecidableEq

structure EnvFromSource where
  configMapRef : Option String := none
  secretRef : Option String := none
  deriving DecidableEq, Repr

/-- An environment variable with a value of its own or one from a field. -/
structure EnvVar where
  name : String
  value : String := ""
  fieldPath : Option String := none
  deriving DecidableEq, Repr

structure Container where
  name : String
  image : String := ""
  imagePullPolicy : String := ""
  addedCapabilities : List String := []
  command : List String := []
  args : List String := []
  envFrom : List EnvFromSource := []
  env : List EnvVar := []
  resources : ResourceRequirements := {}
  deriving DecidableEq

/-- `labels` is none for a nil map. A pod with a `generateName` may come without
a name. -/
structure Pod where
  name : String
  generateName : String := ""
  ns : String
  uid : Nat
  labels : Option (GoMap String) := none
  shareProcessNamespace : Option Bool := none
  containers : List Container
  deriving DecidableEq

end TSymbiote.Operator
