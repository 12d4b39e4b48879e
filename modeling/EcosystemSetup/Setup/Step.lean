import EcosystemSetup.Config.Validation
import EcosystemSetup.Executor
import EcosystemSetup.Patch.Apply
import EcosystemSetup.Plan.Basic
import EcosystemSetup.Setup.StateStore

/-!
# Steps of a setup

What a setup does, step by step. A step that creates an object counts one that is there already as
done, and leaves it as it is.
-/

namespace EcosystemSetup.Setup

open Cluster

/-- A step of a setup. -/
abbrev SetupStep := Step Program

/-- The label that names a dogu. -/
def doguLabel : String := "dogu.name"

/-- The label that names a component. -/
def componentLabel : String := "k8s.cloudogu.com/component.name"

/-- The outcome of a creation: what is there already counts as created. -/
def createdOutcome (what : String) {c : Collection} :
    Except AccessError (Object c) → Except Failure Unit
  | .ok _ => .ok ()
  | .error e =>
    if e.isAlreadyExists then .ok () else .error (e.toFailure.context ("creating " ++ what))

/-- Creates an object unless there is one of its name. -/
def createOnce {c : Collection} (o : Object c) (what : String) : Program (Except Failure Unit) := do
  return createdOutcome what (← Program.ask (.create c o))

/-! ## Before the dogus -/

/-- A configuration error as a failure. -/
def configFailure (e : ConfigError) : Failure :=
  ⟨e.message, e.cause?.toList⟩

/-- Checks the configuration. -/
def validateConfiguration (c : Config) : SetupStep where
  description := "validate setup configuration"
  perform := .done (c.validate.mapError configFailure)

/-- The namespace of the setup. -/
def namespaceObject (name : String) : Object .namespaces :=
  { metadata := { name := some name, labels := some StateStore.appLabels }, body := () }

/-- Creates the namespace. -/
def createNamespace (name : String) : SetupStep where
  description := "create namespace " ++ name
  perform := createOnce (namespaceObject name) ("namespace " ++ name)

/-- The resource of a component. -/
def componentObject (namespaceName : String) (e : Config.ComponentEntry) : Object .components :=
  { metadata :=
      { name := some e.name, namespaceName := some namespaceName
        labels := some (Assoc.set componentLabel e.name StateStore.appLabels) }
    body :=
      { name := e.name, helmNamespace := e.helmNamespace, version := e.version
        deployNamespace := e.deployNamespace } }

/-- Creates the resource of a component; its operator does the rest. -/
def installComponent (namespaceName : String) (e : Config.ComponentEntry) : SetupStep where
  description := "install component " ++ e.name ++ " (" ++ e.version ++ ")"
  perform := createOnce (componentObject namespaceName e) ("component " ++ e.name)

/-! ## Waiting -/

/-- Waits for a goal. -/
def reach (goal : Wait.Goal) : Program (Except Failure Unit) := do
  return (← Program.reach goal).mapError Wait.WaitError.toFailure

/-- A dogu is ready once one of its pods is. -/
def doguGoal (settings : Wait.Settings) (target : String) : Wait.Goal where
  collection := .pods
  target := .labelled doguLabel target
  predicate := Wait.podReady
  settings
  timeout := settings.timeout

/-- A component is ready once its operator reports it as healthy. -/
def componentGoal (settings : Wait.Settings) (target : String) : Wait.Goal where
  collection := .components
  target := .named target componentLabel
  predicate := Wait.componentHealthy
  settings
  timeout := settings.timeout

/-! ## Dogus -/

/-- The resource of a dogu. -/
def doguObject (namespaceName : String) (d : Dogu.Descriptor) : Object .dogus :=
  { metadata :=
      { name := some d.simpleName, namespaceName := some namespaceName
        labels := some (Assoc.set doguLabel d.simpleName StateStore.appLabels) }
    body := { name := d.name, version := d.version } }

/-- Performs a planned step. -/
def performPlanned (namespaceName : String) (settings : Wait.Settings) :
    Plan.PlannedStep → Program (Except Failure Unit)
  | .installDogu d => createOnce (doguObject namespaceName d) ("dogu resource " ++ d.name)
  | .awaitDogu target => reach (doguGoal settings target)
  | .awaitComponent target => reach (componentGoal settings target)

/-- The step of a plan. -/
def planned (namespaceName : String) (settings : Wait.Settings) (s : Plan.PlannedStep) :
    SetupStep where
  description := s.description
  perform := performPlanned namespaceName settings s

/-! ## The configuration of the dogus -/

/-- The config map that dogus read at their start. -/
def configMapName : String := "k8s-ces-config"

/-- The simple name of the default dogu. -/
def defaultDoguName (c : Config) : String :=
  Dogu.simpleName c.defaultDogu

/-- The selection of dogus, in a map. -/
def withSelection (c : Config) (data : TextMap) : TextMap :=
  Assoc.set "dogus" (String.intercalate "\n" c.dogus.install)
    (Assoc.set "default_dogu" (defaultDoguName c) data)

/-- A new map with the selection. -/
def freshConfigMap (c : Config) : Object .configMaps :=
  { metadata :=
      { name := some configMapName, namespaceName := some c.namespaceName
        labels := some StateStore.appLabels }
    body := { data := some (withSelection c []) } }

/-- Adds the selection to a map that was read. -/
def mergeSelection (c : Config) (m : Object .configMaps) : Program (Except Failure Unit) := do
  let merged : Object .configMaps :=
    { m with body := { data := some (withSelection c (m.body.data.getD [])) } }
  match ← Program.ask (.update .configMaps merged) with
  | .ok _ => return .ok ()
  | .error e => return .error (e.toFailure.context ("updating config map " ++ configMapName))

/-- A failed read of the map. -/
def readingConfigMap (e : AccessError) : Failure :=
  e.toFailure.context ("reading config map " ++ configMapName)

/-- Reads the map once more, after another client has created it, and adds the selection. -/
def mergeConcurrent (c : Config) : Program (Except Failure Unit) := do
  match ← Program.ask (.get .configMaps configMapName) with
  | .ok m => mergeSelection c m
  | .error e => return .error (readingConfigMap e)

/-- Creates the map, or adds to the one that another client has created meanwhile. -/
def createConfigMap (c : Config) : Program (Except Failure Unit) := do
  match ← Program.ask (.create .configMaps (freshConfigMap c)) with
  | .ok _ => return .ok ()
  | .error e =>
    if e.isAlreadyExists then mergeConcurrent c
    else return .error (e.toFailure.context ("creating config map " ++ configMapName))

/-- Writes the selection of dogus into the map. -/
def storeSelection (c : Config) : Program (Except Failure Unit) := do
  match ← Program.ask (.get .configMaps configMapName) with
  | .ok m => mergeSelection c m
  | .error e =>
    if e.isNotFound then createConfigMap c else return .error (readingConfigMap e)

/-- Writes the selection of dogus where the dogus read it. -/
def writeConfiguration (c : Config) : SetupStep where
  description := "write setup configuration to " ++ configMapName
  perform := storeSelection c

/-! ## The load balancer -/

/-- The service in front of the dogus. -/
def loadbalancerName : String := "ces-loadbalancer"

/-- A port that is passed on unchanged. -/
def loadbalancerPort (port : Int) : ServicePort where
  name := some (toString port ++ "-tcp")
  port
  targetPort := some (.number port)
  protocol := some "TCP"

/-- The service that exposes the ingress dogu. -/
def loadbalancerObject (namespaceName : String) (l : Config.Loadbalancer) : Object .services :=
  { metadata :=
      { name := some loadbalancerName, namespaceName := some namespaceName
        labels := some StateStore.appLabels }
    body :=
      { spec := some
          { type := some "LoadBalancer", selector := some [(doguLabel, l.targetDogu)]
            ports := some (l.ports.map loadbalancerPort) } } }

/-- Creates the load balancer. -/
def createLoadbalancer (namespaceName : String) (l : Config.Loadbalancer) : SetupStep where
  description := "create loadbalancer service " ++ loadbalancerName
  perform := createOnce (loadbalancerObject namespaceName l) ("service " ++ loadbalancerName)

/-! ## Patches -/

/-- Applies the patches of a phase. -/
def patchPhase (c : Config) (phase : Phase) : SetupStep where
  description := "apply resource patches for phase " ++ phase.name
  perform := do
    return (← Patch.apply c.namespaceName phase c.patches).mapError Patch.PhaseError.toFailure

end EcosystemSetup.Setup
