import EcosystemSetup.Assoc
import EcosystemSetup.Dogu.Descriptor

/-!
# The order of installation

Dogus are installed after the dogus they depend on; among those whose dependencies are installed the
qualified name decides. The order is found by counting: every dogu starts with the number of its
listed dependencies, installing one lowers the counts of its dependents, and a dogu whose count
reaches zero becomes ready. Dogus whose count never reaches zero are stuck.
-/

namespace EcosystemSetup.Plan

open Dogu

/-- Where the last descriptor with a simple name stands. -/
def lastIndex? (dogus : List Descriptor) (simple : String) : Option Nat :=
  (dogus.zipIdx.reverse.find? fun p => p.1.simpleName = simple).map Prod.snd

/-- The places of the listed dogus that a descriptor depends on, each once. -/
def needs (dogus : List Descriptor) (d : Descriptor) : List Nat :=
  (d.doguDependencies.filterMap (lastIndex? dogus)).eraseDups

/-- The places of the dogus that depend on the dogu at a place, in ascending order. -/
def dependents (dogus : List Descriptor) (i : Nat) : List Nat :=
  (dogus.zipIdx.filter fun p => (needs dogus p.1).contains i).map Prod.snd

/-- A stage of the search for an order. -/
structure Stage where
  /-- For every place, how many of its needs are not installed yet. -/
  pending : List Nat
  /-- The places that are ready, by qualified name in ascending order. -/
  ready : List (String × Nat)
  /-- The places installed so far, the last one first. -/
  installed : List Nat
  deriving Repr

/-- The name at a place. -/
def nameAt (dogus : List Descriptor) (i : Nat) : String :=
  (dogus[i]?.map Descriptor.name).getD ""

/-- The first stage: whoever needs nothing is ready. -/
def Stage.initial (dogus : List Descriptor) : Stage :=
  let pending := dogus.map fun d => (needs dogus d).length
  let free := (pending.zipIdx.filter fun p => p.1 = 0).map Prod.snd
  ⟨pending, Assoc.ofList (free.map fun i => (nameAt dogus i, i)), []⟩

/-- Lowers the count of one dependent; at zero it becomes ready. -/
def Stage.lower (dogus : List Descriptor) (s : Stage) (j : Nat) : Stage :=
  let count := (s.pending[j]?.getD 0) - 1
  { s with
    pending := s.pending.set j count
    ready := if count = 0 then Assoc.set (nameAt dogus j) j s.ready else s.ready }

/-- Installs the first ready dogu. -/
def Stage.next (dogus : List Descriptor) (s : Stage) : Option Stage :=
  match s.ready with
  | [] => none
  | (_, i) :: rest =>
    some ((dependents dogus i).foldl (Stage.lower dogus)
      { s with ready := rest, installed := i :: s.installed })

/-- Installs ready dogus while there are some, at most `fuel` of them. -/
def Stage.run (dogus : List Descriptor) : Nat → Stage → Stage
  | 0, s => s
  | fuel + 1, s =>
    match s.next dogus with
    | some t => Stage.run dogus fuel t
    | none => s

/-- The last stage. No dogu becomes ready twice, so there is one step for each at most. -/
def lastStage (dogus : List Descriptor) : Stage :=
  Stage.run dogus dogus.length (Stage.initial dogus)

/-- The names of the dogus with needs left, in ascending order. -/
def stuck (dogus : List Descriptor) (s : Stage) : List String :=
  (((s.pending.zipIdx.filter fun p => 0 < p.1).map fun p => nameAt dogus p.2).mergeSort
    fun a b => a ≤ b)

/-- The dogus in the order of installation, or the names of those that are stuck. -/
def sortByDependencies (dogus : List Descriptor) : Except (List String) (List Descriptor) :=
  let s := lastStage dogus
  if s.installed.length = dogus.length then .ok (s.installed.reverse.filterMap (dogus[·]?))
  else .error (stuck dogus s)

end EcosystemSetup.Plan
