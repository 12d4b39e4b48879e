import EcosystemSetup.Cluster.Hub
import EcosystemSetup.Cluster.Store
import EcosystemSetup.Program.World

/-!
# Sandboxes

A cluster in memory: a store for each of the six collections and a hub for all other kinds. For every
collection and method there may be a queue of faults; each call takes the next entry, and a fault is
answered without the store being touched.
-/

namespace EcosystemSetup.Cluster

/-- A queue of faults: for each coming call a fault, or none. -/
abbrev FaultQueue := List (Option AccessError)

/-- The faults of the calls on one collection. -/
structure Faults where
  get : FaultQueue := []
  list : FaultQueue := []
  watch : FaultQueue := []
  create : FaultQueue := []
  update : FaultQueue := []
  deriving Repr, Inhabited

/-- A store with its faults. -/
structure Shelf (c : Collection) where
  store : Store c := {}
  faults : Faults := {}
  /-- Whether others get their turn before the answer to a read of an object arrives. -/
  yields : Bool := false

/-- A cluster in memory. -/
structure Sandbox where
  namespaces : Shelf .namespaces := {}
  configMaps : Shelf .configMaps := {}
  services : Shelf .services := {}
  pods : Shelf .pods := {}
  dogus : Shelf .dogus := {}
  components : Shelf .components := {}
  hub : Hub := {}

namespace Sandbox

/-- The shelf of a collection. -/
def shelf (s : Sandbox) : (c : Collection) → Shelf c
  | .namespaces => s.namespaces
  | .configMaps => s.configMaps
  | .services => s.services
  | .pods => s.pods
  | .dogus => s.dogus
  | .components => s.components

/-- Replaces the shelf of a collection. -/
def setShelf (s : Sandbox) : (c : Collection) → Shelf c → Sandbox
  | .namespaces, x => { s with namespaces := x }
  | .configMaps, x => { s with configMaps := x }
  | .services, x => { s with services := x }
  | .pods, x => { s with pods := x }
  | .dogus, x => { s with dogus := x }
  | .components, x => { s with components := x }

@[simp] theorem shelf_setShelf_self (s : Sandbox) (c : Collection) (x : Shelf c) :
    (s.setShelf c x).shelf c = x := by
  cases c <;> rfl

@[simp] theorem shelf_setShelf_ne (s : Sandbox) {c d : Collection} (h : d ≠ c) (x : Shelf c) :
    (s.setShelf c x).shelf d = s.shelf d := by
  cases c <;> cases d <;> first | rfl | exact absurd rfl h

@[simp] theorem hub_setShelf (s : Sandbox) (c : Collection) (x : Shelf c) :
    (s.setShelf c x).hub = s.hub := by
  cases c <;> rfl

/-- The fault of the next call, if it has one. -/
def nextFault : FaultQueue → Option AccessError
  | [] => none
  | f :: _ => f

/-- Answers a call on a store, unless a fault comes first. -/
def faulty {c : Collection} {α : Type} (s : Sandbox) (queue : FaultQueue)
    (setQueue : Faults → FaultQueue → Faults)
    (act : Store c → Except AccessError α × Store c) : Except AccessError α × Sandbox :=
  let x := { s.shelf c with faults := setQueue (s.shelf c).faults queue.tail }
  match nextFault queue with
  | some e => (.error e, s.setShelf c x)
  | none =>
    let r := act x.store
    (r.1, s.setShelf c { x with store := r.2 })

/-- Answers a call. -/
def perform : (k : Call) → Sandbox → k.Reply × Sandbox
  | .get c name, s =>
    s.faulty (s.shelf c).faults.get (fun f q => { f with get := q }) fun x => x.get name
  | .list c selector, s =>
    s.faulty (s.shelf c).faults.list (fun f q => { f with list := q }) fun x => x.list selector
  | .watch c selector version, s =>
    s.faulty (s.shelf c).faults.watch (fun f q => { f with watch := q }) fun x =>
      let r := x.watch selector version
      (.ok r.1, r.2)
  | .create c o, s =>
    s.faulty (s.shelf c).faults.create (fun f q => { f with create := q }) fun x => x.create o
  | .update c o, s =>
    s.faulty (s.shelf c).faults.update (fun f q => { f with update := q }) fun x => x.update o
  | .resolve k, s => (s.hub.resolve k, s)
  | .patch k ns name ops, s =>
    let r := s.hub.patch k ns name ops
    (r.1, { s with hub := r.2 })

/-- Whether others get their turn before the answer to a call arrives. -/
def suspends : Call → Sandbox → Bool
  | .get c _, s => (s.shelf c).yields
  | _, _ => false

/-- The number of watches whose sessions or faults are scripted. -/
def scripted (s : Sandbox) : Nat :=
  let ofShelf {c : Collection} (x : Shelf c) : Nat :=
    x.store.sessions.length + x.faults.watch.length
  ofShelf s.namespaces + ofShelf s.configMaps + ofShelf s.services + ofShelf s.pods +
    ofShelf s.dogus + ofShelf s.components

instance : Backend Sandbox where
  perform := perform
  suspends := suspends
  scripted := scripted

end Sandbox

end EcosystemSetup.Cluster
