import EcosystemSetup.Cluster.Event
import EcosystemSetup.Cluster.Selector

/-!
# Stores

A collection kept in memory. Objects are kept by name; each write counts the revision up and stamps
the object with it; an update that carries a version must carry the current one. Watches replay
scripted sessions in order, and stay open without events once the script is exhausted.
-/

namespace EcosystemSetup.Cluster

/-- A collection in memory. -/
structure Store (c : Collection) where
  /-- The objects by name, in name order. -/
  objects : List (String × Object c) := []
  /-- Errors for the next reads, in order. -/
  readErrors : List AccessError := []
  /-- Sessions for the next watches, in order. -/
  sessions : List (Session c) := []
  /-- Selector and version of every watch opened so far. -/
  watches : List (String × String) := []
  /-- How many reads there were. -/
  reads : Nat := 0
  created : List (Object c) := []
  updated : List (Object c) := []
  revision : Nat := 0

namespace Store

variable {c : Collection}

instance : Inhabited (Store c) := ⟨{}⟩

/-- The object of a name. -/
def object? (s : Store c) (name : String) : Option (Object c) :=
  Assoc.get? name s.objects

/-- Puts an object in its place as it is. -/
def insert (s : Store c) (o : Object c) : Store c :=
  { s with objects := Assoc.set o.name o s.objects, revision := s.revision + 1 }

/-- Lets the next read fail. -/
def failNextRead (s : Store c) (e : AccessError) : Store c :=
  { s with readErrors := s.readErrors ++ [e] }

/-- Adds a session for a coming watch. -/
def pushSession (s : Store c) (session : Session c) : Store c :=
  { s with sessions := s.sessions ++ [session] }

/-- Counts a read, which may have an error waiting for it. -/
def countRead {α : Type} (s : Store c) (answer : Except AccessError α) :
    Except AccessError α × Store c :=
  let s := { s with reads := s.reads + 1 }
  match s.readErrors with
  | e :: rest => (.error e, { s with readErrors := rest })
  | [] => (answer, s)

/-- What the store holds under a name. -/
def lookUp (s : Store c) (name : String) : Except AccessError (Object c) :=
  match s.object? name with
  | some o => .ok o
  | none => .error (.notFound name)

/-- The objects that a selector matches, in name order. -/
def snapshot (s : Store c) (selector : String) : Snapshot c :=
  { items := (s.objects.map Prod.snd).filter fun o => selects selector o.labels
    version := toString s.revision }

/-- Reads an object. -/
def get (s : Store c) (name : String) : Except AccessError (Object c) × Store c :=
  s.countRead (s.lookUp name)

/-- Reads the objects that a selector matches. -/
def list (s : Store c) (selector : String) : Except AccessError (Snapshot c) × Store c :=
  s.countRead (.ok (s.snapshot selector))

/-- Opens a watch. -/
def watch (s : Store c) (selector version : String) : Stream c × Store c :=
  let s := { s with watches := s.watches ++ [(selector, version)] }
  match s.sessions with
  | session :: rest => (⟨session, true⟩, { s with sessions := rest })
  | [] => (⟨[], false⟩, s)

/-- The object as the next write stores it. -/
def stamped (s : Store c) (o : Object c) : Object c :=
  o.atVersion (toString (s.revision + 1))

/-- The store after a write. -/
def write (s : Store c) (o : Object c) : Store c :=
  { s with objects := Assoc.set o.name (s.stamped o) s.objects, revision := s.revision + 1 }

/-- Creates an object, unless there is one of its name. -/
def create (s : Store c) (o : Object c) : Except AccessError (Object c) × Store c :=
  match s.object? o.name with
  | some _ => (.error (.alreadyExists o.name), s)
  | none => (.ok (s.stamped o), { s.write o with created := s.created ++ [s.stamped o] })

/-- Why an update of a held object is stale: both carry a version, and not the same one. -/
def staleness? (sent held : Object c) : Option String :=
  match sent.metadata.resourceVersion, held.metadata.resourceVersion with
  | some s, some h =>
    if s = h then none
    else some ("resource version " ++ s ++ " is stale, current is " ++ h)
  | _, _ => none

/-- Updates an object, which must be there and not be stale. -/
def update (s : Store c) (o : Object c) : Except AccessError (Object c) × Store c :=
  match s.object? o.name with
  | none => (.error (.notFound o.name), s)
  | some held =>
    match staleness? o held with
    | some detail => (.error (.conflict o.name detail), s)
    | none => (.ok (s.stamped o), { s.write o with updated := s.updated ++ [s.stamped o] })

@[simp] theorem object?_write_self (s : Store c) (o : Object c) :
    (s.write o).object? o.name = some (s.stamped o) := by
  simp [write, object?]

@[simp] theorem object?_write_ne (s : Store c) (o : Object c) {name : String} (h : name ≠ o.name) :
    (s.write o).object? name = s.object? name := by
  simp [write, object?, h]

end Store

end EcosystemSetup.Cluster
