import EcosystemSetup.Cluster.Call
import EcosystemSetup.Wait.Readiness
import EcosystemSetup.Wait.Settings
import EcosystemSetup.Wait.Target

/-!
# The course of a wait

A wait reads its target first, again and again while it is not found; then it watches from the version
that it read, and opens the watch again from the last version it heard of whenever the stream breaks.
It ends with the first answer or event that decides it. Time does not pass here: a stage makes one
call, and its answer says how to go on.
-/

namespace EcosystemSetup.Wait

open Cluster

/-- Why a wait ends without its target being ready. -/
inductive WaitError where
  | timeout (target : String) (after : Duration)
  | cancelled (target : String)
  | notFound (target : String) (attempts : Nat)
  | read (target : String) (cause : AccessError)
  | deleted (target : String)
  | expired (target : String) (message : String)
  | failed (target : String) (reason : String)
  deriving DecidableEq, Repr

namespace WaitError

/-- The wording of an error. -/
def message : WaitError → String
  | .timeout target after => "timed out after " ++ after.describe ++ " waiting for " ++ target
  | .cancelled target => "wait for " ++ target ++ " was cancelled"
  | .notFound target attempts =>
    target ++ " did not appear after " ++ toString attempts ++ " reads"
  | .read target cause => "reading " ++ target ++ ": " ++ cause.message
  | .deleted target => target ++ " was deleted while waiting for it"
  | .expired target message => "watch on " ++ target ++ " expired: " ++ message
  | .failed target reason => target ++ " failed: " ++ reason

/-- The error as a failure. -/
def toFailure (e : WaitError) : Failure :=
  match e with
  | .read _ cause => ⟨e.message, cause.toFailure.chain⟩
  | _ => ⟨e.message, []⟩

end WaitError

/-- How a wait ends. -/
abbrev Outcome := Except WaitError Unit

/-- What a wait is to achieve, and how. -/
structure Goal where
  collection : Collection
  target : Target
  predicate : Object collection → Readiness
  settings : Settings
  /-- The longest the wait may take. -/
  timeout : Duration

/-- The next call of a wait. -/
inductive Stage where
  /-- Reads the target for the `attempt`-th time, counted from one. -/
  | reading (attempt : Nat)
  /-- Opens a watch from a version. -/
  | opening (version : String)
  deriving DecidableEq, Repr

/-- How a wait goes on after a call. -/
inductive Next where
  | proceed (stage : Stage)
  | pause (d : Duration) (stage : Stage)
  /-- The stream stays open and delivers nothing more. -/
  | silence
  | finish (outcome : Outcome)

/-- A call of a wait, and how the wait goes on after its answer. -/
structure Move where
  call : Call
  next : call.Reply → Next

namespace Goal

/-- The name of the target in errors. -/
def targetText (g : Goal) : String :=
  g.target.describe

/-- Whether an object is the target, or one of the targets. -/
def concerns (g : Goal) (o : Object g.collection) : Bool :=
  match g.target.name with
  | some n => o.name == n
  | none => true

/-! ## Reading -/

/-- How the wait goes on after a read that found objects at a version. -/
def afterFound (g : Goal) (items : List (Object g.collection)) (version : String) : Next :=
  match judge g.predicate items with
  | .ready => .finish (.ok ())
  | .failed reason => .finish (.error (.failed g.targetText reason))
  | .pending => .proceed (.opening version)

/-- How the wait goes on after a read that failed. -/
def afterReadError (g : Goal) (attempt : Nat) (e : AccessError) : Next :=
  if e.isNotFound then
    if g.settings.maxReadAttempts ≤ attempt then
      .finish (.error (.notFound g.targetText attempt))
    else .pause (g.settings.backoff attempt) (.reading (attempt + 1))
  else .finish (.error (.read g.targetText e))

/-! ## Watching -/

/-- What an event means for a wait that watches from a version. -/
inductive Reaction where
  /-- Goes on, from now on at a version. -/
  | goOn (version : String)
  /-- Gives up this stream. -/
  | reopen
  | decide (outcome : Outcome)

/-- What a change of an object means. -/
def afterChange (g : Goal) (version : String) (o : Object g.collection) : Reaction :=
  if g.concerns o then
    match g.predicate o with
    | .ready => .decide (.ok ())
    | .failed reason => .decide (.error (.failed g.targetText reason))
    | .pending => .goOn (o.metadata.resourceVersion.getD version)
  else .goOn version

/-- What an event means. -/
def react (g : Goal) (version : String) : Event g.collection → Reaction
  | .added o => g.afterChange version o
  | .modified o => g.afterChange version o
  | .deleted o =>
    if g.concerns o then .decide (.error (.deleted g.targetText)) else .goOn version
  | .bookmark v => .goOn v
  | .error s =>
    if s.isExpired then .decide (.error (.expired g.targetText s.message)) else .reopen

/-- What came of listening to a stream. -/
inductive Heard where
  | decided (outcome : Outcome)
  /-- The stream broke; the last version heard of. -/
  | broken (version : String)
  /-- Every item was heard; the last version heard of. -/
  | drained (version : String)

/-- Listens to the items of a stream until one decides or breaks it. -/
def listen (g : Goal) (version : String) : Session g.collection → Heard
  | [] => .drained version
  | .error _ :: _ => .broken version
  | .ok e :: rest =>
    match g.react version e with
    | .goOn v => g.listen v rest
    | .reopen => .broken version
    | .decide outcome => .decided outcome

/-- How the wait goes on after a broken watch. -/
def reopen (g : Goal) (version : String) : Next :=
  .pause g.settings.retryPause (.opening version)

/-- How the wait goes on after opening a watch. -/
def afterOpen (g : Goal) (version : String) :
    Except AccessError (Stream g.collection) → Next
  | .error _ => g.reopen version
  | .ok stream =>
    match g.listen version stream.items with
    | .decided outcome => .finish outcome
    | .broken v => g.reopen v
    | .drained v => if stream.ends then g.reopen v else .silence

/-! ## Stages -/

/-- How the wait goes on after the answer to a named read. -/
def afterGet (g : Goal) (attempt : Nat) : Except AccessError (Object g.collection) → Next
  | .ok o => g.afterFound [o] (o.metadata.resourceVersion.getD "")
  | .error e => g.afterReadError attempt e

/-- How the wait goes on after the answer to a listing read. -/
def afterList (g : Goal) (attempt : Nat) : Except AccessError (Snapshot g.collection) → Next
  | .ok s => g.afterFound s.items s.version
  | .error e => g.afterReadError attempt e

/-- The call of a stage, and how the wait goes on after its answer. -/
def move (g : Goal) : Stage → Move
  | .reading attempt =>
    match g.target.name with
    | some n => ⟨.get g.collection n, g.afterGet attempt⟩
    | none => ⟨.list g.collection g.target.selector, g.afterList attempt⟩
  | .opening version => ⟨.watch g.collection g.target.selector version, g.afterOpen version⟩

end Goal

end EcosystemSetup.Wait
