import EcosystemSetup.Proofs.Observations

/-!
# Reconnections

What a wait has observed decides how it ends, whoever has answered its calls and however often its watch
was opened. Any wait that ends of its own accord can be replayed on the script of the answers that it
got. On a script it makes no difference how many watches are refused between the sessions and where a
session is cut, as long as the cut does not lie behind the item that breaks the session: nothing behind
that item is ever heard, and a cut there would bring it back.
-/

namespace EcosystemSetup.Wait

open Cluster

/-! ## Cut sessions and refused watches -/

/-- The same watches, but for sessions that are cut where they are still listened to, and for watches
that are refused. -/
inductive Reconnected {c : Collection} (opens : List (Except AccessError (Session c))) :
    List (Except AccessError (Session c)) → Prop where
  | same : Reconnected opens opens
  | cut {before after : List (Except AccessError (Session c))} {first second : Session c}
      (whole : Reconnected opens (before ++ .ok (first ++ second) :: after))
      (unbroken : ∀ x ∈ first, breaks x = false) :
      Reconnected opens (before ++ .ok first :: .ok second :: after)
  | refused {before after : List (Except AccessError (Session c))} (cause : AccessError)
      (without : Reconnected opens (before ++ after)) :
      Reconnected opens (before ++ .error cause :: after)

/-- What follows items that do not break a session is heard after them. -/
theorem heard_append {c : Collection} {first second : Session c}
    (h : ∀ x ∈ first, breaks x = false) : heard (first ++ second) = heard first ++ heard second := by
  induction first with
  | nil => rfl
  | cons x rest ih =>
    have hx : breaks x = false := h x List.mem_cons_self
    have hrest : heard (rest ++ second) = heard rest ++ heard second :=
      ih fun y hy => h y (List.mem_cons_of_mem _ hy)
    cases x with
    | error e => simp [breaks] at hx
    | ok e =>
      rw [List.cons_append, heard_cons_of_not_breaks hx, hrest, heard_cons_of_not_breaks hx]
      rfl

/-- Reconnecting leaves what is observed of the watches as it is. -/
theorem Reconnected.flatMap_watched {c : Collection}
    {opens others : List (Except AccessError (Session c))} (h : Reconnected opens others) :
    others.flatMap watched = opens.flatMap watched := by
  induction h with
  | same => rfl
  | @cut before after first second _ unbroken ih =>
    rw [← ih]
    simp [watched, heard_append unbroken]
  | @refused before after cause _ ih =>
    rw [← ih]
    simp [watched]

/-! ## Recordings -/

/-- The result of a read of an object of a collection. -/
def got? (c : Collection) : Exchange → Option (Except AccessError (Object c))
  | ⟨_, .get d _, reply⟩ => if h : d = c then some (h ▸ reply) else none
  | _ => none

/-- The result of a listing of a collection. -/
def listed? (c : Collection) : Exchange → Option (Except AccessError (Snapshot c))
  | ⟨_, .list d _, reply⟩ => if h : d = c then some (h ▸ reply) else none
  | _ => none

/-- What came of opening a watch on a collection. -/
def opened? (c : Collection) : Exchange → Option (Except AccessError (Session c))
  | ⟨_, .watch d _ _, reply⟩ => if h : d = c then some (h ▸ reply.map Stream.items) else none
  | _ => none

namespace Script

variable {c : Collection} {time : Nat} {rest : List Exchange}

/-- The script of the answers in some exchanges. -/
def recorded (c : Collection) (xs : List Exchange) : Script c where
  gets := xs.filterMap (got? c)
  lists := xs.filterMap (listed? c)
  opens := xs.filterMap (opened? c)

theorem get_recorded {name : String} {reply : Except AccessError (Object c)} :
    (recorded c (⟨time, .get c name, reply⟩ :: rest)).get name = (reply, recorded c rest) := by
  have hgot : got? c ⟨time, .get c name, reply⟩ = some reply := by simp [got?]
  rw [recorded, List.filterMap_cons_some hgot, List.filterMap_cons_none (by rfl),
    List.filterMap_cons_none (by rfl)]
  rfl

theorem list_recorded {selector : String} {reply : Except AccessError (Snapshot c)} :
    (recorded c (⟨time, .list c selector, reply⟩ :: rest)).list selector =
      (reply, recorded c rest) := by
  have hlisted : listed? c ⟨time, .list c selector, reply⟩ = some reply := by simp [listed?]
  rw [recorded, List.filterMap_cons_some hlisted, List.filterMap_cons_none (by rfl),
    List.filterMap_cons_none (by rfl)]
  rfl

theorem watch_recorded {selector version : String} {reply : Except AccessError (Stream c)} :
    (recorded c (⟨time, .watch c selector version, reply⟩ :: rest)).watch =
      ((reply.map Stream.items).map fun items => ⟨items, true⟩, recorded c rest) := by
  have hopened : opened? c ⟨time, .watch c selector version, reply⟩ =
      some (reply.map Stream.items) := by simp [opened?]
  rw [recorded, List.filterMap_cons_some hopened, List.filterMap_cons_none (by rfl),
    List.filterMap_cons_none (by rfl)]
  rfl

end Script

namespace Goal

variable {g : Goal}

/-- A session that ends is listened to like one that stays open, as long as that is not silent. -/
theorem afterOpen_ended (version : String) (reply : Except AccessError (Stream g.collection)) :
    g.afterOpen version ((reply.map Stream.items).map fun items => ⟨items, true⟩) =
        g.afterOpen version reply ∨ g.afterOpen version reply = .silence := by
  cases reply with
  | error e => exact Or.inl rfl
  | ok stream =>
    show g.afterOpen version (.ok ⟨stream.items, true⟩) = _ ∨ _
    unfold afterOpen
    dsimp only
    cases g.listen version stream.items with
    | decided outcome => exact Or.inl rfl
    | broken v => exact Or.inl rfl
    | drained v =>
      cases stream.ends with
      | true => exact Or.inl rfl
      | false => exact Or.inr rfl

/-- A recording answers the next call as it was answered, and is left with the rest. -/
theorem after_recorded {stage : Stage} {time : Nat} {reply : (g.move stage).call.Reply}
    {rest : List Exchange} {w : World (Script g.collection)}
    (hw : w.backend = .recorded g.collection (⟨time, (g.move stage).call, reply⟩ :: rest)) :
    (g.after stage w).2.backend = .recorded g.collection rest ∧
      ((g.after stage w).1 = .ofNext w.clock ((g.move stage).next reply) ∨
        (g.move stage).next reply = .silence) := by
  cases stage with
  | reading attempt =>
    revert reply
    cases hname : g.target.name with
    | some name =>
      rw [move_reading_of_name hname]
      intro reply hw
      obtain ⟨hposition, hbackend⟩ := after_get hname w attempt
      rw [hposition, hbackend, hw, Script.get_recorded]
      exact ⟨rfl, Or.inl rfl⟩
    | none =>
      rw [move_reading_of_nameless hname]
      intro reply hw
      obtain ⟨hposition, hbackend⟩ := after_list hname w attempt
      rw [hposition, hbackend, hw, Script.list_recorded]
      exact ⟨rfl, Or.inl rfl⟩
  | opening version =>
    obtain ⟨hposition, hbackend⟩ := after_opening w version
    have hwatch : w.backend.watch = _ := hw ▸ Script.watch_recorded
    rw [hwatch] at hposition hbackend
    refine ⟨hbackend, ?_⟩
    rcases g.afterOpen_ended version reply with hsame | hsilent
    · rw [hposition, hsame]
      exact Or.inl rfl
    · exact Or.inr hsilent

/-- A wait that has come to its end can be replayed on the recording of its calls. -/
theorem Course.replay {n last : Next} {xs : List Exchange} {outcome : Outcome} {stage : Stage}
    (h : g.Course n xs last) (hlast : last = .finish outcome) (hstage : n.stage? = some stage)
    {w : World (Script g.collection)} (hw : w.backend = .recorded g.collection xs) :
    ∃ v, g.Settles (.ready stage) w outcome v := by
  induction h generalizing stage w with
  | nil n => simp [hlast, Next.stage?] at hstage
  | @cons n last stage' rest goesOn time reply later ih =>
    obtain rfl : stage' = stage := by
      rw [goesOn] at hstage
      exact Option.some.inj hstage
    obtain ⟨hbackend, hposition⟩ := after_recorded hw
    simp only [settles_ready_iff]
    subst hlast
    rcases hposition with hposition | hsilent
    · rw [hposition]
      cases hnext : (g.move stage').next reply with
      | finish decision =>
        rw [hnext] at later
        obtain ⟨_, hend⟩ := later.eq_nil rfl
        exact settles_finish_iff.mpr (congrArg Next.outcome? hend.symm)
      | silence =>
        rw [hnext] at later
        obtain ⟨_, hend⟩ := later.eq_nil rfl
        cases hend
      | proceed s => exact ih rfl (by rw [hnext]; rfl) hbackend
      | pause d s =>
        obtain ⟨time, hsame⟩ := settles_pause (g := g) (g.after stage' w).2 w.clock d s
        obtain ⟨v, hv⟩ := ih rfl (by rw [hnext]; rfl)
          (w := (g.after stage' w).2.advanceTo time) hbackend
        exact ⟨v, (hsame outcome v).mpr hv⟩
    · rw [hsilent] at later
      obtain ⟨_, hend⟩ := later.eq_nil rfl
      cases hend

/-- A course that comes to an end has decided so. -/
theorem Course.decided {xs : List Exchange} {outcome : Outcome}
    (h : g.Course (.proceed (.reading 1)) xs (.finish outcome)) :
    g.decided (.recorded g.collection xs) = some outcome :=
  (settles_iff { backend := .recorded g.collection xs } outcome).mp (h.replay rfl rfl rfl)

/-- Reconnecting makes no difference to what a script decides. -/
theorem decided_reconnected {s : Script g.collection}
    {opens : List (Except AccessError (Session g.collection))} (h : Reconnected s.opens opens) :
    g.decided { s with opens } = g.decided s := by
  unfold Goal.decided observations
  rw [h.flatMap_watched]
  rfl

/-- A wait ends as the first observation decides that decides at all: on any script, whatever watches
are refused in between and wherever sessions are cut that are still listened to, and whoever answers. -/
theorem ends_as_first_decides (g : Goal) :
    (∀ {w : World (Script g.collection)}, w.Undisturbed →
      g.EndsWith w (g.decided w.backend) ∧
      ∀ opens, Reconnected w.backend.opens opens →
        g.EndsWith { w with backend := { w.backend with opens } } (g.decided w.backend)) ∧
    ∀ {σ : Type} [Backend σ] (w : World σ), ∃ news, World.Since w (run g w).2 news ∧
      (g.decided (.recorded g.collection news) = some (run g w).1 ∨
        g.Interrupted (run g w).1) := by
  constructor
  · intro w hw
    refine ⟨endsWith_decided hw, ?_⟩
    intro opens hopens
    rw [← decided_reconnected hopens]
    exact endsWith_decided (w := { w with backend := { w.backend with opens } }) hw
  · intro σ _ w
    obtain ⟨news, n, hnews, hcourse, hend⟩ := course_of_run g w
    refine ⟨news, hnews, ?_⟩
    rcases hend with rfl | hinterrupted
    · exact Or.inl hcourse.decided
    · exact Or.inr hinterrupted

end Goal

/-! ## A wait for an operator -/

/-- The component of an operator, with its health. -/
def operatorComponent (version health : String) : Object .components where
  metadata := { name := some "k8s-dogu-operator", resourceVersion := some version }
  body :=
    { name := "k8s-dogu-operator", helmNamespace := "k8s", version := "3.0.0",
      status := some { health } }

/-- A wait for it by its name. -/
def operatorGoal : Goal where
  collection := .components
  target := .named "k8s-dogu-operator" "k8s.cloudogu.com/component.name"
  predicate := componentHealthy
  settings := .standard
  timeout := .ofSecs 900

/-- A cluster in which it is there at the second read, and these watches follow. -/
def operatorWorld (opens : List (Except AccessError (Session .components))) :
    World (Script .components) where
  backend :=
    { gets := [.error (.notFound "k8s-dogu-operator"), .ok (operatorComponent "1" "")], opens }

/-- The news of a component that becomes available after a while. -/
def operatorNews : Session .components :=
  [.ok (.modified (operatorComponent "2" "")), .ok (.bookmark "5"),
    .ok (.modified (operatorComponent "6" "available"))]

/-- The same news in two sessions, and a watch that is refused between them. -/
def operatorReconnects : List (Except AccessError (Session .components)) :=
  [.ok (operatorNews.take 1), .error (.other "connection refused"), .ok (operatorNews.drop 1)]

/-- Either way, the wait ends with success. -/
theorem ends_as_first_decides_operator :
    (operatorWorld [.ok operatorNews]).Undisturbed ∧
      Reconnected [.ok operatorNews] operatorReconnects ∧
      operatorGoal.EndsWith (operatorWorld [.ok operatorNews]) (some (.ok ())) ∧
      operatorGoal.EndsWith (operatorWorld operatorReconnects) (some (.ok ())) := by
  have hcut : Reconnected [.ok operatorNews]
      ([] ++ .ok (operatorNews.take 1) :: .ok (operatorNews.drop 1) :: []) :=
    .cut .same (by decide)
  have hrefused : Reconnected [.ok operatorNews] ([.ok (operatorNews.take 1)] ++
      .error (.other "connection refused") :: [.ok (operatorNews.drop 1)]) := by
    apply Reconnected.refused
    exact hcut
  obtain ⟨hends, hreconnected⟩ := (Goal.ends_as_first_decides operatorGoal).1
    (w := operatorWorld [.ok operatorNews]) ⟨rfl, rfl⟩
  exact ⟨⟨rfl, rfl⟩, hrefused, hends, hreconnected _ hrefused⟩

/-- A session that breaks before the component is available. -/
def operatorBreaks : Session .components :=
  [.error (.other "connection reset"), .ok (.modified (operatorComponent "2" "available"))]

/-- A cut behind the item that breaks a session brings back what was never heard: a wait that would not
have ended ends with success. -/
theorem cut_behind_break :
    operatorGoal.EndsWith (operatorWorld [.ok operatorBreaks]) none ∧
      operatorGoal.EndsWith
        (operatorWorld [.ok (operatorBreaks.take 1), .ok (operatorBreaks.drop 1)])
        (some (.ok ())) :=
  ⟨Goal.endsWith_decided ⟨rfl, rfl⟩, Goal.endsWith_decided ⟨rfl, rfl⟩⟩

end EcosystemSetup.Wait
