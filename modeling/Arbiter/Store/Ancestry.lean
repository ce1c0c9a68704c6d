/-
# Remembered ancestors

The ancestors of an entity are searched for when they are first asked for, and remembered from
then on.  A store does not change, so what is remembered stays right whatever else is asked.
-/
import Arbiter.SortedMap
import Arbiter.Store.Basic

namespace Arbiter

/-- A store with the ancestors that were asked for so far. -/
structure Ancestry where
  store : EntityStore
  /-- The ancestors that were asked for, by the entity that has them. -/
  known : SortedMap EntityUid (SortedSet EntityUid)

namespace Ancestry

/-- A store of which nothing was asked yet. -/
def ofStore (s : EntityStore) : Ancestry := ⟨s, .empty⟩

/-- The ancestors of an entity, which has to be stored; they are remembered. -/
def ancestors (a : Ancestry) (uid : EntityUid) :
    Except UnknownEntity (SortedSet EntityUid) × Ancestry :=
  match a.known.find? uid with
  | some as => (.ok as, a)
  | none =>
    match a.store.ancestors uid with
    | .ok as => (.ok as, { a with known := a.known.insert uid as })
    | .error e => (.error e, a)

/-- Whether `x` is `y` or has it as an ancestor; the ancestors of `x` are remembered. -/
def isDescendant (a : Ancestry) (x y : EntityUid) : Bool × Ancestry :=
  if x = y then (true, a)
  else
    match a.ancestors x with
    | (.ok as, a) => (as.contains y, a)
    | (.error _, a) => (false, a)

/-- What can be asked of a store. -/
inductive Query where
  /-- The ancestors of an entity. -/
  | ancestors (uid : EntityUid)
  /-- Whether an entity is in another one. -/
  | isDescendant (x y : EntityUid)

/-- What is remembered when a question has been answered. -/
def ask (a : Ancestry) : Query → Ancestry
  | .ancestors uid => (a.ancestors uid).2
  | .isDescendant x y => (a.isDescendant x y).2

/-- What is remembered when questions have been answered one after the other. -/
def after (a : Ancestry) (queries : List Query) : Ancestry := queries.foldl ask a

end Ancestry

end Arbiter
