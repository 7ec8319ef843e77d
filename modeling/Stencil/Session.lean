import Stencil.Evaluation

/-!
# Sessions

A session is what a program that renders templates holds: contexts by name, the
caches they use, which several may share, templates it has read, and loaders.
Evaluations run in one context at a time; lists and loaders are common to all.
-/

namespace Stencil

/-- A session. -/
structure Session where
  host : Host := basicHost
  /-- how many steps an evaluation may go down -/
  fuel : Nat
  /-- contexts, each with the place of its cache -/
  contexts : Table (Context × Nat) := []
  caches : Array TemplateCache := #[]
  /-- templates kept by name -/
  templates : Table LoadedTemplate := []
  loaders : Table Loader := []
  store : Store := {}
  library : Library := {}

namespace Session

/-- Adds a context. It shares the cache of another one if that is named, and
has an empty cache otherwise. -/
def addContext (s : Session) (name : String) (c : Context) (share : Option String) : Session :=
  match share.bind fun other => s.contexts.get? other with
  | some (_, place) => { s with contexts := s.contexts.set name (c, place) }
  | none =>
    { s with contexts := s.contexts.set name (c, s.caches.size), caches := s.caches.push [] }

/-- The state in which evaluations of a context run. -/
def stateOf (s : Session) (name : String) : State :=
  match s.contexts.get? name with
  | some (context, place) =>
    { context, store := s.store, cache := s.caches[place]?.getD [], library := s.library }
  | none => { store := s.store, library := s.library }

/-- The session after an evaluation left a context in a state. -/
def withState (s : Session) (name : String) (t : State) : Session :=
  let s := { s with store := t.store, library := t.library }
  match s.contexts.get? name with
  | some (_, place) =>
    { s with
      contexts := s.contexts.set name (t.context, place)
      caches := s.caches.setIfInBounds place t.cache }
  | none => s

/-- Runs an evaluation in a context. -/
def run {α : Type} (s : Session) (name : String) (e : Eval α) : Except Failure α × Session :=
  match e (s.stateOf name) with
  | .ok a t => (.ok a, s.withState name t)
  | .error e t => (.error e, s.withState name t)

/-- Keeps a template under a name. -/
def keep (s : Session) (name : String) (template : Template) : Session :=
  let (loaded, store) := template.load s.store
  { s with store, templates := s.templates.set name loaded }

/-- The names under which a template is kept. -/
def namesOf (s : Session) (id : Nat) : List String :=
  (s.templates.filter fun (_, t) => t.id == id).map (·.1)

end Session

end Stencil
