import AbiBindings.Scope

/-!
# Member names

A registry hands out the names of the members of one class, none of them twice
and none that the class has of its own.  A name may be held for the one member
that owns it, and no other member is given it while it is held.  A member asks
with a list of candidates: the first free one is claimed, and when none is free
the last one is numbered, from 2 on.  A number that makes the name free is among
as many numbers as there are names to stay clear of and one more, so the search
always ends with one.
-/

namespace AbiBindings.Interface

/-- The names that members have, and those that are kept for the member that
owns them. -/
structure Registry where
  taken : List String
  held : List String
deriving DecidableEq, Repr

/-- How a member is to be named. -/
inductive NameRequest where
  /-- by its own name, which was held for it, or else by the mangled name -/
  | own (plain mangled : String)
  /-- by the mangled name -/
  | mangled (name : String)
deriving DecidableEq, Repr

namespace Registry

/-- The registry of a class without members but those that every class has. -/
def new : Registry := ⟨Scope.ownMembers, []⟩

/-- Whether any member may take the name. -/
def isFree (r : Registry) (name : String) : Bool :=
  !r.taken.contains name && !r.held.contains name

/-- Keeps the name for its owner, unless it is taken. -/
def hold (r : Registry) (name : String) : Registry :=
  if r.isFree name then { r with held := name :: r.held } else r

/-- A name followed by a number. -/
def numbered (base : String) (n : Nat) : String := base ++ toString n

/-- The number that makes the name free. -/
def freeNumber (r : Registry) (base : String) : Nat :=
  let count := r.taken.length + r.held.length + 1
  ((List.range count).map (· + 2)).find? (fun n => r.isFree (numbered base n)) |>.getD 2

/-- The name that a claim of these candidates is given. -/
def choose (r : Registry) (candidates : List String) : String :=
  match candidates.find? r.isFree with
  | some name => name
  | none =>
      let base := candidates.getLastD ""
      numbered base (r.freeNumber base)

/-- Claims the first free candidate, or else the last one with a number. -/
def claim (r : Registry) (candidates : List String) : String × Registry :=
  let name := r.choose candidates
  (name, { r with taken := name :: r.taken })

/-- Claims the first candidate for its owner if it was held, or else as `claim`
does. -/
def claimHeld (r : Registry) (candidates : List String) : String × Registry :=
  match candidates with
  | [] => r.claim []
  | first :: _ =>
      if r.held.contains first then (first, ⟨first :: r.taken, r.held.erase first⟩)
      else r.claim candidates

/-- Holds the names that are asked for by their owners. -/
def holdAll (r : Registry) : List NameRequest → Registry
  | [] => r
  | .own plain _ :: rest => (r.hold plain).holdAll rest
  | .mangled _ :: rest => r.holdAll rest

/-- Names one member. -/
def serve (r : Registry) : NameRequest → String × Registry
  | .own plain mangled => r.claimHeld [plain, mangled]
  | .mangled name => r.claim [name]

/-- Names the members one after the other. -/
def serveAll {α : Type} (r : Registry) : List (NameRequest × α) → List (String × α) × Registry
  | [] => ([], r)
  | (request, a) :: rest =>
      let (name, next) := r.serve request
      let (named, last) := next.serveAll rest
      ((name, a) :: named, last)

end Registry

end AbiBindings.Interface
