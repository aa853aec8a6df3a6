import ReplicaClient.Error

/-!
# Conflicts

An object with several versions is in conflict until a resolver has made one value of them.
Versions without data do not take part.  A resolver that fails leaves the versions in place,
so that resolving can be tried again.
-/

namespace ReplicaClient

/-- Merges the versions of an object, given their number.  It may keep a record of what it saw. -/
abbrev Resolver (ρ : Type) := Nat → Object → ρ × Except ClientError Unit × Object

namespace Object

def conflict (o : Object) : Bool :=
  o.state ≠ .clean

def versions (o : Object) : List Sibling :=
  o.siblings.filter (!·.isEmpty)

def siblingCount (o : Object) : Nat :=
  o.versions.length

/-- Fills slots with the versions: all of them, or none if their number is not that of the slots. -/
def copySiblingsInto (o : Object) (slots : List Sibling) : Except ClientError (List Sibling) :=
  if slots.length = o.siblingCount then .ok o.versions
  else .error (.siblingCountMismatch o.siblingCount slots.length)

/-- Takes over the value of one version, if there are that many. -/
def adoptSibling (o : Object) (index : Nat) : Bool × Object :=
  match o.versions[index]? with
  | some s => (true, o.adopt s)
  | none => (false, o)

/-- Runs a resolver on an object in conflict.  On any other it does nothing and returns no record. -/
def resolve {ρ : Type} (resolver : Resolver ρ) (o : Object) :
    Option ρ × Except ClientError Unit × Object :=
  if o.conflict then
    match resolver o.siblingCount { o with state := .resolving } with
    | (record, .ok (), o) => (some record, .ok (), { o with siblings := [], state := .clean })
    | (record, .error e, o) => (some record, .error e, { o with state := .conflicted })
  else (none, .ok (), o)

end Object

def noResolver : Resolver Unit :=
  fun _ o ↦ ((), .error .resolveNotImplemented, o)

end ReplicaClient
