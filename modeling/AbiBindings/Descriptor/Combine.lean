import AbiBindings.Fault

/-!
# Combining descriptors

A parameter that several overloads share takes the union of their descriptors,
as long as the guards tell any two members apart.  Equal descriptors combine to
themselves.
-/

namespace AbiBindings.Descriptor

/-- The accepted members followed by each candidate that is none of them.  A
candidate whose guard overlaps that of an accepted member is a fault of
`parameter` of `function`. -/
def accept (function parameter : String) (accepted : List Descriptor) :
    List Descriptor → Except Fault (List Descriptor)
  | [] => .ok accepted
  | candidate :: rest =>
      if candidate ∈ accepted then accept function parameter accepted rest
      else
        match accepted.find? fun m => m.guard.overlaps candidate.guard with
        | some clash => .error (.typeConflict function parameter clash candidate)
        | none => accept function parameter (accepted ++ [candidate]) rest

/-- The descriptor with these members: the only one of them, or their union. -/
def ofMembers : List Descriptor → Descriptor
  | [d] => d
  | ds => .union ds

/-- The descriptor of a parameter of `function` that is `left` in some overloads
and `right` in others. -/
def combine (function parameter : String) (left right : Descriptor) : Except Fault Descriptor :=
  if left = right then .ok left
  else ofMembers <$> accept function parameter [] (left.members ++ right.members)

end AbiBindings.Descriptor
