import AbiBindings.Descriptor.Combine
import AbiBindings.Interface.Basic

/-!
# From functions to method groups

Functions that share a member merge their parameters by declared name.  Two of
them may not accept the same arguments: their *conditions*, the guards of the
parameters they take, must differ, since the generated code picks a function by
nothing else.  All of them must declare the same outputs.
-/

namespace AbiBindings.Interface

/-- The named inputs of a function with their descriptors, in declared order. -/
abbrev InputShape := List (String × Descriptor)

/-- The shape of the named inputs of a function. -/
def inputShape (scope : String) : List Abi.Param → Outcome InputShape
  | [] => pure []
  | p :: rest =>
      if p.isNamed then do
        let d ← Descriptor.ofParam scope p
        let others ← inputShape scope rest
        pure ((p.name, d) :: others)
      else inputShape scope rest

/-- The merged parameters with one more input, whose descriptor is combined with
that of the parameter of its name. -/
def mergeInput (function : String) : InputShape → String × Descriptor → Except Fault InputShape
  | [], input => .ok [input]
  | (name, d) :: rest, input =>
      if name = input.1 then do
        let both ← Descriptor.combine function name d input.2
        pure ((name, both) :: rest)
      else (fun merged => (name, d) :: merged) <$> mergeInput function rest input

/-- The merged parameters with the inputs of one more function. -/
def mergeShape (function : String) (merged : InputShape) : InputShape → Except Fault InputShape
  | [] => .ok merged
  | input :: rest => do mergeShape function (← mergeInput function merged input) rest

/-- The merged parameters of functions, and the shape of each of them. -/
def mergeAll (function : String) (merged : InputShape) :
    List Abi.Function → Outcome (InputShape × List InputShape)
  | [] => pure (merged, [])
  | f :: rest => do
      let shape ← inputShape function f.inputs
      let next ← Outcome.ofExcept (mergeShape function merged shape)
      let (all, shapes) ← mergeAll function next rest
      pure (all, shape :: shapes)

/-- What picks a function at run time: for each parameter of its group the
guards of the input of that name, and nothing for a parameter that it does not
take. -/
def condition (params : InputShape) (shape : InputShape) : List (Option (List Guard)) :=
  params.map fun p => (shape.lookup p.1).map Descriptor.guards

/-- The first two items that agree in their keys. -/
def firstClash? {α β : Type} [DecidableEq β] (key : α → β) : List α → Option (α × α)
  | [] => none
  | a :: rest =>
      match rest.find? fun b => key b = key a with
      | some b => some (a, b)
      | none => firstClash? key rest

/-- What callers see of an output: its name and its canonical type. -/
def outputKey (p : Abi.Param) : String × String := (p.name, p.canonicalType)

/-- Whether the outputs look the same to callers. -/
def sameOutputs (left right : List Abi.Param) : Bool :=
  left.map outputKey == right.map outputKey

/-- The parameter of that name and descriptor, optional if some shape lacks its
name. -/
def groupParam (shapes : List InputShape) (p : String × Descriptor) : GroupParam :=
  { name := p.1, descriptor := p.2, optional := shapes.any fun s => (s.lookup p.1).isNone }

/-- The member of functions that are combined. -/
def combined (ident : String) (g : NameGroup Abi.Function) : Outcome MethodGroup := do
  let (params, shapes) ← mergeAll g.name [] g.items
  match firstClash? (fun fs => condition params fs.2) (g.items.zip shapes) with
  | some ((f, _), (h, _)) =>
      Outcome.fail (.ambiguousOverload g.name f.signature.canonical h.signature.canonical)
  | none =>
      match g.others.find? fun f => !sameOutputs g.first.outputs f.outputs with
      | some f =>
          Outcome.fail (.outputConflict g.name g.first.signature.canonical f.signature.canonical)
      | none => pure { toNameGroup := g, ident, params := params.map (groupParam shapes) }

/-- The member of a function that stands alone; its inputs are its parameters as
they are. -/
def alone (ident : String) (g : NameGroup Abi.Function) : Outcome MethodGroup := do
  let shape ← inputShape g.name g.first.inputs
  pure { toNameGroup := g, ident, params := shape.map (groupParam [shape]) }

/-- The members of the plans. -/
def methodGroups (policy : Policy) : List (String × NameGroup Abi.Function) →
    Outcome (List MethodGroup)
  | [] => pure []
  | (ident, g) :: rest => do
      let m ← match policy with
        | .combine => combined ident g
        | .mangle => alone ident g
      let others ← methodGroups policy rest
      pure (m :: others)

end AbiBindings.Interface
