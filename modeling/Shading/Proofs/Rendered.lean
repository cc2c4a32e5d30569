import Shading.Proofs.Lowering

/-!
# What is rendered of a tree

An expression is rendered with the expressions that stand in it, arguments included. A callee and a
constructed type are asked about and not rendered; nor is anything that stands in an expression of
another kind, since a lowering gets no further there.

* `Node.rendered`: an expression and all that is rendered in it.
* `Node.expressions`: all that is rendered in a statement, the statement itself apart.
-/

namespace Shading

mutual

/-- An expression and all that is rendered in it, in the order in which it is lowered. -/
def Node.rendered : Node → List Node
  | .memberAccess loc target member operator =>
    .memberAccess loc target member operator :: Node.rendered target
  | .assignment loc left operator right =>
    .assignment loc left operator right :: (Node.rendered left ++ Node.rendered right)
  | .argument arg => Argument.rendered arg
  | .argumentList loc args => .argumentList loc args :: Argument.renderedAll args
  | .initializer ⟨loc, value⟩ => .initializer ⟨loc, value⟩ :: Node.rendered value
  | .invocation loc callee listLoc args =>
    .invocation loc callee listLoc args :: Argument.renderedAll args
  | .objectCreation loc type listLoc args =>
    .objectCreation loc type listLoc args :: Argument.renderedAll args
  | node => [node]
termination_by structural node => node

/-- An argument and all that is rendered in it. -/
def Argument.rendered : Argument → List Node
  | ⟨loc, value⟩ => .argument ⟨loc, value⟩ :: Node.rendered value
termination_by structural arg => arg

/-- All that is rendered of arguments. -/
def Argument.renderedAll : List Argument → List Node
  | [] => []
  | arg :: args => Argument.rendered arg ++ Argument.renderedAll args
termination_by structural args => args

end

theorem Argument.renderedAll_eq_flatMap (args : List Argument) :
    renderedAll args = args.flatMap fun a => (Node.argument a).rendered := by
  induction args with
  | nil => rfl
  | cons a args ih => rw [renderedAll, List.flatMap_cons, ih, Node.rendered]

namespace Node

/-- An expression is rendered itself. -/
theorem mem_rendered_self (n : Node) : n ∈ n.rendered := by
  cases n with
  | argument arg =>
    obtain ⟨loc, value⟩ := arg
    exact List.mem_cons_self
  | initializer init =>
    obtain ⟨loc, value⟩ := init
    exact List.mem_cons_self
  | _ => exact List.mem_cons_self

/-- What is rendered of an argument is rendered of the arguments. -/
theorem mem_renderedAll {args : List Argument} {a : Argument} (ha : a ∈ args) {k : Node}
    (hk : k ∈ (Node.argument a).rendered) : k ∈ Argument.renderedAll args := by
  rw [Argument.renderedAll_eq_flatMap]
  exact List.mem_flatMap.2 ⟨a, ha, hk⟩

/-- All that is rendered in a statement: the first value of a variable, what is evaluated for its
effect or what is returned, each with all that is rendered in it. -/
def expressions : Node → List Node
  | localDeclaration _ decl =>
    decl.declarators.flatMap fun v => v.init.toList.flatMap fun init => init.value.rendered
  | expressionStatement _ value => value.rendered
  | returnStatement _ .absent => []
  | returnStatement _ value => value.rendered
  | _ => []

/-- A return of something renders what it returns. -/
theorem expressions_returnStatement {value : Node} (h : value ≠ .absent) (loc : Location) :
    (returnStatement loc value).expressions = value.rendered := by
  rw [expressions]
  exact h

end Node

end Shading
