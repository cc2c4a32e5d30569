import Shading.Proofs.Failing
import Shading.Source.Method

/-!
# Locations have no influence

Where the nodes of a body stand in their source decides to which node a failure is attached, and so
what its message ends with. It decides nothing else: neither whether there is a failure, nor its
cause, nor what is recorded.

* `Node.unplaced`: a tree without its locations.
* `Traced.causes`: work whose failures are told by their causes alone.
* `Context.causes_lowerExpr_unplaced`: an expression comes to the same without its locations.
* `Context.emitIndented_ignores_locations`: **so does a method, the place of a failure apart.**
-/

namespace Shading

/-- The identifier without its location. -/
def Ident.unplaced (i : Ident) : Ident :=
  ⟨.unknown, i.id⟩

mutual

/-- The node with nothing known of where it and its parts stand. -/
def Node.unplaced : Node → Node
  | .absent => .absent
  | .name _ id => .name .unknown id
  | .literal _ token => .literal .unknown token
  | .memberAccess _ target member operator =>
    .memberAccess .unknown target.unplaced member.unplaced operator
  | .assignment _ left operator right =>
    .assignment .unknown left.unplaced operator right.unplaced
  | .argument arg => .argument arg.unplaced
  | .argumentList _ args => .argumentList .unknown (Argument.unplacedAll args)
  | .invocation _ callee _ args =>
    .invocation .unknown callee.unplaced .unknown (Argument.unplacedAll args)
  | .objectCreation _ type _ args =>
    .objectCreation .unknown type.unplaced .unknown (Argument.unplacedAll args)
  | .initializer init => .initializer init.unplaced
  | .binary _ left operator right => .binary .unknown left.unplaced operator right.unplaced
  | .unary _ operator operand => .unary .unknown operator operand.unplaced
  | .conditional _ condition whenTrue whenFalse =>
    .conditional .unknown condition.unplaced whenTrue.unplaced whenFalse.unplaced
  | .elementAccess _ target index => .elementAccess .unknown target.unplaced index.unplaced
  | .cast _ type operand => .cast .unknown type operand.unplaced
  | .declarator var => .declarator var.unplaced
  | .declaration decl => .declaration decl.unplaced
  | .localDeclaration _ decl => .localDeclaration .unknown decl.unplaced
  | .expressionStatement _ value => .expressionStatement .unknown value.unplaced
  | .returnStatement _ value => .returnStatement .unknown value.unplaced
  | .block _ statements => .block .unknown (Node.unplacedAll statements)
  | .ifStatement _ condition body alternative =>
    .ifStatement .unknown condition.unplaced body.unplaced alternative.unplaced
  | .whileStatement _ condition body =>
    .whileStatement .unknown condition.unplaced body.unplaced
  | .forStatement _ decl condition increments body =>
    .forStatement .unknown (Declaration.unplacedOption decl) condition.unplaced
      (Node.unplacedAll increments) body.unplaced
  | .unclassified _ role => .unclassified .unknown role
termination_by structural node => node

/-- The argument without locations. -/
def Argument.unplaced : Argument → Argument
  | ⟨_, value⟩ => ⟨.unknown, value.unplaced⟩
termination_by structural arg => arg

/-- The initializer without locations. -/
def Initializer.unplaced : Initializer → Initializer
  | ⟨_, value⟩ => ⟨.unknown, value.unplaced⟩
termination_by structural init => init

/-- The declarator without locations. -/
def Declarator.unplaced : Declarator → Declarator
  | ⟨_, identifier, init⟩ => ⟨.unknown, identifier, Initializer.unplacedOption init⟩
termination_by structural var => var

/-- The declaration without locations. -/
def Declaration.unplaced : Declaration → Declaration
  | ⟨_, type, declarators⟩ => ⟨.unknown, type, Declarator.unplacedAll declarators⟩
termination_by structural decl => decl

/-- The nodes of a list without locations. -/
def Node.unplacedAll : List Node → List Node
  | [] => []
  | node :: nodes => node.unplaced :: Node.unplacedAll nodes
termination_by structural nodes => nodes

/-- The arguments of a list without locations. -/
def Argument.unplacedAll : List Argument → List Argument
  | [] => []
  | arg :: args => arg.unplaced :: Argument.unplacedAll args
termination_by structural args => args

/-- The declarators of a list without locations. -/
def Declarator.unplacedAll : List Declarator → List Declarator
  | [] => []
  | var :: vars => var.unplaced :: Declarator.unplacedAll vars
termination_by structural vars => vars

/-- What may be an initializer, without locations. -/
def Initializer.unplacedOption : Option Initializer → Option Initializer
  | none => none
  | some init => some init.unplaced
termination_by structural init => init

/-- What may be a declaration, without locations. -/
def Declaration.unplacedOption : Option Declaration → Option Declaration
  | none => none
  | some decl => some decl.unplaced
termination_by structural decl => decl

end

/-- The body without the locations of its nodes. -/
def Body.unplaced : Body → Body
  | .block _ statements => .block .unknown (statements.map Node.unplaced)
  | .bare statements => .bare (statements.map Node.unplaced)

theorem Body.statements_unplaced (b : Body) :
    b.unplaced.statements = b.statements.map Node.unplaced := by
  cases b <;> rfl

theorem Argument.unplacedAll_eq_map (args : List Argument) :
    unplacedAll args = args.map unplaced := by
  induction args with
  | nil => rfl
  | cons arg args ih => rw [unplacedAll, List.map_cons, ih]

theorem Declarator.length_unplacedAll (vars : List Declarator) :
    (unplacedAll vars).length = vars.length := by
  induction vars with
  | nil => rfl
  | cons var vars ih => rw [unplacedAll, List.length_cons, List.length_cons, ih]

namespace Node

@[simp] theorem kind_unplaced (n : Node) : n.unplaced.kind = n.kind := by
  cases n <;> rfl

@[simp] theorem ident?_unplaced (n : Node) : n.unplaced.ident? = n.ident? := by
  cases n <;> rfl

@[simp] theorem path?_unplaced (n : Node) : n.unplaced.path? = n.path? := by
  induction n using Node.expression_induction with
  | memberAccess loc target member operator ih =>
    rw [unplaced, path?, path?, ih]
    rfl
  | other n hn => cases n <;> first | rfl | cases hn
  | _ => rfl

/-- A missing node has no location to lose. -/
theorem unplaced_eq_absent {n : Node} : n.unplaced = .absent ↔ n = .absent := by
  rw [← kind_eq_absent, kind_unplaced, kind_eq_absent]

end Node

/-- The resolver looks at no location. -/
def Resolver.IgnoresLocations (r : Resolver) : Prop :=
  ∀ n, r n.unplaced = r n

/-- Both ways of reading a symbol table look at texts only. -/
theorem Resolution.resolver_ignoresLocations (resolution : Resolution) (t : SymbolTable) :
    (resolution.resolver t).IgnoresLocations := by
  intro n
  cases resolution with
  | identifiers =>
    have hident : n.unplaced.ident?.bind t.get? = n.ident?.bind t.get? := by
      rw [Node.ident?_unplaced]
    exact hident
  | paths =>
    have hpath : n.unplaced.path?.bind t.get? = n.path?.bind t.get? := by
      rw [Node.path?_unplaced]
    exact hpath

namespace Traced

variable {ε ε' α β : Type}

@[simp] theorem mapError_pure (f : ε → ε') (a : α) : (pure a : Traced ε α).mapError f = pure a :=
  rfl

/-- Errors may be replaced step by step. -/
theorem mapError_bind (f : ε → ε') (x : Traced ε α) (g : α → Traced ε β) :
    (x >>= g).mapError f = x.mapError f >>= fun a => (g a).mapError f := by
  cases h : x.outcome with
  | error e =>
    have hx : (x.mapError f).outcome = .error (f e) := by
      rw [mapError, h]
      rfl
    rw [bind_of_error h, bind_of_error hx]
    rfl
  | ok a =>
    have hx : (x.mapError f).outcome = .ok a := by
      rw [mapError, h]
      rfl
    rw [bind_of_ok h, bind_of_ok hx]
    rfl

/-- The work with failures told by their causes, whatever node they are attached to. -/
def causes (x : Traced Diagnostic α) : Traced Cause α :=
  x.mapError Diagnostic.cause

theorem causes_bind (x : Traced Diagnostic α) (f : α → Traced Diagnostic β) :
    (x >>= f).causes = x.causes >>= fun a => (f a).causes :=
  mapError_bind _ x f

/-- Work with the same causes that goes on with the same causes has the same causes. -/
theorem causes_bind_congr {x x' : Traced Diagnostic α} {f f' : α → Traced Diagnostic β}
    (hx : x'.causes = x.causes) (hf : ∀ a, (f' a).causes = (f a).causes) :
    (x' >>= f').causes = (x >>= f).causes := by
  rw [causes_bind, causes_bind, hx]
  simp only [hf]

/-- Work on changed items has the same causes if it does so on each of them. -/
theorem causes_mapM_map {f : α → Traced Diagnostic β} {g : α → α} {as : List α}
    (h : ∀ a ∈ as, (f (g a)).causes = (f a).causes) :
    ((as.map g).mapM f).causes = (as.mapM f).causes := by
  induction as with
  | nil => rfl
  | cons a as ih =>
    rw [List.map_cons, List.mapM_cons, List.mapM_cons]
    have hrest := ih fun a' ha' => h a' (List.mem_cons_of_mem a ha')
    refine causes_bind_congr (h a List.mem_cons_self) fun b => ?_
    exact causes_bind_congr hrest fun bs => rfl

/-- Attaching failures to other nodes leaves their causes alone. -/
theorem causes_mapError {f : Diagnostic → Diagnostic} (hf : ∀ e, (f e).cause = e.cause)
    (x : Traced Diagnostic α) : (x.mapError f).causes = x.causes := by
  obtain ⟨outcome, log⟩ := x
  cases outcome with
  | error e => simp [causes, mapError, Except.mapError, hf]
  | ok a => rfl

/-- Work with the same causes succeeds alike or fails with the same cause, and leaves one log. -/
theorem cases_of_causes_eq {x x' : Traced Diagnostic α} (h : x'.causes = x.causes) :
    ((∃ a, x.outcome = .ok a ∧ x'.outcome = .ok a) ∨
      ∃ e e', x.outcome = .error e ∧ x'.outcome = .error e' ∧ e'.cause = e.cause) ∧
    x'.log = x.log := by
  have houtcome : x'.outcome.mapError Diagnostic.cause = x.outcome.mapError Diagnostic.cause :=
    congrArg outcome h
  have hlog : x'.causes.log = x.causes.log := by rw [h]
  refine ⟨?_, hlog⟩
  cases hx : x.outcome with
  | ok a =>
    cases hx' : x'.outcome with
    | ok a' =>
      rw [hx, hx'] at houtcome
      obtain rfl : a' = a := Except.ok.inj houtcome
      exact .inl ⟨a', rfl, rfl⟩
    | error e' =>
      rw [hx, hx'] at houtcome
      cases houtcome
  | error e =>
    cases hx' : x'.outcome with
    | ok a' =>
      rw [hx, hx'] at houtcome
      cases houtcome
    | error e' =>
      rw [hx, hx'] at houtcome
      exact .inr ⟨e, e', rfl, rfl, Except.error.inj houtcome⟩

end Traced

namespace Context

variable {ctx : Context}

/-- What a look-up comes to does not depend on where it is needed. -/
theorem causes_find (ctx : Context) (l : Lookup) (site site' : Node) :
    (ctx.find l site').causes = (ctx.find l site).causes := by
  cases h : ctx.dialect.find? l with
  | none =>
    rw [find_of_none h, find_of_none h]
    rfl
  | some word => rw [find_of_some h, find_of_some h]

theorem causes_nonBlank_unplaced (ctx : Context) (use : Use) (value site site' : Node)
    (e : Target.Expr) :
    (ctx.nonBlank use value.unplaced site' e).causes = (ctx.nonBlank use value site e).causes := by
  unfold nonBlank
  rw [Node.kind_unplaced]
  split <;> rfl

theorem causes_calledFunction_unplaced (hr : ctx.resolve.IgnoresLocations)
    (callee site site' : Node) :
    (ctx.calledFunction callee.unplaced site').causes =
      (ctx.calledFunction callee site).causes := by
  unfold calledFunction calledMethod
  rw [Node.ident?_unplaced, Node.kind_unplaced, hr]
  cases callee.ident? with
  | none => rfl
  | some id =>
    cases hkey : (ctx.resolve callee).bind Symbol.methodKey? with
    | none => simp only; rfl
    | some key => exact causes_find ctx _ _ _

theorem causes_constructor_unplaced (hr : ctx.resolve.IgnoresLocations)
    (type site site' : Node) :
    (ctx.constructor type.unplaced site').causes = (ctx.constructor type site).causes := by
  unfold constructor constructedType
  rw [Node.ident?_unplaced, Node.kind_unplaced, hr]
  cases hname : (ctx.resolve type).bind Symbol.typeName? with
  | none => rfl
  | some name => exact causes_find ctx _ _ _

theorem causes_lowerArguments_unplaced {args : List Argument}
    (ih : ∀ a ∈ args, (ctx.lowerExpr (Argument.value a).unplaced).causes =
      (ctx.lowerExpr a.value).causes) :
    (ctx.lowerArguments (Argument.unplacedAll args)).causes = (ctx.lowerArguments args).causes := by
  rw [lowerArguments_eq_mapM, lowerArguments_eq_mapM, Argument.unplacedAll_eq_map]
  refine Traced.causes_mapM_map ?_
  rintro ⟨loc, value⟩ ha
  exact Traced.causes_bind_congr (ih _ ha) fun e => causes_nonBlank_unplaced ctx _ _ _ _ e

/-- **An expression comes to the same without its locations.** -/
theorem causes_lowerExpr_unplaced (hr : ctx.resolve.IgnoresLocations) (n : Node) :
    (ctx.lowerExpr n.unplaced).causes = (ctx.lowerExpr n).causes := by
  induction n using Node.expression_induction with
  | name loc id => rfl
  | literal loc token => rfl
  | memberAccess loc target member operator ih =>
    rw [Node.unplaced, lowerExpr, lowerExpr]
    exact Traced.causes_bind_congr ih fun t => rfl
  | assignment loc left operator right ihl ihr =>
    rw [Node.unplaced, lowerExpr, lowerExpr]
    refine Traced.causes_bind_congr ihl fun l => ?_
    exact Traced.causes_bind_congr ihr fun r => rfl
  | argument loc value ih =>
    exact Traced.causes_bind_congr ih fun e => causes_nonBlank_unplaced ctx _ _ _ _ e
  | argumentList loc args ih =>
    rw [Node.unplaced, lowerExpr, lowerExpr]
    exact Traced.causes_bind_congr (causes_lowerArguments_unplaced ih) fun es => rfl
  | initializer loc value ih =>
    exact Traced.causes_bind_congr ih fun v => rfl
  | invocation loc callee listLoc args ih =>
    rw [Node.unplaced, lowerExpr, lowerExpr]
    refine Traced.causes_bind_congr (causes_calledFunction_unplaced hr _ _ _) fun f => ?_
    exact Traced.causes_bind_congr (causes_lowerArguments_unplaced ih) fun es => rfl
  | objectCreation loc type listLoc args ih =>
    rw [Node.unplaced, lowerExpr, lowerExpr]
    refine Traced.causes_bind_congr (causes_constructor_unplaced hr _ _ _) fun f => ?_
    exact Traced.causes_bind_congr (causes_lowerArguments_unplaced ih) fun es => rfl
  | other n hn =>
    have hn' : n.unplaced.kind.isExpressible = false := by rwa [Node.kind_unplaced]
    rw [lowerExpr_of_not_isExpressible hn, lowerExpr_of_not_isExpressible hn', Node.kind_unplaced]
    rfl

theorem causes_lowerValue_unplaced (hr : ctx.resolve.IgnoresLocations) (use : Use)
    (value site site' : Node) :
    (ctx.lowerValue use value.unplaced site').causes = (ctx.lowerValue use value site).causes :=
  Traced.causes_bind_congr (causes_lowerExpr_unplaced hr value) fun e =>
    causes_nonBlank_unplaced ctx _ _ _ _ e

theorem causes_lowerDeclaration_unplaced (hr : ctx.resolve.IgnoresLocations)
    (decl : Declaration) (site site' : Node) :
    (ctx.lowerDeclaration decl.unplaced site').causes =
      (ctx.lowerDeclaration decl site).causes := by
  obtain ⟨declLoc, type, declarators⟩ := decl
  rcases declarators with _ | ⟨⟨varLoc, x, init⟩, _ | ⟨v, vs⟩⟩
  · rfl
  · refine Traced.causes_bind_congr (causes_find ctx _ _ _) fun token => ?_
    refine Traced.causes_bind_congr ?_ fun value => rfl
    rcases init with _ | ⟨initLoc, value⟩
    · rfl
    · exact Traced.causes_bind_congr (causes_lowerExpr_unplaced hr value) fun e => rfl
  · -- of several variables only the number is told
    have hreject : (ctx.lowerDeclaration ⟨declLoc, type, ⟨varLoc, x, init⟩ :: v :: vs⟩ site).causes =
        .fail (.variableCount (vs.length + 2)) := rfl
    have hlength : (Declarator.unplacedAll vs).length = vs.length :=
      Declarator.length_unplacedAll vs
    rw [hreject, ← hlength]
    rfl

theorem causes_lowerUnlocated_unplaced (hr : ctx.resolve.IgnoresLocations) (n : Node) :
    (ctx.lowerUnlocated n.unplaced).causes = (ctx.lowerUnlocated n).causes := by
  cases n with
  | localDeclaration loc decl => exact causes_lowerDeclaration_unplaced hr decl _ _
  | expressionStatement loc value =>
    exact Traced.causes_bind_congr (causes_lowerValue_unplaced hr _ value _ _) fun e => rfl
  | returnStatement loc value =>
    by_cases hnone : value = .absent
    · subst hnone
      rfl
    · have hnone' : value.unplaced ≠ .absent := mt Node.unplaced_eq_absent.1 hnone
      rw [Node.unplaced, lowerUnlocated, lowerUnlocated]
      · exact Traced.causes_bind_congr (causes_lowerValue_unplaced hr _ value _ _) fun e => rfl
      · exact hnone
      · exact hnone'
  | _ => rfl

theorem causes_lowerStatement_unplaced (hr : ctx.resolve.IgnoresLocations) (n : Node) :
    (ctx.lowerStatement n.unplaced).causes = (ctx.lowerStatement n).causes := by
  -- whether a failure takes the place of its statement is decided by locations, but the place is no
  -- part of the cause
  rw [lowerStatement, lowerStatement, Traced.causes_mapError fun e => e.cause_locate _ _,
    Traced.causes_mapError fun e => e.cause_locate _ _]
  exact causes_lowerUnlocated_unplaced hr n

/-- **A method comes to the same without the locations of its body**, with the same log. -/
theorem causes_lowerFunction_unplaced (hr : ctx.resolve.IgnoresLocations) (m : Method)
    (b : Body) :
    (ctx.lowerFunction ⟨m, b.unplaced⟩).causes = (ctx.lowerFunction ⟨m, b⟩).causes := by
  have hbody : (ctx.lowerBody (b.statements.map Node.unplaced)).causes =
      (ctx.lowerBody b.statements).causes :=
    Traced.causes_mapM_map fun n _ => causes_lowerStatement_unplaced hr n
  unfold lowerFunction
  simp only [Body.statements_unplaced, List.length_map]
  refine Traced.causes_bind_congr rfl fun _ => Traced.causes_bind_congr rfl fun s => ?_
  exact Traced.causes_bind_congr hbody fun ss => rfl

/-- Every failure of a method is reported under the file that is current. -/
theorem file_eq_of_lowerFunction {d : Definition} {e : Diagnostic}
    (h : (ctx.lowerFunction d).outcome = .error e) : e.file = fileSetting ctx.file := by
  simp only [lowerFunction, Traced.outcome_bind_eq_error] at h
  rcases h with h | ⟨_, -, h | ⟨s, -, h | ⟨ss, -, h | ⟨_, -, h⟩⟩⟩⟩
  · cases h
  · exact ((quietUnless_lowerSignature d.method).of_error h).file_eq
  · exact ((quietUnless_lowerBody d.body.statements).of_error h).file_eq
  · cases h
  · cases h

/-- **Locations have no influence on what is generated.** Two bodies that differ in the locations of
their nodes at most both become the same text, or both fail with failures of which only the node may
differ: they have the same kind, the same text and the same file. The logs are the same. -/
theorem emitIndented_ignores_locations (dialect : Dialect) (t : SymbolTable)
    (resolution : Resolution) (file : Option String) (indent : String) (m : Method) {b b' : Body}
    (h : b'.unplaced = b.unplaced) :
    let ctx : Context := ⟨dialect, resolution.resolver t, file⟩
    let x := ctx.emitIndented indent ⟨m, b⟩
    let x' := ctx.emitIndented indent ⟨m, b'⟩
    ((∃ text, x.outcome = .ok text ∧ x'.outcome = .ok text) ∨
      ∃ e e', x.outcome = .error e ∧ x'.outcome = .error e' ∧
        e'.kind = e.kind ∧ e'.text = e.text ∧ e'.file = e.file ∧
        e' = { e with node := e'.node }) ∧
    x'.log = x.log := by
  intro ctx x x'
  have hr : ctx.resolve.IgnoresLocations := resolution.resolver_ignoresLocations t
  have hfunction : (ctx.lowerFunction ⟨m, b'⟩).causes = (ctx.lowerFunction ⟨m, b⟩).causes := by
    rw [← causes_lowerFunction_unplaced hr, h, causes_lowerFunction_unplaced hr]
  have hcauses : x'.causes = x.causes := Traced.causes_bind_congr hfunction fun f => rfl
  have hfile : ∀ d e, (ctx.emitIndented indent d).outcome = .error e →
      e.file = fileSetting ctx.file := by
    intro d e he
    rcases Traced.outcome_bind_eq_error.1 he with hfails | ⟨f, -, hpure⟩
    · exact file_eq_of_lowerFunction hfails
    · cases hpure
  obtain ⟨hcases, hlog⟩ := Traced.cases_of_causes_eq hcauses
  refine ⟨?_, hlog⟩
  rcases hcases with hok | ⟨e, e', he, he', hcause⟩
  · exact .inl hok
  · have hsame : e'.file = e.file := (hfile _ _ he').trans (hfile _ _ he).symm
    refine .inr ⟨e, e', he, he', ?_, ?_, hsame, ?_⟩
    · rw [Diagnostic.kind, Diagnostic.kind, hcause]
    · rw [Diagnostic.text, Diagnostic.text, hcause]
    · rw [← hcause, ← hsame]

/-- A negation without a line is reported at its statement and one with a line at itself; the kind and
the text of the failure are the same. -/
theorem negation_fails_alike :
    let t : SymbolTable := .empty
    let ctx : Context := ⟨floatOnly.dialect, Resolution.paths.resolver t, some "Foo.cs"⟩
    let m : Method := ⟨"Foo", ⟨"float", none⟩, []⟩
    let negation (loc : Location) : Node := .unary loc "-" (.name .unknown "a")
    let statement (loc : Location) : Node := .returnStatement ⟨some 7, some 4⟩ (negation loc)
    let b : Body := .bare [statement .unknown]
    let b' : Body := .bare [statement ⟨some 8, none⟩]
    b'.unplaced = b.unplaced ∧
      ∃ e e', (ctx.emitIndented "" ⟨m, b⟩).outcome = .error e ∧
        (ctx.emitIndented "" ⟨m, b'⟩).outcome = .error e' ∧
        e.message = "Unsupported expression: UnaryExpression in Foo.cs at line 7, column 4" ∧
        e'.message = "Unsupported expression: UnaryExpression in Foo.cs at line 8" ∧
        e'.kind = e.kind ∧ e'.text = e.text ∧ e'.file = e.file := by
  intro t ctx m negation statement b b'
  have h : b'.unplaced = b.unplaced := rfl
  let found (node : Node) : Diagnostic :=
    .report (some "Foo.cs") (.unsupported .expression .unary) node
  have he : (ctx.emitIndented "" ⟨m, b⟩).outcome = .error (found (statement .unknown)) := rfl
  have he' : (ctx.emitIndented "" ⟨m, b'⟩).outcome = .error (found (negation ⟨some 8, none⟩)) := rfl
  obtain ⟨hcases, -⟩ :=
    emitIndented_ignores_locations floatOnly.dialect t .paths (some "Foo.cs") "" m h
  refine ⟨h, found (statement .unknown), found (negation ⟨some 8, none⟩), he, he', by decide +kernel,
    by decide +kernel, ?_⟩
  rcases hcases with ⟨text, hok, -⟩ | ⟨e, e', hx, hx', hkind, htext, hfile, -⟩
  · cases he.symm.trans hok
  · obtain rfl := Except.error.inj (he.symm.trans hx)
    obtain rfl := Except.error.inj (he'.symm.trans hx')
    exact ⟨hkind, htext, hfile⟩

end Context

end Shading
