import Mathlib.Data.List.Perm.Basic
import Shading.Proofs.Rendered

/-!
# What a text is made of

A source text consists of its atoms, which are the words that the method and the dialect contribute,
and of the characters that are put around and between them. Each atom is there once for each time it
occurs in the method, and the other characters can be told from the shape of the trees alone.

* `Context.ownAtoms`, `Node.glue`: what an expression contributes itself, besides its parts.
* `Context.perm_lowerExpr`: **an expression is made of what is rendered in it.**
* `Context.atoms`, `Definition.glue`: all atoms of a function, and all that is put around them.
* `Context.perm_lowerFunction`: **a function is made of its atoms and of what is put around them.**
-/

namespace Shading

namespace Target

/-- What is put between `n` items: commas and spaces. -/
def separators (n : ℕ) : List Char :=
  (List.replicate (n - 1) [',', ' ']).flatten

theorem separators_add_two (n : ℕ) : separators (n + 2) = ',' :: ' ' :: separators (n + 1) := by
  rw [separators, separators]
  exact congrArg List.flatten List.replicate_succ

/-- Items in a row are made of themselves and of what is between them. -/
theorem perm_commaSeparated (items : List String) :
    (commaSeparated items).toList.Perm
      (items.flatMap String.toList ++ separators items.length) := by
  induction items with
  | nil => exact .nil
  | cons a items ih =>
    cases items with
    | nil => simp [commaSeparated, separators]
    | cons b items =>
      have hrow : (commaSeparated (a :: b :: items)).toList =
          a.toList ++ ',' :: ' ' :: (commaSeparated (b :: items)).toList := by
        simp [commaSeparated, String.intercalate_cons_cons]
      rw [hrow, List.length_cons, List.length_cons, separators_add_two, List.flatMap_cons,
        List.append_assoc]
      -- the separator moves from before the other items to behind them
      have hitems := List.perm_iff_count.1 ih
      refine .append_left _ (List.perm_iff_count.2 fun c => ?_)
      have hc := hitems c
      simp only [List.count_append, List.count_cons, List.length_cons] at hc ⊢
      omega

end Target

namespace Node

/-- What is put around the parts of an expression. -/
def glue : Node → List Char
  | assignment .. => [' ', ' ']
  | argumentList _ args => Target.separators args.length
  | initializer _ => ['=', ' ']
  | invocation _ _ _ args | objectCreation _ _ _ args =>
    '(' :: (Target.separators args.length ++ [')'])
  | _ => []

/-- What is put around the parts of a statement, the end of its line included. -/
def lineGlue : Node → List Char
  | localDeclaration _ ⟨_, _, [⟨_, _, some _⟩]⟩ => [' ', ' ', '=', ' ', ';', '\n']
  | localDeclaration .. => [' ', ';', '\n']
  | returnStatement _ .absent => "return;\n".toList
  | returnStatement .. => "return ;\n".toList
  | _ => [';', '\n']

theorem lineGlue_returnStatement {value : Node} (h : value ≠ .absent) (loc : Location) :
    (returnStatement loc value).lineGlue = "return ;\n".toList := by
  cases value with
  | absent => exact absurd rfl h
  | _ => rfl

end Node

namespace Context

variable (ctx : Context)

/-- The atoms of a type: its word, if the dialect has one. -/
def typeAtoms (t : TypeRef) : List String :=
  (ctx.dialect.find? (.type t.fullName)).toList

/-- The atoms that an expression contributes itself: those of its parts are not among them. -/
def ownAtoms : Node → List String
  | .name _ id => [id]
  | .literal _ token => [token]
  | .memberAccess _ _ member operator => [operator, member.id]
  | .assignment _ _ operator _ => [operator]
  | .invocation _ callee _ _ =>
    (((ctx.resolve callee).bind Symbol.methodKey?).bind fun key =>
      ctx.dialect.find? (.method key)).toList
  | .objectCreation _ type _ _ =>
    (((ctx.resolve type).bind Symbol.typeName?).bind fun name =>
      ctx.dialect.find? (.type name)).toList
  | _ => []

/-- The atoms that a statement contributes besides its expressions: those of a declaration are its
type and its variable. -/
def declaredAtoms : Node → List String
  | .localDeclaration _ decl =>
    ctx.typeAtoms decl.type ++ decl.declarators.map Declarator.identifier
  | _ => []

/-- The atoms of a signature: the type it returns, its name, and the type and name of each of its
parameters. -/
def signatureAtoms (m : Method) : List String :=
  ctx.typeAtoms m.returnType ++ m.name ::
    m.parameters.flatMap fun p => ctx.typeAtoms p.type ++ [p.name]

/-- What an expression contributes itself to a text. -/
def share (n : Node) : List Char :=
  (ctx.ownAtoms n).flatMap String.toList ++ n.glue

end Context

namespace Definition

/-- All that is rendered in the body. -/
def expressions (d : Definition) : List Node :=
  d.body.statements.flatMap Node.expressions

/-- All that is put around the atoms: in the signature, on the lines of the braces, around the parts
of the statements and around those of the expressions. -/
def glue (d : Definition) : List Char :=
  [' ', '('] ++ d.method.parameters.map (fun _ => ' ') ++
    Target.separators d.method.parameters.length ++ [')', '\n', '\x7b', '\n', '\x7d', '\n'] ++
    d.body.statements.flatMap Node.lineGlue ++ d.expressions.flatMap Node.glue

end Definition

/-- All atoms of the function that a method becomes, each as often as it occurs. -/
def Context.atoms (ctx : Context) (indent : String) (d : Definition) : List String :=
  ctx.signatureAtoms d.method ++
    d.body.statements.flatMap (fun n => indent :: ctx.declaredAtoms n) ++
    d.expressions.flatMap ctx.ownAtoms

namespace Context

variable {ctx : Context}

theorem ownAtoms_invocation {callee site : Node} {f : String}
    (h : (ctx.calledFunction callee site).outcome = .ok f) (loc listLoc : Location)
    (args : List Argument) : ctx.ownAtoms (.invocation loc callee listLoc args) = [f] := by
  rw [calledFunction] at h
  cases hkey : ctx.calledMethod callee site with
  | error e =>
    rw [hkey] at h
    cases h
  | ok key =>
    rw [hkey] at h
    have hsymbol := (calledMethod_eq_ok.1 hkey).2
    have hword := outcome_find_eq_ok.1 h
    rw [ownAtoms, hsymbol, Option.bind_some, hword]
    rfl

theorem ownAtoms_objectCreation {type site : Node} {f : String}
    (h : (ctx.constructor type site).outcome = .ok f) (loc listLoc : Location)
    (args : List Argument) : ctx.ownAtoms (.objectCreation loc type listLoc args) = [f] := by
  rw [constructor] at h
  cases hname : ctx.constructedType type site with
  | error e =>
    rw [hname] at h
    cases h
  | ok name =>
    rw [hname] at h
    have hsymbol := constructedType_eq_ok.1 hname
    have hword := outcome_find_eq_ok.1 h
    rw [ownAtoms, hsymbol, Option.bind_some, hword]
    rfl

/-- Arguments are made of what is rendered in them, if each of them is, and of what is between
them. -/
theorem perm_lowerArguments {args : List Argument} {es : List Target.Expr}
    (h : (ctx.lowerArguments args).outcome = .ok es)
    (hargs : ∀ a ∈ args, ∀ e, (ctx.lowerExpr (Argument.value a)).outcome = .ok e →
      e.text.toList.Perm (a.value.rendered.flatMap ctx.share)) :
    (Target.commaSeparated (Target.Expr.texts es)).toList.Perm
      (Target.separators args.length ++ (Argument.renderedAll args).flatMap ctx.share) := by
  have hes := outcome_lowerArguments_eq_ok.1 h
  have hitems : ((es.map Target.Expr.text).flatMap String.toList).Perm
      ((Argument.renderedAll args).flatMap ctx.share) := by
    clear h
    induction hes with
    | nil => exact .nil
    | @cons a e args es ha _ ih =>
      obtain ⟨loc, value⟩ := a
      have hvalue := hargs ⟨loc, value⟩ List.mem_cons_self e ha.1
      have hrest := ih fun a ha => hargs a (List.mem_cons_of_mem _ ha)
      rw [Argument.renderedAll, Argument.rendered, List.flatMap_append]
      exact hvalue.append hrest
  have hlength : (es.map Target.Expr.text).length = args.length := by
    rw [List.length_map, hes.length_eq]
  rw [Target.Expr.texts_eq_map]
  refine (Target.perm_commaSeparated _).trans (List.perm_append_comm.trans ?_)
  rw [hlength]
  exact hitems.append_left _

/-- A call is made of its function, its parentheses and what is between them. -/
theorem perm_call (f : String) {es : List Target.Expr} {between parts : List Char}
    (h : (Target.commaSeparated (Target.Expr.texts es)).toList.Perm (between ++ parts)) :
    (Target.Expr.call f es).text.toList.Perm
      (f.toList ++ '(' :: (between ++ [')']) ++ parts) := by
  have htext : (Target.Expr.call f es).text.toList =
      f.toList ++ '(' :: ((Target.commaSeparated (Target.Expr.texts es)).toList ++ [')']) := by
    simp [Target.Expr.text]
  rw [htext]
  refine List.perm_iff_count.2 fun c => ?_
  have hc := List.perm_iff_count.1 h c
  simp only [List.count_append, List.count_cons] at hc ⊢
  omega

/-- **An expression is made of what is rendered in it**, nothing being left out and nothing being
there twice. -/
theorem perm_lowerExpr {n : Node} {e : Target.Expr} (h : (ctx.lowerExpr n).outcome = .ok e) :
    e.text.toList.Perm (n.rendered.flatMap ctx.share) := by
  induction n using Node.expression_induction generalizing e with
  | name loc id =>
    obtain rfl := outcome_lowerExpr_name_eq_ok.1 h
    simp [Target.Expr.text, Node.rendered, share, ownAtoms, Node.glue]
  | literal loc token =>
    obtain rfl := outcome_lowerExpr_literal_eq_ok.1 h
    simp [Target.Expr.text, Node.rendered, share, ownAtoms, Node.glue]
  | memberAccess loc target member operator ih =>
    obtain ⟨t, ht, rfl⟩ := outcome_lowerExpr_memberAccess_eq_ok.1 h
    have hshare : ctx.share (.memberAccess loc target member operator) =
        operator.toList ++ member.id.toList := by
      simp [share, ownAtoms, Node.glue]
    rw [Node.rendered, List.flatMap_cons, hshare, Target.Expr.text, String.toList_append,
      String.toList_append, List.append_assoc]
    exact List.perm_append_comm.trans ((ih ht).append_left _)
  | assignment loc left operator right ihl ihr =>
    obtain ⟨l, r, hl, hr, rfl⟩ := outcome_lowerExpr_assignment_eq_ok.1 h
    have hshare : ctx.share (.assignment loc left operator right) =
        operator.toList ++ [' ', ' '] := by
      simp [share, ownAtoms, Node.glue]
    have htext : (Target.Expr.assign l operator r).text.toList =
        l.text.toList ++ ' ' :: (operator.toList ++ ' ' :: r.text.toList) := by
      simp [Target.Expr.text]
    rw [Node.rendered, List.flatMap_cons, hshare, List.flatMap_append, htext]
    refine List.perm_iff_count.2 fun c => ?_
    have hleft := List.perm_iff_count.1 (ihl hl) c
    have hright := List.perm_iff_count.1 (ihr hr) c
    simp only [List.count_append, List.count_cons, List.count_nil]
    omega
  | argument loc value ih =>
    have hvalue := (outcome_lowerExpr_argument_eq_ok.1 h).1
    exact ih hvalue
  | argumentList loc args ih =>
    obtain ⟨es, hes, rfl⟩ := outcome_lowerExpr_argumentList_eq_ok.1 h
    exact perm_lowerArguments hes ih
  | initializer loc value ih =>
    obtain ⟨v, hv, rfl⟩ := outcome_lowerExpr_initializer_eq_ok.1 h
    rw [Node.rendered, List.flatMap_cons, Target.Expr.text, String.toList_append]
    exact (ih hv).append_left _
  | invocation loc callee listLoc args ih =>
    obtain ⟨f, es, hf, hes, rfl⟩ := outcome_lowerExpr_invocation_eq_ok.1 h
    have hshare : ctx.share (.invocation loc callee listLoc args) =
        f.toList ++ '(' :: (Target.separators args.length ++ [')']) := by
      rw [share, ownAtoms_invocation hf, List.flatMap_singleton, Node.glue]
    rw [Node.rendered, List.flatMap_cons, hshare]
    exact perm_call f (perm_lowerArguments hes ih)
  | objectCreation loc type listLoc args ih =>
    obtain ⟨f, es, hf, hes, rfl⟩ := outcome_lowerExpr_objectCreation_eq_ok.1 h
    have hshare : ctx.share (.objectCreation loc type listLoc args) =
        f.toList ++ '(' :: (Target.separators args.length ++ [')']) := by
      rw [share, ownAtoms_objectCreation hf, List.flatMap_singleton, Node.glue]
    rw [Node.rendered, List.flatMap_cons, hshare]
    exact perm_call f (perm_lowerArguments hes ih)
  | other n hn => exact absurd h (outcome_lowerExpr_ne_ok hn e)

/-- What a statement contributes to its line behind the indentation: the atoms of what it declares,
what is put around its parts, and its expressions. -/
def lineShare (ctx : Context) (n : Node) : List Char :=
  (ctx.declaredAtoms n).flatMap String.toList ++ n.lineGlue ++ n.expressions.flatMap ctx.share

/-- A line is made of what its statement contributes. -/
theorem perm_lowerStatement {n : Node} {s : Target.Statement}
    (h : (ctx.lowerStatement n).outcome = .ok s) :
    (s.text.toList ++ ['\n']).Perm (ctx.lineShare n) := by
  cases StatementLowering.of_lowerStatement h with
  | @declaration loc declLoc varLoc type x token htoken =>
    have hshare : ctx.lineShare (.localDeclaration loc ⟨declLoc, type, [⟨varLoc, x, none⟩]⟩) =
        token.toList ++ x.toList ++ [' ', ';', '\n'] := by
      have hglue : (Node.localDeclaration loc ⟨declLoc, type, [⟨varLoc, x, none⟩]⟩).lineGlue =
          [' ', ';', '\n'] := rfl
      rw [lineShare, hglue, declaredAtoms, typeAtoms, htoken]
      simp [Node.expressions]
    have htext : (Target.Statement.declare token x none).text.toList =
        token.toList ++ ' ' :: (x.toList ++ [';']) := by
      simp [Target.Statement.text]
    rw [hshare, htext]
    refine List.perm_iff_count.2 fun c => ?_
    simp only [List.count_append, List.count_cons, List.count_nil]
    omega
  | @initialization loc declLoc varLoc initLoc type x token value e htoken he =>
    have hshare :
        ctx.lineShare
            (.localDeclaration loc ⟨declLoc, type, [⟨varLoc, x, some ⟨initLoc, value⟩⟩]⟩) =
          token.toList ++ x.toList ++ [' ', ' ', '=', ' ', ';', '\n'] ++
            value.rendered.flatMap ctx.share := by
      have hglue : (Node.localDeclaration loc
          ⟨declLoc, type, [⟨varLoc, x, some ⟨initLoc, value⟩⟩]⟩).lineGlue =
            [' ', ' ', '=', ' ', ';', '\n'] := rfl
      rw [lineShare, hglue, declaredAtoms, typeAtoms, htoken]
      simp [Node.expressions]
    have htext : (Target.Statement.declare token x (some e)).text.toList =
        token.toList ++ ' ' :: (x.toList ++ ' ' :: '=' :: ' ' :: (e.text.toList ++ [';'])) := by
      simp [Target.Statement.text, Target.Expr.text]
    rw [hshare, htext]
    refine List.perm_iff_count.2 fun c => ?_
    have hvalue := List.perm_iff_count.1 (perm_lowerExpr he) c
    simp only [List.count_append, List.count_cons, List.count_nil]
    omega
  | @effect loc value e he hne =>
    have hshare : ctx.lineShare (.expressionStatement loc value) =
        [';', '\n'] ++ value.rendered.flatMap ctx.share := rfl
    have htext : (Target.Statement.effect e).text.toList = e.text.toList ++ [';'] := by
      simp [Target.Statement.text]
    rw [hshare, htext, List.append_assoc]
    exact List.perm_append_comm.trans ((perm_lowerExpr he).append_left _)
  | @returnNothing loc =>
    have hshare : ctx.lineShare (.returnStatement loc .absent) = "return;\n".toList := rfl
    have htext : (Target.Statement.ret none).text.toList ++ ['\n'] = "return;\n".toList := by
      simp [Target.Statement.text]
    rw [hshare, htext]
  | @returnValue loc value e he hne =>
    have hvalue : value ≠ .absent := by
      rintro rfl
      exact outcome_lowerExpr_ne_ok rfl e he
    have hshare : ctx.lineShare (.returnStatement loc value) =
        "return ;\n".toList ++ value.rendered.flatMap ctx.share := by
      rw [lineShare, Node.expressions_returnStatement hvalue, Node.lineGlue_returnStatement hvalue]
      rfl
    have htext : (Target.Statement.ret (some e)).text.toList =
        "return ".toList ++ (e.text.toList ++ [';']) := by
      simp [Target.Statement.text]
    have hglue : "return ;\n".toList = "return ".toList ++ [';', '\n'] := rfl
    rw [hshare, htext, hglue, List.append_assoc, List.append_assoc, List.append_assoc]
    exact .append_left _ (List.perm_append_comm.trans ((perm_lowerExpr he).append_left _))

/-- Parameters are made of their atoms, of what is in each of them and of what is between them. -/
theorem perm_lowerParameters {ps : List Parameter} {qs : List Target.Parameter}
    (h : List.Forall₂
      (fun p q => ctx.dialect.find? (.type p.type.fullName) = some q.type ∧ q.name = p.name)
      ps qs) :
    (Target.Signature.parameterText qs).toList.Perm
      ((ps.flatMap fun p => ctx.typeAtoms p.type ++ [p.name]).flatMap String.toList ++
        ps.map (fun _ => ' ') ++ Target.separators ps.length) := by
  have hitems : ((qs.map Target.Parameter.text).flatMap String.toList).Perm
      ((ps.flatMap fun p => ctx.typeAtoms p.type ++ [p.name]).flatMap String.toList ++
        ps.map fun _ => ' ') := by
    induction h with
    | nil => exact .nil
    | @cons p q ps qs hp _ ih =>
      have htext : q.text.toList = q.type.toList ++ ' ' :: p.name.toList := by
        simp [Target.Parameter.text, hp.2]
      have hatoms : (ctx.typeAtoms p.type ++ [p.name]).flatMap String.toList =
          q.type.toList ++ p.name.toList := by
        simp [typeAtoms, hp.1]
      rw [List.map_cons, List.flatMap_cons, htext, List.flatMap_cons, List.flatMap_append, hatoms,
        List.map_cons]
      refine List.perm_iff_count.2 fun c => ?_
      have hc := List.perm_iff_count.1 ih c
      simp only [List.count_append, List.count_cons] at hc ⊢
      omega
  have hlength : (qs.map Target.Parameter.text).length = ps.length := by
    rw [List.length_map, h.length_eq]
  have hrow := Target.perm_commaSeparated (qs.map Target.Parameter.text)
  rw [hlength] at hrow
  exact hrow.trans (hitems.append_right _)

/-- A signature is made of its atoms and of what is put around them. -/
theorem perm_lowerSignature {m : Method} {s : Target.Signature}
    (h : (ctx.lowerSignature m).outcome = .ok s) :
    s.text.toList.Perm
      ((ctx.signatureAtoms m).flatMap String.toList ++ ([' ', '('] ++
        m.parameters.map (fun _ => ' ') ++ Target.separators m.parameters.length ++ [')'])) := by
  obtain ⟨htoken, hname, hps⟩ := outcome_lowerSignature_eq_ok.1 h
  have htext : s.text.toList = s.returnType.toList ++ ' ' :: (m.name.toList ++
      '(' :: ((Target.Signature.parameterText s.parameters).toList ++ [')'])) := by
    simp [Target.Signature.text, hname]
  have hatoms : (ctx.signatureAtoms m).flatMap String.toList =
      s.returnType.toList ++ m.name.toList ++
        (m.parameters.flatMap fun p => ctx.typeAtoms p.type ++ [p.name]).flatMap String.toList := by
    rw [signatureAtoms, typeAtoms, htoken]
    simp
  rw [htext, hatoms]
  refine List.perm_iff_count.2 fun c => ?_
  have hc := List.perm_iff_count.1 (perm_lowerParameters hps) c
  simp only [List.count_append, List.count_cons, List.count_nil] at hc ⊢
  omega

/-- Lines are made of what their statements contribute. -/
theorem perm_lowerBody {ns : List Node} {ss : List Target.Statement}
    (h : (ctx.lowerBody ns).outcome = .ok ss) (indent : String) :
    (ss.flatMap fun s => (s.line indent).toList ++ ['\n']).Perm
      ((ns.flatMap fun n => indent :: ctx.declaredAtoms n).flatMap String.toList ++
        ns.flatMap Node.lineGlue ++ (ns.flatMap Node.expressions).flatMap ctx.share) := by
  have hss := outcome_lowerBody_eq_ok.1 h
  clear h
  induction hss with
  | nil => exact .nil
  | @cons n s ns ss hs _ ih =>
    rw [List.flatMap_cons, List.flatMap_cons, List.flatMap_cons, List.flatMap_cons,
      List.flatMap_append, List.flatMap_append, List.flatMap_cons, Target.Statement.line,
      String.toList_append]
    refine List.perm_iff_count.2 fun c => ?_
    have hline := List.perm_iff_count.1 (perm_lowerStatement hs) c
    have hrest := List.perm_iff_count.1 ih c
    rw [lineShare] at hline
    simp only [List.count_append] at hline hrest ⊢
    omega

/-- Expressions together contribute their atoms and what is put around them. -/
theorem perm_flatMap_share (ctx : Context) (ns : List Node) :
    (ns.flatMap ctx.share).Perm
      ((ns.flatMap ctx.ownAtoms).flatMap String.toList ++ ns.flatMap Node.glue) := by
  have hshare := List.flatMap_append_perm ns (fun n => (ctx.ownAtoms n).flatMap String.toList)
    Node.glue
  rw [List.flatMap_assoc]
  exact hshare.symm

end Context

namespace Target.Function

theorem toList_lines {ls : List String} (h : ls ≠ []) :
    (String.intercalate "\n" ls ++ "\n").toList = ls.flatMap fun l => l.toList ++ ['\n'] := by
  induction ls with
  | nil => exact absurd rfl h
  | cons l ls ih =>
    cases ls with
    | nil => simp
    | cons l' ls =>
      have hrest := ih (List.cons_ne_nil l' ls)
      rw [List.flatMap_cons, ← hrest, String.intercalate_cons_cons]
      simp

/-- All lines of a source text end alike. -/
theorem toList_text (indent : String) (f : Function) :
    (f.text indent).toList = (f.lines indent).flatMap fun l => l.toList ++ ['\n'] :=
  toList_lines (List.cons_ne_nil _ _)

end Target.Function

namespace Context

variable {ctx : Context} {d : Definition}

/-- A function is made of its atoms and of what is put around them. -/
theorem perm_lowerFunction {f : Target.Function} (h : (ctx.lowerFunction d).outcome = .ok f)
    (indent : String) :
    (f.text indent).toList.Perm ((ctx.atoms indent d).flatMap String.toList ++ d.glue) := by
  obtain ⟨hsignature, hbody⟩ := outcome_lowerFunction_eq_ok.1 h
  have htext : (f.text indent).toList =
      f.signature.text.toList ++ '\n' :: '\x7b' :: '\n' ::
        ((f.body.flatMap fun s => (s.line indent).toList ++ ['\n']) ++ ['\x7d', '\n']) := by
    rw [f.toList_text, Target.Function.lines, List.flatMap_cons, List.flatMap_cons,
      List.flatMap_append, List.flatMap_map]
    simp
  rw [htext, atoms, Definition.glue, List.flatMap_append, List.flatMap_append]
  refine List.perm_iff_count.2 fun c => ?_
  have hs := List.perm_iff_count.1 (perm_lowerSignature hsignature) c
  have hb := List.perm_iff_count.1 (perm_lowerBody hbody indent) c
  have he := List.perm_iff_count.1 (perm_flatMap_share ctx d.expressions) c
  rw [Definition.expressions] at he ⊢
  simp only [List.count_append, List.count_cons, List.count_nil] at hs hb he ⊢
  omega

end Context

end Shading
