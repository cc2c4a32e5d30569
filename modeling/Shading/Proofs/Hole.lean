import Shading.Proofs.InStep
import Shading.Proofs.Failing
import Shading.Task

/-!
# Trees with a hole

A node in which one expression is left open, at any depth and below whatever constructs, but not in
a callee or a constructed type: these are asked about and not written. What fills such a hole
matters only through its text, if it has one.

* `Frame`: a node with a hole right below it; `Frame.fillAll`: several of them around each other.
* `Context.Interchangeable`: two nodes that are written alike, and of which blankness tells nothing.
* `Context.Interchangeable.fill`: **nodes around interchangeable ones are interchangeable.**
* `Context.emitIndented_fill_of_same_text`: **what fills a hole matters only through its text.**
-/

namespace Shading

/-- The arguments around one whose value is left open. -/
structure ArgumentFrame where
  before : List Argument
  loc : Location
  after : List Argument

/-- A declarator whose first value is left open. -/
structure DeclaratorFrame where
  loc : Location
  identifier : String
  initLoc : Location

/-- A declaration with such a declarator. -/
structure DeclarationFrame where
  loc : Location
  type : TypeRef
  before : List Declarator
  var : DeclaratorFrame
  after : List Declarator

/-- A node in which one node right below it is left open. -/
inductive Frame where
  | target (loc : Location) (member : Ident) (operator : String)
  | left (loc : Location) (operator : String) (right : Node)
  | right (loc : Location) (left : Node) (operator : String)
  | argument (loc : Location)
  | argumentList (loc : Location) (row : ArgumentFrame)
  | invocation (loc : Location) (callee : Node) (listLoc : Location) (row : ArgumentFrame)
  | objectCreation (loc : Location) (type : Node) (listLoc : Location) (row : ArgumentFrame)
  | initializer (loc : Location)
  | leftOperand (loc : Location) (operator : String) (right : Node)
  | rightOperand (loc : Location) (left : Node) (operator : String)
  | operand (loc : Location) (operator : String)
  | condition (loc : Location) (whenTrue whenFalse : Node)
  | whenTrue (loc : Location) (condition whenFalse : Node)
  | whenFalse (loc : Location) (condition whenTrue : Node)
  | indexed (loc : Location) (index : Node)
  | index (loc : Location) (target : Node)
  | cast (loc : Location) (type : TypeRef)
  | declarator (var : DeclaratorFrame)
  | declaration (decl : DeclarationFrame)
  | localDeclaration (loc : Location) (decl : DeclarationFrame)
  | expressionStatement (loc : Location)
  | returnStatement (loc : Location)
  | block (loc : Location) (before after : List Node)
  | ifCondition (loc : Location) (body alternative : Node)
  | ifBody (loc : Location) (condition alternative : Node)
  | ifAlternative (loc : Location) (condition body : Node)
  | whileCondition (loc : Location) (body : Node)
  | whileBody (loc : Location) (condition : Node)
  | forDeclaration (loc : Location) (decl : DeclarationFrame) (condition : Node)
      (increments : List Node) (body : Node)
  | forCondition (loc : Location) (decl : Option Declaration) (increments : List Node) (body : Node)
  | forIncrement (loc : Location) (decl : Option Declaration) (condition : Node)
      (before after : List Node) (body : Node)
  | forBody (loc : Location) (decl : Option Declaration) (condition : Node)
      (increments : List Node)

/-- The arguments with `n` as the value that was left open. -/
def ArgumentFrame.fill (row : ArgumentFrame) (n : Node) : List Argument :=
  row.before ++ ⟨row.loc, n⟩ :: row.after

/-- The declarator with `n` as its first value. -/
def DeclaratorFrame.fill (var : DeclaratorFrame) (n : Node) : Declarator :=
  ⟨var.loc, var.identifier, some ⟨var.initLoc, n⟩⟩

/-- The declaration with `n` as the first value that was left open. -/
def DeclarationFrame.fill (decl : DeclarationFrame) (n : Node) : Declaration :=
  ⟨decl.loc, decl.type, decl.before ++ decl.var.fill n :: decl.after⟩

/-- A body in which one expression is left open: the block that it is, if it is one, the statement
with the hole, as a frame around further frames, and the statements before and after it. -/
structure BodyFrame where
  block : Option Location
  before : List Node
  outer : Frame
  inner : List Frame
  after : List Node

namespace Frame

/-- The node with `n` in its hole. -/
def fill : Frame → Node → Node
  | .target loc member op, n => .memberAccess loc n member op
  | .left loc op r, n => .assignment loc n op r
  | .right loc l op, n => .assignment loc l op n
  | .argument loc, n => .argument ⟨loc, n⟩
  | .argumentList loc row, n => .argumentList loc (row.fill n)
  | .invocation loc callee listLoc row, n => .invocation loc callee listLoc (row.fill n)
  | .objectCreation loc type listLoc row, n => .objectCreation loc type listLoc (row.fill n)
  | .initializer loc, n => .initializer ⟨loc, n⟩
  | .leftOperand loc op r, n => .binary loc n op r
  | .rightOperand loc l op, n => .binary loc l op n
  | .operand loc op, n => .unary loc op n
  | .condition loc t f, n => .conditional loc n t f
  | .whenTrue loc c f, n => .conditional loc c n f
  | .whenFalse loc c t, n => .conditional loc c t n
  | .indexed loc i, n => .elementAccess loc n i
  | .index loc t, n => .elementAccess loc t n
  | .cast loc type, n => .cast loc type n
  | .declarator var, n => .declarator (var.fill n)
  | .declaration decl, n => .declaration (decl.fill n)
  | .localDeclaration loc decl, n => .localDeclaration loc (decl.fill n)
  | .expressionStatement loc, n => .expressionStatement loc n
  | .returnStatement loc, n => .returnStatement loc n
  | .block loc before after, n => .block loc (before ++ n :: after)
  | .ifCondition loc body alternative, n => .ifStatement loc n body alternative
  | .ifBody loc c alternative, n => .ifStatement loc c n alternative
  | .ifAlternative loc c body, n => .ifStatement loc c body n
  | .whileCondition loc body, n => .whileStatement loc n body
  | .whileBody loc c, n => .whileStatement loc c n
  | .forDeclaration loc decl c increments body, n =>
    .forStatement loc (some (decl.fill n)) c increments body
  | .forCondition loc decl increments body, n => .forStatement loc decl n increments body
  | .forIncrement loc decl c before after body, n =>
    .forStatement loc decl c (before ++ n :: after) body
  | .forBody loc decl c increments, n => .forStatement loc decl c increments n

/-- `n` in the innermost of several frames, the outermost first. -/
def fillAll (fs : List Frame) (n : Node) : Node :=
  fs.foldr fill n

@[simp] theorem fillAll_nil (n : Node) : fillAll [] n = n := rfl

@[simp] theorem fillAll_cons (f : Frame) (fs : List Frame) (n : Node) :
    fillAll (f :: fs) n = f.fill (fillAll fs n) := rfl

/-- From outside it cannot be seen what stands in the hole. -/
theorem outline_fill (f : Frame) (n n' : Node) : (f.fill n).outline = (f.fill n').outline := by
  cases f <;> rfl

end Frame

namespace BodyFrame

/-- The statements with `n` in the hole. -/
def fillStatements (b : BodyFrame) (n : Node) : List Node :=
  b.before ++ b.outer.fill (Frame.fillAll b.inner n) :: b.after

/-- The body with `n` in the hole. -/
def fill (b : BodyFrame) (n : Node) : Body :=
  match b.block with
  | some loc => .block loc (b.fillStatements n)
  | none => .bare (b.fillStatements n)

theorem statements_fill (b : BodyFrame) (n : Node) :
    (b.fill n).statements = b.fillStatements n := by
  unfold fill
  split <;> rfl

end BodyFrame

namespace Context

open Target

variable {ctx : Context} {n n' : Node}

variable (ctx) in
/-- The nodes are lowered in step, and where they are of different kinds they are not blank, so that
their kinds are never told. -/
structure Interchangeable (n n' : Node) : Prop where
  lowered : (ctx.lowerExpr n).InStep Expr.SameText (ctx.lowerExpr n')
  kind_or_shows : n.kind = n'.kind ∨ ∃ e, (ctx.lowerExpr n).outcome = .ok e ∧ e.text ≠ ""

namespace Interchangeable

theorem refl (ctx : Context) (n : Node) : ctx.Interchangeable n n :=
  ⟨.refl Expr.SameText.refl _, .inl rfl⟩

/-- Two nodes that are written as the same text, which is not empty. -/
theorem of_text {text : String} (h : (ctx.expressionText n).outcome = .ok text)
    (h' : (ctx.expressionText n').outcome = .ok text) (hne : text ≠ "") :
    ctx.Interchangeable n n' := by
  obtain ⟨e, he, htext⟩ := Traced.outcome_bind_eq_ok.1 h
  obtain ⟨e', he', htext'⟩ := Traced.outcome_bind_eq_ok.1 h'
  obtain rfl := Except.ok.inj htext
  have hsame : e.SameText e' := (Except.ok.inj htext').symm
  -- what comes to a text has left no record
  have hlog : (ctx.lowerExpr n).log = (ctx.lowerExpr n').log := by
    rw [(quietUnless_lowerExpr n).log_of_ok he, (quietUnless_lowerExpr n').log_of_ok he']
  exact ⟨⟨.inl ⟨e, e', he, he', hsame⟩, hlog⟩, .inr ⟨e, he, hne⟩⟩

/-- A missing node is not interchangeable with anything else. -/
theorem absent_iff (h : ctx.Interchangeable n n') : n = .absent ↔ n' = .absent := by
  rcases h.kind_or_shows with hkind | ⟨e, he, -⟩
  · rw [← Node.kind_eq_absent, ← Node.kind_eq_absent, hkind]
  · rcases h.lowered.outcome with ⟨_, e', -, he', -⟩ | ⟨_, _, herror, -, -⟩
    · refine iff_of_false ?_ ?_
      · rintro rfl
        cases he
      · rintro rfl
        cases he'
    · cases he.symm.trans herror

/-- Values that are lowered in step stay so when blank ones are rejected. -/
theorem lowerValue_inStep (h : ctx.Interchangeable n n') (use : Use) {site site' : Node}
    (hsite : site.outline = site'.outline) :
    (ctx.lowerValue use n site).InStep Expr.SameText (ctx.lowerValue use n' site') := by
  refine h.lowered.bind fun e e' he htext => ?_
  have htext' : e.text = e'.text := htext
  unfold nonBlank
  rw [← htext']
  split
  · rename_i hblank
    -- what shows is not blank, so here the kinds are the same
    rcases h.kind_or_shows with hkind | ⟨e₀, he₀, hshows⟩
    · rw [hkind]
      exact reject_inStep hsite
    · obtain rfl := Except.ok.inj (he.symm.trans he₀)
      exact absurd hblank hshows
  · exact .pure htext

theorem lowerArgument_inStep (h : ctx.Interchangeable n n') (loc : Location) :
    (ctx.lowerArgument ⟨loc, n⟩).InStep Expr.SameText (ctx.lowerArgument ⟨loc, n'⟩) :=
  h.lowerValue_inStep .argument rfl

/-- Arguments around interchangeable values are lowered in step. -/
theorem lowerArguments_inStep (h : ctx.Interchangeable n n') (row : ArgumentFrame) :
    (ctx.lowerArguments (row.fill n)).InStep (List.Forall₂ Expr.SameText)
      (ctx.lowerArguments (row.fill n')) := by
  have same (args : List Argument) : List.Forall₂
      (fun a a' => (ctx.lowerArgument a).InStep Expr.SameText (ctx.lowerArgument a')) args args :=
    List.forall₂_same.2 fun a _ => .refl Expr.SameText.refl _
  rw [lowerArguments_eq_mapM, lowerArguments_eq_mapM]
  refine Traced.InStep.mapM ?_
  exact List.rel_append (same row.before) (.cons (h.lowerArgument_inStep row.loc) (same row.after))

end Interchangeable

/-- The frame around interchangeable nodes is lowered in step. -/
theorem Interchangeable.lowerExpr_fill (h : ctx.Interchangeable n n') (f : Frame) :
    (ctx.lowerExpr (f.fill n)).InStep Expr.SameText (ctx.lowerExpr (f.fill n')) := by
  have hsite : (f.fill n).outline = (f.fill n').outline := f.outline_fill n n'
  have same (m : Node) : (ctx.lowerExpr m).InStep Expr.SameText (ctx.lowerExpr m) :=
    .refl Expr.SameText.refl _
  -- what is on either side of the hole is the same, and what is around it is written from the texts
  cases f with
  | target loc member operator =>
    exact h.lowered.bind fun t t' _ ht => .pure (ht.access operator member.id)
  | left loc operator right =>
    exact h.lowered.bind fun l l' _ hl => (same right).bind fun r r' _ hr =>
      .pure (hl.assign operator hr)
  | right loc left operator =>
    exact (same left).bind fun l l' _ hl => h.lowered.bind fun r r' _ hr =>
      .pure (hl.assign operator hr)
  | argument loc => exact h.lowerArgument_inStep loc
  | argumentList loc row =>
    exact (h.lowerArguments_inStep row).bind fun es es' _ hes => .pure (.sequence hes)
  | invocation loc callee listLoc row =>
    refine (calledFunction_inStep callee hsite).bind ?_
    rintro word _ - rfl
    exact (h.lowerArguments_inStep row).bind fun es es' _ hes => .pure (.call word hes)
  | objectCreation loc type listLoc row =>
    refine (constructor_inStep type hsite).bind ?_
    rintro word _ - rfl
    exact (h.lowerArguments_inStep row).bind fun es es' _ hes => .pure (.call word hes)
  | initializer loc => exact h.lowered.bind fun v v' _ hv => .pure hv.clause
  | _ => exact lowerExpr_inStep_of_outline hsite rfl

/-- A node around interchangeable ones is as interchangeable as they are. -/
theorem Interchangeable.fill (h : ctx.Interchangeable n n') (f : Frame) :
    ctx.Interchangeable (f.fill n) (f.fill n') :=
  ⟨h.lowerExpr_fill f, .inl (congrArg Prod.fst (f.outline_fill n n'))⟩

/-- **Nodes around interchangeable ones are interchangeable**, however deep these are. -/
theorem Interchangeable.fillAll (h : ctx.Interchangeable n n') (fs : List Frame) :
    ctx.Interchangeable (Frame.fillAll fs n) (Frame.fillAll fs n') := by
  induction fs with
  | nil => exact h
  | cons f fs ih => exact ih.fill f

/-- Not one variable: the number alone is told. -/
theorem lowerDeclaration_of_count_ne_one {decl : Declaration} (h : decl.declarators.length ≠ 1)
    (site : Node) :
    ctx.lowerDeclaration decl site = ctx.reject (.variableCount decl.declarators.length) site := by
  obtain ⟨loc, type, _ | ⟨⟨varLoc, x, init⟩, _ | ⟨w, vs⟩⟩⟩ := decl
  · rfl
  · exact absurd rfl h
  · rfl

/-- A declaration around interchangeable values is lowered in step, or has more variables than one
with either. -/
theorem Interchangeable.lowerDeclaration_fill (h : ctx.Interchangeable n n')
    (decl : DeclarationFrame) {site site' : Node} (hsite : site.outline = site'.outline) :
    (ctx.lowerDeclaration (decl.fill n) site).InStep Statement.SameText
      (ctx.lowerDeclaration (decl.fill n') site') := by
  have hcount : (decl.fill n).declarators.length = (decl.fill n').declarators.length := by
    simp [DeclarationFrame.fill]
  by_cases hone : (decl.fill n).declarators.length = 1
  · obtain ⟨loc, type, before, var, after⟩ := decl
    have hlone : before.length + (after.length + 1) = 1 := by
      simpa [DeclarationFrame.fill] using hone
    obtain rfl : before = [] := List.length_eq_zero_iff.1 (by omega)
    obtain rfl : after = [] := List.length_eq_zero_iff.1 (by omega)
    refine (find_inStep _ hsite).bind ?_
    rintro token _ - rfl
    simp only [lowerInitializer, bind_assoc, pure_bind]
    exact h.lowered.bind fun e e' _ he => .pure (.declare token var.identifier he)
  · rw [lowerDeclaration_of_count_ne_one hone, lowerDeclaration_of_count_ne_one (hcount ▸ hone),
      hcount]
    exact reject_inStep hsite

/-- The statement around interchangeable nodes is lowered in step. -/
theorem Interchangeable.lowerUnlocated_fill (h : ctx.Interchangeable n n') (f : Frame) :
    (ctx.lowerUnlocated (f.fill n)).InStep Statement.SameText (ctx.lowerUnlocated (f.fill n')) := by
  have hsite : (f.fill n).outline = (f.fill n').outline := f.outline_fill n n'
  cases f with
  | localDeclaration loc decl => exact h.lowerDeclaration_fill decl hsite
  | expressionStatement loc =>
    exact (h.lowerValue_inStep .statement hsite).bind fun e e' _ he => .pure (.effect he)
  | returnStatement loc =>
    by_cases hnone : n = .absent
    · obtain rfl := hnone
      obtain rfl := h.absent_iff.1 rfl
      exact .pure (Statement.SameText.refl _)
    · have hnone' : n' ≠ .absent := mt h.absent_iff.2 hnone
      rw [Frame.fill, Frame.fill, lowerUnlocated, lowerUnlocated]
      · exact (h.lowerValue_inStep .returnValue hsite).bind fun e e' _ he => .pure (.ret he)
      · exact hnone'
      · exact hnone
  | _ => exact reject_inStep hsite

theorem Interchangeable.lowerStatement_fill (h : ctx.Interchangeable n n') (f : Frame) :
    (ctx.lowerStatement (f.fill n)).InStep Statement.SameText (ctx.lowerStatement (f.fill n')) :=
  (h.lowerUnlocated_fill f).mapError fun _ _ he =>
    Diagnostic.outline_locate he (f.outline_fill n n') ctx.file

/-- Bodies whose statements are lowered in step, one by one, become functions that are written
alike. -/
theorem emitIndented_inStep {b b' : Body} (m : Method) (indent : String)
    (h : List.Forall₂ (fun s s' => (ctx.lowerStatement s).InStep Statement.SameText
      (ctx.lowerStatement s')) b.statements b'.statements) :
    (ctx.emitIndented indent ⟨m, b⟩).InStep Eq (ctx.emitIndented indent ⟨m, b'⟩) := by
  have hcount : b.statements.length = b'.statements.length := h.length_eq
  have hfunction : (ctx.lowerFunction ⟨m, b⟩).InStep
      (fun f f' => f.signature = f'.signature ∧
        List.Forall₂ Statement.SameText f.body f'.body) (ctx.lowerFunction ⟨m, b'⟩) := by
    unfold lowerFunction
    simp only [hcount]
    refine Traced.InStep.bind (R := Eq) (.refl (fun _ => rfl) _) fun _ _ _ _ => ?_
    refine Traced.InStep.bind (R := Eq) (.refl (fun _ => rfl) _) ?_
    rintro signature _ - rfl
    refine (Traced.InStep.mapM h).bind fun ss ss' _ hss => ?_
    exact Traced.InStep.bind (R := Eq) (.refl (fun _ => rfl) _) fun _ _ _ _ => .pure ⟨rfl, hss⟩
  refine hfunction.bind ?_
  rintro ⟨signature, ss⟩ ⟨_, ss'⟩ - ⟨rfl, hss⟩
  refine .pure ?_
  rw [Function.text, Function.text, Function.lines, Function.lines, Statement.SameText.lines_eq hss]

/-- **What fills a hole matters only through its text.** Two nodes that are written as the same
text, which is not empty, can stand for each other in any hole of any body: the function comes to
the same text, or to failures that are reported alike, and the log is the same. -/
theorem emitIndented_fill_of_same_text (ctx : Context) (indent : String) (m : Method)
    (b : BodyFrame) {text : String} (h : (ctx.expressionText n).outcome = .ok text)
    (h' : (ctx.expressionText n').outcome = .ok text) (hne : text ≠ "") :
    let x := ctx.emitIndented indent ⟨m, b.fill n⟩
    let x' := ctx.emitIndented indent ⟨m, b.fill n'⟩
    ((∃ text, x.outcome = .ok text ∧ x'.outcome = .ok text) ∨
      ∃ e e', x.outcome = .error e ∧ x'.outcome = .error e' ∧ e.SameReport e') ∧
    x'.log = x.log := by
  intro x x'
  have hnodes : ctx.Interchangeable (Frame.fillAll b.inner n) (Frame.fillAll b.inner n') :=
    (Interchangeable.of_text h h' hne).fillAll b.inner
  have same (ss : List Node) : List.Forall₂ (fun s s' =>
      (ctx.lowerStatement s).InStep Statement.SameText (ctx.lowerStatement s')) ss ss :=
    List.forall₂_same.2 fun s _ => .refl Statement.SameText.refl _
  refine (emitIndented_inStep m indent ?_).report
  rw [BodyFrame.statements_fill, BodyFrame.statements_fill]
  exact List.rel_append (same b.before) (.cons (hnodes.lowerStatement_fill b.outer) (same b.after))

/-- In `return b = v.w.x` the target of the last access may be a member of `v` or a name with a dot
in it. -/
theorem access_and_name_interchanged :
    let ctx : Context := ⟨floatOnly.dialect, fun _ => none, none⟩
    let m : Method := ⟨"Foo", ⟨"float", none⟩, []⟩
    let b : BodyFrame := ⟨none, [], .returnStatement .unknown,
      [.right .unknown (.name .unknown "b") "=", .target .unknown ⟨.unknown, "x"⟩ "."], []⟩
    let n : Node := .memberAccess .unknown (.name .unknown "v") ⟨.unknown, "w"⟩ "."
    let n' : Node := .name .unknown "v.w"
    (ctx.expressionText n).outcome = .ok "v.w" ∧ (ctx.expressionText n').outcome = .ok "v.w" ∧
      "v.w" ≠ "" ∧
      (ctx.emitIndented "  " ⟨m, b.fill n⟩).outcome =
        .ok "float Foo()\n\x7b\n  return b = v.w.x;\n\x7d\n" ∧
      (ctx.emitIndented "  " ⟨m, b.fill n'⟩).outcome =
        .ok "float Foo()\n\x7b\n  return b = v.w.x;\n\x7d\n" := by
  intro ctx m b n n'
  have h : (ctx.expressionText n).outcome = .ok "v.w" := rfl
  have h' : (ctx.expressionText n').outcome = .ok "v.w" := rfl
  have hne : "v.w" ≠ "" := by decide
  have hx : (ctx.emitIndented "  " ⟨m, b.fill n⟩).outcome =
      .ok "float Foo()\n\x7b\n  return b = v.w.x;\n\x7d\n" := rfl
  refine ⟨h, h', hne, hx, ?_⟩
  obtain ⟨⟨text, hok, hok'⟩ | ⟨e, e', herror, -, -⟩, -⟩ :=
    emitIndented_fill_of_same_text ctx "  " m b h h' hne
  · rw [hok', ← hok, hx]
  · cases herror.symm.trans hx

end Context

end Shading
