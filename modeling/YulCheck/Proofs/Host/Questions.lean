import YulCheck.Proofs.Host.Asked
import YulCheck.Proofs.Judgement.Typing

/-! # The questions of a program

The questions that a program puts to its host can be read off its text. `LexicalWalk.Asks` tells that a
walk puts given questions, one after another, whatever the host answers and whatever it reports. A run
that agrees with the environments puts them all if it comes to its end, and the first of them otherwise.
-/

namespace YulCheck

variable {σ α β : Type}

/-! ### The questions at a point -/

/-- The question about a name that is used at a point. The use that is asked about matters only if
nothing binds the name. -/
def Environment.query (environment : Environment) (identifier : Identifier)
    (unbound : IdentifierUse) : Query where
  identifier
  use := if (environment.lookup? identifier.name).isSome then .bound else unbound
  inFunction := environment.isInFunction

/-- The question about a variable that is declared at a point. -/
def Environment.declareQuery (environment : Environment) (declared : Variable) : Query where
  identifier := declared.toIdentifier
  use := .declare
  inFunction := environment.isInFunction

namespace Setting

variable (setting : Setting) (environment : Environment)

/-- Whether an instruction cannot be called: the target does not have it, or it is `pc`. -/
def isBarred (instruction : Instruction) : Bool :=
  (Gate.barring? setting.version instruction).isSome || instruction = .pc

/-- Whether a called name is an instruction of the default version which cannot be called. -/
def isRefused (name : Handle) : Bool :=
  match setting.names.label name with
  | .ok label => ((Instruction.ofName? label).filter (·.isCallable .default)).any setting.isBarred
  | .error _ => false

/-- The number of the values that an expression is taken to have, whether it is correct or not. -/
def valueCount : Expression → Nat
  | .literal _ | .identifier _ => 1
  | .call _ _ callee _ => ((setting.signature? environment callee.name).map (·.2.length)).getD 0

/-- The questions about the function that a name calls. There is none about functions of the dialect,
nor about a name that nothing binds and that is refused. -/
def calleeQueries (callee : Identifier) : List Query :=
  match setting.names.builtin? callee.name with
  | .ok none =>
    if (environment.lookup? callee.name).isNone && setting.isRefused callee.name then []
    else [environment.query callee .read]
  | .ok (some _) | .error _ => []

mutual

/-- The questions about the names in an expression: the called function comes before the arguments. -/
def expressionQueries : Expression → List Query
  | .literal _ => []
  | .identifier use => [environment.query use .read]
  | .call _ _ callee arguments =>
    setting.calleeQueries environment callee ++ argumentQueries arguments

/-- The questions about the names in the arguments of a call, from right to left. -/
def argumentQueries : List Expression → List Query
  | [] => []
  | argument :: rest => argumentQueries rest ++ expressionQueries argument

end

/-- The targets of an assignment for which there is a value. Those behind them are not checked. -/
def checkedTargets : Statement → List Identifier
  | .assignment _ targets value => targets.take (setting.valueCount environment value)
  | _ => []

/-- The questions at a point: about the variables that are declared, then about the expression, and
then about the targets. -/
def queriesAt (point : Point) : List Query :=
  let { environment, statement, .. } := point
  statement.locals.map environment.declareQuery ++
    (statement.expression?.map (setting.expressionQueries environment)).getD [] ++
    (setting.checkedTargets environment statement).map (environment.query · .write)

/-- The questions of a program, in the order in which they are put. -/
def queries (block : Block) : List Query :=
  (block.points [] false false).flatMap setting.queriesAt

end Setting

/-! ### Points inside of functions -/

mutual

/-- The environments of points in functions are those with the frame of a function. -/
theorem Block.isInFunction_points (environment : Environment) (inLoop : Bool) (block : Block) :
    ∀ point ∈ block.points environment inLoop environment.isInFunction,
      point.environment.isInFunction = point.inFunction := by
  cases block with
  | mk id span statements =>
    rw [Block.points]
    exact isInFunction_statementPoints environment inLoop statements [] statements

theorem isInFunction_statementPoints (outer : Environment) (inLoop : Bool)
    (all before statements : List Statement) :
    ∀ point ∈ statementPoints outer inLoop outer.isInFunction all before statements,
      point.environment.isInFunction = point.inFunction := by
  cases statements with
  | nil =>
    rw [statementPoints]
    exact List.forall_mem_nil _
  | cons statement rest =>
    rw [statementPoints, List.forall_mem_append]
    exact ⟨statement.isInFunction_points (.block all before :: outer) inLoop,
      isInFunction_statementPoints outer inLoop all (statement :: before) rest⟩

theorem Statement.isInFunction_points (environment : Environment) (inLoop : Bool)
    (statement : Statement) :
    ∀ point ∈ statement.points environment inLoop environment.isInFunction,
      point.environment.isInFunction = point.inFunction := by
  cases statement with
  | function id span name parameters returns body =>
    rw [Statement.points, List.forall_mem_cons]
    exact ⟨rfl, body.isInFunction_points (.function parameters returns :: environment) false⟩
  | conditional span condition body =>
    rw [Statement.points, List.forall_mem_cons]
    exact ⟨rfl, body.isInFunction_points environment inLoop⟩
  | «switch» span scrutinee cases =>
    rw [Statement.points, List.forall_mem_cons]
    exact ⟨rfl, isInFunction_casePoints environment inLoop cases⟩
  | loop id span pre condition post body =>
    rw [Statement.points, List.forall_mem_append, List.forall_mem_append, List.forall_mem_cons]
    let behind := .block pre.statements pre.statements.reverse :: environment
    exact ⟨⟨pre.isInFunction_points environment false, rfl, body.isInFunction_points behind true⟩,
      post.isInFunction_points behind false⟩
  | block block =>
    rw [Statement.points]
    exact block.isInFunction_points environment inLoop
  | expression | assignment | declaration | «break» | «continue» | leave =>
    rw [Statement.points]
    exact List.forall_mem_singleton.mpr rfl

theorem isInFunction_casePoints (environment : Environment) (inLoop : Bool) (cases : List Case) :
    ∀ point ∈ casePoints environment inLoop environment.isInFunction cases,
      point.environment.isInFunction = point.inFunction := by
  rcases cases with _ | ⟨⟨span, value?, body⟩, rest⟩
  · rw [casePoints]
    exact List.forall_mem_nil _
  · rw [casePoints, List.forall_mem_append]
    exact ⟨body.isInFunction_points environment inLoop,
      isInFunction_casePoints environment inLoop rest⟩

end

namespace Setting

variable {setting : Setting} {environment : Environment}

mutual

theorem inFunction_of_mem_expressionQueries (expression : Expression) :
    ∀ query ∈ setting.expressionQueries environment expression,
      query.inFunction = environment.isInFunction := by
  cases expression with
  | literal constant =>
    rw [expressionQueries]
    exact List.forall_mem_nil _
  | identifier use =>
    rw [expressionQueries]
    exact List.forall_mem_singleton.mpr rfl
  | call id span callee arguments =>
    rw [expressionQueries, List.forall_mem_append]
    refine ⟨?_, inFunction_of_mem_argumentQueries arguments⟩
    rw [calleeQueries]
    split
    · split
      · exact List.forall_mem_nil _
      · exact List.forall_mem_singleton.mpr rfl
    · exact List.forall_mem_nil _
    · exact List.forall_mem_nil _

theorem inFunction_of_mem_argumentQueries (arguments : List Expression) :
    ∀ query ∈ setting.argumentQueries environment arguments,
      query.inFunction = environment.isInFunction := by
  cases arguments with
  | nil =>
    rw [argumentQueries]
    exact List.forall_mem_nil _
  | cons argument rest =>
    rw [argumentQueries, List.forall_mem_append]
    exact ⟨inFunction_of_mem_argumentQueries rest, inFunction_of_mem_expressionQueries argument⟩

end

/-- The questions of a program tell whether they are put inside of a function. -/
theorem inFunction_of_mem_queriesAt {block : Block} :
    ∀ point ∈ block.points [] false false, ∀ query ∈ setting.queriesAt point,
      query.inFunction = point.inFunction := by
  intro point isPoint
  rw [← block.isInFunction_points [] false point isPoint, queriesAt, List.forall_mem_append,
    List.forall_mem_append, List.forall_mem_map, List.forall_mem_map]
  refine ⟨⟨fun _ _ => rfl, ?_⟩, fun _ _ => rfl⟩
  cases point.statement.expression? with
  | none => exact List.forall_mem_nil _
  | some value => exact inFunction_of_mem_expressionQueries value

end Setting

/-! ### Walks that put given questions -/

/-- The question that a request puts to the host at a point. -/
def Request.query? (environment : Environment) : Request → Option Query
  | .consult _ identifier use => some ⟨identifier, use, environment.isInFunction⟩
  | .openScope _ | .resumeScope _ | .leaveScope | .bind .. | .hasScope _ | .lookup .. | .activate ..
  | .errorCount | .report .. | .warnOnce _ | .noteTypes .. | .noteEffects _ => none

/-- Whether an answer tells what a name refers to at a point. Any answer to other requests will do. -/
def Request.Suits (environment : Environment) : (request : Request) → request.Answer → Prop
  | .lookup _ name, found? => found? = environment.lookup? name
  | .openScope _, _ | .resumeScope _, _ | .leaveScope, _ | .bind .., _ | .hasScope _, _
  | .activate .., _ | .errorCount, _ | .report .., _ | .warnOnce _, _ | .consult .., _
  | .noteTypes .., _ | .noteEffects _, _ => True

theorem Request.query?_of_isOwn {environment : Environment} {request : Request}
    (isOwn : request.IsOwn) : request.query? environment = none := by
  cases request with
  | consult => cases isOwn
  | _ => rfl

/-- In a state that agrees with an environment the host is asked what is asked at the point. -/
theorem Request.question?_of_answers {environment : Environment} {state : RunState σ}
    {request : Request} (answers : environment.Answers state request) :
    request.question? state = request.query? environment := by
  cases request with
  | consult place identifier use =>
    exact congrArg (fun inFunction => some (Query.mk identifier use inFunction)) answers
  | _ => rfl

theorem Request.suits_of_answer {host? : Option (Host σ)} {environment : Environment}
    {state after : RunState σ} {request : Request} {answer : request.Answer}
    (answers : environment.Answers state request)
    (answered : Run.answer host? request state = .ok (.ok answer, after)) :
    request.Suits environment answer := by
  cases request with
  | lookup block name =>
    obtain ⟨scope, owned, found⟩ := answers
    rw [Run.answer, Run.lookup_apply, owned] at answered
    cases answered
    exact found
  | _ => trivial

namespace LexicalWalk

/-- Whether a walk puts given questions to the host, one after another, and ends with a property of its
result, as long as names refer to what its environments say. A walk that is broken puts the first ones
of them. -/
def Asks : LexicalWalk α → (queries : List Query) → (holds : α → Prop) → Prop
  | done result, queries, holds => queries = [] ∧ holds result
  | broken _, _, _ => True
  | step environment request next, queries, holds =>
    ∃ rest, queries = (request.query? environment).toList ++ rest ∧
      ∀ answer, request.Suits environment answer → (next answer).Asks rest holds

variable {walk : LexicalWalk α} {next : α → LexicalWalk β} {queries more : List Query}
  {middle : α → Prop} {holds : β → Prop}

theorem Asks.pure {result : α} (done : middle result) : (pure result : LexicalWalk α).Asks [] middle :=
  ⟨rfl, done⟩

theorem Asks.bind (first : walk.Asks queries middle)
    (rest : ∀ result, middle result → (next result).Asks more holds) :
    (walk >>= next).Asks (queries ++ more) holds := by
  induction walk generalizing queries with
  | done result =>
    obtain ⟨rfl, done⟩ := first
    exact rest result done
  | broken => trivial
  | step environment request answered ih =>
    obtain ⟨later, rfl, asks⟩ := first
    exact ⟨later ++ more, List.append_assoc _ _ _, fun answer suits => ih answer (asks answer suits)⟩

/-- A walk without questions in front. -/
theorem Asks.nil_bind (first : walk.Asks [] middle)
    (rest : ∀ result, middle result → (next result).Asks queries holds) :
    (walk >>= next).Asks queries holds := bind first rest

/-- A run that agrees with the environments puts the questions of the walk, or the first of them if it
does not come to the end of the walk. -/
theorem asked_of_asks {host : Host σ} {state : RunState σ} (agrees : walk.Agrees (some host) state)
    (asks : walk.Asks queries middle) :
    walk.erase.asked host state <+: queries ∧ ∀ result after,
      walk.erase.run (some host) state = .ok (.ok result, after) →
        walk.erase.asked host state = queries := by
  induction walk generalizing queries state with
  | done result =>
    obtain ⟨rfl, _⟩ := asks
    exact ⟨List.prefix_rfl, fun _ _ _ => rfl⟩
  | broken fault =>
    refine ⟨List.nil_prefix, fun result after ran => ?_⟩
    cases ran
  | step environment request next ih =>
    obtain ⟨answers, later⟩ := agrees
    obtain ⟨rest, rfl, asks⟩ := asks
    rw [erase, Walk.asked, Request.question?_of_answers answers, Walk.run_step, Run.bind_apply,
      List.prefix_append_right_inj]
    rcases answered : Run.answer (some host) request state with fault | ⟨failure | answer, between⟩
    · refine ⟨List.nil_prefix, fun result after ran => ?_⟩
      cases ran
    · refine ⟨List.nil_prefix, fun result after ran => ?_⟩
      cases ran
    · have suits := Request.suits_of_answer answers answered
      obtain ⟨isPrefix, isAll⟩ := ih answer (later answer between answered) (asks answer suits)
      exact ⟨isPrefix, fun result after ran => congrArg (_ ++ ·) (isAll result after ran)⟩

end LexicalWalk

namespace Walk

/-- Whether a walk puts given questions to the host at a point. -/
def Asks (walk : Walk α) (environment : Environment) (queries : List Query) (holds : α → Prop) :
    Prop :=
  (walk.within environment).Asks queries holds

variable {walk : Walk α} {next : α → Walk β} {environment : Environment} {queries more : List Query}
  {middle : α → Prop} {holds : β → Prop}

namespace Asks

theorem pure {result : α} (done : middle result) :
    (Pure.pure result : Walk α).Asks environment [] middle := LexicalWalk.Asks.pure done

theorem broken {fault : Fault} : (Walk.broken fault : Walk α).Asks environment queries middle := trivial

theorem bind (first : walk.Asks environment queries middle)
    (rest : ∀ result, middle result → (next result).Asks environment more holds) :
    (walk >>= next).Asks environment (queries ++ more) holds := by
  rw [Asks, LexicalWalk.within_bind]
  exact LexicalWalk.Asks.bind first rest

theorem nil_bind (first : walk.Asks environment [] middle)
    (rest : ∀ result, middle result → (next result).Asks environment queries holds) :
    (walk >>= next).Asks environment queries holds := bind first rest

theorem of_own (isOwn : walk.Only (·.IsOwn)) : walk.Asks environment [] fun _ => True := by
  induction walk with
  | done result => exact pure trivial
  | broken fault => exact broken
  | step request next ih =>
    refine ⟨[], ?_, fun answer _ => ih answer (isOwn.2 answer)⟩
    rw [Request.query?_of_isOwn isOwn.1]
    rfl

theorem own_bind (isOwn : walk.Only (·.IsOwn))
    (rest : ∀ result, (next result).Asks environment queries holds) :
    (walk >>= next).Asks environment queries holds :=
  nil_bind (of_own isOwn) fun result _ => rest result

/-- A walk without questions behind. -/
theorem bind_nil (first : walk.Asks environment queries middle)
    (rest : ∀ result, middle result → (next result).Asks environment [] holds) :
    (walk >>= next).Asks environment queries holds := by
  rw [← List.append_nil queries]
  exact bind first rest

theorem bind_own (first : walk.Asks environment queries middle)
    (isOwn : ∀ result, (next result).Only (·.IsOwn)) :
    (walk >>= next).Asks environment queries fun _ => True :=
  bind_nil first fun result _ => of_own (isOwn result)

theorem lift_bind {value : Except Fault α}
    (rest : ∀ result, value = .ok result → (next result).Asks environment queries holds) :
    ((liftM value : Walk α) >>= next).Asks environment queries holds := by
  cases value with
  | error fault => exact broken
  | ok result => exact rest result rfl

/-- What is looked up is what the name refers to at the point. -/
theorem lookup_bind {place : Place} {name : Handle} {next : Option Found → Walk β}
    (rest : (next (environment.lookup? name)).Asks environment queries holds) :
    (Setting.lookup place name >>= next).Asks environment queries holds := by
  refine nil_bind ⟨[], rfl, fun found? suits => ⟨rfl, suits⟩⟩ fun found? isFound => ?_
  have isFound : found? = environment.lookup? name := isFound
  exact isFound ▸ rest

/-- The host is asked, and may answer what it likes. -/
theorem consult_bind {place : Place} {identifier : Identifier} {use : IdentifierUse}
    {next : Bool → Walk β} (rest : ∀ isKnown, (next isKnown).Asks environment queries holds) :
    (Setting.consult place identifier use >>= next).Asks environment
      (⟨identifier, use, environment.isInFunction⟩ :: queries) holds :=
  ⟨queries, rfl, fun isKnown _ => rest isKnown⟩

/-- Questions for one element after another. -/
theorem forM {ι : Type} {elements : List ι} {visit : ι → Walk Unit} {query : ι → Query}
    (each : ∀ element ∈ elements, (visit element).Asks environment [query element] fun _ => True) :
    (elements.forM visit).Asks environment (elements.map query) fun _ => True := by
  induction elements with
  | nil => exact pure trivial
  | cons element rest ih =>
    rw [List.forall_mem_cons] at each
    exact bind each.1 fun _ _ => ih each.2

end Asks

end Walk

end YulCheck
