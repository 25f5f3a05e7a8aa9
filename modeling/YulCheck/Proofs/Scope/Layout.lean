import YulCheck.Check.Facts
import YulCheck.Proofs.Lexical.Environment

/-! # The scopes of a program

Which frames a block has at any depth, by which nodes they are opened, and which scopes they become:
one scope for every block and one for the parameters of every function, numbered in the order in
which they are opened, each with the names that its frame declares.
-/

namespace YulCheck

/-- The scope of a frame inside another scope. The name that was bound last comes first. -/
def Frame.toScope (frame : Frame) (parent? : Option ScopeId) : Scope :=
  ⟨parent?, frame.isFunction, frame.bindings.reverse⟩

/-! ### Frames -/

mutual

/-- The frames of a block with the nodes that open them, in the order in which they are opened. -/
def Block.frames : Block → List (ScopeOwner × Frame)
  | .mk id _ statements => (.block id, .block statements []) :: statementFrames statements

/-- The frames that are opened in statements. -/
def statementFrames : List Statement → List (ScopeOwner × Frame)
  | [] => []
  | statement :: rest => statement.frames ++ statementFrames rest

/-- The frames that are opened in a statement. -/
def Statement.frames : Statement → List (ScopeOwner × Frame)
  | .function id _ _ parameters returns body =>
    (.function id, .function parameters returns) :: body.frames
  | .conditional _ _ body => body.frames
  | .switch _ _ cases => caseFrames cases
  | .loop _ _ pre _ post body => pre.frames ++ body.frames ++ post.frames
  | .block block => block.frames
  | .expression .. | .assignment .. | .declaration .. | .break _ | .continue _ | .leave _ => []

/-- The frames that are opened in the cases of a switch. -/
def caseFrames : List Case → List (ScopeOwner × Frame)
  | [] => []
  | .mk _ _ body :: rest => body.frames ++ caseFrames rest

end

/-- The nodes that open the scopes of a block, in their order. -/
def Block.owners (block : Block) : List ScopeOwner := block.frames.map (·.1)

/-- Whether no block of a program declares a name twice, and neither does any function among its
parameters and returned variables. -/
def Block.DeclaresOnce (block : Block) : Prop := ∀ entry ∈ block.frames, entry.2.names.Nodup

instance (block : Block) : Decidable block.DeclaresOnce :=
  inferInstanceAs (Decidable (∀ entry ∈ block.frames, entry.2.names.Nodup))

/-! ### Scopes -/

mutual

/-- The scopes of a block inside another scope, numbered from `first` on. -/
def Block.scopes (parent? : Option ScopeId) (first : ScopeId) : Block → List Scope
  | .mk _ _ statements =>
    (Frame.block statements []).toScope parent? :: statementScopes first (first + 1) statements

/-- The scopes that are opened in statements of a scope. -/
def statementScopes (parent first : ScopeId) : List Statement → List Scope
  | [] => []
  | statement :: rest =>
    statement.scopes parent first
      ++ statementScopes parent (first + statement.frames.length) rest

/-- The scopes that are opened in a statement of a scope. -/
def Statement.scopes (parent first : ScopeId) : Statement → List Scope
  | .function _ _ _ parameters returns body =>
    (Frame.function parameters returns).toScope (some parent) :: body.scopes (some first) (first + 1)
  | .conditional _ _ body => body.scopes (some parent) first
  | .switch _ _ cases => caseScopes parent first cases
  | .loop _ _ pre _ post body =>
    pre.scopes (some parent) first
      ++ body.scopes (some first) (first + pre.frames.length)
      ++ post.scopes (some first) (first + pre.frames.length + body.frames.length)
  | .block block => block.scopes (some parent) first
  | .expression .. | .assignment .. | .declaration .. | .break _ | .continue _ | .leave _ => []

/-- The scopes that are opened in the cases of a switch. -/
def caseScopes (parent first : ScopeId) : List Case → List Scope
  | [] => []
  | .mk _ _ body :: rest =>
    body.scopes (some parent) first ++ caseScopes parent (first + body.frames.length) rest

end

/-! ### The number of scopes -/

/-- Every block opens a scope of its own. -/
theorem Block.lt_add_frames (block : Block) (first : Nat) : first < first + block.frames.length := by
  cases block
  simp [Block.frames]

mutual

/-- There is one scope for every frame. -/
@[simp]
theorem Block.length_scopes (block : Block) (parent? : Option ScopeId) (first : ScopeId) :
    (block.scopes parent? first).length = block.frames.length := by
  cases block with
  | mk id span statements =>
    simp only [Block.scopes, Block.frames, List.length_cons, length_statementScopes]

@[simp]
theorem length_statementScopes (statements : List Statement) (parent first : ScopeId) :
    (statementScopes parent first statements).length = (statementFrames statements).length := by
  cases statements with
  | nil => rfl
  | cons statement rest =>
    simp only [statementScopes, statementFrames, List.length_append, Statement.length_scopes,
      length_statementScopes]

@[simp]
theorem Statement.length_scopes (statement : Statement) (parent first : ScopeId) :
    (statement.scopes parent first).length = statement.frames.length := by
  cases statement <;>
    simp only [Statement.scopes, Statement.frames, List.length_cons, List.length_append,
      List.length_nil, Block.length_scopes, length_caseScopes]

@[simp]
theorem length_caseScopes (cases : List Case) (parent first : ScopeId) :
    (caseScopes parent first cases).length = (caseFrames cases).length := by
  cases cases with
  | nil => rfl
  | cons first rest =>
    cases first
    simp only [caseScopes, caseFrames, List.length_append, Block.length_scopes,
      length_caseScopes]

end

end YulCheck
