import DataflowSpecializer.Code.Statement

/-! # Method bodies -/
namespace DataflowSpecializer
structure Local where
  name : String
  type : CodeType
deriving DecidableEq, Inhabited, Repr

/-- The code of a method. -/
structure Body where
  locals : Array Local
  stmts : List Stmt
  /-- The local that holds the receiver. -/
  receiver : Option LocalId
  /-- The locals that hold the arguments. -/
  params : List LocalId
  nextStmt : StmtId
  nextLabel : Label
deriving DecidableEq, Repr

namespace Body
def empty : Body := ⟨#[], [], none, [], 0, 0⟩

instance : Inhabited Body := ⟨empty⟩

def localName (b : Body) (l : LocalId) : String := (b.locals[l]?.map Local.name).getD "<?>"

def localType (b : Body) (l : LocalId) : CodeType := (b.locals.getD l default).type

def newLocal (b : Body) (name : String) (type : CodeType) : LocalId × Body :=
  let id := b.locals.size
  let name := if b.locals.any (·.name == name) then name ++ toString id else name
  (id, { b with locals := b.locals.push ⟨name, type⟩ })

def newLabel (b : Body) : Label × Body := (b.nextLabel, { b with nextLabel := b.nextLabel + 1 })

def isParam (b : Body) (l : LocalId) : Bool := b.receiver == some l || b.params.contains l

def number (b : Body) (actions : List Action) : List Stmt :=
  actions.mapIdx fun i a => ⟨b.nextStmt + i, a⟩

/-- Inserts statements at a position; answers their ids. -/
def insertAt (b : Body) (pos : Nat) (actions : List Action) : List StmtId × Body :=
  let stmts := b.number actions
  (stmts.map Stmt.id, { b with
      stmts := b.stmts.take pos ++ stmts ++ b.stmts.drop pos
      nextStmt := b.nextStmt + actions.length })

def append (b : Body) (actions : List Action) : Body := (b.insertAt b.stmts.length actions).2

def position? (b : Body) (id : StmtId) : Option Nat := b.stmts.findIdx? (·.id == id)

def stmt? (b : Body) (id : StmtId) : Option Stmt := b.stmts.find? (·.id == id)

def insertBefore? (b : Body) (at_ : StmtId) (actions : List Action) : Option (List StmtId × Body) :=
  (b.position? at_).map fun pos => b.insertAt pos actions

def insertAfter? (b : Body) (at_ : StmtId) (actions : List Action) : Option (List StmtId × Body) :=
  (b.position? at_).map fun pos => b.insertAt (pos + 1) actions

def insertBeforeReturn (b : Body) (actions : List Action) : List StmtId × Body :=
  let isReturn (s : Stmt) : Bool := match s.action with
    | .ret _ => true
    | _ => false
  b.insertAt ((b.stmts.findIdx? isReturn).getD b.stmts.length) actions

def updateFirst (p : Stmt → Bool) (f : Stmt → Stmt) : List Stmt → List Stmt
  | [] => []
  | s :: ss => if p s then f s :: ss else s :: updateFirst p f ss

/-- Gives a statement something else to do; answers whether it is there. -/
def replace (b : Body) (at_ : StmtId) (action : Action) : Bool × Body :=
  (b.stmts.any (·.id == at_),
    { b with stmts := updateFirst (·.id == at_) (fun s => { s with action }) b.stmts })

/-- Removes a statement; answers whether it was there. -/
def remove (b : Body) (at_ : StmtId) : Bool × Body :=
  (b.stmts.any (·.id == at_), { b with stmts := b.stmts.eraseP (·.id == at_) })

def labelPosition? (b : Body) (label : Label) : Option Nat :=
  b.stmts.findIdx? fun s => s.action == .label label

def defs (b : Body) (l : LocalId) : List Stmt := b.stmts.filter fun s => s.action.target? == some l

def singleDef? (b : Body) (l : LocalId) : Option Stmt :=
  if b.isParam l then none
  else
    match b.defs l with
    | [s] => some s
    | _ => none

def usesOf (b : Body) (l : LocalId) : List Stmt := b.stmts.filter fun s => s.action.uses.contains l

def useCounts (b : Body) : Array Nat :=
  b.stmts.foldl
    (fun counts s => s.action.uses.foldl (fun counts l => counts.modify l (· + 1)) counts)
    (Array.replicate b.locals.size 0)

def calls (b : Body) : List (Stmt × Invocation) :=
  b.stmts.filterMap fun s => s.action.call?.map fun call => (s, call)

def mentioned (b : Body) : Array Bool :=
  let mark (used : Array Bool) (l : LocalId) : Array Bool := used.modify l fun _ => true
  let entry := (b.receiver.toList ++ b.params).foldl mark (Array.replicate b.locals.size false)
  b.stmts.foldl (fun used s => (s.action.uses ++ s.action.target?.toList).foldl mark used) entry

/-- The number of each local when those that are not kept are left out: how many kept ones
stand before it. -/
def renumbering (kept : Array Bool) : Array LocalId :=
  (kept.foldl (fun (table, n) keep => (table.push n, if keep then n + 1 else n))
    ((#[], 0) : Array LocalId × Nat)).1

/-- Drops locals that nothing mentions and numbers the others from zero; nothing if all are
mentioned. -/
def compactLocals? (b : Body) : Option Body :=
  let used := b.mentioned
  if used.all id then none
  else
    let table := renumbering used
    let lookup (l : LocalId) : LocalId := table.getD l l
    some {
      b with
      locals := ((b.locals.zip used).filter (·.2)).map (·.1)
      stmts := b.stmts.map fun s => { s with action := s.action.renameLocals lookup }
      receiver := b.receiver.map lookup
      params := b.params.map lookup }
end Body
end DataflowSpecializer
