import DataflowSpecializer.Code.Program

/-! # Listings -/
namespace DataflowSpecializer
namespace Body
def renderOperand (b : Body) : Operand → String
  | .loc l => b.localName l
  | .const c => c.render

def renderArgs (b : Body) (args : List Operand) : String :=
  "(" ++ ", ".intercalate (args.map b.renderOperand) ++ ")"

def renderElement (b : Body) (base : LocalId) (index : Operand) : String :=
  b.localName base ++ "[" ++ b.renderOperand index ++ "]"

def renderCall (b : Body) (call : Invocation) : String :=
  let kind := match call.dispatch with
    | .virtual => "virtualinvoke "
    | .static => "staticinvoke "
    | .special => "specialinvoke "
  let base := match call.base with
    | some l => b.localName l ++ "."
    | none => ""
  kind ++ base ++ "<" ++ call.method.className ++ ": " ++ call.method.name ++ ">" ++
    b.renderArgs call.args
end Body

namespace Program
def renderField (p : Program) (b : Body) (base : LocalId) (f : FieldId) : String :=
  let d := p.fieldDecl f
  b.localName base ++ ".<" ++ p.className d.owner ++ ": " ++ d.name ++ ">"

def renderValue (p : Program) (b : Body) : Rvalue → String
  | .use o => b.renderOperand o
  | .cast t o => "(" ++ t.render ++ ") " ++ b.renderOperand o
  | .instanceOf c o => b.renderOperand o ++ " instanceof " ++ c
  | .field base f => p.renderField b base f
  | .element base index => b.renderElement base index
  | .length l => "lengthof " ++ b.localName l
  | .new c args => "new " ++ c ++ b.renderArgs args
  | .newArray t n => "newarray (" ++ t.render ++ ")[" ++ b.renderOperand n ++ "]"
  | .binary op x y => b.renderOperand x ++ " " ++ op.symbol ++ " " ++ b.renderOperand y
  | .negate o => "neg " ++ b.renderOperand o
  | .not o => "!" ++ b.renderOperand o
  | .invoke call => b.renderCall call

def renderPlace (p : Program) (b : Body) : Place → String
  | .loc l => b.localName l
  | .field base f => p.renderField b base f
  | .element base index => b.renderElement base index

/-- A statement on its line; labels stand out by one column. -/
def renderAction (p : Program) (b : Body) : Action → String
  | .assign place value => "    " ++ p.renderPlace b place ++ " = " ++ p.renderValue b value
  | .invoke call => "    " ++ b.renderCall call
  | .branch op x y target =>
    "    if " ++ b.renderOperand x ++ " " ++ op.symbol ++ " " ++ b.renderOperand y ++
      " goto L" ++ toString target
  | .goto target => "    goto L" ++ toString target
  | .label l => "   L" ++ toString l ++ ":"
  | .ret none => "    return"
  | .ret (some o) => "    return " ++ b.renderOperand o
  | .throw o => "    throw " ++ b.renderOperand o
  | .nop => "    nop"

def methodLines (p : Program) (m : MethodId) : List String :=
  let d := p.methodDecl m
  let b := d.body
  let header := "  " ++ (if d.isStatic then "static " else "") ++ d.result.render ++ " " ++
    d.name ++ "(" ++ ", ".intercalate (d.params.map CodeType.render) ++ ")"
  let this := b.receiver.toList.map fun l => "    " ++ b.localName l ++ " := @this"
  let params := b.params.zipIdx.map fun (l, i) =>
    "    " ++ b.localName l ++ " := @param" ++ toString i
  header :: (this ++ params ++ b.stmts.map fun s => p.renderAction b s.action)

def fieldLine (p : Program) (f : FieldId) : String :=
  let d := p.fieldDecl f
  "  field " ++ (if d.isFinal then "final " else "") ++ d.type.render ++ " " ++ d.name ++
    match d.initial with
    | some v => " = " ++ v.render
    | none => ""

def kindName : ClassKind → String
  | .actor => "actor"
  | .attribute_ => "attribute"
  | .closure => "closure"

def classLines (p : Program) (c : ClassId) : List String :=
  let d := p.classDecl c
  ("class " ++ d.name ++ " extends " ++ d.superclass ++ " [" ++ kindName d.kind ++ "]") ::
    ((p.liveFields c).map p.fieldLine ++ (p.liveMethods c).flatMap p.methodLines)

def unlines (lines : List String) : String := String.join (lines.map (· ++ "\n"))

def renderMethod (p : Program) (m : MethodId) : String := unlines (p.methodLines m)

/-- The text of a program: what is live in it. -/
def render (p : Program) : String := unlines (p.liveClasses.flatMap p.classLines)
end Program
end DataflowSpecializer
