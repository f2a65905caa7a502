import DataflowSpecializer.Code.Draft

/-! # Code for constants -/
namespace DataflowSpecializer.Draft
open Platform

def literalForm : Literal → String × Constant
  | .boolean b => (booleanToken, .bool b)
  | .ubyte n => (unsignedByteToken, .int (Int32.ofNat n.toNat))
  | .int n => (intToken, .int n)
  | .long n => (longToken, .long n)
  | .double x => (doubleToken, .double x)
  | .string s => (stringToken, .string s)

def literal (l : Literal) : Drafting LocalId :=
  newObject "literal" (literalForm l).1 [.const (literalForm l).2]

mutual

/-- A value that is known. Values of some types have no constructor for constants; the answer is
then the type. -/
def boxed : Value → Drafting (Except ValueType LocalId)
  | .boolean b => return .ok (← scalar (.boolean b))
  | .ubyte n => return .ok (← scalar (.ubyte n))
  | .int n => return .ok (← scalar (.int n))
  | .long n => return .ok (← scalar (.long n))
  | .double x => return .ok (← scalar (.double x))
  | .string s => return .ok (← scalar (.string s))
  | .complex re im => do
    let c ← newObject "complex" Platform.complex [.const (.double re), .const (.double im)]
    let l ← newObject "constant" complexToken [.loc c]
    return .ok l
  | .array element values => do
    match ← boxedList values with
    | .error t => return .error t
    | .ok items =>
      let a ← newArray "elements" tokenType (items.map .loc)
      let l ← newObject "constant" arrayToken [.string element.render, .loc a]
      return .ok l
  | .matrix element _ _ _ => return .error (.matrix element)
  | .record fields => return .error (Value.record fields).type
  | .function params _ _ => return .error (.function params.length)
where scalar (l : Literal) : Drafting LocalId :=
    newObject "constant" (literalForm l).1 [.const (literalForm l).2]

def boxedList : List Value → Drafting (Except ValueType (List LocalId))
  | [] => return .ok []
  | v :: vs => do
    match ← boxed v with
    | .error t => return .error t
    | .ok l =>
      match ← boxedList vs with
      | .error t => return .error t
      | .ok ls => return .ok (l :: ls)
end
end DataflowSpecializer.Draft
