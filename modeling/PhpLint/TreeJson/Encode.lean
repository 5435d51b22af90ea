import PhpLint.Json.Basic
import PhpLint.Tree.Stmt

/-! The JSON form of syntax trees. A located node is an object with the members `value` and
`range`; a node's kind is the only key of its value. Every member is written, absent parts as
`null`. -/
namespace PhpLint

def Pos.toJson (p : Pos) : Json :=
  .obj [("line", .ofNat p.line.toNat), ("col", .ofNat p.col.toNat)]

def Range.toJson (r : Range) : Json := .obj [("start", r.start.toJson), ("end", r.stop.toJson)]

def Name.toJson (n : Name) : Json :=
  .obj [("parts", .ofStrings n.parts), ("fully_qualified", .bool n.rooted)]

def UnaryOp.tag : UnaryOp → String
  | not => "Not"
  | minus => "Minus"
  | plus => "Plus"
  | complement => "BitwiseNot"

def BinaryOp.tag : BinaryOp → String
  | plus => "Plus"
  | minus => "Minus"
  | mul => "Mul"
  | div => "Div"
  | mod => "Mod"
  | pow => "Pow"
  | concat => "Concat"
  | bitAnd => "BitwiseAnd"
  | bitOr => "BitwiseOr"
  | bitXor => "BitwiseXor"
  | shiftLeft => "ShiftLeft"
  | shiftRight => "ShiftRight"
  | boolAnd => "BooleanAnd"
  | boolOr => "BooleanOr"
  | wordAnd => "LogicalAnd"
  | wordOr => "LogicalOr"
  | wordXor => "LogicalXor"
  | equal => "Equal"
  | notEqual => "NotEqual"
  | identical => "Identical"
  | notIdentical => "NotIdentical"
  | smaller => "Smaller"
  | smallerOrEqual => "SmallerOrEqual"
  | greater => "Greater"
  | greaterOrEqual => "GreaterOrEqual"
  | spaceship => "Spaceship"
  | coalesce => "Coalesce"

def Json.located (value : Json) (r : Range) : Json := .obj [("value", value), ("range", r.toJson)]

namespace Expr

def kind : Expr → String
  | integer .. => "Lnumber"
  | float .. => "Dnumber"
  | string .. => "String"
  | var .. | dynamicVar .. => "Variable"
  | identifier .. => "Identifier"
  | name .. => "Name"
  | constant .. => "ConstFetch"
  | classConstant .. => "ClassConstFetch"
  | unary .. => "Unary"
  | binary .. => "Binary"
  | ternary .. => "Ternary"
  | assign .. => "Assign"
  | index .. => "Index"
  | property .. => "PropertyFetch"
  | array .. => "Array"
  | call .. => "Call"
  | argument .. => "Argument"

mutual

def content : Expr → Json
  | integer _ raw | float _ raw => .str raw
  | string _ raw => .obj [("raw", .str raw)]
  | var _ n => .obj [("Ident", .str n)]
  | dynamicVar _ n => .obj [("Dynamic", .located (.obj [(n.kind, n.content)]) n.range)]
  | identifier _ t => .str t
  | name _ n | constant _ n => n.toJson
  | classConstant _ c m =>
    .obj [("class", .located (.obj [(c.kind, c.content)]) c.range), ("constant", .str m)]
  | unary _ op x => .arr [.str op.tag, .located (.obj [(x.kind, x.content)]) x.range]
  | binary _ op x y =>
    .arr [.str op.tag, .located (.obj [(x.kind, x.content)]) x.range,
      .located (.obj [(y.kind, y.content)]) y.range]
  | ternary _ c t e =>
    .obj [("cond", .located (.obj [(c.kind, c.content)]) c.range), ("then", optionToJson t),
      ("else_", .located (.obj [(e.kind, e.content)]) e.range)]
  | assign _ t v =>
    .arr [.located (.obj [(t.kind, t.content)]) t.range,
      .located (.obj [(v.kind, v.content)]) v.range]
  | index _ b d =>
    .obj [("base", .located (.obj [(b.kind, b.content)]) b.range), ("dim", optionToJson d)]
  | property _ o m =>
    .obj [("object", .located (.obj [(o.kind, o.content)]) o.range),
      ("property", .located (.obj [(m.kind, m.content)]) m.range)]
  | array _ items => .arr (listToJson items)
  | call _ f args =>
    .obj [("func", .located (.obj [(f.kind, f.content)]) f.range), ("args", .arr (listToJson args))]
  | argument _ v s b =>
    .obj [("value", .located (.obj [(v.kind, v.content)]) v.range), ("variadic", .bool s),
      ("by_ref", .bool b)]

def optionToJson : Option Expr → Json
  | none => .null
  | some e => .located (.obj [(e.kind, e.content)]) e.range

def listToJson : List Expr → List Json
  | [] => []
  | e :: es => .located (.obj [(e.kind, e.content)]) e.range :: listToJson es

end

def bareJson (e : Expr) : Json := .obj [(e.kind, e.content)]

def toJson (e : Expr) : Json := .located e.bareJson e.range

end Expr

def ConstDecl.toJson (d : ConstDecl) : Json :=
  .obj [("name", .located (.str d.name) d.nameRange), ("value", d.value.toJson)]

namespace Stmt

def kind : Stmt → String
  | expr .. => "Expr"
  | block .. => "Block"
  | branch .. => "If"
  | whileLoop .. => "While"
  | doLoop .. => "DoWhile"
  | switch .. => "Switch"
  | const .. => "Const"
  | scope .. => "Namespace"
  | function .. => "Function"
  | ret .. => "Return"
  | echo .. => "Echo"
  | nop .. => "Nop"

mutual

def toJson : Stmt → Json
  | expr r e => .located (.obj [("Expr", e.toJson)]) r
  | block r body => .located (.obj [("Block", .arr (listToJson body))]) r
  | branch r c b arms e =>
    .located (.obj [("If", .obj [("cond", c.toJson), ("body", b.toJson),
      ("elseifs", .arr (armsToJson arms)), ("else_", optionToJson e)])]) r
  | whileLoop r c b => .located (.obj [("While", .obj [("cond", c.toJson), ("body", b.toJson)])]) r
  | doLoop r b c => .located (.obj [("DoWhile", .obj [("body", b.toJson), ("cond", c.toJson)])]) r
  | switch r s cases =>
    .located (.obj [("Switch", .obj [("subject", s.toJson),
      ("cases", .arr (casesToJson cases))])]) r
  | const r decls => .located (.obj [("Const", .arr (decls.map ConstDecl.toJson))]) r
  | scope r n b =>
    .located (.obj [("Namespace", .obj [("name", .ofOption Name.toJson n),
      ("body", bodyToJson b)])]) r
  | function r n ps b =>
    .located (.obj [("Function", .obj [("name", .str n), ("params", .ofStrings ps),
      ("body", .arr (listToJson b))])]) r
  | ret r v => .located (.obj [("Return", Expr.optionToJson v)]) r
  | echo r vs => .located (.obj [("Echo", .arr (Expr.listToJson vs))]) r
  | nop r => .located (.str "Nop") r

def optionToJson : Option Stmt → Json
  | none => .null
  | some s => s.toJson

def listToJson : List Stmt → List Json
  | [] => []
  | s :: ss => s.toJson :: listToJson ss

def bodyToJson : Option (List Stmt) → Json
  | none => .null
  | some ss => .arr (listToJson ss)

def armsToJson : List ElseIf → List Json
  | [] => []
  | .mk c b :: arms => .obj [("cond", c.toJson), ("body", b.toJson)] :: armsToJson arms

def casesToJson : List SwitchCase → List Json
  | [] => []
  | .mk c b :: cases =>
    .obj [("cond", Expr.optionToJson c), ("body", .arr (listToJson b))] :: casesToJson cases

end

end Stmt

def SourceUnit.toJson (u : SourceUnit) : Json :=
  .obj [("path", .str u.path), ("stmts", .arr (Stmt.listToJson u.stmts))]

end PhpLint
