import PhpLint.TreeJson.Encode

/-! Reading syntax trees from their JSON form. A record is an object, in which members with unknown keys are
ignored, a known key must not occur twice, and optional parts may be missing or `null`; or it is an array of
its fields in their order. A missing `range` is the synthetic one. -/
namespace PhpLint

open Json (Part)

def Pos.ofJson? (j : Json) : Option Pos := do
  let pos ← j.record? ["line", "col"] []
  let line ← pos.required? "line"
  let col ← pos.required? "col"
  some ⟨← line.1.word?, ← col.1.word?⟩

def Range.ofJson? (j : Json) : Option Range := do
  let range ← j.record? ["start", "end"] []
  let start ← range.required? "start"
  let stop ← range.required? "end"
  some ⟨← Pos.ofJson? start.1, ← Pos.ofJson? stop.1⟩

def Range.ofNode? {whole : Json} (node : Json.Record whole) : Option Range := do
  match ← node.member? "range" with
  | none => some .synthetic
  | some r => Range.ofJson? r.1

def Json.strings? (j : Json) : Option (List String) := do
  let items ← j.items?
  items.1.mapM Json.str?

def Name.ofJson? (j : Json) : Option Name := do
  let name ← j.record? ["parts"] ["fully_qualified"]
  let parts ← name.required? "parts"
  let parts ← parts.1.strings?
  match ← name.member? "fully_qualified" with
  | none => some ⟨parts, false⟩
  | some b => some ⟨parts, ← b.1.bool?⟩

def UnaryOp.ofTag? (tag : String) : Option UnaryOp := all.find? fun op => op.tag = tag

def BinaryOp.ofTag? (tag : String) : Option BinaryOp := all.find? fun op => op.tag = tag

def UnaryOp.ofJson? (j : Json) : Option UnaryOp := j.bareCase?.bind ofTag?

def BinaryOp.ofJson? (j : Json) : Option BinaryOp := j.bareCase?.bind ofTag?

namespace Expr

mutual

def ofJson? (j : Json) : Option Expr := do
  let node ← j.record? ["value"] ["range"]
  let range ← Range.ofNode? node
  let ⟨v, _⟩ ← node.required? "value"
  let (kind, body) ← v.case?
  let ⟨body, _⟩ ← body
  ofContent? range kind body
termination_by (sizeOf j, 0)

def ofContent? (range : Range) (kind : String) (body : Json) : Option Expr :=
  match kind with
  | "Lnumber" => body.str?.map (integer range)
  | "Dnumber" => body.str?.map (float range)
  | "String" => do
    let fields ← body.record? ["raw"] []
    let raw ← fields.required? "raw"
    some (string range (← raw.1.str?))
  | "Variable" => do
    let (kind, inner) ← body.case?
    let ⟨inner, _⟩ ← inner
    match kind with
    | "Ident" => inner.str?.map (var range)
    | "Dynamic" => do
      let n ← ofJson? inner
      some (dynamicVar range n)
    | _ => none
  | "Identifier" => body.str?.map (identifier range)
  | "Name" => (Name.ofJson? body).map (name range)
  | "ConstFetch" => (Name.ofJson? body).map (constant range)
  | "ClassConstFetch" => do
    let fields ← body.record? ["class", "constant"] []
    let ⟨c, _⟩ ← fields.required? "class"
    let m ← fields.required? "constant"
    some (classConstant range (← ofJson? c) (← m.1.str?))
  | "Unary" => do
    let (op, ⟨x, _⟩) ← body.pair?
    some (unary range (← UnaryOp.ofJson? op.1) (← ofJson? x))
  | "Binary" => do
    let (op, ⟨x, _⟩, ⟨y, _⟩) ← body.triple?
    some (binary range (← BinaryOp.ofJson? op.1) (← ofJson? x) (← ofJson? y))
  | "Ternary" => do
    let fields ← body.record? ["cond", "then", "else_"] []
    let ⟨c, _⟩ ← fields.required? "cond"
    let t ← fields.optional? "then"
    let ⟨e, _⟩ ← fields.required? "else_"
    some (ternary range (← ofJson? c) (← ofPart? t) (← ofJson? e))
  | "Assign" => do
    let (⟨t, _⟩, ⟨v, _⟩) ← body.pair?
    some (assign range (← ofJson? t) (← ofJson? v))
  | "Index" => do
    let fields ← body.record? ["base", "dim"] []
    let ⟨b, _⟩ ← fields.required? "base"
    let d ← fields.optional? "dim"
    some (index range (← ofJson? b) (← ofPart? d))
  | "PropertyFetch" => do
    let fields ← body.record? ["object", "property"] []
    let ⟨o, _⟩ ← fields.required? "object"
    let ⟨m, _⟩ ← fields.required? "property"
    some (property range (← ofJson? o) (← ofJson? m))
  | "Array" => do
    let ⟨items, _⟩ ← body.items?
    some (array range (← ofList? items))
  | "Call" => do
    let fields ← body.record? ["func", "args"] []
    let ⟨f, _⟩ ← fields.required? "func"
    let ⟨args, _⟩ ← fields.required? "args"
    let ⟨args, _⟩ ← args.items?
    some (call range (← ofJson? f) (← ofList? args))
  | "Argument" => do
    let fields ← body.record? ["value", "variadic", "by_ref"] []
    let ⟨v, _⟩ ← fields.required? "value"
    let s ← fields.required? "variadic"
    let b ← fields.required? "by_ref"
    some (argument range (← ofJson? v) (← s.1.bool?) (← b.1.bool?))
  | _ => none
termination_by (sizeOf body, 1)

def ofPart? {whole : Json} (part : Option (Part whole)) : Option (Option Expr) :=
  match part with
  | none => some none
  | some ⟨v, _⟩ => do
    let e ← ofJson? v
    some (some e)
termination_by (sizeOf whole, 0)

def ofList? (items : List Json) : Option (List Expr) :=
  match items with
  | [] => some []
  | j :: js => do
    let e ← ofJson? j
    let es ← ofList? js
    some (e :: es)
termination_by (sizeOf items, 0)

end

end Expr

def ConstDecl.ofJson? (j : Json) : Option ConstDecl := do
  let decl ← j.record? ["name", "value"] []
  let name ← decl.required? "name"
  let value ← decl.required? "value"
  let name ← name.1.record? ["value"] ["range"]
  let text ← name.required? "value"
  some ⟨← text.1.str?, ← Range.ofNode? name, ← Expr.ofJson? value.1⟩

namespace Stmt

mutual

def ofJson? (j : Json) : Option Stmt := do
  let node ← j.record? ["value"] ["range"]
  let range ← Range.ofNode? node
  let ⟨v, _⟩ ← node.required? "value"
  let (kind, body) ← v.case?
  match body with
  | none => if kind = "Nop" then some (nop range) else none
  | some ⟨body, _⟩ => ofContent? range kind body
termination_by (sizeOf j, 0)

def ofContent? (range : Range) (kind : String) (body : Json) : Option Stmt :=
  match kind with
  | "Expr" => (Expr.ofJson? body).map (expr range)
  | "Block" => do
    let ⟨items, _⟩ ← body.items?
    some (block range (← ofList? items))
  | "If" => do
    let fields ← body.record? ["cond", "body", "elseifs", "else_"] []
    let c ← fields.required? "cond"
    let ⟨b, _⟩ ← fields.required? "body"
    let ⟨arms, _⟩ ← fields.required? "elseifs"
    let ⟨arms, _⟩ ← arms.items?
    let e ← fields.optional? "else_"
    some (branch range (← Expr.ofJson? c.1) (← ofJson? b) (← ofArms? arms) (← ofPart? e))
  | "While" => do
    let fields ← body.record? ["cond", "body"] []
    let c ← fields.required? "cond"
    let ⟨b, _⟩ ← fields.required? "body"
    some (whileLoop range (← Expr.ofJson? c.1) (← ofJson? b))
  | "DoWhile" => do
    let fields ← body.record? ["body", "cond"] []
    let ⟨b, _⟩ ← fields.required? "body"
    let c ← fields.required? "cond"
    some (doLoop range (← ofJson? b) (← Expr.ofJson? c.1))
  | "Switch" => do
    let fields ← body.record? ["subject", "cases"] []
    let s ← fields.required? "subject"
    let ⟨cases, _⟩ ← fields.required? "cases"
    let ⟨cases, _⟩ ← cases.items?
    some (switch range (← Expr.ofJson? s.1) (← ofCases? cases))
  | "Const" => do
    let items ← body.items?
    some (const range (← items.1.mapM ConstDecl.ofJson?))
  | "Namespace" => do
    let fields ← body.record? ["name", "body"] []
    let n ← fields.optional? "name"
    let n ← n.mapM fun n => Name.ofJson? n.1
    match ← fields.optional? "body" with
    | none => some (scope range n none)
    | some ⟨b, _⟩ => do
      let ⟨items, _⟩ ← b.items?
      some (scope range n (some (← ofList? items)))
  | "Function" => do
    let fields ← body.record? ["name", "params", "body"] []
    let n ← fields.required? "name"
    let ps ← fields.required? "params"
    let ⟨b, _⟩ ← fields.required? "body"
    let ⟨items, _⟩ ← b.items?
    some (function range (← n.1.str?) (← ps.1.strings?) (← ofList? items))
  | "Return" =>
    if body matches .null then some (ret range none)
    else (Expr.ofJson? body).map fun e => ret range (some e)
  | "Echo" => do
    let items ← body.items?
    some (echo range (← Expr.ofList? items.1))
  | "Nop" => if body matches .null then some (nop range) else none
  | _ => none
termination_by (sizeOf body, 1)

def ofPart? {whole : Json} (part : Option (Part whole)) : Option (Option Stmt) :=
  match part with
  | none => some none
  | some ⟨v, _⟩ => do
    let s ← ofJson? v
    some (some s)
termination_by (sizeOf whole, 0)

def ofList? (items : List Json) : Option (List Stmt) :=
  match items with
  | [] => some []
  | j :: js => do
    let s ← ofJson? j
    let ss ← ofList? js
    some (s :: ss)
termination_by (sizeOf items, 0)

def ofArms? (items : List Json) : Option (List ElseIf) :=
  match items with
  | [] => some []
  | j :: js => do
    let arm ← j.record? ["cond", "body"] []
    let c ← arm.required? "cond"
    let ⟨b, _⟩ ← arm.required? "body"
    let c ← Expr.ofJson? c.1
    let b ← ofJson? b
    let arms ← ofArms? js
    some (.mk c b :: arms)
termination_by (sizeOf items, 0)

def ofCases? (items : List Json) : Option (List SwitchCase) :=
  match items with
  | [] => some []
  | j :: js => do
    let arm ← j.record? ["cond", "body"] []
    let c ← arm.optional? "cond"
    let c ← Expr.ofPart? c
    let ⟨b, _⟩ ← arm.required? "body"
    let ⟨b, _⟩ ← b.items?
    let b ← ofList? b
    let cases ← ofCases? js
    some (.mk c b :: cases)
termination_by (sizeOf items, 0)

end

end Stmt

def SourceUnit.ofJson? (j : Json) : Option SourceUnit := do
  let unit ← j.record? ["path", "stmts"] []
  let path ← unit.required? "path"
  let stmts ← unit.required? "stmts"
  let items ← stmts.1.items?
  some ⟨← path.1.str?, ← Stmt.ofList? items.1⟩

end PhpLint
