import Mathlib.Data.List.Basic

/-!
# Templates and conditions

`template_string.lua`, `conditions/operation.lua` and `conditions/condition.lua`.
The Liquid library and the regular expressions of the web server are parameters.
-/

namespace Apicast

/-- What templates and operations use of libraries outside the gateway. -/
structure TemplateEngine (Context : Type*) where
  /-- Parse a Liquid text and interpret it over the variables of the context. -/
  liquid : String → Option (Context → String)
  /-- `ngx.re.match` of a subject and a regular expression. -/
  isMatch : String → String → Bool

inductive TemplateType
  | plain
  | liquid
  deriving DecidableEq, Repr

namespace TemplateString

variable {Context : Type*}

/-- `TemplateString.new` followed by `render`: a Liquid text that does not parse
is evaluated to the empty string. -/
def render (engine : TemplateEngine Context) (value : String) (type : TemplateType)
    (context : Context) : String :=
  match type with
  | .plain => value
  | .liquid =>
      match engine.liquid value with
      | some interpret => interpret context
      | none => ""

end TemplateString

inductive OperationType
  | equal
  | notEqual
  | isMatch
  deriving DecidableEq, Repr

structure Operation where
  left : String
  leftType : Option TemplateType
  op : OperationType
  right : String
  rightType : Option TemplateType
  deriving DecidableEq, Repr

/-- `operation.lua`, `_M:evaluate`. -/
def Operation.evaluate {Context : Type*} (engine : TemplateEngine Context) (self : Operation)
    (context : Context) : Bool :=
  let left := TemplateString.render engine self.left (self.leftType.getD .plain) context
  let right := TemplateString.render engine self.right (self.rightType.getD .plain) context
  match self.op with
  | .equal => left == right
  | .notEqual => left != right
  | .isMatch => engine.isMatch left right

inductive CombineOp
  | and
  | or
  deriving DecidableEq, Repr

structure Condition where
  operations : List Operation
  combineOp : Option CombineOp
  deriving DecidableEq, Repr

/-- `condition.lua`, `_M:evaluate`; the operations are combined with `and` by default. -/
def Condition.evaluate {Context : Type*} (engine : TemplateEngine Context) (self : Condition)
    (context : Context) : Bool :=
  match self.combineOp.getD .and with
  | .and => self.operations.all (·.evaluate engine context)
  | .or => self.operations.any (·.evaluate engine context)

end Apicast
