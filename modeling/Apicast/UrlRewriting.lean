import Mathlib.Logic.Function.Basic
import Mathlib.Data.List.Basic

/-!
# Rewriting the URL of a request

`policy/url_rewriting` substitutes in the path by regular expressions, and then runs commands on the
arguments of the query, each on what the one before left. An operation that does not exist and a
regular expression that cannot be compiled raise an error, which ends the phase. Arguments are
handed back to nginx by the commands that change them. The request has no more arguments than the
hundred that `ngx.req.get_uri_args` reads.
-/

namespace Apicast

namespace UrlRewriting

section Path

structure RewriteCommand where
  op : String
  regex : String
  replace : String
  options : Option String
  breaks : Bool
  methods : List String

/-- `ngx.re.sub` or `ngx.re.gsub`: the new subject and the number of substitutions, unless there is
an error. -/
abbrev Substitute := String → String → String → Option String → Option (String × Nat)

/-- How a command ends. -/
inductive Rewritten
  | raised
  | done (uri : String) (changed : Bool)

variable (sub gsub : Substitute) (method : String)

/-- `is_match_methods` -/
def isMatchMethods (methods : List String) : Bool := methods.isEmpty || methods.contains method

def substituteFunctions (op : String) : Option Substitute :=
  if op = "sub" then some sub else if op = "gsub" then some gsub else none

/-- The URIs that `ngx.req.set_uri` takes. For an empty one and for control characters it raises an
error. -/
def isSettable (uri : String) : Bool :=
  !uri.isEmpty && uri.toList.all fun letter => decide (32 ≤ letter.toNat ∧ letter.toNat ≠ 127)

/-- Calling an operation that does not exist raises an error, as comparing the missing count of
an error with a number and setting some URIs do. -/
def applyRewriteCommand (uri : String) (command : RewriteCommand) : Rewritten :=
  match substituteFunctions sub gsub command.op with
  | none => .raised
  | some func =>
      match func uri command.regex command.replace command.options with
      | none => .raised
      | some (newUri, changes) =>
          if 0 < changes then if isSettable newUri then .done newUri true else .raised
          else .done uri false

/-- The loop over the rewrite commands: the URI that it leaves, and that it raised an error. -/
def rewriteUri (uri : String) : List RewriteCommand → String × Bool
  | [] => (uri, false)
  | command :: commands =>
      if isMatchMethods method command.methods then
        match applyRewriteCommand sub gsub uri command with
        | .raised => (uri, true)
        | .done newUri changed =>
            if changed && command.breaks then (newUri, false) else rewriteUri newUri commands
      else rewriteUri uri commands

end Path

section Arguments

/-- A value of an argument. Without an equals sign it is `true`. -/
inductive ArgValue
  | flag
  | text (value : String)
  deriving DecidableEq

/-- An argument: one value, or a table of values. -/
inductive Arg
  | single (value : ArgValue)
  | table (first : ArgValue) (rest : List ArgValue)
  deriving DecidableEq

def Arg.values : Arg → List ArgValue
  | single value => [value]
  | table first rest => first :: rest

abbrev Args := String → Option Arg

/-- A `QueryParams` object, and the arguments that were handed back to nginx last. -/
structure QueryParams where
  args : Args
  uriArgs : Option Args

namespace QueryParams

/-- `update_uri_args` -/
def updateUriArgs (self : QueryParams) : QueryParams := { self with uriArgs := some self.args }

/-- `add_to_existing_arg`; to insert nothing makes a table of the argument. -/
def addToExistingArg (self : QueryParams) (arg : String) (existing : Arg) (value : Option String) :
    QueryParams :=
  let inserted := (value.map ArgValue.text).toList
  let extended :=
    match existing with
    | .single first => .table first inserted
    | .table first rest => .table first (rest ++ inserted)
  { self with args := Function.update self.args arg (some extended) }

/-- Assigns one value, or none. -/
def assign (self : QueryParams) (arg : String) (value : Option String) : QueryParams :=
  { self with
    args := Function.update self.args arg (value.map fun value => .single (.text value)) }

def push (self : QueryParams) (arg : String) (value : Option String) : QueryParams :=
  match self.args arg with
  | none => (self.assign arg value).updateUriArgs
  | some existing => (self.addToExistingArg arg existing value).updateUriArgs

def set (self : QueryParams) (arg : String) (value : Option String) : QueryParams :=
  (self.assign arg value).updateUriArgs

def add (self : QueryParams) (arg : String) (value : Option String) : QueryParams :=
  match self.args arg with
  | none => self
  | some existing => (self.addToExistingArg arg existing value).updateUriArgs

def delete (self : QueryParams) (arg : String) : QueryParams :=
  match self.args arg with
  | none => self
  | some _ => (self.assign arg none).updateUriArgs

end QueryParams

/-- A command on an argument, with the value that its template renders to. -/
structure QueryArgCommand where
  op : String
  arg : String
  value : Option String
  methods : List String

/-- `apply_query_arg_command`: the function is looked up in the object, which also finds its
arguments, a table that cannot be called, and its constructor, whose result is dropped. -/
def applyQueryArgCommand (queryArgs : QueryParams) (command : QueryArgCommand) :
    Option QueryParams :=
  match command.op with
  | "push" => some (queryArgs.push command.arg command.value)
  | "set" => some (queryArgs.set command.arg command.value)
  | "add" => some (queryArgs.add command.arg command.value)
  | "delete" => some (queryArgs.delete command.arg)
  | "args" => none
  | _ => some queryArgs

/-- The loop over the commands on arguments, which an error ends. -/
def applyQueryArgCommands (method : String) (queryArgs : QueryParams) :
    List QueryArgCommand → QueryParams
  | [] => queryArgs
  | command :: commands =>
      if isMatchMethods method command.methods then
        match applyQueryArgCommand queryArgs command with
        | some queryArgs => applyQueryArgCommands method queryArgs commands
        | none => queryArgs
      else applyQueryArgCommands method queryArgs commands

/-- The request after the rewrite phase: its URI, and its arguments when they were handed back. -/
def rewrite (sub gsub : Substitute) (method uri : String) (args : Args)
    (commands : List RewriteCommand) (queryArgsCommands : List QueryArgCommand) :
    String × Option Args :=
  match rewriteUri sub gsub method uri commands with
  | (newUri, true) => (newUri, none)
  | (newUri, false) =>
      (newUri, (applyQueryArgCommands method ⟨args, none⟩ queryArgsCommands).uriArgs)

end Arguments

section Documented

/-- What a command is documented to make of the values of its argument. -/
def documented (values : List ArgValue) (command : QueryArgCommand) : List ArgValue :=
  let value := (command.value.map ArgValue.text).toList
  match command.op with
  | "push" => values ++ value
  | "set" => value
  | "add" => if values = [] then [] else values ++ value
  | "delete" => []
  | _ => values

/-- The values of an argument; one that is not there has none. -/
def valuesOf (args : Args) (name : String) : List ArgValue :=
  match args name with
  | none => []
  | some arg => arg.values

variable {self after : QueryParams} {arg name : String} {value : Option String}
  {command : QueryArgCommand} {initial : Args} {method : String}

end Documented

section Phase

variable {method name : String} {initial : Args} {self : QueryParams}

variable {command : QueryArgCommand} {commands : List QueryArgCommand}

/-- Where the loop over the rewrite commands comes to: a URI, and the commands that are left. -/
inductive Reaches (sub gsub : Substitute) (method : String) :
    String → List RewriteCommand → String → List RewriteCommand → Prop
  | here (uri : String) (commands : List RewriteCommand) :
      Reaches sub gsub method uri commands uri commands
  | skips {uri last : String} {command : RewriteCommand} {commands rest : List RewriteCommand} :
      isMatchMethods method command.methods = false →
      Reaches sub gsub method uri commands last rest →
      Reaches sub gsub method uri (command :: commands) last rest
  | rewrites {uri newUri last : String} {changed : Bool} {command : RewriteCommand}
      {commands rest : List RewriteCommand} :
      isMatchMethods method command.methods = true →
      applyRewriteCommand sub gsub uri command = .done newUri changed →
      (changed && command.breaks) = false →
      Reaches sub gsub method newUri commands last rest →
      Reaches sub gsub method uri (command :: commands) last rest

variable {sub gsub : Substitute} {uri last : String} {rest rewriteCommands : List RewriteCommand}

end Phase

end UrlRewriting

end Apicast
