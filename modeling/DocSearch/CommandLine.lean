import DocSearch.Query.Compile
import DocSearch.Request

/-!
# The command line

```text
compile BODY [--dialect NAME] [--strict-sort]
```

The command compiles a search and reports its condition, its order, its page and the
whole statement with the values written in.  A single minus sign as the body stands
for the standard input.

## Main definitions

* `CompileCommand` — the arguments, `CompileCommand.read?`.
* `compileReport` — the report on a search.
* `CommandResult` — what a run prints and how it ends, `CommandLine.run`.
-/

namespace DocSearch

open Sql

/-- What a run prints and how it ends. -/
structure CommandResult where
  /-- The exit code. -/
  code : UInt32
  /-- What goes to the standard output. -/
  stdout : String := ""
  /-- What goes to the standard error. -/
  stderr : String := ""
  deriving DecidableEq, Repr

/-! ### Arguments -/

/-- The arguments of the command. -/
structure CompileCommand where
  /-- The body of the search, once it has been given. -/
  body : Option String := none
  /-- The name of the dialect, once it has been given. -/
  dialect : Option String := none
  /-- Whether entries of the order that cannot be read are refused. -/
  strictSort : Bool := false
  deriving DecidableEq, Repr

namespace CompileCommand

/-- Whether an argument looks like an option; a single minus sign does not. -/
def looksLikeOption (arg : String) : Bool :=
  match arg.toList with
  | '-' :: _ :: _ => true
  | _ => false

/-- The option that names the dialect with its value behind an equals sign. -/
def dialectOption : String := "--dialect="

/-- Take the body, which is given once. -/
def withBody? (c : CompileCommand) (body : String) : Option CompileCommand :=
  if c.body.isSome then none else some { c with body := some body }

/-- Take the dialect, which is given once at most. -/
def withDialect? (c : CompileCommand) (name : String) : Option CompileCommand :=
  if c.dialect.isSome then none else some { c with dialect := some name }

/-- Take the arguments in one after the other; behind `--` there are no options. -/
def read? : List String → CompileCommand → Option CompileCommand
  | [], c => some c
  | "--" :: rest, c => rest.foldlM withBody? c
  | "--strict-sort" :: rest, c =>
    if c.strictSort then none else read? rest { c with strictSort := true }
  | "--dialect" :: name :: rest, c => do
    if looksLikeOption name then none else read? rest (← c.withDialect? name)
  | arg :: rest, c => do
    if dialectOption.toList.isPrefixOf arg.toList then
      read? rest (← c.withDialect? (String.ofList (arg.toList.drop dialectOption.length)))
    else if looksLikeOption arg then none
    else read? rest (← c.withBody? arg)

end CompileCommand

/-! ### Reports -/

/-- The whole statement of a search over the documents of some index. -/
def wholeStatement (d : Dialect) (filter : Fragment) (r : Request) : Fragment :=
  let order := SortClause.orderBy d r.sort
  .raw "SELECT id, type, doc FROM <index>"
    ++ (if filter.isEmpty then filter else .raw " WHERE " ++ filter)
    ++ .raw ((if order.isEmpty then "" else " " ++ order)
      ++ " LIMIT " ++ toString r.size.toInt ++ " OFFSET " ++ toString r.offset.toInt)

/-- The report on a search. -/
def compileReport (d : Dialect) (strictSort : Bool) (body : String) : Except SearchError Json := do
  let r ← Request.read { strictSort } body
  let condition ← r.predicate.compile.mapError .query
  let filter := Condition.render? d condition
  return .obj [("dialect", .str d.name), ("where", .str (d.finalize filter.sql)),
    ("params", .arr (filter.params.map Value.toJson)),
    ("order_by", .str (SortClause.orderBy d r.sort)),
    ("from", .ofInt r.offset.toInt), ("size", .ofInt r.size.toInt),
    ("aggregations", Aggregations.toJson r.aggregations),
    ("sql", .str (wholeStatement d filter r).inline), ("fingerprint", .str r.fingerprint)]

/-! ### Runs -/

namespace CommandLine

/-- How the command is used. -/
def usage : String := "Usage: compile <BODY> [--dialect <DIALECT>] [--strict-sort]\n"

/-- A failure with its code and its wording. -/
def failure (code : UInt32) (message : String) : CommandResult :=
  ⟨code, "", message ++ "\n"⟩

/-- The result of the command for a body. -/
def report (d : Dialect) (strictSort : Bool) (body : String) : CommandResult :=
  match compileReport d strictSort body with
  | .ok v => ⟨0, v.pretty ++ "\n", ""⟩
  | .error e => failure 1 ("[" ++ e.kind ++ "] " ++ e.message)

/-- The result of the command; the dialect is looked at before the body. -/
def compile (c : CompileCommand) (stdin : String) : CommandResult :=
  match c.body with
  | none => ⟨2, "", usage⟩
  | some body =>
    let name := c.dialect.getD "sqlite"
    match Dialect.named? name with
    | none => failure 2 ("Unknown dialect: " ++ name ++ " (expected sqlite or postgres)")
    | some d => report d c.strictSort (if body = "-" then stdin else body)

/-- The result of a run with some arguments and a standard input. -/
def run (args : List String) (stdin : String) : CommandResult :=
  match args with
  | "compile" :: rest =>
    match CompileCommand.read? rest {} with
    | some c => compile c stdin
    | none => ⟨2, "", usage⟩
  | _ => ⟨2, "", usage⟩

/-- Whether a run looks at the standard input. -/
def readsInput (args : List String) : Bool := args.contains "-"

end CommandLine

end DocSearch
