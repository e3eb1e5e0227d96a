import Pkgset.Compose.Environment
import Pkgset.Derivation.Recipe

/-!
# Expressions

A small language in which constructors, overlay definitions, defaults and queries
are written. The meaning of an expression is a demand; operands are evaluated from
left to right, and an error of one is an error of the whole.
-/

namespace Pkgset

/-- An expression of the component language. -/
inductive Expression where
  /-- Plain data. -/
  | literal (data : Json)
  /-- An input or entry. -/
  | get (name : String)
  /-- An entry as the layers below define it. -/
  | prev (name : String)
  /-- Whether a layer below defines an entry. -/
  | hasPrev (name : String)
  /-- Whether an entry is visible. -/
  | has (name : String)
  /-- The name of what is being computed. -/
  | ownName
  /-- A lazy reference to an input or entry. -/
  | lazy (name : String)
  /-- An input or entry that has to be of a kind. -/
  | expecting (kind : Kind) (name : String)
  /-- An entry of the environment, declared or not. -/
  | outer (name : String)
  /-- An environment as a scope. -/
  | environment (view : View)
  /-- The end of a chain of lazy references. -/
  | force (operand : Expression)
  /-- The kind of a component. -/
  | kindOf (operand : Expression)
  /-- A record. -/
  | attrs (fields : List (String × Expression))
  /-- A field of a record. -/
  | attr (operand : Expression) (key : String)
  /-- An entry of a scope. -/
  | inside (operand : Expression) (name : String)
  /-- A lazy reference to an entry of a scope. -/
  | insideLazy (operand : Expression) (name : String)
  /-- The sum of integers. -/
  | sum (operands : List Expression)
  /-- Texts one after another. -/
  | concat (operands : List Expression)
  /-- One of two, by whether a condition is true. -/
  | choose (condition yes no : Expression)
  /-- The last of several. -/
  | sequence (operands : List Expression)
  /-- The second if the first is an error. -/
  | orElse (first second : Expression)
  /-- An error as data. -/
  | caught (operand : Expression)
  /-- An entry in the journal, then the operand. -/
  | traced (label : String) (operand : Expression)
  /-- A turn for other threads, then the operand. -/
  | paused (operand : Expression)
  /-- An error with a message. -/
  | failure (message : String)
  /-- A crash. -/
  | crash
  /-- An injected and constructed call site, whose constants leave labels in the
      journal first. -/
  | call (labels : List String) (site : CallSite)
  /-- A derivation. -/
  | derivation (recipe : Recipe) (inputs : List Expression)

/-- Where an expression stands: in a constructor, in a definition of an overlay, or
    before an environment, under the name of an input or query. -/
inductive Context where
  | construction (inputs : Inputs)
  | overlay (scope : Scope)
  | before (view : View) (name : String)

namespace Context

/-- The name that the expression's errors carry. -/
def name : Context → String
  | .construction inputs => inputs.component
  | .overlay scope => scope.name
  | .before _ name => name

/-- The environment that the expression sees. -/
def view : Context → View
  | .construction inputs => inputs.view
  | .overlay scope => .whole scope.env
  | .before view _ => view

/-- The component that a name stands for. -/
def get (context : Context) (name : String) : Demand :=
  match context with
  | .construction inputs => inputs.get name
  | .overlay scope => scope.get name
  | .before view _ => .get view name .done

/-- A lazy reference to what a name stands for. -/
def lazy (context : Context) (name : String) : Demand :=
  match context with
  | .construction inputs => inputs.lazy name
  | _ => .lazy context.view name

/-- What a name stands for in the layers below; elsewhere nothing is below. -/
def prev (context : Context) (name : String) : Demand :=
  match context with
  | .overlay scope => scope.prev name
  | _ => .fail (.notFound name)

/-- Whether a layer below defines a name. -/
def hasPrev (context : Context) (name : String) : Demand :=
  match context with
  | .overlay scope => .hasPrior scope.env name scope.layer fun found => .pure (.value (.flag found))
  | _ => .pure (.value (.flag false))

/-- The error with a message of the expression's own. -/
def failure (context : Context) (message : String) : ComposeError := .constructorFailed context.name message

end Context

/-- The integer that a component is, if it fits 64 bits. -/
def Component.integer? : Component → Option Int64
  | .value (.number n) =>
    if Int64.minValue.toInt ≤ n ∧ n ≤ Int64.maxValue.toInt then some (Int64.ofInt n) else none
  | _ => none

/-- How a component stands in a text: text as it is, other data as JSON, and of any
    other component its kind. -/
def Component.written : Component → String
  | .value (.text content) => content
  | .value data => data.toText
  | component => "<" ++ component.kind.name ++ ">"

/-- An error as data. -/
def ComposeError.data (error : ComposeError) : Json :=
  .record [("error", .text error.kindName), ("message", .text error.message)]

namespace Expression

mutual

/-- What evaluating an expression demands. -/
def demand (context : Context) : Expression → Demand
  | .literal data => .pure (.value data)
  | .get name => context.get name
  | .prev name => context.prev name
  | .hasPrev name => context.hasPrev name
  | .has name => .has context.view name fun found => .pure (.value (.flag found))
  | .ownName => .pure (.text context.name)
  | .lazy name => context.lazy name
  | .expecting kind name => .expecting kind name (context.get name)
  | .outer name => .get context.view name .done
  | .environment view => .pure (.scope view)
  | .force operand => .settled (demand context operand)
  | .kindOf operand => .andThen (demand context operand) fun component => .pure (.text component.kind.name)
  | .attrs fields => demandFields context fields fun found => .pure (.attrs found)
  | .attr operand key => .andThen (.settled (demand context operand)) fun
    | .attrs fields =>
      match Dict.get? fields key with
      | some component => .pure component
      | none => .fail (context.failure ("no attribute " ++ key))
    | _ => .fail (context.failure ("no attribute " ++ key))
  | .inside operand name => .andThen (.settled (demand context operand)) fun
    | .scope view => .get view name .done
    | _ => .fail (context.failure "not a scope")
  | .insideLazy operand name => .andThen (.settled (demand context operand)) fun
    | .scope view => .lazy view name
    | _ => .fail (context.failure "not a scope")
  | .sum operands => demandSum context 0 operands
  | .concat operands => demandList context operands fun components =>
    .pure (.text (String.join (components.map Component.written)))
  | .choose condition yes no => .andThen (demand context condition) fun
    | .value (.flag true) => demand context yes
    | _ => demand context no
  | .sequence operands => demandList context operands fun components =>
    .pure (components.getLast?.getD (.value .null))
  | .orElse first second => .bind (demand context first) fun
    | .ok component => .pure component
    | .error _ => demand context second
  | .caught operand => .bind (demand context operand) fun
    | .ok component => .pure component
    | .error error => .pure (.value error.data)
  | .traced label operand => .mark label (demand context operand)
  | .paused operand => .pause (demand context operand)
  | .failure message => .fail (context.failure message)
  | .crash => .panic
  | .call labels site => labels.foldr .mark (site.call context.view)
  | .derivation recipe inputs => demandInputs context inputs fun derivations =>
    match recipe.derivation derivations with
    | .ok made => .pure (.derivation made)
    | .error error => .fail (context.failure error.message)

/-- The components of several expressions. -/
def demandList (context : Context) : List Expression → (List Component → Demand) → Demand
  | [], next => next []
  | first :: rest, next => .andThen (demand context first) fun component =>
    demandList context rest fun others => next (component :: others)

/-- The components of the fields of a record. -/
def demandFields (context : Context) : List (String × Expression) → (Dict Component → Demand) → Demand
  | [], next => next []
  | (key, operand) :: rest, next => .andThen (demand context operand) fun component =>
    demandFields context rest fun others => next (Dict.insert others key component)

/-- The sum of a total and further integers in 64 bits; each is settled and looked at
    before the next is evaluated. -/
def demandSum (context : Context) (total : Int64) : List Expression → Demand
  | [] => .pure (.value (.number total.toInt))
  | first :: rest => .andThen (.settled (demand context first)) fun component =>
    match component.integer? with
    | some n => demandSum context (total + n) rest
    | none => .fail (context.failure "not an integer")

/-- The derivations of several expressions. -/
def demandInputs (context : Context) : List Expression → (List Derivation → Demand) → Demand
  | [], next => next []
  | first :: rest, next => .andThen (.settled (demand context first)) fun
    | .derivation input => demandInputs context rest fun others => next (input :: others)
    | _ => .fail (context.failure "input is not a derivation")

end

/-- The constructor that an expression is. -/
def construct (body : Expression) (inputs : Inputs) : Demand := body.demand (.construction inputs)

/-- The default of an input that an expression is. -/
def default (body : Expression) (input : String) (view : View) : Demand := body.demand (.before view input)

/-- The definition of an entry that an expression is. -/
def define (body : Expression) (scope : Scope) : Demand := body.demand (.overlay scope)

/-- The name that a query's errors carry. -/
def queryName : String := "eval"

/-- The query to an environment that an expression is. -/
def query (body : Expression) (view : View) : Demand := body.demand (.before view queryName)

/-- The component that an expression is without an environment, and the labels that
    evaluating it leaves in the journal. -/
def constant? (body : Expression) : Option (List String × Component) :=
  match (body.query (.whole 0)).constant? with
  | some (labels, .ok component) => some (labels, component)
  | _ => none

end Expression
end Pkgset
