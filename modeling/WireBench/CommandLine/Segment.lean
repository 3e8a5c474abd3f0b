import WireBench.CommandLine

/-!
# The grammar of command lines

A command line is a sequence of segments: a positional argument, an option with its one value, or an
option with all values up to the next argument that starts with a dash. What a command line says is
read off its segments.
-/

namespace WireBench.CommandLine

inductive Segment where
  | positional (arg : String)
  | single (spelling : String) (rule : OptionRule) (value : String)
  | many (spelling : String) (rule : OptionRule) (values : List String)
  deriving DecidableEq, Repr

namespace Segment

def args : Segment → List String
  | .positional arg => [arg]
  | .single spelling _ value => [spelling, value]
  | .many spelling _ values => spelling :: values

def positional? : Segment → Option String
  | .positional arg => some arg
  | _ => none

def values? (name : String) : Segment → Option (List String)
  | .positional _ => none
  | .single _ rule value => if rule.name = name then some [value] else none
  | .many _ rule values => if rule.name = name then some values else none

end Segment

def IsPositional (arg : String) : Prop :=
  arg = "-" ∨ isDashed arg = false

/-- Whether an argument is an option of a rule: it starts with a dash, is more than dashes that end
the options or stand by themselves, and the rule is the first for it. -/
def IsOption (rules : List OptionRule) (arg : String) (rule : OptionRule) : Prop :=
  isDashed arg = true ∧ arg ≠ "-" ∧ arg ≠ "--" ∧ resolve rules arg = some rule

/-- The segments of an argument list. The values of an option of many end only where the arguments
end or one starts with a dash. -/
inductive Segmented (rules : List OptionRule) : List String → List Segment → Prop where
  | done : Segmented rules [] []
  | positional {arg : String} {rest : List String} {segments : List Segment} :
    IsPositional arg → Segmented rules rest segments →
    Segmented rules (arg :: rest) (.positional arg :: segments)
  | single {arg value : String} {rule : OptionRule} {rest : List String}
      {segments : List Segment} :
    IsOption rules arg rule → rule.many = false → isDashed value = false →
    Segmented rules rest segments →
    Segmented rules (arg :: value :: rest) (.single arg rule value :: segments)
  | many {arg : String} {rule : OptionRule} {values rest : List String}
      {segments : List Segment} :
    IsOption rules arg rule → rule.many = true → (∀ v ∈ values, isDashed v = false) →
    (∀ next ∈ rest.head?, isDashed next = true) → Segmented rules rest segments →
    Segmented rules (arg :: (values ++ rest)) (.many arg rule values :: segments)

def cutAtEnd (args : List String) : List String × List String :=
  (args.takeWhile (· != "--"), (args.dropWhile (· != "--")).drop 1)

end WireBench.CommandLine
