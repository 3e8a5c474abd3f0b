import WireBench.KeyedList

/-!
# Command lines

An argument list is cut into options with their values and positional arguments, by rules that name
the options and say how many values each takes. An option is known under its name, whatever spelling
was used; an option of one value keeps the last value given, an option of many keeps them all.
-/

namespace WireBench

/-- What is known of an option: its name, its other spellings, and whether it takes any number of
values rather than exactly one. -/
structure OptionRule where
  name : String
  aliases : List String
  many : Bool
  deriving DecidableEq, Repr

def OptionRule.isSpelled (rule : OptionRule) (key : String) : Bool :=
  rule.name == key || rule.aliases.contains key

structure OptionValues where
  name : String
  values : List String
  deriving DecidableEq, Repr

inductive UsageError where
  | unknownOption (spelling : String)
  | missingValue (spelling : String)
  deriving DecidableEq, Repr

def UsageError.message : UsageError → String
  | .unknownOption spelling => "Invalid option: " ++ spelling
  | .missingValue spelling => "Option " ++ spelling ++ " requires a value"

structure Invocation where
  options : KeyedList OptionValues OptionValues.name
  positionals : List String

namespace Invocation

def empty : Invocation := ⟨.empty, []⟩

def values (inv : Invocation) (name : String) : List String :=
  match inv.options.find? name with
  | some o => o.values
  | none => []

def get? (inv : Invocation) (name : String) : Option String :=
  (inv.values name).getLast?

def contains (inv : Invocation) (name : String) : Bool :=
  inv.options.contains name

def size (inv : Invocation) : Nat :=
  inv.options.size

/-- Puts new values in the place of those an option had. -/
def assign (inv : Invocation) (name : String) (values : List String) : Invocation :=
  { inv with options := inv.options.insert ⟨name, values⟩ }

/-- Puts new values behind those an option had. -/
def extend (inv : Invocation) (name : String) (values : List String) : Invocation :=
  inv.assign name (inv.values name ++ values)

def addPositionals (inv : Invocation) (args : List String) : Invocation :=
  { inv with positionals := inv.positionals ++ args }

theorem values_assign (inv : Invocation) (name other : String) (values : List String) :
    (inv.assign name values).values other = if name = other then values else inv.values other := by
  unfold Invocation.values assign
  rw [KeyedList.find?_insert]
  by_cases h : name = other <;> simp [h]

theorem values_extend (inv : Invocation) (name other : String) (values : List String) :
    (inv.extend name values).values other =
      if name = other then inv.values name ++ values else inv.values other := by
  rw [extend, values_assign]

theorem contains_assign (inv : Invocation) (name other : String) (values : List String) :
    (inv.assign name values).contains other = (decide (name = other) || inv.contains other) := by
  unfold Invocation.contains KeyedList.contains assign
  rw [KeyedList.find?_insert]
  by_cases h : name = other <;> simp [h]

end Invocation

namespace CommandLine

def isDashed (arg : String) : Bool :=
  arg.toList.head? == some '-'

def dropDashPairs : List Char → List Char
  | '-' :: '-' :: cs => dropDashPairs cs
  | cs => cs

/-- What an option is called, without the dashes before it: of a single dash that one, of several
as many pairs as there are. -/
def bareKey (arg : String) : String :=
  match arg.toList with
  | '-' :: '-' :: cs => String.ofList (dropDashPairs cs)
  | '-' :: cs => String.ofList cs
  | _ => arg

/-- The first rule for an option as spelled; nothing is an option without a name. -/
def resolve (rules : List OptionRule) (arg : String) : Option OptionRule :=
  if (bareKey arg).isEmpty then none else rules.find? (·.isSpelled (bareKey arg))

/-- Takes the arguments apart after those that made `inv`. Two dashes alone make all further
arguments positional, and a single dash alone is positional. -/
def parseFrom (rules : List OptionRule) (inv : Invocation) :
    List String → Except UsageError Invocation
  | [] => .ok inv
  | arg :: rest =>
    if arg = "--" then .ok (inv.addPositionals rest)
    else if arg = "-" ∨ isDashed arg = false then parseFrom rules (inv.addPositionals [arg]) rest
    else match resolve rules arg with
      | none => .error (.unknownOption arg)
      | some rule =>
        if rule.many then
          parseFrom rules (inv.extend rule.name (rest.takeWhile (fun v => !isDashed v)))
            (rest.dropWhile (fun v => !isDashed v))
        else match rest with
          | [] => .error (.missingValue arg)
          | value :: rest' =>
            if isDashed value then .error (.missingValue arg)
            else parseFrom rules (inv.assign rule.name [value]) rest'
termination_by args => args.length
decreasing_by
  · simp
  · exact Nat.lt_succ_of_le (List.dropWhile_sublist _).length_le
  · simp +arith

def parse (rules : List OptionRule) (args : List String) : Except UsageError Invocation :=
  parseFrom rules .empty args

end CommandLine

end WireBench
