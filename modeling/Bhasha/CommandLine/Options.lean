import Bhasha.Text.Decimal

/-! The arguments of the command line. They are taken from left to right, and the first that asks
for help or the version, or cannot be used, decides. Whether the options go together is asked only
after the last. -/

namespace Bhasha.CommandLine

structure Options where
  script : Option String
  source : Option String
  limit : Option Nat
  tokens : Bool
  tree : Bool
  verbosity : Nat

def Options.initial : Options := ⟨none, none, none, false, false, 0⟩

/-- Why the arguments lead to no run. -/
inductive Stop where
  | help
  | version
  | misuse
  deriving DecidableEq

/-- The options that take a value. -/
inductive Setting where
  | source
  | limit
  deriving DecidableEq

structure State where
  options : Options
  /-- The option whose value comes next. -/
  pending : Option Setting
  /-- Whether `--` was seen, after which there are no options. -/
  ended : Bool

abbrev Step := Except Stop State

/-- A limit is at most `2 ^ 64 - 1`. -/
def limit? (s : String) : Option Nat := do
  let n ← Text.Decimal.natural? s.toList
  if n < 0x10000000000000000 then some n else none

/-- Gives an option its value, once. -/
def set (st : State) (setting : Setting) (value : String) : Step :=
  match setting with
  | .source =>
    if st.options.source.isSome then throw .misuse
    else pure { st with options.source := value, pending := none }
  | .limit =>
    match st.options.limit, limit? value with
    | none, some n => pure { st with options.limit := n, pending := none }
    | _, _ => throw .misuse

def await (st : State) (setting : Setting) : Step := pure { st with pending := setting }

def raise (st : State) : State := { st with options.verbosity := st.options.verbosity + 1 }

/-- One script at most, and its path is not empty. -/
def positional (st : State) (arg : String) : Step :=
  if st.options.script.isSome || arg.isEmpty then throw .misuse
  else pure { st with options.script := arg }

def long (st : State) (name : String) : Step :=
  match name with
  | "eval" => await st .source
  | "max-call-depth" => await st .limit
  | "tokens" => if st.options.tokens then throw .misuse else pure { st with options.tokens := true }
  | "ast" => if st.options.tree then throw .misuse else pure { st with options.tree := true }
  | "verbose" => pure (raise st)
  | "version" => throw .version
  | "help" => throw .help
  | _ => throw .misuse

/-- A long option with its value behind `=`. -/
def longWith (st : State) (name value : String) : Step :=
  match name with
  | "eval" => set st .source value
  | "max-call-depth" => set st .limit value
  | _ => throw .misuse

/-- Letters behind one `-`. What follows `e` is its value, less one `=` in front. -/
def short (st : State) : List Char → Step
  | [] => pure st
  | 'v' :: rest => short (raise st) rest
  | 'V' :: _ => throw .version
  | 'h' :: _ => throw .help
  | ['e'] => await st .source
  | 'e' :: '=' :: rest => set st .source (String.ofList rest)
  | 'e' :: rest => set st .source (String.ofList rest)
  | _ => throw .misuse

/-- An argument in its place. Only a lone `-` may stand for a value that starts so. -/
def take (st : State) (arg : String) : Step :=
  if st.ended then positional st arg
  else
    match arg.toList, st.pending with
    | '-' :: _ :: _, some _ => throw .misuse
    | _, some setting => set st setting arg
    | ['-', '-'], none => pure { st with ended := true }
    | '-' :: '-' :: rest, none =>
      let name := rest.takeWhile (· ≠ '=')
      match rest.dropWhile (· ≠ '=') with
      | [] => long st (String.ofList name)
      | _ :: value => longWith st (String.ofList name) (String.ofList value)
    | '-' :: c :: rest, none => short st (c :: rest)
    | _, none => positional st arg

/-- A run needs a script or a source text, not both, and prints one thing. -/
def Options.agree (o : Options) : Bool :=
  o.script.isSome != o.source.isSome && !(o.tokens && o.tree)

/-- The options that the arguments give. -/
def Options.ofArgs (args : List String) : Except Stop Options := do
  let st ← args.foldlM take ⟨.initial, none, false⟩
  if st.pending.isNone && st.options.agree then pure st.options else throw .misuse

end Bhasha.CommandLine
