/-
Arguments of a command line. Options begin with a hyphen and may be shortened as long as only one
fits; a value follows its option or is joined to it by an equals sign; two hyphens alone end the
options. What is left goes to the one positional argument of the command, and what that does not
take is handed back.
-/
import AuditTrail.Text.Digit
import AuditTrail.Text.Quoted

namespace AuditTrail.Command

/-- Why no command is run: a text was asked for, or the arguments are refused. -/
inductive Stop where
  | shown (text : Text)
  | refused (usage program message : Text)
  deriving DecidableEq, Repr

/-- An option: its names, whether it takes a value, the values that it may take if they are
limited, and what it does. -/
structure Opt (σ : Type) where
  names : List Text
  takesValue : Bool
  choices : List Text
  act : Text → σ → Except Stop σ

/-- What the positional argument takes: everything up to the next option, or everything. -/
inductive Extent where
  | some
  | all
  deriving DecidableEq, Repr

/-- The positional argument: what it is called, what it takes, whether it has to be there, and what
it does. -/
structure Positional (σ : Type) where
  label : Text
  extent : Extent
  required : Bool
  act : List Text → σ → Except Stop σ

/-- The arguments that a command understands. -/
structure Parser (σ : Type) where
  program : Text
  usage : Text
  options : List (Opt σ)
  positional : Option (Positional σ)

/-- An option that an argument names, with the name it has in full, and the value that is joined
to it. -/
structure Match (σ : Type) where
  option : Option (Opt σ)
  name : Text
  joined : Option Text

/-- What an argument is. -/
inductive Role (σ : Type) where
  | option (m : Match σ)
  | plain
  /-- The two hyphens that end the options. -/
  | divider

/-- An argument and what it is. -/
abbrev Token (σ : Type) := Text × Role σ

/-- The two hyphens that end the options. -/
def divider : Text := ['-', '-']

/-- Whether a text is written like a negative number. -/
def isNegativeNumber (s : Text) : Bool :=
  match s with
  | '-' :: rest =>
    let rest := if rest.getLast? = some '\n' then rest.dropLast else rest
    match rest.dropWhile Text.isDigit with
    | [] => !rest.isEmpty
    | '.' :: fraction => !fraction.isEmpty && fraction.all Text.isDigit
    | _ => false
  | _ => false

namespace Parser

variable {σ : Type}

/-- A refusal of the arguments. -/
def refuse {α : Type} (p : Parser σ) (message : Text) : Except Stop α :=
  .error (.refused p.usage p.program message)

/-- The names of an option together. -/
def label (o : Opt σ) : Text := Text.joinWith ['/'] o.names

/-- A refusal that concerns an option. -/
def refuseOption {α : Type} (p : Parser σ) (o : Opt σ) (message : Text) : Except Stop α :=
  p.refuse ("argument ".toList ++ label o ++ ": ".toList ++ message)

/-- The names of all options, each with its option. -/
def names (p : Parser σ) : List (Text × Opt σ) :=
  p.options.flatMap fun o => o.names.map fun n => (n, o)

-- ==================================================== what an argument is

/-- The options that the beginning of a name may stand for. -/
def abbreviations (p : Parser σ) (s : Text) : List (Match σ) :=
  if s.startsWith divider then
    let (start, joined) :=
      match Text.cutFirst '=' s with
      | some (start, value) => (start, some value)
      | none => (s, none)
    (p.names.filter fun n => n.1.startsWith start).map fun n => ⟨some n.2, n.1, joined⟩
  else
    p.names.filterMap fun n =>
      if n.1 == s.take 2 then some ⟨some n.2, n.1, some (s.drop 2)⟩
      else if n.1.startsWith s then some ⟨some n.2, n.1, none⟩
      else none

/-- What an argument before the divider is. -/
def role (p : Parser σ) (s : Text) : Except Stop (Role σ) :=
  match s with
  | '-' :: _ :: _ =>
    match p.names.lookup s with
    | some o => .ok (.option ⟨some o, s, none⟩)
    | none =>
      let joined := do
        let (name, value) ← Text.cutFirst '=' s
        let o ← p.names.lookup name
        some (Match.mk (some o) name (some value))
      match joined with
      | some m => .ok (.option m)
      | none =>
        match p.abbreviations s with
        | [m] => .ok (.option m)
        | [] =>
          if isNegativeNumber s || s.contains ' ' then .ok .plain
          else .ok (.option ⟨none, s, none⟩)
        | ms =>
          p.refuse ("ambiguous option: ".toList ++ s ++ " could match ".toList ++
            Text.joinWith ", ".toList (ms.map (·.name)))
  | _ => .ok .plain

/-- What each argument is. -/
def roles (p : Parser σ) : List Text → Except Stop (List (Token σ))
  | [] => .ok []
  | s :: rest =>
    if s = divider then .ok ((s, .divider) :: rest.map fun t => (t, .plain))
    else do
      let r ← p.role s
      let more ← p.roles rest
      .ok ((s, r) :: more)

-- ==================================================== taking arguments

/-- What is known after some arguments: the state, whether the positional argument was taken, and
what nothing took. -/
structure Progress (σ : Type) where
  state : σ
  taken : Bool
  extras : List Text

/-- Whether an argument is an option. -/
def isOption (t : Token σ) : Bool :=
  match t.2 with
  | .option _ => true
  | _ => false

/-- Whether an argument is the divider. -/
def isDivider (t : Token σ) : Bool :=
  match t.2 with
  | .divider => true
  | _ => false

/-- How many arguments the positional argument takes here. -/
def extentOf (a : Positional σ) (tokens : List (Token σ)) : Nat :=
  let lead := (tokens.takeWhile isDivider).length
  match tokens.drop lead with
  | [] => 0
  | t :: _ =>
    if isOption t then 0
    else
      match a.extent with
      | .all => tokens.length
      | .some => (tokens.takeWhile fun t => !isOption t).length

/-- Gives the positional argument what it takes here, and says how many arguments those are. -/
def takePositional (p : Parser σ) (tokens : List (Token σ)) (s : Progress σ) :
    Except Stop (Progress σ × Nat) :=
  match p.positional with
  | none => .ok (s, 0)
  | some a =>
    if s.taken then .ok (s, 0)
    else
      match extentOf a tokens with
      | 0 => .ok (s, 0)
      | n => do
        let texts := (tokens.take n).map (·.1)
        let texts := if a.extent = .some then texts.erase divider else texts
        let state ← a.act texts s.state
        .ok ({ s with state := state, taken := true }, n)

/-- Checks a value and lets an option act on it. -/
def act (p : Parser σ) (o : Opt σ) (value : Text) (state : σ) : Except Stop σ :=
  if o.takesValue && !o.choices.isEmpty && !o.choices.contains value then
    p.refuseOption o ("invalid choice: ".toList ++ Text.quoted value ++ " (choose from ".toList ++
      Text.joinWith ", ".toList (o.choices.map Text.quoted) ++ [')'])
  else o.act value state

/-- A value joined to an option that takes none. -/
def ignored {α : Type} (p : Parser σ) (o : Opt σ) (value : Text) : Except Stop α :=
  p.refuseOption o ("ignored explicit argument ".toList ++ Text.quoted value)

/-- The options that letters after a short option stand for, and the values they take; the last
option may take what follows as its value. The text is what is joined to the option `o` of some
name. -/
def letters (p : Parser σ) (o : Opt σ) (name : Text) :
    Text → Except Stop (List (Opt σ × Option Text))
  | [] => if o.takesValue then .ok [(o, some [])] else p.ignored o []
  | c :: rest =>
    if o.takesValue then .ok [(o, some (c :: rest))]
    else if name.startsWith divider then p.ignored o (c :: rest)
    else
      match p.names.lookup ['-', c] with
      | none => p.ignored o (c :: rest)
      | some next =>
        match rest with
        | [] => .ok [(o, none), (next, none)]
        | rest => do .ok ((o, none) :: (← letters p next ['-', c] rest))

/-- Lets options act, each with its value; the last one may take its value from the arguments that
follow, and how many it took is said. -/
def actAll (p : Parser σ) (tokens : List (Token σ)) :
    List (Opt σ × Option Text) → σ → Except Stop (σ × Nat)
  | [], state => .ok (state, 0)
  | (o, some value) :: rest, state => do actAll p tokens rest (← p.act o value state)
  | (o, none) :: rest, state =>
    if !o.takesValue then do actAll p tokens rest (← p.act o [] state)
    else
      match tokens with
      | (value, .plain) :: _ => do .ok (← p.act o value state, 1)
      | _ => p.refuseOption o "expected one argument".toList

/-- Checks before any option acts that the last one finds its value. -/
def findsValue (tokens : List (Token σ)) : List (Opt σ × Option Text) → Option (Opt σ)
  | [] => none
  | [(o, none)] =>
    match o.takesValue, tokens with
    | false, _ => none
    | true, (_, .plain) :: _ => none
    | true, _ => some o
  | _ :: rest => findsValue tokens rest

/-- Lets the option at the beginning act; `tokens` are the arguments after it. The number says how
many of them it took. -/
def takeOption (p : Parser σ) (text : Text) (m : Match σ) (tokens : List (Token σ))
    (s : Progress σ) : Except Stop (Progress σ × Nat) :=
  match m.option with
  | none => .ok ({ s with extras := s.extras ++ [text] }, 0)
  | some o => do
    let options ←
      match m.joined with
      | none => .ok [(o, none)]
      | some value => p.letters o m.name value
    match findsValue tokens options with
    | some o => p.refuseOption o "expected one argument".toList
    | none =>
      let (state, n) ← p.actAll tokens options s.state
      .ok ({ s with state := state }, n)

/-- Takes arguments until none are left; the number bounds the steps. -/
def takeAll (p : Parser σ) : Nat → List (Token σ) → Progress σ → Except Stop (Progress σ)
  | 0, _, s => .ok s
  | fuel + 1, tokens, s =>
    if !tokens.any isOption then do
      let (s, n) ← p.takePositional tokens s
      .ok { s with extras := s.extras ++ (tokens.drop n).map (·.1) }
    else
      match tokens with
      | (text, .option m) :: rest => do
        let (s, n) ← p.takeOption text m rest s
        takeAll p fuel (rest.drop n) s
      | tokens => do
        let (s, n) ← p.takePositional tokens s
        if 0 < n then takeAll p fuel (tokens.drop n) s
        else
          let before := tokens.takeWhile fun t => !isOption t
          takeAll p fuel (tokens.drop before.length)
            { s with extras := s.extras ++ before.map (·.1) }

/-- Reads arguments: what they make of a state, and those that nothing takes. -/
def parse (p : Parser σ) (args : List Text) (state : σ) : Except Stop (σ × List Text) := do
  let tokens ← p.roles args
  let s ← p.takeAll (2 * tokens.length + 1) tokens ⟨state, false, []⟩
  match p.positional with
  | some a =>
    if a.required && !s.taken then
      p.refuse ("the following arguments are required: ".toList ++ a.label)
    else .ok (s.state, s.extras)
  | none => .ok (s.state, s.extras)

end Parser

end AuditTrail.Command
